import SharedArchive.Scan

/-!
An archive: the headers of a file together with its bytes. Every question is answered by a reader
that starts afresh at the start of the file, so no answer depends on the questions before it.
-/

namespace SharedArchive

structure Archive where
  source : ByteArray
  header : Header

namespace Archive

def ofBytes (expected : UInt32) (source : ByteArray) : Outcome Failure Archive :=
  let x := (Header.read expected).outcome source
  ⟨x.result.map fun header => { source, header }, x.events⟩

def ofFile (expected : UInt32) (path : String) (contents : Except FileFault ByteArray) :
    Outcome Failure Archive :=
  match contents with
  | .error fault => ⟨.error (.file fault), []⟩
  | .ok source =>
    let x := ofBytes expected source
    ⟨x.result, .fileMapped path source.size :: x.events⟩

def generic (a : Archive) : GenericHeader := a.header.generic

def regions (a : Archive) : RegionTable := a.header.regions

def config (a : Archive) : Configuration := a.header.config

def translator (a : Archive) : Translator := ⟨a.config.requestedBase⟩

def ask {α : Type} (a : Archive) (r : Reader Truncated α) : Outcome Failure α :=
  (r.mapError .truncated).outcome a.source

def payloads (a : Archive) : Outcome Failure (Table Payload) := a.ask (Payload.readAll a.regions)

def textToNul (raw : ByteArray) : String :=
  String.ofList (Text.lossyChars (raw.data.toList.takeWhile (· ≠ 0)))

/-- The name of the archive that this one is laid over, if it records one. -/
def readBaseName (h : GenericHeader) : Reader Truncated (Option String) :=
  if h.hasBase then do
    Reader.seek h.baseNameOffset.toNat
    let raw ← Reader.field (.block h.baseNameSize.toNat)
    return some (textToNul raw)
  else return none

def baseName (a : Archive) : Outcome Failure (Option String) := a.ask (readBaseName a.generic)

def readSymbols (a : Archive) (pattern : UInt64) : Reader Truncated (List SymbolMatch) := do
  let payloads ← Payload.readAll a.regions
  let found ←
    (Scan.start pattern a.source payloads.readWrite a.regions.readOnly a.translator).run
  Reader.emit (.symbolsCounted found.length pattern)
  return found

def symbols (a : Archive) (pattern : UInt64) : Outcome Failure (List SymbolMatch) :=
  a.ask (a.readSymbols pattern)

end Archive

end SharedArchive
