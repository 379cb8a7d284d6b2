import SharedArchive.Archive

/-!
What the command prints about an archive, line by line.
-/

namespace SharedArchive.Command

open Text (Hex.marked Hex.padded)

namespace Report

def header (a : Archive) (baseName : Option String) : List String :=
  let g := a.generic
  let c := a.config
  ["Valid AOTCache file",
    s!"  magic: {Hex.padded 8 g.magic.toNat}",
    s!"  crc: {Hex.padded 8 g.crc.toNat}",
    s!"  version: {g.version.toInt}",
    s!"  header size: {g.headerSize}"] ++
  (baseName.map fun name => s!"  base archive: {name}").toList ++
  [s!"  jvm ident: {c.trimmedIdentity}",
    s!"  core region alignment: {Hex.marked c.coreRegionAlignment.toNat}",
    s!"  object alignment: {c.objectAlignment.toInt}",
    s!"  narrow oop: base {Hex.marked c.narrowOopBase.toNat}, shift {c.narrowOopShift.toInt}, " ++
      s!"mode {c.narrowOopMode.toInt}",
    s!"  narrow klass: {c.narrowKlassBits.toInt} bits, shift {c.narrowKlassShift.toInt}",
    s!"  compressed oops: {c.compressedOops}",
    s!"  compressed class pointers: {c.compressedClassPointers}",
    s!"  compact strings: {c.compactStrings}",
    s!"  compact headers: {c.compactHeaders}",
    s!"  object streaming mode: {c.objectStreaming}",
    s!"  max heap size: {c.maxHeapSize}",
    s!"  requested base address: {Hex.marked c.requestedBase.toNat}",
    s!"  mapped base address: {Hex.marked c.mappedBase.toNat}",
    s!"  has aot linked classes: {c.hasAotLinkedClasses}",
    s!"  has full module graph: {c.hasFullModuleGraph}"] ++
  [HeapKind.mapped, HeapKind.streamed].map fun k =>
    s!"  heap header ({k.name}): {(c.heap.view k).describe.render}"

def region (p : Payload) : String :=
  s!"  {p.kind.shortName}: file offset {Hex.marked p.region.fileOffset.toNat}, " ++
    s!"mapping offset {Hex.marked p.region.mappingOffset.toNat}, used {p.region.used}, " ++
    s!"span {p.bytes.size}"

def regions (payloads : Table Payload) : List String :=
  "Regions:" :: payloads.toList.map region

def symbol (m : SymbolMatch) : String :=
  s!"  rw+{Hex.marked m.regionOffset} (file {Hex.marked m.fileOffset.toNat}) -> " ++
    s!"{Hex.marked m.pointer.toNat} (file {Hex.marked m.symbol.fileOffset.toNat}): {m.name}"

def symbols (found : List SymbolMatch) : List String :=
  s!"Symbols ({found.length}):" :: found.map symbol

def failure : Failure → List String
  | .wrongMagic _ actual =>
    [s!"Invalid AOTCache file: magic number mismatch (actual: {Hex.padded 8 actual.toNat})"]
  | .truncated _ => ["Invalid AOTCache file: file too short"]
  | .file _ => []

end Report

end SharedArchive.Command
