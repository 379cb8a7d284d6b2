import SharedArchive.Bytes.Buffer
import SharedArchive.Header.Configuration
import SharedArchive.Header.Generic
import SharedArchive.Header.Region
import SharedArchive.Text.Quoted

/-!
What happens while an archive is read, as values: each event has a level and a text. Text that comes
out of a file is quoted, and everything else in an event's text is fixed or a number.
-/

namespace SharedArchive

/-- From the most to the least severe. -/
inductive Level
  | error
  | warn
  | info
  | debug
  | trace
deriving DecidableEq

namespace Level

def rank : Level → Nat
  | error => 0
  | warn => 1
  | info => 2
  | debug => 3
  | trace => 4

def label : Level → String
  | error => "ERROR"
  | warn => "WARN"
  | info => "INFO"
  | debug => "DEBUG"
  | trace => "TRACE"

def column : Level → String
  | error => "ERROR"
  | warn => " WARN"
  | info => " INFO"
  | debug => "DEBUG"
  | trace => "TRACE"

end Level

inductive Event
  | fileMapped (path : String) (size : Nat)
  | genericHeader (h : GenericHeader)
  | headerOversized (size : UInt32) (fileSize : Nat)
  | region (k : RegionKind) (r : Region)
  | identity (text : String)
  | heapHeaders (h : HeapHeaders)
  | profile (p : ProfileSettings)
  | headerRead (version : Int32) (requestedBase : UInt64)
  | regionAbsent (k : RegionKind)
  | regionClipped (k : RegionKind) (used : UInt64) (available : Nat)
  | regionSpan (k : RegionKind) (start stop : Nat)
  | pointerOutside (pointer : UInt64) (offset : Nat)
  | symbolUnreadable (target : UInt64) (cause : Truncated)
  | symbolFound (name : String) (offset : Nat) (pointer : UInt64)
  | symbolsCounted (count : Nat) (pattern : UInt64)
  | cutShort (cause : Truncated)
deriving DecidableEq

namespace Event

open Text (Hex.marked Hex.padded quote)

def level : Event → Level
  | cutShort .. => .error
  | headerOversized .. | regionClipped .. => .warn
  | fileMapped .. => .info
  | headerRead .. | regionAbsent .. | regionSpan .. | symbolFound .. | symbolsCounted .. => .debug
  | genericHeader .. | region .. | identity .. | heapHeaders .. | profile .. | pointerOutside ..
  | symbolUnreadable .. => .trace

def text : Event → String
  | fileMapped path size => s!"mapped {path} ({size} bytes)"
  | genericHeader h => "parsed generic header " ++ h.describe.render
  | headerOversized size fileSize =>
    s!"header size {size} is larger than the file ({fileSize} bytes)"
  | region k r => s!"parsed region {k.shortName} " ++ r.describe.render
  | identity name => "parsed jvm ident " ++ quote name
  | heapHeaders h => "parsed heap headers " ++ h.describe.render
  | profile p => "parsed profile settings " ++ p.describe.render
  | headerRead version requestedBase =>
    s!"parsed header, version {version.toInt}, requested base {Hex.marked requestedBase.toNat}"
  | regionAbsent k => s!"region {k.shortName} has no bytes in the file"
  | regionClipped k used available =>
    s!"region {k.shortName} claims {used} used bytes but only {available} are available " ++
      "before the next region"
  | regionSpan k start stop =>
    s!"region {k.shortName} spans [{Hex.marked start}, {Hex.marked stop})"
  | pointerOutside pointer offset =>
    s!"pointer {Hex.marked pointer.toNat} at rw+{Hex.marked offset} is outside ro"
  | symbolUnreadable target cause =>
    s!"symbol at {Hex.marked target.toNat} could not be read: {cause.message}"
  | symbolFound name offset pointer =>
    s!"symbol {quote name} at rw+{Hex.marked offset} via {Hex.marked pointer.toNat}"
  | symbolsCounted count pattern =>
    s!"found {count} symbols with pattern 0x{Hex.padded 16 pattern.toNat}"
  | cutShort cause => cause.message

def visible (kept : Level) (e : Event) : Bool := e.level.rank ≤ kept.rank

end Event

end SharedArchive
