import SharedArchive.Header
import SharedArchive.Span

/-!
The bytes of the regions. A payload is a region's whole span, padding included, so what the region
says it uses may be less than the payload or more; a claim of more is reported and cut back. The
code region is never read.
-/

namespace SharedArchive

open Reader (emit field)

structure Payload where
  kind : RegionKind
  region : Region
  bytes : ByteArray

namespace Payload

def usedSize (p : Payload) : Nat := min p.region.used.toNat p.bytes.size

def usedBytes (p : Payload) : ByteArray := p.bytes.extract 0 p.usedSize

theorem usedBytes_size (p : Payload) : p.usedBytes.size = p.usedSize := by
  simp only [usedBytes, ByteArray.size_extract, usedSize]
  omega

def readSpan (regions : RegionTable) (k : RegionKind) (r : Region) :
    Reader Truncated ByteArray := do
  let fileSize ← Reader.size
  match Span.ofStart? regions.offsets fileSize r.fileOffset.toNat with
  | none =>
    emit (.regionAbsent k)
    return .empty
  | some span =>
    if span.length < r.used.toNat then
      emit (.regionClipped k r.used span.length)
    emit (.regionSpan k span.start span.stop)
    Reader.seek span.start
    field (.block span.length)

def read (regions : RegionTable) (k : RegionKind) : Reader Truncated Payload := do
  let region := regions.get k
  let bytes ← match k with
    | .code => pure .empty
    | _ => readSpan regions k region
  return { kind := k, region, bytes }

def readAll (regions : RegionTable) : Reader Truncated (Table Payload) :=
  Reader.aside (Table.build (read regions))

end Payload

end SharedArchive
