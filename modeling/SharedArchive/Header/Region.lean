import SharedArchive.Bytes.Layout
import SharedArchive.Text.Description

/-!
Regions and the tables that hold one entry for each kind of region. A region's kind is its place in
the table and nothing else; its flag words are kept as written.
-/

namespace SharedArchive

inductive RegionKind
  | readWrite
  | readOnly
  | bitmap
  | heap
  | code
deriving DecidableEq

namespace RegionKind

def all : List RegionKind := [readWrite, readOnly, bitmap, heap, code]

def index : RegionKind → Nat
  | readWrite => 0
  | readOnly => 1
  | bitmap => 2
  | heap => 3
  | code => 4

def ofIndex? (n : Nat) : Option RegionKind := all[n]?

def shortName : RegionKind → String
  | readWrite => "rw"
  | readOnly => "ro"
  | bitmap => "bm"
  | heap => "hp"
  | code => "ac"

theorem ofIndex?_index (k : RegionKind) : ofIndex? k.index = some k := by cases k <;> rfl

end RegionKind

structure Table (α : Type) where
  readWrite : α
  readOnly : α
  bitmap : α
  heap : α
  code : α
deriving DecidableEq

namespace Table

variable {α : Type}

def get (t : Table α) : RegionKind → α
  | .readWrite => t.readWrite
  | .readOnly => t.readOnly
  | .bitmap => t.bitmap
  | .heap => t.heap
  | .code => t.code

def toList (t : Table α) : List α := [t.readWrite, t.readOnly, t.bitmap, t.heap, t.code]

def entries (t : Table α) : List (RegionKind × α) := RegionKind.all.map fun k => (k, t.get k)

def build {m : Type → Type} [Monad m] (entry : RegionKind → m α) : m (Table α) := do
  let readWrite ← entry .readWrite
  let readOnly ← entry .readOnly
  let bitmap ← entry .bitmap
  let heap ← entry .heap
  let code ← entry .code
  return { readWrite, readOnly, bitmap, heap, code }

theorem toList_get (t : Table α) : t.toList = RegionKind.all.map t.get := rfl

theorem get_mem (t : Table α) (k : RegionKind) : t.get k ∈ t.toList := by
  cases k <;> simp [get, toList]

end Table

structure Region where
  crc : UInt32 := 0
  readOnly : UInt32 := 0
  allowExec : UInt32 := 0
  heapFlag : UInt32 := 0
  bitmapFlag : UInt32 := 0
  mappedFromFile : UInt32 := 0
  fileOffset : UInt64 := 0
  mappingOffset : UInt64 := 0
  used : UInt64 := 0
  oopmapOffset : UInt64 := 0
  oopmapBits : UInt64 := 0
  ptrmapOffset : UInt64 := 0
  ptrmapBits : UInt64 := 0
deriving DecidableEq

namespace Region

/-- The size of the end of an entry, which means something only to the running machine. -/
def runtimeGap : Nat := 16

def format : Format Region where
  layout := [.u32, .u32, .u32, .u32, .u32, .u32, .u64, .u64, .u64, .u64, .u64, .u64, .u64,
    .gap runtimeGap]
  build := fun (crc, readOnly, allowExec, heapFlag, bitmapFlag, mappedFromFile, fileOffset,
      mappingOffset, used, oopmapOffset, oopmapBits, ptrmapOffset, ptrmapBits, (), ()) =>
    { crc, readOnly, allowExec, heapFlag, bitmapFlag, mappedFromFile, fileOffset, mappingOffset,
      used, oopmapOffset, oopmapBits, ptrmapOffset, ptrmapBits }

def isReadOnly (r : Region) : Bool := r.readOnly != 0
def allowsExec (r : Region) : Bool := r.allowExec != 0
def isHeap (r : Region) : Bool := r.heapFlag != 0
def isBitmap (r : Region) : Bool := r.bitmapFlag != 0
def isMappedFromFile (r : Region) : Bool := r.mappedFromFile != 0
def isEmpty (r : Region) : Bool := r.used == 0

open Text.Description in
def describe (r : Region) : Text.Description :=
  record "Region" [
    ("crc", ofUInt32 r.crc),
    ("read_only", ofUInt32 r.readOnly),
    ("allow_exec", ofUInt32 r.allowExec),
    ("is_heap_region", ofUInt32 r.heapFlag),
    ("is_bitmap_region", ofUInt32 r.bitmapFlag),
    ("mapped_from_file", ofUInt32 r.mappedFromFile),
    ("file_offset", ofUInt64 r.fileOffset),
    ("mapping_offset", ofUInt64 r.mappingOffset),
    ("used", ofUInt64 r.used),
    ("oopmap_offset", ofUInt64 r.oopmapOffset),
    ("oopmap_size_in_bits", ofUInt64 r.oopmapBits),
    ("ptrmap_offset", ofUInt64 r.ptrmapOffset),
    ("ptrmap_size_in_bits", ofUInt64 r.ptrmapBits)]

end Region

abbrev RegionTable := Table Region

def Table.offsets (t : RegionTable) : List Nat := t.toList.map fun r => r.fileOffset.toNat

end SharedArchive
