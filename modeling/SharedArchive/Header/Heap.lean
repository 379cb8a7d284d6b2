import SharedArchive.Bytes.Layout
import SharedArchive.Text.Description

/-!
The two heap headers. They stand one after the other in every archive, and nothing in the file says
which of them counts, so both are kept and a reader picks one as a view.
-/

namespace SharedArchive

structure HeapRootSegments where
  baseOffset : UInt64
  count : UInt64
  rootsCount : Int32
  maxSizeInBytes : UInt64
  maxSizeInElems : Int32
deriving DecidableEq

structure MappedHeapHeader where
  ptrmapStart : UInt64
  oopmapStart : UInt64
  rootSegments : HeapRootSegments
deriving DecidableEq

structure StreamedHeapHeader where
  forwardingOffset : UInt64
  rootsOffset : UInt64
  rootIndexTableOffset : UInt64
  rootCount : UInt64
  objectCount : UInt64
deriving DecidableEq

structure HeapHeaders where
  mapped : MappedHeapHeader
  streamed : StreamedHeapHeader
deriving DecidableEq

inductive HeapKind
  | mapped
  | streamed
deriving DecidableEq

inductive HeapHeader
  | mapped (h : MappedHeapHeader)
  | streamed (h : StreamedHeapHeader)
deriving DecidableEq

def HeapKind.name : HeapKind → String
  | mapped => "Mapped"
  | streamed => "Streamed"

def HeapHeaders.view (h : HeapHeaders) : HeapKind → HeapHeader
  | .mapped => .mapped h.mapped
  | .streamed => .streamed h.streamed

def MappedHeapHeader.format : Format MappedHeapHeader where
  layout := [.u64, .u64, .u64, .u64, .i32, .gap 4, .u64, .i32, .gap 4]
  build := fun (ptrmapStart, oopmapStart, baseOffset, count, rootsCount, (), maxSizeInBytes,
      maxSizeInElems, (), ()) =>
    { ptrmapStart, oopmapStart
      rootSegments := { baseOffset, count, rootsCount, maxSizeInBytes, maxSizeInElems } }

def StreamedHeapHeader.format : Format StreamedHeapHeader where
  layout := [.u64, .u64, .u64, .u64, .u64]
  build := fun (forwardingOffset, rootsOffset, rootIndexTableOffset, rootCount, objectCount, ()) =>
    { forwardingOffset, rootsOffset, rootIndexTableOffset, rootCount, objectCount }

section Describe

open Text.Description

def HeapRootSegments.describe (s : HeapRootSegments) : Text.Description :=
  record "HeapRootSegments" [
    ("base_offset", ofUInt64 s.baseOffset),
    ("count", ofUInt64 s.count),
    ("roots_count", ofInt32 s.rootsCount),
    ("max_size_in_bytes", ofUInt64 s.maxSizeInBytes),
    ("max_size_in_elems", ofInt32 s.maxSizeInElems)]

def MappedHeapHeader.describe (h : MappedHeapHeader) : Text.Description :=
  record "MappedHeapHeader" [
    ("ptrmap_start_pos", ofUInt64 h.ptrmapStart),
    ("oopmap_start_pos", ofUInt64 h.oopmapStart),
    ("root_segments", h.rootSegments.describe)]

def StreamedHeapHeader.describe (h : StreamedHeapHeader) : Text.Description :=
  record "StreamedHeapHeader" [
    ("forwarding_offset", ofUInt64 h.forwardingOffset),
    ("roots_offset", ofUInt64 h.rootsOffset),
    ("root_highest_object_index_table_offset", ofUInt64 h.rootIndexTableOffset),
    ("num_roots", ofUInt64 h.rootCount),
    ("num_archived_objects", ofUInt64 h.objectCount)]

def HeapHeaders.describe (h : HeapHeaders) : Text.Description :=
  record "HeapHeaders" [("mapped", h.mapped.describe), ("streamed", h.streamed.describe)]

def HeapHeader.describe : HeapHeader → Text.Description
  | mapped h => choice HeapKind.mapped.name h.describe
  | streamed h => choice HeapKind.streamed.name h.describe

end Describe

end SharedArchive
