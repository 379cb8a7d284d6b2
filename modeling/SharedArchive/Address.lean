import SharedArchive.Header.Region

/-!
Addresses and file offsets. When an archive is written the first byte of a region lies at the
requested base plus the region's mapping offset, and it is stored at the region's file offset, so an
address and its file offset are equally far from the two. The distance is taken modulo `2 ^ 64`.
-/

namespace SharedArchive

structure Translator where
  base : UInt64
deriving DecidableEq

namespace Translator

variable (t : Translator) (r : Region)

def regionBase : UInt64 := t.base + r.mappingOffset

def toFileOffset (address : UInt64) : UInt64 := r.fileOffset + (address - t.regionBase r)

def toAddress (fileOffset : UInt64) : UInt64 := t.regionBase r + (fileOffset - r.fileOffset)

def regionOffset? (address : UInt64) : Option UInt64 :=
  let distance := address - t.regionBase r
  if distance < r.used then some distance else none

def resolve? (address : UInt64) : Option UInt64 :=
  (t.regionOffset? r address).map (r.fileOffset + ·)

theorem toAddress_toFileOffset (address : UInt64) :
    t.toAddress r (t.toFileOffset r address) = address := by
  grind [toAddress, toFileOffset]

theorem toFileOffset_toAddress (fileOffset : UInt64) :
    t.toFileOffset r (t.toAddress r fileOffset) = fileOffset := by
  grind [toAddress, toFileOffset]

end Translator

/-- The addresses from `start` up to `stop`, none if they are not in this order. -/
structure AddressRange where
  start : UInt64
  stop : UInt64
deriving DecidableEq

def AddressRange.isEmpty (a : AddressRange) : Bool := a.stop ≤ a.start

def Region.mappedRange (r : Region) (base : UInt64) : AddressRange :=
  let start := base + r.mappingOffset
  ⟨start, start + r.used⟩

end SharedArchive
