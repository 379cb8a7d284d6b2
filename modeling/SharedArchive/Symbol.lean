import SharedArchive.Reader
import SharedArchive.Text.Lossy

/-!
Symbols: a hash word, a length and that many bytes of text. A symbol is known only by where it was
read, so reading one leaves the position alone.
-/

namespace SharedArchive

structure Symbol where
  fileOffset : UInt64
  hashAndRefcount : UInt32
  length : UInt16
  body : String
deriving DecidableEq

namespace Symbol

def headLayout : Layout := [.u32, .u16]

def headSize : Nat := headLayout.size

def size (s : Symbol) : Nat := headSize + s.length.toNat

def read (fileOffset : UInt64) : Reader Truncated Symbol := Reader.aside do
  Reader.seek fileOffset.toNat
  let hashAndRefcount ← Reader.field .u32
  let length ← Reader.field .u16
  let body ← Reader.field (.block length.toNat)
  return { fileOffset, hashAndRefcount, length, body := Text.lossy body }

end Symbol

end SharedArchive
