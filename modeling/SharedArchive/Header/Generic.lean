import SharedArchive.Bytes.Layout
import SharedArchive.Text.Description

/-!
The generic header that every archive begins with. Its magic is kept as read, since it is for the
reader of the whole file to say which magic will do.
-/

namespace SharedArchive

structure GenericHeader where
  magic : UInt32
  crc : UInt32
  version : Int32
  headerSize : UInt32
  baseNameOffset : UInt32
  baseNameSize : UInt32
deriving DecidableEq

namespace GenericHeader

def format : Format GenericHeader where
  layout := [.u32, .u32, .i32, .u32, .u32, .u32]
  build := fun (magic, crc, version, headerSize, baseNameOffset, baseNameSize, ()) =>
    { magic, crc, version, headerSize, baseNameOffset, baseNameSize }

def hasBase (h : GenericHeader) : Bool := 0 < h.baseNameSize

open Text.Description in
def describe (h : GenericHeader) : Text.Description :=
  record "GenericHeader" [
    ("magic", ofUInt32 h.magic),
    ("crc", ofUInt32 h.crc),
    ("version", ofInt32 h.version),
    ("header_size", ofUInt32 h.headerSize),
    ("base_archive_name_offset", ofUInt32 h.baseNameOffset),
    ("base_archive_name_size", ofUInt32 h.baseNameSize)]

end GenericHeader

end SharedArchive
