import SharedArchive.Bytes.LittleEndian

/-!
The kinds of field a binary record is made of. A field has a width in bytes, a type of values, and
a way to read its value off that many bytes; a block keeps its bytes as they are, and a gap keeps
nothing.
-/

namespace SharedArchive

inductive Field
  | u8 | u16 | u32 | u64
  | i16 | i32 | i64
  | flag
  | block (size : Nat)
  | gap (size : Nat)
deriving DecidableEq

namespace Field

@[reducible] def Value : Field → Type
  | u8 => UInt8 | u16 => UInt16 | u32 => UInt32 | u64 => UInt64
  | i16 => Int16 | i32 => Int32 | i64 => Int64
  | flag => Bool
  | block _ => ByteArray
  | gap _ => Unit

def width : Field → Nat
  | u8 | flag => 1
  | u16 | i16 => 2
  | u32 | i32 => 4
  | u64 | i64 => 8
  | block size | gap size => size

/-- Signed numbers are in two's complement; a flag is set by any byte but zero. -/
def decode : (f : Field) → ByteArray → f.Value
  | u8, raw => UInt8.ofNat (littleEndian raw.data.toList)
  | u16, raw => UInt16.ofNat (littleEndian raw.data.toList)
  | u32, raw => UInt32.ofNat (littleEndian raw.data.toList)
  | u64, raw => UInt64.ofNat (littleEndian raw.data.toList)
  | i16, raw => (UInt16.ofNat (littleEndian raw.data.toList)).toInt16
  | i32, raw => (UInt32.ofNat (littleEndian raw.data.toList)).toInt32
  | i64, raw => (UInt64.ofNat (littleEndian raw.data.toList)).toInt64
  | flag, raw => littleEndian raw.data.toList != 0
  | block _, raw => raw
  | gap _, _ => ()

end Field

end SharedArchive
