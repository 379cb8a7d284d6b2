import Mathlib
import SharedArchive.Bytes.LittleEndian

/-!
Bounds of numbers written least significant byte first: `n` bytes spell a number below `256 ^ n`,
and writing a number with `n` bytes keeps it up to that bound. The number at a place of a source is
the one that the bytes from there on spell, and a word of as many bytes holds it.
-/

namespace SharedArchive

theorem littleEndian_lt (bs : List UInt8) : littleEndian bs < 256 ^ bs.length := by
  induction bs with
  | nil => simp [littleEndian]
  | cons b bs ih =>
    have hb := b.toNat_lt
    simp only [littleEndian, List.length_cons, Nat.pow_succ]
    omega

theorem littleEndian_toLittleEndian (width n : Nat) :
    littleEndian (toLittleEndian width n) = n % 256 ^ width := by
  induction width generalizing n with
  | zero => simp [toLittleEndian, littleEndian, Nat.mod_one]
  | succ width ih =>
    have hb : (UInt8.ofNat n).toNat = n % 256 := UInt8.toNat_ofNat'
    simp only [toLittleEndian, littleEndian, ih, hb]
    rw [Nat.pow_succ, Nat.mul_comm (256 ^ width) 256, Nat.mod_mul]

theorem littleEndian_toLittleEndian_of_lt {width n : Nat} (h : n < 256 ^ width) :
    littleEndian (toLittleEndian width n) = n := by
  rw [littleEndian_toLittleEndian, Nat.mod_eq_of_lt h]

theorem toLittleEndian_of_length {width : Nat} {bs : List UInt8} (h : bs.length = width) :
    toLittleEndian width (littleEndian bs) = bs := by
  subst h
  exact toLittleEndian_littleEndian bs

theorem extract_append_of_le {source : ByteArray} (suffix : ByteArray) {i j : Nat}
    (h : j ≤ source.size) : (source ++ suffix).extract i j = source.extract i j := by
  have he : suffix.extract (i - source.size) (j - source.size) = ByteArray.empty :=
    ByteArray.extract_eq_empty_iff.2 (by omega)
  rw [ByteArray.extract_append, he, ByteArray.append_empty]

/-- The number that the `width` bytes from `position` on spell. -/
def numberAt (source : ByteArray) (position width : Nat) : Nat :=
  littleEndian (source.extract position (position + width)).data.toList

theorem numberAt_lt (source : ByteArray) (position width : Nat) :
    numberAt source position width < 256 ^ width := by
  have hb := littleEndian_lt (source.extract position (position + width)).data.toList
  have hw : (source.extract position (position + width)).data.toList.length ≤ width := by
    rw [Array.length_toList]
    change (source.extract position (position + width)).size ≤ width
    rw [ByteArray.size_extract]
    omega
  exact hb.trans_le (Nat.pow_le_pow_right (by decide) hw)

theorem toNat_uint8_numberAt (source : ByteArray) (position : Nat) :
    (UInt8.ofNat (numberAt source position 1)).toNat = numberAt source position 1 :=
  UInt8.toNat_ofNat_of_lt' (numberAt_lt source position 1)

theorem toNat_uint16_numberAt (source : ByteArray) (position : Nat) :
    (UInt16.ofNat (numberAt source position 2)).toNat = numberAt source position 2 :=
  UInt16.toNat_ofNat_of_lt' (numberAt_lt source position 2)

theorem toNat_uint32_numberAt (source : ByteArray) (position : Nat) :
    (UInt32.ofNat (numberAt source position 4)).toNat = numberAt source position 4 :=
  UInt32.toNat_ofNat_of_lt' (numberAt_lt source position 4)

theorem toNat_uint64_numberAt (source : ByteArray) (position : Nat) :
    (UInt64.ofNat (numberAt source position 8)).toNat = numberAt source position 8 :=
  UInt64.toNat_ofNat_of_lt' (numberAt_lt source position 8)

theorem toInt_int32_numberAt (source : ByteArray) (position : Nat) :
    (UInt32.ofNat (numberAt source position 4)).toInt32.toInt =
      (numberAt source position 4 : Int).bmod (256 ^ 4) :=
  BitVec.toInt_ofNat' _

theorem toInt_int64_numberAt (source : ByteArray) (position : Nat) :
    (UInt64.ofNat (numberAt source position 8)).toInt64.toInt =
      (numberAt source position 8 : Int).bmod (256 ^ 8) :=
  BitVec.toInt_ofNat' _

theorem numberAt_extract {source : ByteArray} {start stop position width : Nat}
    (h : start + position + width ≤ stop) :
    numberAt (source.extract start stop) position width =
      numberAt source (start + position) width := by
  have hm : min (start + (position + width)) stop = start + position + width := by omega
  rw [numberAt, ByteArray.extract_extract, hm, numberAt]

theorem numberAt_append {source : ByteArray} (suffix : ByteArray) {position width : Nat}
    (h : position + width ≤ source.size) :
    numberAt (source ++ suffix) position width = numberAt source position width := by
  rw [numberAt, extract_append_of_le suffix h, numberAt]

end SharedArchive
