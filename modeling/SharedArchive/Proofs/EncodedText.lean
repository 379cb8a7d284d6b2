import Mathlib
import SharedArchive.Text.Lossy

/-!
Decoding what was encoded. The bytes of a character take the decoder from between characters to
between characters and leave that character behind, so text comes back unchanged, and no
replacement is ever made in it.
-/

namespace SharedArchive.Text

section Openings

theorem ofByte_one {n : Nat} (h : n < 128) :
    Opening.ofByte (UInt8.ofNat n) = .whole (Char.ofNat n) := by
  have hn : (UInt8.ofNat n).toNat = n := UInt8.toNat_ofNat_of_lt' (h.trans (by decide))
  have hlt : UInt8.ofNat n < 0x80 := by
    rw [UInt8.lt_iff_toNat_lt, hn]
    exact h
  rw [Opening.ofByte, if_pos hlt, hn]

theorem ofByte_two {n : Nat} (hlow : 2 ≤ n) (hhigh : n < 32) :
    Opening.ofByte (UInt8.ofNat (n + 192)) = .partly ⟨1, 0x80, 0xbf, n⟩ := by
  interval_cases n <;> rfl

theorem ofByte_three {n : Nat} (h : n < 16) :
    Opening.ofByte (UInt8.ofNat (n + 224)) =
      .partly ⟨2, if n = 0 then 0xa0 else 0x80, if n = 13 then 0x9f else 0xbf, n⟩ := by
  interval_cases n <;> rfl

theorem ofByte_four {n : Nat} (h : n < 5) :
    Opening.ofByte (UInt8.ofNat (n + 240)) =
      .partly ⟨3, if n = 0 then 0x90 else 0x80, if n = 4 then 0x8f else 0xbf, n⟩ := by
  interval_cases n <;> rfl

end Openings

namespace Decoder

variable (t : Array Char)

theorem feed_whole {b : UInt8} {c : Char} (h : Opening.ofByte b = .whole c) :
    feed ⟨t, none⟩ b = ⟨t.push c, none⟩ := by
  simp [feed, fresh, h]

theorem feed_partly {b : UInt8} {p : Pending} (h : Opening.ofByte b = .partly p) :
    feed ⟨t, none⟩ b = ⟨t, some p⟩ := by
  simp [feed, fresh, h]

section Continuations

variable {least greatest : UInt8} {n : Nat}

theorem feed_next (lacking point : Nat) (hlow : least.toNat ≤ n + 128)
    (hhigh : n + 128 ≤ greatest.toNat) :
    feed ⟨t, some ⟨lacking, least, greatest, point⟩⟩ (UInt8.ofNat (n + 128)) =
      if lacking = 1 then ⟨t.push (Char.ofNat (64 * point + n)), none⟩
      else ⟨t, some ⟨lacking - 1, 0x80, 0xbf, 64 * point + n⟩⟩ := by
  have hn : (UInt8.ofNat (n + 128)).toNat = n + 128 :=
    UInt8.toNat_ofNat_of_lt' (hhigh.trans_lt greatest.toNat_lt)
  have hin : least ≤ UInt8.ofNat (n + 128) ∧ UInt8.ofNat (n + 128) ≤ greatest := by
    rw [UInt8.le_iff_toNat_le, UInt8.le_iff_toNat_le, hn]
    exact ⟨hlow, hhigh⟩
  simp only [feed]
  rw [if_pos hin, hn, Nat.add_sub_cancel]

theorem feed_more (lacking point : Nat) (hlow : least.toNat ≤ n + 128)
    (hhigh : n + 128 ≤ greatest.toNat) :
    feed ⟨t, some ⟨lacking + 2, least, greatest, point⟩⟩ (UInt8.ofNat (n + 128)) =
      ⟨t, some ⟨lacking + 1, 0x80, 0xbf, 64 * point + n⟩⟩ := by
  rw [feed_next t _ _ hlow hhigh, if_neg (by omega)]
  rfl

theorem feed_tail (lacking point : Nat) (h : n < 64) :
    feed ⟨t, some ⟨lacking + 2, 0x80, 0xbf, point⟩⟩ (UInt8.ofNat (n + 128)) =
      ⟨t, some ⟨lacking + 1, 0x80, 0xbf, 64 * point + n⟩⟩ :=
  feed_more t lacking point (Nat.le_add_left 128 n) (show n + 128 ≤ 191 by omega)

theorem feed_last (point : Nat) (h : n < 64) :
    feed ⟨t, some ⟨1, 0x80, 0xbf, point⟩⟩ (UInt8.ofNat (n + 128)) =
      ⟨t.push (Char.ofNat (64 * point + n)), none⟩ := by
  rw [feed_next t _ _ (Nat.le_add_left 128 n) (show n + 128 ≤ 191 by omega), if_pos rfl]

end Continuations

section Sequences

variable {v : Nat}

theorem feed_two (hlow : 128 ≤ v) (hhigh : v < 2048) :
    [UInt8.ofNat (v / 64 % 32 + 192), UInt8.ofNat (v % 64 + 128)].foldl feed ⟨t, none⟩ =
      ⟨t.push (Char.ofNat v), none⟩ := by
  have hsum : 64 * (v / 64 % 32) + v % 64 = v := by omega
  simp only [List.foldl_cons, List.foldl_nil]
  rw [feed_partly t (ofByte_two (by omega) (by omega)), feed_last t _ (by omega), hsum]

/-- A second byte out of the narrower ranges would spell an overlong form or a surrogate. -/
theorem feed_three (hlow : 2048 ≤ v) (hhigh : v < 65536) (hvalid : v < 55296 ∨ 57343 < v) :
    [UInt8.ofNat (v / 4096 % 16 + 224), UInt8.ofNat (v / 64 % 64 + 128),
      UInt8.ofNat (v % 64 + 128)].foldl feed ⟨t, none⟩ = ⟨t.push (Char.ofNat v), none⟩ := by
  have hsum : 64 * (64 * (v / 4096 % 16) + v / 64 % 64) + v % 64 = v := by omega
  have hleast : (if v / 4096 % 16 = 0 then 0xa0 else 0x80 : UInt8).toNat ≤ v / 64 % 64 + 128 := by
    split_ifs
    · change 160 ≤ _
      omega
    · exact Nat.le_add_left 128 _
  have hgreatest :
      v / 64 % 64 + 128 ≤ (if v / 4096 % 16 = 13 then 0x9f else 0xbf : UInt8).toNat := by
    split_ifs
    · change _ ≤ 159
      omega
    · change _ ≤ 191
      omega
  simp only [List.foldl_cons, List.foldl_nil]
  rw [feed_partly t (ofByte_three (by omega)), feed_more t 0 _ hleast hgreatest,
    feed_last t _ (by omega), hsum]

theorem feed_four (hlow : 65536 ≤ v) (hhigh : v < 1114112) :
    [UInt8.ofNat (v / 262144 % 8 + 240), UInt8.ofNat (v / 4096 % 64 + 128),
      UInt8.ofNat (v / 64 % 64 + 128), UInt8.ofNat (v % 64 + 128)].foldl feed ⟨t, none⟩ =
      ⟨t.push (Char.ofNat v), none⟩ := by
  have hsum : 64 * (64 * (64 * (v / 262144 % 8) + v / 4096 % 64) + v / 64 % 64) + v % 64 = v := by
    omega
  have hleast :
      (if v / 262144 % 8 = 0 then 0x90 else 0x80 : UInt8).toNat ≤ v / 4096 % 64 + 128 := by
    split_ifs
    · change 144 ≤ _
      omega
    · exact Nat.le_add_left 128 _
  have hgreatest :
      v / 4096 % 64 + 128 ≤ (if v / 262144 % 8 = 4 then 0x8f else 0xbf : UInt8).toNat := by
    split_ifs
    · change _ ≤ 143
      omega
    · change _ ≤ 191
      omega
  simp only [List.foldl_cons, List.foldl_nil]
  rw [feed_partly t (ofByte_four (by omega)), feed_more t 1 _ hleast hgreatest,
    feed_tail t 0 _ (by omega), feed_last t _ (by omega), hsum]

end Sequences

theorem feed_utf8EncodeChar (c : Char) :
    (String.utf8EncodeChar c).foldl feed ⟨t, none⟩ = ⟨t.push c, none⟩ := by
  have hvalid : c.toNat < 55296 ∨ 57343 < c.toNat ∧ c.toNat < 1114112 := c.valid
  have hv : c.val.toNat = c.toNat := rfl
  have hc : c = Char.ofNat c.toNat := (Char.ofNat_toNat c).symm
  simp only [String.utf8EncodeChar, hv]
  split_ifs with h1 h2 h3
  · simp only [List.foldl_cons, List.foldl_nil]
    rw [feed_whole t (ofByte_one (by omega)), ← hc]
  · rw [feed_two t (by omega) (by omega), ← hc]
  · rw [feed_three t (by omega) (by omega) (by omega), ← hc]
  · rw [feed_four t (by omega) (by omega), ← hc]

theorem feed_utf8Encode (cs : List Char) :
    (cs.flatMap String.utf8EncodeChar).foldl feed ⟨t, none⟩ = ⟨t ++ cs.toArray, none⟩ := by
  induction cs generalizing t with
  | nil => simp
  | cons c rest ih =>
    rw [List.flatMap_cons, List.foldl_append, feed_utf8EncodeChar, ih]
    simp

end Decoder

theorem lossyChars_utf8Encode (cs : List Char) :
    lossyChars (cs.flatMap String.utf8EncodeChar) = cs := by
  rw [lossyChars, Decoder.feed_utf8Encode]
  simp [Decoder.finish]

theorem lossy_toUTF8 (text : String) : lossy text.toUTF8 = text := by
  have hbytes : text.toUTF8 = text.toList.utf8Encode := by
    rw [← String.toByteArray_ofList, String.ofList_toList]
    rfl
  rw [lossy, hbytes, List.utf8Encode, List.data_toByteArray, lossyChars_utf8Encode,
    String.ofList_toList]

end SharedArchive.Text
