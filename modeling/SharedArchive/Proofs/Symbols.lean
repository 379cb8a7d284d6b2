import Mathlib
import SharedArchive.Symbol
import SharedArchive.Proofs.LittleEndian
import SharedArchive.Proofs.Reading

/-!
The symbol that stands at an offset of a source: whether one fits there, what it is, and where
reading one that does not fit gives up.
-/

namespace SharedArchive.Symbol

section

variable (source : ByteArray) (fileOffset : UInt64)

def lengthAt : Nat := numberAt source (fileOffset.toNat + 4) 2

def Fits : Prop :=
  fileOffset.toNat + 6 ≤ source.size ∧
    fileOffset.toNat + 6 + lengthAt source fileOffset ≤ source.size

instance : Decidable (Fits source fileOffset) := by
  unfold Fits
  infer_instance

def ofSource : Symbol where
  fileOffset := fileOffset
  hashAndRefcount := UInt32.ofNat (numberAt source fileOffset.toNat 4)
  length := UInt16.ofNat (lengthAt source fileOffset)
  body := Text.lossy (source.extract (fileOffset.toNat + 6)
    (fileOffset.toNat + 6 + lengthAt source fileOffset))

theorem lengthAt_toUInt16 : (UInt16.ofNat (lengthAt source fileOffset)).toNat =
    lengthAt source fileOffset :=
  toNat_uint16_numberAt source (fileOffset.toNat + 4)

end

theorem read_result (source : ByteArray) (fileOffset : UInt64) (p : Nat) :
    (read fileOffset source p).result =
      if source.size < fileOffset.toNat + 4 then
        .error ⟨4, source.size - fileOffset.toNat, fileOffset.toNat⟩
      else if source.size < fileOffset.toNat + 6 then
        .error ⟨2, source.size - (fileOffset.toNat + 4), fileOffset.toNat + 4⟩
      else if source.size < fileOffset.toNat + 6 + lengthAt source fileOffset then
        .error ⟨lengthAt source fileOffset, source.size - (fileOffset.toNat + 6),
          fileOffset.toNat + 6⟩
      else .ok (ofSource source fileOffset) := by
  have hseek : Reader.seek fileOffset.toNat source p =
      (⟨.ok (), fileOffset.toNat, []⟩ : Reading Truncated Unit) := rfl
  have hhash (h : fileOffset.toNat + 4 ≤ source.size) :
      Reader.field .u32 source fileOffset.toNat =
        ⟨.ok (UInt32.ofNat (numberAt source fileOffset.toNat 4)), fileOffset.toNat + 4, []⟩ :=
    Reader.field_fits (Nat.le_sub_of_add_le' h)
  have hlength (h : fileOffset.toNat + 4 + 2 ≤ source.size) :
      Reader.field .u16 source (fileOffset.toNat + 4) =
        ⟨.ok (UInt16.ofNat (lengthAt source fileOffset)), fileOffset.toNat + 6, []⟩ :=
    Reader.field_fits (Nat.le_sub_of_add_le' h)
  have hn := lengthAt_toUInt16 source fileOffset
  simp only [read, Reader.aside]
  rw [Reader.bind_ok hseek]
  dsimp only
  split_ifs with h4 h6 hbody
  · have ht : source.size - fileOffset.toNat < Field.u32.width := by
      change _ < 4
      omega
    rw [Reader.bind_error (Reader.field_truncated ht)]
    rfl
  · have ht : source.size - (fileOffset.toNat + 4) < Field.u16.width := by
      change _ < 2
      omega
    rw [Reader.bind_ok (hhash (by omega)), Reader.bind_error (Reader.field_truncated ht)]
    rfl
  · have ht : source.size - (fileOffset.toNat + 6) < (Field.block
        (UInt16.ofNat (lengthAt source fileOffset)).toNat).width := by
      change _ < (UInt16.ofNat (lengthAt source fileOffset)).toNat
      omega
    rw [Reader.bind_ok (hhash (by omega)), Reader.bind_ok (hlength (by omega)),
      Reader.bind_error (Reader.field_truncated ht)]
    simp only [Field.width, hn]
  · have hf : (Field.block (UInt16.ofNat (lengthAt source fileOffset)).toNat).width ≤
        source.size - (fileOffset.toNat + 6) := by
      change (UInt16.ofNat (lengthAt source fileOffset)).toNat ≤ _
      omega
    rw [Reader.bind_ok (hhash (by omega)), Reader.bind_ok (hlength (by omega)),
      Reader.bind_ok (Reader.field_fits hf)]
    simp only [Reader.pure_reading, Field.decode, Field.width, hn, ofSource]

theorem read_position (source : ByteArray) (fileOffset : UInt64) (p : Nat) :
    (read fileOffset source p).position = p := rfl

theorem read_result_start (source : ByteArray) (fileOffset : UInt64) (p : Nat) :
    (read fileOffset source p).result = (read fileOffset source 0).result := by
  rw [read_result, read_result]

theorem read_fits {source : ByteArray} {fileOffset : UInt64} (p : Nat)
    (h : Fits source fileOffset) :
    (read fileOffset source p).result = .ok (ofSource source fileOffset) := by
  obtain ⟨h6, hn⟩ := h
  rw [read_result, if_neg (by omega), if_neg (by omega), if_neg (by omega)]

theorem read_not_fits {source : ByteArray} {fileOffset : UInt64} (p : Nat)
    (h : ¬ Fits source fileOffset) : ∃ e, (read fileOffset source p).result = .error e := by
  rw [read_result]
  split_ifs with h4 h6 hn
  · exact ⟨_, rfl⟩
  · exact ⟨_, rfl⟩
  · exact ⟨_, rfl⟩
  · exact absurd ⟨by omega, by omega⟩ h

theorem read_ok_iff {source : ByteArray} {fileOffset : UInt64} {p : Nat} {s : Symbol} :
    (read fileOffset source p).result = .ok s ↔
      Fits source fileOffset ∧ s = ofSource source fileOffset := by
  by_cases h : Fits source fileOffset
  · rw [read_fits p h, and_iff_right h, Except.ok.injEq, eq_comm]
  · obtain ⟨e, he⟩ := read_not_fits p h
    rw [he]
    simp [h]

end SharedArchive.Symbol
