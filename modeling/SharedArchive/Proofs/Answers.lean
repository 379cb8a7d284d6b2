import Mathlib
import SharedArchive.Archive
import SharedArchive.Proofs.HeaderReading
import SharedArchive.Proofs.Payloads

/-!
An archive's answers from its file. An archive is opened exactly if its headers can be read, its
payloads are always had, and the name of the archive it is laid over is had if the file holds it.
-/

namespace SharedArchive

theorem GenericHeader.hasBase_iff (h : GenericHeader) :
    h.hasBase = true ↔ h.baseNameSize.toNat ≠ 0 := by
  have hzero : (0 : UInt32).toNat = 0 := rfl
  rw [hasBase, decide_eq_true_iff, UInt32.lt_iff_toNat_lt, hzero, Nat.pos_iff_ne_zero]

namespace Archive

variable (a : Archive)

theorem ofBytes_ok_iff {expected : UInt32} {source : ByteArray} {a : Archive} :
    (ofBytes expected source).result = .ok a ↔
      1032 ≤ source.size ∧ Header.magicOf source = expected ∧
        a = ⟨source, Header.decode source 0⟩ := by
  have hread (h : Header) : (Header.read expected source 0).result = .ok h ↔ _ :=
    Header.read_ok_iff
  rw [ofBytes, Reader.outcome]
  dsimp only
  constructor
  · intro hr
    cases hx : (Header.read expected source 0).result with
    | error e =>
      rw [hx] at hr
      cases hr
    | ok h =>
      rw [hx] at hr
      obtain ⟨hs, hm, rfl⟩ := (hread h).1 hx
      cases hr
      exact ⟨hs, hm, rfl⟩
  · rintro ⟨hs, hm, rfl⟩
    rw [(hread _).2 ⟨hs, hm, rfl⟩]
    rfl

theorem ask_result {α : Type} (r : Reader Truncated α) :
    (a.ask r).result = (r a.source 0).result.mapError .truncated := rfl

theorem payloads_result : a.payloads.result = .ok (Payload.table a.regions a.source) := by
  rw [payloads, ask_result, (Payload.readAll_reading a.regions a.source 0).1]
  rfl

def baseNameBytes (h : GenericHeader) (source : ByteArray) : ByteArray :=
  source.extract h.baseNameOffset.toNat (h.baseNameOffset.toNat + h.baseNameSize.toNat)

theorem baseName_result :
    a.baseName.result =
      if a.generic.hasBase then
        if a.generic.baseNameOffset.toNat + a.generic.baseNameSize.toNat ≤ a.source.size then
          .ok (some (textToNul (baseNameBytes a.generic a.source)))
        else .error (.truncated ⟨a.generic.baseNameSize.toNat,
          a.source.size - a.generic.baseNameOffset.toNat, a.generic.baseNameOffset.toNat⟩)
      else .ok none := by
  have hseek (n : Nat) :
      Reader.seek n a.source 0 = (⟨.ok (), n, []⟩ : Reading Truncated Unit) := rfl
  rw [baseName, ask_result, readBaseName]
  split_ifs with hb hfit
  · have hw : (Field.block a.generic.baseNameSize.toNat).width ≤
        a.source.size - a.generic.baseNameOffset.toNat := Nat.le_sub_of_add_le' hfit
    rw [Reader.bind_ok (hseek _), Reader.bind_ok (Reader.field_fits hw)]
    rfl
  · have hpos := a.generic.hasBase_iff.1 hb
    have hw : a.source.size - a.generic.baseNameOffset.toNat <
        (Field.block a.generic.baseNameSize.toNat).width := by
      change _ < a.generic.baseNameSize.toNat
      omega
    rw [Reader.bind_ok (hseek _), Reader.bind_error (Reader.field_truncated hw)]
    rfl
  · rfl

end Archive

end SharedArchive
