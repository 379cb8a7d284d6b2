import Mathlib
import SharedArchive.Payload
import SharedArchive.Proofs.Reading

/-!
What the regions' payloads are. A span ends at the least offset after its beginning, within the
file, at which a region begins, else with the file; the payloads of all regions are always read,
each is its region's span, and reading them leaves the position alone.
-/

namespace SharedArchive

namespace Span

def ends (offsets : List Nat) (fileSize start : Nat) : Set Nat :=
  {o | o = fileSize ∨ o ∈ offsets ∧ start < o ∧ o < fileSize}

theorem stopAfter_isLeast (offsets : List Nat) (fileSize start : Nat) :
    IsLeast (ends offsets fileSize start) (stopAfter offsets fileSize start) := by
  unfold stopAfter
  cases hm : (offsets.filter fun o => start < o && o < fileSize).min? with
  | none =>
    have hnone := List.min?_eq_none_iff.1 hm
    refine ⟨Or.inl rfl, ?_⟩
    rintro o (rfl | ⟨ho, hs, hf⟩)
    · exact le_refl _
    · have hin : o ∈ offsets.filter fun o => start < o && o < fileSize := by
        simp [ho, hs, hf]
      rw [hnone] at hin
      exact absurd hin List.not_mem_nil
  | some stop =>
    obtain ⟨hmem, hleast⟩ := List.min?_eq_some_iff.1 hm
    simp only [List.mem_filter, Bool.and_eq_true, decide_eq_true_eq] at hmem
    refine ⟨Or.inr hmem, ?_⟩
    rintro o (rfl | ⟨ho, hs, hf⟩)
    · exact hmem.2.2.le
    · exact hleast o (by simp [ho, hs, hf])

theorem stopAfter_le (offsets : List Nat) (fileSize start : Nat) :
    stopAfter offsets fileSize start ≤ fileSize :=
  (stopAfter_isLeast offsets fileSize start).2 (Or.inl rfl)

theorem stopAfter_mono (offsets : List Nat) {shorter longer : Nat} (h : shorter ≤ longer)
    (start : Nat) : stopAfter offsets shorter start ≤ stopAfter offsets longer start := by
  have hle := stopAfter_le offsets shorter start
  -- an offset that only the longer file holds lies past the end of the shorter one
  rcases (stopAfter_isLeast offsets longer start).1 with he | ⟨ho, hs, -⟩
  · omega
  · by_cases hin : stopAfter offsets longer start < shorter
    · exact (stopAfter_isLeast offsets shorter start).2 (Or.inr ⟨ho, hs, hin⟩)
    · omega

theorem lt_stopAfter_iff {offsets : List Nat} {fileSize start n : Nat} :
    n < stopAfter offsets fileSize start ↔ n < fileSize ∧ ∀ o ∈ offsets, start < o → n < o := by
  obtain ⟨hmem, hleast⟩ := stopAfter_isLeast offsets fileSize start
  constructor
  · intro h
    have hn : n < fileSize := h.trans_le (stopAfter_le offsets fileSize start)
    refine ⟨hn, ?_⟩
    intro o ho hs
    by_cases hf : o < fileSize
    · exact h.trans_le (hleast (Or.inr ⟨ho, hs, hf⟩))
    · omega
  · intro h
    rcases hmem with he | hin
    · rw [he]
      exact h.1
    · exact h.2 _ hin.1 hin.2.1

theorem extract_outside (offsets : List Nat) {source : ByteArray} {start : Nat}
    (h : source.size ≤ start) :
    source.extract start (stopAfter offsets source.size start) = .empty := by
  have hstop := stopAfter_le offsets source.size start
  exact ByteArray.extract_eq_empty_iff.2 (by omega)

end Span

namespace Payload

theorem usedBytes_size_le (p : Payload) : p.usedBytes.size ≤ p.bytes.size := by
  rw [usedBytes_size]
  exact min_le_right _ _

/-- The bytes between a region's beginning and the end of its span; none for the code region. -/
def spanBytes (regions : RegionTable) (source : ByteArray) : RegionKind → ByteArray
  | .code => .empty
  | k =>
    let start := (regions.get k).fileOffset.toNat
    source.extract start (Span.stopAfter regions.offsets source.size start)

theorem spanBytes_of_ne_code (regions : RegionTable) (source : ByteArray) {k : RegionKind}
    (hk : k ≠ .code) :
    spanBytes regions source k = source.extract (regions.get k).fileOffset.toNat
      (Span.stopAfter regions.offsets source.size (regions.get k).fileOffset.toNat) := by
  cases k with
  | code => exact absurd rfl hk
  | _ => rfl

def ofSource (regions : RegionTable) (source : ByteArray) (k : RegionKind) : Payload where
  kind := k
  region := regions.get k
  bytes := spanBytes regions source k

theorem readSpan_reading (regions : RegionTable) (k : RegionKind) (r : Region) (source : ByteArray)
    (p : Nat) :
    (readSpan regions k r source p).result = .ok (source.extract r.fileOffset.toNat
      (Span.stopAfter regions.offsets source.size r.fileOffset.toNat)) := by
  rw [readSpan, Reader.bind_ok (rfl : Reader.size source p = ⟨.ok source.size, p, []⟩)]
  by_cases h : source.size ≤ r.fileOffset.toNat
  · rw [Span.extract_outside regions.offsets h]
    simp only [Span.ofStart?_eq_none_iff.2 h]
    rfl
  · have hb := Span.stopAfter_bounds regions.offsets (Nat.lt_of_not_le h)
    simp only [Span.ofStart?_inside (Nat.lt_of_not_le h)]
    have hblock := Reader.block_fits hb.1.le hb.2
    split_ifs
    · exact congrArg Reading.result hblock
    · exact congrArg Reading.result hblock

theorem read_reading (regions : RegionTable) (k : RegionKind) (source : ByteArray) (p : Nat) :
    (read regions k source p).result = .ok (ofSource regions source k) := by
  have hspan := readSpan_reading regions k (regions.get k) source p
  cases k with
  | code => rfl
  | _ =>
    exact (Reader.bind_of_ok (fun bytes => pure (Payload.mk _ (regions.get _) bytes)) hspan).1

def table (regions : RegionTable) (source : ByteArray) : Table Payload where
  readWrite := ofSource regions source .readWrite
  readOnly := ofSource regions source .readOnly
  bitmap := ofSource regions source .bitmap
  heap := ofSource regions source .heap
  code := ofSource regions source .code

theorem table_get (regions : RegionTable) (source : ByteArray) (k : RegionKind) :
    (table regions source).get k = ofSource regions source k := by
  cases k <;> rfl

theorem readAll_reading (regions : RegionTable) (source : ByteArray) (p : Nat) :
    (readAll regions source p).result = .ok (table regions source) ∧
      (readAll regions source p).position = p := by
  refine ⟨?_, rfl⟩
  change (Table.build (read regions) source p).result = _
  rw [Table.build, (Reader.bind_of_ok _ (read_reading regions .readWrite source _)).1,
    (Reader.bind_of_ok _ (read_reading regions .readOnly source _)).1,
    (Reader.bind_of_ok _ (read_reading regions .bitmap source _)).1,
    (Reader.bind_of_ok _ (read_reading regions .heap source _)).1,
    (Reader.bind_of_ok _ (read_reading regions .code source _)).1]
  rfl

end Payload

end SharedArchive
