import Mathlib
import SharedArchive.Proofs.Payloads

/-!
How the spans of a file lie to each other, from wherever they begin. A span is the longest stretch
from its beginning within which nothing else begins, so it depends on what begins where and not on
the order in which that is listed. Of two spans the one that begins later ends no earlier, and they
have no byte in common or end together.
-/

namespace SharedArchive.Span

section Ends

variable {offsets offsets' : List Nat} {fileSize p q : Nat}

theorem stopAfter_congr (h : ∀ o, o ∈ offsets ↔ o ∈ offsets') (fileSize start : Nat) :
    stopAfter offsets fileSize start = stopAfter offsets' fileSize start := by
  have hends : ends offsets fileSize start = ends offsets' fileSize start := by
    simp only [ends, h]
  have hleast := stopAfter_isLeast offsets fileSize start
  rw [hends] at hleast
  exact hleast.unique (stopAfter_isLeast offsets' fileSize start)

theorem ofStart?_congr (h : ∀ o, o ∈ offsets ↔ o ∈ offsets') (fileSize start : Nat) :
    ofStart? offsets fileSize start = ofStart? offsets' fileSize start := by
  simp only [ofStart?, stopAfter_congr h]

theorem offset_notMem_span (offsets : List Nat) (fileSize start : Nat) :
    ∀ o ∈ offsets, ¬ (start < o ∧ o < stopAfter offsets fileSize start) := by
  intro o ho hbetween
  have hafter := (lt_stopAfter_iff.1 hbetween.2).2 o ho hbetween.1
  exact absurd hafter (lt_irrefl o)

theorem stopAfter_mem (offsets : List Nat) (fileSize start : Nat) :
    stopAfter offsets fileSize start = fileSize ∨ stopAfter offsets fileSize start ∈ offsets := by
  rcases (stopAfter_isLeast offsets fileSize start).1 with hend | hmem
  · exact Or.inl hend
  · exact Or.inr hmem.1

theorem ends_subset (h : p ≤ q) : ends offsets fileSize q ⊆ ends offsets fileSize p := by
  intro o ho
  rcases ho with hend | hmem
  · exact Or.inl hend
  · exact Or.inr ⟨hmem.1, h.trans_lt hmem.2.1, hmem.2.2⟩

theorem stopAfter_le_stopAfter (h : p ≤ q) :
    stopAfter offsets fileSize p ≤ stopAfter offsets fileSize q :=
  (stopAfter_isLeast offsets fileSize q).mono (stopAfter_isLeast offsets fileSize p)
    (ends_subset h)

theorem stopAfter_eq_of_lt (h : p ≤ q) (hq : q < stopAfter offsets fileSize p) :
    stopAfter offsets fileSize p = stopAfter offsets fileSize q := by
  refine le_antisymm (stopAfter_le_stopAfter h) ((stopAfter_isLeast offsets fileSize q).2 ?_)
  rcases (stopAfter_isLeast offsets fileSize p).1 with hend | hmem
  · exact Or.inl hend
  · exact Or.inr ⟨hmem.1, hq, hmem.2.2⟩

end Ends

/-- From every beginning in the file there is just one span, and none from outside. It ends with the
file or where something begins, and nothing begins within it; it is the same for every list of the
same offsets, in whatever order and however often they are listed; and of two spans the later one
ends no earlier, and they lie apart or end together. -/
theorem spans_laminar :
    (∀ (offsets : List Nat) (fileSize start : Nat),
      (ofStart? offsets fileSize start = none ↔ fileSize ≤ start) ∧
      (start < fileSize → ∃ stop, stop = stopAfter offsets fileSize start ∧
        ofStart? offsets fileSize start = some ⟨start, stop⟩ ∧
        start < stop ∧ stop ≤ fileSize ∧ (∀ o ∈ offsets, ¬ (start < o ∧ o < stop)) ∧
        (stop = fileSize ∨ stop ∈ offsets))) ∧
    (∀ offsets offsets' : List Nat, (∀ o, o ∈ offsets ↔ o ∈ offsets') →
      ∀ fileSize start, ofStart? offsets fileSize start = ofStart? offsets' fileSize start) ∧
    (∀ regions regions' : RegionTable, regions.toList.Perm regions'.toList →
      ∀ fileSize start,
        ofStart? regions.offsets fileSize start = ofStart? regions'.offsets fileSize start) ∧
    ∀ (offsets : List Nat) (fileSize p q : Nat), p < q → q < fileSize →
      ∃ first second, ofStart? offsets fileSize p = some first ∧
        ofStart? offsets fileSize q = some second ∧ first.stop ≤ second.stop ∧
        (first.stop ≤ q ∨ first.stop = second.stop) := by
  refine ⟨?_, fun _ _ h => ofStart?_congr h, ?_, ?_⟩
  · intro offsets fileSize start
    refine ⟨ofStart?_eq_none_iff, fun hin => ?_⟩
    obtain ⟨hlt, hle⟩ := stopAfter_bounds offsets hin
    exact ⟨_, rfl, ofStart?_inside hin, hlt, hle, offset_notMem_span offsets fileSize start,
      stopAfter_mem offsets fileSize start⟩
  · intro regions regions' hperm
    exact ofStart?_congr fun o => (hperm.map _).mem_iff
  · intro offsets fileSize p q hpq hq
    refine ⟨_, _, ofStart?_inside (hpq.trans hq), ofStart?_inside hq,
      stopAfter_le_stopAfter hpq.le, ?_⟩
    rcases Nat.lt_or_ge q (stopAfter offsets fileSize p) with hover | hapart
    · exact Or.inr (stopAfter_eq_of_lt hpq.le hover)
    · exact Or.inl hapart

def neighbours : RegionTable where
  readWrite := { fileOffset := 16 }
  readOnly := { fileOffset := 32 }
  bitmap := { fileOffset := 48 }
  heap := { fileOffset := 40 }
  code := { fileOffset := 56 }

def exchanged : RegionTable :=
  { neighbours with readWrite := neighbours.readOnly, readOnly := neighbours.readWrite }

theorem neighbours_share_stop :
    neighbours.toList.Perm exchanged.toList ∧
      ofStart? neighbours.offsets 64 20 = ofStart? exchanged.offsets 64 20 ∧
      ofStart? neighbours.offsets 64 20 = ofStart? [40, 56, 16, 16, 32, 48] 64 20 ∧
      ∃ first second, ofStart? neighbours.offsets 64 20 = some first ∧
        ofStart? neighbours.offsets 64 31 = some second ∧ first.stop = second.stop := by
  obtain ⟨-, hlisted, htables, hpairs⟩ := spans_laminar
  have hperm : neighbours.toList.Perm exchanged.toList := List.Perm.swap _ _ _
  have hsame (o : Nat) : o ∈ neighbours.offsets ↔ o ∈ [40, 56, 16, 16, 32, 48] := by
    have hoffsets : neighbours.offsets = [16, 32, 48, 40, 56] := by decide
    rw [hoffsets]
    simp only [List.mem_cons, List.not_mem_nil]
    tauto
  obtain ⟨first, second, hfirst, hsecond, -, hends⟩ :=
    hpairs neighbours.offsets 64 20 31 (by decide) (by decide)
  have hstop : ofStart? neighbours.offsets 64 20 = some ⟨20, 32⟩ := by decide
  have hreach : ¬ first.stop ≤ 31 := by
    rw [hstop] at hfirst
    cases hfirst
    decide
  exact ⟨hperm, htables _ _ hperm 64 20, hlisted _ _ hsame 64 20, first, second, hfirst, hsecond,
    hends.resolve_left hreach⟩

end SharedArchive.Span
