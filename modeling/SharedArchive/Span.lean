/-!
The stretch of a file that belongs to a region: from where it begins to the nearest later beginning
of another region, or to the end of the file. A stretch is never empty and never leaves the file.
-/

namespace SharedArchive

structure Span where
  start : Nat
  stop : Nat
deriving DecidableEq

namespace Span

def length (s : Span) : Nat := s.stop - s.start

/-- The nearest of the offsets after `start` that lies in the file, else the file's end. -/
def stopAfter (offsets : List Nat) (fileSize start : Nat) : Nat :=
  (offsets.filter fun o => start < o && o < fileSize).min?.getD fileSize

def ofStart? (offsets : List Nat) (fileSize start : Nat) : Option Span :=
  if fileSize ≤ start then none
  else
    let stop := stopAfter offsets fileSize start
    if start < stop then some ⟨start, stop⟩ else none

theorem stopAfter_bounds (offsets : List Nat) {fileSize start : Nat} (h : start < fileSize) :
    start < stopAfter offsets fileSize start ∧ stopAfter offsets fileSize start ≤ fileSize := by
  unfold stopAfter
  cases hm : (offsets.filter fun o => start < o && o < fileSize).min? with
  | none => simpa using h
  | some stop =>
    have hs := List.min?_mem hm
    simp only [List.mem_filter, Bool.and_eq_true, decide_eq_true_eq] at hs
    simp only [Option.getD_some]
    omega

theorem ofStart?_eq_none_iff {offsets : List Nat} {fileSize start : Nat} :
    ofStart? offsets fileSize start = none ↔ fileSize ≤ start := by
  by_cases h : fileSize ≤ start
  · simp [ofStart?, h]
  · have hb := stopAfter_bounds offsets (Nat.lt_of_not_le h)
    simp [ofStart?, h, hb.1]

theorem ofStart?_inside {offsets : List Nat} {fileSize start : Nat} (h : start < fileSize) :
    ofStart? offsets fileSize start = some ⟨start, stopAfter offsets fileSize start⟩ := by
  have hb := stopAfter_bounds offsets h
  simp [ofStart?, Nat.not_le.2 h, hb.1]

end Span

end SharedArchive
