import Mathlib
import SharedArchive.Bytes.Buffer

/-!
What a buffer is made of does not show. A lawful buffer is known by the bytes that remain of it: it
answers a step by them alone, and the step leaves those of them that it has not consumed. So a
cursor, a slice and a window of which the same bytes remain answer a program step by step alike,
failures included, and only the position that the cursor reports tells them apart.
-/

namespace SharedArchive.Buffer

/-- A buffer that is no more than the bytes that remain of it: it shows their beginning and moves
past it. -/
class Lawful (β : Type) [Buffer β] where
  rest : β → ByteArray
  remaining_eq : ∀ b : β, remaining b = (rest b).size
  front_eq : ∀ (b : β) (n : Nat), n ≤ remaining b → front b n = (rest b).extract 0 n
  rest_advance : ∀ (b : β) (n : Nat), rest (advance b n) = (rest b).extract n (rest b).size

open Lawful (rest)

theorem extract_front {source : ByteArray} {start stop n : Nat} (hstop : stop ≤ source.size)
    (h : n ≤ stop - start) :
    source.extract start (start + n) = (source.extract start stop).extract 0 n := by
  rw [ByteArray.extract_extract, Nat.add_zero]
  by_cases hin : start ≤ stop
  · rw [Nat.min_eq_left (by omega)]
  · -- nothing lies between the two, and nothing is asked for
    have hn : n = 0 := by omega
    have hempty : source.extract start (min (start + n) stop) = .empty :=
      ByteArray.extract_eq_empty_iff.2 (by omega)
    rw [hempty, hn]
    exact ByteArray.extract_same

theorem extract_past {source : ByteArray} {start stop : Nat} (hstop : stop ≤ source.size)
    (n : Nat) : source.extract (start + n) stop =
      (source.extract start stop).extract n (source.extract start stop).size := by
  have hend : min (start + (source.extract start stop).size) stop = stop := by
    rw [ByteArray.size_extract]
    omega
  rw [ByteArray.extract_extract, hend]

instance : Lawful Cursor where
  rest c := c.source.extract c.position c.source.size
  remaining_eq c := by
    rw [ByteArray.size_extract, Nat.min_self]
    rfl
  front_eq _ _ h := extract_front (Nat.le_refl _) h
  rest_advance _ n := extract_past (Nat.le_refl _) n

instance : Lawful Slice where
  rest s := s.rest
  remaining_eq _ := rfl
  front_eq _ _ _ := rfl
  rest_advance _ _ := rfl

instance : Lawful Window where
  rest w := w.storage.extract w.start w.stop
  remaining_eq w := by
    rw [ByteArray.size_extract, Nat.min_eq_left w.stop_le]
    rfl
  front_eq w _ h := extract_front w.stop_le h
  rest_advance w n := extract_past w.stop_le n

def Step.answer (raw : ByteArray) (position : Nat) :
    Step → Except Truncated (Option (Sigma Field.Value))
  | .read f =>
    if f.width ≤ raw.size then .ok (some ⟨f, f.decode (raw.extract 0 f.width)⟩)
    else .error ⟨f.width, raw.size, position⟩
  | .ensure needed =>
    if needed ≤ raw.size then .ok none else .error ⟨needed, raw.size, position⟩

/-- The truncation as a buffer reports it that does not know where it stands. -/
def unplaced (t : Truncated) : Truncated := { t with position := 0 }

theorem Step.answer_unplaced (raw : ByteArray) (position : Nat) (s : Step) :
    (s.answer raw position).mapError unplaced = s.answer raw 0 := by
  cases s <;> simp only [answer] <;> split_ifs <;> rfl

def Trace.consumed {β : Type} (t : Trace β) : Nat :=
  match t.result with
  | .ok (some ⟨f, _⟩) => f.width
  | _ => 0

def consumed {β : Type} (ts : List (Trace β)) : Nat := (ts.map Trace.consumed).sum

section Step

variable {β : Type} [Buffer β]

theorem Step.run_read (b : β) (f : Field) :
    (read f).run b =
      if f.width ≤ remaining b then
        ⟨.ok (some ⟨f, f.decode (front b f.width)⟩), advance b f.width⟩
      else ⟨.error ⟨f.width, remaining b, position b⟩, b⟩ := by
  split_ifs with h
  · simp only [run, read_fits h]
  · simp only [run, read_truncated (Nat.lt_of_not_le h)]

theorem Step.run_ensure (b : β) (needed : Nat) :
    (Step.ensure needed).run b =
      if needed ≤ remaining b then ⟨.ok none, b⟩
      else ⟨.error ⟨needed, remaining b, position b⟩, b⟩ := by
  rw [run, Buffer.ensure]
  split_ifs <;> rfl

theorem Step.run_after (b : β) (s : Step) :
    (s.run b).after = b ∧ (s.run b).consumed = 0 ∨
      (s.run b).after = advance b (s.run b).consumed ∧ (s.run b).consumed ≤ remaining b := by
  cases s with
  | read f =>
    rw [run_read]
    split_ifs with h
    · exact Or.inr ⟨rfl, h⟩
    · exact Or.inl ⟨rfl, rfl⟩
  | ensure needed =>
    left
    rw [run_ensure]
    split_ifs <;> exact ⟨rfl, rfl⟩

theorem Step.run_ensure_consumed (b : β) (needed : Nat) :
    ((Step.ensure needed).run b).consumed = 0 := by
  rw [run_ensure]
  split_ifs <;> rfl

variable [Lawful β]

theorem Step.run_result (b : β) (s : Step) : (s.run b).result = s.answer (rest b) (position b) := by
  have hsize := Lawful.remaining_eq b
  cases s with
  | read f =>
    rw [run_read, answer, ← hsize]
    split_ifs with h
    · rw [Lawful.front_eq b f.width h]
    · rfl
  | ensure needed =>
    rw [run_ensure, answer, ← hsize]
    split_ifs <;> rfl

theorem Step.run_unplaced (b : β) (s : Step) (h : position b = 0) :
    (s.run b).result.mapError unplaced = (s.run b).result := by
  rw [run_result, h, answer_unplaced]

theorem Step.run_rest (b : β) (s : Step) :
    rest (s.run b).after = (rest b).extract (s.run b).consumed (rest b).size := by
  rcases s.run_after b with ⟨hafter, hzero⟩ | ⟨hafter, -⟩
  · rw [hafter, hzero, ByteArray.extract_zero_size]
  · rw [hafter, Lawful.rest_advance]

theorem Step.consumed_le (b : β) (s : Step) : (s.run b).consumed ≤ (rest b).size := by
  rw [← Lawful.remaining_eq]
  rcases s.run_after b with ⟨-, hzero⟩ | ⟨-, hle⟩
  · rw [hzero]
    exact Nat.zero_le _
  · exact hle

end Step

section Run

variable {β γ : Type} [Buffer β] [Lawful β] [Buffer γ] [Lawful γ]

theorem run_length {β : Type} [Buffer β] (b : β) (steps : List Step) :
    (run b steps).length = steps.length := by
  induction steps generalizing b with
  | nil => rfl
  | cons s later ih => simp [run, ih]

/-- Two steps answered alike, the positions in their errors apart, and left the same bytes. -/
structure Alike (t : Trace β) (u : Trace γ) : Prop where
  result : u.result.mapError unplaced = t.result.mapError unplaced
  rest : rest u.after = rest t.after

theorem consumed_eq_of_result {β γ : Type} {t : Trace β} {u : Trace γ}
    (h : u.result.mapError unplaced = t.result.mapError unplaced) : u.consumed = t.consumed := by
  rw [Trace.consumed, Trace.consumed]
  cases ht : t.result with
  | ok x =>
    rw [ht] at h
    cases hu : u.result with
    | ok y =>
      rw [hu] at h
      cases h
      rfl
    | error e =>
      rw [hu] at h
      cases h
  | error e =>
    rw [ht] at h
    cases hu : u.result with
    | ok y =>
      rw [hu] at h
      cases h
    | error e' => rfl

theorem Step.run_alike {b : β} {c : γ} (h : rest c = rest b) (s : Step) :
    Alike (s.run b) (s.run c) := by
  have hresult : (s.run c).result.mapError unplaced = (s.run b).result.mapError unplaced := by
    rw [run_result, run_result, answer_unplaced, answer_unplaced, h]
  refine ⟨hresult, ?_⟩
  rw [run_rest, run_rest, consumed_eq_of_result hresult, h]

theorem run_alike {b : β} {c : γ} (h : rest c = rest b) {steps : List Step} {i : Nat} {s : Step}
    (hs : steps[i]? = some s) :
    ∃ b' c', (run b steps)[i]? = some (s.run b') ∧ (run c steps)[i]? = some (s.run c') ∧
      rest c' = rest b' := by
  induction steps generalizing b c i with
  | nil => cases hs
  | cons first later ih =>
    cases i with
    | zero =>
      cases hs
      exact ⟨b, c, rfl, rfl, h⟩
    | succ i => exact ih (first.run_alike h).rest hs

theorem consumed_cons {β : Type} (t : Trace β) (ts : List (Trace β)) :
    consumed (t :: ts) = t.consumed + consumed ts := by
  simp [consumed]

theorem Step.run_cursor (c : Cursor) (s : Step) :
    (s.run c).after = c.seek (c.position + (s.run c).consumed) := by
  rcases s.run_after c with ⟨hafter, hzero⟩ | ⟨hafter, -⟩
  · rw [hafter, hzero]
    rfl
  · rw [hafter]
    rfl

theorem run_cursor (c : Cursor) {steps : List Step} {i : Nat} {s : Step} (h : steps[i]? = some s) :
    (run c steps)[i]? =
      some (s.run (c.seek (c.position + consumed ((run c steps).take i)))) := by
  induction steps generalizing c i with
  | nil => cases h
  | cons first later ih =>
    cases i with
    | zero =>
      cases h
      rfl
    | succ i =>
      have hlater := ih (first.run c).after h
      rw [first.run_cursor] at hlater
      simp only [run, List.getElem?_cons_succ, List.take_succ_cons, consumed_cons,
        first.run_cursor]
      rw [← Nat.add_assoc]
      exact hlater

theorem consumed_take_succ {β : Type} {ts : List (Trace β)} {i : Nat} {t : Trace β}
    (h : ts[i]? = some t) :
    consumed (ts.take (i + 1)) = consumed (ts.take i) + t.consumed := by
  rw [List.take_add_one, h, consumed, List.map_append, List.sum_append]
  simp [consumed]

theorem run_take {β : Type} [Buffer β] (b : β) (steps : List Step) (i : Nat) :
    (run b steps).take i = run b (steps.take i) := by
  induction steps generalizing b i with
  | nil => simp [run]
  | cons s later ih =>
    cases i with
    | zero => rfl
    | succ i => simp [run, ih]

theorem run_consumed_le (b : β) (steps : List Step) :
    consumed (run b steps) ≤ (rest b).size := by
  induction steps generalizing b with
  | nil => exact Nat.zero_le _
  | cons s later ih =>
    have hs := s.consumed_le b
    have hlater := ih (s.run b).after
    rw [s.run_rest, ByteArray.size_extract, Nat.min_self] at hlater
    simp only [run, consumed_cons]
    omega

theorem rest_cursor_size (source : ByteArray) (position : Nat) :
    (rest (Cursor.mk source position)).size = source.size - position := by
  change (source.extract position source.size).size = _
  rw [ByteArray.size_extract, Nat.min_self]

/-- The slice of a source from a position on, or from its end if the position lies past it. -/
def sliceFrom (source : ByteArray) (position : Nat) : Slice :=
  ⟨source.extract (min position source.size) source.size⟩

theorem rest_sliceFrom (source : ByteArray) (position : Nat) :
    rest (sliceFrom source position) = rest (Cursor.mk source position) := by
  change source.extract (min position source.size) source.size =
    source.extract position source.size
  by_cases h : position ≤ source.size
  · rw [Nat.min_eq_left h]
  · rw [ByteArray.extract_eq_empty_iff.2 (by omega), ByteArray.extract_eq_empty_iff.2 (by omega)]

/-- A program runs alike over a cursor at any position, over the slice of what lies past it and over
any window of the same bytes: at each step the three give the same value or fail with the same
numbers, and the same number of bytes remains. Only the position differs, which the cursor reports
as its first one and the bytes consumed since, and the others as zero. -/
theorem run_agrees (source : ByteArray) (start : Nat) {window : Window}
    (hwindow : window.storage.extract window.start window.stop = (sliceFrom source start).rest)
    (steps : List Step) :
    (run (Cursor.mk source start) steps).length = steps.length ∧
      (run (sliceFrom source start) steps).length = steps.length ∧
      (run window steps).length = steps.length ∧
      ∀ i s, steps[i]? = some s →
        ∃ (t : Trace Cursor) (u : Trace Slice) (v : Trace Window) (before after : Nat),
          (run (Cursor.mk source start) steps)[i]? = some t ∧
          (run (sliceFrom source start) steps)[i]? = some u ∧
          (run window steps)[i]? = some v ∧
          before = consumed ((run (Cursor.mk source start) steps).take i) ∧
          after = consumed ((run (Cursor.mk source start) steps).take (i + 1)) ∧
          t.result = s.answer (source.extract (start + before) source.size) (start + before) ∧
          u.result = t.result.mapError unplaced ∧
          v.result = t.result.mapError unplaced ∧
          t.after = ⟨source, start + after⟩ ∧
          remaining u.after = remaining t.after ∧
          remaining v.after = remaining t.after ∧
          position u.after = 0 ∧ position v.after = 0 ∧
          (∀ needed, s = .ensure needed → after = before) ∧
          (after = 0 ∨ start + after ≤ source.size) := by
  refine ⟨run_length _ _, run_length _ _, run_length _ _, ?_⟩
  intro i s hs
  have hslice := rest_sliceFrom source start
  have hcursor := run_cursor (Cursor.mk source start) hs
  obtain ⟨b, c, hb, hc, hbc⟩ := run_alike hslice hs
  have hrest : rest window = rest (Cursor.mk source start) := hwindow.trans hslice
  obtain ⟨b', w, hb', hw, hbw⟩ := run_alike hrest hs
  have hsliced := s.run_alike hbc
  have hwindowed := s.run_alike hbw
  rw [Option.some.inj (hb.symm.trans hcursor)] at hsliced
  rw [Option.some.inj (hb'.symm.trans hcursor)] at hwindowed
  have hafter := consumed_take_succ hcursor
  refine ⟨_, _, _, _, _, hcursor, hc, hw, rfl, rfl, Step.run_result _ _, ?_, ?_, ?_, ?_, ?_, rfl,
    rfl, ?_, ?_⟩
  · rw [← hsliced.result]
    exact (s.run_unplaced c rfl).symm
  · rw [← hwindowed.result]
    exact (s.run_unplaced w rfl).symm
  · rw [s.run_cursor, hafter, ← Nat.add_assoc]
    rfl
  · rw [Lawful.remaining_eq, Lawful.remaining_eq, hsliced.rest]
  · rw [Lawful.remaining_eq, Lawful.remaining_eq, hwindowed.rest]
  · rintro needed rfl
    rw [hafter, Step.run_ensure_consumed, Nat.add_zero]
  · have hle := run_consumed_le (Cursor.mk source start) (steps.take (i + 1))
    rw [← run_take, rest_cursor_size] at hle
    omega

end Run

def shared : Window := ⟨⟨#[0, 2, 3, 4, 0]⟩, 1, 4, by decide⟩

def greedy : List Step := [.read (.gap 9), .ensure 3, .read .u16, .read .u16]

theorem shared_as_cursor :
    shared.storage.extract shared.start shared.stop = (sliceFrom ⟨#[1, 2, 3, 4]⟩ 1).rest ∧
      ∃ t v, (run (Cursor.mk ⟨#[1, 2, 3, 4]⟩ 1) greedy)[3]? = some t ∧
        (run shared greedy)[3]? = some v ∧
        t.result = .error ⟨2, 1, 3⟩ ∧ v.result = .error ⟨2, 1, 0⟩ ∧ t.after.position = 3 := by
  have hsame : shared.storage.extract shared.start shared.stop =
      (sliceFrom ⟨#[1, 2, 3, 4]⟩ 1).rest := by decide
  obtain ⟨-, -, -, hstep⟩ := run_agrees ⟨#[1, 2, 3, 4]⟩ 1 hsame greedy
  obtain ⟨t, -, v, before, after, ht, -, hv, rfl, rfl, hresult, -, hwindow, hafter, -⟩ :=
    hstep 3 (.read .u16) rfl
  have hbefore : consumed ((run (Cursor.mk ⟨#[1, 2, 3, 4]⟩ 1) greedy).take 3) = 2 := by
    decide +kernel
  have hend : consumed ((run (Cursor.mk ⟨#[1, 2, 3, 4]⟩ 1) greedy).take 4) = 2 := by
    decide +kernel
  rw [hbefore] at hresult
  rw [hend] at hafter
  have hcut : t.result = .error ⟨2, 1, 3⟩ := hresult
  refine ⟨hsame, t, v, ht, hv, hcut, ?_, ?_⟩
  · rw [hwindow, hcut]
    rfl
  · rw [hafter]

end SharedArchive.Buffer
