import Mathlib
import SharedArchive.Bytes.Program
import SharedArchive.Proofs.Writing

/-!
What programs over a cursor do. The rules say what a step may answer at a position of a source: a
read gives the value that is written there or fails where it stands, and a block leaves the cursor
where it found it. A run answers as the rules allow and in no other way, blocks within blocks
included, and where it ends is told by its last seek and by the reads since then that succeeded.
-/

namespace SharedArchive.Cursor

open Trace (finish)

def Spells (source : ByteArray) (p : Nat) (f : Field) (v : f.Value) : Prop :=
  ∃ fill, f.write fill p v = (source.extract p (p + f.width)).data.toList

mutual

/-- What a step may answer at the position `p` of a source. -/
inductive Answers (source : ByteArray) : Nat → Step → Trace → Prop
  | fits {p : Nat} {f : Field} {v : f.Value} :
    f.width ≤ source.size - p → Spells source p f v →
    Answers source p (.read f) ⟨.ok (.value f v), ⟨source, p + f.width⟩, []⟩
  | truncated {p : Nat} {f : Field} :
    source.size - p < f.width →
    Answers source p (.read f) ⟨.error ⟨f.width, source.size - p, p⟩, ⟨source, p⟩, []⟩
  | seek {p : Nat} {target : UInt64} :
    Answers source p (.seek target) ⟨.ok .nothing, ⟨source, target.toNat⟩, []⟩
  | size {p : Nat} : Answers source p .size ⟨.ok (.count source.size), ⟨source, p⟩, []⟩
  | isEmpty {p : Nat} :
    Answers source p .isEmpty ⟨.ok (.truth (source.size = 0)), ⟨source, p⟩, []⟩
  | source {p : Nat} : Answers source p .source ⟨.ok (.bytes source), ⟨source, p⟩, []⟩
  | whole {p : Nat} {body : List Step} {inner : List Trace} :
    Runs source p body inner → (∀ t ∈ inner, t.failure? = none) →
    Answers source p (.scoped body) ⟨.ok .nothing, ⟨source, p⟩, inner⟩
  | cut {p : Nat} {before after : List Step} {s : Step} {inner : List Trace} {t : Trace}
      {e : Truncated} :
    Runs source p (before ++ [s]) (inner ++ [t]) → (∀ u ∈ inner, u.failure? = none) →
    t.failure? = some e →
    Answers source p (.scoped (before ++ s :: after)) ⟨.error e, ⟨source, p⟩, inner ++ [t]⟩
  | save {p : Nat} {body : List Step} {inner : List Trace} :
    Runs source p body inner →
    Answers source p (.save body) ⟨.ok .nothing, ⟨source, p⟩, inner⟩

/-- What the steps of a list may answer, each where the one before it left the cursor. -/
inductive Runs (source : ByteArray) : Nat → List Step → List Trace → Prop
  | nil {p : Nat} : Runs source p [] []
  | cons {p : Nat} {s : Step} {t : Trace} {steps : List Step} {ts : List Trace} :
    Answers source p s t → Runs source t.after.position steps ts →
    Runs source p (s :: steps) (t :: ts)

end

/-- `t` is one of the traces or stands inside one of them, however deep. -/
inductive Within (t : Trace) : List Trace → Prop
  | here {ts : List Trace} : t ∈ ts → Within t ts
  | inside {u : Trace} {ts : List Trace} : u ∈ ts → Within t u.inner → Within t ts

theorem Step.induction {motive : Step → Prop} (read : ∀ f, motive (.read f))
    (seek : ∀ target, motive (.seek target)) (size : motive .size) (isEmpty : motive .isEmpty)
    (source : motive .source)
    (block : ∀ body, (∀ s ∈ body, motive s) → motive (.scoped body) ∧ motive (.save body))
    (s : Step) : motive s := by
  match s with
  | .read f => exact read f
  | .seek target => exact seek target
  | .size => exact size
  | .isEmpty => exact isEmpty
  | .source => exact source
  | .scoped body =>
    exact (block body fun s _ => Step.induction read seek size isEmpty source block s).1
  | .save body =>
    exact (block body fun s _ => Step.induction read seek size isEmpty source block s).2

section Lists

variable {c : Cursor} {s : Step} {t : Trace} {e : Truncated}

theorem finish_cons (c : Cursor) (t : Trace) (ts : List Trace) :
    finish c (t :: ts) = finish t.after ts := by
  cases ts with
  | nil => rfl
  | cons u rest => simp [finish, List.getLast?_cons]

theorem finish_concat (c : Cursor) (ts : List Trace) (t : Trace) :
    finish c (ts ++ [t]) = t.after := by
  simp [finish]

theorem run_concat (c : Cursor) (steps : List Step) (s : Step) :
    run c (steps ++ [s]) = run c steps ++ [s.run (finish c (run c steps))] := by
  induction steps generalizing c with
  | nil => rfl
  | cons s' rest ih =>
    simp only [List.cons_append, run, finish_cons]
    rw [ih]

theorem runUntilFailure_of_succeed {steps : List Step}
    (h : ∀ t ∈ run c steps, t.failure? = none) : runUntilFailure c steps = run c steps := by
  induction steps generalizing c with
  | nil => rfl
  | cons s rest ih =>
    simp only [run, List.mem_cons] at h
    have hs : (s.run c).failure? = none := h _ (Or.inl rfl)
    have hrest := ih fun t ht => h t (Or.inr ht)
    simp only [runUntilFailure, run, hs, hrest]

theorem runUntilFailure_of_fail {before : List Step} (after : List Step)
    (h : ∀ u ∈ run c before, u.failure? = none)
    (hs : (s.run (finish c (run c before))).failure? = some e) :
    runUntilFailure c (before ++ s :: after) = run c (before ++ [s]) := by
  induction before generalizing c with
  | nil =>
    change (s.run c).failure? = some e at hs
    simp only [List.nil_append, runUntilFailure, run, hs]
  | cons s' rest ih =>
    simp only [run, List.mem_cons] at h
    simp only [run, finish_cons] at hs
    have hs' : (s'.run c).failure? = none := h _ (Or.inl rfl)
    have hrest := ih (fun u hu => h u (Or.inr hu)) hs
    simp only [List.cons_append, runUntilFailure, run, hs', hrest]

theorem succeed_or_fail (c : Cursor) (steps : List Step) :
    (∀ t ∈ run c steps, t.failure? = none) ∨
      ∃ before s after e, steps = before ++ s :: after ∧
        (∀ u ∈ run c before, u.failure? = none) ∧
        (s.run (finish c (run c before))).failure? = some e := by
  induction steps generalizing c with
  | nil => exact Or.inl fun t ht => absurd ht List.not_mem_nil
  | cons s rest ih =>
    cases hs : (s.run c).failure? with
    | some e => exact Or.inr ⟨[], s, rest, e, rfl, fun u hu => absurd hu List.not_mem_nil, hs⟩
    | none =>
      rcases ih (s.run c).after with hall | hfail
      · left
        intro t ht
        rcases List.mem_cons.1 ht with he | hrest
        · rw [he]
          exact hs
        · exact hall t hrest
      · obtain ⟨before, s', after, e, hsplit, hbefore, hs'⟩ := hfail
        subst hsplit
        refine Or.inr ⟨s :: before, s', after, e, rfl, ?_, ?_⟩
        · intro u hu
          rcases List.mem_cons.1 hu with he | hrest
          · rw [he]
            exact hs
          · exact hbefore u hrest
        · simp only [run, finish_cons]
          exact hs'

theorem ofScoped_of_succeed {inner : List Trace} (h : ∀ t ∈ inner, t.failure? = none) :
    Trace.ofScoped c inner = ⟨.ok .nothing, (finish c inner).seek c.position, inner⟩ := by
  have hnone : inner.findSome? Trace.failure? = none := List.findSome?_eq_none_iff.2 h
  simp only [Trace.ofScoped, hnone]

theorem ofScoped_of_fail {inner : List Trace} (h : ∀ u ∈ inner, u.failure? = none)
    (ht : t.failure? = some e) :
    Trace.ofScoped c (inner ++ [t]) = ⟨.error e, t.after.seek c.position, inner ++ [t]⟩ := by
  have hsome : (inner ++ [t]).findSome? Trace.failure? = some e := by
    rw [List.findSome?_append, List.findSome?_eq_none_iff.2 h]
    simp [ht]
  simp only [Trace.ofScoped, hsome, finish_concat]

end Lists

section Rules

variable {source : ByteArray} {p : Nat} {s : Step} {t : Trace} {steps : List Step}
  {ts : List Trace}

theorem Answers.after_eq (h : Answers source p s t) : t.after = ⟨source, t.after.position⟩ := by
  cases h <;> rfl

theorem Answers.inner_runs (h : Answers source p s t) : ∃ body, Runs source p body t.inner := by
  cases h with
  | whole hruns => exact ⟨_, hruns⟩
  | cut hruns => exact ⟨_, hruns⟩
  | save hruns => exact ⟨_, hruns⟩
  | _ => exact ⟨[], .nil⟩

theorem Runs.mem_answers {P : Nat → Prop}
    (hkeep : ∀ {q s t}, Answers source q s t → P q → P t.after.position)
    (h : Runs source p steps ts) (hp : P p) (ht : t ∈ ts) :
    ∃ q s, P q ∧ Answers source q s t := by
  induction steps generalizing p ts with
  | nil =>
    cases h
    exact absurd ht List.not_mem_nil
  | cons s rest ih =>
    cases h with
    | cons hs hrest =>
      rcases List.mem_cons.1 ht with he | hin
      · rw [he]
        exact ⟨p, s, hp, hs⟩
      · exact ih hrest (hkeep hs hp) hin

theorem Runs.within {P : Nat → Prop}
    (hkeep : ∀ {q s t}, Answers source q s t → P q → P t.after.position)
    (h : Runs source p steps ts) (hp : P p) (ht : Within t ts) :
    t.after.source = source ∧ P t.after.position := by
  induction ht generalizing p steps with
  | here hin =>
    obtain ⟨q, s, hq, hs⟩ := h.mem_answers hkeep hp hin
    exact ⟨congrArg Cursor.source hs.after_eq, hkeep hs hq⟩
  | inside hin _ ih =>
    obtain ⟨q, s, hq, hs⟩ := h.mem_answers hkeep hp hin
    obtain ⟨body, hinner⟩ := hs.inner_runs
    exact ih hinner hq

theorem Answers.position_lt (hsize : source.size < 2 ^ 64) (h : Answers source p s t)
    (hp : p < 2 ^ 64) : t.after.position < 2 ^ 64 := by
  cases h with
  | fits hfits =>
    dsimp only
    omega
  | seek => exact UInt64.toNat_lt _
  | _ => exact hp

theorem Runs.finish_eq (h : Runs source p steps ts) :
    finish ⟨source, p⟩ ts = ⟨source, (finish ⟨source, p⟩ ts).position⟩ := by
  induction steps generalizing p ts with
  | nil =>
    cases h
    rfl
  | cons s rest ih =>
    cases h with
    | cons hs hrest =>
      rw [finish_cons, hs.after_eq]
      exact ih hrest

def Step.Ruled (source : ByteArray) (s : Step) : Prop :=
  ∀ p t, Answers source p s t ↔ s.run ⟨source, p⟩ = t

theorem runs_iff_of_ruled (h : ∀ s ∈ steps, s.Ruled source) (p : Nat) (ts : List Trace) :
    Runs source p steps ts ↔ run ⟨source, p⟩ steps = ts := by
  induction steps generalizing p ts with
  | nil =>
    constructor
    · intro hr
      cases hr
      rfl
    · intro hr
      subst hr
      exact .nil
  | cons s rest ih =>
    have hs := h s List.mem_cons_self
    have hrest := ih fun s' hs' => h s' (List.mem_cons_of_mem _ hs')
    constructor
    · intro hr
      cases hr with
      | cons hst hts =>
        rw [run, (hs _ _).1 hst, hst.after_eq, (hrest _ _).1 hts]
    · intro hr
      have hst := (hs p _).2 rfl
      rw [run, hst.after_eq] at hr
      subst hr
      exact .cons hst ((hrest _ _).2 rfl)

theorem spells_decode {f : Field} (h : f.width ≤ source.size - p) :
    Spells source p f (f.decode (source.extract p (p + f.width))) := by
  by_cases hin : p + f.width ≤ source.size
  · exact ⟨.ofSource source, Field.write_decode hin⟩
  · -- past the end only what is empty fits
    have hzero : f.width = 0 := by omega
    refine ⟨.ofSource source, ?_⟩
    cases f with
    | block size => rfl
    | gap size =>
      rw [hzero, Nat.add_zero, ByteArray.extract_same]
      change size = 0 at hzero
      subst hzero
      rfl
    | _ => exact absurd hzero (by decide)

theorem read_ruled (source : ByteArray) (f : Field) : (Step.read f).Ruled source := by
  intro p t
  rw [Step.run, Trace.ofRead]
  constructor
  · intro h
    cases h with
    | fits hfits hspells =>
      obtain ⟨fill, hwrite⟩ := hspells
      rw [Buffer.read_fits (b := Cursor.mk source p) hfits, ← Field.decode_write hwrite.symm]
      rfl
    | truncated hshort =>
      rw [Buffer.read_truncated (b := Cursor.mk source p) hshort]
      rfl
  · intro h
    subst h
    by_cases hfits : f.width ≤ source.size - p
    · rw [Buffer.read_fits (b := Cursor.mk source p) hfits]
      exact .fits hfits (spells_decode hfits)
    · have hshort : source.size - p < f.width := Nat.lt_of_not_le hfits
      rw [Buffer.read_truncated (b := Cursor.mk source p) hshort]
      exact .truncated hshort

section Blocks

variable {body : List Step}

theorem Runs.ofScoped_whole (h : Runs source p body ts) (hts : ∀ t ∈ ts, t.failure? = none) :
    Trace.ofScoped ⟨source, p⟩ ts = ⟨.ok .nothing, ⟨source, p⟩, ts⟩ := by
  rw [ofScoped_of_succeed hts, h.finish_eq]
  rfl

theorem Runs.ofScoped_cut {e : Truncated} (h : Runs source p body (ts ++ [t]))
    (hts : ∀ u ∈ ts, u.failure? = none) (ht : t.failure? = some e) :
    Trace.ofScoped ⟨source, p⟩ (ts ++ [t]) = ⟨.error e, ⟨source, p⟩, ts ++ [t]⟩ := by
  have hfinish := h.finish_eq
  rw [finish_concat] at hfinish
  rw [ofScoped_of_fail hts ht, hfinish]
  rfl

theorem scoped_ruled (h : ∀ s ∈ body, s.Ruled source) : (Step.scoped body).Ruled source := by
  intro p t
  rw [Step.run]
  constructor
  · intro ha
    cases ha with
    | whole hruns hall =>
      have hrun := (runs_iff_of_ruled h _ _).1 hruns
      subst hrun
      rw [runUntilFailure_of_succeed hall, hruns.ofScoped_whole hall]
    | @cut _ before after s inner t e hruns hinner ht =>
      rw [List.append_cons] at h
      have hfront := fun s' hs' => h s' (List.mem_append_left after hs')
      have hrun := (runs_iff_of_ruled hfront _ _).1 hruns
      rw [run_concat] at hrun
      obtain ⟨hbefore, hlast⟩ := List.append_inj' hrun rfl
      have hs := (List.cons.inj hlast).1
      subst hbefore hs
      rw [runUntilFailure_of_fail after hinner ht, run_concat, hruns.ofScoped_cut hinner ht]
  · intro ha
    subst ha
    rcases succeed_or_fail ⟨source, p⟩ body with hall | hfail
    · have hruns := (runs_iff_of_ruled h p _).2 rfl
      rw [runUntilFailure_of_succeed hall, hruns.ofScoped_whole hall]
      exact .whole hruns hall
    · obtain ⟨before, s, after, e, hsplit, hbefore, hs⟩ := hfail
      subst hsplit
      rw [List.append_cons] at h
      have hfront := fun s' hs' => h s' (List.mem_append_left after hs')
      have hruns := (runs_iff_of_ruled hfront p _).2 rfl
      rw [run_concat] at hruns
      rw [runUntilFailure_of_fail after hbefore hs, run_concat, hruns.ofScoped_cut hbefore hs]
      exact .cut hruns hbefore hs

theorem save_ruled (h : ∀ s ∈ body, s.Ruled source) : (Step.save body).Ruled source := by
  intro p t
  rw [Step.run, Trace.ofSave]
  constructor
  · intro ha
    cases ha with
    | save hruns =>
      have hrun := (runs_iff_of_ruled h _ _).1 hruns
      subst hrun
      rw [hruns.finish_eq]
      rfl
  · intro ha
    subst ha
    have hruns := (runs_iff_of_ruled h p _).2 rfl
    rw [hruns.finish_eq]
    exact .save hruns

end Blocks

theorem ruled (source : ByteArray) (s : Step) : s.Ruled source := by
  induction s using Step.induction with
  | read f => exact read_ruled source f
  | block body ih => exact ⟨scoped_ruled ih, save_ruled ih⟩
  | _ =>
    intro p t
    constructor
    · intro h
      cases h
      rfl
    · intro h
      subst h
      constructor

theorem runs_iff (source : ByteArray) (steps : List Step) (p : Nat) (ts : List Trace) :
    Runs source p steps ts ↔ run ⟨source, p⟩ steps = ts :=
  runs_iff_of_ruled (fun s _ => ruled source s) p ts

end Rules

def Step.target? : Step → Option Nat
  | .seek target => some target.toNat
  | _ => none

def Step.moved (t : Trace) : Step → Nat
  | .read f => if t.failure? = none then f.width else 0
  | _ => 0

/-- Where the last of the seeks led, or `start` if there is none. -/
def origin (start : Nat) (steps : List Step) : Nat :=
  (steps.filterMap Step.target?).getLast?.getD start

def moved (steps : List Step) (ts : List Trace) : Nat :=
  (((steps.zip ts).rtakeWhile fun x => x.1.target? = none).map fun x => x.1.moved x.2).sum

theorem Answers.position_eq {source : ByteArray} {p : Nat} {s : Step} {t : Trace}
    (h : Answers source p s t) : t.after.position = s.target?.getD p + s.moved t := by
  cases h <;> rfl

theorem run_length (c : Cursor) (steps : List Step) : (run c steps).length = steps.length := by
  induction steps generalizing c with
  | nil => rfl
  | cons s rest ih => simp [run, ih]

theorem step_position (c : Cursor) (s : Step) :
    (s.run c).after.position = s.target?.getD c.position + s.moved (s.run c) :=
  ((ruled c.source s c.position (s.run c)).2 rfl).position_eq

theorem origin_concat (start : Nat) (steps : List Step) (s : Step) :
    origin start (steps ++ [s]) = s.target?.getD (origin start steps) := by
  rw [origin, List.filterMap_append]
  cases hs : s.target? with
  | none => simp [hs, origin]
  | some target => simp [hs]

theorem moved_concat {steps : List Step} {ts : List Trace} (h : steps.length = ts.length)
    (s : Step) (t : Trace) :
    moved (steps ++ [s]) (ts ++ [t]) =
      if s.target? = none then moved steps ts + s.moved t else 0 := by
  rw [moved, List.zip_append h, List.zip_cons_cons, List.zip_nil_left]
  split_ifs with hs
  · rw [List.rtakeWhile_concat_pos _ _ _ (by simp [hs]), List.map_append, List.sum_append]
    simp [moved]
  · rw [List.rtakeWhile_concat_neg _ _ _ (by simp [hs])]
    rfl

theorem run_position (c : Cursor) (steps : List Step) :
    (finish c (run c steps)).position =
      origin c.position steps + moved steps (run c steps) := by
  induction steps using List.reverseRecOn with
  | nil => rfl
  | append_singleton steps s ih =>
    rw [run_concat, finish_concat, step_position, origin_concat,
      moved_concat (run_length c steps).symm, ih]
    split_ifs with hs
    · rw [hs]
      exact Nat.add_assoc _ _ _
    · cases s with
      | seek target => rfl
      | _ => exact absurd rfl hs

/-- Every program over a cursor answers as the rules say and in no other way; at every depth it
leaves the source as it was and stands where 64 bits can tell; and it ends past the target of its
last seek by the widths of what has been read since then. -/
theorem run_exact (c : Cursor) (steps : List Step) :
    (∀ ts, run c steps = ts ↔ Runs c.source c.position steps ts) ∧
      (∀ t, Within t (run c steps) → t.after.source = c.source) ∧
      (c.source.size < 2 ^ 64 → c.position < 2 ^ 64 →
        ∀ t, Within t (run c steps) → t.after.position < 2 ^ 64) ∧
      (finish c (run c steps)).position =
        origin c.position steps + moved steps (run c steps) := by
  have hruns := (runs_iff c.source steps c.position (run c steps)).2 rfl
  refine ⟨fun ts => (runs_iff c.source steps c.position ts).symm, ?_, ?_, run_position c steps⟩
  · intro t ht
    exact (hruns.within (P := fun _ => True) (fun _ _ => trivial) trivial ht).1
  · intro hsize hp t ht
    exact (hruns.within (fun hs hq => hs.position_lt hsize hq) hp ht).2

def fourBytes : Cursor := { source := ⟨#[1, 2, 3, 4]⟩ }

def detour : List Step :=
  [.seek 1, .read .u16,
    .scoped [.seek 0xffffffffffffffff, .read (.gap 0),
      .save [.read (.block 0xffffffffffffffff), .read .u8], .read .u8, .seek 0],
    .read .flag, .read .u8]

theorem detour_ends :
    fourBytes.source.size < 2 ^ 64 ∧ fourBytes.position < 2 ^ 64 ∧
      (∀ t, Within t (run fourBytes detour) → t.after.position < 2 ^ 64) ∧
      (finish fourBytes (run fourBytes detour)).position = 4 := by
  obtain ⟨-, -, hposition, hfinish⟩ := run_exact fourBytes detour
  have hsize : fourBytes.source.size < 2 ^ 64 := by decide
  have hstart : fourBytes.position < 2 ^ 64 := by decide
  refine ⟨hsize, hstart, hposition hsize hstart, ?_⟩
  rw [hfinish]
  decide +kernel

end SharedArchive.Cursor
