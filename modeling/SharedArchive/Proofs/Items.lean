import Mathlib
import SharedArchive.Proofs.GivenMagic

/-!
The items of a command line. Up to the mark that ends the options an accepted line is a row of
items, each an option with its value, a flag, some short flags or the file, and an item says the
same wherever it stands. So the items may come in any order, and the line asks for the same.
-/

namespace SharedArchive.Command

inductive Setting
  | file (path : String)
  | option (o : ValueOption) (n : Nat)
  | flag (f : Flag)

namespace Setting

def isFree (p : Progress) : Setting → Bool
  | file _ => p.file.isNone
  | option o _ => !o.isGiven p
  | flag f => f.isFree p

def give (p : Progress) : Setting → Progress
  | file path => { p with file := some path }
  | option o n => o.give p n
  | flag f => f.give p

/-- The two cannot both be said. Only to be more verbose can be said again. -/
def Excludes : Setting → Setting → Prop
  | file _, file _ => True
  | option o _, option o' _ => o = o'
  | flag f, flag f' => f = f' ∧ f ≠ .verbose
  | _, _ => False

def giveAll (p : Progress) : List Setting → Option Progress
  | [] => some p
  | a :: rest => if a.isFree p then giveAll (a.give p) rest else none

section

variable {a b : Setting} {p q : Progress}

theorem Excludes.symm (h : a.Excludes b) : b.Excludes a := by
  cases a with
  | file path => cases b <;> exact h
  | option o n =>
    cases b with
    | option o' n' => exact Eq.symm h
    | _ => exact h
  | flag f =>
    cases b with
    | flag f' =>
      obtain ⟨rfl, hne⟩ := h
      exact ⟨rfl, hne⟩
    | _ => exact h

theorem isFree_give : b.isFree (a.give p) = true ↔ b.isFree p = true ∧ ¬ a.Excludes b := by
  cases a with
  | file path => cases b <;> simp [isFree, give, Excludes, ValueOption.isGiven, Flag.isFree]
  | option o n =>
    cases o <;> cases b with
    | option o' n' =>
      cases o' <;> simp [isFree, give, Excludes, ValueOption.isGiven, ValueOption.give]
    | flag f' => cases f' <;> simp [isFree, give, Excludes, Flag.isFree, ValueOption.give]
    | file path => simp [isFree, give, Excludes, ValueOption.give]
  | flag f =>
    cases f <;> cases b with
    | option o' n' => cases o' <;> simp [isFree, give, Excludes, ValueOption.isGiven, Flag.give]
    | flag f' => cases f' <;> simp [isFree, give, Excludes, Flag.isFree, Flag.give]
    | file path => simp [isFree, give, Excludes, Flag.give]

theorem give_comm (h : ¬ a.Excludes b) : b.give (a.give p) = a.give (b.give p) := by
  cases a with
  | file path =>
    cases b with
    | file path' => exact absurd trivial h
    | option o' n' => cases o' <;> rfl
    | flag f' => cases f' <;> rfl
  | option o n =>
    cases b with
    | file path' => cases o <;> rfl
    | option o' n' =>
      cases o <;> cases o'
      · exact absurd rfl h
      · rfl
      · rfl
      · exact absurd rfl h
    | flag f' => cases o <;> cases f' <;> rfl
  | flag f =>
    cases b with
    | file path' => cases f <;> rfl
    | option o' n' => cases f <;> cases o' <;> rfl
    | flag f' => cases f <;> cases f' <;> rfl

theorem giveAll_eq_some_iff {l : List Setting} :
    giveAll p l = some q ↔ (∀ a ∈ l, a.isFree p = true) ∧
      l.Pairwise (fun a b => ¬ a.Excludes b) ∧ l.foldl give p = q := by
  induction l generalizing p with
  | nil => simp [giveAll]
  | cons a rest ih =>
    rw [giveAll]
    split_ifs with ha
    · rw [ih]
      simp [isFree_give, ha, forall_and, and_assoc]
    · simp [ha]

/-- Settings may come in any order: two that exclude each other are never both taken. -/
theorem giveAll_perm {l l' : List Setting} (h : l.Perm l') : giveAll p l = giveAll p l' := by
  have hsymm : Std.Symm fun a b : Setting => ¬ a.Excludes b := ⟨fun a b h h' => h h'.symm⟩
  have hpairs := h.pairwise_iff fun {a b} => hsymm.symm a b
  have hfold (hl : l.Pairwise fun a b => ¬ a.Excludes b) : l.foldl give p = l'.foldl give p := by
    apply h.foldl_eq'
    intro a ha b hb p'
    by_cases hab : a = b
    · rw [hab]
    · exact give_comm (hl.forall ha hb hab)
  apply Option.ext
  intro q
  simp only [giveAll_eq_some_iff, h.mem_iff, ← hpairs]
  refine and_congr_right fun _ => and_congr_right fun hl => ?_
  rw [hfold hl]

end

end Setting

structure Numeral (o : ValueOption) where
  text : String
  value : Nat
  reads : Text.Hex.read o.limit text = .ok value

/-- A part of a command line that stands on its own. Short flags come several in one argument. -/
inductive Item
  | attached (o : ValueOption) (v : Numeral o)
  | separate (o : ValueOption) (v : Numeral o)
  | flag (f : Flag)
  | verbose (more : Nat)
  | file (path : String) (isWord : Progress.IsWord path) (nonempty : path ≠ "")

namespace Item

def arguments : Item → List String
  | attached o v => [o.longName ++ "=" ++ v.text]
  | separate o v => [o.longName, v.text]
  | flag f => [f.longName]
  | verbose more => [String.ofList ('-' :: 'v' :: List.replicate more 'v')]
  | file path _ _ => [path]

def settings : Item → List Setting
  | attached o v | separate o v => [.option o v.value]
  | flag f => [.flag f]
  | verbose more => .flag .verbose :: List.replicate more (.flag .verbose)
  | file path _ _ => [.file path]

end Item

namespace Setting

variable {p q : Progress}

theorem give_rest (a : Setting) :
    (a.give p).unsettled = p.unsettled ∧ (a.give p).optionsEnded = p.optionsEnded := by
  cases a with
  | file path => exact ⟨rfl, rfl⟩
  | option o n => cases o <;> exact ⟨rfl, rfl⟩
  | flag f => cases f <;> exact ⟨rfl, rfl⟩

theorem giveAll_rest {l : List Setting} (h : giveAll p l = some q) :
    q.unsettled = p.unsettled ∧ q.optionsEnded = p.optionsEnded := by
  induction l generalizing p with
  | nil =>
    cases h
    exact ⟨rfl, rfl⟩
  | cons a rest ih =>
    rw [giveAll] at h
    split_ifs at h with ha
    obtain ⟨hunsettled, hended⟩ := ih h
    exact ⟨hunsettled.trans a.give_rest.1, hended.trans a.give_rest.2⟩

theorem giveAll_singleton {a : Setting} :
    giveAll p [a] = some q ↔ a.isFree p = true ∧ a.give p = q := by
  simp [giveAll]

theorem giveAll_append (l l' : List Setting) :
    giveAll p (l ++ l') = (giveAll p l).bind (giveAll · l') := by
  induction l generalizing p with
  | nil => rfl
  | cons a rest ih =>
    rw [List.cons_append, giveAll, giveAll]
    split_ifs with ha
    · exact ih
    · rfl

end Setting

namespace Progress

section Items

variable {s q : Progress} {rest : List String}

theorem setOption_numeral {o : ValueOption} (v : Numeral o) :
    s.setOption v.text o = .ok q ↔ Setting.giveAll s [.option o v.value] = some q := by
  rw [setOption_ok_iff, Setting.giveAll_singleton, v.reads]
  simp only [Except.ok.injEq, exists_eq_left', Setting.isFree, Bool.not_eq_true']
  exact and_congr_right fun _ => eq_comm

theorem setFlag_giveAll (f : Flag) :
    s.setFlag f = .ok q ↔ Setting.giveAll s [.flag f] = some q := by
  rw [setFlag_ok_iff, Setting.giveAll_singleton]
  exact and_congr_right fun _ => eq_comm

theorem accept_flag (f : Flag) (hs : s.unsettled = none) (hopen : s.optionsEnded = false) :
    s.accept f.longName = s.setFlag f := by
  have hlong : s.accept f.longName = s.settle >>= fun p => p.setFlag f := by
    rw [accept, hopen, if_neg Bool.false_ne_true]
    cases f <;> rfl
  rw [hlong, settle_of_unsettled hs]
  rfl

theorem acceptShort_verbose (hs : s.unsettled = none) (more : Nat) :
    s.acceptShort (List.replicate more 'v') = .ok q ↔
      Setting.giveAll s (List.replicate more (.flag .verbose)) = some q := by
  induction more generalizing s with
  | zero => simp [acceptShort, Setting.giveAll]
  | succ more ih =>
    have hone : s.acceptFlag .verbose = .ok (Flag.verbose.give s) := by
      rw [acceptFlag, settle_of_unsettled hs]
      rfl
    have hgiven : (Flag.verbose.give s).unsettled = none := hs
    have hshort : s.acceptShort (List.replicate (more + 1) 'v') =
        s.acceptFlag .verbose >>= fun p => p.acceptShort (List.replicate more 'v') := rfl
    rw [hshort, hone]
    exact ih hgiven

theorem accept_verbose (hopen : s.optionsEnded = false) (more : Nat) :
    s.accept (String.ofList ('-' :: 'v' :: List.replicate more 'v')) =
      s.acceptShort (List.replicate (more + 1) 'v') := by
  rw [accept, hopen, if_neg Bool.false_ne_true, String.toList_ofList]
  rfl

theorem acceptAll_file {path : String} (hword : IsWord path) (hne : path ≠ "")
    (hs : s.unsettled = none) (hopen : s.optionsEnded = false) :
    s.acceptAll (path :: rest) = .ok q ↔
      ∃ s', Setting.giveAll s [.file path] = some s' ∧ s'.acceptAll rest = .ok q := by
  let held : Progress := { s with unsettled := some (.file path) }
  have hfree : s.hasFile = false ↔ s.file.isNone = true := by
    cases hfile : s.file <;> simp [hasFile, hs, hfile]
  have haccept {r : Progress} : s.accept path = .ok r ↔ s.file.isNone = true ∧ held = r := by
    rw [accept_word hopen hword, acceptWord_of_not_awaits (not_awaits_of_unsettled hs),
      acceptFile_ok_iff, hfree, settle_of_unsettled hs]
    simp only [Except.ok.injEq, exists_eq_left']
    exact and_congr_right fun _ => eq_comm
  have hsettle : held.settle = .ok (Setting.give s (.file path)) := by
    simp [held, settle, hne, Setting.give, hs]
  have hheld : ¬ held.Awaits := not_awaits_of_file rfl
  have hrest : held.acceptAll rest = .ok q ↔
      (Setting.give s (.file path)).acceptAll rest = .ok q := by
    rw [acceptAll_ok_iff rest hheld, hsettle]
    simp
  rw [acceptAll, bind_ok_iff]
  simp only [haccept, Setting.giveAll_singleton, and_assoc, exists_and_left, exists_eq_left', hrest]
  rfl

theorem acceptAll_item (i : Item) (hs : s.unsettled = none) (hopen : s.optionsEnded = false) :
    s.acceptAll (i.arguments ++ rest) = .ok q ↔
      ∃ s', Setting.giveAll s i.settings = some s' ∧ s'.acceptAll rest = .ok q := by
  cases i with
  | attached o v =>
    simp only [Item.settings, ← setOption_numeral]
    exact acceptAll_attached hs hopen
  | separate o v =>
    have hword : IsWord v.text := isWord_of_read (by cases o <;> decide) v.reads
    simp only [Item.settings, ← setOption_numeral]
    exact (acceptAll_separate hs hopen).trans (and_iff_right hword)
  | flag f =>
    simp only [Item.settings, ← setFlag_giveAll, ← accept_flag f hs hopen]
    exact bind_ok_iff
  | verbose more =>
    simp only [Item.settings, ← List.replicate_succ, ← acceptShort_verbose hs,
      ← accept_verbose hopen]
    exact bind_ok_iff
  | file path hword hne => exact acceptAll_file hword hne hs hopen

theorem acceptAll_items (items : List Item) (hs : s.unsettled = none)
    (hopen : s.optionsEnded = false) :
    s.acceptAll (items.flatMap Item.arguments ++ rest) = .ok q ↔
      ∃ s', Setting.giveAll s (items.flatMap Item.settings) = some s' ∧
        s'.acceptAll rest = .ok q := by
  induction items generalizing s with
  | nil => simp [Setting.giveAll]
  | cons i items ih =>
    simp only [List.flatMap_cons, List.append_assoc, acceptAll_item i hs hopen,
      Setting.giveAll_append, Option.bind_eq_some_iff]
    constructor
    · intro h
      obtain ⟨t, ht, hrest⟩ := h
      obtain ⟨hsettled, hended⟩ := Setting.giveAll_rest ht
      obtain ⟨s', hs', hq⟩ := (ih (hsettled.trans hs) (hended.trans hopen)).1 hrest
      exact ⟨s', ⟨t, ht, hs'⟩, hq⟩
    · intro h
      obtain ⟨s', ⟨t, ht, hs'⟩, hq⟩ := h
      obtain ⟨hsettled, hended⟩ := Setting.giveAll_rest ht
      exact ⟨t, ht, (ih (hsettled.trans hs) (hended.trans hopen)).2 ⟨s', hs', hq⟩⟩

theorem shortFlag?_free {c : Char} {f : Flag} (h : shortFlag? c = some f)
    (hfree : f.isFree s = true) : c = 'v' := by
  unfold shortFlag? at h
  split at h <;> cases h
  · rfl
  · cases hfree
  · cases hfree

theorem eq_replicate_of_acceptShort {cs : List Char} (h : s.acceptShort cs = .ok q) :
    cs = List.replicate cs.length 'v' := by
  induction cs generalizing s with
  | nil => rfl
  | cons c cs ih =>
    rw [acceptShort] at h
    split at h
    next => cases h
    next f hf =>
      obtain ⟨r, hr, hcs⟩ := bind_ok_iff.1 h
      obtain ⟨s', -, hset⟩ := bind_ok_iff.1 hr
      have hc := shortFlag?_free hf (setFlag_ok_iff.1 hset).1
      rw [hc, List.length_cons, List.replicate_succ, ← ih hcs]

theorem exists_item_of_long {a : String} {name : List Char} {value : Option String}
    (htext : a.toList = longText name value) (ha : s.accept a = s.acceptLong name value)
    (hs : s.unsettled = none) (hopen : s.optionsEnded = false)
    (h : s.acceptAll (a :: rest) = .ok q) :
    ∃ (i : Item) (rest' : List String), a :: rest = i.arguments ++ rest' := by
  obtain ⟨r, hr, hrest⟩ := bind_ok_iff.1 h
  rw [ha] at hr
  unfold acceptLong at hr
  split at hr
  next => cases hr
  next => cases hr
  next f hf =>
    have hname : a = f.longName := String.toList_inj.1 (htext.trans (longName?_text hf))
    exact ⟨.flag f, rest, congrArg (· :: rest) hname⟩
  next o v ho =>
    have hname := String.toList_inj.1 (htext.trans (longText_option v ho))
    obtain ⟨s', -, hset⟩ := bind_ok_iff.1 hr
    obtain ⟨-, n, hn, -⟩ := setOption_ok_iff.1 hset
    exact ⟨.attached o ⟨v, n, hn⟩, rest, congrArg (· :: rest) hname⟩
  next o ho =>
    have hname : a = o.longName := String.toList_inj.1 (htext.trans (longName?_text ho))
    subst hname
    cases rest with
    | nil => exact absurd h (acceptAll_longName hs hopen)
    | cons v rest =>
      obtain ⟨-, s', hset, -⟩ := (acceptAll_separate hs hopen).1 h
      obtain ⟨-, n, hn, -⟩ := setOption_ok_iff.1 hset
      exact ⟨.separate o ⟨v, n, hn⟩, rest, rfl⟩

theorem exists_item {a : String} (ha : a ≠ "--") (hs : s.unsettled = none)
    (hopen : s.optionsEnded = false) (h : s.acceptAll (a :: rest) = .ok q) :
    ∃ (i : Item) (rest' : List String), a :: rest = i.arguments ++ rest' := by
  obtain ⟨r, hr, hrest⟩ := bind_ok_iff.1 h
  obtain ⟨name, value, htext, hlong⟩ | ⟨c, cs, htext, hshort⟩ | hword := accept_open ha
  · exact exists_item_of_long htext (hlong s hopen) hs hopen h
  · rw [hshort s hopen] at hr
    have hletters := eq_replicate_of_acceptShort hr
    rw [List.length_cons, List.replicate_succ, List.cons.injEq] at hletters
    obtain ⟨hc, hcs⟩ := hletters
    refine ⟨.verbose cs.length, rest, congrArg (· :: rest) (String.toList_inj.1 ?_)⟩
    rw [htext, hc, String.toList_ofList, ← hcs]
  · rw [accept_word hopen hword, acceptWord_of_not_awaits (not_awaits_of_unsettled hs),
      acceptFile_ok_iff] at hr
    obtain ⟨-, s', -, rfl⟩ := hr
    obtain ⟨t, ht, -⟩ := (acceptAll_ok_iff rest (not_awaits_of_file rfl)).1 hrest
    have hne : a ≠ "" := by
      intro hempty
      subst hempty
      cases ht
    exact ⟨.file a hword hne, rest, rfl⟩

theorem arguments_ne_nil (i : Item) : i.arguments ≠ [] := by
  cases i <;> simp [Item.arguments]

theorem exists_items {line : List String} (hs : s.unsettled = none)
    (hopen : s.optionsEnded = false) (h : s.acceptAll line = .ok q) :
    ∃ (items : List Item) (tail : List String), line = items.flatMap Item.arguments ++ tail ∧
      ∀ a ∈ tail.head?, a = "--" := by
  -- an item may take two arguments, so the induction is on how many there are
  induction hn : line.length using Nat.strong_induction_on generalizing s line with
  | _ n ih =>
    cases line with
    | nil => exact ⟨[], [], rfl, by simp⟩
    | cons a rest =>
      by_cases ha : a = "--"
      · exact ⟨[], a :: rest, rfl, by simp [ha]⟩
      · obtain ⟨i, rest', hline⟩ := exists_item ha hs hopen h
        rw [hline, acceptAll_item i hs hopen] at h
        obtain ⟨t, ht, hrest⟩ := h
        obtain ⟨hsettled, hended⟩ := Setting.giveAll_rest ht
        have hshorter : rest'.length < n := by
          have hlength := List.length_pos_iff.2 (arguments_ne_nil i)
          rw [← hn, hline, List.length_append]
          omega
        obtain ⟨items, tail, htail, hend⟩ :=
          ih rest'.length hshorter (hsettled.trans hs) (hended.trans hopen) hrest rfl
        refine ⟨i :: items, tail, ?_, hend⟩
        rw [hline, htail, List.flatMap_cons, List.append_assoc]

end Items

end Progress

section Requests

variable {r : Request} {tail : List String}

theorem ofArguments_items {items : List Item} :
    Request.ofArguments (items.flatMap Item.arguments ++ tail) = .ok r ↔
      ∃ s, Setting.giveAll {} (items.flatMap Item.settings) = some s ∧
        ∃ q, s.acceptAll tail = .ok q ∧ Request.ofProgress q = .ok r := by
  have hline {q : Progress} :
      Progress.acceptAll {} (items.flatMap Item.arguments ++ tail) = .ok q ↔
        ∃ s, Setting.giveAll {} (items.flatMap Item.settings) = some s ∧
          s.acceptAll tail = .ok q :=
    Progress.acceptAll_items items rfl rfl
  rw [Request.ofArguments, bind_ok_iff]
  simp only [hline]
  constructor
  · intro h
    obtain ⟨q, ⟨s, hs, hq⟩, hr⟩ := h
    exact ⟨s, hs, q, hq, hr⟩
  · intro h
    obtain ⟨s, hs, q, hq, hr⟩ := h
    exact ⟨q, ⟨s, hs, hq⟩, hr⟩

theorem ofArguments_perm {items items' : List Item} (h : items.Perm items') :
    Request.ofArguments (items.flatMap Item.arguments ++ tail) = .ok r ↔
      Request.ofArguments (items'.flatMap Item.arguments ++ tail) = .ok r := by
  rw [ofArguments_items, ofArguments_items, Setting.giveAll_perm (h.flatMap_right _)]

end Requests

end SharedArchive.Command
