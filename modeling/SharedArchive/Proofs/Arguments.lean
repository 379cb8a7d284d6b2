import Mathlib
import SharedArchive.Command.Request

/-!
How arguments are taken. A value is looked at late, but a complete one may be looked at right away,
so an option with its value reads as one item, in one argument or in two; and an argument is taken
in one of six ways, each of which tells all that it does.
-/

namespace SharedArchive.Command

theorem bind_ok_iff {ε α β : Type} {x : Except ε α} {f : α → Except ε β} {b : β} :
    x >>= f = .ok b ↔ ∃ a, x = .ok a ∧ f a = .ok b := by
  cases x with
  | error e =>
    constructor
    · intro h
      cases h
    · rintro ⟨a, h, -⟩
      cases h
  | ok a =>
    constructor
    · intro h
      exact ⟨a, rfl, h⟩
    · rintro ⟨a', h, hf⟩
      cases h
      exact hf

namespace ValueOption

def longName : ValueOption → String
  | magic => "--magic"
  | pattern => "--pattern"

def limit : ValueOption → Nat
  | magic => UInt32.size
  | pattern => UInt64.size

def isGiven (p : Progress) : ValueOption → Bool
  | magic => p.magic.isSome
  | pattern => p.pattern.isSome

def give (p : Progress) (n : Nat) : ValueOption → Progress
  | magic => { p with magic := some (UInt32.ofNat n) }
  | pattern => { p with pattern := some (UInt64.ofNat n) }

end ValueOption

namespace Flag

def longName : Flag → String
  | regions => "--regions"
  | symbols => "--symbols"
  | verbose => "--verbose"
  | help => "--help"
  | version => "--version"

def isFree (p : Progress) : Flag → Bool
  | regions => !p.regions
  | symbols => !p.symbols
  | verbose => true
  | help | version => false

def give (p : Progress) : Flag → Progress
  | regions => { p with regions := true }
  | symbols => { p with symbols := true }
  | verbose => { p with verbosity := min maxVerbosity (p.verbosity + 1) }
  | help | version => p

end Flag

namespace Progress

def Awaits (p : Progress) : Prop := ∃ o, p.unsettled = some (.option o none)

section Settle

variable {p s q : Progress} {o : ValueOption} {v : String}

theorem setOption_eq (p : Progress) (v : String) (o : ValueOption) :
    p.setOption v o =
      if o.isGiven p then .error .repeatedArgument
      else ((Text.Hex.read o.limit v).mapError (.badNumber v)).map (o.give p) := by
  cases o with
  | magic =>
    rw [setOption]
    cases hn : Text.Hex.read UInt32.size v <;> simp only [ValueOption.limit, hn] <;> rfl
  | pattern =>
    rw [setOption]
    cases hn : Text.Hex.read UInt64.size v <;> simp only [ValueOption.limit, hn] <;> rfl

theorem setOption_ok_iff :
    p.setOption v o = .ok q ↔
      o.isGiven p = false ∧ ∃ n, Text.Hex.read o.limit v = .ok n ∧ q = o.give p n := by
  rw [setOption_eq]
  cases hgiven : o.isGiven p with
  | true =>
    constructor
    · rintro ⟨⟩
    · rintro ⟨⟨⟩, -⟩
  | false =>
    cases hn : Text.Hex.read o.limit v with
    | error fault =>
      constructor
      · rintro ⟨⟩
      · rintro ⟨-, n, ⟨⟩, -⟩
    | ok n =>
      constructor
      · rintro ⟨⟩
        exact ⟨rfl, n, rfl, rfl⟩
      · rintro ⟨-, n', hn', rfl⟩
        cases hn'
        rfl

theorem settle_of_unsettled (h : p.unsettled = none) : p.settle = .ok p := by
  obtain ⟨file, magic, regions, symbols, pattern, verbosity, unsettled, ended⟩ := p
  cases h
  rfl

theorem not_awaits_of_unsettled (h : p.unsettled = none) : ¬ p.Awaits := by
  rintro ⟨o, ho⟩
  rw [h] at ho
  cases ho

theorem not_awaits_of_file {path : String} (h : p.unsettled = some (.file path)) :
    ¬ p.Awaits := by
  intro hawaits
  obtain ⟨o, ho⟩ := hawaits
  rw [h] at ho
  cases ho

theorem not_settle_of_awaits (h : p.Awaits) : p.settle ≠ .ok s := by
  obtain ⟨o, ho⟩ := h
  rw [settle, ho]
  rintro ⟨⟩

theorem settle_ok (h : p.settle = .ok s) :
    s.unsettled = none ∧ s.optionsEnded = p.optionsEnded ∧ s.hasFile = p.hasFile := by
  obtain ⟨file, magic, regions, symbols, pattern, verbosity, unsettled, ended⟩ := p
  match unsettled, h with
  | none, h =>
    cases h
    exact ⟨rfl, rfl, rfl⟩
  | some (.file path), h =>
    simp only [settle] at h
    split at h
    · cases h
    · cases h
      cases file <;> exact ⟨rfl, rfl, rfl⟩
  | some (.option o none), h => cases h
  | some (.option o (some v)), h =>
    obtain ⟨-, n, -, rfl⟩ := setOption_ok_iff.1 h
    cases o <;> cases file <;> exact ⟨rfl, rfl, rfl⟩

theorem setFlag_ok_iff {f : Flag} :
    p.setFlag f = .ok q ↔ f.isFree p = true ∧ q = f.give p := by
  cases f <;> simp only [setFlag, Flag.isFree, Flag.give]
  · cases p.regions <;> simp [eq_comm]
  · cases p.symbols <;> simp [eq_comm]
  · simp [eq_comm]
  · simp
  · simp

theorem acceptFile_ok_iff {path : String} :
    p.acceptFile path = .ok q ↔
      p.hasFile = false ∧
        ∃ s, p.settle = .ok s ∧ q = { s with unsettled := some (.file path) } := by
  rw [acceptFile]
  cases p.hasFile with
  | true =>
    constructor
    · rintro ⟨⟩
    · rintro ⟨⟨⟩, -⟩
  | false =>
    rw [if_neg Bool.false_ne_true, bind_ok_iff]
    constructor
    · rintro ⟨s, hs, ⟨⟩⟩
      exact ⟨rfl, s, hs, rfl⟩
    · rintro ⟨-, s, hs, rfl⟩
      exact ⟨s, hs, rfl⟩

end Settle

def IsWord (a : String) : Prop := ∀ c rest, a.toList ≠ '-' :: c :: rest

def longText (name : List Char) : Option String → List Char
  | none => '-' :: '-' :: name
  | some v => '-' :: '-' :: name ++ '=' :: v.toList

theorem longText_splitValue (cs : List Char) :
    longText (splitValue cs).1 (splitValue cs).2 = '-' :: '-' :: cs := by
  rw [splitValue]
  split
  next => rfl
  next c value hc =>
    have hequals : c = '=' := by
      have hhead := List.head?_dropWhile_not (· ≠ '=') cs
      rw [hc] at hhead
      simpa using hhead
    have hjoin := List.takeWhile_append_dropWhile (p := (· ≠ '=')) (l := cs)
    rw [hc, hequals] at hjoin
    simp only [longText, String.toList_ofList, List.cons_append, hjoin]

theorem accept_word {p : Progress} (hopen : p.optionsEnded = false) {a : String} (ha : IsWord a) :
    p.accept a = p.acceptWord a := by
  rw [accept, hopen, if_neg Bool.false_ne_true]
  split
  next h => exact absurd h (ha _ _)
  next h => exact absurd h (ha _ _)
  next h => exact absurd h (ha _ _)
  next => rfl

/-- What an argument is does not depend on what came before it, as long as options are read. -/
theorem accept_open {a : String} (ha : a ≠ "--") :
    (∃ name value, a.toList = longText name value ∧
        ∀ p : Progress, p.optionsEnded = false → p.accept a = p.acceptLong name value) ∨
      (∃ c rest, a.toList = '-' :: c :: rest ∧
        ∀ p : Progress, p.optionsEnded = false → p.accept a = p.acceptShort (c :: rest)) ∨
      IsWord a := by
  by_cases hword : IsWord a
  · exact Or.inr (Or.inr hword)
  · obtain ⟨c, rest, h⟩ : ∃ c rest, a.toList = '-' :: c :: rest := by
      simpa [IsWord] using hword
    by_cases hc : c = '-'
    · subst hc
      left
      refine ⟨(splitValue rest).1, (splitValue rest).2, ?_, fun p hp => ?_⟩
      · rw [h, longText_splitValue]
      · rw [accept, hp, if_neg Bool.false_ne_true, h]
        cases rest with
        | nil => exact absurd (String.toList_inj.1 h) ha
        | cons d rest => rfl
    · refine Or.inr (Or.inl ⟨c, rest, h, fun p hp => ?_⟩)
      rw [accept, hp, if_neg Bool.false_ne_true, h]
      split
      next he => exact absurd (List.cons.inj (List.cons.inj he).2).1 hc
      next he => exact absurd (List.cons.inj (List.cons.inj he).2).1 hc
      next he => cases he; rfl
      next hne => exact absurd rfl (hne c rest)

def endOptions (p : Progress) : Progress := { p with optionsEnded := true }

theorem accept_end {p : Progress} (h : p.optionsEnded = false) :
    p.accept "--" = .ok p.endOptions := by
  rw [accept, h, if_neg Bool.false_ne_true]
  rfl

theorem settle_endOptions (p : Progress) : p.endOptions.settle = p.settle.map endOptions := by
  obtain ⟨file, magic, regions, symbols, pattern, verbosity, unsettled, ended⟩ := p
  match unsettled with
  | none => rfl
  | some (.file path) =>
    simp only [settle, endOptions]
    split_ifs <;> rfl
  | some (.option o none) => rfl
  | some (.option .magic (some v)) =>
    simp only [settle, endOptions, setOption]
    cases magic with
    | some m => rfl
    | none => cases Text.Hex.read UInt32.size v <;> rfl
  | some (.option .pattern (some v)) =>
    simp only [settle, endOptions, setOption]
    cases pattern with
    | some m => rfl
    | none => cases Text.Hex.read UInt64.size v <;> rfl

def Looks (f : Progress → Except Refusal Progress) : Prop :=
  ∀ p q, f p = .ok q ↔ ∃ s, p.settle = .ok s ∧ f s = .ok q

namespace Looks

theorem settle : Looks Progress.settle := by
  intro p q
  constructor
  · intro h
    exact ⟨q, h, settle_of_unsettled (settle_ok h).1⟩
  · rintro ⟨s, hs, hq⟩
    rw [settle_of_unsettled (settle_ok hs).1] at hq
    cases hq
    exact hs

theorem bind {f g : Progress → Except Refusal Progress} (hf : Looks f) :
    Looks fun p => f p >>= g := by
  intro p q
  simp only [bind_ok_iff, hf p]
  constructor
  · rintro ⟨r, ⟨s, hs, hr⟩, hq⟩
    exact ⟨s, hs, r, hr, hq⟩
  · rintro ⟨s, hs, r, hr, hq⟩
    exact ⟨r, ⟨s, hs, hr⟩, hq⟩

theorem refuse (e : Refusal) : Looks fun _ => .error e := by
  intro p q
  constructor
  · rintro ⟨⟩
  · rintro ⟨s, -, ⟨⟩⟩

theorem acceptFlag (f : Flag) : Looks (·.acceptFlag f) := settle.bind

theorem acceptFile (path : String) : Looks (·.acceptFile path) := by
  intro p q
  simp only [acceptFile_ok_iff]
  constructor
  · rintro ⟨hfile, s, hs, rfl⟩
    obtain ⟨hunsettled, -, hhas⟩ := settle_ok hs
    exact ⟨s, hs, hhas.trans hfile, s, settle_of_unsettled hunsettled, rfl⟩
  · rintro ⟨s, hs, hfile, s', hs', rfl⟩
    obtain ⟨hunsettled, -, hhas⟩ := settle_ok hs
    rw [settle_of_unsettled hunsettled] at hs'
    cases hs'
    exact ⟨hhas.symm.trans hfile, s, hs, rfl⟩

theorem acceptShort (c : Char) (rest : List Char) : Looks (·.acceptShort (c :: rest)) := by
  simp only [Progress.acceptShort]
  cases shortFlag? c with
  | none => exact refuse _
  | some f => exact (acceptFlag f).bind

theorem acceptLong (name : List Char) (value : Option String) :
    Looks (·.acceptLong name value) := by
  unfold Progress.acceptLong
  cases longName? name with
  | none => exact refuse _
  | some long =>
    cases long with
    | flag f =>
      cases value with
      | none => exact acceptFlag f
      | some v => exact refuse _
    | option o =>
      cases value with
      | none => exact settle.bind
      | some v => exact settle.bind

end Looks

section Look

variable {p q : Progress}

theorem acceptWord_of_not_awaits (hp : ¬ p.Awaits) (text : String) :
    p.acceptWord text = p.acceptFile text := by
  rw [acceptWord]
  split
  next o ho => exact absurd ⟨o, ho⟩ hp
  next => rfl

theorem accept_ok_iff (a : String) (hp : ¬ p.Awaits) (ha : p.optionsEnded ∨ a ≠ "--") :
    p.accept a = .ok q ↔ ∃ s, p.settle = .ok s ∧ s.accept a = .ok q := by
  have hsame {f : Progress → Except Refusal Progress} (hf : Looks f)
      (hopen : ∀ p' : Progress, ¬ p'.Awaits → p'.optionsEnded = p.optionsEnded →
        p'.accept a = f p') :
      p.accept a = .ok q ↔ ∃ s, p.settle = .ok s ∧ s.accept a = .ok q := by
    rw [hopen p hp rfl, hf p q]
    refine exists_congr fun s => and_congr_right fun hs => ?_
    obtain ⟨hunsettled, hended, -⟩ := settle_ok hs
    rw [hopen s (not_awaits_of_unsettled hunsettled) hended]
  by_cases hclosed : p.optionsEnded = true
  · refine hsame (.acceptFile a) fun p' _ hp' => ?_
    rw [accept, if_pos (hp'.trans hclosed)]
  · rw [Bool.not_eq_true] at hclosed
    have hne : a ≠ "--" := ha.resolve_left (by rw [hclosed]; exact Bool.false_ne_true)
    rcases accept_open hne with ⟨name, value, -, hlong⟩ | ⟨c, rest, -, hshort⟩ | hword
    · exact hsame (.acceptLong name value) fun p' _ hp' => hlong p' (hp'.trans hclosed)
    · exact hsame (.acceptShort c rest) fun p' _ hp' => hshort p' (hp'.trans hclosed)
    · refine hsame (.acceptFile a) fun p' hawaits hp' => ?_
      rw [accept_word (hp'.trans hclosed) hword, acceptWord_of_not_awaits hawaits]

theorem acceptAll_ok_iff (arguments : List String) (hp : ¬ p.Awaits) :
    p.acceptAll arguments = .ok q ↔ ∃ s, p.settle = .ok s ∧ s.acceptAll arguments = .ok q := by
  induction arguments generalizing p with
  | nil => exact Looks.settle p q
  | cons a rest ih =>
    simp only [acceptAll, bind_ok_iff]
    by_cases ha : p.optionsEnded ∨ a ≠ "--"
    · simp only [accept_ok_iff a hp ha]
      constructor
      · rintro ⟨r, ⟨s, hs, hr⟩, hq⟩
        exact ⟨s, hs, r, hr, hq⟩
      · rintro ⟨s, hs, r, hr, hq⟩
        exact ⟨r, ⟨s, hs, hr⟩, hq⟩
    · -- the end of the options looks at nothing, but neither is it in the way of a later look
      obtain ⟨hopen, rfl⟩ : p.optionsEnded = false ∧ a = "--" := by
        simpa [not_or] using ha
      have hend {s : Progress} (hs : p.settle = .ok s) : s.accept "--" = .ok s.endOptions :=
        accept_end ((settle_ok hs).2.1.trans hopen)
      have hrest : p.endOptions.acceptAll rest = .ok q ↔
          ∃ s, p.endOptions.settle = .ok s ∧ s.acceptAll rest = .ok q := ih hp
      rw [settle_endOptions] at hrest
      rw [accept_end hopen]
      constructor
      · rintro ⟨r, ⟨⟩, hq⟩
        obtain ⟨s', hs', hq'⟩ := hrest.1 hq
        cases hs : p.settle with
        | error e =>
          rw [hs] at hs'
          cases hs'
        | ok s =>
          rw [hs] at hs'
          cases hs'
          exact ⟨s, rfl, s.endOptions, hend hs, hq'⟩
      · rintro ⟨s, hs, r, hr, hq⟩
        rw [hend hs] at hr
        cases hr
        exact ⟨_, rfl, hrest.2 ⟨s.endOptions, by rw [hs]; rfl, hq⟩⟩

theorem Looks.not_ok_of_awaits {f : Progress → Except Refusal Progress} (hf : Looks f)
    (hp : p.Awaits) : f p ≠ .ok q := by
  intro h
  obtain ⟨s, hs, -⟩ := (hf p q).1 h
  exact not_settle_of_awaits hp hs

theorem accept_closed (h : p.optionsEnded = true) (a : String) : p.accept a = p.acceptFile a := by
  rw [accept, if_pos h]

theorem acceptAll_not_ok_of_awaits (hp : p.Awaits) (h : p.optionsEnded = true)
    (arguments : List String) : p.acceptAll arguments ≠ .ok q := by
  cases arguments with
  | nil => exact not_settle_of_awaits hp
  | cons a rest =>
    intro hq
    obtain ⟨r, hr, -⟩ := bind_ok_iff.1 hq
    rw [accept_closed h] at hr
    exact (Looks.acceptFile a).not_ok_of_awaits hp hr

theorem isWord_of_awaits {rest : List String} {a : String} (hp : p.Awaits)
    (hopen : p.optionsEnded = false) (h : p.acceptAll (a :: rest) = .ok q) : IsWord a := by
  obtain ⟨r, hr, hrest⟩ := bind_ok_iff.1 h
  by_cases ha : a = "--"
  · subst ha
    rw [accept_end hopen] at hr
    cases hr
    have hend : p.endOptions.Awaits := hp
    exact absurd hrest (acceptAll_not_ok_of_awaits hend rfl rest)
  · rcases accept_open ha with ⟨name, value, -, hlong⟩ | ⟨c, letters, -, hshort⟩ | hword
    · rw [hlong p hopen] at hr
      exact absurd hr ((Looks.acceptLong name value).not_ok_of_awaits hp)
    · rw [hshort p hopen] at hr
      exact absurd hr ((Looks.acceptShort c letters).not_ok_of_awaits hp)
    · exact hword

end Look

section Options

variable {s q : Progress} {o : ValueOption} {v : String} {rest : List String}

theorem accept_attached (hs : s.unsettled = none) (hopen : s.optionsEnded = false) :
    s.accept (o.longName ++ "=" ++ v) = s.setOption v o := by
  have hvalue : String.ofList v.toList = v := String.ofList_toList
  have hsettle := settle_of_unsettled hs
  have hlong : s.accept (o.longName ++ "=" ++ v) =
      s.settle >>= fun p => p.setOption (String.ofList v.toList) o := by
    rw [accept, hopen, if_neg Bool.false_ne_true, String.toList_append, String.toList_append]
    cases o <;> rfl
  rw [hlong, hsettle, hvalue]
  rfl

theorem accept_separate (hs : s.unsettled = none) (hopen : s.optionsEnded = false) :
    s.accept o.longName = .ok { s with unsettled := some (.option o none) } := by
  have hlong : s.accept o.longName =
      s.settle >>= fun p => .ok { p with unsettled := some (.option o none) } := by
    rw [accept, hopen, if_neg Bool.false_ne_true]
    cases o <;> rfl
  rw [hlong, settle_of_unsettled hs]
  rfl

theorem acceptAll_attached (hs : s.unsettled = none) (hopen : s.optionsEnded = false) :
    s.acceptAll ((o.longName ++ "=" ++ v) :: rest) = .ok q ↔
      ∃ s', s.setOption v o = .ok s' ∧ s'.acceptAll rest = .ok q := by
  rw [acceptAll, accept_attached hs hopen, bind_ok_iff]

theorem acceptAll_longName (hs : s.unsettled = none) (hopen : s.optionsEnded = false) :
    s.acceptAll [o.longName] ≠ .ok q := by
  intro h
  obtain ⟨r, hr, hnil⟩ := bind_ok_iff.1 h
  cases (accept_separate hs hopen).symm.trans hr
  exact not_settle_of_awaits ⟨o, rfl⟩ hnil

theorem acceptAll_separate (hs : s.unsettled = none) (hopen : s.optionsEnded = false) :
    s.acceptAll (o.longName :: v :: rest) = .ok q ↔
      IsWord v ∧ ∃ s', s.setOption v o = .ok s' ∧ s'.acceptAll rest = .ok q := by
  let waiting : Progress := { s with unsettled := some (.option o none) }
  let given : Progress := { s with unsettled := some (.option o (some v)) }
  have hname : s.acceptAll (o.longName :: v :: rest) = waiting.acceptAll (v :: rest) := by
    rw [acceptAll, accept_separate hs hopen]
    rfl
  have hgiven : given.settle = s.setOption v o := by
    have hsame : { s with unsettled := none } = s := by
      rw [← hs]
    simp only [given, settle, hsame]
  have hrest : given.acceptAll rest = .ok q ↔
      ∃ s', s.setOption v o = .ok s' ∧ s'.acceptAll rest = .ok q := by
    rw [← hgiven]
    apply acceptAll_ok_iff
    rintro ⟨o', ⟨⟩⟩
  have hwaits : waiting.Awaits := ⟨o, rfl⟩
  have hwaitsOpen : waiting.optionsEnded = false := hopen
  have hword (h : IsWord v) : waiting.acceptAll (v :: rest) = given.acceptAll rest := by
    rw [acceptAll, accept_word hwaitsOpen h]
    rfl
  rw [hname]
  constructor
  · intro h
    have hv := isWord_of_awaits hwaits hwaitsOpen h
    rw [hword hv, hrest] at h
    exact ⟨hv, h⟩
  · rintro ⟨hv, h⟩
    rw [hword hv, hrest]
    exact h

end Options

def withFlags (p : Progress) (regions symbols : Bool) (verbosity : Nat) : Progress :=
  { p with regions := regions, symbols := symbols, verbosity := verbosity }

/-- What an argument is taken as: the end of the options, a value that was waited for, a file,
flags, or an option with its value or without it. -/
inductive Accepted (p : Progress) (a : String) (q : Progress) : Prop
  | ended (ha : a = "--") (hq : q = p.endOptions)
  | value (o : ValueOption) (hp : p.unsettled = some (.option o none))
      (hq : q = { p with unsettled := some (.option o (some a)) })
  | file (s : Progress) (hs : p.settle = .ok s) (hq : q = { s with unsettled := some (.file a) })
  | flags (s : Progress) (hs : p.settle = .ok s) (regions symbols : Bool) (verbosity : Nat)
      (hq : q = s.withFlags regions symbols verbosity)
  | attached (s : Progress) (hs : p.settle = .ok s) (o : ValueOption) (v : String)
      (ha : a = o.longName ++ "=" ++ v) (hq : s.setOption v o = .ok q)
  | separate (s : Progress) (hs : p.settle = .ok s) (o : ValueOption) (ha : a = o.longName)
      (hq : q = { s with unsettled := some (.option o none) })

section Inversion

variable {p q : Progress}

theorem acceptFlag_ok {f : Flag} (h : p.acceptFlag f = .ok q) :
    ∃ s, p.settle = .ok s ∧ ∃ regions symbols verbosity,
      q = s.withFlags regions symbols verbosity := by
  obtain ⟨s, hs, hset⟩ := bind_ok_iff.1 h
  obtain ⟨-, rfl⟩ := setFlag_ok_iff.1 hset
  refine ⟨s, hs, (f.give s).regions, (f.give s).symbols, (f.give s).verbosity, ?_⟩
  cases f <;> rfl

theorem acceptShort_cons_ok {c : Char} {rest : List Char}
    (h : p.acceptShort (c :: rest) = .ok q) :
    ∃ f r, p.acceptFlag f = .ok r ∧ r.acceptShort rest = .ok q := by
  rw [acceptShort] at h
  split at h
  next => cases h
  next f _ =>
    obtain ⟨r, hr, hq⟩ := bind_ok_iff.1 h
    exact ⟨f, r, hr, hq⟩

theorem acceptShort_ok {c : Char} {rest : List Char} (h : p.acceptShort (c :: rest) = .ok q) :
    ∃ s, p.settle = .ok s ∧ ∃ regions symbols verbosity,
      q = s.withFlags regions symbols verbosity := by
  induction rest generalizing p c with
  | nil =>
    obtain ⟨f, r, hr, hq⟩ := acceptShort_cons_ok h
    cases hq
    exact acceptFlag_ok hr
  | cons d rest ih =>
    obtain ⟨f, r, hr, hq⟩ := acceptShort_cons_ok h
    obtain ⟨s, hs, regions, symbols, verbosity, rfl⟩ := acceptFlag_ok hr
    obtain ⟨s', hs', regions', symbols', verbosity', rfl⟩ := ih hq
    have hsettled : (s.withFlags regions symbols verbosity).unsettled = none := (settle_ok hs).1
    rw [settle_of_unsettled hsettled] at hs'
    cases hs'
    exact ⟨s, hs, regions', symbols', verbosity', rfl⟩

def LongName.text : LongName → String
  | option o => o.longName
  | flag f => f.longName

theorem longName?_text {name : List Char} {long : LongName} (h : longName? name = some long) :
    '-' :: '-' :: name = long.text.toList := by
  unfold longName? at h
  split at h <;> cases h <;> rfl

theorem longText_option {name : List Char} {o : ValueOption} (v : String)
    (h : longName? name = some (.option o)) :
    longText name (some v) = (o.longName ++ "=" ++ v).toList := by
  rw [longText, longName?_text h, String.toList_append, String.toList_append, List.append_assoc]
  rfl

theorem acceptLong_ok {a : String} {name : List Char} {value : Option String}
    (ha : a.toList = longText name value) (h : p.acceptLong name value = .ok q) :
    Accepted p a q := by
  unfold acceptLong at h
  split at h
  next => cases h
  next => cases h
  next f _ =>
    obtain ⟨s, hs, regions, symbols, verbosity, hq⟩ := acceptFlag_ok h
    exact .flags s hs regions symbols verbosity hq
  next o v ho =>
    obtain ⟨s, hs, hq⟩ := bind_ok_iff.1 h
    exact .attached s hs o v (String.toList_inj.1 (ha.trans (longText_option v ho))) hq
  next o ho =>
    obtain ⟨s, hs, hq⟩ := bind_ok_iff.1 h
    cases hq
    exact .separate s hs o (String.toList_inj.1 (ha.trans (longName?_text ho))) rfl

theorem acceptFile_ok {a : String} (h : p.acceptFile a = .ok q) : Accepted p a q := by
  obtain ⟨-, s, hs, hq⟩ := acceptFile_ok_iff.1 h
  exact .file s hs hq

theorem acceptWord_ok {a : String} (h : p.acceptWord a = .ok q) : Accepted p a q := by
  rw [acceptWord] at h
  split at h
  next o ho =>
    cases h
    exact .value o ho rfl
  next => exact acceptFile_ok h

theorem accepted_of_accept {a : String} (h : p.accept a = .ok q) : Accepted p a q := by
  cases hended : p.optionsEnded with
  | true =>
    rw [accept_closed hended] at h
    exact acceptFile_ok h
  | false =>
    by_cases ha : a = "--"
    · subst ha
      rw [accept_end hended] at h
      cases h
      exact .ended rfl rfl
    · rcases accept_open ha with ⟨name, value, htext, hlong⟩ | ⟨c, rest, -, hshort⟩ | hword
      · rw [hlong p hended] at h
        exact acceptLong_ok htext h
      · rw [hshort p hended] at h
        obtain ⟨s, hs, regions, symbols, verbosity, hq⟩ := acceptShort_ok h
        exact .flags s hs regions symbols verbosity hq
      · rw [accept_word hended hword] at h
        exact acceptWord_ok h

theorem setOption_rest {o : ValueOption} {v : String} (h : p.setOption v o = .ok q) :
    q.unsettled = p.unsettled ∧ q.optionsEnded = p.optionsEnded := by
  obtain ⟨-, n, -, rfl⟩ := setOption_ok_iff.1 h
  cases o <;> exact ⟨rfl, rfl⟩

theorem accept_optionsEnded {a : String} (h : p.accept a = .ok q) (ha : a ≠ "--") :
    q.optionsEnded = p.optionsEnded := by
  cases accepted_of_accept h with
  | ended hend => exact absurd hend ha
  | value o hp hq => rw [hq]
  | file s hs hq => rw [hq, ← (settle_ok hs).2.1]
  | flags s hs regions symbols verbosity hq => rw [hq, ← (settle_ok hs).2.1, withFlags]
  | attached s hs o v ha hq => rw [(setOption_rest hq).2, (settle_ok hs).2.1]
  | separate s hs o ha hq => rw [hq, ← (settle_ok hs).2.1]

theorem not_awaits_accept {a : String} (h : p.accept a = .ok q) (hp : ¬ p.Awaits)
    (ha : ∀ o : ValueOption, a ≠ o.longName) : ¬ q.Awaits := by
  cases accepted_of_accept h with
  | ended hend hq =>
    rw [hq]
    exact hp
  | value o hwaits => exact absurd ⟨o, hwaits⟩ hp
  | file s hs hq =>
    rw [hq]
    exact not_awaits_of_file rfl
  | flags s hs regions symbols verbosity hq =>
    rw [hq]
    exact not_awaits_of_unsettled (settle_ok hs).1
  | attached s hs o v ha hq =>
    exact not_awaits_of_unsettled ((setOption_rest hq).1.trans (settle_ok hs).1)
  | separate s hs o hname => exact absurd hname (ha o)

end Inversion

end Progress

end SharedArchive.Command
