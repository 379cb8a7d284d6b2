import Mathlib
import SharedArchive.Proofs.Arguments
import SharedArchive.Proofs.Numerals

/-!
Command lines with another magic. What the arguments make of everything but the magic does not
depend on the magic, so a line in which the value of the magic option is replaced, or to which the
option is added where it was not given, asks for the same as before but for the magic. Such a line
there always is.
-/

namespace SharedArchive.Command

namespace Progress

def withMagic (m : UInt32) (p : Progress) : Progress := { p with magic := some m }

def Carries (f : Progress → Except Refusal Progress) : Prop :=
  ∀ p q, f p = .ok q → (p.magic = none ∨ q.magic = p.magic) ∧
    (q.magic = p.magic → ∀ m, f (p.withMagic m) = .ok (q.withMagic m))

namespace Carries

theorem bind {f g : Progress → Except Refusal Progress} (hf : Carries f) (hg : Carries g) :
    Carries fun p => f p >>= g := by
  intro p q h
  obtain ⟨r, hr, hq⟩ := bind_ok_iff.1 h
  obtain ⟨hkeep, hcarry⟩ := hf p r hr
  obtain ⟨hkeep', hcarry'⟩ := hg r q hq
  constructor
  · rcases hkeep with hnone | hsame
    · exact Or.inl hnone
    · rw [hsame] at hkeep'
      exact hkeep'
  · intro hpq m
    have hpr : r.magic = p.magic := by
      rcases hkeep with hnone | hsame
      · rcases hkeep' with hnone' | hsame'
        · rw [hnone, hnone']
        · rw [← hsame', hpq]
      · exact hsame
    exact bind_ok_iff.2 ⟨_, hcarry hpr m, hcarry' (hpq.trans hpr.symm) m⟩

theorem refuse (e : Refusal) : Carries fun _ => .error e := by
  rintro p q ⟨⟩

theorem setFlag (f : Flag) : Carries (·.setFlag f) := by
  intro p q h
  obtain ⟨hfree, rfl⟩ := setFlag_ok_iff.1 h
  refine ⟨Or.inr (by cases f <;> rfl), fun _ m => setFlag_ok_iff.2 ⟨?_, ?_⟩⟩
  · cases f <;> exact hfree
  · cases f <;> rfl

theorem setOption (v : String) (o : ValueOption) : Carries (·.setOption v o) := by
  intro p q h
  obtain ⟨hfree, n, hn, rfl⟩ := setOption_ok_iff.1 h
  cases o with
  | magic =>
    have hnone : p.magic = none := Option.isSome_eq_false_iff.1 hfree |> Option.isNone_iff_eq_none.1
    refine ⟨Or.inl hnone, fun hsame => ?_⟩
    rw [hnone] at hsame
    cases hsame
  | pattern => exact ⟨Or.inr rfl, fun _ m => setOption_ok_iff.2 ⟨hfree, n, hn, rfl⟩⟩

theorem settle : Carries Progress.settle := by
  intro p q h
  obtain ⟨file, magic, regions, symbols, pattern, verbosity, unsettled, ended⟩ := p
  match unsettled with
  | none =>
    cases h
    exact ⟨Or.inr rfl, fun _ _ => rfl⟩
  | some (.file path) =>
    simp only [Progress.settle] at h
    split_ifs at h with hempty
    cases h
    refine ⟨Or.inr rfl, fun _ m => ?_⟩
    simp only [Progress.settle, withMagic, if_neg hempty]
  | some (.option o none) => cases h
  | some (.option o (some v)) => exact setOption v o _ q h

theorem acceptFlag (f : Flag) : Carries (·.acceptFlag f) := settle.bind (setFlag f)

theorem hold (u : Unsettled) :
    Carries fun p => .ok { p with unsettled := some u } := by
  rintro p q ⟨⟩
  exact ⟨Or.inr rfl, fun _ _ => rfl⟩

theorem acceptFile (path : String) : Carries (·.acceptFile path) := by
  intro p q h
  obtain ⟨hfile, s, hs, rfl⟩ := acceptFile_ok_iff.1 h
  obtain ⟨hkeep, hcarry⟩ := settle p s hs
  exact ⟨hkeep, fun hsame m => acceptFile_ok_iff.2 ⟨hfile, _, hcarry hsame m, rfl⟩⟩

theorem acceptWord (text : String) : Carries (·.acceptWord text) := by
  intro p q h
  by_cases hp : p.Awaits
  · obtain ⟨o, ho⟩ := hp
    have hvalue (p' : Progress) (ho' : p'.unsettled = some (.option o none)) :
        p'.acceptWord text = .ok { p' with unsettled := some (.option o (some text)) } := by
      rw [Progress.acceptWord, ho']
    simp only [hvalue p ho] at h
    cases h
    exact ⟨Or.inr rfl, fun _ m => hvalue (p.withMagic m) ho⟩
  · simp only [acceptWord_of_not_awaits hp] at h
    obtain ⟨hkeep, hcarry⟩ := acceptFile text p q h
    refine ⟨hkeep, fun hsame m => ?_⟩
    have hp' : ¬ (p.withMagic m).Awaits := hp
    exact (acceptWord_of_not_awaits hp' text).trans (hcarry hsame m)

theorem acceptShort (cs : List Char) : Carries (·.acceptShort cs) := by
  induction cs with
  | nil =>
    rintro p q ⟨⟩
    exact ⟨Or.inr rfl, fun _ _ => rfl⟩
  | cons c rest ih =>
    simp only [Progress.acceptShort]
    cases shortFlag? c with
    | none => exact refuse _
    | some f => exact (acceptFlag f).bind ih

theorem acceptLong (name : List Char) (value : Option String) :
    Carries (·.acceptLong name value) := by
  unfold Progress.acceptLong
  cases longName? name with
  | none => exact refuse _
  | some long =>
    cases long with
    | flag f =>
      cases value with
      | none => exact acceptFlag f
      | some v => exact refuse _
    | option o =>
      cases value with
      | none => exact settle.bind (hold _)
      | some v => exact settle.bind (setOption v o)

theorem accept (a : String) : Carries (·.accept a) := by
  intro p q h
  have hsame {f : Progress → Except Refusal Progress} (hf : Carries f)
      (haccept : ∀ p' : Progress, p'.optionsEnded = p.optionsEnded → p'.accept a = f p') :
      (p.magic = none ∨ q.magic = p.magic) ∧
        (q.magic = p.magic → ∀ m, (p.withMagic m).accept a = .ok (q.withMagic m)) := by
    obtain ⟨hkeep, hcarry⟩ := hf p q ((haccept p rfl).symm.trans h)
    exact ⟨hkeep, fun hpq m => (haccept (p.withMagic m) rfl).trans (hcarry hpq m)⟩
  cases hended : p.optionsEnded with
  | true => exact hsame (acceptFile a) fun p' hp' => accept_closed (hp'.trans hended) a
  | false =>
    by_cases ha : a = "--"
    · subst ha
      refine hsame (f := fun p' => .ok p'.endOptions) ?_ fun p' hp' =>
        accept_end (hp'.trans hended)
      rintro r s ⟨⟩
      exact ⟨Or.inr rfl, fun _ _ => rfl⟩
    · rcases accept_open ha with ⟨name, value, -, hlong⟩ | ⟨c, rest, -, hshort⟩ | hword
      · exact hsame (acceptLong name value) fun p' hp' => hlong p' (hp'.trans hended)
      · exact hsame (acceptShort (c :: rest)) fun p' hp' => hshort p' (hp'.trans hended)
      · exact hsame (acceptWord a) fun p' hp' => accept_word (hp'.trans hended) hword

theorem acceptAll (arguments : List String) : Carries (·.acceptAll arguments) := by
  induction arguments with
  | nil => exact settle
  | cons a rest ih => exact (accept a).bind ih

end Carries

end Progress

/-- The line with another value of the magic option in place of the one it has. -/
inductive Replaces (value : String) : List String → List String → Prop
  | attached (old : String) (rest : List String) :
      Replaces value (("--magic=" ++ old) :: rest) (("--magic=" ++ value) :: rest)
  | separate (old : String) (rest : List String) :
      Replaces value ("--magic" :: old :: rest) ("--magic" :: value :: rest)
  | later (a : String) {line line' : List String} (ha : a ≠ "--") (h : Replaces value line line') :
      Replaces value (a :: line) (a :: line')

/-- The line with a magic option added among its options, in one argument or in two, but not between
another option and its value. -/
inductive Adds (value : String) : List String → List String → Prop
  | attached (rest : List String) : Adds value rest (("--magic=" ++ value) :: rest)
  | separate (rest : List String) : Adds value rest ("--magic" :: value :: rest)
  | later (a : String) {line line' : List String} (ha : a ≠ "--")
      (hname : ∀ o : ValueOption, a ≠ o.longName) (h : Adds value line line') :
      Adds value (a :: line) (a :: line')
  | option (o : ValueOption) (text : String) {line line' : List String}
      (h : Adds value line line') :
      Adds value (o.longName :: text :: line) (o.longName :: text :: line')

/-- The second line is the first one, which makes the request, with its magic set to the value. -/
def GivesMagic (r : Request) (value : String) (line line' : List String) : Prop :=
  if r.magic.isSome then Replaces value line line' else Adds value line line'

namespace Progress

section Change

variable {p s s' q q' : Progress} {old value : String} {n : Nat} {rest : List String}

theorem setMagic_ok_iff (hfree : ValueOption.isGiven s .magic = false)
    (hrest : ∀ m, (s.withMagic m).acceptAll rest = .ok (q.withMagic m)) :
    (∃ t, s.setOption value .magic = .ok t ∧ t.acceptAll rest = .ok q') ↔
      ∃ n, Text.Hex.read UInt32.size value = .ok n ∧ q' = q.withMagic (UInt32.ofNat n) := by
  constructor
  · rintro ⟨t, ht, hq'⟩
    obtain ⟨-, n, hn, rfl⟩ := setOption_ok_iff.1 ht
    exact ⟨n, hn, Except.ok.inj (hq'.symm.trans (hrest _))⟩
  · rintro ⟨n, hn, rfl⟩
    exact ⟨_, setOption_ok_iff.2 ⟨hfree, n, hn, rfl⟩, hrest _⟩

theorem setMagic_again (hset : s.setOption old .magic = .ok s')
    (hrest : s'.acceptAll rest = .ok q) :
    (∃ t, s.setOption value .magic = .ok t ∧ t.acceptAll rest = .ok q') ↔
      ∃ n, Text.Hex.read UInt32.size value = .ok n ∧ q' = q.withMagic (UInt32.ofNat n) := by
  obtain ⟨hfree, n', -, rfl⟩ := setOption_ok_iff.1 hset
  obtain ⟨hkeep, hcarry⟩ := Carries.acceptAll rest _ _ hrest
  have hsame : q.magic = (ValueOption.give s n' .magic).magic := by
    rcases hkeep with hnone | hsame
    · cases hnone
    · exact hsame
  exact setMagic_ok_iff hfree (hcarry hsame)

theorem setMagic_first (hnone : q.magic = none) (hrest : s.acceptAll rest = .ok q) :
    (∃ t, s.setOption value .magic = .ok t ∧ t.acceptAll rest = .ok q') ↔
      ∃ n, Text.Hex.read UInt32.size value = .ok n ∧ q' = q.withMagic (UInt32.ofNat n) := by
  obtain ⟨hkeep, hcarry⟩ := Carries.acceptAll rest _ _ hrest
  have hs : s.magic = none := by
    rcases hkeep with hs | hsame
    · exact hs
    · rw [← hsame, hnone]
  have hfree : ValueOption.isGiven s .magic = false := by
    rw [ValueOption.isGiven, hs]
    rfl
  exact setMagic_ok_iff hfree (hcarry (hnone.trans hs.symm))

theorem isWord_of_read {limit : Nat} (hlimit : 0 < limit)
    (hvalue : Text.Hex.read limit value = .ok n) : IsWord value := by
  obtain ⟨-, mark, sign, cs, hmark, hsign, -, htext, hspells⟩ :=
    (Text.Hex.read_ok_iff hlimit).1 hvalue
  intro c rest h
  rw [htext] at h
  simp only [List.mem_cons, List.not_mem_nil, or_false] at hmark hsign
  rcases hmark with rfl | rfl | rfl
  · rcases hsign with rfl | rfl
    · rw [show cs = '-' :: c :: rest from h] at hspells
      exact Text.Hex.not_spells_cons (by decide) hspells
    · exact absurd (List.cons.inj h).1 (by decide)
  · exact absurd (List.cons.inj h).1 (by decide)
  · exact absurd (List.cons.inj h).1 (by decide)

theorem magic_attached (v : String) : "--magic=" ++ v = ValueOption.magic.longName ++ "=" ++ v := by
  rw [show "--magic=" = ValueOption.magic.longName ++ "=" by decide]

theorem not_isWord_attached (o : ValueOption) (v : String) : ¬ IsWord (o.longName ++ "=" ++ v) := by
  intro h
  rw [IsWord, String.toList_append, String.toList_append] at h
  cases o <;> exact h _ _ rfl

theorem not_isWord_longName (o : ValueOption) : ¬ IsWord o.longName := by
  intro h
  cases o <;> exact h _ _ rfl

theorem not_awaits_of_not_isWord {a : String} (ha : ¬ IsWord a) (hopen : p.optionsEnded = false)
    (h : p.acceptAll (a :: rest) = .ok q) : ¬ p.Awaits :=
  fun hp => ha (isWord_of_awaits hp hopen h)

theorem exists_settled {line : List String} (hp : ¬ p.Awaits) (hopen : p.optionsEnded = false)
    (hq : p.acceptAll line = .ok q) :
    ∃ s : Progress, s.unsettled = none ∧ s.optionsEnded = false ∧
      ∀ line q, p.acceptAll line = .ok q ↔ s.acceptAll line = .ok q := by
  obtain ⟨s, hs, -⟩ := (acceptAll_ok_iff line hp).1 hq
  obtain ⟨hsettled, hended, -⟩ := settle_ok hs
  refine ⟨s, hsettled, hended.trans hopen, fun line q => ?_⟩
  rw [acceptAll_ok_iff line hp, hs]
  simp only [Except.ok.injEq, exists_eq_left']

theorem acceptAll_cons_of_accept {a : String} {line : List String} (hr : p.accept a = .ok s) :
    p.acceptAll (a :: line) = s.acceptAll line := by
  rw [acceptAll, hr]
  rfl

theorem acceptAll_magic_separate (hs : s.unsettled = none) (hopen : s.optionsEnded = false) :
    s.acceptAll ("--magic" :: value :: rest) = .ok q' ↔
      ∃ t, s.setOption value .magic = .ok t ∧ t.acceptAll rest = .ok q' := by
  refine (acceptAll_separate (o := .magic) hs hopen).trans (and_iff_right_of_imp ?_)
  rintro ⟨t, ht, -⟩
  obtain ⟨-, n, hn, -⟩ := setOption_ok_iff.1 ht
  exact isWord_of_read (by decide) hn

theorem acceptAll_replaced {line line' : List String} (h : Replaces value line line')
    (hopen : p.optionsEnded = false) (hq : p.acceptAll line = .ok q) :
    p.acceptAll line' = .ok q' ↔
      ∃ n, Text.Hex.read UInt32.size value = .ok n ∧ q' = q.withMagic (UInt32.ofNat n) := by
  induction h generalizing p with
  | attached old rest =>
    rw [magic_attached] at hq ⊢
    have hp := not_awaits_of_not_isWord (not_isWord_attached _ _) hopen hq
    obtain ⟨s, hsettled, hsopen, hsame⟩ := exists_settled hp hopen hq
    rw [hsame, acceptAll_attached hsettled hsopen] at hq ⊢
    obtain ⟨s', hset, hrest⟩ := hq
    exact setMagic_again hset hrest
  | separate old rest =>
    have hp := not_awaits_of_not_isWord (not_isWord_longName .magic) hopen hq
    obtain ⟨s, hsettled, hsopen, hsame⟩ := exists_settled hp hopen hq
    rw [hsame, acceptAll_magic_separate hsettled hsopen] at hq ⊢
    obtain ⟨s', hset, hrest⟩ := hq
    exact setMagic_again hset hrest
  | later a ha _ ih =>
    obtain ⟨r, hr, hrest⟩ := bind_ok_iff.1 hq
    rw [acceptAll_cons_of_accept hr]
    exact ih ((accept_optionsEnded hr ha).trans hopen) hrest

theorem acceptAll_added {line line' : List String} (h : Adds value line line')
    (hopen : p.optionsEnded = false) (hp : ¬ p.Awaits) (hnone : q.magic = none)
    (hq : p.acceptAll line = .ok q) :
    p.acceptAll line' = .ok q' ↔
      ∃ n, Text.Hex.read UInt32.size value = .ok n ∧ q' = q.withMagic (UInt32.ofNat n) := by
  induction h generalizing p with
  | attached rest =>
    obtain ⟨s, hsettled, hsopen, hsame⟩ := exists_settled hp hopen hq
    rw [hsame] at hq
    rw [magic_attached, hsame, acceptAll_attached hsettled hsopen]
    exact setMagic_first hnone hq
  | separate rest =>
    obtain ⟨s, hsettled, hsopen, hsame⟩ := exists_settled hp hopen hq
    rw [hsame] at hq
    rw [hsame, acceptAll_magic_separate hsettled hsopen]
    exact setMagic_first hnone hq
  | later a ha hname _ ih =>
    obtain ⟨r, hr, hrest⟩ := bind_ok_iff.1 hq
    rw [acceptAll_cons_of_accept hr]
    exact ih ((accept_optionsEnded hr ha).trans hopen) (not_awaits_accept hr hp hname) hrest
  | option o text _ ih =>
    obtain ⟨s, hsettled, hsopen, hsame⟩ := exists_settled hp hopen hq
    rw [hsame, acceptAll_separate hsettled hsopen] at hq ⊢
    obtain ⟨hword, s', hset, hrest⟩ := hq
    obtain ⟨hunsettled, hended⟩ := setOption_rest hset
    have hfree : ¬ s'.Awaits := not_awaits_of_unsettled (hunsettled.trans hsettled)
    rw [hset, and_iff_right hword]
    simp only [Except.ok.injEq, exists_eq_left']
    exact ih (hended.trans hsopen) hfree hrest

end Change

def NoMagic (p : Progress) : Prop :=
  p.magic = none ∧ ∀ v, p.unsettled ≠ some (.option .magic v)

theorem NoMagic.of_settled {p : Progress} (hmagic : p.magic = none)
    (hsettled : p.unsettled = none) : p.NoMagic := by
  refine ⟨hmagic, fun v h => ?_⟩
  rw [hsettled] at h
  cases h

theorem NoMagic.settle {p s : Progress} (hp : p.NoMagic) (hs : p.settle = .ok s) : s.NoMagic := by
  obtain ⟨hmagic, hunsettled⟩ := hp
  refine .of_settled ?_ (settle_ok hs).1
  rw [Progress.settle] at hs
  split at hs
  next => cases hs; exact hmagic
  next =>
    split at hs
    · cases hs
    · cases hs
      exact hmagic
  next => cases hs
  next o v ho =>
    obtain ⟨-, n, -, rfl⟩ := setOption_ok_iff.1 hs
    cases o with
    | magic => exact absurd ho (hunsettled _)
    | pattern => exact hmagic

theorem NoMagic.accept {p q : Progress} {a : String} (hp : p.NoMagic) (h : p.accept a = .ok q)
    (hname : a ≠ "--magic") (hattached : ∀ old, a ≠ "--magic=" ++ old) : q.NoMagic := by
  cases accepted_of_accept h with
  | ended _ hq =>
    rw [hq]
    exact hp
  | value o ho hq =>
    rw [hq]
    refine ⟨hp.1, ?_⟩
    rintro v ⟨⟩
    exact hp.2 _ ho
  | file s hs hq =>
    rw [hq]
    refine ⟨(hp.settle hs).1, ?_⟩
    rintro v ⟨⟩
  | flags s hs regions symbols verbosity hq =>
    have hsettled : s.NoMagic := hp.settle hs
    rw [hq]
    exact hsettled
  | attached s hs o v ha hq =>
    cases o with
    | magic => exact absurd (ha.trans (magic_attached v).symm) (hattached v)
    | pattern =>
      have hsettled : s.NoMagic := hp.settle hs
      obtain ⟨-, n, -, rfl⟩ := setOption_ok_iff.1 hq
      exact hsettled
  | separate s hs o ha hq =>
    cases o with
    | magic => exact absurd ha hname
    | pattern =>
      rw [hq]
      refine ⟨(hp.settle hs).1, ?_⟩
      rintro v ⟨⟩

theorem NoMagic.acceptAll_closed {p q : Progress} {arguments : List String} (hp : p.NoMagic)
    (hclosed : p.optionsEnded = true) (h : p.acceptAll arguments = .ok q) : q.NoMagic := by
  induction arguments generalizing p with
  | nil => exact hp.settle h
  | cons a rest ih =>
    obtain ⟨r, hr, hrest⟩ := bind_ok_iff.1 h
    rw [accept_closed hclosed] at hr
    obtain ⟨-, s, hs, hrs⟩ := acceptFile_ok_iff.1 hr
    have hkept : r.NoMagic := by
      rw [hrs]
      refine ⟨(hp.settle hs).1, ?_⟩
      rintro v ⟨⟩
    have hrclosed : r.optionsEnded = true := by
      rw [hrs, ← hclosed, ← (settle_ok hs).2.1]
    exact ih hkept hrclosed hrest

theorem exists_replaced {p q : Progress} {line : List String} (hp : p.NoMagic)
    (hopen : p.optionsEnded = false) (h : p.acceptAll line = .ok q) (hmagic : q.magic ≠ none)
    (value : String) : ∃ line', Replaces value line line' := by
  induction line generalizing p with
  | nil => exact absurd (hp.settle h).1 hmagic
  | cons a rest ih =>
    obtain ⟨r, hr, hrest⟩ := bind_ok_iff.1 h
    by_cases hattached : ∃ old, a = "--magic=" ++ old
    · obtain ⟨old, rfl⟩ := hattached
      exact ⟨_, .attached old rest⟩
    · by_cases hname : a = "--magic"
      · subst hname
        cases rest with
        | nil =>
          have hfree := not_awaits_of_not_isWord (not_isWord_longName .magic) hopen h
          obtain ⟨s, hsettled, hsopen, hsame⟩ := exists_settled hfree hopen h
          exact absurd ((hsame _ _).1 h) (acceptAll_longName (o := .magic) hsettled hsopen)
        | cons old rest => exact ⟨_, .separate old rest⟩
      · by_cases hend : a = "--"
        · subst hend
          rw [accept_end hopen] at hr
          cases hr
          have hclosed : p.endOptions.NoMagic := hp
          exact absurd (hclosed.acceptAll_closed rfl hrest).1 hmagic
        · obtain ⟨line', hline⟩ := ih
            (hp.accept hr hname fun old ha => hattached ⟨old, ha⟩)
            ((accept_optionsEnded hr hend).trans hopen) hrest
          exact ⟨_, .later a hend hline⟩

end Progress

section Requests

variable {r : Request} {line line' : List String} {value : String} {n : Nat}

theorem ofProgress_withMagic {q : Progress} (h : Request.ofProgress q = .ok r) :
    r.magic = q.magic ∧
      ∀ m, Request.ofProgress (q.withMagic m) = .ok { r with magic := some m } := by
  obtain ⟨file, magic, regions, symbols, pattern, verbosity, unsettled, ended⟩ := q
  cases file with
  | none => cases h
  | some path =>
    simp only [Request.ofProgress] at h
    split_ifs at h with hneeds
    cases h
    refine ⟨rfl, fun m => ?_⟩
    exact if_neg hneeds

/-- With another magic, the line is accepted if that magic is a number, and then it asks for the
same but with that number. -/
theorem ofArguments_givesMagic (hr : Request.ofArguments line = .ok r)
    (h : GivesMagic r value line line') {r' : Request} :
    Request.ofArguments line' = .ok r' ↔
      ∃ n, Text.Hex.read UInt32.size value = .ok n ∧
        r' = { r with magic := some (UInt32.ofNat n) } := by
  obtain ⟨q, hq, hrequest⟩ := bind_ok_iff.1 hr
  obtain ⟨hmagic, hwith⟩ := ofProgress_withMagic hrequest
  have hline (q' : Progress) : Progress.acceptAll {} line' = .ok q' ↔
      ∃ n, Text.Hex.read UInt32.size value = .ok n ∧ q' = q.withMagic (UInt32.ofNat n) := by
    rw [GivesMagic] at h
    split_ifs at h with hgiven
    · exact Progress.acceptAll_replaced h rfl hq
    · have hnone : q.magic = none := by
        rw [← hmagic]
        exact Option.not_isSome_iff_eq_none.1 hgiven
      exact Progress.acceptAll_added h rfl (Progress.not_awaits_of_unsettled rfl) hnone hq
  rw [Request.ofArguments, bind_ok_iff]
  constructor
  · rintro ⟨q', hq', hr'⟩
    obtain ⟨n, hn, rfl⟩ := (hline q').1 hq'
    exact ⟨n, hn, Except.ok.inj (hr'.symm.trans (hwith _))⟩
  · rintro ⟨n, hn, rfl⟩
    exact ⟨_, (hline _).2 ⟨n, hn, rfl⟩, hwith _⟩

theorem exists_givesMagic (hr : Request.ofArguments line = .ok r) (value : String) :
    ∃ line', GivesMagic r value line line' := by
  obtain ⟨q, hq, hrequest⟩ := bind_ok_iff.1 hr
  obtain ⟨hmagic, -⟩ := ofProgress_withMagic hrequest
  simp only [GivesMagic]
  split_ifs with hgiven
  · refine Progress.exists_replaced (.of_settled rfl rfl) rfl hq ?_ value
    rw [← hmagic]
    exact Option.isSome_iff_ne_none.1 hgiven
  · exact ⟨_, .attached line⟩

end Requests

end SharedArchive.Command
