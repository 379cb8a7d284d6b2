import Mathlib
import SharedArchive.Proofs.Arguments
import SharedArchive.Proofs.Numerals

/-!
The values of options. A text is read as the number it denotes, if that is below the option's
limit. Any other text is refused, and why is told by its first character that spoils it: all
characters before that one are digits of a number below the limit, and it is no digit, or it is the
digit that makes the number too large. A number written in any of the usual ways reads as itself.
-/

namespace SharedArchive.Text.Hex

section Words

variable {limit m n : Nat} {cs rest : List Char} {text : String} {fault : Fault}

def marks : List (List Char) := [['0', 'x'], ['0', 'X']]

def IsDigit (c : Char) : Prop := '0' ≤ c ∧ c ≤ '9' ∨ 'a' ≤ c ∧ c ≤ 'f' ∨ 'A' ≤ c ∧ c ≤ 'F'

/-- `rest` is the text without the mark it begins with, if it begins with one. -/
inductive Unmarked (text rest : List Char) : Prop
  | marked (mark : List Char) (hm : mark ∈ marks) (h : text = mark ++ rest)
  | plain (hm : ∀ mark ∈ marks, ¬ mark <+: text) (h : text = rest)

inductive Unsigned (rest cs : List Char) : Prop
  | signed (h : rest = '+' :: cs)
  | plain (hp : rest.head? ≠ some '+') (h : rest = cs)

/-- Why a text that has lost its mark is no numeral of a number below the limit. -/
inductive Refused (limit : Nat) (rest : List Char) : Fault → Prop
  | empty (h : rest = []) : Refused limit rest .empty
  | sign (h : rest ∈ [['+'], ['-']]) : Refused limit rest .invalidDigit
  | invalidDigit (before : List Char) (c : Char) (after : List Char) (m : Nat)
      (h : Unsigned rest (before ++ c :: after)) (hm : Spells before m) (hlt : m < limit)
      (hc : ¬ IsDigit c) : Refused limit rest .invalidDigit
  | tooLarge (before : List Char) (c : Char) (after : List Char) (m n : Nat)
      (h : Unsigned rest (before ++ c :: after)) (hm : Spells before m) (hlt : m < limit)
      (hn : Spells (before ++ [c]) n) (hle : limit ≤ n) : Refused limit rest .tooLarge

theorem le_iff_toNat_le {c d : Char} : c ≤ d ↔ c.toNat ≤ d.toNat := by
  rw [Char.le_def, UInt32.le_iff_toNat_le]
  rfl

theorem digit?_eq_none_iff {c : Char} : digit? c = none ↔ ¬ IsDigit c := by
  have hdigit : IsDigit c ↔ 0x30 ≤ c.toNat ∧ c.toNat ≤ 0x39 ∨ 0x61 ≤ c.toNat ∧ c.toNat ≤ 0x66 ∨
      0x41 ≤ c.toNat ∧ c.toNat ≤ 0x46 := by
    simp only [IsDigit, le_iff_toNat_le]
    rfl
  rw [hdigit, digit?]
  split_ifs <;> simp <;> omega

theorem stripMark_unmarked (text : List Char) : Unmarked text (stripMark text) := by
  unfold stripMark
  split
  next rest => exact .marked ['0', 'x'] (by decide) rfl
  next rest => exact .marked ['0', 'X'] (by decide) rfl
  next hlower hupper =>
    refine .plain ?_ rfl
    intro mark hm hbegins
    obtain ⟨rest, hrest⟩ := hbegins
    simp only [marks, List.mem_cons, List.not_mem_nil, or_false] at hm
    rcases hm with hm | hm
    · subst hm
      exact hlower rest hrest.symm
    · subst hm
      exact hupper rest hrest.symm

theorem Unmarked.unique {text rest rest' : List Char} (h : Unmarked text rest)
    (h' : Unmarked text rest') : rest = rest' := by
  cases h with
  | marked mark hm h =>
    cases h' with
    | marked mark' hm' h' =>
      have hlength : ∀ w ∈ marks, w.length = 2 := by decide
      exact List.append_inj_right (h.symm.trans h')
        ((hlength mark hm).trans (hlength mark' hm').symm)
    | plain hm' h' => exact absurd ⟨rest, h.symm⟩ (hm' mark hm)
  | plain hm h =>
    cases h' with
    | marked mark' hm' h' => exact absurd ⟨rest', h'.symm⟩ (hm mark' hm')
    | plain hm' h' => exact h.symm.trans h'

theorem unmarked_iff {text rest : List Char} : Unmarked text rest ↔ rest = stripMark text := by
  constructor
  · intro h
    exact h.unique (stripMark_unmarked text)
  · intro h
    subst h
    exact stripMark_unmarked text

end Words

section Refusals

variable {limit total m n : Nat} {before cs rest : List Char} {c : Char} {text : String}
  {fault : Fault}

theorem Spells.unique (hm : Spells cs m) (hn : Spells cs n) : m = n := by
  have hlt : 0 < max m n + 1 := Nat.succ_pos _
  have hread : accumulate (max m n + 1) 0 cs = .ok m :=
    (accumulate_zero_ok_iff hlt).2 ⟨Nat.lt_succ_of_le (Nat.le_max_left m n), hm⟩
  have hread' : accumulate (max m n + 1) 0 cs = .ok n :=
    (accumulate_zero_ok_iff hlt).2 ⟨Nat.lt_succ_of_le (Nat.le_max_right m n), hn⟩
  exact Except.ok.inj (hread.symm.trans hread')

theorem accumulate_append (limit total : Nat) (before cs : List Char) :
    accumulate limit total (before ++ cs) =
      accumulate limit total before >>= fun m => accumulate limit m cs := by
  induction before generalizing total with
  | nil => rfl
  | cons c before ih =>
    rw [List.cons_append, accumulate, accumulate]
    cases digit? c with
    | none => rfl
    | some d =>
      dsimp only
      split_ifs
      · exact ih _
      · rfl

theorem accumulate_error_split (h : accumulate limit total cs = .error fault) :
    ∃ before c after m, cs = before ++ c :: after ∧ accumulate limit total before = .ok m ∧
      accumulate limit m [c] = .error fault := by
  induction cs generalizing total with
  | nil => cases h
  | cons c cs ih =>
    have hcons := accumulate_append limit total [c] cs
    rw [List.singleton_append, h] at hcons
    cases hc : accumulate limit total [c] with
    | error first =>
      rw [hc] at hcons
      cases hcons
      exact ⟨[], c, cs, total, rfl, rfl, hc⟩
    | ok m =>
      rw [hc] at hcons
      obtain ⟨before, d, after, k, hcs, hbefore, hd⟩ := ih hcons.symm
      refine ⟨c :: before, d, after, k, by rw [hcs, List.cons_append], ?_, hd⟩
      rw [← List.singleton_append, accumulate_append, hc]
      exact hbefore

theorem accumulate_singleton_error_iff :
    accumulate limit m [c] = .error fault ↔
      digit? c = none ∧ fault = .invalidDigit ∨
        ∃ d, digit? c = some d ∧ limit ≤ 16 * m + d ∧ fault = .tooLarge := by
  rw [accumulate]
  cases hc : digit? c with
  | none => simp [eq_comm]
  | some d =>
    dsimp only
    split_ifs with hfits
    · simp [accumulate, hfits]
    · simp [Nat.le_of_not_lt hfits, eq_comm]

theorem spells_concat_iff :
    Spells (cs ++ [c]) n ↔ ∃ d m, digit? c = some d ∧ Spells cs m ∧ n = 16 * m + d := by
  constructor
  · intro h
    obtain ⟨ds, hlt, hds, hvalue⟩ := h
    rw [List.map_append] at hds
    obtain ⟨es, last, hsplit, hes, hlast⟩ := List.map_eq_append_iff.1 hds.symm
    obtain ⟨d, hd, hdigit⟩ := List.map_eq_singleton_iff.1 hlast
    subst hd hsplit
    refine ⟨d, Nat.ofDigits 16 es.reverse, digit?_eq_some_iff.2 ⟨hlt d (by simp), hdigit.symm⟩,
      ⟨es, fun e he => hlt e (by simp [he]), hes.symm, rfl⟩, ?_⟩
    rw [← hvalue, List.reverse_append, List.reverse_singleton, List.singleton_append,
      Nat.ofDigits_cons, Nat.add_comm]
  · intro h
    obtain ⟨d, m, hc, ⟨es, hlt, hes, hvalue⟩, hn⟩ := h
    obtain ⟨hd, hdigit⟩ := digit?_eq_some_iff.1 hc
    refine ⟨es ++ [d], ?_, ?_, ?_⟩
    · intro e he
      rcases List.mem_append.1 he with hin | hlast
      · exact hlt e hin
      · rw [List.mem_singleton.1 hlast]
        exact hd
    · rw [List.map_append, List.map_append, hes, List.map_singleton, List.map_singleton, hdigit]
    · rw [List.reverse_append, List.reverse_singleton, List.singleton_append, Nat.ofDigits_cons,
        hvalue, hn, Nat.add_comm]

theorem accumulate_error_iff (hp : 0 < limit) :
    accumulate limit 0 cs = .error fault ↔
      ∃ before c after m, cs = before ++ c :: after ∧ Spells before m ∧ m < limit ∧
        (¬ IsDigit c ∧ fault = .invalidDigit ∨
          ∃ n, Spells (before ++ [c]) n ∧ limit ≤ n ∧ fault = .tooLarge) := by
  have hnext {before : List Char} {c : Char} {m : Nat} (hm : Spells before m) :
      accumulate limit m [c] = .error fault ↔ ¬ IsDigit c ∧ fault = .invalidDigit ∨
        ∃ n, Spells (before ++ [c]) n ∧ limit ≤ n ∧ fault = .tooLarge := by
    rw [accumulate_singleton_error_iff, digit?_eq_none_iff]
    apply or_congr_right
    constructor
    · intro h
      obtain ⟨d, hd, hle, hfault⟩ := h
      exact ⟨_, spells_concat_iff.2 ⟨d, m, hd, hm, rfl⟩, hle, hfault⟩
    · intro h
      obtain ⟨n, hn, hle, hfault⟩ := h
      obtain ⟨d, m', hd, hm', hsum⟩ := spells_concat_iff.1 hn
      rw [hm.unique hm']
      exact ⟨d, hd, hsum ▸ hle, hfault⟩
  constructor
  · intro h
    obtain ⟨before, c, after, m, hcs, hbefore, hc⟩ := accumulate_error_split h
    obtain ⟨hlt, hm⟩ := (accumulate_zero_ok_iff hp).1 hbefore
    exact ⟨before, c, after, m, hcs, hm, hlt, (hnext hm).1 hc⟩
  · intro h
    obtain ⟨before, c, after, m, hcs, hm, hlt, hc⟩ := h
    have hbefore := (accumulate_zero_ok_iff hp).2 ⟨hlt, hm⟩
    have hspoiled := (hnext hm).2 hc
    rw [hcs, accumulate_append, hbefore, ← List.singleton_append]
    change accumulate limit m ([c] ++ after) = _
    rw [accumulate_append, hspoiled]
    rfl

theorem readUnmarked_of_unsigned (h : Unsigned rest cs) (hne : cs ≠ []) :
    readUnmarked limit rest = accumulate limit 0 cs := by
  cases h with
  | signed h =>
    subst h
    cases cs with
    | nil => exact absurd rfl hne
    | cons c cs => rfl
  | plain hp h =>
    subst h
    unfold readUnmarked
    split
    · exact absurd rfl hne
    · simp at hp
    · simp at hp
    · rfl

theorem refused_of_accumulate (hp : 0 < limit) (hu : Unsigned rest cs)
    (h : accumulate limit 0 cs = .error fault) : Refused limit rest fault := by
  obtain ⟨before, c, after, m, hcs, hm, hlt, hc⟩ := (accumulate_error_iff hp).1 h
  subst hcs
  rcases hc with ⟨hc, hfault⟩ | ⟨n, hn, hle, hfault⟩
  · subst hfault
    exact .invalidDigit before c after m hu hm hlt hc
  · subst hfault
    exact .tooLarge before c after m n hu hm hlt hn hle

theorem readUnmarked_error_iff (hp : 0 < limit) :
    readUnmarked limit rest = .error fault ↔ Refused limit rest fault := by
  constructor
  · intro h
    unfold readUnmarked at h
    split at h
    next =>
      cases h
      exact .empty rfl
    next =>
      cases h
      exact .sign (by simp)
    next rest hne => exact refused_of_accumulate hp (.signed rfl) h
    next hnil hsign hhead =>
      refine refused_of_accumulate hp (.plain ?_ rfl) h
      intro hplus
      obtain ⟨rest', hrest⟩ := List.head?_eq_some_iff.1 hplus
      exact hhead rest' hrest
  · intro h
    cases h with
    | empty h =>
      subst h
      rfl
    | sign h =>
      simp only [List.mem_cons, List.not_mem_nil, or_false] at h
      rcases h with h | h
      · subst h
        rfl
      · subst h
        rfl
    | invalidDigit before c after m hu hm hlt hc =>
      rw [readUnmarked_of_unsigned hu (by simp)]
      exact (accumulate_error_iff hp).2 ⟨before, c, after, m, rfl, hm, hlt, .inl ⟨hc, rfl⟩⟩
    | tooLarge before c after m n hu hm hlt hn hle =>
      rw [readUnmarked_of_unsigned hu (by simp)]
      exact (accumulate_error_iff hp).2 ⟨before, c, after, m, rfl, hm, hlt, .inr ⟨n, hn, hle, rfl⟩⟩

theorem read_error_iff (hp : 0 < limit) :
    read limit text = .error fault ↔
      ∃ rest, Unmarked text.toList rest ∧ Refused limit rest fault := by
  simp only [read, readUnmarked_error_iff hp, unmarked_iff, exists_eq_left]

theorem read_marked_twice (hp : 0 < limit) {mark mark' : List Char} (hm : mark ∈ marks)
    (hm' : mark' ∈ marks) (rest : List Char) :
    read limit (String.ofList (mark ++ mark' ++ rest)) = .error .invalidDigit := by
  have hzero : Spells ['0'] 0 := spells_zeros (spells_nil_iff.2 rfl) 1
  obtain ⟨x, hx, hmark'⟩ : ∃ x, ¬ IsDigit x ∧ mark' = ['0', x] := by
    simp only [marks, List.mem_cons, List.not_mem_nil, or_false] at hm'
    rcases hm' with hm' | hm'
    · exact ⟨'x', digit?_eq_none_iff.1 rfl, hm'⟩
    · exact ⟨'X', digit?_eq_none_iff.1 rfl, hm'⟩
  rw [read_error_iff hp]
  refine ⟨mark' ++ rest, .marked mark hm ?_, .invalidDigit ['0'] x rest 0 ?_ hzero hp hx⟩
  · rw [String.toList_ofList, List.append_assoc]
  · subst hmark'
    exact .plain (by simp) rfl

end Refusals

section Written

variable {n width : Nat} {text : String}

theorem eq_zeros_of_toLower {cs : List Char} {k : Nat}
    (h : cs.map Char.toLower = List.replicate k '0') : cs = List.replicate k '0' := by
  have hlength : cs.length = k := by simpa using congrArg List.length h
  refine List.eq_replicate_iff.2 ⟨hlength, ?_⟩
  intro c hc
  have hlower : c.toLower = '0' :=
    List.eq_of_mem_replicate (h ▸ List.mem_map_of_mem (f := Char.toLower) hc)
  have hcode := toLower_toNat c
  rw [hlower] at hcode
  change 0x30 = _ at hcode
  rw [← Char.toNat_inj]
  change c.toNat = 0x30
  split_ifs at hcode <;> omega

theorem mem_marks_of_toLower {cs : List Char} (h : cs.map Char.toLower = ['0', 'x']) :
    cs ∈ marks := by
  obtain ⟨c, d, hcs⟩ := List.length_eq_two.1 (by simpa using congrArg List.length h : cs.length = 2)
  subst hcs
  simp only [List.map_cons, List.map_nil, List.cons.injEq, and_true] at h
  have hzero : [c] = ['0'] := eq_zeros_of_toLower (k := 1) (by simp [h.1])
  have hcode := toLower_toNat d
  rw [h.2] at hcode
  change 0x78 = _ at hcode
  have hd : d = 'x' ∨ d = 'X' := by
    rw [← Char.toNat_inj, ← Char.toNat_inj (c := d)]
    change d.toNat = 0x78 ∨ d.toNat = 0x58
    split_ifs at hcode <;> omega
  rcases hd with hd | hd <;> simp [marks, hd, List.singleton_inj.1 hzero]

theorem denotes_of_toLower {mark : String} (hm : mark ∈ ["", "0x"])
    (h : text.toList.map Char.toLower = (mark ++ padded width n).toList) : Denotes text n := by
  obtain ⟨k, hpadded⟩ : ∃ k, (padded width n).toList = List.replicate k '0' ++ digits n :=
    ⟨_, String.toList_ofList⟩
  rw [String.toList_append, hpadded] at h
  obtain ⟨front, rest, htext, hfront, hrest⟩ := List.map_eq_append_iff.1 h
  obtain ⟨zeros, cs, hsplit, hzeros, hcs⟩ := List.map_eq_append_iff.1 hrest
  have hmark : front ∈ [[], ['0', 'x'], ['0', 'X']] := by
    simp only [List.mem_cons, List.not_mem_nil, or_false] at hm
    rcases hm with hm | hm
    · subst hm
      simp [List.map_eq_nil_iff.1 hfront]
    · subst hm
      exact List.mem_cons_of_mem _ (mem_marks_of_toLower hfront)
  have hrespells : Respells text (plain n) := by
    refine ⟨front, k, cs, hmark, ?_, ?_⟩
    · rw [htext, hsplit, eq_zeros_of_toLower hzeros, List.append_assoc]
    · rw [hcs, plain, String.toList_ofList]
  obtain ⟨digits, hpos, hshows⟩ := plain_shows n
  exact hrespells.denotes hshows hpos

end Written

end SharedArchive.Text.Hex

namespace SharedArchive.Command.ValueOption

open Text.Hex (Denotes Refused Unmarked denotes_of_toLower marks padded plain read
  read_error_iff read_marked_twice read_ok_iff)

def width : ValueOption → Nat
  | magic => 32
  | pattern => 64

theorem limit_eq (o : ValueOption) : o.limit = 2 ^ o.width := by cases o <;> rfl

theorem limit_pos (o : ValueOption) : 0 < o.limit := by cases o <;> decide

def written (n : Nat) : List String :=
  [Text.Hex.plain n, Text.Hex.marked n, Text.Hex.padded 8 n, "0x" ++ Text.Hex.padded 16 n]

theorem written_eq {n : Nat} {shown : String} (h : shown ∈ written n) :
    ∃ mark ∈ ["", "0x"], ∃ width, shown = mark ++ padded width n := by
  have hplain : plain n = padded 0 n := by simp [plain, padded]
  have hempty (x : String) : x = "" ++ x := String.empty_append.symm
  simp only [written, List.mem_cons, List.not_mem_nil, or_false] at h
  rcases h with h | h | h | h
  · exact ⟨"", by simp, 0, by rw [h, hplain, ← hempty]⟩
  · exact ⟨"0x", by simp, 0, by rw [h, Text.Hex.marked, hplain]⟩
  · exact ⟨"", by simp, 8, by rw [h, ← hempty]⟩
  · exact ⟨"0x", by simp, 16, h⟩

/-- The value of an option is read off just the numerals of numbers below its limit, and a text that
is refused is refused for the first thing that is wrong with it; the narrower option takes what the
wider one takes, as far as it goes, and a number is read as it is written. -/
theorem values_exact (o : ValueOption) :
    (∀ text v, read o.limit text = .ok v ↔ v < 2 ^ o.width ∧ Denotes text v) ∧
    (∀ text fault, read o.limit text = .error fault ↔
      ∃ rest, Unmarked text.toList rest ∧ Refused (2 ^ o.width) rest fault) ∧
    (∀ p text, o.isGiven p = false → p.setOption text o =
      ((read o.limit text).mapError (.badNumber text)).map (o.give p)) ∧
    (∀ text v, read magic.limit text = .ok v ↔ read pattern.limit text = .ok v ∧ v < 2 ^ 32) ∧
    (∀ mark ∈ marks, ∀ mark' ∈ marks, ∀ rest,
      read o.limit (String.ofList (mark ++ mark' ++ rest)) = .error .invalidDigit) ∧
    ∀ v < 2 ^ o.width, ∀ shown ∈ written v, ∀ text : String,
      text.toList.map Char.toLower = shown.toList → read o.limit text = .ok v := by
  have hok (o : ValueOption) (text : String) (v : Nat) :
      read o.limit text = .ok v ↔ v < 2 ^ o.width ∧ Denotes text v := by
    rw [read_ok_iff o.limit_pos, limit_eq]
  refine ⟨hok o, ?_, ?_, ?_, ?_, ?_⟩
  · intro text fault
    rw [read_error_iff o.limit_pos, limit_eq]
  · intro p text hfree
    rw [Progress.setOption_eq, hfree]
    rfl
  · intro text v
    rw [hok, hok]
    simp only [width]
    constructor
    · intro h
      exact ⟨⟨h.1.trans (by decide), h.2⟩, h.1⟩
    · intro h
      exact ⟨h.2, h.1.2⟩
  · intro mark hm mark' hm' rest
    exact read_marked_twice o.limit_pos hm hm' rest
  · intro v hv shown hshown text htext
    obtain ⟨mark, hmark, width, heq⟩ := written_eq hshown
    rw [heq] at htext
    exact (hok o text v).2 ⟨hv, denotes_of_toLower hmark htext⟩

theorem upperMagic_read :
    magic.isGiven {} = false ∧ 0xa2ab0bf0 < 2 ^ magic.width ∧
      Text.Hex.marked 0xa2ab0bf0 ∈ written 0xa2ab0bf0 ∧
      read magic.limit "0XA2AB0BF0" = .ok 0xa2ab0bf0 ∧
      read magic.limit (String.ofList (['0', 'x'] ++ ['0', 'X'] ++ ['1'])) = .error .invalidDigit ∧
      ({} : Progress).setOption "0x" magic = .error (.badNumber "0x" .empty) := by
  obtain ⟨-, hrefused, hset, -, htwice, hwritten⟩ := values_exact magic
  have hshown : Text.Hex.marked 0xa2ab0bf0 ∈ written 0xa2ab0bf0 := by simp [written]
  have hlower : ("0XA2AB0BF0" : String).toList.map Char.toLower =
      (Text.Hex.marked 0xa2ab0bf0).toList := by cbv
  have hempty : read magic.limit "0x" = .error .empty :=
    (hrefused "0x" .empty).2 ⟨[], .marked ['0', 'x'] (by decide) rfl, .empty rfl⟩
  refine ⟨rfl, by decide, hshown, hwritten _ (by decide) _ hshown _ hlower,
    htwice _ (by decide) _ (by decide) _, ?_⟩
  rw [hset {} "0x" rfl, hempty]
  rfl

end SharedArchive.Command.ValueOption
