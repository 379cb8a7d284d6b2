import Mathlib
import SharedArchive.Text.Hex

/-!
Numerals and the numbers they denote. A text denotes a number if, after one optional mark and one
optional plus sign, it is that number's hexadecimal digits in either case, perhaps with zeros in
front. Reading accepts just the texts that denote a number below the limit, and gives that number;
what is written denotes the number it is written for, with as many digits as are asked for.
-/

namespace SharedArchive.Text.Hex

section Digits

theorem digit_toNat {d : Nat} (h : d < 16) :
    (digit d).toNat = if d < 10 then 0x30 + d else 0x57 + d := by
  have hall : ∀ e ∈ List.range 16,
      (digit e).toNat = if e < 10 then 0x30 + e else 0x57 + e := by decide
  exact hall d (List.mem_range.2 h)

theorem toLower_toNat (c : Char) :
    c.toLower.toNat = if 0x41 ≤ c.toNat ∧ c.toNat < 0x5b then c.toNat + 0x20 else c.toNat := by
  have hupper : (c.val ≥ 'A'.val ∧ c.val ≤ 'Z'.val) ↔ (0x41 ≤ c.toNat ∧ c.toNat < 0x5b) := by
    rw [ge_iff_le, UInt32.le_iff_toNat_le, UInt32.le_iff_toNat_le]
    change 0x41 ≤ c.toNat ∧ c.toNat ≤ 0x5a ↔ _
    omega
  rw [Char.toLower]
  split_ifs with h hn hn
  · change (c.val + ('a'.val - 'A'.val)).toNat = c.toNat + 0x20
    rw [UInt32.toNat_add]
    change (c.toNat + 0x20) % 2 ^ 32 = c.toNat + 0x20
    omega
  · exact absurd (hupper.1 h) hn
  · exact absurd (hupper.2 hn) h
  · rfl

theorem digit?_eq_some_iff {c : Char} {d : Nat} :
    digit? c = some d ↔ d < 16 ∧ c.toLower = digit d := by
  have hlower := toLower_toNat c
  constructor
  · intro h
    have hd : d < 16 ∧ c.toLower.toNat = if d < 10 then 0x30 + d else 0x57 + d := by
      simp only [digit?] at h
      split_ifs at h <;> cases h <;> split_ifs at hlower ⊢ <;> omega
    refine ⟨hd.1, Char.toNat_inj.1 ?_⟩
    rw [hd.2, digit_toNat hd.1]
  · rintro ⟨hd, hc⟩
    rw [hc, digit_toNat hd] at hlower
    have hplace : c.toNat = 0x30 + d ∧ d < 10 ∨
        (c.toNat = 0x37 + d ∨ c.toNat = 0x57 + d) ∧ 10 ≤ d := by
      split_ifs at hlower <;> omega
    simp only [digit?]
    rcases hplace with ⟨hn, hlt⟩ | ⟨hn | hn, hge⟩
    · rw [if_pos (by omega), hn, Nat.add_sub_cancel_left]
    · rw [if_neg (by omega), if_pos (by omega), hn, Nat.add_sub_cancel_left]
    · rw [if_neg (by omega), if_neg (by omega), if_pos (by omega), hn, Nat.add_sub_cancel_left]

theorem toLower_digit {d : Nat} (h : d < 16) : (digit d).toLower = digit d := by
  have hall : ∀ e ∈ List.range 16, (digit e).toLower = digit e := by decide
  exact hall d (List.mem_range.2 h)

/-- The characters are the number's digits in either case, the most significant first. -/
def Spells (cs : List Char) (n : Nat) : Prop :=
  ∃ ds : List Nat, (∀ d ∈ ds, d < 16) ∧ cs.map Char.toLower = ds.map digit ∧
    Nat.ofDigits 16 ds.reverse = n

/-- The text is the number in `width` digits of lower case. -/
def Shows (width : Nat) (text : String) (n : Nat) : Prop :=
  ∃ ds : List Nat, (∀ d ∈ ds, d < 16) ∧ text.toList = ds.map digit ∧ ds.length = width ∧
    Nat.ofDigits 16 ds.reverse = n

def Denotes (text : String) (n : Nat) : Prop :=
  ∃ mark sign cs, mark ∈ [[], ['0', 'x'], ['0', 'X']] ∧ sign ∈ [[], ['+']] ∧ cs ≠ [] ∧
    text.toList = mark ++ sign ++ cs ∧ Spells cs n

theorem digits_eq (n : Nat) :
    ∃ ds : List Nat, (∀ d ∈ ds, d < 16) ∧ digits n = ds.map digit ∧
      Nat.ofDigits 16 ds.reverse = n ∧ ∀ width, 0 < width → n < 16 ^ width → ds.length ≤ width := by
  fun_induction digits n with
  | case1 n h =>
    refine ⟨[n], by simpa using h, rfl, by simp, ?_⟩
    intro width hw _
    exact hw
  | case2 n h ih =>
    obtain ⟨ds, hlt, hds, hvalue, hlength⟩ := ih
    have hlow : n % 16 < 16 := Nat.mod_lt n (by decide)
    refine ⟨ds ++ [n % 16], ?_, ?_, ?_, ?_⟩
    · intro d hd
      rcases List.mem_append.1 hd with hin | hlast
      · exact hlt d hin
      · rw [List.mem_singleton.1 hlast]
        exact hlow
    · rw [List.map_append, hds]
      rfl
    · rw [List.reverse_append, List.reverse_singleton, List.singleton_append, Nat.ofDigits_cons,
        hvalue]
      exact Nat.mod_add_div n 16
    · intro width _ hwidth
      obtain ⟨width, rfl⟩ : ∃ w, width = w + 1 := ⟨width - 1, by omega⟩
      rw [Nat.pow_succ] at hwidth
      have hshorter : n / 16 < 16 ^ width := by omega
      have hpos : 0 < width := by
        rcases Nat.eq_zero_or_pos width with hzero | hpos
        · subst hzero
          omega
        · exact hpos
      rw [List.length_append, List.length_singleton]
      exact Nat.succ_le_succ (hlength width hpos hshorter)

theorem padded_shows {width n : Nat} (hw : 0 < width) (h : n < 16 ^ width) :
    Shows width (padded width n) n := by
  obtain ⟨ds, hlt, hds, hvalue, hlength⟩ := digits_eq n
  have hle := hlength width hw h
  refine ⟨List.replicate (width - ds.length) 0 ++ ds, ?_, ?_, ?_, ?_⟩
  · intro d hd
    rcases List.mem_append.1 hd with hzero | hin
    · rw [List.eq_of_mem_replicate hzero]
      decide
    · exact hlt d hin
  · rw [padded, String.toList_ofList, hds, List.length_map, List.map_append, List.map_replicate]
    rfl
  · rw [List.length_append, List.length_replicate]
    omega
  · rw [List.reverse_append, List.reverse_replicate, Nat.ofDigits_append_replicate_zero, hvalue]

theorem plain_shows (n : Nat) : ∃ width, 0 < width ∧ Shows width (plain n) n := by
  obtain ⟨ds, hlt, hds, hvalue, -⟩ := digits_eq n
  have hne : digits n ≠ [] := by
    unfold digits
    split <;> simp
  have hpos : 0 < ds.length := by
    rw [List.length_pos_iff]
    intro hnil
    rw [hds, hnil] at hne
    exact hne rfl
  exact ⟨ds.length, hpos, ds, hlt, by rw [plain, String.toList_ofList, hds], rfl, hvalue⟩

theorem Shows.unique {width n : Nat} {x y : String} (hx : Shows width x n) (hy : Shows width y n) :
    x = y := by
  obtain ⟨ds, hd, hxs, hdl, hdv⟩ := hx
  obtain ⟨es, he, hys, hel, hev⟩ := hy
  have hreverse : ds.reverse = es.reverse := by
    apply Nat.ofDigits_inj_of_len_eq (by decide : 1 < 16)
    · rw [List.length_reverse, List.length_reverse, hdl, hel]
    · intro d hin
      exact hd d (List.mem_reverse.1 hin)
    · intro d hin
      exact he d (List.mem_reverse.1 hin)
    · rw [hdv, hev]
  apply String.toList_inj.1
  rw [hxs, hys, List.reverse_inj.1 hreverse]

end Digits

section Reading

variable {limit n : Nat}

theorem spells_nil_iff : Spells [] n ↔ n = 0 := by
  constructor
  · rintro ⟨ds, -, hds, rfl⟩
    rw [List.map_eq_nil_iff.1 hds.symm]
    rfl
  · rintro rfl
    exact ⟨[], by simp, rfl, rfl⟩

theorem spells_cons_iff {c : Char} {cs : List Char} :
    Spells (c :: cs) n ↔
      ∃ d m, digit? c = some d ∧ Spells cs m ∧ n = d * 16 ^ cs.length + m := by
  have hlength {ds : List Nat} (h : cs.map Char.toLower = ds.map digit) :
      ds.length = cs.length := by
    rw [← List.length_map (f := digit), ← h, List.length_map]
  constructor
  · rintro ⟨ds, hlt, hds, rfl⟩
    cases ds with
    | nil => cases hds
    | cons d ds =>
      rw [List.map_cons, List.map_cons, List.cons.injEq] at hds
      refine ⟨d, Nat.ofDigits 16 ds.reverse,
        digit?_eq_some_iff.2 ⟨hlt d List.mem_cons_self, hds.1⟩,
        ⟨ds, fun e he => hlt e (List.mem_cons_of_mem d he), hds.2, rfl⟩, ?_⟩
      rw [Nat.ofDigits_reverse_cons, hlength hds.2]
      ring
  · rintro ⟨d, m, hc, ⟨ds, hlt, hds, rfl⟩, rfl⟩
    obtain ⟨hd, hlower⟩ := digit?_eq_some_iff.1 hc
    refine ⟨d :: ds, ?_, ?_, ?_⟩
    · intro e he
      rcases List.mem_cons.1 he with hfirst | hin
      · rw [hfirst]
        exact hd
      · exact hlt e hin
    · rw [List.map_cons, List.map_cons, hlower, hds]
    · rw [Nat.ofDigits_reverse_cons, hlength hds]
      ring

theorem accumulate_ok_iff {total : Nat} {cs : List Char} (ht : total < limit) :
    accumulate limit total cs = .ok n ↔
      n < limit ∧ ∃ m, Spells cs m ∧ n = total * 16 ^ cs.length + m := by
  induction cs generalizing total with
  | nil =>
    rw [accumulate]
    constructor
    · intro h
      cases h
      exact ⟨ht, 0, spells_nil_iff.2 rfl, by simp⟩
    · rintro ⟨-, m, hm, rfl⟩
      rw [spells_nil_iff.1 hm]
      simp
  | cons c rest ih =>
    rw [accumulate]
    cases hc : digit? c with
    | none =>
      constructor
      · intro h
        cases h
      · rintro ⟨-, m, hm, -⟩
        obtain ⟨d, -, hd, -⟩ := spells_cons_iff.1 hm
        rw [hc] at hd
        cases hd
    | some d =>
      have hsum (m : Nat) : total * 16 ^ (rest.length + 1) + (d * 16 ^ rest.length + m) =
          (16 * total + d) * 16 ^ rest.length + m := by
        ring
      have hrest : (∃ m, Spells (c :: rest) m ∧ n = total * 16 ^ (c :: rest).length + m) ↔
          ∃ m, Spells rest m ∧ n = (16 * total + d) * 16 ^ rest.length + m := by
        constructor
        · rintro ⟨_, hm, rfl⟩
          obtain ⟨e, m, he, hspells, rfl⟩ := spells_cons_iff.1 hm
          obtain rfl : d = e := Option.some.inj (hc.symm.trans he)
          exact ⟨m, hspells, hsum m⟩
        · rintro ⟨m, hm, rfl⟩
          exact ⟨_, spells_cons_iff.2 ⟨d, m, hc, hm, rfl⟩, (hsum m).symm⟩
      rw [hrest]
      dsimp only
      split_ifs with hfits
      · exact ih hfits
      · constructor
        · intro h
          cases h
        · rintro ⟨hn, m, -, rfl⟩
          have hle : 16 * total + d ≤ (16 * total + d) * 16 ^ rest.length :=
            Nat.le_mul_of_pos_right _ (Nat.pow_pos (by decide))
          omega

theorem accumulate_zero_ok_iff (hp : 0 < limit) {cs : List Char} :
    accumulate limit 0 cs = .ok n ↔ n < limit ∧ Spells cs n := by
  rw [accumulate_ok_iff hp]
  simp only [Nat.zero_mul, Nat.zero_add, exists_eq_right']

theorem not_spells_cons {c : Char} {cs : List Char} (h : digit? c = none) :
    ¬ Spells (c :: cs) n := by
  intro hs
  obtain ⟨d, -, hd, -⟩ := spells_cons_iff.1 hs
  rw [h] at hd
  cases hd

theorem readUnmarked_ok_iff (hp : 0 < limit) {cs : List Char} :
    readUnmarked limit cs = .ok n ↔
      n < limit ∧ ∃ sign rest, sign ∈ [[], ['+']] ∧ rest ≠ [] ∧ cs = sign ++ rest ∧
        Spells rest n := by
  have hplus (rest : List Char) : ¬ Spells ('+' :: rest) n := not_spells_cons (by decide)
  simp only [List.mem_cons, List.not_mem_nil, or_false]
  unfold readUnmarked
  split
  next =>
    constructor
    · intro h
      cases h
    · rintro ⟨-, sign, rest, -, hne, hcs, -⟩
      exact absurd (List.append_eq_nil_iff.1 hcs.symm).2 hne
  next =>
    constructor
    · intro h
      cases h
    · rintro ⟨-, sign, rest, rfl | rfl, hne, hcs, hs⟩
      · rw [← show ['+'] = rest from hcs] at hs
        exact absurd hs (hplus [])
      · exact absurd (List.cons.inj hcs).2.symm hne
  next rest hne =>
    rw [accumulate_zero_ok_iff hp]
    constructor
    · rintro ⟨hn, hs⟩
      exact ⟨hn, ['+'], rest, Or.inr rfl, fun h => hne (by rw [h]), rfl, hs⟩
    · rintro ⟨hn, sign, rest', rfl | rfl, -, hcs, hs⟩
      · rw [← show '+' :: rest = rest' from hcs] at hs
        exact absurd hs (hplus rest)
      · rw [(List.cons.inj hcs).2]
        exact ⟨hn, hs⟩
  next _ hnil _ hhead =>
    rw [accumulate_zero_ok_iff hp]
    constructor
    · rintro ⟨hn, hs⟩
      exact ⟨hn, [], cs, Or.inl rfl, hnil, rfl, hs⟩
    · rintro ⟨hn, sign, rest, rfl | rfl, -, hcs, hs⟩
      · rw [show cs = rest from hcs]
        exact ⟨hn, hs⟩
      · exact absurd hcs (hhead rest)

theorem exists_mark (cs : List Char) :
    ∃ mark ∈ [[], ['0', 'x'], ['0', 'X']], cs = mark ++ stripMark cs := by
  unfold stripMark
  split
  · exact ⟨['0', 'x'], by simp, rfl⟩
  · exact ⟨['0', 'X'], by simp, rfl⟩
  · exact ⟨[], by simp, rfl⟩

theorem stripMark_numeral {mark sign cs : List Char} (hmark : mark ∈ [[], ['0', 'x'], ['0', 'X']])
    (hsign : sign ∈ [[], ['+']]) (h : Spells cs n) :
    stripMark (mark ++ sign ++ cs) = sign ++ cs := by
  have hsecond {c : Char} {rest : List Char} (hc : digit? c = none) : cs ≠ '0' :: c :: rest := by
    rintro rfl
    obtain ⟨-, m, -, hm, -⟩ := spells_cons_iff.1 h
    exact not_spells_cons hc hm
  simp only [List.mem_cons, List.not_mem_nil, or_false] at hmark hsign
  rcases hmark with rfl | rfl | rfl
  · rcases hsign with rfl | rfl
    · simp only [List.nil_append]
      unfold stripMark
      split
      · exact absurd rfl (hsecond (by decide))
      · exact absurd rfl (hsecond (by decide))
      · rfl
    · rfl
  · rfl
  · rfl

theorem read_ok_iff (hp : 0 < limit) {text : String} :
    read limit text = .ok n ↔ n < limit ∧ Denotes text n := by
  rw [read, readUnmarked_ok_iff hp]
  constructor
  · rintro ⟨hn, sign, cs, hsign, hne, hrest, hs⟩
    obtain ⟨mark, hmark, htext⟩ := exists_mark text.toList
    rw [hrest, ← List.append_assoc] at htext
    exact ⟨hn, mark, sign, cs, hmark, hsign, hne, htext, hs⟩
  · rintro ⟨hn, mark, sign, cs, hmark, hsign, hne, htext, hs⟩
    refine ⟨hn, sign, cs, hsign, hne, ?_, hs⟩
    rw [htext, stripMark_numeral hmark hsign hs]

theorem Denotes.unique {m : Nat} {text : String} (hm : Denotes text m) (hn : Denotes text n) :
    m = n := by
  have hlt : 0 < max m n + 1 := Nat.succ_pos _
  have hread : read (max m n + 1) text = .ok m :=
    (read_ok_iff hlt).2 ⟨Nat.lt_succ_of_le (Nat.le_max_left m n), hm⟩
  have hread' : read (max m n + 1) text = .ok n :=
    (read_ok_iff hlt).2 ⟨Nat.lt_succ_of_le (Nat.le_max_right m n), hn⟩
  exact Except.ok.inj (hread.symm.trans hread')

end Reading

/-- The text is the digits of `shown` in either case, with any number of zeros in front of them and
perhaps a mark in front of these. -/
def Respells (text shown : String) : Prop :=
  ∃ mark zeros cs, mark ∈ [[], ['0', 'x'], ['0', 'X']] ∧
    text.toList = mark ++ List.replicate zeros '0' ++ cs ∧ cs.map Char.toLower = shown.toList

theorem spells_zeros {cs : List Char} {n : Nat} (h : Spells cs n) (zeros : Nat) :
    Spells (List.replicate zeros '0' ++ cs) n := by
  induction zeros with
  | zero => exact h
  | succ zeros ih =>
    refine spells_cons_iff.2 ⟨0, n, by decide, ih, ?_⟩
    rw [Nat.zero_mul, Nat.zero_add]

theorem Respells.denotes {text shown : String} {width n : Nat} (h : Respells text shown)
    (hshown : Shows width shown n) (hw : 0 < width) : Denotes text n := by
  obtain ⟨mark, zeros, cs, hmark, htext, hcs⟩ := h
  obtain ⟨ds, hlt, hds, hlength, hvalue⟩ := hshown
  have hspells : Spells cs n := ⟨ds, hlt, hcs.trans hds, hvalue⟩
  have hne : cs ≠ [] := by
    rintro rfl
    rw [List.map_nil] at hcs
    rw [← hcs] at hds
    rw [List.map_eq_nil_iff.1 hds.symm] at hlength
    exact absurd hlength hw.ne
  refine ⟨mark, [], List.replicate zeros '0' ++ cs, hmark, by simp, ?_, ?_,
    spells_zeros hspells zeros⟩
  · intro hnil
    exact hne (List.append_eq_nil_iff.1 hnil).2
  · rw [htext, List.append_nil, List.append_assoc]

theorem Shows.denotes {text : String} {width n : Nat} (h : Shows width text n) (hw : 0 < width) :
    Denotes text n := by
  have hsame : Respells text text := by
    obtain ⟨ds, hlt, htext, -⟩ := h
    refine ⟨[], 0, text.toList, by simp, rfl, ?_⟩
    rw [htext, List.map_map]
    exact List.map_congr_left fun d hd => toLower_digit (hlt d hd)
  exact hsame.denotes h hw

theorem exists_denotes (n : Nat) : ∃ text, Denotes text n := by
  have hlt : n < 16 ^ (n + 1) := (Nat.lt_succ_self n).trans (Nat.lt_pow_self (by decide))
  exact ⟨_, (padded_shows (Nat.succ_pos n) hlt).denotes (Nat.succ_pos n)⟩

end SharedArchive.Text.Hex
