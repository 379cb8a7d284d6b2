import Mathlib
import SharedArchive.Proofs.Numerals
import SharedArchive.Text.Quoted

/-!
Quoted text is read back. A quoted text is read one character at a time: a backslash announces an
escape, and all up to the quote that stands for itself is the text. Reading undoes quoting whatever
the text holds and whatever follows it, so two texts are never quoted alike; and as a quoted text is
made of graphic characters, none of its characters is a control.
-/

namespace SharedArchive.Text

/-- The characters that control a terminal or a line: those below the space, the delete character,
and those from U+0080 to U+009F. -/
def IsControl (c : Char) : Prop := c.toNat < 0x20 ∨ 0x7f ≤ c.toNat ∧ c.toNat < 0xa0

def IsPlain (text : String) : Prop := ∀ c ∈ text.toList, isGraphic c = true

def isPrintable (text : String) : Bool :=
  text.toList.all fun c => 0x20 ≤ c.toNat && c.toNat < 0x7f

section Plain

theorem not_isControl_of_isGraphic {c : Char} (h : isGraphic c = true) : ¬ IsControl c := by
  intro hcontrol
  rw [isGraphic_control hcontrol] at h
  exact Bool.false_ne_true h

theorem isGraphic_of_ascii {c : Char} (h : 0x20 ≤ c.toNat ∧ c.toNat < 0x7f) :
    isGraphic c = true := by
  have hc : c.toNat < 0xa0 := by omega
  simp only [isGraphic, hc, if_true, Bool.and_eq_true, decide_eq_true_eq]
  exact h

theorem isPlain_of_isPrintable {text : String} (h : isPrintable text = true) : IsPlain text := by
  intro c hc
  have hchar := List.all_eq_true.1 h c hc
  simp only [Bool.and_eq_true, decide_eq_true_eq] at hchar
  exact isGraphic_of_ascii hchar

@[simp] theorem isPlain_append {s t : String} : IsPlain (s ++ t) ↔ IsPlain s ∧ IsPlain t := by
  simp only [IsPlain, String.toList_append, List.mem_append, or_imp, forall_and]

theorem isGraphic_of_mem_digits {n : Nat} {c : Char} (h : c ∈ Hex.digits n) :
    isGraphic c = true := by
  obtain ⟨ds, hlt, hds, -⟩ := Hex.digits_eq n
  rw [hds, List.mem_map] at h
  obtain ⟨d, hd, rfl⟩ := h
  have hnumber := Hex.digit_toNat (hlt d hd)
  have hless := hlt d hd
  refine isGraphic_of_ascii ?_
  split_ifs at hnumber
  · omega
  · omega

def escapeMarks : List Char := ['\x5c', '\x22', 'n', 'r', 't', '0', 'u', '\x7b', '\x7d']

theorem isGraphic_of_mem_escapeMarks {c : Char} (h : c ∈ escapeMarks) : isGraphic c = true := by
  have hascii : ∀ d ∈ escapeMarks, 0x20 ≤ d.toNat ∧ d.toNat < 0x7f := by
    simp [escapeMarks]
  exact isGraphic_of_ascii (hascii c h)

theorem mem_escape {c d : Char} (h : d ∈ escape c) :
    d ∈ escapeMarks ∨ d ∈ Hex.digits c.toNat ∨ d = c ∧ isGraphic c = true := by
  unfold escape at h
  split_ifs at h with _ _ _ _ _ _ hgraphic
  · exact Or.inl ((by decide : ['\x5c', '\x22'] ⊆ escapeMarks) h)
  · exact Or.inl ((by decide : ['\x5c', '\x5c'] ⊆ escapeMarks) h)
  · exact Or.inl ((by decide : ['\x5c', 'n'] ⊆ escapeMarks) h)
  · exact Or.inl ((by decide : ['\x5c', 'r'] ⊆ escapeMarks) h)
  · exact Or.inl ((by decide : ['\x5c', 't'] ⊆ escapeMarks) h)
  · exact Or.inl ((by decide : ['\x5c', '0'] ⊆ escapeMarks) h)
  · exact Or.inr (Or.inr ⟨List.mem_singleton.1 h, hgraphic⟩)
  · change d ∈ ['\x5c', 'u', '\x7b'] ++ (Hex.digits c.toNat ++ ['\x7d']) at h
    rw [List.mem_append, List.mem_append] at h
    rcases h with hfront | hdigit | hback
    · exact Or.inl ((by decide : ['\x5c', 'u', '\x7b'] ⊆ escapeMarks) hfront)
    · exact Or.inr (Or.inl hdigit)
    · exact Or.inl ((by decide : ['\x7d'] ⊆ escapeMarks) hback)

theorem isGraphic_of_mem_escape {c d : Char} (h : d ∈ escape c) : isGraphic d = true := by
  rcases mem_escape h with hmark | hdigit | ⟨hsame, hgraphic⟩
  · exact isGraphic_of_mem_escapeMarks hmark
  · exact isGraphic_of_mem_digits hdigit
  · rw [hsame]
    exact hgraphic

theorem isPlain_quote (text : String) : IsPlain (quote text) := by
  intro c hc
  have hquote : isGraphic '\x22' = true := isGraphic_of_mem_escapeMarks (by decide)
  rw [quote, String.toList_ofList, quoteChars, List.mem_cons, List.mem_append, List.mem_flatMap,
    List.mem_singleton] at hc
  obtain rfl | ⟨d, -, hd⟩ | rfl := hc
  · exact hquote
  · exact isGraphic_of_mem_escape hd
  · exact hquote

end Plain

/-- Where a reader of quoted text stands: between characters, after a backslash, after the letter
of a numbered character, or in its number. -/
inductive Quotation
  | between
  | escaped
  | opened
  | numbered (n : Nat)

structure Unquoted where
  text : List Char
  rest : List Char
deriving DecidableEq

def Unquoted.cons (c : Char) (u : Unquoted) : Unquoted := { u with text := c :: u.text }

def shortEscape? (c : Char) : Option Char :=
  if c = '\x22' ∨ c = '\x5c' then some c
  else if c = 'n' then some '\n'
  else if c = 'r' then some '\r'
  else if c = 't' then some '\t'
  else if c = '0' then some '\x00'
  else none

def unquote? : Quotation → List Char → Option Unquoted
  | _, [] => none
  | .between, c :: rest =>
    if c = '\x22' then some ⟨[], rest⟩
    else if c = '\x5c' then unquote? .escaped rest
    else (unquote? .between rest).map (.cons c)
  | .escaped, c :: rest =>
    if c = 'u' then unquote? .opened rest
    else (shortEscape? c).bind fun d => (unquote? .between rest).map (.cons d)
  | .opened, c :: rest => if c = '\x7b' then unquote? (.numbered 0) rest else none
  | .numbered n, c :: rest =>
    if c = '\x7d' then (unquote? .between rest).map (.cons (Char.ofNat n))
    else (Hex.digit? c).bind fun d => unquote? (.numbered (16 * n + d)) rest

section Unquoting

variable (rest : List Char)

theorem unquote?_digit {d : Nat} (h : d < 16) (n : Nat) :
    unquote? (.numbered n) (Hex.digit d :: rest) = unquote? (.numbered (16 * n + d)) rest := by
  have hdigit : Hex.digit? (Hex.digit d) = some d :=
    Hex.digit?_eq_some_iff.2 ⟨h, Hex.toLower_digit h⟩
  have hbrace : Hex.digit d ≠ '\x7d' := by
    intro heq
    rw [heq] at hdigit
    cases hdigit
  rw [unquote?, if_neg hbrace, hdigit, Option.bind_some]

theorem unquote?_digits (n : Nat) :
    unquote? (.numbered 0) (Hex.digits n ++ rest) = unquote? (.numbered n) rest := by
  fun_induction Hex.digits n generalizing rest with
  | case1 n h => exact (unquote?_digit rest h 0).trans (by rw [Nat.mul_zero, Nat.zero_add])
  | case2 n h ih =>
    rw [List.append_assoc, ih, List.singleton_append,
      unquote?_digit rest (Nat.mod_lt n (by decide)), Nat.div_add_mod]

theorem unquote?_escape (c : Char) :
    unquote? .between (escape c ++ rest) = (unquote? .between rest).map (.cons c) := by
  unfold escape
  split_ifs with hquote hbackslash hnewline hreturn htab hnul hgraphic
  · subst hquote
    rfl
  · subst hbackslash
    rfl
  · subst hnewline
    rfl
  · subst hreturn
    rfl
  · subst htab
    rfl
  · subst hnul
    rfl
  · rw [List.singleton_append, unquote?, if_neg hquote, if_neg hbackslash]
  · have hnumber : unquote? (.numbered c.toNat) ('\x7d' :: rest) =
        (unquote? .between rest).map (.cons c) := by
      rw [unquote?, if_pos rfl, Char.ofNat_toNat]
    rw [← hnumber, ← unquote?_digits, List.cons_append, List.cons_append, List.cons_append,
      List.append_assoc]
    rfl

theorem unquote?_escapes (cs : List Char) :
    unquote? .between (cs.flatMap escape ++ '\x22' :: rest) = some ⟨cs, rest⟩ := by
  induction cs with
  | nil => rfl
  | cons c cs ih =>
    rw [List.flatMap_cons, List.append_assoc, unquote?_escape, ih]
    rfl

example : unquote? .between ['\x5c', '\x5c', 'n', '\x22', '!'] = some ⟨['\x5c', 'n'], ['!']⟩ := by
  decide

/-- The first quoted text in a line, as it was before it was quoted. -/
def quotedIn? (line : String) : Option String :=
  match line.toList.dropWhile (· ≠ '\x22') with
  | [] => none
  | _ :: rest => (unquote? .between rest).map fun u => String.ofList u.text

theorem quotedIn?_append {before : String} (h : '\x22' ∉ before.toList) (text after : String) :
    quotedIn? (before ++ (quote text ++ after)) = some text := by
  have hbefore : before.toList.dropWhile (· ≠ '\x22') = [] := by
    rw [List.dropWhile_eq_nil_iff]
    intro c hc
    exact decide_eq_true fun heq => h (heq ▸ hc)
  have hline : (before ++ (quote text ++ after)).toList.dropWhile (· ≠ '\x22') =
      '\x22' :: (text.toList.flatMap escape ++ '\x22' :: after.toList) := by
    rw [String.toList_append, String.toList_append, List.dropWhile_append, hbefore, quote,
      String.toList_ofList, quoteChars]
    simp
  rw [quotedIn?, hline]
  simp only [unquote?_escapes, Option.map_some, String.ofList_toList]

theorem quotedIn?_quote (text : String) : quotedIn? (quote text) = some text := by
  have h := @quotedIn?_append "" (by decide) text ""
  rw [String.append_empty, String.empty_append] at h
  exact h

end Unquoting

end SharedArchive.Text
