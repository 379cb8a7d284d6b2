import Mathlib
import SharedArchive.Proofs.EncodedText

/-!
What decoding takes bytes for. The decoder cuts them into pieces of which each gives one character:
the encoding of a character gives that character, and one to three bytes that were given up give the
replacement. A NUL is only ever given by the byte zero, and that byte always begins a new piece,
even where it breaks a sequence off. So decoding can be cut at any NUL.
-/

namespace SharedArchive.Text

def tailBytes : Nat → Nat → List UInt8
  | 0, _ => []
  | n + 1, v => UInt8.ofNat (v / 64 ^ n % 64 + 128) :: tailBytes n v

theorem tailBytes_succ {n v point : Nat} {b : UInt8} (hlow : 128 ≤ b.toNat) (hhigh : b.toNat ≤ 191)
    (hv : v / 64 ^ n = 64 * point + (b.toNat - 128)) :
    tailBytes (n + 1) v = b :: tailBytes n v := by
  have hbits : v / 64 ^ n % 64 + 128 = b.toNat := by omega
  rw [tailBytes, hbits, UInt8.ofNat_toNat]

section Encodings

variable {v : Nat}

theorem toNat_ofNat_of_isValidChar (h : v.isValidChar) : (Char.ofNat v).toNat = v := by
  rw [Char.toNat_ofNat, if_pos h]

theorem encode_one (h : v < 128) : String.utf8EncodeChar (Char.ofNat v) = [UInt8.ofNat v] := by
  have hvalid : v.isValidChar := Or.inl (by omega)
  have hv : (Char.ofNat v).val.toNat = v := toNat_ofNat_of_isValidChar hvalid
  simp only [String.utf8EncodeChar, hv]
  rw [if_pos (by omega)]

theorem encode_two (hlow : 128 ≤ v) (hhigh : v < 2048) :
    String.utf8EncodeChar (Char.ofNat v) = UInt8.ofNat (v / 64 + 192) :: tailBytes 1 v := by
  have hvalid : v.isValidChar := Or.inl (by omega)
  have hv : (Char.ofNat v).val.toNat = v := toNat_ofNat_of_isValidChar hvalid
  have hfirst : v / 64 % 32 = v / 64 := by omega
  simp only [String.utf8EncodeChar, hv]
  rw [if_neg (by omega), if_pos (by omega), hfirst]
  simp [tailBytes]

theorem encode_three (hlow : 2048 ≤ v) (hhigh : v < 65536) (hvalid : v.isValidChar) :
    String.utf8EncodeChar (Char.ofNat v) = UInt8.ofNat (v / 4096 + 224) :: tailBytes 2 v := by
  have hv : (Char.ofNat v).val.toNat = v := toNat_ofNat_of_isValidChar hvalid
  have hfirst : v / 4096 % 16 = v / 4096 := by omega
  simp only [String.utf8EncodeChar, hv]
  rw [if_neg (by omega), if_neg (by omega), if_pos (by omega), hfirst]
  simp [tailBytes]

theorem encode_four (hlow : 65536 ≤ v) (hvalid : v.isValidChar) :
    String.utf8EncodeChar (Char.ofNat v) = UInt8.ofNat (v / 262144 + 240) :: tailBytes 3 v := by
  have hv : (Char.ofNat v).val.toNat = v := toNat_ofNat_of_isValidChar hvalid
  have hfirst : v / 262144 % 8 = v / 262144 := by
    simp only [Nat.isValidChar] at hvalid
    omega
  simp only [String.utf8EncodeChar, hv]
  rw [if_neg (by omega), if_neg (by omega), if_neg (by omega), hfirst]
  simp [tailBytes]

theorem zero_mem_utf8EncodeChar_iff (c : Char) : 0 ∈ String.utf8EncodeChar c ↔ c = '\x00' := by
  have hzero {n : Nat} (h : n < 256) : UInt8.ofNat n = 0 ↔ n = 0 := by
    rw [← UInt8.toNat_inj, UInt8.toNat_ofNat_of_lt' h]
    rfl
  have hnul : c = '\x00' ↔ c.val.toNat = 0 := by
    rw [← Char.toNat_inj]
    rfl
  rw [hnul]
  simp only [String.utf8EncodeChar]
  split_ifs with h1 h2 h3
  · rw [List.mem_singleton, eq_comm, hzero (by omega)]
  all_goals
    simp only [List.mem_cons, List.not_mem_nil, or_false, eq_comm (a := (0 : UInt8))]
    repeat rw [hzero (by omega)]
    omega

end Encodings

namespace Pending

def Reaches (p : Pending) (v : Nat) : Prop :=
  64 * p.point + (p.least.toNat - 128) ≤ v / 64 ^ (p.lacking - 1) ∧
    v / 64 ^ (p.lacking - 1) ≤ 64 * p.point + (p.greatest.toNat - 128)

theorem reaches_open_iff {lacking point v : Nat} :
    Reaches ⟨lacking, 0x80, 0xbf, point⟩ v ↔
      64 * point ≤ v / 64 ^ (lacking - 1) ∧ v / 64 ^ (lacking - 1) ≤ 64 * point + 63 := by
  simp [Reaches]

/-- The sequence began with the bytes `taken`, and whatever it becomes is a character whose encoding
begins with them. -/
structure Begun (p : Pending) (taken : List UInt8) : Prop where
  lacking_pos : 0 < p.lacking
  least_ge : 128 ≤ p.least.toNat
  greatest_le : p.greatest.toNat ≤ 191
  taken_ne_nil : taken ≠ []
  length_le : taken.length + p.lacking ≤ 4
  zero_notMem : 0 ∉ taken
  becomes : ∀ v, p.Reaches v →
    v.isValidChar ∧ String.utf8EncodeChar (Char.ofNat v) = taken ++ tailBytes p.lacking v

namespace Begun

section Openings

variable {b least greatest : UInt8} {point : Nat}

theorem zero_notMem_singleton (h : 128 ≤ b.toNat) : 0 ∉ [b] := by
  intro hmem
  obtain rfl := List.mem_singleton.1 hmem
  exact absurd h (by decide)

theorem two (hb : b.toNat = point + 192) (hlow : 2 ≤ point) (hhigh : point < 32) :
    Begun ⟨1, 0x80, 0xbf, point⟩ [b] where
  lacking_pos := Nat.one_pos
  least_ge := Nat.le_refl 128
  greatest_le := Nat.le_refl 191
  taken_ne_nil := List.cons_ne_nil _ _
  length_le := by simp
  zero_notMem := zero_notMem_singleton (by omega)
  becomes v h := by
    have hreach := reaches_open_iff.1 h
    rw [Nat.sub_self, pow_zero, Nat.div_one] at hreach
    have hfirst : v / 64 + 192 = b.toNat := by omega
    refine ⟨Or.inl (by omega), ?_⟩
    rw [encode_two (by omega) (by omega), hfirst, UInt8.ofNat_toNat]
    rfl

theorem three (hb : b.toNat = point + 224) (hpoint : point < 16) (hleast : 128 ≤ least.toNat)
    (hgreatest : greatest.toNat ≤ 191) (hshort : point = 0 → 160 ≤ least.toNat)
    (hsurrogate : point = 13 → greatest.toNat ≤ 159) :
    Begun ⟨2, least, greatest, point⟩ [b] where
  lacking_pos := Nat.two_pos
  least_ge := hleast
  greatest_le := hgreatest
  taken_ne_nil := List.cons_ne_nil _ _
  length_le := by simp
  zero_notMem := zero_notMem_singleton (by omega)
  becomes v h := by
    have hreach : 64 * point + (least.toNat - 128) ≤ v / 64 ^ 1 ∧
        v / 64 ^ 1 ≤ 64 * point + (greatest.toNat - 128) := h
    have hfirst : v / 4096 + 224 = b.toNat := by omega
    have hvalid : v.isValidChar := by
      simp only [Nat.isValidChar]
      omega
    refine ⟨hvalid, ?_⟩
    rw [encode_three (by omega) (by omega) hvalid, hfirst, UInt8.ofNat_toNat]
    rfl

theorem four (hb : b.toNat = point + 240) (hpoint : point < 5) (hleast : 128 ≤ least.toNat)
    (hgreatest : greatest.toNat ≤ 191) (hshort : point = 0 → 144 ≤ least.toNat)
    (hlarge : point = 4 → greatest.toNat ≤ 143) :
    Begun ⟨3, least, greatest, point⟩ [b] where
  lacking_pos := Nat.zero_lt_succ 2
  least_ge := hleast
  greatest_le := hgreatest
  taken_ne_nil := List.cons_ne_nil _ _
  length_le := by simp
  zero_notMem := zero_notMem_singleton (by omega)
  becomes v h := by
    have hreach : 64 * point + (least.toNat - 128) ≤ v / 64 ^ 2 ∧
        v / 64 ^ 2 ≤ 64 * point + (greatest.toNat - 128) := h
    have hfirst : v / 262144 + 240 = b.toNat := by omega
    have hvalid : v.isValidChar := by
      simp only [Nat.isValidChar]
      omega
    refine ⟨hvalid, ?_⟩
    rw [encode_four (by omega) hvalid, hfirst, UInt8.ofNat_toNat]
    rfl

end Openings

section Continuations

variable {p : Pending} {taken : List UInt8} {b : UInt8} {v : Nat}

theorem accepts (h : p.Begun taken) (hleast : p.least ≤ b) (hgreatest : b ≤ p.greatest)
    (hv : v / 64 ^ (p.lacking - 1) = 64 * p.point + (b.toNat - 128)) :
    v.isValidChar ∧
      String.utf8EncodeChar (Char.ofNat v) = taken ++ [b] ++ tailBytes (p.lacking - 1) v := by
  have hlow := h.least_ge
  have hhigh := h.greatest_le
  rw [UInt8.le_iff_toNat_le] at hleast hgreatest
  have hreach : p.Reaches v := by
    constructor <;> omega
  obtain ⟨hvalid, hbytes⟩ := h.becomes v hreach
  have hlacking : p.lacking = p.lacking - 1 + 1 := (Nat.sub_add_cancel h.lacking_pos).symm
  rw [hlacking, tailBytes_succ (by omega) (by omega) hv] at hbytes
  refine ⟨hvalid, ?_⟩
  rw [hbytes, List.append_assoc, List.singleton_append]

theorem next (h : p.Begun taken) (hleast : p.least ≤ b) (hgreatest : b ≤ p.greatest)
    (hl : p.lacking ≠ 1) :
    Begun ⟨p.lacking - 1, 0x80, 0xbf, 64 * p.point + (b.toNat - 128)⟩ (taken ++ [b]) where
  lacking_pos := by
    have hpos := h.lacking_pos
    change 0 < p.lacking - 1
    omega
  least_ge := Nat.le_refl 128
  greatest_le := Nat.le_refl 191
  taken_ne_nil := by simp
  length_le := by
    have hpos := h.lacking_pos
    have hle := h.length_le
    simp only [List.length_append, List.length_singleton]
    omega
  zero_notMem := by
    rw [UInt8.le_iff_toNat_le] at hleast
    rw [List.mem_append, not_or]
    exact ⟨h.zero_notMem, zero_notMem_singleton (h.least_ge.trans hleast)⟩
  becomes v hv := by
    have hreach := reaches_open_iff.1 hv
    have hpos := h.lacking_pos
    -- a division by 64 more takes away this byte's bits too
    have hpow : p.lacking - 1 = p.lacking - 1 - 1 + 1 := by omega
    have hdiv : v / 64 ^ (p.lacking - 1) = 64 * p.point + (b.toNat - 128) := by
      rw [hpow, pow_succ, ← Nat.div_div_eq_div_mul]
      omega
    exact h.accepts hleast hgreatest hdiv

theorem last (h : p.Begun taken) (hleast : p.least ≤ b) (hgreatest : b ≤ p.greatest)
    (hl : p.lacking = 1) :
    String.utf8EncodeChar (Char.ofNat (64 * p.point + (b.toNat - 128))) = taken ++ [b] := by
  have hdiv : (64 * p.point + (b.toNat - 128)) / 64 ^ (p.lacking - 1) =
      64 * p.point + (b.toNat - 128) := by
    rw [hl, Nat.sub_self, pow_zero, Nat.div_one]
  have hbytes := (h.accepts hleast hgreatest hdiv).2
  rw [hl] at hbytes
  exact hbytes.trans (List.append_nil _)

end Continuations

end Begun

end Pending

namespace Opening

variable {b : UInt8}

theorem encode_of_whole {c : Char} (h : ofByte b = .whole c) : String.utf8EncodeChar c = [b] := by
  rw [ofByte] at h
  split_ifs at h with hb
  cases h
  rw [UInt8.lt_iff_toNat_lt] at hb
  rw [encode_one hb, UInt8.ofNat_toNat]

theorem begun_of_partly {p : Pending} (h : ofByte b = .partly p) : p.Begun [b] := by
  simp only [ofByte, UInt8.lt_iff_toNat_lt, ← UInt8.toNat_inj, UInt8.reduceToNat] at h
  split_ifs at h with h80 hc2 he0 hE0 hed hf0 hF0 hf4 hF4 <;> cases h
  · exact .two (by omega) (by omega) (by omega)
  · exact .three (by omega) (by omega) (by decide) (by decide) (by decide) (by decide)
  · exact .three (by omega) (by omega) (by decide) (by decide) (by decide) (by decide)
  · exact .three (by omega) (by omega) (by decide) (by decide) (by omega) (by omega)
  · exact .four (by omega) (by omega) (by decide) (by decide) (by decide) (by decide)
  · exact .four (by omega) (by omega) (by decide) (by decide) (by omega) (by omega)
  · exact .four (by omega) (by omega) (by decide) (by decide) (by decide) (by decide)

theorem ne_zero_of_impossible (h : ofByte b = .impossible) : b ≠ 0 := by
  rintro rfl
  cases h

end Opening

/-- Bytes that are decoded to one character: those of a character, or some that were given up. -/
inductive Piece
  | character (c : Char)
  | broken (bytes : List UInt8) (ne_nil : bytes ≠ []) (length_le : bytes.length ≤ 3)
      (zero_notMem : 0 ∉ bytes)

namespace Piece

def bytes : Piece → List UInt8
  | character c => String.utf8EncodeChar c
  | broken bytes .. => bytes

def char : Piece → Char
  | character c => c
  | broken .. => replacement

theorem length_le_utf8Size (piece : Piece) : piece.bytes.length ≤ piece.char.utf8Size := by
  cases piece with
  | character c => exact (String.length_utf8EncodeChar c).le
  | broken bytes ne_nil length_le zero_notMem => exact length_le

theorem utf8Size_le_length (piece : Piece) : piece.char.utf8Size ≤ 3 * piece.bytes.length := by
  cases piece with
  | character c =>
    have hlength : (String.utf8EncodeChar c).length = c.utf8Size := String.length_utf8EncodeChar c
    change c.utf8Size ≤ 3 * (String.utf8EncodeChar c).length
    omega
  | broken bytes ne_nil length_le zero_notMem =>
    have hpos : 0 < bytes.length := List.length_pos_of_ne_nil ne_nil
    change 3 ≤ 3 * bytes.length
    omega

theorem bytes_of_char_eq_nul {piece : Piece} (h : piece.char = '\x00') : piece.bytes = [0] := by
  cases piece with
  | character c =>
    obtain rfl : c = '\x00' := h
    rfl
  | broken bytes ne_nil length_le zero_notMem =>
    have hne : replacement ≠ '\x00' := by decide
    exact absurd h hne

theorem char_eq_nul_iff (piece : Piece) : piece.char = '\x00' ↔ 0 ∈ piece.bytes := by
  constructor
  · intro h
    rw [bytes_of_char_eq_nul h]
    exact List.mem_singleton_self 0
  · intro h
    cases piece with
    | character c => exact (zero_mem_utf8EncodeChar_iff c).1 h
    | broken bytes ne_nil length_le zero_notMem => exact absurd h zero_notMem

end Piece

def Cuts (bytes : List UInt8) (text : List Char) : Prop :=
  ∃ pieces : List Piece, pieces.flatMap Piece.bytes = bytes ∧ pieces.map Piece.char = text

theorem Cuts.push {bytes : List UInt8} {text : Array Char} (h : Cuts bytes text.toList)
    (piece : Piece) : Cuts (bytes ++ piece.bytes) (text.push piece.char).toList := by
  obtain ⟨pieces, rfl, hchars⟩ := h
  refine ⟨pieces ++ [piece], ?_, ?_⟩
  · simp
  · simp [hchars]

namespace Decoder

/-- What a decoder may be after some bytes: it has cut them into pieces, but for those of a sequence
that has begun. -/
inductive After : List UInt8 → Decoder → Prop
  | between {bytes : List UInt8} {text : Array Char} (h : Cuts bytes text.toList) :
      After bytes ⟨text, none⟩
  | within {bytes taken : List UInt8} {text : Array Char} {p : Pending}
      (h : Cuts bytes text.toList) (begun : p.Begun taken) : After (bytes ++ taken) ⟨text, some p⟩

theorem after_nil : After [] {} := .between ⟨[], rfl, rfl⟩

theorem after_fresh {bytes : List UInt8} {text : Array Char} (h : Cuts bytes text.toList)
    (b : UInt8) : After (bytes ++ [b]) (fresh text b) := by
  rw [fresh]
  cases hopening : Opening.ofByte b with
  | whole c =>
    rw [← Opening.encode_of_whole hopening]
    exact .between (h.push (.character c))
  | partly p => exact .within h (Opening.begun_of_partly hopening)
  | impossible =>
    have hne : b ≠ 0 := Opening.ne_zero_of_impossible hopening
    exact .between (h.push (.broken [b] (List.cons_ne_nil _ _) (by simp) (by simpa using hne.symm)))

theorem cuts_broken {bytes taken : List UInt8} {text : Array Char} {p : Pending}
    (h : Cuts bytes text.toList) (begun : p.Begun taken) :
    Cuts (bytes ++ taken) (text.push replacement).toList := by
  have hle : taken.length ≤ 3 := by
    have hpos := begun.lacking_pos
    have hlength := begun.length_le
    omega
  exact h.push (.broken taken begun.taken_ne_nil hle begun.zero_notMem)

section Feeding

variable {bytes : List UInt8} {d : Decoder}

theorem After.feed (h : After bytes d) (b : UInt8) : After (bytes ++ [b]) (d.feed b) := by
  cases h with
  | between h => exact after_fresh h b
  | @within bytes taken text p h begun =>
    -- the byte is the sequence's last, another of it, or no part of it
    simp only [Decoder.feed]
    split_ifs with hb hl
    · have hpiece := h.push (.character (Char.ofNat (64 * p.point + (b.toNat - 0x80))))
      have hbytes := begun.last hb.1 hb.2 hl
      rw [Piece.bytes, hbytes, ← List.append_assoc] at hpiece
      exact .between hpiece
    · rw [List.append_assoc]
      exact .within h (begun.next hb.1 hb.2 hl)
    · exact after_fresh (cuts_broken h begun) b

theorem After.foldl (h : After bytes d) (more : List UInt8) :
    After (bytes ++ more) (more.foldl Decoder.feed d) := by
  induction more generalizing bytes d with
  | nil => simpa using h
  | cons b rest ih =>
    have hstep := ih (h.feed b)
    rwa [List.append_assoc, List.singleton_append] at hstep

theorem After.finish (h : After bytes d) : Cuts bytes d.finish.toList := by
  cases h with
  | between h => exact h
  | within h begun => exact cuts_broken h begun

theorem After.feed_zero (h : After bytes d) : d.feed 0 = ⟨d.finish.push '\x00', none⟩ := by
  cases h with
  | between h => rfl
  | @within bytes taken text p h begun =>
    have hout : ¬ (p.least ≤ 0 ∧ 0 ≤ p.greatest) := by
      rintro ⟨hleast, -⟩
      rw [UInt8.le_iff_toNat_le] at hleast
      have hlow := begun.least_ge.trans hleast
      exact absurd hlow (by decide)
    simp only [Decoder.feed]
    rw [if_neg hout]
    rfl

end Feeding

end Decoder

theorem cuts_lossyChars (bytes : List UInt8) : Cuts bytes (lossyChars bytes) :=
  (Decoder.after_nil.foldl bytes).finish

theorem nul_mem_lossyChars_iff (bytes : List UInt8) : '\x00' ∈ lossyChars bytes ↔ 0 ∈ bytes := by
  obtain ⟨pieces, hbytes, hchars⟩ := cuts_lossyChars bytes
  rw [← hchars, List.mem_map]
  subst hbytes
  rw [List.mem_flatMap]
  simp only [Piece.char_eq_nul_iff]

theorem getLast?_of_lossyChars {bytes : List UInt8}
    (h : (lossyChars bytes).getLast? = some '\x00') :
    bytes.getLast? = some 0 := by
  obtain ⟨pieces, rfl, hchars⟩ := cuts_lossyChars bytes
  rw [← hchars] at h
  obtain ⟨piece, hlast, hnul⟩ := Option.map_eq_some_iff.1 (List.getLast?_map.symm.trans h)
  obtain ⟨before, rfl⟩ := List.getLast?_eq_some_iff.1 hlast
  simp [Piece.bytes_of_char_eq_nul hnul]

/-- Decoding can be cut at a NUL: what stands before it and what comes after it are decoded as if
they stood alone. -/
theorem lossyChars_nul (before after : List UInt8) :
    lossyChars (before ++ 0 :: after) = lossyChars before ++ '\x00' :: lossyChars after := by
  have hzero := (Decoder.after_nil.foldl before).feed_zero
  rw [lossyChars, List.foldl_append, List.foldl_cons, hzero]
  have happend := Decoder.decode_append
    ((before.foldl Decoder.feed {}).finish.push '\x00') {} after
  rw [Array.append_empty] at happend
  rw [happend, lossyChars, lossyChars]
  simp

end SharedArchive.Text
