/-!
Decoding of UTF-8 that always gives text. Overlong forms, surrogates and code points past U+10FFFF
are no text. A sequence that breaks off, or a byte that can begin none, becomes one U+FFFD, and the
byte that broke a sequence off is looked at anew.
-/

namespace SharedArchive.Text

def replacement : Char := '\ufffd'

/-- A sequence that has begun: how many bytes it still lacks, the range in which the next of them
must lie, and the code point as far as it is known. -/
structure Pending where
  lacking : Nat
  least : UInt8
  greatest : UInt8
  point : Nat
deriving DecidableEq

inductive Opening
  | whole (c : Char)
  | partly (p : Pending)
  | impossible

def Opening.ofByte (b : UInt8) : Opening :=
  if b < 0x80 then .whole (Char.ofNat b.toNat)
  else if b < 0xc2 then .impossible
  else if b < 0xe0 then .partly ⟨1, 0x80, 0xbf, b.toNat - 0xc0⟩
  else if b = 0xe0 then .partly ⟨2, 0xa0, 0xbf, 0⟩
  else if b = 0xed then .partly ⟨2, 0x80, 0x9f, 0xd⟩
  else if b < 0xf0 then .partly ⟨2, 0x80, 0xbf, b.toNat - 0xe0⟩
  else if b = 0xf0 then .partly ⟨3, 0x90, 0xbf, 0⟩
  else if b < 0xf4 then .partly ⟨3, 0x80, 0xbf, b.toNat - 0xf0⟩
  else if b = 0xf4 then .partly ⟨3, 0x80, 0x8f, 4⟩
  else .impossible

structure Decoder where
  text : Array Char := #[]
  pending : Option Pending := none

namespace Decoder

def fresh (text : Array Char) (b : UInt8) : Decoder :=
  match Opening.ofByte b with
  | .whole c => ⟨text.push c, none⟩
  | .partly p => ⟨text, some p⟩
  | .impossible => ⟨text.push replacement, none⟩

def feed (d : Decoder) (b : UInt8) : Decoder :=
  match d.pending with
  | none => fresh d.text b
  | some p =>
    if p.least ≤ b ∧ b ≤ p.greatest then
      let point := 64 * p.point + (b.toNat - 0x80)
      if p.lacking = 1 then ⟨d.text.push (Char.ofNat point), none⟩
      else ⟨d.text, some ⟨p.lacking - 1, 0x80, 0xbf, point⟩⟩
    else fresh (d.text.push replacement) b

def finish (d : Decoder) : Array Char :=
  match d.pending with
  | none => d.text
  | some _ => d.text.push replacement

theorem feed_append (t : Array Char) (d : Decoder) (b : UInt8) :
    feed ⟨t ++ d.text, d.pending⟩ b = ⟨t ++ (d.feed b).text, (d.feed b).pending⟩ := by
  simp only [feed, fresh]
  cases d.pending with
  | none => cases Opening.ofByte b <;> simp [Array.push_append]
  | some p =>
    by_cases hb : p.least ≤ b ∧ b ≤ p.greatest
    · by_cases hl : p.lacking = 1 <;> simp [hb, hl, Array.push_append]
    · cases Opening.ofByte b <;> simp [hb, Array.push_append]

theorem decode_append (t : Array Char) (d : Decoder) (bytes : List UInt8) :
    (bytes.foldl feed ⟨t ++ d.text, d.pending⟩).finish = t ++ (bytes.foldl feed d).finish := by
  induction bytes generalizing d with
  | nil =>
    simp only [List.foldl_nil, finish]
    cases d.pending <;> simp [Array.push_append]
  | cons b rest ih =>
    simp only [List.foldl_cons]
    rw [feed_append, ih]

end Decoder

def lossyChars (bytes : List UInt8) : List Char :=
  (bytes.foldl Decoder.feed {}).finish.toList

def lossy (bytes : ByteArray) : String := String.ofList (lossyChars bytes.data.toList)

def trimNuls (text : String) : String :=
  String.ofList (text.toList.reverse.dropWhile (· == '\x00')).reverse

end SharedArchive.Text
