/-!
Hexadecimal numerals. Writing uses lower case and as many digits as the number needs, or zeros in
front up to a width. Reading takes one optional mark `0x` or `0X`, one optional plus sign and digits
of either case, and refuses a number at its first character that spoils it.
-/

namespace SharedArchive.Text.Hex

def digit (n : Nat) : Char :=
  if n < 10 then Char.ofNat (0x30 + n) else Char.ofNat (0x57 + n)

def digits (n : Nat) : List Char :=
  if n < 16 then [digit n] else digits (n / 16) ++ [digit (n % 16)]

def plain (n : Nat) : String := String.ofList (digits n)

def marked (n : Nat) : String := "0x" ++ plain n

def padded (width n : Nat) : String :=
  String.ofList (List.replicate (width - (digits n).length) '0' ++ digits n)

inductive Fault
  | empty
  | invalidDigit
  | tooLarge
deriving DecidableEq

def Fault.message : Fault → String
  | empty => "cannot parse integer from empty string"
  | invalidDigit => "invalid digit found in string"
  | tooLarge => "number too large to fit in target type"

def digit? (c : Char) : Option Nat :=
  let n := c.toNat
  if 0x30 ≤ n ∧ n < 0x3a then some (n - 0x30)
  else if 0x41 ≤ n ∧ n < 0x47 then some (n - 0x37)
  else if 0x61 ≤ n ∧ n < 0x67 then some (n - 0x57)
  else none

def accumulate (limit : Nat) : Nat → List Char → Except Fault Nat
  | total, [] => .ok total
  | total, c :: rest =>
    match digit? c with
    | none => .error .invalidDigit
    | some d =>
      if 16 * total + d < limit then accumulate limit (16 * total + d) rest else .error .tooLarge

def stripMark : List Char → List Char
  | '0' :: 'x' :: rest => rest
  | '0' :: 'X' :: rest => rest
  | cs => cs

/-- Reads a numeral without its mark. A sign needs a digit after it, and there is no minus. -/
def readUnmarked (limit : Nat) : List Char → Except Fault Nat
  | [] => .error .empty
  | ['+'] => .error .invalidDigit
  | '+' :: rest => accumulate limit 0 rest
  | cs => accumulate limit 0 cs

def read (limit : Nat) (text : String) : Except Fault Nat :=
  readUnmarked limit (stripMark text.toList)

theorem accumulate_lt {limit total : Nat} {cs : List Char} {n : Nat} (ht : total < limit)
    (h : accumulate limit total cs = .ok n) : n < limit := by
  induction cs generalizing total with
  | nil => simp only [accumulate, Except.ok.injEq] at h; omega
  | cons c rest ih =>
    simp only [accumulate] at h
    split at h
    · cases h
    · split at h
      · exact ih ‹_› h
      · cases h

theorem read_lt {limit : Nat} {text : String} {n : Nat} (hp : 0 < limit)
    (h : read limit text = .ok n) : n < limit := by
  simp only [read] at h
  generalize stripMark text.toList = cs at h
  unfold readUnmarked at h
  split at h
  · cases h
  · cases h
  · exact accumulate_lt hp h
  · exact accumulate_lt hp h

end SharedArchive.Text.Hex
