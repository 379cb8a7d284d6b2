import SharedArchive.Address
import SharedArchive.Payload
import SharedArchive.Symbol

/-!
The search for symbols. The read-write region is looked through word by word for one pattern, taken
to begin a record of the pattern, two words of bookkeeping and a pointer to a symbol in the
read-only region. The search is a guess: a record that is cut off, a pointer that leads elsewhere
and a symbol that does not fit in the file are passed over.
-/

namespace SharedArchive

structure SymbolMatch where
  regionOffset : Nat
  fileOffset : UInt64
  pointer : UInt64
  symbol : Symbol
deriving DecidableEq

def SymbolMatch.name (m : SymbolMatch) : String := m.symbol.body

/-- A search under way: what it looks for, through and into, and the next offset it will look at. -/
structure Scan where
  pattern : UInt64
  payload : ByteArray
  used : Nat
  fileOffset : UInt64
  target : Region
  translator : Translator
  cursor : Cursor
  next : Nat := 0

namespace Scan

def wordSize : Nat := 8

def pointerDistance : Nat := wordSize + 16

def start (pattern : UInt64) (source : ByteArray) (rw : Payload) (ro : Region)
    (translator : Translator) : Scan where
  pattern
  payload := rw.bytes
  used := rw.usedBytes.size
  fileOffset := rw.region.fileOffset
  target := ro
  translator
  cursor := { source }

def wordAt? (bytes : ByteArray) (offset : Nat) : Option UInt64 :=
  if offset + wordSize ≤ bytes.size then
    some (Field.u64.decode (bytes.extract offset (offset + wordSize)))
  else none

inductive Sighting
  | otherWord
  | cutOff
  | outside (pointer : UInt64)
  | unreadable (target : UInt64) (cause : Truncated)
  | found (m : SymbolMatch)

def Sighting.match? : Sighting → Option SymbolMatch
  | found m => some m
  | _ => none

def Sighting.event? (offset : Nat) : Sighting → Option Event
  | otherWord | cutOff => none
  | outside pointer => some (.pointerOutside pointer offset)
  | unreadable target cause => some (.symbolUnreadable target cause)
  | found m => some (.symbolFound m.name offset m.pointer)

structure Look where
  sighting : Sighting
  cursor : Cursor

def look (s : Scan) (offset : Nat) : Look :=
  if wordAt? s.payload offset ≠ some s.pattern then ⟨.otherWord, s.cursor⟩
  else match wordAt? s.payload (offset + pointerDistance) with
    | none => ⟨.cutOff, s.cursor⟩
    | some pointer =>
      match s.translator.resolve? s.target pointer with
      | none => ⟨.outside pointer, s.cursor⟩
      | some target =>
        let x := Symbol.read target s.cursor.source s.cursor.position
        let after := s.cursor.seek x.position
        match x.result with
        | .error cause => ⟨.unreadable target cause, after⟩
        | .ok symbol =>
          ⟨.found ⟨offset, s.fileOffset + UInt64.ofNat offset, pointer, symbol⟩, after⟩

def past (s : Scan) (l : Look) : Scan :=
  { s with cursor := l.cursor, next := s.next + wordSize }

/-- A match, or none if there is no other; the search from then on; and all events so far. -/
structure Found where
  match? : Option SymbolMatch
  after : Scan
  events : Array Event

def advance (s : Scan) (events : Array Event := #[]) : Found :=
  if s.next + wordSize ≤ s.used then
    let l := s.look s.next
    let events := events ++ (l.sighting.event? s.next).toArray
    match l.sighting.match? with
    | some m => ⟨some m, s.past l, events⟩
    | none => (s.past l).advance events
  else ⟨none, s, events⟩
termination_by s.used - s.next
decreasing_by simp only [past, wordSize] at *; omega

theorem advance_used (s : Scan) (events : Array Event) :
    (s.advance events).after.used = s.used := by
  fun_induction advance s events with
  | case1 => rfl
  | case2 _ _ _ _ _ _ ih => exact ih
  | case3 => rfl

theorem advance_next (s : Scan) (events : Array Event) {m : SymbolMatch}
    (hm : (s.advance events).match? = some m) :
    s.next < (s.advance events).after.next ∧ (s.advance events).after.next ≤ s.used := by
  fun_induction advance s events with
  | case1 => simp only [past, wordSize] at *; omega
  | case2 _ _ _ _ _ _ ih =>
    have := ih hm
    simp only [past, wordSize] at *
    omega
  | case3 => simp at hm

def collect (s : Scan) (found : Array SymbolMatch := #[]) (events : Array Event := #[]) :
    Array SymbolMatch × Array Event :=
  let x := s.advance events
  match _ : x.match? with
  | none => (found, x.events)
  | some m => x.after.collect (found.push m) x.events
termination_by s.used - s.next
decreasing_by
  have hn := advance_next s events ‹_›
  have hu := advance_used s events
  simp only [x] at *
  omega

def run {ε : Type} (s : Scan) : Reader ε (List SymbolMatch) := do
  let (found, events) := s.collect
  Reader.emitAll events.toList
  return found.toList

end Scan

end SharedArchive
