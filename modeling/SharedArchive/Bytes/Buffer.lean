import SharedArchive.Bytes.Field

/-!
Reading fields off a buffer. Whatever a buffer is made of, it can say how many bytes remain, show
the next of them and move past them; a field is read only if it fits, and a read that does not fit
consumes nothing. Three buffers are given: a cursor over a whole source, a slice that shrinks as it
is read, and a window onto storage it shares.
-/

namespace SharedArchive

structure Truncated where
  needed : Nat
  remaining : Nat
  position : Nat
deriving DecidableEq

def Truncated.message (t : Truncated) : String :=
  s!"out of bytes: needed {t.needed} at position {t.position}, only {t.remaining} remaining"

/-- What a buffer must answer: how many bytes are left, the next so many of them, the buffer past
so many of them, and the position to report, which is zero where none is known. -/
class Buffer (β : Type) where
  remaining : β → Nat
  front : β → Nat → ByteArray
  advance : β → Nat → β
  position : β → Nat

namespace Buffer

variable {β : Type} [Buffer β]

def ensure (b : β) (needed : Nat) : Except Truncated Unit :=
  if needed ≤ remaining b then .ok () else .error ⟨needed, remaining b, position b⟩

def read (b : β) (f : Field) : Except Truncated (f.Value × β) :=
  match ensure b f.width with
  | .ok () => .ok (f.decode (front b f.width), advance b f.width)
  | .error t => .error t

theorem read_fits {b : β} {f : Field} (h : f.width ≤ remaining b) :
    read b f = .ok (f.decode (front b f.width), advance b f.width) := by
  simp [read, ensure, h]

theorem read_truncated {b : β} {f : Field} (h : remaining b < f.width) :
    read b f = .error ⟨f.width, remaining b, position b⟩ := by
  simp [read, ensure, Nat.not_le.2 h]

inductive Step
  | read (f : Field)
  | ensure (needed : Nat)

structure Trace (β : Type) where
  result : Except Truncated (Option (Sigma Field.Value))
  after : β

def Step.run (b : β) : Step → Trace β
  | .read f =>
    match Buffer.read b f with
    | .ok (v, after) => ⟨.ok (some ⟨f, v⟩), after⟩
    | .error t => ⟨.error t, b⟩
  | .ensure needed =>
    match Buffer.ensure b needed with
    | .ok () => ⟨.ok none, b⟩
    | .error t => ⟨.error t, b⟩

def run (b : β) : List Step → List (Trace β)
  | [] => []
  | s :: rest => let t := s.run b; t :: run t.after rest

end Buffer

/-- A position in a source. It may lie past the end; nothing remains there. -/
structure Cursor where
  source : ByteArray
  position : Nat := 0

def Cursor.size (c : Cursor) : Nat := c.source.size

def Cursor.remaining (c : Cursor) : Nat := c.source.size - c.position

def Cursor.seek (c : Cursor) (target : Nat) : Cursor := { c with position := target }

instance : Buffer Cursor where
  remaining := Cursor.remaining
  front c n := c.source.extract c.position (c.position + n)
  advance c n := c.seek (c.position + n)
  position := Cursor.position

structure Slice where
  rest : ByteArray

instance : Buffer Slice where
  remaining s := s.rest.size
  front s n := s.rest.extract 0 n
  advance s n := ⟨s.rest.extract n s.rest.size⟩
  position _ := 0

structure Window where
  storage : ByteArray
  start : Nat
  stop : Nat
  stop_le : stop ≤ storage.size

def Window.whole (storage : ByteArray) : Window := ⟨storage, 0, storage.size, Nat.le_refl _⟩

instance : Buffer Window where
  remaining w := w.stop - w.start
  front w n := w.storage.extract w.start (w.start + n)
  advance w n := { w with start := w.start + n }
  position _ := 0

end SharedArchive
