import SharedArchive.Bytes.Field

/-!
Layouts: the fields of a record in file order, gaps included. A format adds how the record is made
of the values, so that one way of reading serves every record.
-/

namespace SharedArchive

abbrev Layout := List Field

namespace Layout

@[reducible] def Values : Layout → Type
  | [] => Unit
  | f :: fs => f.Value × Values fs

def size : Layout → Nat
  | [] => 0
  | f :: fs => f.width + size fs

theorem size_append (l m : Layout) : size (l ++ m) = l.size + m.size := by
  induction l with
  | nil => simp [size]
  | cons f fs ih => simp [size, ih, Nat.add_assoc]

def decode : (l : Layout) → ByteArray → Nat → l.Values
  | [], _, _ => ()
  | f :: fs, source, position =>
    (f.decode (source.extract position (position + f.width)),
      decode fs source (position + f.width))

end Layout

structure Format (α : Type) where
  layout : Layout
  build : layout.Values → α

namespace Format

variable {α : Type}

def size (f : Format α) : Nat := f.layout.size

def decode (f : Format α) (source : ByteArray) (position : Nat) : α :=
  f.build (f.layout.decode source position)

end Format

end SharedArchive
