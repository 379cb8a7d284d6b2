import SharedArchive.Bytes.Layout
import SharedArchive.Event

/-!
Readers. A reader looks at a source from a position on; it answers or fails, stops at some position
and leaves events behind, also when it fails. The source is never its to change.
-/

namespace SharedArchive

structure Reading (ε α : Type) where
  result : Except ε α
  position : Nat
  events : List Event

def Reader (ε α : Type) : Type := ByteArray → Nat → Reading ε α

namespace Reader

variable {ε α β : Type}

instance : Monad (Reader ε) where
  pure a := fun _ position => ⟨.ok a, position, []⟩
  bind r next := fun source position =>
    match r source position with
    | ⟨.ok a, middle, first⟩ =>
      let rest := next a source middle
      ⟨rest.result, rest.position, first ++ rest.events⟩
    | ⟨.error e, middle, first⟩ => ⟨.error e, middle, first⟩

def fail (e : ε) : Reader ε α := fun _ position => ⟨.error e, position, []⟩

def emit (e : Event) : Reader ε Unit := fun _ position => ⟨.ok (), position, [e]⟩

def emitAll (es : List Event) : Reader ε Unit := fun _ position => ⟨.ok (), position, es⟩

def size : Reader ε Nat := fun source position => ⟨.ok source.size, position, []⟩

def cursor : Reader ε Cursor := fun source position => ⟨.ok ⟨source, position⟩, position, []⟩

def seek (target : Nat) : Reader ε Unit := fun _ _ => ⟨.ok (), target, []⟩

def aside (r : Reader ε α) : Reader ε α := fun source position =>
  { r source position with position }

def mapError {δ : Type} (f : ε → δ) (r : Reader ε α) : Reader δ α := fun source position =>
  let x := r source position
  ⟨x.result.mapError f, x.position, x.events⟩

def field (f : Field) : Reader Truncated f.Value := fun source position =>
  match Buffer.read (Cursor.mk source position) f with
  | .ok (v, after) => ⟨.ok v, after.position, []⟩
  | .error t => ⟨.error t, position, []⟩

def values : (l : Layout) → Reader Truncated l.Values
  | [] => pure ()
  | f :: fs => do
    let v ← field f
    let vs ← values fs
    return (v, vs)

def record (f : Format α) : Reader Truncated α := do
  let vs ← values f.layout
  return f.build vs

theorem pure_reading (a : α) (source : ByteArray) (position : Nat) :
    (pure a : Reader ε α) source position = ⟨.ok a, position, []⟩ := rfl

theorem bind_ok {r : Reader ε α} {next : α → Reader ε β} {source : ByteArray} {p q : Nat} {a : α}
    {es : List Event} (h : r source p = ⟨.ok a, q, es⟩) :
    (r >>= next) source p =
      ⟨(next a source q).result, (next a source q).position, es ++ (next a source q).events⟩ := by
  simp only [bind, h]

theorem bind_error {r : Reader ε α} {next : α → Reader ε β} {source : ByteArray} {p q : Nat}
    {e : ε} {es : List Event} (h : r source p = ⟨.error e, q, es⟩) :
    (r >>= next) source p = ⟨.error e, q, es⟩ := by
  simp only [bind, h]

theorem field_fits {source : ByteArray} {p : Nat} {f : Field} (h : f.width ≤ source.size - p) :
    field f source p = ⟨.ok (f.decode (source.extract p (p + f.width))), p + f.width, []⟩ := by
  have hr := Buffer.read_fits (b := Cursor.mk source p) h
  simp only [field, hr]
  rfl

theorem field_truncated {source : ByteArray} {p : Nat} {f : Field} (h : source.size - p < f.width) :
    field f source p = ⟨.error ⟨f.width, source.size - p, p⟩, p, []⟩ := by
  have hr := Buffer.read_truncated (b := Cursor.mk source p) h
  simp only [field, hr]
  rfl

end Reader

structure Outcome (ε α : Type) where
  result : Except ε α
  events : List Event

def Reader.outcome {ε α : Type} (r : Reader ε α) (source : ByteArray) : Outcome ε α :=
  let x := r source 0
  ⟨x.result, x.events⟩

end SharedArchive
