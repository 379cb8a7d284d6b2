import SharedArchive.Bytes.Buffer

/-!
Programs over a cursor: reads, moves, questions about the source, and two kinds of block. A scoped
block stops at its first failure and reports it, a saved block ignores failures, and after either
the cursor stands where it stood before.
-/

namespace SharedArchive.Cursor

inductive Step
  | read (f : Field)
  | seek (target : UInt64)
  | size
  | isEmpty
  | source
  | scoped (body : List Step)
  | save (body : List Step)

inductive Reply
  | nothing
  | value (f : Field) (v : f.Value)
  | count (n : Nat)
  | truth (b : Bool)
  | bytes (raw : ByteArray)

/-- What a step answered, the cursor it left, and the answers of the steps inside it. -/
structure Trace where
  result : Except Truncated Reply
  after : Cursor
  inner : List Trace

namespace Trace

def failure? (t : Trace) : Option Truncated :=
  match t.result with
  | .ok _ => none
  | .error e => some e

def finish (c : Cursor) (ts : List Trace) : Cursor :=
  match ts.getLast? with
  | none => c
  | some t => t.after

def ofRead (c : Cursor) (f : Field) : Trace :=
  match Buffer.read c f with
  | .ok (v, after) => ⟨.ok (.value f v), after, []⟩
  | .error t => ⟨.error t, c, []⟩

def ofScoped (c : Cursor) (inner : List Trace) : Trace where
  result := match inner.findSome? failure? with
    | none => .ok .nothing
    | some t => .error t
  after := (finish c inner).seek c.position
  inner := inner

def ofSave (c : Cursor) (inner : List Trace) : Trace where
  result := .ok .nothing
  after := (finish c inner).seek c.position
  inner := inner

end Trace

mutual

def Step.run (c : Cursor) : Step → Trace
  | .read f => .ofRead c f
  | .seek target => ⟨.ok .nothing, c.seek target.toNat, []⟩
  | .size => ⟨.ok (.count c.size), c, []⟩
  | .isEmpty => ⟨.ok (.truth (c.size == 0)), c, []⟩
  | .source => ⟨.ok (.bytes c.source), c, []⟩
  | .scoped body => .ofScoped c (runUntilFailure c body)
  | .save body => .ofSave c (run c body)

def run (c : Cursor) : List Step → List Trace
  | [] => []
  | s :: rest => let t := s.run c; t :: run t.after rest

def runUntilFailure (c : Cursor) : List Step → List Trace
  | [] => []
  | s :: rest =>
    let t := s.run c
    match t.failure? with
    | none => t :: runUntilFailure t.after rest
    | some _ => [t]

end

end SharedArchive.Cursor
