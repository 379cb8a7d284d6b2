import SharedArchive.Text.Hex

/-!
What the command is asked to do, read off its arguments from left to right. A value, of an option or
the file, is looked at only when the next argument has its turn, so of two faults the one met first
does not always win: an unknown option, a value given to a flag and a second file are refused before
the value that came ahead of them.
-/

namespace SharedArchive.Command

structure Request where
  file : String
  magic : Option UInt32
  regions : Bool
  symbols : Bool
  pattern : Option UInt64
  verbosity : Nat
deriving DecidableEq

/-- Why arguments give no request. Help and version are asked for in place of one. -/
inductive Refusal
  | help
  | version
  | missingArgument
  | unknownArgument
  | repeatedArgument
  | missingValue
  | unexpectedValue
  | badNumber (value : String) (fault : Text.Hex.Fault)
deriving DecidableEq

def Refusal.exitCode : Refusal → Nat
  | help | version => 0
  | _ => 2

def Refusal.message : Refusal → String
  | help => "help was asked for"
  | version => "the version was asked for"
  | missingArgument => "a required argument is missing"
  | unknownArgument => "unexpected argument"
  | repeatedArgument => "an argument is given more than once"
  | missingValue => "a value is required"
  | unexpectedValue => "a value is given to an argument that takes none"
  | badNumber value fault => s!"invalid hex '{value}': {fault.message}"

inductive ValueOption
  | magic
  | pattern
deriving DecidableEq

inductive Flag
  | regions
  | symbols
  | verbose
  | help
  | version
deriving DecidableEq

/-- A value that has not been looked at yet. An option may still wait for its own. -/
inductive Unsettled
  | file (path : String)
  | option (o : ValueOption) (value : Option String)
deriving DecidableEq

structure Progress where
  file : Option String := none
  magic : Option UInt32 := none
  regions : Bool := false
  symbols : Bool := false
  pattern : Option UInt64 := none
  verbosity : Nat := 0
  unsettled : Option Unsettled := none
  optionsEnded : Bool := false
deriving DecidableEq

def maxVerbosity : Nat := 255

namespace Progress

open Text (Hex.read)

def setOption (p : Progress) (value : String) : ValueOption → Except Refusal Progress
  | .magic =>
    if p.magic.isSome then .error .repeatedArgument
    else match Hex.read UInt32.size value with
      | .error fault => .error (.badNumber value fault)
      | .ok n => .ok { p with magic := some (UInt32.ofNat n) }
  | .pattern =>
    if p.pattern.isSome then .error .repeatedArgument
    else match Hex.read UInt64.size value with
      | .error fault => .error (.badNumber value fault)
      | .ok n => .ok { p with pattern := some (UInt64.ofNat n) }

def settle (p : Progress) : Except Refusal Progress :=
  let rest := { p with unsettled := none }
  match p.unsettled with
  | none => .ok rest
  | some (.file path) =>
    if path.isEmpty then .error .missingValue else .ok { rest with file := some path }
  | some (.option _ none) => .error .missingValue
  | some (.option o (some value)) => rest.setOption value o

def setFlag (p : Progress) : Flag → Except Refusal Progress
  | .regions => if p.regions then .error .repeatedArgument else .ok { p with regions := true }
  | .symbols => if p.symbols then .error .repeatedArgument else .ok { p with symbols := true }
  | .verbose => .ok { p with verbosity := min maxVerbosity (p.verbosity + 1) }
  | .help => .error .help
  | .version => .error .version

def acceptFlag (p : Progress) (f : Flag) : Except Refusal Progress := do
  let p ← p.settle
  p.setFlag f

def hasFile (p : Progress) : Bool :=
  match p.file, p.unsettled with
  | none, some (.file _) => true
  | file, _ => file.isSome

def acceptFile (p : Progress) (path : String) : Except Refusal Progress :=
  if p.hasFile then .error .unknownArgument
  else do
    let p ← p.settle
    return { p with unsettled := some (.file path) }

def acceptWord (p : Progress) (text : String) : Except Refusal Progress :=
  match p.unsettled with
  | some (.option o none) => .ok { p with unsettled := some (.option o (some text)) }
  | _ => p.acceptFile text

inductive LongName
  | option (o : ValueOption)
  | flag (f : Flag)

def longName? : List Char → Option LongName
  | ['m', 'a', 'g', 'i', 'c'] => some (.option .magic)
  | ['p', 'a', 't', 't', 'e', 'r', 'n'] => some (.option .pattern)
  | ['r', 'e', 'g', 'i', 'o', 'n', 's'] => some (.flag .regions)
  | ['s', 'y', 'm', 'b', 'o', 'l', 's'] => some (.flag .symbols)
  | ['v', 'e', 'r', 'b', 'o', 's', 'e'] => some (.flag .verbose)
  | ['h', 'e', 'l', 'p'] => some (.flag .help)
  | ['v', 'e', 'r', 's', 'i', 'o', 'n'] => some (.flag .version)
  | _ => none

def shortFlag? : Char → Option Flag
  | 'v' => some .verbose
  | 'h' => some .help
  | 'V' => some .version
  | _ => none

def acceptLong (p : Progress) (name : List Char) (value : Option String) :
    Except Refusal Progress :=
  match longName? name, value with
  | none, _ => .error .unknownArgument
  | some (.flag _), some _ => .error .unexpectedValue
  | some (.flag f), none => p.acceptFlag f
  | some (.option o), some value => do
    let p ← p.settle
    p.setOption value o
  | some (.option o), none => do
    let p ← p.settle
    return { p with unsettled := some (.option o none) }

def acceptShort (p : Progress) : List Char → Except Refusal Progress
  | [] => .ok p
  | c :: rest =>
    match shortFlag? c with
    | none => .error .unknownArgument
    | some f => do
      let p ← p.acceptFlag f
      p.acceptShort rest

def splitValue (cs : List Char) : List Char × Option String :=
  match cs.dropWhile (· ≠ '=') with
  | [] => (cs, none)
  | _ :: value => (cs.takeWhile (· ≠ '='), some (String.ofList value))

def accept (p : Progress) (argument : String) : Except Refusal Progress :=
  if p.optionsEnded then p.acceptFile argument
  else match argument.toList with
    | ['-', '-'] => .ok { p with optionsEnded := true }
    | '-' :: '-' :: rest =>
      let (name, value) := splitValue rest
      p.acceptLong name value
    | '-' :: c :: rest => p.acceptShort (c :: rest)
    | _ => p.acceptWord argument

def acceptAll (p : Progress) : List String → Except Refusal Progress
  | [] => p.settle
  | argument :: rest => do
    let p ← p.accept argument
    p.acceptAll rest

end Progress

def Request.ofProgress (p : Progress) : Except Refusal Request :=
  match p.file with
  | none => .error .missingArgument
  | some file =>
    if p.symbols && p.pattern.isNone then .error .missingArgument
    else .ok {
      file
      magic := p.magic
      regions := p.regions
      symbols := p.symbols
      pattern := p.pattern
      verbosity := p.verbosity }

def Request.ofArguments (arguments : List String) : Except Refusal Request := do
  let p ← Progress.acceptAll {} arguments
  Request.ofProgress p

end SharedArchive.Command
