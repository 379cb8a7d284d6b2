import SharedArchive.Command.Report
import SharedArchive.Command.Request

/-!
Running a request. A session prints lines and leaves events until it ends or fails; a transcript is
what the world sees of it: an exit code and the two output streams.
-/

namespace SharedArchive.Command

structure Session (α : Type) where
  result : Except Failure α
  printed : List String
  events : List Event

namespace Session

variable {α β : Type}

instance : Monad Session where
  pure a := ⟨.ok a, [], []⟩
  bind s next :=
    match s with
    | ⟨.ok a, printed, events⟩ =>
      let rest := next a
      ⟨rest.result, printed ++ rest.printed, events ++ rest.events⟩
    | ⟨.error e, printed, events⟩ => ⟨.error e, printed, events⟩

def print (lines : List String) : Session Unit := ⟨.ok (), lines, []⟩

def ofOutcome (x : Outcome Failure α) : Session α := ⟨x.result, [], x.events⟩

end Session

structure Transcript where
  exitCode : Nat
  stdout : String
  stderr : String
deriving DecidableEq

def programName : String := "aotp"

def programVersion : String := "0.1.0"

def Request.level (r : Request) : Level :=
  match r.verbosity with
  | 0 => .warn
  | 1 => .info
  | 2 => .debug
  | _ => .trace

def Request.expectedMagic (r : Request) : UInt32 := r.magic.getD Header.defaultMagic

def Request.session (r : Request) (contents : Except FileFault ByteArray) : Session Unit := do
  let archive ← .ofOutcome (Archive.ofFile r.expectedMagic r.file contents)
  let baseName ← .ofOutcome archive.baseName
  .print (Report.header archive baseName)
  if r.regions then
    let payloads ← .ofOutcome archive.payloads
    .print (Report.regions payloads)
  match r.symbols, r.pattern with
  | true, some pattern =>
    let found ← .ofOutcome (archive.symbols pattern)
    .print (Report.symbols found)
  | _, _ => .print []

def unlines (lines : List String) : String := String.join (lines.map (· ++ "\n"))

def logLine (e : Event) : String := s!"{e.level.column} {e.text}"

def failureLog (kept : Level) : Failure → List String
  | .wrongMagic .. => []
  | .truncated cause => ([Event.cutShort cause].filter (·.visible kept)).map logLine
  | .file fault => [s!"Error reading file: {fault.message}"]

def Session.transcript (s : Session Unit) (kept : Level) : Transcript :=
  let log := (s.events.filter (·.visible kept)).map logLine
  match s.result with
  | .ok () => ⟨0, unlines s.printed, unlines log⟩
  | .error e => ⟨1, unlines (s.printed ++ Report.failure e), unlines (log ++ failureLog kept e)⟩

def Request.run (r : Request) (contents : Except FileFault ByteArray) : Transcript :=
  (r.session contents).transcript r.level

def usage : String := unlines [
  "Inspect a JVM AOT / CDS cache file",
  "",
  s!"Usage: {programName} [OPTIONS] <FILE>",
  "",
  "Arguments:",
  "  <FILE>  The cache file to inspect",
  "",
  "Options:",
  "      --magic <MAGIC>      Expected magic, as the little endian value of the first four bytes (hex)",
  "      --regions            Print the region table and the span each region occupies in the file",
  "      --symbols            Scan the read-write region for symbol records",
  "      --pattern <PATTERN>  The 64-bit word that starts a symbol-carrying record (hex)",
  "  -v, --verbose...         Log more to stderr, repeat for more detail",
  "  -h, --help               Print help",
  "  -V, --version            Print version"]

def Refusal.transcript (r : Refusal) : Transcript :=
  match r with
  | .help => ⟨r.exitCode, usage, ""⟩
  | .version => ⟨r.exitCode, s!"{programName} {programVersion}\n", ""⟩
  | _ => ⟨r.exitCode, "", s!"error: {r.message}\n"⟩

/-- Runs the command in a place where `contents` tells what a path leads to. -/
def run (arguments : List String) (contents : String → Except FileFault ByteArray) : Transcript :=
  match Request.ofArguments arguments with
  | .error refusal => refusal.transcript
  | .ok request => request.run (contents request.file)

end SharedArchive.Command
