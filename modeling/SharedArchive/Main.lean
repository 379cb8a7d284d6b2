import SharedArchive.Command.Run

/-!
The command: reads the file that its arguments name and writes the transcript.
-/

namespace SharedArchive.Main

open Command (Refusal.transcript Request.ofArguments Transcript)

/-- An error number is negated when it comes from opening the file, and plain when it comes from
reading it. -/
def faultOf : IO.Error → FileFault
  | .noFileOrDirectory .. => .missing
  | .inappropriateType _ 21 _ => .directory
  | .inappropriateType .. => .notDirectory
  | e@(.invalidArgument _ code _) => if code + 36 = 0 then .nameTooLong else .other (toString e)
  | .permissionDenied .. => .denied
  | e => .other (toString e)

def contentsOf (path : String) : IO (Except FileFault ByteArray) := do
  try
    return .ok (← IO.FS.readBinFile path)
  catch e =>
    return .error (faultOf e)

def write (t : Transcript) : IO UInt32 := do
  (← IO.getStdout).putStr t.stdout
  (← IO.getStderr).putStr t.stderr
  return UInt32.ofNat t.exitCode

end SharedArchive.Main

def main (arguments : List String) : IO UInt32 := do
  match SharedArchive.Command.Request.ofArguments arguments with
  | .error refusal => SharedArchive.Main.write refusal.transcript
  | .ok request => do
    let contents ← SharedArchive.Main.contentsOf request.file
    SharedArchive.Main.write (request.run contents)
