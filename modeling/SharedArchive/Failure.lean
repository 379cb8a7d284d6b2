import SharedArchive.Bytes.Buffer
import SharedArchive.Text.Hex

/-!
Why an archive could not be opened or decoded.
-/

namespace SharedArchive

inductive FileFault
  | missing
  | directory
  | notDirectory
  | nameTooLong
  | denied
  | other (message : String)
deriving DecidableEq

def FileFault.message : FileFault → String
  | missing => "No such file or directory (os error 2)"
  | directory => "No such device (os error 19)"
  | notDirectory => "Not a directory (os error 20)"
  | nameTooLong => "File name too long (os error 36)"
  | denied => "Permission denied (os error 13)"
  | other message => message

inductive Failure
  | wrongMagic (expected actual : UInt32)
  | truncated (cause : Truncated)
  | file (fault : FileFault)
deriving DecidableEq

namespace Failure

open Text (Hex.padded)

def message : Failure → String
  | wrongMagic expected actual =>
    s!"magic number mismatch (expected: {Hex.padded 8 expected.toNat}, " ++
      s!"actual: {Hex.padded 8 actual.toNat})"
  | truncated cause => s!"file too short ({cause.message})"
  | file fault => fault.message

def isTruncated : Failure → Bool
  | truncated _ => true
  | _ => false

def isWrongMagic : Failure → Bool
  | wrongMagic .. => true
  | _ => false

end Failure

end SharedArchive
