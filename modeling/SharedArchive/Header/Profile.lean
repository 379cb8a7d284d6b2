import SharedArchive.Bytes.Layout
import SharedArchive.Text.Description

/-!
The compiler and profiling settings that end the headers.
-/

namespace SharedArchive

structure ProfileSettings where
  compilerType : UInt8
  typeProfileLevel : Int32
  typeProfileArgsLimit : Int32
  typeProfileParmsLimit : Int32
  typeProfileWidth : Int64
  bciProfileWidth : Int64
  profileTraps : Bool
  typeProfileCasts : Bool
  specTrapLimitExtraEntries : Int32
deriving DecidableEq

namespace ProfileSettings

def format : Format ProfileSettings where
  layout := [.u8, .i32, .gap 3, .i32, .i32, .i64, .i64, .flag, .flag, .i32, .gap 2]
  build := fun (compilerType, typeProfileLevel, (), typeProfileArgsLimit, typeProfileParmsLimit,
      typeProfileWidth, bciProfileWidth, profileTraps, typeProfileCasts,
      specTrapLimitExtraEntries, (), ()) =>
    { compilerType, typeProfileLevel, typeProfileArgsLimit, typeProfileParmsLimit,
      typeProfileWidth, bciProfileWidth, profileTraps, typeProfileCasts,
      specTrapLimitExtraEntries }

open Text.Description in
def describe (p : ProfileSettings) : Text.Description :=
  record "ProfileSettings" [
    ("compiler_type", ofUInt8 p.compilerType),
    ("type_profile_level", ofInt32 p.typeProfileLevel),
    ("type_profile_args_limit", ofInt32 p.typeProfileArgsLimit),
    ("type_profile_parms_limit", ofInt32 p.typeProfileParmsLimit),
    ("type_profile_width", ofInt64 p.typeProfileWidth),
    ("bci_profile_width", ofInt64 p.bciProfileWidth),
    ("profile_traps", flag p.profileTraps),
    ("type_profile_casts", flag p.typeProfileCasts),
    ("spec_trap_limit_extra_entries", ofInt32 p.specTrapLimitExtraEntries)]

end ProfileSettings

end SharedArchive
