import SharedArchive.Header.Heap
import SharedArchive.Header.Profile
import SharedArchive.Text.Lossy

/-!
The configuration header: how the machine that wrote the archive was set up, the 256 bytes by which
it names itself, where the archive was meant to be mapped, the heap headers and the profile
settings. The identity is kept with the NULs that fill it up.
-/

namespace SharedArchive

structure MachineSettings where
  coreRegionAlignment : UInt64
  objectAlignment : Int32
  narrowOopBase : UInt64
  narrowOopShift : Int32
  compactStrings : Bool
  compactHeaders : Bool
  maxHeapSize : UInt64
  narrowOopMode : Int32
  objectStreaming : Bool
  compressedOops : Bool
  compressedClassPointers : Bool
  narrowKlassBits : Int32
  narrowKlassShift : Int32
  clonedVtablesOffset : UInt64
  earlySerializedDataOffset : UInt64
  serializedDataOffset : UInt64
deriving DecidableEq

structure ImageSettings where
  classLocationConfigOffset : UInt64
  verifyLocal : Bool
  verifyRemote : Bool
  hasPlatformOrAppClasses : Bool
  requestedBase : UInt64
  mappedBase : UInt64
  optimizedModuleHandling : Bool
  hasAotLinkedClasses : Bool
  hasFullModuleGraph : Bool
  rwPtrmapStart : UInt64
  roPtrmapStart : UInt64
deriving DecidableEq

structure Configuration extends MachineSettings, ImageSettings where
  identity : String
  heap : HeapHeaders
  profile : ProfileSettings
deriving DecidableEq

def MachineSettings.format : Format MachineSettings where
  layout := [.u64, .i32, .gap 4, .u64, .i32, .flag, .flag, .gap 2, .u64, .i32, .flag, .flag, .flag,
    .gap 1, .i32, .i32, .u64, .u64, .u64]
  build := fun (coreRegionAlignment, objectAlignment, (), narrowOopBase, narrowOopShift,
      compactStrings, compactHeaders, (), maxHeapSize, narrowOopMode, objectStreaming,
      compressedOops, compressedClassPointers, (), narrowKlassBits, narrowKlassShift,
      clonedVtablesOffset, earlySerializedDataOffset, serializedDataOffset, ()) =>
    { coreRegionAlignment, objectAlignment, narrowOopBase, narrowOopShift, compactStrings,
      compactHeaders, maxHeapSize, narrowOopMode, objectStreaming, compressedOops,
      compressedClassPointers, narrowKlassBits, narrowKlassShift, clonedVtablesOffset,
      earlySerializedDataOffset, serializedDataOffset }

def ImageSettings.format : Format ImageSettings where
  layout := [.u64, .flag, .flag, .flag, .gap 5, .u64, .u64, .flag, .flag, .flag, .gap 5, .u64, .u64]
  build := fun (classLocationConfigOffset, verifyLocal, verifyRemote, hasPlatformOrAppClasses, (),
      requestedBase, mappedBase, optimizedModuleHandling, hasAotLinkedClasses, hasFullModuleGraph,
      (), rwPtrmapStart, roPtrmapStart, ()) =>
    { classLocationConfigOffset, verifyLocal, verifyRemote, hasPlatformOrAppClasses, requestedBase,
      mappedBase, optimizedModuleHandling, hasAotLinkedClasses, hasFullModuleGraph, rwPtrmapStart,
      roPtrmapStart }

namespace Configuration

def identitySize : Nat := 256

def identityField : Field := .block identitySize

def trimmedIdentity (c : Configuration) : String := Text.trimNuls c.identity

end Configuration

end SharedArchive
