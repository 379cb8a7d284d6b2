import SharedArchive.Failure
import SharedArchive.Reader

/-!
The headers of an archive, read one after the other: the generic header, the table of regions and
the configuration. Nothing past the magic is read unless it is the expected one. Each part leaves
its event as soon as it is read, so the events tell how far a reading got.
-/

namespace SharedArchive

open Reader (emit field record)

namespace GenericHeader

def read : Reader Truncated GenericHeader := do
  let h ← record format
  emit (.genericHeader h)
  return h

end GenericHeader

namespace RegionTable

def entry (k : RegionKind) : Reader Truncated Region := do
  let r ← record Region.format
  emit (.region k r)
  return r

def read : Reader Truncated RegionTable := Table.build entry

def layout : Layout := RegionKind.all.flatMap fun _ => Region.format.layout

end RegionTable

namespace HeapHeaders

def read : Reader Truncated HeapHeaders := do
  let mapped ← record MappedHeapHeader.format
  let streamed ← record StreamedHeapHeader.format
  return { mapped, streamed }

def layout : Layout := MappedHeapHeader.format.layout ++ StreamedHeapHeader.format.layout

end HeapHeaders

namespace Configuration

def read : Reader Truncated Configuration := do
  let machine ← record MachineSettings.format
  let raw ← field identityField
  let identity := Text.lossy raw
  emit (.identity (Text.trimNuls identity))
  let image ← record ImageSettings.format
  let heap ← HeapHeaders.read
  emit (.heapHeaders heap)
  let profile ← record ProfileSettings.format
  emit (.profile profile)
  return { machine, image with identity, heap, profile }

def fixedLayout : Layout :=
  MachineSettings.format.layout ++ identityField :: ImageSettings.format.layout

def layout : Layout := fixedLayout ++ HeapHeaders.layout ++ ProfileSettings.format.layout

end Configuration

structure Header where
  generic : GenericHeader
  regions : RegionTable
  config : Configuration
deriving DecidableEq

namespace Header

def defaultMagic : UInt32 := 0xa2ab0bf0
def staticArchiveMagic : UInt32 := 0xf00baba2
def dynamicArchiveMagic : UInt32 := 0xf00baba8

def layout : Layout := GenericHeader.format.layout ++ RegionTable.layout ++ Configuration.layout

def regionTableOffset : Nat := GenericHeader.format.size

def configurationOffset : Nat := regionTableOffset + RegionTable.layout.size

theorem configurationOffset_eq : configurationOffset = 504 := by decide

theorem layout_size : layout.size = 1032 := by decide +kernel

def parts : Reader Truncated Header := do
  let generic ← GenericHeader.read
  let fileSize ← Reader.size
  if fileSize < generic.headerSize.toNat then
    emit (.headerOversized generic.headerSize fileSize)
  let regions ← RegionTable.read
  let config ← Configuration.read
  emit (.headerRead generic.version config.requestedBase)
  return { generic, regions, config }

/-- Reads the headers from the start of the source, whatever the position was. -/
def read (expected : UInt32) : Reader Failure Header := do
  Reader.seek 0
  let magic ← (Reader.aside (field .u32)).mapError .truncated
  if magic = expected then parts.mapError .truncated
  else Reader.fail (.wrongMagic expected magic)

end Header

end SharedArchive
