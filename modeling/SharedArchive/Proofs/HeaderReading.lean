import Mathlib
import SharedArchive.Header
import SharedArchive.Proofs.LittleEndian
import SharedArchive.Proofs.Reading

/-!
What reading the headers comes to. Every part of the headers follows its layout, so the headers as a
whole follow theirs: past the magic, a source that is long enough gives the header that its first
1032 bytes spell, and a shorter one fails at the field in which it ends.
-/

namespace SharedArchive

namespace GenericHeader

theorem read_follows : Reader.Follows read format.layout format.decode := by
  have h := (Reader.Follows.record format).bind fun h =>
    (Reader.Follows.emit (.genericHeader h)).bind fun _ => .pure h
  exact h.congr (List.append_nil _) rfl

end GenericHeader

namespace RegionTable

theorem entry_follows (k : RegionKind) :
    Reader.Follows (entry k) Region.format.layout Region.format.decode := by
  have h := (Reader.Follows.record Region.format).bind fun r =>
    (Reader.Follows.emit (.region k r)).bind fun _ => .pure r
  exact h.congr (List.append_nil _) rfl

def entryOffset (p : Nat) (k : RegionKind) : Nat := p + k.index * Region.format.size

def decode (source : ByteArray) (p : Nat) : RegionTable :=
  let entryAt k := Region.format.decode source (entryOffset p k)
  { readWrite := entryAt .readWrite
    readOnly := entryAt .readOnly
    bitmap := entryAt .bitmap
    heap := entryAt .heap
    code := entryAt .code }

theorem read_follows : Reader.Follows read layout decode := by
  have h := (entry_follows .readWrite).bind fun readWrite =>
    (entry_follows .readOnly).bind fun readOnly =>
    (entry_follows .bitmap).bind fun bitmap =>
    (entry_follows .heap).bind fun heap =>
    (entry_follows .code).bind fun code =>
    .pure { readWrite, readOnly, bitmap, heap, code : RegionTable }
  exact h.congr rfl rfl

end RegionTable

namespace HeapHeaders

def decode (source : ByteArray) (p : Nat) : HeapHeaders where
  mapped := MappedHeapHeader.format.decode source p
  streamed := StreamedHeapHeader.format.decode source (p + MappedHeapHeader.format.size)

theorem read_follows : Reader.Follows read layout decode := by
  have h := (Reader.Follows.record MappedHeapHeader.format).bind fun mapped =>
    (Reader.Follows.record StreamedHeapHeader.format).bind fun streamed =>
    .pure { mapped, streamed : HeapHeaders }
  exact h.congr rfl rfl

end HeapHeaders

namespace Configuration

def identityOffset (p : Nat) : Nat := p + MachineSettings.format.size

def imageOffset (p : Nat) : Nat := identityOffset p + identitySize

def heapOffset (p : Nat) : Nat := imageOffset p + ImageSettings.format.size

def profileOffset (p : Nat) : Nat := heapOffset p + HeapHeaders.layout.size

def rawIdentity (source : ByteArray) (p : Nat) : ByteArray :=
  source.extract (identityOffset p) (imageOffset p)

def decode (source : ByteArray) (p : Nat) : Configuration :=
  { MachineSettings.format.decode source p,
    ImageSettings.format.decode source (imageOffset p) with
    identity := Text.lossy (rawIdentity source p)
    heap := HeapHeaders.decode source (heapOffset p)
    profile := ProfileSettings.format.decode source (profileOffset p) }

theorem read_follows : Reader.Follows read layout decode := by
  have h := (Reader.Follows.record MachineSettings.format).bind fun machine =>
    (Reader.Follows.field identityField).bind fun raw =>
    (Reader.Follows.emit (.identity (Text.trimNuls (Text.lossy raw)))).bind fun _ =>
    (Reader.Follows.record ImageSettings.format).bind fun image =>
    HeapHeaders.read_follows.bind fun heap =>
    (Reader.Follows.emit (.heapHeaders heap)).bind fun _ =>
    (Reader.Follows.record ProfileSettings.format).bind fun profile =>
    (Reader.Follows.emit (.profile profile)).bind fun _ =>
    .pure { machine, image with identity := Text.lossy raw, heap, profile : Configuration }
  exact h.congr rfl rfl

theorem layout_size : layout.size = 528 := by decide

theorem read_ok_iff {source : ByteArray} {p : Nat} {c : Configuration} :
    (read source p).result = .ok c ↔ p + 528 ≤ source.size ∧ c = decode source p := by
  have hsize : layout.size ≤ source.size - p ↔ p + 528 ≤ source.size := by
    rw [layout_size]
    omega
  rw [read_follows.ok_iff, hsize]

theorem rawIdentity_eq_extract (source : ByteArray) (p : Nat) :
    rawIdentity source p = source.extract (p + 80) (p + 336) := by
  have hmachine : MachineSettings.format.size = 80 := by decide
  rw [rawIdentity, imageOffset, identityOffset, identitySize, hmachine, Nat.add_assoc]

theorem rawIdentity_size {source : ByteArray} {p : Nat} (h : p + 528 ≤ source.size) :
    (rawIdentity source p).size = 256 := by
  rw [rawIdentity_eq_extract, ByteArray.size_extract]
  omega

end Configuration

namespace Header

def decode (source : ByteArray) (p : Nat) : Header where
  generic := GenericHeader.format.decode source p
  regions := RegionTable.decode source (p + GenericHeader.format.size)
  config := Configuration.decode source
    (p + GenericHeader.format.size + RegionTable.layout.size)

theorem parts_follows : Reader.Follows parts layout decode := by
  have hrest (generic : GenericHeader) := RegionTable.read_follows.bind fun regions =>
    Configuration.read_follows.bind fun config =>
    (Reader.Follows.emit (.headerRead generic.version config.requestedBase)).bind fun _ =>
    .pure { generic, regions, config : Header }
  have h := GenericHeader.read_follows.bind fun generic =>
    Reader.Follows.bindSize fun fileSize =>
    (hrest generic).emitIf (fileSize < generic.headerSize.toNat)
      (.headerOversized generic.headerSize fileSize)
  have hl : GenericHeader.format.layout ++ (RegionTable.layout ++
      (Configuration.layout ++ ([] ++ []))) = layout := by
    simp [layout]
  exact h.congr hl rfl

def magicOf (source : ByteArray) : UInt32 := UInt32.ofNat (numberAt source 0 4)

section Read

variable {expected : UInt32} {source : ByteArray}

theorem magic_short (h : source.size < 4) :
    ((Reader.aside (Reader.field .u32)).mapError Failure.truncated) source 0 =
      ⟨.error (.truncated ⟨4, source.size, 0⟩), 0, []⟩ := by
  have hm : Reader.field .u32 source 0 = ⟨.error ⟨4, source.size, 0⟩, 0, []⟩ :=
    Reader.field_truncated h
  simp only [Reader.mapError, Reader.aside, hm, Except.mapError]

theorem magic_long (h : 4 ≤ source.size) :
    ((Reader.aside (Reader.field .u32)).mapError Failure.truncated) source 0 =
      ⟨.ok (magicOf source), 0, []⟩ := by
  have hm : Reader.field .u32 source 0 = ⟨.ok (magicOf source), 4, []⟩ :=
    Reader.field_fits h
  simp only [Reader.mapError, Reader.aside, hm, Except.mapError]

theorem read_short (p : Nat) (h : source.size < 4) :
    (read expected source p).result = .error (.truncated ⟨4, source.size, 0⟩) ∧
      (read expected source p).position = 0 := by
  rw [read, Reader.bind_ok (rfl : Reader.seek 0 source p = ⟨.ok (), 0, []⟩),
    Reader.bind_error (magic_short h)]
  exact ⟨rfl, rfl⟩

theorem read_long (expected : UInt32) (p : Nat) (h : 4 ≤ source.size) :
    (read expected source p).result =
        (if magicOf source = expected then (parts source 0).result.mapError .truncated
          else .error (.wrongMagic expected (magicOf source))) ∧
      (read expected source p).position =
        if magicOf source = expected then (parts source 0).position else 0 := by
  rw [read, Reader.bind_ok (rfl : Reader.seek 0 source p = ⟨.ok (), 0, []⟩),
    Reader.bind_ok (magic_long h)]
  split_ifs
  · exact ⟨rfl, rfl⟩
  · exact ⟨rfl, rfl⟩

theorem read_events (expected : UInt32) (source : ByteArray) (p : Nat) :
    (read expected source p).events =
      if 4 ≤ source.size ∧ magicOf source = expected then (parts source 0).events else [] := by
  have hseek : Reader.seek 0 source p = (⟨.ok (), 0, []⟩ : Reading Failure Unit) := rfl
  by_cases h : 4 ≤ source.size
  · rw [read, Reader.bind_ok hseek, Reader.bind_ok (magic_long h)]
    by_cases hm : magicOf source = expected
    · rw [if_pos hm, if_pos ⟨h, hm⟩]
      rfl
    · rw [if_neg hm, if_neg fun hboth => hm hboth.2]
      rfl
  · rw [read, Reader.bind_ok hseek, Reader.bind_error (magic_short (Nat.lt_of_not_le h)),
      if_neg fun hboth => h hboth.1]
    rfl

theorem read_whole (p : Nat) (hs : 1032 ≤ source.size) (hm : magicOf source = expected) :
    (read expected source p).result = .ok (decode source 0) ∧
      (read expected source p).position = 1032 := by
  have hl : layout.size ≤ source.size - 0 := by
    rw [layout_size]
    omega
  obtain ⟨hr, hp⟩ := read_long expected p (by omega : 4 ≤ source.size)
  obtain ⟨hv, hq⟩ := parts_follows.fits source 0 hl
  rw [if_pos hm] at hr hp
  rw [hr, hp, hv, hq, layout_size]
  exact ⟨rfl, rfl⟩

theorem read_cut (p : Nat) {place : Place} (hs : 4 ≤ source.size) (hm : magicOf source = expected)
    (hp : place ∈ layout.places) (hh : place.Holds source.size) :
    (read expected source p).result =
        .error (.truncated ⟨place.field.width, source.size - place.start, place.start⟩) ∧
      (read expected source p).position = place.start := by
  obtain ⟨hr, hq⟩ := read_long expected p hs
  obtain ⟨hv, hpos⟩ := parts_follows.truncated source 0 place hp hh
  rw [if_pos hm] at hr hq
  rw [hr, hq, hv, hpos, Nat.zero_add]
  exact ⟨rfl, rfl⟩

theorem read_ok_iff {p : Nat} {h : Header} :
    (read expected source p).result = .ok h ↔
      1032 ≤ source.size ∧ magicOf source = expected ∧ h = decode source 0 := by
  constructor
  · intro hr
    by_cases hs : source.size < 4
    · rw [(read_short p hs).1] at hr
      cases hr
    · have hl := (read_long expected p (by omega : 4 ≤ source.size)).1
      by_cases hm : magicOf source = expected
      · by_cases hw : source.size < layout.size
        · obtain ⟨place, ⟨hp, hh⟩, -⟩ := Layout.existsUnique_place hw
          rw [(read_cut p (by omega) hm hp hh).1] at hr
          cases hr
        · rw [layout_size] at hw
          rw [(read_whole p (by omega) hm).1] at hr
          cases hr
          exact ⟨by omega, hm, rfl⟩
      · rw [hl, if_neg hm] at hr
        cases hr
  · rintro ⟨hs, hm, rfl⟩
    exact (read_whole p hs hm).1

end Read

/-- The fields of the headers in file order, gaps and the identity included, part by part. -/
def genericFields : Layout := [.u32, .u32, .i32, .u32, .u32, .u32]

def regionFields : Layout :=
  [.u32, .u32, .u32, .u32, .u32, .u32, .u64, .u64, .u64, .u64, .u64, .u64, .u64, .gap 16]

def fixedFields : Layout :=
  [.u64, .i32, .gap 4, .u64, .i32, .flag, .flag, .gap 2, .u64, .i32, .flag, .flag, .flag, .gap 1,
    .i32, .i32, .u64, .u64, .u64, .block 256, .u64, .flag, .flag, .flag, .gap 5, .u64, .u64,
    .flag, .flag, .flag, .gap 5, .u64, .u64]

def mappedHeapFields : Layout := [.u64, .u64, .u64, .u64, .i32, .gap 4, .u64, .i32, .gap 4]

def streamedHeapFields : Layout := [.u64, .u64, .u64, .u64, .u64]

def profileFields : Layout :=
  [.u8, .i32, .gap 3, .i32, .i32, .i64, .i64, .flag, .flag, .i32, .gap 2]

def fields : Layout :=
  genericFields ++ (List.replicate 5 regionFields).flatten ++ fixedFields ++ mappedHeapFields ++
    streamedHeapFields ++ profileFields

theorem layout_eq_fields : layout = fields := by decide +kernel

/-- The outcome of any of the readings that one reader makes one after the other, wherever the first
of them began: it depends on the source alone, and on nothing past the end of the headers. -/
theorem read_outcome (expected : UInt32) (source : ByteArray) (position n : Nat) :
    ∃ x, (read expected).again source position n = x ∧
      if source.size < 4 then
        x.result = .error (.truncated ⟨4, source.size, 0⟩) ∧ x.position = 0
      else if magicOf source ≠ expected then
        x.result = .error (.wrongMagic expected (magicOf source)) ∧ x.position = 0
      else if source.size < 1032 then
        ∃ place, (∀ other, other ∈ fields.places ∧ other.Holds source.size ↔ other = place) ∧
          x.result =
            .error (.truncated ⟨place.field.width, source.size - place.start, place.start⟩) ∧
          x.position = place.start
      else ∃ h, x.result = .ok h ∧ x.position = 1032 := by
  -- an earlier reading leaves nothing behind but the position
  obtain ⟨p, hp⟩ : ∃ p, (read expected).again source position n = read expected source p := by
    cases n with
    | zero => exact ⟨position, rfl⟩
    | succ n => exact ⟨_, rfl⟩
  refine ⟨read expected source p, hp, ?_⟩
  split_ifs with h4 hm hs
  · exact read_short p h4
  · obtain ⟨hr, hq⟩ := read_long expected p (Nat.le_of_not_lt h4)
    rw [if_neg hm] at hr hq
    exact ⟨hr, hq⟩
  · have hl : source.size < layout.size := by
      rw [layout_size]
      exact hs
    obtain ⟨place, ⟨hmem, hh⟩, hu⟩ := Layout.existsUnique_place hl
    refine ⟨place, ?_, read_cut p (Nat.le_of_not_lt h4) (not_not.1 hm) hmem hh⟩
    rw [← layout_eq_fields]
    intro other
    constructor
    · exact hu other
    · rintro rfl
      exact ⟨hmem, hh⟩
  · exact ⟨_, read_whole p (Nat.le_of_not_lt hs) (not_not.1 hm)⟩

end Header

end SharedArchive
