import Mathlib
import SharedArchive.Proofs.HeaderReading
import SharedArchive.Proofs.Writing

/-!
Writing the headers. Each record's fields are listed in the order of the format's description, with
its gaps, and the headers are written as the concatenation of these lists. Reading gives back what
was written, and what was read is written again as it stood.
-/

namespace SharedArchive

def GenericHeader.spelling : Spelling GenericHeader.format where
  items h := [⟨.u32, h.magic⟩, ⟨.u32, h.crc⟩, ⟨.i32, h.version⟩, ⟨.u32, h.headerSize⟩,
    ⟨.u32, h.baseNameOffset⟩, ⟨.u32, h.baseNameSize⟩]
  items_decode _ _ := by simp only [Format.decode, format, Layout.decode, Layout.items]
  items_injective := by
    rintro ⟨⟩ ⟨⟩ h
    simpa using h

def Region.spelling : Spelling Region.format where
  items r := [⟨.u32, r.crc⟩, ⟨.u32, r.readOnly⟩, ⟨.u32, r.allowExec⟩, ⟨.u32, r.heapFlag⟩,
    ⟨.u32, r.bitmapFlag⟩, ⟨.u32, r.mappedFromFile⟩, ⟨.u64, r.fileOffset⟩, ⟨.u64, r.mappingOffset⟩,
    ⟨.u64, r.used⟩, ⟨.u64, r.oopmapOffset⟩, ⟨.u64, r.oopmapBits⟩, ⟨.u64, r.ptrmapOffset⟩,
    ⟨.u64, r.ptrmapBits⟩, ⟨.gap 16, ()⟩]
  items_decode _ _ := by
    simp only [Format.decode, format, runtimeGap, Layout.decode, Layout.items]
  items_injective := by
    rintro ⟨⟩ ⟨⟩ h
    simpa using h

def MachineSettings.spelling : Spelling MachineSettings.format where
  items m := [⟨.u64, m.coreRegionAlignment⟩, ⟨.i32, m.objectAlignment⟩, ⟨.gap 4, ()⟩,
    ⟨.u64, m.narrowOopBase⟩, ⟨.i32, m.narrowOopShift⟩, ⟨.flag, m.compactStrings⟩,
    ⟨.flag, m.compactHeaders⟩, ⟨.gap 2, ()⟩, ⟨.u64, m.maxHeapSize⟩, ⟨.i32, m.narrowOopMode⟩,
    ⟨.flag, m.objectStreaming⟩, ⟨.flag, m.compressedOops⟩, ⟨.flag, m.compressedClassPointers⟩,
    ⟨.gap 1, ()⟩, ⟨.i32, m.narrowKlassBits⟩, ⟨.i32, m.narrowKlassShift⟩,
    ⟨.u64, m.clonedVtablesOffset⟩, ⟨.u64, m.earlySerializedDataOffset⟩,
    ⟨.u64, m.serializedDataOffset⟩]
  items_decode _ _ := by simp only [Format.decode, format, Layout.decode, Layout.items]
  items_injective := by
    rintro ⟨⟩ ⟨⟩ h
    simpa using h

def ImageSettings.spelling : Spelling ImageSettings.format where
  items i := [⟨.u64, i.classLocationConfigOffset⟩, ⟨.flag, i.verifyLocal⟩, ⟨.flag, i.verifyRemote⟩,
    ⟨.flag, i.hasPlatformOrAppClasses⟩, ⟨.gap 5, ()⟩, ⟨.u64, i.requestedBase⟩,
    ⟨.u64, i.mappedBase⟩, ⟨.flag, i.optimizedModuleHandling⟩, ⟨.flag, i.hasAotLinkedClasses⟩,
    ⟨.flag, i.hasFullModuleGraph⟩, ⟨.gap 5, ()⟩, ⟨.u64, i.rwPtrmapStart⟩, ⟨.u64, i.roPtrmapStart⟩]
  items_decode _ _ := by simp only [Format.decode, format, Layout.decode, Layout.items]
  items_injective := by
    rintro ⟨⟩ ⟨⟩ h
    simpa using h

def MappedHeapHeader.spelling : Spelling MappedHeapHeader.format where
  items h := [⟨.u64, h.ptrmapStart⟩, ⟨.u64, h.oopmapStart⟩, ⟨.u64, h.rootSegments.baseOffset⟩,
    ⟨.u64, h.rootSegments.count⟩, ⟨.i32, h.rootSegments.rootsCount⟩, ⟨.gap 4, ()⟩,
    ⟨.u64, h.rootSegments.maxSizeInBytes⟩, ⟨.i32, h.rootSegments.maxSizeInElems⟩, ⟨.gap 4, ()⟩]
  items_decode _ _ := by simp only [Format.decode, format, Layout.decode, Layout.items]
  items_injective := by
    rintro ⟨_, _, ⟨⟩⟩ ⟨_, _, ⟨⟩⟩ h
    simpa using h

def StreamedHeapHeader.spelling : Spelling StreamedHeapHeader.format where
  items h := [⟨.u64, h.forwardingOffset⟩, ⟨.u64, h.rootsOffset⟩, ⟨.u64, h.rootIndexTableOffset⟩,
    ⟨.u64, h.rootCount⟩, ⟨.u64, h.objectCount⟩]
  items_decode _ _ := by simp only [Format.decode, format, Layout.decode, Layout.items]
  items_injective := by
    rintro ⟨⟩ ⟨⟩ h
    simpa using h

def ProfileSettings.spelling : Spelling ProfileSettings.format where
  items p := [⟨.u8, p.compilerType⟩, ⟨.i32, p.typeProfileLevel⟩, ⟨.gap 3, ()⟩,
    ⟨.i32, p.typeProfileArgsLimit⟩, ⟨.i32, p.typeProfileParmsLimit⟩, ⟨.i64, p.typeProfileWidth⟩,
    ⟨.i64, p.bciProfileWidth⟩, ⟨.flag, p.profileTraps⟩, ⟨.flag, p.typeProfileCasts⟩,
    ⟨.i32, p.specTrapLimitExtraEntries⟩, ⟨.gap 2, ()⟩]
  items_decode _ _ := by simp only [Format.decode, format, Layout.decode, Layout.items]
  items_injective := by
    rintro ⟨⟩ ⟨⟩ h
    simpa using h

namespace RegionTable

def items (t : RegionTable) : List Item := t.toList.flatMap Region.spelling.items

theorem items_sized (t : RegionTable) : ∀ i ∈ items t, i.Sized := by
  intro i hi
  obtain ⟨r, -, hr⟩ := List.mem_flatMap.1 hi
  exact Region.spelling.sized r i hr

theorem fields_items (t : RegionTable) : Item.fields (items t) = layout := by
  simp only [items, Table.toList, List.flatMap_cons, List.flatMap_nil, Item.fields_append,
    Region.spelling.fields_items]
  rfl

theorem items_decode (source : ByteArray) (p : Nat) :
    items (decode source p) = layout.items source p := by
  have h (k : RegionKind) := Region.spelling.items_decode source (entryOffset p k)
  have hl : layout = Region.format.layout ++ (Region.format.layout ++ (Region.format.layout ++
      (Region.format.layout ++ (Region.format.layout ++ [])))) := rfl
  simp only [hl, Layout.items_append, items, decode, Table.toList, List.flatMap_cons,
    List.flatMap_nil, h]
  rfl

theorem items_injective : Function.Injective items := by
  rintro ⟨a, b, c, d, e⟩ ⟨a', b', c', d', e'⟩ h
  have hl (r : Region) : (Region.spelling.items r).length = 14 := rfl
  simp only [items, Table.toList, List.flatMap_cons, List.flatMap_nil] at h
  obtain ⟨ha, h⟩ := List.append_inj h (by rw [hl, hl])
  obtain ⟨hb, h⟩ := List.append_inj h (by rw [hl, hl])
  obtain ⟨hc, h⟩ := List.append_inj h (by rw [hl, hl])
  obtain ⟨hd, h⟩ := List.append_inj h (by rw [hl, hl])
  obtain ⟨he, -⟩ := List.append_inj h (by rw [hl, hl])
  rw [Region.spelling.items_injective ha, Region.spelling.items_injective hb,
    Region.spelling.items_injective hc, Region.spelling.items_injective hd,
    Region.spelling.items_injective he]

end RegionTable

namespace HeapHeaders

def items (h : HeapHeaders) : List Item :=
  MappedHeapHeader.spelling.items h.mapped ++ StreamedHeapHeader.spelling.items h.streamed

theorem items_sized (h : HeapHeaders) : ∀ i ∈ items h, i.Sized := by
  intro i hi
  rcases List.mem_append.1 hi with hm | hs
  · exact MappedHeapHeader.spelling.sized h.mapped i hm
  · exact StreamedHeapHeader.spelling.sized h.streamed i hs

theorem fields_items (h : HeapHeaders) : Item.fields (items h) = layout := by
  rw [items, Item.fields_append, MappedHeapHeader.spelling.fields_items,
    StreamedHeapHeader.spelling.fields_items, layout]

theorem items_decode (source : ByteArray) (p : Nat) :
    items (decode source p) = layout.items source p := by
  simp only [items, decode, MappedHeapHeader.spelling.items_decode,
    StreamedHeapHeader.spelling.items_decode, layout, Layout.items_append]
  rfl

theorem items_injective : Function.Injective items := by
  rintro ⟨mapped, streamed⟩ ⟨mapped', streamed'⟩ h
  obtain ⟨hm, hs⟩ := List.append_inj h rfl
  obtain rfl := MappedHeapHeader.spelling.items_injective hm
  obtain rfl := StreamedHeapHeader.spelling.items_injective hs
  rfl

end HeapHeaders

namespace Configuration

def items (c : Configuration) (raw : ByteArray) : List Item :=
  MachineSettings.spelling.items c.toMachineSettings ++
      ⟨.block 256, raw⟩ :: ImageSettings.spelling.items c.toImageSettings ++
    HeapHeaders.items c.heap ++ ProfileSettings.spelling.items c.profile

def withIdentity (c : Configuration) (raw : ByteArray) : Configuration :=
  { c with identity := Text.lossy raw }

theorem items_sized (c : Configuration) {raw : ByteArray} (hr : raw.size = 256) :
    ∀ i ∈ items c raw, i.Sized := by
  simp only [items, List.mem_append, List.mem_cons]
  rintro i (((hi | rfl | hi) | hi) | hi)
  · exact MachineSettings.spelling.sized _ i hi
  · exact hr
  · exact ImageSettings.spelling.sized _ i hi
  · exact HeapHeaders.items_sized _ i hi
  · exact ProfileSettings.spelling.sized _ i hi

theorem fields_items (c : Configuration) (raw : ByteArray) :
    Item.fields (items c raw) = layout := by
  simp only [items, Item.fields_append, HeapHeaders.fields_items,
    ProfileSettings.spelling.fields_items]
  rfl

theorem items_decode (source : ByteArray) (p : Nat) :
    items (decode source p) (rawIdentity source p) = layout.items source p := by
  simp only [items, decode, MachineSettings.spelling.items_decode,
    ImageSettings.spelling.items_decode, HeapHeaders.items_decode,
    ProfileSettings.spelling.items_decode]
  simp only [layout, fixedLayout, Layout.items_append, Layout.items]
  rfl

/-- The items tell the configuration, but for the text of the identity, which its bytes tell. -/
theorem withIdentity_of_items {c c' : Configuration} {raw raw' : ByteArray}
    (he : items c raw = items c' raw') : c.withIdentity raw = c'.withIdentity raw' := by
  rcases c with ⟨machine, image, identity, heap, profile⟩
  rcases c' with ⟨machine', image', identity', heap', profile'⟩
  simp only [items, List.append_assoc] at he
  obtain ⟨hm, he⟩ := List.append_inj he rfl
  obtain ⟨hr, he⟩ := List.cons_eq_cons.1 he
  obtain ⟨hi, he⟩ := List.append_inj he rfl
  obtain ⟨hh, hp⟩ := List.append_inj he rfl
  obtain rfl := MachineSettings.spelling.items_injective hm
  obtain rfl := eq_of_heq (Sigma.mk.inj hr).2
  obtain rfl := ImageSettings.spelling.items_injective hi
  obtain rfl := HeapHeaders.items_injective hh
  obtain rfl := ProfileSettings.spelling.items_injective hp
  rfl

end Configuration

namespace Header

def items (h : Header) (raw : ByteArray) : List Item :=
  GenericHeader.spelling.items h.generic ++ RegionTable.items h.regions ++
    (MachineSettings.spelling.items h.config.toMachineSettings ++
      ⟨.block 256, raw⟩ :: ImageSettings.spelling.items h.config.toImageSettings ++
    (MappedHeapHeader.spelling.items h.config.heap.mapped ++
      StreamedHeapHeader.spelling.items h.config.heap.streamed) ++
    ProfileSettings.spelling.items h.config.profile)

theorem items_eq (h : Header) (raw : ByteArray) :
    items h raw = GenericHeader.spelling.items h.generic ++ RegionTable.items h.regions ++
      Configuration.items h.config raw := rfl

def withIdentity (h : Header) (raw : ByteArray) : Header :=
  { h with config := { h.config with identity := Text.lossy raw } }

def rawIdentity (source : ByteArray) : ByteArray := source.extract 584 840

theorem rawIdentity_eq (source : ByteArray) :
    Configuration.rawIdentity source (0 + GenericHeader.format.size + RegionTable.layout.size) =
      rawIdentity source := by
  have hi : Configuration.identityOffset
      (0 + GenericHeader.format.size + RegionTable.layout.size) = 584 := by decide
  have hj : Configuration.imageOffset
      (0 + GenericHeader.format.size + RegionTable.layout.size) = 840 := by decide
  rw [Configuration.rawIdentity, hi, hj, rawIdentity]

theorem items_decode (source : ByteArray) :
    items (decode source 0) (rawIdentity source) = layout.items source 0 := by
  simp only [items_eq, decode, ← rawIdentity_eq, GenericHeader.spelling.items_decode,
    RegionTable.items_decode, Configuration.items_decode, layout, Layout.items_append]
  rfl

theorem items_sized (h : Header) {raw : ByteArray} (hr : raw.size = 256) :
    ∀ i ∈ items h raw, i.Sized := by
  simp only [items_eq, List.mem_append]
  rintro i ((hi | hi) | hi)
  · exact GenericHeader.spelling.sized _ i hi
  · exact RegionTable.items_sized _ i hi
  · exact Configuration.items_sized _ hr i hi

theorem fields_items (h : Header) (raw : ByteArray) : Item.fields (items h raw) = layout := by
  rw [items_eq, Item.fields_append, Item.fields_append, GenericHeader.spelling.fields_items,
    RegionTable.fields_items, Configuration.fields_items, layout]

theorem withIdentity_of_items {h h' : Header} {raw raw' : ByteArray}
    (he : items h raw = items h' raw') : h.withIdentity raw = h'.withIdentity raw' := by
  rcases h with ⟨generic, regions, config⟩
  rcases h' with ⟨generic', regions', config'⟩
  simp only [items_eq, List.append_assoc] at he
  obtain ⟨hg, he⟩ := List.append_inj he rfl
  obtain ⟨ht, hc⟩ := List.append_inj he rfl
  obtain rfl := GenericHeader.spelling.items_injective hg
  obtain rfl := RegionTable.items_injective ht
  exact congrArg (Header.mk generic regions) (Configuration.withIdentity_of_items hc)

theorem decode_withIdentity (source : ByteArray) :
    (decode source 0).withIdentity (rawIdentity source) = decode source 0 := by
  rw [← rawIdentity_eq]
  rfl

structure Identity where
  bytes : ByteArray
  size_eq : bytes.size = 256

def encode (h : Header) (identity : Identity) (fill : Filling) : ByteArray :=
  ⟨(Item.write fill 0 (items h identity.bytes)).toArray⟩

theorem encode_size (h : Header) (identity : Identity) (fill : Filling) :
    (encode h identity fill).size = 1032 := by
  change (Item.write fill 0 (items h identity.bytes)).toArray.size = 1032
  rw [List.size_toArray, Item.write_length (items_sized h identity.size_eq), fields_items,
    layout_size]

theorem decode_encode (h : Header) (identity : Identity) (fill : Filling) (suffix : ByteArray) :
    decode (encode h identity fill ++ suffix) 0 = h.withIdentity identity.bytes := by
  have hs : (encode h identity fill ++ suffix).data.toList =
      [] ++ Item.write fill 0 (items h identity.bytes) ++ suffix.data.toList := by
    rw [ByteArray.data_append, Array.toList_append, encode, List.toList_toArray, List.nil_append]
  have hi := Layout.items_write (items_sized h identity.size_eq) hs
  rw [fields_items, List.length_nil] at hi
  rw [← decode_withIdentity]
  exact withIdentity_of_items ((items_decode _).trans hi)

theorem encode_decode {source : ByteArray} (h : 1032 ≤ source.size) (identity : Identity)
    (hi : identity.bytes = rawIdentity source) :
    encode (decode source 0) identity (.ofSource source) = source.extract 0 1032 := by
  have hl : 0 + layout.size ≤ source.size := by
    rw [layout_size]
    omega
  have hw := Layout.write_items hl
  rw [layout_size] at hw
  apply ByteArray.ext
  apply Array.toList_inj.1
  rw [encode, hi, items_decode, hw]

theorem decode_magic (source : ByteArray) : (decode source 0).generic.magic = magicOf source := rfl

theorem rawIdentity_size {source : ByteArray} (h : 1032 ≤ source.size) :
    (rawIdentity source).size = 256 := by
  rw [rawIdentity, ByteArray.size_extract]
  omega

/-- Headers are read as they were written, whatever the writer chose and whatever follows; and what
is read off a source is written again, with the choices that the source shows, as it stood there. -/
theorem encode_read_inverse :
    (∀ (h : Header) (identity : Identity) (fill : Filling) (suffix : ByteArray) (position : Nat),
      ∃ x, read h.generic.magic (encode h identity fill ++ suffix) position = x ∧
        x.result = .ok (h.withIdentity identity.bytes) ∧ x.position = 1032) ∧
    ∀ (expected : UInt32) (source : ByteArray) (position : Nat),
      1032 ≤ source.size → magicOf source = expected →
      ∃ x h identity, read expected source position = x ∧ x.result = .ok h ∧ x.position = 1032 ∧
        identity.bytes = rawIdentity source ∧ h.config.identity = Text.lossy identity.bytes ∧
        encode h identity (.ofSource source) = source.extract 0 1032 := by
  constructor
  · intro h identity fill suffix position
    have hd := decode_encode h identity fill suffix
    have hs : 1032 ≤ (encode h identity fill ++ suffix).size := by
      rw [ByteArray.size_append, encode_size]
      omega
    have hm : magicOf (encode h identity fill ++ suffix) = h.generic.magic := by
      rw [← decode_magic, hd]
      rfl
    have hr := read_whole position hs hm
    rw [hd] at hr
    exact ⟨_, rfl, hr⟩
  · intro expected source position hs hm
    obtain ⟨hr, hp⟩ := read_whole position hs hm
    let identity : Identity := ⟨rawIdentity source, rawIdentity_size hs⟩
    have hi : (decode source 0).config.identity = Text.lossy identity.bytes := by
      rw [← decode_withIdentity]
      rfl
    exact ⟨_, decode source 0, identity, rfl, hr, hp, rfl, hi, encode_decode hs identity rfl⟩

def countingBytes : ByteArray := ⟨((List.range 1040).map UInt8.ofNat).toArray⟩

theorem countingBytes_written_again :
    1032 ≤ countingBytes.size ∧ magicOf countingBytes = 0x03020100 ∧
      ∃ h identity, (read 0x03020100 countingBytes 7).result = .ok h ∧
        encode h identity (.ofSource countingBytes) = countingBytes.extract 0 1032 := by
  have hs : 1032 ≤ countingBytes.size := by decide +kernel
  have hm : magicOf countingBytes = 0x03020100 := by decide +kernel
  obtain ⟨_, h, identity, rfl, hr, -, -, -, he⟩ :=
    encode_read_inverse.2 0x03020100 countingBytes 7 hs hm
  exact ⟨hs, hm, h, identity, hr, he⟩

end Header

end SharedArchive
