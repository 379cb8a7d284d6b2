import Mathlib
import SharedArchive.Proofs.HeaderWriting

/-!
Records that can stand anywhere. A record is read from the bytes that it covers and from nothing
else: wherever it begins, it is the record that these bytes alone would give, and where the source
is too short for it, the failure is that of the bytes that are left, moved to where they begin. So
records that were written one after the other are read again one after the other.
-/

namespace SharedArchive

namespace Reader.Follows

variable {α : Type} {r : Reader Truncated α} {l : Layout} {v : ByteArray → Nat → α}

theorem fits_relocated (h : Follows r l v) {source : ByteArray} {start : Nat}
    (hs : start + l.size ≤ source.size) :
    ∃ a, (r source start).result = .ok a ∧ (r source start).position = start + l.size ∧
      (r (source.extract start (start + l.size)) 0).result = .ok a := by
  obtain ⟨hresult, hposition⟩ := h.fits source start (Nat.le_sub_of_add_le' hs)
  have hsize : (source.extract start (start + l.size)).size = l.size := by
    rw [ByteArray.size_extract]
    omega
  have hwindow : source.extract start (start + l.size) =
      (source.extract start (start + l.size)).extract 0 (0 + l.size) := by
    rw [ByteArray.extract_extract, Nat.add_zero, Nat.zero_add, Nat.min_self]
  have halone := (h.fits (source.extract start (start + l.size)) 0 (by omega)).1
  rw [← h.window _ _ _ _ hwindow] at halone
  exact ⟨_, hresult, hposition, halone⟩

theorem truncated_relocated (h : Follows r l v) {source : ByteArray} {start : Nat}
    (hs : source.size - start < l.size) :
    ∃ t, (r (source.extract (min start source.size) source.size) 0).result = .error t ∧
      (r source start).result = .error { t with position := start + t.position } ∧
      (r source start).position = start + t.position := by
  obtain ⟨place, ⟨hp, hh⟩, -⟩ := Layout.existsUnique_place hs
  obtain ⟨hresult, hposition⟩ := h.truncated source start place hp hh
  have hsize : (source.extract (min start source.size) source.size).size - 0 =
      source.size - start := by
    rw [ByteArray.size_extract]
    omega
  rw [← hsize] at hh
  have halone := (h.truncated _ 0 place hp hh).1
  rw [hsize, Nat.zero_add] at halone
  exact ⟨_, halone, hresult, hposition⟩

end Reader.Follows

/-- The records that can be read on their own. -/
inductive RecordKind
  | generic
  | region
  | regionTable
  | heapHeaders
  | profile
  | configuration
deriving DecidableEq

namespace RecordKind

@[reducible] def Value : RecordKind → Type
  | generic => GenericHeader
  | region => Region
  | regionTable => RegionTable
  | heapHeaders => HeapHeaders
  | profile => ProfileSettings
  | configuration => Configuration

def size : RecordKind → Nat
  | generic => 24
  | region => 96
  | regionTable => 480
  | heapHeaders => 96
  | profile => 40
  | configuration => 528

def read : (k : RecordKind) → Reader Truncated k.Value
  | generic => GenericHeader.read
  | region => Reader.record Region.format
  | regionTable => RegionTable.read
  | heapHeaders => HeapHeaders.read
  | profile => Reader.record ProfileSettings.format
  | configuration => Configuration.read

def layout : RecordKind → Layout
  | generic => GenericHeader.format.layout
  | region => Region.format.layout
  | regionTable => RegionTable.layout
  | heapHeaders => HeapHeaders.layout
  | profile => ProfileSettings.format.layout
  | configuration => Configuration.layout

def decode : (k : RecordKind) → ByteArray → Nat → k.Value
  | generic => GenericHeader.format.decode
  | region => Region.format.decode
  | regionTable => RegionTable.decode
  | heapHeaders => HeapHeaders.decode
  | profile => ProfileSettings.format.decode
  | configuration => Configuration.decode

theorem layout_size (k : RecordKind) : k.layout.size = k.size := by
  cases k <;> decide

theorem size_pos (k : RecordKind) : 0 < k.size := by
  cases k <;> decide

theorem read_follows (k : RecordKind) : Reader.Follows k.read k.layout k.decode := by
  cases k with
  | generic => exact GenericHeader.read_follows
  | region => exact .record Region.format
  | regionTable => exact RegionTable.read_follows
  | heapHeaders => exact HeapHeaders.read_follows
  | profile => exact .record ProfileSettings.format
  | configuration => exact Configuration.read_follows

def items : (k : RecordKind) → k.Value → ByteArray → List Item
  | generic, h, _ => GenericHeader.spelling.items h
  | region, r, _ => Region.spelling.items r
  | regionTable, t, _ => t.items
  | heapHeaders, h, _ => h.items
  | profile, p, _ => ProfileSettings.spelling.items p
  | configuration, c, raw => c.items raw

/-- Of the values, only a configuration has bytes that its items tell and it does not. -/
def rawIdentity : RecordKind → ByteArray → Nat → ByteArray
  | configuration => Configuration.rawIdentity
  | _ => fun _ _ => .empty

def withIdentity : (k : RecordKind) → k.Value → ByteArray → k.Value
  | configuration, c, raw => c.withIdentity raw
  | generic, h, _ => h
  | region, r, _ => r
  | regionTable, t, _ => t
  | heapHeaders, h, _ => h
  | profile, p, _ => p

section Items

variable (k : RecordKind)

theorem items_sized (v : k.Value) {raw : ByteArray} (hr : raw.size = 256) :
    ∀ i ∈ k.items v raw, i.Sized := by
  cases k with
  | generic => exact GenericHeader.spelling.sized v
  | region => exact Region.spelling.sized v
  | regionTable => exact RegionTable.items_sized v
  | heapHeaders => exact HeapHeaders.items_sized v
  | profile => exact ProfileSettings.spelling.sized v
  | configuration => exact Configuration.items_sized v hr

theorem fields_items (v : k.Value) (raw : ByteArray) :
    Item.fields (k.items v raw) = k.layout := by
  cases k with
  | generic => exact GenericHeader.spelling.fields_items v
  | region => exact Region.spelling.fields_items v
  | regionTable => exact RegionTable.fields_items v
  | heapHeaders => exact HeapHeaders.fields_items v
  | profile => exact ProfileSettings.spelling.fields_items v
  | configuration => exact Configuration.fields_items v raw

theorem items_decode (source : ByteArray) (p : Nat) :
    k.items (k.decode source p) (k.rawIdentity source p) = k.layout.items source p := by
  cases k with
  | generic => exact GenericHeader.spelling.items_decode source p
  | region => exact Region.spelling.items_decode source p
  | regionTable => exact RegionTable.items_decode source p
  | heapHeaders => exact HeapHeaders.items_decode source p
  | profile => exact ProfileSettings.spelling.items_decode source p
  | configuration => exact Configuration.items_decode source p

theorem withIdentity_of_items {v v' : k.Value} {raw raw' : ByteArray}
    (he : k.items v raw = k.items v' raw') : k.withIdentity v raw = k.withIdentity v' raw' := by
  cases k with
  | generic => exact GenericHeader.spelling.items_injective he
  | region => exact Region.spelling.items_injective he
  | regionTable => exact RegionTable.items_injective he
  | heapHeaders => exact HeapHeaders.items_injective he
  | profile => exact ProfileSettings.spelling.items_injective he
  | configuration => exact Configuration.withIdentity_of_items he

theorem decode_withIdentity (source : ByteArray) (p : Nat) :
    k.withIdentity (k.decode source p) (k.rawIdentity source p) = k.decode source p := by
  cases k <;> rfl

end Items

def readEach : List RecordKind → Reader Truncated (List (Sigma Value))
  | [] => pure []
  | k :: ks => do
    let v ← k.read
    let vs ← readEach ks
    return ⟨k, v⟩ :: vs

theorem readEach_cons_ok {k : RecordKind} {ks : List RecordKind} {source : ByteArray} {p : Nat}
    {v : k.Value} {vs : List (Sigma Value)} (hv : (k.read source p).result = .ok v)
    (hvs : (readEach ks source (k.read source p).position).result = .ok vs) :
    (readEach (k :: ks) source p).result = .ok (⟨k, v⟩ :: vs) ∧
      (readEach (k :: ks) source p).position =
        (readEach ks source (k.read source p).position).position := by
  obtain ⟨hfirst, hmiddle⟩ := Reader.bind_of_ok (fun v => do
    let vs ← readEach ks
    return (⟨k, v⟩ :: vs : List (Sigma Value))) hv
  obtain ⟨hrest, hend⟩ := Reader.bind_of_ok
    (fun vs => pure (⟨k, v⟩ :: vs : List (Sigma Value))) hvs
  exact ⟨hfirst.trans hrest, hmiddle.trans hend⟩

end RecordKind

/-- A record as a writer hands it over, with the bytes of the identity, if it has one, and the
writer's choices. -/
structure WrittenRecord where
  kind : RecordKind
  value : kind.Value
  identity : Header.Identity
  fill : Filling

namespace WrittenRecord

def encode (w : WrittenRecord) : ByteArray :=
  ⟨(Item.write w.fill 0 (w.kind.items w.value w.identity.bytes)).toArray⟩

def record (w : WrittenRecord) : Sigma RecordKind.Value :=
  ⟨w.kind, w.kind.withIdentity w.value w.identity.bytes⟩

def encodeAll : List WrittenRecord → ByteArray
  | [] => .empty
  | w :: rest => w.encode ++ encodeAll rest

theorem encode_size (w : WrittenRecord) : w.encode.size = w.kind.size := by
  change (Item.write w.fill 0 (w.kind.items w.value w.identity.bytes)).toArray.size = w.kind.size
  rw [List.size_toArray, Item.write_length (w.kind.items_sized w.value w.identity.size_eq),
    w.kind.fields_items, w.kind.layout_size]

theorem decode_encode (w : WrittenRecord) :
    w.kind.decode w.encode 0 = w.kind.withIdentity w.value w.identity.bytes := by
  have hbytes : w.encode.data.toList =
      [] ++ Item.write w.fill 0 (w.kind.items w.value w.identity.bytes) ++ [] := by
    rw [encode, List.toList_toArray, List.nil_append, List.append_nil]
  have hitems := Layout.items_write (w.kind.items_sized w.value w.identity.size_eq) hbytes
  rw [w.kind.fields_items, List.length_nil] at hitems
  rw [← w.kind.decode_withIdentity]
  exact w.kind.withIdentity_of_items ((w.kind.items_decode _ 0).trans hitems)

theorem decode_middle (w : WrittenRecord) (before after : ByteArray) :
    w.kind.decode (before ++ w.encode ++ after) before.size =
      w.kind.withIdentity w.value w.identity.bytes := by
  have hmiddle := extract_middle before w.encode after
  have halone : w.encode.extract 0 (0 + w.encode.size) = w.encode := by
    rw [Nat.zero_add, ByteArray.extract_zero_size]
  rw [← w.decode_encode]
  apply w.kind.read_follows.window
  rw [w.kind.layout_size, ← w.encode_size, hmiddle, halone]

theorem read_middle (w : WrittenRecord) (before after : ByteArray) :
    (w.kind.read (before ++ w.encode ++ after) before.size).result =
        .ok (w.kind.withIdentity w.value w.identity.bytes) ∧
      (w.kind.read (before ++ w.encode ++ after) before.size).position =
        (before ++ w.encode).size := by
  have hfits : w.kind.layout.size ≤ (before ++ w.encode ++ after).size - before.size := by
    rw [w.kind.layout_size, ← w.encode_size, ByteArray.size_append, ByteArray.size_append]
    omega
  obtain ⟨hresult, hposition⟩ := w.kind.read_follows.fits _ before.size hfits
  rw [decode_middle] at hresult
  rw [w.kind.layout_size, ← w.encode_size] at hposition
  exact ⟨hresult, hposition.trans ByteArray.size_append.symm⟩

theorem readEach_encodeAll (records : List WrittenRecord) (before after : ByteArray) :
    (RecordKind.readEach (records.map kind) (before ++ encodeAll records ++ after)
        before.size).result = .ok (records.map record) ∧
      (RecordKind.readEach (records.map kind) (before ++ encodeAll records ++ after)
        before.size).position = before.size + (encodeAll records).size := by
  -- what has been read before the rest grows by one record
  induction records generalizing before with
  | nil => exact ⟨rfl, rfl⟩
  | cons w rest ih =>
    have hbytes : before ++ encodeAll (w :: rest) ++ after =
        before ++ w.encode ++ encodeAll rest ++ after := by
      simp [encodeAll, ByteArray.append_assoc]
    have hsize : before.size + (encodeAll (w :: rest)).size =
        (before ++ w.encode).size + (encodeAll rest).size := by
      simp [encodeAll, Nat.add_assoc]
    obtain ⟨hfirst, hmiddle⟩ := w.read_middle before (encodeAll rest ++ after)
    rw [← ByteArray.append_assoc] at hfirst hmiddle
    obtain ⟨hrest, hend⟩ := ih (before ++ w.encode)
    rw [← hmiddle] at hrest
    obtain ⟨hall, hlast⟩ := RecordKind.readEach_cons_ok hfirst hrest
    rw [hmiddle] at hlast
    rw [hbytes, hsize, ← hend, ← hlast]
    exact ⟨hall, rfl⟩

end WrittenRecord

namespace RecordKind

theorem read_window (k : RecordKind) {source source' : ByteArray} {start start' : Nat}
    (hs : start + k.size ≤ source.size)
    (hwindow : source.extract start (start + k.size) =
      source'.extract start' (start' + k.size)) :
    (k.read source' start').result = (k.read source start).result := by
  have hpos := k.size_pos
  have hs' : start' + k.size ≤ source'.size := by
    have hsizes := congrArg ByteArray.size hwindow
    rw [ByteArray.size_extract, ByteArray.size_extract] at hsizes
    omega
  rw [← k.layout_size] at hs hs' hwindow
  have hread := (k.read_follows.fits source start (Nat.le_sub_of_add_le' hs)).1
  have hread' := (k.read_follows.fits source' start' (Nat.le_sub_of_add_le' hs')).1
  rw [hread, hread', k.read_follows.window _ _ _ _ hwindow]

/-- A record is read wherever its bytes all are, from these bytes alone, and elsewhere the failure
is that of the bytes that are left; and records that were written one after the other, of any kinds
and between any other bytes, are read one after the other. -/
theorem reading_relocates :
    (∀ (k : RecordKind) (source : ByteArray) (start : Nat),
      if start + k.size ≤ source.size then
        ∃ v, (k.read source start).result = .ok v ∧
          (k.read source start).position = start + k.size ∧
          (k.read (source.extract start (start + k.size)) 0).result = .ok v
      else
        ∃ t, (k.read (source.extract (min start source.size) source.size) 0).result = .error t ∧
          (k.read source start).result = .error { t with position := start + t.position } ∧
          (k.read source start).position = start + t.position) ∧
    (∀ (k : RecordKind) (source source' : ByteArray) (start start' : Nat),
      start + k.size ≤ source.size →
      source.extract start (start + k.size) = source'.extract start' (start' + k.size) →
      (k.read source' start').result = (k.read source start).result) ∧
    ∀ (records : List WrittenRecord) (before after : ByteArray),
      let outcome := readEach (records.map WrittenRecord.kind)
        (before ++ WrittenRecord.encodeAll records ++ after) before.size
      outcome.result = .ok (records.map WrittenRecord.record) ∧
        outcome.position = before.size + (WrittenRecord.encodeAll records).size := by
  refine ⟨?_, fun k _ _ _ _ hs hwindow => k.read_window hs hwindow, ?_⟩
  · intro k source start
    have hpos := k.size_pos
    rw [← k.layout_size] at hpos ⊢
    split_ifs with hs
    · exact k.read_follows.fits_relocated hs
    · exact k.read_follows.truncated_relocated (by omega)
  · intro records before after
    exact WrittenRecord.readEach_encodeAll records before after

def plainBytes : ByteArray := ⟨((List.range 40).map UInt8.ofNat).toArray⟩

def movedBytes : ByteArray := ⟨#[7, 7, 7]⟩ ++ plainBytes ++ ⟨#[9]⟩

theorem profile_relocated :
    3 + profile.size ≤ movedBytes.size ∧
      movedBytes.extract 3 (3 + profile.size) = plainBytes.extract 0 (0 + profile.size) ∧
      (profile.read plainBytes 0).result = (profile.read movedBytes 3).result := by
  have hs : 3 + profile.size ≤ movedBytes.size := by decide
  have hwindow : movedBytes.extract 3 (3 + profile.size) =
      plainBytes.extract 0 (0 + profile.size) := by decide
  exact ⟨hs, hwindow, reading_relocates.2.1 profile _ _ _ _ hs hwindow⟩

end RecordKind

end SharedArchive
