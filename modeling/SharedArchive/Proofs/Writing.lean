import Mathlib
import SharedArchive.Bytes.Layout
import SharedArchive.Proofs.LittleEndian

/-!
Writing fields. A field's value is written with the field's width, numbers least significant byte
first and signed ones in two's complement; what the format leaves free, the bytes of the gaps and
the bytes that set flags, is for the writer to choose. Writing and reading are inverse to each other
on every list of fields, whatever was chosen, and a source's own choices give back its bytes.
-/

namespace SharedArchive

/-- A writer's choices: the byte at each position in a gap, and the byte that sets a flag at each
position. -/
structure Filling where
  gap : Nat → UInt8
  mark : Nat → UInt8
  mark_ne_zero : ∀ p, mark p ≠ 0

namespace Filling

def byteAt (source : ByteArray) (p : Nat) : UInt8 := source.data.toList.getD p 0

theorem extract_bytesAt {source : ByteArray} {p n : Nat} (h : p + n ≤ source.size) :
    (source.extract p (p + n)).data.toList = (List.range n).map fun i => byteAt source (p + i) := by
  have hs : source.data.toList.length = source.size := Array.length_toList
  have he : (source.extract p (p + n)).data.toList = (source.data.toList.drop p).take n := by
    rw [ByteArray.data_extract, Array.toList_extract, List.extract_eq_take_drop,
      Nat.add_sub_cancel_left]
  rw [he]
  apply List.ext_getElem
  · simp only [List.length_take, List.length_drop, List.length_map, List.length_range]
    omega
  · intro i hi hj
    simp only [List.length_map, List.length_range] at hj
    have hp : p + i < source.data.toList.length := by omega
    rw [List.getElem_take, List.getElem_drop, List.getElem_map, List.getElem_range, byteAt,
      List.getD_eq_getElem _ _ hp]

/-- The choices that a source shows. Where it shows none, any byte sets the flag. -/
def ofSource (source : ByteArray) : Filling where
  gap := byteAt source
  mark p := if byteAt source p = 0 then 1 else byteAt source p
  mark_ne_zero p := by
    split_ifs with h
    · decide
    · exact h

end Filling

def twosComplement (width : Nat) (z : Int) : List UInt8 :=
  toLittleEndian width (z % (256 ^ width : Nat)).toNat

theorem toNat_toInt_emod {w : Nat} (x : BitVec w) : (x.toInt % (2 ^ w : Nat)).toNat = x.toNat := by
  rw [BitVec.toInt_eq_toNat_bmod, Int.bmod_emod, Int.emod_eq_of_lt (by omega)]
  · exact Int.toNat_natCast _
  · exact_mod_cast x.isLt

namespace Field

def Sized : (f : Field) → f.Value → Prop
  | .block size, raw => raw.size = size
  | _, _ => True

def write (fill : Filling) (p : Nat) : (f : Field) → f.Value → List UInt8
  | .u8, v => toLittleEndian 1 v.toNat
  | .u16, v => toLittleEndian 2 v.toNat
  | .u32, v => toLittleEndian 4 v.toNat
  | .u64, v => toLittleEndian 8 v.toNat
  | .i16, v => twosComplement 2 v.toInt
  | .i32, v => twosComplement 4 v.toInt
  | .i64, v => twosComplement 8 v.toInt
  | .flag, b => [if b then fill.mark p else 0]
  | .block _, raw => raw.data.toList
  | .gap size, _ => (List.range size).map fun i => fill.gap (p + i)

theorem write_length {fill : Filling} {p : Nat} {f : Field} {v : f.Value} (h : f.Sized v) :
    (f.write fill p v).length = f.width := by
  cases f with
  | block size => exact h
  | gap size => simp [write, width]
  | flag => rfl
  | _ => simp [write, width, twosComplement, toLittleEndian_length]

theorem decode_write {fill : Filling} {p : Nat} {f : Field} {v : f.Value} {raw : ByteArray}
    (h : raw.data.toList = f.write fill p v) : f.decode raw = v := by
  cases f with
  | u8 =>
    rw [decode, h, write, littleEndian_toLittleEndian_of_lt v.toNat_lt, UInt8.ofNat_toNat]
  | u16 =>
    rw [decode, h, write, littleEndian_toLittleEndian_of_lt v.toNat_lt, UInt16.ofNat_toNat]
  | u32 =>
    rw [decode, h, write, littleEndian_toLittleEndian_of_lt v.toNat_lt, UInt32.ofNat_toNat]
  | u64 =>
    rw [decode, h, write, littleEndian_toLittleEndian_of_lt v.toNat_lt, UInt64.ofNat_toNat]
  | i16 =>
    have hn : (v.toInt % (256 ^ 2 : Nat)).toNat = v.toUInt16.toNat := toNat_toInt_emod v.toBitVec
    rw [decode, h, write, twosComplement, hn,
      littleEndian_toLittleEndian_of_lt v.toUInt16.toNat_lt, UInt16.ofNat_toNat]
    rfl
  | i32 =>
    have hn : (v.toInt % (256 ^ 4 : Nat)).toNat = v.toUInt32.toNat := toNat_toInt_emod v.toBitVec
    rw [decode, h, write, twosComplement, hn,
      littleEndian_toLittleEndian_of_lt v.toUInt32.toNat_lt, UInt32.ofNat_toNat]
    rfl
  | i64 =>
    have hn : (v.toInt % (256 ^ 8 : Nat)).toNat = v.toUInt64.toNat := toNat_toInt_emod v.toBitVec
    rw [decode, h, write, twosComplement, hn,
      littleEndian_toLittleEndian_of_lt v.toUInt64.toNat_lt, UInt64.ofNat_toNat]
    rfl
  | flag =>
    have hm : (fill.mark p).toNat ≠ 0 := fun hz => fill.mark_ne_zero p (UInt8.toNat_inj.1 hz)
    cases v <;> simp [decode, h, write, littleEndian, hm]
  | block size => exact ByteArray.ext (Array.toList_inj.1 h)
  | gap size => rfl

theorem write_decode {source : ByteArray} {p : Nat} {f : Field} (h : p + f.width ≤ source.size) :
    f.write (.ofSource source) p (f.decode (source.extract p (p + f.width))) =
      (source.extract p (p + f.width)).data.toList := by
  have hb := Filling.extract_bytesAt h
  have hl : (source.extract p (p + f.width)).data.toList.length = f.width := by
    rw [hb, List.length_map, List.length_range]
  have hlt := littleEndian_lt (source.extract p (p + f.width)).data.toList
  have hw := toLittleEndian_of_length hl
  rw [hl] at hlt
  generalize source.extract p (p + f.width) = raw at *
  cases f with
  | u8 => rw [decode, write, UInt8.toNat_ofNat_of_lt' hlt]; exact hw
  | u16 => rw [decode, write, UInt16.toNat_ofNat_of_lt' hlt]; exact hw
  | u32 => rw [decode, write, UInt32.toNat_ofNat_of_lt' hlt]; exact hw
  | u64 => rw [decode, write, UInt64.toNat_ofNat_of_lt' hlt]; exact hw
  | i16 =>
    have hn := toNat_toInt_emod (UInt16.ofNat (littleEndian raw.data.toList)).toBitVec
    have ht := UInt16.toNat_ofNat_of_lt' hlt
    exact (congrArg (toLittleEndian 2) (hn.trans ht)).trans hw
  | i32 =>
    have hn := toNat_toInt_emod (UInt32.ofNat (littleEndian raw.data.toList)).toBitVec
    have ht := UInt32.toNat_ofNat_of_lt' hlt
    exact (congrArg (toLittleEndian 4) (hn.trans ht)).trans hw
  | i64 =>
    have hn := toNat_toInt_emod (UInt64.ofNat (littleEndian raw.data.toList)).toBitVec
    have ht := UInt64.toNat_ofNat_of_lt' hlt
    exact (congrArg (toLittleEndian 8) (hn.trans ht)).trans hw
  | flag =>
    have he : raw.data.toList = [Filling.byteAt source p] := hb
    by_cases hz : Filling.byteAt source p = 0
    · simp [decode, write, he, littleEndian, hz]
    · have hn : (Filling.byteAt source p).toNat ≠ 0 := fun h0 => hz (UInt8.toNat_inj.1 h0)
      simp [decode, write, he, littleEndian, hn, Filling.ofSource, hz]
  | block size => rfl
  | gap size => exact hb.symm

end Field

abbrev Item := Sigma Field.Value

namespace Item

def Sized (i : Item) : Prop := i.1.Sized i.2

def fields (items : List Item) : Layout := items.map Sigma.fst

theorem fields_append (a b : List Item) : fields (a ++ b) = fields a ++ fields b :=
  List.map_append

def write (fill : Filling) : Nat → List Item → List UInt8
  | _, [] => []
  | p, ⟨f, v⟩ :: rest => f.write fill p v ++ write fill (p + f.width) rest

theorem write_length {fill : Filling} {p : Nat} {items : List Item}
    (h : ∀ i ∈ items, i.Sized) : (write fill p items).length = (fields items).size := by
  induction items generalizing p with
  | nil => rfl
  | cons i rest ih =>
    have hi := h i List.mem_cons_self
    have hr := ih (p := p + i.1.width) fun j hj => h j (List.mem_cons_of_mem _ hj)
    rw [write, List.length_append, Field.write_length hi, hr]
    rfl

end Item

namespace Layout

def items : Layout → ByteArray → Nat → List Item
  | [], _, _ => []
  | f :: fs, source, p =>
    ⟨f, f.decode (source.extract p (p + f.width))⟩ :: items fs source (p + f.width)

theorem items_append (l m : Layout) (source : ByteArray) (p : Nat) :
    (l ++ m).items source p = l.items source p ++ m.items source (p + l.size) := by
  induction l generalizing p with
  | nil => rfl
  | cons f fs ih => simp [items, size, ih, Nat.add_assoc]

theorem extract_between {source : ByteArray} {a b c : List UInt8}
    (h : source.data.toList = a ++ b ++ c) :
    (source.extract a.length (a.length + b.length)).data.toList = b := by
  rw [ByteArray.data_extract, Array.toList_extract, List.extract_eq_take_drop, h,
    Nat.add_sub_cancel_left, List.append_assoc, List.drop_left, List.take_left]

theorem items_write {source : ByteArray} {fill : Filling} {items : List Item}
    (h : ∀ i ∈ items, i.Sized) {before after : List UInt8}
    (hs : source.data.toList = before ++ Item.write fill before.length items ++ after) :
    (Item.fields items).items source before.length = items := by
  -- what has been written before the rest grows by one field
  induction items generalizing before with
  | nil => rfl
  | cons i rest ih =>
    obtain ⟨f, v⟩ := i
    have hl : (f.write fill before.length v).length = f.width :=
      Field.write_length (h ⟨f, v⟩ List.mem_cons_self)
    have hs' : source.data.toList = before ++ f.write fill before.length v ++
        (Item.write fill (before.length + f.width) rest ++ after) := by
      rw [hs, Item.write]
      simp only [List.append_assoc]
    have hv : f.decode (source.extract before.length (before.length + f.width)) = v := by
      have he := extract_between hs'
      rw [hl] at he
      exact Field.decode_write he
    have hb : (before ++ f.write fill before.length v).length = before.length + f.width := by
      rw [List.length_append, hl]
    have hs'' : source.data.toList = before ++ f.write fill before.length v ++
        Item.write fill (before ++ f.write fill before.length v).length rest ++ after := by
      rw [hb, hs']
      simp only [List.append_assoc]
    have hr := ih (fun j hj => h j (List.mem_cons_of_mem _ hj)) hs''
    rw [hb] at hr
    change ⟨f, _⟩ :: (Item.fields rest).items source _ = _
    rw [hv, hr]

theorem write_items {source : ByteArray} {l : Layout} {p : Nat} (h : p + l.size ≤ source.size) :
    Item.write (.ofSource source) p (l.items source p) =
      (source.extract p (p + l.size)).data.toList := by
  induction l generalizing p with
  | nil =>
    have he : source.extract p (p + size []) = ByteArray.empty := ByteArray.extract_same
    rw [he]
    rfl
  | cons f fs ih =>
    simp only [size] at h
    have hf : p + f.width ≤ source.size := by omega
    have hr := ih (p := p + f.width) (by omega)
    have hsplit := ByteArray.extract_eq_extract_append_extract (a := source) (i := p)
      (k := p + f.width + size fs) (p + f.width) (by omega) (by omega)
    rw [items, Item.write, Field.write_decode hf, hr, size, ← Nat.add_assoc, hsplit,
      ByteArray.data_append, Array.toList_append]

end Layout

theorem extract_middle (before middle after : ByteArray) :
    (before ++ middle ++ after).extract before.size (before.size + middle.size) = middle := by
  have hbytes : (before ++ middle ++ after).data.toList =
      before.data.toList ++ middle.data.toList ++ after.data.toList := by
    simp
  exact ByteArray.ext (Array.toList_inj.1 (Layout.extract_between hbytes))

/-- A record's fields with their values, listed apart from the format: they are what the format
reads, and they tell the record. -/
structure Spelling {α : Type} (f : Format α) where
  items : α → List Item
  sized : ∀ a, ∀ i ∈ items a, i.Sized := by simp [Item.Sized, Field.Sized]
  fields_items : ∀ a, Item.fields (items a) = f.layout := by exact fun _ => rfl
  items_decode : ∀ source p, items (f.decode source p) = f.layout.items source p
  items_injective : Function.Injective items

end SharedArchive
