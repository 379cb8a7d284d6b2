import Mathlib
import SharedArchive.Proofs.EncodedText
import SharedArchive.Proofs.Symbols
import SharedArchive.Proofs.Writing

/-!
Symbols as they are written. A symbol that was written is read back wherever it stands, its text
unchanged if it is text, and symbols written one after the other are found by going on from each by
its size, which counts the bytes that were written and not the text that they decode to.
-/

namespace SharedArchive.Symbol

def encode (hash : UInt32) (raw : ByteArray) : ByteArray :=
  ⟨(toLittleEndian 4 hash.toNat ++ toLittleEndian 2 raw.size ++ raw.data.toList).toArray⟩

section Encoding

variable (hash : UInt32) (raw : ByteArray)

theorem length_data : raw.data.toList.length = raw.size := Array.length_toList

theorem encode_bytes : (encode hash raw).data.toList =
    toLittleEndian 4 hash.toNat ++ toLittleEndian 2 raw.size ++ raw.data.toList := rfl

theorem encode_size : (encode hash raw).size = 6 + raw.size := by
  rw [← length_data, encode_bytes]
  simp [toLittleEndian_length]
  omega

theorem encode_hash : numberAt (encode hash raw) 0 4 = hash.toNat := by
  have hbytes : (encode hash raw).data.toList =
      [] ++ toLittleEndian 4 hash.toNat ++ (toLittleEndian 2 raw.size ++ raw.data.toList) := by
    simp [encode_bytes]
  have hextract := Layout.extract_between hbytes
  rw [List.length_nil, toLittleEndian_length] at hextract
  rw [numberAt, hextract, littleEndian_toLittleEndian_of_lt hash.toNat_lt]

theorem encode_length (h : raw.size ≤ 65535) : numberAt (encode hash raw) 4 2 = raw.size := by
  have hextract := Layout.extract_between (encode_bytes hash raw)
  rw [toLittleEndian_length, toLittleEndian_length] at hextract
  rw [numberAt, hextract, littleEndian_toLittleEndian_of_lt (by omega)]

theorem encode_raw : (encode hash raw).extract 6 (6 + raw.size) = raw := by
  have hbytes : (encode hash raw).data.toList =
      (toLittleEndian 4 hash.toNat ++ toLittleEndian 2 raw.size) ++ raw.data.toList ++ [] := by
    simp [encode_bytes]
  have hextract := Layout.extract_between hbytes
  rw [List.length_append, toLittleEndian_length, toLittleEndian_length, length_data] at hextract
  exact ByteArray.ext (Array.toList_inj.1 hextract)

end Encoding

def written (fileOffset : UInt64) (hash : UInt32) (raw : ByteArray) : Symbol :=
  ⟨fileOffset, hash, UInt16.ofNat raw.size, Text.lossy raw⟩

section Reading

variable {source raw : ByteArray} {hash : UInt32} {fileOffset : UInt64}

theorem length_toNat {n : Nat} (h : n ≤ 65535) : (UInt16.ofNat n).toNat = n :=
  UInt16.toNat_ofNat_of_lt' (Nat.lt_succ_of_le h)

theorem size_eq (s : Symbol) : s.size = 6 + s.length.toNat := rfl

theorem written_size (h : raw.size ≤ 65535) :
    (written fileOffset hash raw).size = (encode hash raw).size := by
  rw [encode_size, size_eq, written, length_toNat h]

theorem read_of_extract (hraw : raw.size ≤ 65535)
    (h : source.extract fileOffset.toNat (fileOffset.toNat + (6 + raw.size)) = encode hash raw)
    (p : Nat) : (read fileOffset source p).result = .ok (written fileOffset hash raw) := by
  have hsize : fileOffset.toNat + 6 + raw.size ≤ source.size := by
    have hbytes := congrArg ByteArray.size h
    rw [encode_size, ByteArray.size_extract] at hbytes
    omega
  have hhash : numberAt source fileOffset.toNat 4 = hash.toNat := by
    rw [← encode_hash hash raw, ← h, numberAt_extract (by omega), Nat.add_zero]
  have hlength : lengthAt source fileOffset = raw.size := by
    rw [lengthAt, ← encode_length hash raw hraw, ← h, numberAt_extract (by omega)]
  have hbody : source.extract (fileOffset.toNat + 6) (fileOffset.toNat + 6 + raw.size) = raw := by
    have hpart := encode_raw hash raw
    rw [← h, ByteArray.extract_extract, Nat.min_self, ← Nat.add_assoc] at hpart
    exact hpart
  rw [read_ok_iff]
  refine ⟨⟨by omega, by omega⟩, ?_⟩
  rw [ofSource, hhash, hlength, hbody, UInt32.ofNat_toNat, written]

theorem read_encode (hraw : raw.size ≤ 65535) {before : ByteArray} (after : ByteArray)
    (hoffset : fileOffset.toNat = before.size) (p : Nat) :
    (read fileOffset (before ++ encode hash raw ++ after) p).result =
      .ok (written fileOffset hash raw) := by
  apply read_of_extract hraw
  rw [hoffset, ← encode_size hash raw, extract_middle]

end Reading

abbrev Record := UInt32 × ByteArray

def encodeAll : List Record → ByteArray
  | [] => .empty
  | r :: rest => encode r.1 r.2 ++ encodeAll rest

def writtenFrom : Nat → List Record → List Symbol
  | _, [] => []
  | offset, r :: rest =>
    written (UInt64.ofNat offset) r.1 r.2 :: writtenFrom (offset + (encode r.1 r.2).size) rest

theorem size_pos (s : Symbol) : 0 < s.size := by
  rw [size_eq]
  omega

/-- The symbols from an offset up to another one, each where the one before it ends, and the offset
at which the walk stands in the end. It stands still at the first symbol that cannot be read. -/
def walk (source : ByteArray) (stop offset : Nat) : List Symbol × Nat :=
  if offset < stop then
    match (read (UInt64.ofNat offset) source 0).result with
    | .error _ => ([], offset)
    | .ok s =>
      let rest := walk source stop (offset + s.size)
      (s :: rest.1, rest.2)
  else ([], offset)
termination_by stop - offset
decreasing_by
  have hsize := size_pos s
  omega

section Walk

variable {source : ByteArray} {stop offset : Nat}

theorem walk_end : walk source stop stop = ([], stop) := by
  simp [walk]

theorem walk_ok {s : Symbol} (h : offset < stop)
    (hs : (read (UInt64.ofNat offset) source 0).result = .ok s) :
    walk source stop offset =
      (s :: (walk source stop (offset + s.size)).1, (walk source stop (offset + s.size)).2) := by
  rw [walk, if_pos h, hs]

theorem walk_encodeAll {records : List Record} (hraw : ∀ r ∈ records, r.2.size ≤ 65535)
    {before : ByteArray} (after : ByteArray)
    (hend : before.size + (encodeAll records).size ≤ 2 ^ 64) :
    walk (before ++ encodeAll records ++ after) (before.size + (encodeAll records).size)
        before.size =
      (writtenFrom before.size records, before.size + (encodeAll records).size) := by
  -- what lies before the rest of the walk grows by one record
  induction records generalizing before with
  | nil => simp [encodeAll, writtenFrom, walk_end]
  | cons r rest ih =>
    have hr : r.2.size ≤ 65535 := hraw r List.mem_cons_self
    have hsize : (encode r.1 r.2).size = 6 + r.2.size := encode_size r.1 r.2
    have hnext : before.size + (encode r.1 r.2).size = (before ++ encode r.1 r.2).size :=
      ByteArray.size_append.symm
    have hbytes : before ++ encodeAll (r :: rest) ++ after =
        before ++ encode r.1 r.2 ++ encodeAll rest ++ after := by
      simp [encodeAll, ByteArray.append_assoc]
    have hstop : before.size + (encodeAll (r :: rest)).size =
        (before ++ encode r.1 r.2).size + (encodeAll rest).size := by
      simp [encodeAll, Nat.add_assoc]
    rw [hstop] at hend
    have hoffset : (UInt64.ofNat before.size).toNat = before.size :=
      UInt64.toNat_ofNat_of_lt' (show before.size < 2 ^ 64 by omega)
    have hread : (read (UInt64.ofNat before.size)
        (before ++ encode r.1 r.2 ++ encodeAll rest ++ after) 0).result =
        .ok (written (UInt64.ofNat before.size) r.1 r.2) := by
      rw [ByteArray.append_assoc]
      exact read_encode hr _ hoffset 0
    have hrest := ih (fun q hq => hraw q (List.mem_cons_of_mem r hq)) hend
    rw [hbytes, hstop, walk_ok (by omega) hread, written_size hr, hnext, hrest, writtenFrom, hnext]

end Walk

theorem writtenFrom_parts {records : List Record} (hraw : ∀ r ∈ records, r.2.size ≤ 65535)
    (offset : Nat) :
    (writtenFrom offset records).map (fun s => (s.hashAndRefcount, s.length.toNat, s.body)) =
      records.map fun r => (r.1, r.2.size, Text.lossy r.2) := by
  induction records generalizing offset with
  | nil => rfl
  | cons r rest ih =>
    have hr := length_toNat (hraw r List.mem_cons_self)
    have hrest := ih (fun q hq => hraw q (List.mem_cons_of_mem r hq))
      (offset + (encode r.1 r.2).size)
    simp [writtenFrom, written, hr, hrest]

/-- A symbol is read exactly where one fits, and otherwise the first of its three parts that runs
past the end is reported; either way the reader stands where it stood. What was written is read
back, and a walk by sizes over symbols that were written meets each of them and ends where they
do. -/
theorem reading_exact :
    (∀ (source : ByteArray) (fileOffset : UInt64) (position : Nat),
      let start := fileOffset.toNat
      let n := numberAt source (start + 4) 2
      (read fileOffset source position).position = position ∧
      (read fileOffset source position).result =
        (if source.size < start + 4 then .error ⟨4, source.size - start, start⟩
        else if source.size < start + 6 then .error ⟨2, source.size - (start + 4), start + 4⟩
        else if source.size < start + 6 + n then .error ⟨n, source.size - (start + 6), start + 6⟩
        else .ok ⟨fileOffset, UInt32.ofNat (numberAt source start 4), UInt16.ofNat n,
          Text.lossy (source.extract (start + 6) (start + 6 + n))⟩) ∧
      ∀ s, (read fileOffset source position).result = .ok s →
        s.fileOffset = fileOffset ∧ s.hashAndRefcount.toNat = numberAt source start 4 ∧
          s.length.toNat = n ∧ s.size = 6 + n) ∧
    (∀ (hash : UInt32) (raw before after : ByteArray) (fileOffset : UInt64) (position : Nat),
      raw.size ≤ 65535 → fileOffset.toNat = before.size →
      ∃ s, (read fileOffset (before ++ encode hash raw ++ after) position).result = .ok s ∧
        s.fileOffset = fileOffset ∧ s.hashAndRefcount = hash ∧ s.length.toNat = raw.size ∧
        s.size = (encode hash raw).size ∧ s.body = Text.lossy raw ∧
        ∀ text : String, raw = text.toUTF8 → s.body = text) ∧
    ∀ (records : List Record) (before after : ByteArray),
      (∀ r ∈ records, r.2.size ≤ 65535) → before.size + (encodeAll records).size ≤ 2 ^ 64 →
      ∃ symbols, walk (before ++ encodeAll records ++ after)
          (before.size + (encodeAll records).size) before.size =
            (symbols, before.size + (encodeAll records).size) ∧
        symbols.map (fun s => (s.hashAndRefcount, s.length.toNat, s.body)) =
          records.map (fun r => (r.1, r.2.size, Text.lossy r.2)) ∧
        ∀ texts : List String, records.map Prod.snd = texts.map String.toUTF8 →
          symbols.map body = texts := by
  refine ⟨?_, ?_, ?_⟩
  · intro source fileOffset position
    refine ⟨read_position source fileOffset position, read_result source fileOffset position, ?_⟩
    intro s hs
    obtain ⟨-, rfl⟩ := read_ok_iff.1 hs
    have hlength : (ofSource source fileOffset).length.toNat =
        numberAt source (fileOffset.toNat + 4) 2 :=
      lengthAt_toUInt16 source fileOffset
    refine ⟨rfl, toNat_uint32_numberAt source fileOffset.toNat, hlength, ?_⟩
    rw [size_eq, hlength]
  · intro hash raw before after fileOffset position hraw hoffset
    refine ⟨_, read_encode hraw after hoffset position, rfl, rfl, length_toNat hraw,
      written_size hraw, rfl, ?_⟩
    intro text htext
    subst htext
    exact Text.lossy_toUTF8 text
  · intro records before after hraw hend
    have hparts := writtenFrom_parts hraw before.size
    refine ⟨_, walk_encodeAll hraw after hend, hparts, ?_⟩
    intro texts htexts
    have hbodies := congrArg (List.map fun t => t.2.2) hparts
    have hlossy := congrArg (List.map Text.lossy) htexts
    have hsame : Text.lossy ∘ String.toUTF8 = id := funext Text.lossy_toUTF8
    simp only [List.map_map, hsame, List.map_id] at hbodies hlossy
    exact hbodies.trans hlossy

def accented : List Record := [(7, "é".toUTF8), (9, ⟨#[0xff]⟩)]

theorem accented_walked :
    (∀ r ∈ accented, r.2.size ≤ 65535) ∧ 1 + (encodeAll accented).size ≤ 2 ^ 64 ∧
      ∃ symbols, walk (⟨#[0]⟩ ++ encodeAll accented ++ .empty) 16 1 = (symbols, 16) ∧
        symbols.map (fun s => (s.hashAndRefcount, s.length.toNat, s.body)) =
          [(7, 2, "é"), (9, 1, "\ufffd")] := by
  have hraw : ∀ r ∈ accented, r.2.size ≤ 65535 := by decide
  have hend : (⟨#[0]⟩ : ByteArray).size + (encodeAll accented).size ≤ 2 ^ 64 := by decide
  have hstop : (⟨#[0]⟩ : ByteArray).size + (encodeAll accented).size = 16 := by decide
  obtain ⟨-, -, hwalk⟩ := reading_exact
  obtain ⟨symbols, hsymbols, hparts, -⟩ := hwalk accented ⟨#[0]⟩ .empty hraw hend
  rw [hstop] at hsymbols
  have hlossy : accented.map (fun r => (r.1, r.2.size, Text.lossy r.2)) =
      [(7, 2, "é"), (9, 1, "\ufffd")] := by decide
  exact ⟨hraw, hend, symbols, hsymbols, hparts.trans hlossy⟩

end SharedArchive.Symbol
