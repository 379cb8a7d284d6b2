import Mathlib
import SharedArchive.Proofs.Answers
import SharedArchive.Proofs.Pieces
import SharedArchive.Proofs.Writing

/-!
Texts that are cut at NULs. The identity is decoded whole and then freed of the NULs that fill it
up, the name of the archive that lies below is cut at its first NUL and then decoded. Since decoding
can be cut at any NUL, it makes no difference: both give the text of the bytes that count, whatever
these are and whatever the rest is.
-/

namespace SharedArchive

namespace Text

section Lists

variable {α : Type} [DecidableEq α] {a : α} {before : List α}

theorem takeWhile_of_notMem (h : a ∉ before) : before.takeWhile (· ≠ a) = before := by
  rw [List.takeWhile_eq_self_iff]
  intro x hx
  exact decide_eq_true (ne_of_mem_of_not_mem hx h)

theorem takeWhile_append_cons (h : a ∉ before) (after : List α) :
    (before ++ a :: after).takeWhile (· ≠ a) = before := by
  rw [List.takeWhile_append, takeWhile_of_notMem h, if_pos rfl]
  simp

theorem getLast?_rdropWhile_ne (before : List α) (a : α) :
    (before.rdropWhile (· = a)).getLast? ≠ some a := by
  intro h
  have hne : before.rdropWhile (· = a) ≠ [] := by
    intro hnil
    rw [hnil] at h
    cases h
  rw [List.getLast?_eq_some_getLast hne] at h
  exact List.rdropWhile_last_not _ _ hne (decide_eq_true (Option.some.inj h))

theorem rdropWhile_append_replicate (h : before.getLast? ≠ some a) (z : Nat) :
    (before ++ List.replicate z a).rdropWhile (· = a) = before := by
  induction z with
  | zero =>
    rw [List.replicate_zero, List.append_nil, List.rdropWhile_eq_self_iff]
    intro hne hlast
    rw [List.getLast?_eq_some_getLast hne] at h
    exact h (congrArg some (of_decide_eq_true hlast))
  | succ z ih =>
    rw [List.replicate_succ', ← List.append_assoc, List.rdropWhile_concat_pos, ih]
    exact decide_eq_true rfl

end Lists

theorem lossyChars_zeros (z : Nat) :
    lossyChars (List.replicate z 0) = List.replicate z '\x00' := by
  induction z with
  | zero => rfl
  | succ z ih =>
    have hsplit := lossyChars_nul [] (List.replicate z 0)
    rw [ih] at hsplit
    exact hsplit

theorem lossyChars_append_zeros (bytes : List UInt8) (z : Nat) :
    lossyChars (bytes ++ List.replicate z 0) = lossyChars bytes ++ List.replicate z '\x00' := by
  cases z with
  | zero => simp
  | succ z => rw [List.replicate_succ, lossyChars_nul, lossyChars_zeros, List.replicate_succ]

/-- Cutting the text at its first NUL is decoding the bytes before the first zero. -/
theorem takeWhile_lossyChars (bytes : List UInt8) :
    (lossyChars bytes).takeWhile (· ≠ '\x00') = lossyChars (bytes.takeWhile (· ≠ 0)) := by
  by_cases h : 0 ∈ bytes
  · obtain ⟨before, after, rfl, hbefore⟩ := List.eq_append_cons_of_mem h
    have hnul : '\x00' ∉ lossyChars before := by rwa [nul_mem_lossyChars_iff]
    rw [lossyChars_nul, takeWhile_append_cons hnul, takeWhile_append_cons hbefore]
  · have hnul : '\x00' ∉ lossyChars bytes := by rwa [nul_mem_lossyChars_iff]
    rw [takeWhile_of_notMem hnul, takeWhile_of_notMem h]

def trailingZeros (raw : ByteArray) : Nat := (raw.data.toList.rtakeWhile (· = 0)).length

def unpadded (raw : ByteArray) : ByteArray := raw.extract 0 (raw.size - trailingZeros raw)

theorem data_unpadded (raw : ByteArray) :
    (unpadded raw).data.toList = raw.data.toList.rdropWhile (· = 0) := by
  have hsplit : raw.data.toList.rdropWhile (· = 0) ++ raw.data.toList.rtakeWhile (· = 0) =
      raw.data.toList := List.rdropWhile_append_rtakeWhile
  have hsize : raw.size = (raw.data.toList.rdropWhile (· = 0)).length + trailingZeros raw := by
    rw [trailingZeros, ← List.length_append, hsplit, Array.length_toList]
    rfl
  have htake : raw.data.toList.take (raw.size - trailingZeros raw) =
      raw.data.toList.rdropWhile (· = 0) := by
    conv_lhs => rw [← hsplit]
    exact List.take_left' (Nat.eq_sub_of_add_eq hsize.symm)
  rw [unpadded, ByteArray.data_extract, Array.toList_extract, List.extract_eq_take_drop,
    List.drop_zero, Nat.sub_zero, htake]

theorem data_eq_unpadded_append (raw : ByteArray) :
    raw.data.toList = (unpadded raw).data.toList ++ List.replicate (trailingZeros raw) 0 := by
  have hzeros : raw.data.toList.rtakeWhile (· = 0) = List.replicate (trailingZeros raw) 0 := by
    apply List.eq_replicate_of_mem
    intro b hb
    have hzero := List.mem_rtakeWhile_imp hb
    exact of_decide_eq_true hzero
  rw [data_unpadded, ← hzeros]
  exact List.rdropWhile_append_rtakeWhile.symm

theorem trimNuls_append {text : List Char} (h : text.getLast? ≠ some '\x00') (z : Nat) :
    trimNuls (String.ofList (text ++ List.replicate z '\x00')) = String.ofList text := by
  have htrim (text : String) :
      trimNuls text = String.ofList (text.toList.rdropWhile (· = '\x00')) := rfl
  rw [htrim, String.toList_ofList, rdropWhile_append_replicate h]

theorem getLast?_lossyChars_unpadded (raw : ByteArray) :
    (lossyChars (unpadded raw).data.toList).getLast? ≠ some '\x00' := by
  intro h
  have hlast := getLast?_of_lossyChars h
  rw [data_unpadded] at hlast
  exact getLast?_rdropWhile_ne _ 0 hlast

theorem lossy_eq_unpadded_append (raw : ByteArray) :
    lossy raw =
      lossy (unpadded raw) ++ String.ofList (List.replicate (trailingZeros raw) '\x00') := by
  rw [lossy, data_eq_unpadded_append, lossyChars_append_zeros, String.ofList_append, lossy]

theorem trimNuls_lossy (raw : ByteArray) : trimNuls (lossy raw) = lossy (unpadded raw) := by
  rw [lossy, data_eq_unpadded_append, lossyChars_append_zeros,
    trimNuls_append (getLast?_lossyChars_unpadded raw), lossy]

end Text

namespace Configuration

/-- Freed of its NULs, an identity is the text of its bytes without the zeros at their end, whatever
these bytes are; as it is kept, there is one NUL after it for each of these zeros. The zeros among
the bytes stay NULs, and what stands on either side of one is decoded by itself. -/
theorem trimming_exact {source : ByteArray} {p : Nat} {c : Configuration}
    (h : (read source p).result = .ok c) :
    let raw := source.extract (p + 80) (p + 336)
    let z := Text.trailingZeros raw
    let kept := raw.extract 0 (raw.size - z)
    raw.size = 256 ∧ raw.data.toList = kept.data.toList ++ List.replicate z 0 ∧
      kept.data.toList.getLast? ≠ some 0 ∧
      c.trimmedIdentity = Text.lossy kept ∧
      c.identity = c.trimmedIdentity ++ String.ofList (List.replicate z '\x00') ∧
      c.trimmedIdentity.toList.getLast? ≠ some '\x00' ∧
      ∀ before after, kept.data.toList = before ++ 0 :: after →
        c.trimmedIdentity.toList =
          Text.lossyChars before ++ '\x00' :: Text.lossyChars after := by
  obtain ⟨hs, rfl⟩ := read_ok_iff.1 h
  rw [← rawIdentity_eq_extract]
  intro raw z kept
  have htrimmed : (decode source p).trimmedIdentity = Text.lossy kept := Text.trimNuls_lossy raw
  have hlast := Text.getLast?_rdropWhile_ne raw.data.toList 0
  rw [← Text.data_unpadded] at hlast
  refine ⟨rawIdentity_size hs, Text.data_eq_unpadded_append raw, hlast, htrimmed, ?_, ?_, ?_⟩
  · rw [htrimmed]
    exact Text.lossy_eq_unpadded_append raw
  · rw [htrimmed, Text.lossy, String.toList_ofList]
    exact Text.getLast?_lossyChars_unpadded raw
  · intro before after hkept
    rw [htrimmed, Text.lossy, String.toList_ofList, hkept, Text.lossyChars_nul]

def brokenIdentity : ByteArray :=
  ⟨(List.flatten [[0x4a, 0, 0xe2, 0x82], List.replicate 252 0]).toArray⟩

def zeros (n : Nat) : ByteArray := ⟨(List.replicate n 0).toArray⟩

theorem zeros_size (n : Nat) : (zeros n).size = n := by
  change (List.replicate n (0 : UInt8)).toArray.size = n
  rw [List.size_toArray, List.length_replicate]

def brokenIdentityBytes : ByteArray := zeros 80 ++ brokenIdentity ++ zeros 192

theorem brokenIdentity_trimmed :
    ∃ c, (read brokenIdentityBytes 0).result = .ok c ∧ c.trimmedIdentity = "J\x00\ufffd" := by
  have hidentity : brokenIdentity.size = 256 := by decide +kernel
  have hsize : brokenIdentityBytes.size = 528 := by
    rw [brokenIdentityBytes, ByteArray.size_append, ByteArray.size_append, hidentity, zeros_size,
      zeros_size]
  have hread : (read brokenIdentityBytes 0).result = .ok (decode brokenIdentityBytes 0) :=
    read_ok_iff.2 ⟨hsize.ge, rfl⟩
  have hraw : brokenIdentityBytes.extract (0 + 80) (0 + 336) = brokenIdentity := by
    have hmiddle := extract_middle (zeros 80) brokenIdentity (zeros 192)
    rw [zeros_size, hidentity] at hmiddle
    exact hmiddle
  obtain ⟨-, -, -, htrimmed, -⟩ := trimming_exact hread
  have hzeros : Text.trailingZeros brokenIdentity = 252 := by decide +kernel
  rw [hraw, hidentity, hzeros] at htrimmed
  have hkept : Text.lossy (brokenIdentity.extract 0 (256 - 252)) = "J\x00\ufffd" := by
    decide +kernel
  exact ⟨_, hread, htrimmed.trans hkept⟩

end Configuration

namespace Archive

theorem textToNul_congr {raw raw' : ByteArray} {kept rest rest' : List UInt8}
    (h : raw.data.toList = kept ++ 0 :: rest) (h' : raw'.data.toList = kept ++ 0 :: rest') :
    textToNul raw' = textToNul raw := by
  have htake (rest : List UInt8) :
      (kept ++ 0 :: rest).takeWhile (· ≠ 0) = kept.takeWhile (· ≠ 0) := by
    by_cases hzero : 0 ∈ kept
    · obtain ⟨before, after, rfl, hbefore⟩ := List.eq_append_cons_of_mem hzero
      rw [List.append_assoc, List.cons_append, Text.takeWhile_append_cons hbefore,
        Text.takeWhile_append_cons hbefore]
    · rw [Text.takeWhile_append_cons hzero, Text.takeWhile_of_notMem hzero]
  rw [textToNul, textToNul, h, h', htake, htake]

theorem textToNul_toList (raw : ByteArray) :
    (textToNul raw).toList = (Text.lossy raw).toList.takeWhile (· ≠ '\x00') := by
  rw [textToNul, Text.lossy, String.toList_ofList, String.toList_ofList,
    Text.takeWhile_lossyChars]

theorem nul_notMem_textToNul (raw : ByteArray) : '\x00' ∉ (textToNul raw).toList := by
  rw [textToNul_toList]
  intro hnul
  have hne := List.mem_takeWhile_imp hnul
  exact of_decide_eq_true hne rfl

theorem baseName_eq (a : Archive) :
    a.baseName.result =
      if a.generic.baseNameSize.toNat = 0 then .ok none
      else if a.source.size < a.generic.baseNameOffset.toNat + a.generic.baseNameSize.toNat then
        .error (.truncated ⟨a.generic.baseNameSize.toNat,
          a.source.size - a.generic.baseNameOffset.toNat, a.generic.baseNameOffset.toNat⟩)
      else .ok (some (textToNul (baseNameBytes a.generic a.source))) := by
  simp only [baseName_result, GenericHeader.hasBase_iff, ← Nat.not_le, ite_not, ne_eq]

/-- The name of the archive below is missing, cut off or given, as the place decides that the header
says it has. It is the text of the bytes before the first zero, which is also the text before the
first NUL of all the bytes, so that two files may differ in all that comes after a zero. -/
theorem baseName_outcomes (a : Archive) :
    let offset := a.generic.baseNameOffset.toNat
    let size := a.generic.baseNameSize.toNat
    let raw := a.source.extract offset (offset + size)
    let name := Text.lossy ⟨(raw.data.toList.takeWhile (· ≠ 0)).toArray⟩
    a.baseName.result =
      (if size = 0 then .ok none
      else if a.source.size < offset + size then
        .error (.truncated ⟨size, a.source.size - offset, offset⟩)
      else .ok (some name)) ∧
    '\x00' ∉ name.toList ∧ name.toList = (Text.lossy raw).toList.takeWhile (· ≠ '\x00') ∧
    ∀ (b : Archive) (kept rest rest' : List UInt8), b.generic = a.generic →
      offset + size ≤ a.source.size → offset + size ≤ b.source.size →
      raw.data.toList = kept ++ 0 :: rest →
      (b.source.extract offset (offset + size)).data.toList = kept ++ 0 :: rest' →
      b.baseName.result = a.baseName.result := by
  intro offset size raw name
  refine ⟨a.baseName_eq, nul_notMem_textToNul raw, textToNul_toList raw, ?_⟩
  intro b kept rest rest' hgeneric ha hb hraw hraw'
  rw [baseName_eq, baseName_eq, hgeneric, if_neg (Nat.not_lt.2 ha), if_neg (Nat.not_lt.2 hb),
    baseNameBytes, baseNameBytes, textToNul_congr hraw hraw']

def namingBytes (rest : List UInt8) : ByteArray :=
  ⟨(List.flatten [List.replicate 16 0, toLittleEndian 4 1032, toLittleEndian 4 6,
    List.replicate 1008 0, [0x61, 0xe2, 0x82, 0], rest]).toArray⟩

def naming (rest : List UInt8) : Archive :=
  ⟨namingBytes rest, Header.decode (namingBytes rest) 0⟩

theorem naming_opens : (ofBytes 0 (namingBytes [0xff, 0x62])).result = .ok (naming [0xff, 0x62]) :=
  ofBytes_ok_iff.2 ⟨by decide +kernel, by decide +kernel, rfl⟩

theorem naming_unaffected :
    (ofBytes 0 (namingBytes [0xff, 0x62])).result = .ok (naming [0xff, 0x62]) ∧
      (naming [0xff, 0x62]).baseName.result = .ok (some "a\ufffd") ∧
      (naming [0x63, 0x64]).baseName.result = (naming [0xff, 0x62]).baseName.result := by
  obtain ⟨hresult, -, -, hafter⟩ := baseName_outcomes (naming [0xff, 0x62])
  have hoffset : (naming [0xff, 0x62]).generic.baseNameOffset.toNat = 1032 := by decide +kernel
  have hsize : (naming [0xff, 0x62]).generic.baseNameSize.toNat = 6 := by decide +kernel
  rw [hoffset, hsize] at hresult hafter
  have hgeneric : (naming [0x63, 0x64]).generic = (naming [0xff, 0x62]).generic :=
    GenericHeader.read_follows.window _ _ 0 0 (by decide +kernel)
  refine ⟨naming_opens, hresult.trans ?_, ?_⟩
  · decide +kernel
  · exact hafter (naming [0x63, 0x64]) [0x61, 0xe2, 0x82] [0xff, 0x62] [0x63, 0x64] hgeneric
      (by decide +kernel) (by decide +kernel) (by decide +kernel) (by decide +kernel)

end Archive

end SharedArchive
