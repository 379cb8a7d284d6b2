import Mathlib
import SharedArchive.Proofs.Search

/-!
A file and a longer one that begins with it. The headers are the same, no span ends earlier in the
longer file, and what lies in the shorter file stands at the same place in the longer one. So the
longer file opens too, its payloads begin with those of the shorter one, and it has all the records
of the shorter one, perhaps with others between them.
-/

namespace SharedArchive

def Begins (shorter longer : ByteArray) : Prop := ∃ rest, longer = shorter ++ rest

theorem size_le_append (source suffix : ByteArray) : source.size ≤ (source ++ suffix).size := by
  rw [ByteArray.size_append]
  exact Nat.le_add_right _ _

theorem extract_begins (source suffix : ByteArray) {i j k : Nat} (hj : j ≤ source.size)
    (hk : j ≤ k) : Begins (source.extract i j) ((source ++ suffix).extract i k) := by
  by_cases hi : i ≤ j
  · refine ⟨(source ++ suffix).extract j k, ?_⟩
    rw [← extract_append_of_le suffix hj, ByteArray.extract_append_extract, Nat.min_eq_left hi,
      Nat.max_eq_right hk]
  · have he : source.extract i j = ByteArray.empty := ByteArray.extract_eq_empty_iff.2 (by omega)
    exact ⟨_, by rw [he, ByteArray.empty_append]⟩

namespace Payload

theorem spanBytes_begins (regions : RegionTable) (source suffix : ByteArray) (k : RegionKind) :
    Begins (spanBytes regions source k) (spanBytes regions (source ++ suffix) k) := by
  have hsize := size_le_append source suffix
  cases k with
  | code => exact ⟨.empty, rfl⟩
  | _ => exact extract_begins _ _ (Span.stopAfter_le _ _ _) (Span.stopAfter_mono _ hsize _)

theorem usedBytes_begins {p q : Payload} (hr : p.region = q.region) (hb : Begins p.bytes q.bytes) :
    Begins p.usedBytes q.usedBytes := by
  obtain ⟨rest, hrest⟩ := hb
  have hle : p.usedSize ≤ q.usedSize := by
    rw [usedSize, usedSize, hr, hrest, ByteArray.size_append]
    omega
  rw [usedBytes, usedBytes, hrest]
  exact extract_begins _ _ (Nat.min_le_right _ _) hle

end Payload

namespace Header

theorem decode_append {source : ByteArray} (suffix : ByteArray) (h : 1032 ≤ source.size) :
    decode (source ++ suffix) 0 = decode source 0 := by
  have hl : 0 + layout.size ≤ source.size := by
    rw [layout_size]
    omega
  exact parts_follows.window _ _ 0 0 (extract_append_of_le suffix hl)

theorem magicOf_append {source : ByteArray} (suffix : ByteArray) (h : 4 ≤ source.size) :
    magicOf (source ++ suffix) = magicOf source := by
  rw [magicOf, numberAt_append suffix (by omega), magicOf]

end Header

namespace Symbol

variable {source : ByteArray} {fileOffset : UInt64}

theorem lengthAt_append (suffix : ByteArray) (h : fileOffset.toNat + 6 ≤ source.size) :
    lengthAt (source ++ suffix) fileOffset = lengthAt source fileOffset :=
  numberAt_append suffix h

theorem Fits.append (suffix : ByteArray) (h : Fits source fileOffset) :
    Fits (source ++ suffix) fileOffset := by
  obtain ⟨h6, hn⟩ := h
  rw [Fits, lengthAt_append suffix h6, ByteArray.size_append]
  omega

theorem ofSource_append (suffix : ByteArray) (h : Fits source fileOffset) :
    ofSource (source ++ suffix) fileOffset = ofSource source fileOffset := by
  obtain ⟨h6, hn⟩ := h
  rw [ofSource, lengthAt_append suffix h6, extract_append_of_le suffix hn,
    numberAt_append suffix (by omega), ofSource]

end Symbol

namespace Archive

def extend (a : Archive) (suffix : ByteArray) : Archive := { a with source := a.source ++ suffix }

theorem ofBytes_append {expected : UInt32} {source : ByteArray} {a : Archive}
    (h : (ofBytes expected source).result = .ok a) (suffix : ByteArray) :
    (ofBytes expected (source ++ suffix)).result = .ok (a.extend suffix) := by
  obtain ⟨hs, hm, rfl⟩ := ofBytes_ok_iff.1 h
  have hsize : 1032 ≤ (source ++ suffix).size := hs.trans (size_le_append source suffix)
  have hmagic : Header.magicOf (source ++ suffix) = expected :=
    (Header.magicOf_append suffix (by omega)).trans hm
  refine ofBytes_ok_iff.2 ⟨hsize, hmagic, ?_⟩
  rw [extend, Header.decode_append suffix hs]

variable {a : Archive} {pattern : UInt64} {stop k : Nat}

theorem scanStop_extend (a : Archive) (suffix : ByteArray) :
    a.scanStop ≤ (a.extend suffix).scanStop :=
  Span.stopAfter_mono _ (size_le_append a.source suffix) _

theorem pointerAt_extend (suffix : ByteArray) (h : a.wordOffset k + 32 ≤ a.source.size) :
    (a.extend suffix).pointerAt k = a.pointerAt k :=
  congrArg UInt64.ofNat (numberAt_append suffix (show a.wordOffset k + 24 + 8 ≤ _ from h))

theorem distanceAt_extend (suffix : ByteArray) (h : a.wordOffset k + 32 ≤ a.source.size) :
    (a.extend suffix).distanceAt k = a.distanceAt k := by
  rw [distanceAt, pointerAt_extend suffix h, distanceAt]
  rfl

theorem targetAt_extend (suffix : ByteArray) (h : a.wordOffset k + 32 ≤ a.source.size) :
    (a.extend suffix).targetAt k = a.targetAt k := by
  rw [targetAt, distanceAt_extend suffix h, targetAt]
  rfl

theorem IsRecord.extend (suffix : ByteArray) {later : Nat} (h : a.IsRecord pattern stop k)
    (hstop : stop ≤ a.source.size) (hlater : stop ≤ later) :
    (a.extend suffix).IsRecord pattern later k := by
  obtain ⟨hused, hword, hrec, hdist, hfits⟩ := h
  have hin : a.wordOffset k + 32 ≤ a.source.size := hrec.trans hstop
  have hin8 : a.wordOffset k + 8 ≤ a.source.size := by omega
  refine ⟨?_, ?_, hrec.trans hlater, ?_, ?_⟩
  · have hle : stop - a.regions.readWrite.fileOffset.toNat ≤
        later - a.regions.readWrite.fileOffset.toNat := Nat.sub_le_sub_right hlater _
    exact hused.trans (min_le_min_left _ hle)
  · exact (numberAt_append suffix hin8).trans hword
  · rw [distanceAt_extend suffix hin]
    exact hdist
  · rw [targetAt_extend suffix hin]
    exact hfits.append suffix

theorem matchAt_extend (suffix : ByteArray) (h : a.IsRecord pattern stop k)
    (hstop : stop ≤ a.source.size) : (a.extend suffix).matchAt k = a.matchAt k := by
  obtain ⟨-, -, hrec, -, hfits⟩ := h
  have hin : a.wordOffset k + 32 ≤ a.source.size := hrec.trans hstop
  have hsymbol : Symbol.ofSource (a.extend suffix).source (a.targetAt k) =
      Symbol.ofSource a.source (a.targetAt k) := Symbol.ofSource_append suffix hfits
  rw [matchAt, targetAt_extend suffix hin, pointerAt_extend suffix hin, hsymbol, matchAt]
  rfl

theorem records_sublist (suffix : ByteArray) {later : Nat} (hstop : stop ≤ a.source.size)
    (hlater : stop ≤ later) :
    (a.records pattern stop).Sublist ((a.extend suffix).records pattern later) := by
  let words (s : Nat) := min a.regions.readWrite.used.toNat
    (s - a.regions.readWrite.fileOffset.toNat) / 8
  have hwords : words stop ≤ words later := Nat.div_le_div_right (by omega)
  -- among the same words no record is lost, and then there are more words
  have hkept : ((List.range (words stop)).filter (a.IsRecord pattern stop)).Sublist
      ((List.range (words stop)).filter ((a.extend suffix).IsRecord pattern later)) := by
    apply List.monotone_filter_right
    intro k hk
    exact decide_eq_true ((of_decide_eq_true hk).extend suffix hstop hlater)
  exact hkept.trans ((List.range_sublist.2 hwords).filter _)

theorem remaining_sublist (a : Archive) (pattern : UInt64) (suffix : ByteArray) :
    (a.scan pattern).remaining.Sublist ((a.extend suffix).scan pattern).remaining := by
  have hstop : a.scanStop ≤ a.source.size := Span.stopAfter_le _ _ _
  have hsame : (a.records pattern a.scanStop).map a.matchAt =
      (a.records pattern a.scanStop).map (a.extend suffix).matchAt :=
    List.map_congr_left fun k hk => (matchAt_extend suffix ((mem_records a).1 hk) hstop).symm
  rw [scan_remaining, scan_remaining, hsame]
  exact (records_sublist suffix hstop (scanStop_extend a suffix)).map _

theorem baseName_extend (suffix : ByteArray) {name : Option String}
    (h : a.baseName.result = .ok name) : (a.extend suffix).baseName.result = .ok name := by
  have hgeneric : (a.extend suffix).generic = a.generic := rfl
  have hsource : (a.extend suffix).source = a.source ++ suffix := rfl
  rw [baseName_result] at h ⊢
  rw [hgeneric, hsource, ByteArray.size_append]
  by_cases hb : a.generic.hasBase
  · by_cases hin :
        a.generic.baseNameOffset.toNat + a.generic.baseNameSize.toNat ≤ a.source.size
    · rw [if_pos hb, if_pos hin] at h
      rw [if_pos hb, if_pos (by omega), baseNameBytes, extract_append_of_le suffix hin]
      exact h
    · rw [if_pos hb, if_neg hin] at h
      cases h
  · rw [if_neg hb] at h ⊢
    exact h

/-- What an archive answers is kept when its file grows: cutting a file short invents nothing and
changes nothing, it only loses. -/
theorem longer_file_keeps {expected : UInt32} {source : ByteArray} {archive : Archive}
    (h : (ofBytes expected source).result = .ok archive) (suffix : ByteArray) :
    ∃ longer, (ofBytes expected (source ++ suffix)).result = .ok longer ∧
      longer.header = archive.header ∧
      (∃ ps qs, archive.payloads.result = .ok ps ∧ longer.payloads.result = .ok qs ∧
        ∀ k, Begins (ps.get k).bytes (qs.get k).bytes ∧
          Begins (ps.get k).usedBytes (qs.get k).usedBytes) ∧
      (∀ pattern, ∃ ms ns, (archive.symbols pattern).result = .ok ms ∧
        (longer.symbols pattern).result = .ok ns ∧ ms.Sublist ns) ∧
      ∀ name, archive.baseName.result = .ok name → longer.baseName.result = .ok name := by
  refine ⟨archive.extend suffix, ofBytes_append h suffix, rfl, ?_, ?_, ?_⟩
  · refine ⟨_, _, payloads_result archive, payloads_result (archive.extend suffix), fun k => ?_⟩
    rw [Payload.table_get, Payload.table_get]
    have hbytes : Begins (Payload.ofSource archive.regions archive.source k).bytes
        (Payload.ofSource archive.regions (archive.source ++ suffix) k).bytes :=
      Payload.spanBytes_begins _ _ _ k
    exact ⟨hbytes, Payload.usedBytes_begins rfl hbytes⟩
  · intro pattern
    exact ⟨_, _, symbols_result archive pattern, symbols_result (archive.extend suffix) pattern,
      remaining_sublist archive pattern suffix⟩
  · intro name hname
    exact baseName_extend suffix hname

theorem hello_found_in_longer :
    (ofBytes 0 helloBytes).result = .ok hello ∧
      ∃ longer ns, (ofBytes 0 (helloBytes ++ ⟨#[33]⟩)).result = .ok longer ∧
        (longer.symbols 1).result = .ok ns ∧ hello.matchAt 0 ∈ ns := by
  obtain ⟨longer, hopen, -, -, hsymbols, -⟩ := longer_file_keeps hello_opens ⟨#[33]⟩
  obtain ⟨ms, ns, hms, hns, hsub⟩ := hsymbols 1
  have hfound : hello.matchAt 0 ∈ ms := by
    rw [symbols_result, scan_remaining] at hms
    rw [← Except.ok.inj hms]
    exact List.mem_map_of_mem ((mem_records _).2 hello_isRecord)
  exact ⟨hello_opens, longer, ns, hopen, hns, hsub.subset hfound⟩

end Archive

end SharedArchive
