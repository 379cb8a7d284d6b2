import Mathlib
import SharedArchive.Proofs.Answers
import SharedArchive.Proofs.Symbols

/-!
What the search for symbols finds. A look at an offset leaves the search's cursor alone, so what is
found at an offset does not depend on the looks before it, and a search collects what there is at
each word from where it stands, in their order. For an archive this is told by the file alone.
-/

namespace SharedArchive

namespace Scan

def matchAt? (s : Scan) (offset : Nat) : Option SymbolMatch := (s.look offset).sighting.match?

theorem look_cursor (s : Scan) (offset : Nat) : (s.look offset).cursor = s.cursor := by
  unfold look
  split_ifs
  · rfl
  · cases wordAt? s.payload (offset + pointerDistance) with
    | none => rfl
    | some pointer =>
      dsimp only
      cases s.translator.resolve? s.target pointer with
      | none => rfl
      | some target =>
        dsimp only
        rw [Symbol.read_position]
        split <;> rfl

theorem past_look (s : Scan) (offset : Nat) :
    s.past (s.look offset) = { s with next := s.next + wordSize } := by
  rw [past, look_cursor]

theorem matchAt?_past (s : Scan) (offset : Nat) :
    (s.past (s.look offset)).matchAt? = s.matchAt? := by
  rw [past_look]
  rfl

def offsets (s : Scan) : List Nat := List.range' s.next ((s.used - s.next) / wordSize) wordSize

theorem offsets_cons {s : Scan} (h : s.next + wordSize ≤ s.used) (offset : Nat) :
    s.offsets = s.next :: (s.past (s.look offset)).offsets := by
  have hn : (s.used - s.next) / wordSize = (s.used - (s.next + wordSize)) / wordSize + 1 := by
    simp only [wordSize] at *
    omega
  rw [past_look, offsets, hn, List.range'_succ]
  rfl

theorem offsets_nil {s : Scan} (h : ¬ s.next + wordSize ≤ s.used) : s.offsets = [] := by
  have hn : (s.used - s.next) / wordSize = 0 := by
    simp only [wordSize] at *
    omega
  rw [offsets, hn]
  rfl

def remaining (s : Scan) : List SymbolMatch := s.offsets.filterMap s.matchAt?

theorem remaining_advance (s : Scan) (events : Array Event) :
    s.remaining = match (s.advance events).match? with
      | none => []
      | some m => m :: (s.advance events).after.remaining := by
  -- a look that finds, one that does not, and the end
  fun_induction advance s events with
  | case1 s events h l events' m hm =>
    have hat : s.matchAt? s.next = some m := hm
    rw [remaining, offsets_cons h s.next, List.filterMap_cons_some hat, ← matchAt?_past s s.next]
    rfl
  | case2 s events h l events' hm ih =>
    have hat : s.matchAt? s.next = none := hm
    rw [← ih, remaining, offsets_cons h s.next, List.filterMap_cons_none hat,
      ← matchAt?_past s s.next]
    rfl
  | case3 s events h => rw [remaining, offsets_nil h, List.filterMap_nil]

theorem collect_found (s : Scan) (found : Array SymbolMatch) (events : Array Event) :
    (s.collect found events).1.toList = found.toList ++ s.remaining := by
  fun_induction collect s found events with
  | case1 s found events x hx =>
    have hnone : (s.advance events).match? = none := hx
    simp only [remaining_advance s events, hnone, List.append_nil]
  | case2 s found events x m hx ih =>
    have hsome : (s.advance events).match? = some m := hx
    simp only [remaining_advance s events, hsome]
    rw [ih, Array.toList_push, List.append_assoc]
    rfl

theorem run_reading {ε : Type} (s : Scan) (source : ByteArray) (p : Nat) :
    ((s.run : Reader ε (List SymbolMatch)) source p).result = .ok s.remaining := by
  have h := collect_found s #[] #[]
  rw [run]
  change Except.ok s.collect.1.toList = Except.ok s.remaining
  rw [h]
  rfl

theorem wordAt?_eq (bytes : ByteArray) (offset : Nat) :
    wordAt? bytes offset = if offset + 8 ≤ bytes.size then
      some (UInt64.ofNat (numberAt bytes offset 8)) else none := rfl

theorem pointerDistance_eq : pointerDistance = 24 := rfl

theorem matchAt?_eq (s : Scan) (offset : Nat) :
    s.matchAt? offset =
      if wordAt? s.payload offset = some s.pattern then
        (wordAt? s.payload (offset + pointerDistance)).bind fun pointer =>
          (s.translator.resolve? s.target pointer).bind fun target =>
            if Symbol.Fits s.cursor.source target then
              some ⟨offset, s.fileOffset + UInt64.ofNat offset, pointer,
                Symbol.ofSource s.cursor.source target⟩
            else none
      else none := by
  rw [matchAt?, look]
  by_cases hw : wordAt? s.payload offset = some s.pattern
  · rw [if_neg (not_not.2 hw), if_pos hw]
    cases wordAt? s.payload (offset + pointerDistance) with
    | none => rfl
    | some pointer =>
      dsimp only [Option.bind_some]
      cases s.translator.resolve? s.target pointer with
      | none => rfl
      | some target =>
        dsimp only [Option.bind_some]
        by_cases hf : Symbol.Fits s.cursor.source target
        · rw [Symbol.read_fits _ hf, if_pos hf]
          rfl
        · obtain ⟨e, he⟩ := Symbol.read_not_fits s.cursor.position hf
          rw [he, if_neg hf]
          rfl
  · rw [if_pos hw, if_neg hw]
    rfl

end Scan

namespace Archive

variable (a : Archive)

def wordOffset (k : Nat) : Nat := a.regions.readWrite.fileOffset.toNat + 8 * k

def pointerAt (k : Nat) : UInt64 := UInt64.ofNat (numberAt a.source (a.wordOffset k + 24) 8)

def distanceAt (k : Nat) : UInt64 :=
  a.pointerAt k - a.config.requestedBase - a.regions.readOnly.mappingOffset

def targetAt (k : Nat) : UInt64 := a.regions.readOnly.fileOffset + a.distanceAt k

/-- The `k`-th word begins a record of the pattern with a symbol, the span of the read-write region
ending at `stop`: the word lies in what the region uses and is the pattern, the record lies in the
span, its pointer leads into the read-only region, and a symbol fits in the file there. -/
def IsRecord (pattern : UInt64) (stop k : Nat) : Prop :=
  8 * k + 8 ≤ min a.regions.readWrite.used.toNat
      (stop - a.regions.readWrite.fileOffset.toNat) ∧
    numberAt a.source (a.wordOffset k) 8 = pattern.toNat ∧
    a.wordOffset k + 32 ≤ stop ∧
    a.distanceAt k < a.regions.readOnly.used ∧
    Symbol.Fits a.source (a.targetAt k)

instance (pattern : UInt64) (stop k : Nat) : Decidable (a.IsRecord pattern stop k) := by
  unfold IsRecord
  infer_instance

def matchAt (k : Nat) : SymbolMatch where
  regionOffset := 8 * k
  fileOffset := a.regions.readWrite.fileOffset + UInt64.ofNat (8 * k)
  pointer := a.pointerAt k
  symbol := Symbol.ofSource a.source (a.targetAt k)

def scanStop : Nat :=
  Span.stopAfter a.regions.offsets a.source.size a.regions.readWrite.fileOffset.toNat

def scan (pattern : UInt64) : Scan :=
  Scan.start pattern a.source (Payload.table a.regions a.source).readWrite a.regions.readOnly
    a.translator

theorem symbols_result (pattern : UInt64) :
    (a.symbols pattern).result = .ok (a.scan pattern).remaining := by
  have hp := (Payload.readAll_reading a.regions a.source 0).1
  have hr : (a.readSymbols pattern a.source 0).result = .ok (a.scan pattern).remaining := by
    rw [readSymbols, (Reader.bind_of_ok _ hp).1]
    exact (Reader.bind_of_ok _ (Scan.run_reading (a.scan pattern) a.source _)).1
  change (a.readSymbols pattern a.source 0).result.mapError Failure.truncated = _
  rw [hr]
  rfl

theorem scan_pattern (pattern : UInt64) : (a.scan pattern).pattern = pattern := rfl

theorem scan_target (pattern : UInt64) : (a.scan pattern).target = a.regions.readOnly := rfl

theorem scan_translator (pattern : UInt64) : (a.scan pattern).translator = a.translator := rfl

theorem scan_source (pattern : UInt64) : (a.scan pattern).cursor.source = a.source := rfl

theorem scan_payload (pattern : UInt64) : (a.scan pattern).payload =
    a.source.extract a.regions.readWrite.fileOffset.toNat a.scanStop := rfl

theorem scan_payload_size (pattern : UInt64) : (a.scan pattern).payload.size =
    a.scanStop - a.regions.readWrite.fileOffset.toNat := by
  have hstop : a.scanStop ≤ a.source.size := Span.stopAfter_le _ _ _
  rw [scan_payload, ByteArray.size_extract]
  omega

theorem scan_used (pattern : UInt64) : (a.scan pattern).used =
    min a.regions.readWrite.used.toNat (a.scanStop - a.regions.readWrite.fileOffset.toNat) := by
  rw [← scan_payload_size a pattern]
  exact Payload.usedBytes_size _

theorem scan_wordAt? (pattern : UInt64) (k n : Nat) :
    Scan.wordAt? (a.scan pattern).payload (8 * k + n) =
      if a.wordOffset k + n + 8 ≤ a.scanStop then
        some (UInt64.ofNat (numberAt a.source (a.wordOffset k + n) 8))
      else none := by
  have hsize := scan_payload_size a pattern
  rw [Scan.wordAt?_eq]
  by_cases h : a.wordOffset k + n + 8 ≤ a.scanStop
  · have hin : 8 * k + n + 8 ≤ (a.scan pattern).payload.size := by
      rw [hsize]
      simp only [wordOffset] at h
      omega
    have hstop : a.regions.readWrite.fileOffset.toNat + (8 * k + n) + 8 ≤ a.scanStop := by
      simp only [wordOffset] at h
      omega
    rw [if_pos hin, if_pos h, scan_payload, numberAt_extract hstop, wordOffset, Nat.add_assoc]
  · have hout : ¬ 8 * k + n + 8 ≤ (a.scan pattern).payload.size := by
      rw [hsize]
      simp only [wordOffset] at h
      omega
    rw [if_neg hout, if_neg h]

theorem resolve?_pointerAt (k : Nat) :
    a.translator.resolve? a.regions.readOnly (a.pointerAt k) =
      if a.distanceAt k < a.regions.readOnly.used then some (a.targetAt k) else none := by
  have hd : a.pointerAt k - a.translator.regionBase a.regions.readOnly = a.distanceAt k := by
    simp only [distanceAt, Translator.regionBase, translator]
    grind
  rw [Translator.resolve?, Translator.regionOffset?, hd]
  split_ifs <;> rfl

theorem scan_matchAt? {pattern : UInt64} {k : Nat} (h : 8 * k + 8 ≤ (a.scan pattern).used) :
    (a.scan pattern).matchAt? (8 * k) =
      if a.IsRecord pattern a.scanStop k then some (a.matchAt k) else none := by
  have hused := scan_used a pattern
  have hword := scan_wordAt? a pattern k 0
  have hpointer := scan_wordAt? a pattern k 24
  rw [hused] at h
  have hin : a.wordOffset k + 0 + 8 ≤ a.scanStop := by
    simp only [wordOffset]
    omega
  have hp : UInt64.ofNat (numberAt a.source (a.wordOffset k) 8) = pattern ↔
      numberAt a.source (a.wordOffset k) 8 = pattern.toNat := by
    rw [← UInt64.toNat_inj, toNat_uint64_numberAt]
  rw [if_pos hin] at hword
  simp only [Nat.add_zero] at hword
  rw [Scan.matchAt?_eq, hword, scan_pattern, scan_target, scan_translator, scan_source,
    Scan.pointerDistance_eq, hpointer]
  by_cases hpat : numberAt a.source (a.wordOffset k) 8 = pattern.toNat
  · rw [if_pos (congrArg some (hp.2 hpat))]
    by_cases hrec : a.wordOffset k + 24 + 8 ≤ a.scanStop
    · rw [if_pos hrec, Option.bind_some, ← pointerAt, resolve?_pointerAt]
      by_cases hd : a.distanceAt k < a.regions.readOnly.used
      · rw [if_pos hd, Option.bind_some]
        by_cases hfit : Symbol.Fits a.source (a.targetAt k)
        · rw [if_pos hfit, if_pos ⟨h, hpat, hrec, hd, hfit⟩]
          rfl
        · rw [if_neg hfit, if_neg fun hr => hfit hr.2.2.2.2]
      · rw [if_neg hd, if_neg fun hr => hd hr.2.2.2.1]
        rfl
    · rw [if_neg hrec, if_neg fun hr => hrec hr.2.2.1]
      rfl
  · rw [if_neg fun he => hpat (hp.1 (Option.some.inj he)), if_neg fun hr => hpat hr.2.1]

def records (pattern : UInt64) (stop : Nat) : List Nat :=
  (List.range (min a.regions.readWrite.used.toNat
    (stop - a.regions.readWrite.fileOffset.toNat) / 8)).filter (a.IsRecord pattern stop)

theorem mem_records {pattern : UInt64} {stop k : Nat} :
    k ∈ a.records pattern stop ↔ a.IsRecord pattern stop k := by
  rw [records, List.mem_filter, List.mem_range, decide_eq_true_iff]
  constructor
  · exact fun h => h.2
  · intro h
    have hin := h.1
    exact ⟨by omega, h⟩

theorem scan_offsets (pattern : UInt64) :
    (a.scan pattern).offsets = (List.range ((a.scan pattern).used / 8)).map (8 * ·) := by
  apply List.ext_getElem
  · simp [Scan.offsets, Scan.wordSize, scan, Scan.start]
  · intro i hi hj
    simp [Scan.offsets, Scan.wordSize, scan, Scan.start]

theorem scan_remaining (pattern : UInt64) :
    (a.scan pattern).remaining = (a.records pattern a.scanStop).map a.matchAt := by
  rw [Scan.remaining, scan_offsets, List.filterMap_map, records, ← scan_used a pattern,
    ← List.filterMap_eq_map, List.filterMap_filter]
  apply List.filterMap_congr
  intro k hk
  have hin : 8 * k + 8 ≤ (a.scan pattern).used := by
    have hlt := List.mem_range.1 hk
    omega
  simp only [Function.comp_apply, scan_matchAt? a hin, decide_eq_true_eq]

/-- A file with one record, of which the region in use holds only the first word. -/
def helloBytes : ByteArray :=
  ⟨(List.flatten [List.replicate 48 0, toLittleEndian 8 1032, List.replicate 8 0,
    toLittleEndian 8 8, List.replicate 72 0, toLittleEndian 8 1064, List.replicate 8 0,
    toLittleEndian 8 16, List.replicate 688 0, toLittleEndian 8 0x1000, List.replicate 168 0,
    toLittleEndian 8 1, List.replicate 16 0, toLittleEndian 8 0x1000,
    toLittleEndian 4 0, toLittleEndian 2 5, [72, 101, 108, 108, 111]]).toArray⟩

def hello : Archive := ⟨helloBytes, Header.decode helloBytes 0⟩

theorem hello_opens : (ofBytes 0 helloBytes).result = .ok hello :=
  ofBytes_ok_iff.2 ⟨by decide +kernel, by decide +kernel, rfl⟩

theorem hello_isRecord : hello.IsRecord 1 hello.scanStop 0 := by decide +kernel

end Archive

end SharedArchive
