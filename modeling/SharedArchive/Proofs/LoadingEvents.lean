import Mathlib
import SharedArchive.Proofs.Payloads

/-!
The events that loading the payloads leaves. Each region but the code region is reported in its
turn: that it has no bytes, or the span that is read for it, and before the span that the region
claims more than it spans. So where the bytes in use had to be cut back the events say so, and where
they do not say so all that the region claims is there.
-/

namespace SharedArchive.Payload

def spanEvents (regions : RegionTable) (fileSize : Nat) (k : RegionKind) : List Event :=
  let r := regions.get k
  let start := r.fileOffset.toNat
  let stop := Span.stopAfter regions.offsets fileSize start
  if fileSize ≤ start then [.regionAbsent k]
  else
    (if stop - start < r.used.toNat then [.regionClipped k r.used (stop - start)] else []) ++
      [.regionSpan k start stop]

def loaded : List RegionKind := [.readWrite, .readOnly, .bitmap, .heap]

theorem mem_loaded_iff {k : RegionKind} : k ∈ loaded ↔ k ≠ .code := by cases k <;> decide

section Events

variable (regions : RegionTable) (source : ByteArray) (p : Nat)

theorem readSpan_events (k : RegionKind) :
    (readSpan regions k (regions.get k) source p).events = spanEvents regions source.size k := by
  rw [readSpan, Reader.bind_ok (rfl : Reader.size source p = ⟨.ok source.size, p, []⟩)]
  simp only [spanEvents]
  by_cases h : source.size ≤ (regions.get k).fileOffset.toNat
  · rw [if_pos h]
    simp only [Span.ofStart?_eq_none_iff.2 h]
    rfl
  · rw [if_neg h]
    have hb := Span.stopAfter_bounds regions.offsets (Nat.lt_of_not_le h)
    have hblock := Reader.block_fits hb.1.le hb.2
    simp only [Span.ofStart?_inside (Nat.lt_of_not_le h), Span.length]
    refine (Reader.emitIf_events _ _ _).trans ?_
    rw [Reader.bind_ok (rfl : Reader.emit _ source p = ⟨.ok (), p, _⟩),
      Reader.bind_ok (rfl : Reader.seek _ source p = ⟨.ok (), _, []⟩), hblock]
    rfl

theorem read_events (k : RegionKind) :
    (read regions k source p).events =
      if k = .code then [] else spanEvents regions source.size k := by
  have hspan := readSpan_events regions source p k
  have hread := readSpan_reading regions k (regions.get k) source p
  cases k with
  | code => rfl
  | _ =>
    rw [if_neg (by decide), ← hspan]
    exact (Reader.bind_events_of_ok _ hread).trans (List.append_nil _)

theorem readAll_events :
    (readAll regions source p).events = loaded.flatMap (spanEvents regions source.size) := by
  change (Table.build (read regions) source p).events = _
  rw [Table.build, Reader.bind_events_of_ok _ (read_reading regions .readWrite source _),
    Reader.bind_events_of_ok _ (read_reading regions .readOnly source _),
    Reader.bind_events_of_ok _ (read_reading regions .bitmap source _),
    Reader.bind_events_of_ok _ (read_reading regions .heap source _),
    Reader.bind_events_of_ok _ (read_reading regions .code source _)]
  simp only [read_events]
  rfl

theorem readAll_levels :
    (readAll regions source p).events.map Event.level = loaded.flatMap fun k =>
      let r := regions.get k
      let start := r.fileOffset.toNat
      let stop := Span.stopAfter regions.offsets source.size start
      if source.size ≤ start then [.debug]
      else (if stop - start < r.used.toNat then [.warn] else []) ++ [.debug] := by
  rw [readAll_events, List.map_flatMap]
  congr 1
  funext k
  simp only [spanEvents, apply_ite (List.map Event.level), List.map_append, List.map_cons,
    List.map_nil]
  rfl

end Events

section Clipping

variable {regions : RegionTable} {source : ByteArray} {p : Nat} {k : RegionKind}

theorem mem_spanEvents {fileSize : Nat} {e : Event} :
    e ∈ spanEvents regions fileSize k ↔
      let r := regions.get k
      let start := r.fileOffset.toNat
      let stop := Span.stopAfter regions.offsets fileSize start
      fileSize ≤ start ∧ e = .regionAbsent k ∨
        start < fileSize ∧ (stop - start < r.used.toNat ∧
          e = .regionClipped k r.used (stop - start) ∨ e = .regionSpan k start stop) := by
  simp only [spanEvents]
  by_cases h : fileSize ≤ (regions.get k).fileOffset.toNat
  · simp [h]
  · rw [if_neg h, List.mem_append]
    simp only [h, Nat.lt_of_not_le h, false_and, false_or, true_and, List.mem_singleton]
    split_ifs with hc <;> simp [hc]

theorem absent_mem_iff (hk : k ≠ .code) :
    .regionAbsent k ∈ (readAll regions source p).events ↔
      source.size ≤ (regions.get k).fileOffset.toNat := by
  simp only [readAll_events, List.mem_flatMap, mem_spanEvents, Event.regionAbsent.injEq,
    reduceCtorEq, and_false, or_false]
  constructor
  · intro h
    obtain ⟨j, -, hout, hj⟩ := h
    exact hj ▸ hout
  · intro h
    exact ⟨k, mem_loaded_iff.2 hk, h, rfl⟩

theorem clipped_mem_iff (hk : k ≠ .code) :
    (∃ used available, .regionClipped k used available ∈ (readAll regions source p).events) ↔
      (regions.get k).fileOffset.toNat < source.size ∧
        Span.stopAfter regions.offsets source.size (regions.get k).fileOffset.toNat -
          (regions.get k).fileOffset.toNat < (regions.get k).used.toNat := by
  simp only [readAll_events, List.mem_flatMap, mem_spanEvents, Event.regionClipped.injEq,
    reduceCtorEq, and_false, or_false, false_or]
  constructor
  · intro h
    obtain ⟨used, available, j, -, hin, hless, hj, -⟩ := h
    subst hj
    exact ⟨hin, hless⟩
  · intro h
    obtain ⟨hin, hless⟩ := h
    exact ⟨_, _, k, mem_loaded_iff.2 hk, hin, hless, rfl, rfl, rfl⟩

theorem spanBytes_size (hk : k ≠ .code) :
    (spanBytes regions source k).size =
      Span.stopAfter regions.offsets source.size (regions.get k).fileOffset.toNat -
        (regions.get k).fileOffset.toNat := by
  have hstop := Span.stopAfter_le regions.offsets source.size (regions.get k).fileOffset.toNat
  rw [spanBytes_of_ne_code regions source hk, ByteArray.size_extract]
  omega

theorem usedBytes_of_clipped {q : Payload} (h : q.usedBytes.size ≠ q.region.used.toNat) :
    q.usedBytes = q.bytes ∧ q.usedBytes.size < q.region.used.toNat := by
  rw [usedBytes_size, usedSize] at h
  have hsize : q.usedSize = q.bytes.size := by
    rw [usedSize]
    omega
  refine ⟨?_, ?_⟩
  · rw [usedBytes, hsize, ByteArray.extract_zero_size]
  · rw [usedBytes_size, usedSize]
    omega

/-- Loading reports each region that it reads, in the table's order, with the span that it reads;
and the bytes in use are as many as the region claims exactly if no report says otherwise. -/
theorem loading_reported (regions : RegionTable) (source : ByteArray) (p : Nat) :
    ∃ ps, (readAll regions source p).result = .ok ps ∧ ∃ stop : RegionKind → Nat,
      (∀ k, IsLeast (Span.ends regions.offsets source.size (regions.get k).fileOffset.toNat)
        (stop k)) ∧
      (readAll regions source p).events =
        [RegionKind.readWrite, .readOnly, .bitmap, .heap].flatMap (fun k =>
          let r := regions.get k
          let start := r.fileOffset.toNat
          if source.size ≤ start then [.regionAbsent k]
          else (if stop k - start < r.used.toNat then
              [.regionClipped k r.used (stop k - start)] else []) ++
            [.regionSpan k start (stop k)]) ∧
      (readAll regions source p).events.map Event.level =
        [RegionKind.readWrite, .readOnly, .bitmap, .heap].flatMap (fun k =>
          let r := regions.get k
          let start := r.fileOffset.toNat
          if source.size ≤ start then [.debug]
          else (if stop k - start < r.used.toNat then [.warn] else []) ++ [.debug]) ∧
      ∀ k ≠ .code,
        (ps.get k).bytes = source.extract (regions.get k).fileOffset.toNat (stop k) ∧
        ((ps.get k).usedBytes.size = (regions.get k).used.toNat ↔
          (¬ ∃ used available,
            .regionClipped k used available ∈ (readAll regions source p).events) ∧
          ¬ (.regionAbsent k ∈ (readAll regions source p).events ∧
            0 < (regions.get k).used.toNat)) ∧
        ((ps.get k).usedBytes.size ≠ (regions.get k).used.toNat →
          (ps.get k).usedBytes = (ps.get k).bytes ∧
            (ps.get k).usedBytes.size < (regions.get k).used.toNat) := by
  refine ⟨table regions source, (readAll_reading regions source p).1,
    fun k => Span.stopAfter regions.offsets source.size (regions.get k).fileOffset.toNat,
    fun k => Span.stopAfter_isLeast _ _ _, readAll_events regions source p,
    readAll_levels regions source p, ?_⟩
  intro k hk
  rw [table_get]
  refine ⟨spanBytes_of_ne_code regions source hk, ?_, fun h => usedBytes_of_clipped h⟩
  have hsize : (ofSource regions source k).bytes.size = _ := spanBytes_size hk
  have hstop := Span.stopAfter_le regions.offsets source.size (regions.get k).fileOffset.toNat
  rw [clipped_mem_iff hk, absent_mem_iff hk, usedBytes_size, usedSize, hsize]
  change min (regions.get k).used.toNat _ = _ ↔ _
  omega

def crowded : RegionTable where
  readWrite := { fileOffset := 1, used := 9 }
  readOnly := { fileOffset := 3, used := 1 }
  bitmap := { fileOffset := 4 }
  heap := { fileOffset := 7, used := 2 }
  code := {}

theorem crowded_clipped :
    RegionKind.readWrite ≠ .code ∧ ∃ ps, (readAll crowded ⟨#[1, 2, 3, 4]⟩ 0).result = .ok ps ∧
      (ps.get .readWrite).usedBytes.size ≠ (crowded.get .readWrite).used.toNat ∧
      (ps.get .readWrite).usedBytes = (ps.get .readWrite).bytes ∧
      ∃ used available, .regionClipped .readWrite used available ∈
        (readAll crowded ⟨#[1, 2, 3, 4]⟩ 0).events := by
  obtain ⟨ps, hps, stop, -, -, -, hk⟩ := loading_reported crowded ⟨#[1, 2, 3, 4]⟩ 0
  obtain ⟨-, hiff, hwhole⟩ := hk .readWrite (by decide)
  have htable : table crowded ⟨#[1, 2, 3, 4]⟩ = ps :=
    Except.ok.inj ((readAll_reading crowded ⟨#[1, 2, 3, 4]⟩ 0).1.symm.trans hps)
  have hclipped : (ps.get .readWrite).usedBytes.size ≠ (crowded.get .readWrite).used.toNat := by
    rw [← htable]
    decide +kernel
  have habsent : ¬ (.regionAbsent .readWrite ∈ (readAll crowded ⟨#[1, 2, 3, 4]⟩ 0).events ∧
      0 < (crowded.get .readWrite).used.toNat) := by decide +kernel
  refine ⟨by decide, ps, hps, hclipped, (hwhole hclipped).1, ?_⟩
  by_contra hnone
  exact hclipped (hiff.2 ⟨hnone, habsent⟩)

end Clipping

end SharedArchive.Payload
