import Mathlib
import SharedArchive.Proofs.HeaderEvents
import SharedArchive.Proofs.SearchEvents

/-!
How severe the events of an archive are. Reading the headers, loading the payloads and searching for
symbols leave warnings and, besides them, only what is meant for debugging. So a log that is kept
for warnings shows of a reading its warnings alone: that the headers do not fit in the file, and
each region that claims more than it spans.
-/

namespace SharedArchive

namespace Event

/-- A warning, or something that only a log for debugging shows. -/
def IsReport (e : Event) : Prop := e.level = .warn ∨ e.level = .debug ∨ e.level = .trace

def warnings (es : List Event) : List Event := es.filter fun e => e.level = .warn

section Warnings

variable {e : Event} {es fs : List Event} {kept : Level}

theorem IsReport.level_ne_info (h : e.IsReport) : e.level ≠ .info := by
  intro hinfo
  rw [IsReport, hinfo] at h
  simp at h

theorem IsReport.visible_iff (h : e.IsReport) (hk : kept = .warn ∨ kept = .info) :
    e.visible kept = true ↔ e.level = .warn := by
  rw [visible]
  rcases h with hlevel | hlevel | hlevel <;> rw [hlevel] <;> rcases hk with rfl | rfl <;> decide

theorem warnings_append : warnings (es ++ fs) = warnings es ++ warnings fs :=
  List.filter_append es fs

theorem filter_visible (h : ∀ e ∈ es, e.IsReport) (hk : kept = .warn ∨ kept = .info) :
    es.filter (·.visible kept) = warnings es := by
  apply List.filter_congr
  intro e he
  rw [Bool.eq_iff_iff, (h e he).visible_iff hk, decide_eq_true_eq]

theorem warnings_eq_nil (h : ∀ e ∈ es, e.level ≠ .warn) : warnings es = [] := by
  rw [warnings, List.filter_eq_nil_iff]
  intro e he hwarn
  exact h e he (of_decide_eq_true hwarn)

end Warnings

end Event

open Event (IsReport warnings)

namespace Header

variable {expected : UInt32} {source : ByteArray} {p : Nat} {e : Event}

theorem Part.event_isReport (h : Header) (part : Part) : (part.event h).IsReport := by
  cases part with
  | whole => exact Or.inr (Or.inl rfl)
  | _ => exact Or.inr (Or.inr rfl)

theorem isReport_of_mem_oversized {h : Header} {fileSize : Nat} (he : e ∈ oversized h fileSize) :
    e.IsReport := by
  rw [oversized] at he
  split_ifs at he
  · rw [List.mem_singleton.1 he]
    exact Or.inl rfl
  · exact absurd he List.not_mem_nil

theorem isReport_of_mem_read (he : e ∈ (read expected source p).events) : e.IsReport := by
  rw [read_events_eq] at he
  split_ifs at he
  · exact absurd he List.not_mem_nil
  · rw [List.mem_cons, List.mem_append, List.mem_map] at he
    obtain rfl | hsize | ⟨part, -, rfl⟩ := he
    · exact Part.generic.event_isReport _
    · exact isReport_of_mem_oversized hsize
    · exact part.event_isReport _

theorem warnings_oversized (h : Header) (fileSize : Nat) :
    warnings (oversized h fileSize) = oversized h fileSize := by
  rw [oversized]
  split_ifs <;> rfl

theorem warnings_parts (h : Header) (parts : List Part) :
    warnings (parts.map (·.event h)) = [] := by
  apply Event.warnings_eq_nil
  intro e he
  obtain ⟨part, -, rfl⟩ := List.mem_map.1 he
  exact part.event_level h

theorem warnings_read (expected : UInt32) (source : ByteArray) (p : Nat) :
    warnings (read expected source p).events =
      if source.size < 24 ∨ magicOf source ≠ expected then []
      else oversized (decode source 0) source.size := by
  rw [read_events_eq]
  split_ifs
  · rfl
  · have hcons (es : List Event) :
        warnings (Part.generic.event (decode source 0) :: es) = warnings es := rfl
    rw [hcons, Event.warnings_append, warnings_oversized, warnings_parts, List.append_nil]

end Header

namespace Payload

def clipped (regions : RegionTable) (fileSize : Nat) : List Event :=
  loaded.flatMap fun k =>
    let r := regions.get k
    let start := r.fileOffset.toNat
    let stop := Span.stopAfter regions.offsets fileSize start
    if start < fileSize ∧ stop - start < r.used.toNat then
      [.regionClipped k r.used (stop - start)] else []

variable {regions : RegionTable} {source : ByteArray} {p : Nat} {e : Event}

theorem isReport_of_mem_spanEvents {fileSize : Nat} {k : RegionKind}
    (he : e ∈ spanEvents regions fileSize k) : e.IsReport := by
  obtain ⟨-, rfl⟩ | ⟨-, ⟨-, rfl⟩ | rfl⟩ := mem_spanEvents.1 he
  · exact Or.inr (Or.inl rfl)
  · exact Or.inl rfl
  · exact Or.inr (Or.inl rfl)

theorem isReport_of_mem_loading {fileSize : Nat}
    (he : e ∈ loaded.flatMap (spanEvents regions fileSize)) : e.IsReport := by
  obtain ⟨k, -, hk⟩ := List.mem_flatMap.1 he
  exact isReport_of_mem_spanEvents hk

theorem warnings_loading (regions : RegionTable) (fileSize : Nat) :
    warnings (loaded.flatMap (spanEvents regions fileSize)) = clipped regions fileSize := by
  rw [warnings, List.filter_flatMap, clipped]
  congr 1
  funext k
  simp only [spanEvents, ← not_lt]
  split_ifs <;> simp_all [Event.level]

end Payload

namespace Archive

variable (a : Archive)

theorem payloads_events :
    a.payloads.events = Payload.loaded.flatMap (Payload.spanEvents a.regions a.source.size) :=
  Payload.readAll_events a.regions a.source 0

theorem baseName_events : a.baseName.events = [] := by
  change (readBaseName a.generic a.source 0).events = []
  have hfield : (Reader.field (.block a.generic.baseNameSize.toNat) a.source
      a.generic.baseNameOffset.toNat).events = [] := Reader.Reports.field _ _ _
  rw [readBaseName]
  split_ifs
  · rw [Reader.bind_ok (rfl : Reader.seek _ a.source 0 = ⟨.ok (), _, []⟩), List.nil_append]
    cases hname : (Reader.field (.block a.generic.baseNameSize.toNat) a.source
        a.generic.baseNameOffset.toNat).result with
    | ok raw => rw [Reader.bind_events_of_ok _ hname, hfield]; rfl
    | error cause => rw [Reader.bind_events_of_error _ hname, hfield]
  · rfl

variable {a} {pattern : UInt64} {e : Event}

theorem isReport_of_mem_payloads (he : e ∈ a.payloads.events) : e.IsReport := by
  rw [payloads_events] at he
  exact Payload.isReport_of_mem_loading he

theorem level_of_mem_told (he : e ∈ (a.scan pattern).told) :
    e.level = .debug ∨ e.level = .trace := by
  obtain ⟨o, htells⟩ := Scan.tells_of_mem_told he
  rw [htells.level.2]
  split_ifs
  · exact Or.inl rfl
  · exact Or.inr rfl

theorem isReport_of_mem_symbols (he : e ∈ (a.symbols pattern).events) : e.IsReport := by
  rw [symbols_events, List.mem_append, List.mem_append, List.mem_singleton] at he
  obtain (hloading | htold) | rfl := he
  · exact Payload.isReport_of_mem_loading hloading
  · exact Or.inr (level_of_mem_told htold)
  · exact Or.inr (Or.inl rfl)

theorem warnings_symbols (a : Archive) (pattern : UInt64) :
    warnings (a.symbols pattern).events = Payload.clipped a.regions a.source.size := by
  have htold : warnings (a.scan pattern).told = [] := by
    apply Event.warnings_eq_nil
    intro e he hwarn
    have hlevel := level_of_mem_told he
    rw [hwarn] at hlevel
    simp at hlevel
  rw [symbols_events, Event.warnings_append, Event.warnings_append, Payload.warnings_loading, htold,
    List.append_nil]
  exact List.append_nil _

theorem warnings_payloads (a : Archive) :
    warnings a.payloads.events = Payload.clipped a.regions a.source.size := by
  rw [payloads_events, Payload.warnings_loading]

end Archive

end SharedArchive
