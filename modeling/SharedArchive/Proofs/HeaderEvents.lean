import Mathlib
import SharedArchive.Proofs.LongerFile
import SharedArchive.Proofs.QuotedText
import SharedArchive.Proofs.ShownRecords

/-!
The events that reading the headers leaves. Each part of the headers is reported once the source is
known to hold it, so how far the source reaches tells which events there are: a reader's marks are
its events with the number of bytes that each of them takes, and a reading leaves those marks that
the source reaches. A longer source reaches more marks and changes none of them.
-/

namespace SharedArchive

theorem filter_prefix_of_le {α : Type} {f : α → Nat} {l : List α}
    (hl : l.Pairwise fun a b => f a ≤ f b) {m n : Nat} (h : m ≤ n) :
    l.filter (f · ≤ m) <+: l.filter (f · ≤ n) := by
  induction l with
  | nil => exact List.prefix_refl _
  | cons a l ih =>
    obtain ⟨hfirst, hrest⟩ := List.pairwise_cons.1 hl
    by_cases ha : f a ≤ m
    · rw [List.filter_cons_of_pos (by simpa using ha),
        List.filter_cons_of_pos (by simpa using ha.trans h), List.prefix_cons_inj]
      exact ih hrest
    · have hnone : (a :: l).filter (f · ≤ m) = [] := by
        rw [List.filter_eq_nil_iff]
        intro b hb
        rcases List.mem_cons.1 hb with hsame | hlater
        · simpa [hsame] using ha
        · have hle := hfirst b hlater
          simp only [decide_eq_true_eq]
          omega
      rw [hnone]
      exact List.nil_prefix

/-- An event, and how many bytes past its beginning a reader must have read to leave it. -/
structure Mark where
  needed : Nat
  event : Event

namespace Mark

def after (n : Nat) (m : Mark) : Mark := { m with needed := n + m.needed }

def reached (available : Nat) (ms : List Mark) : List Event :=
  (ms.filter fun m => m.needed ≤ available).map event

variable {available : Nat}

theorem reached_append (ms ns : List Mark) :
    reached available (ms ++ ns) = reached available ms ++ reached available ns := by
  simp [reached]

theorem reached_cons (m : Mark) (ms : List Mark) :
    reached available (m :: ms) =
      (if m.needed ≤ available then [m.event] else []) ++ reached available ms := by
  by_cases h : m.needed ≤ available <;> simp [reached, h]

theorem reached_map_mk (n : Nat) (es : List Event) :
    reached available (es.map (mk n)) = if n ≤ available then es else [] := by
  by_cases h : n ≤ available <;> simp [reached, List.filter_map, Function.comp_def, h]

theorem reached_after {n : Nat} (h : n ≤ available) (ms : List Mark) :
    reached available (ms.map (after n)) = reached (available - n) ms := by
  have hneeded (m : Mark) : n + m.needed ≤ available ↔ m.needed ≤ available - n := by omega
  simp [reached, List.filter_map, Function.comp_def, after, hneeded]

theorem reached_after_of_lt {n : Nat} (h : available < n) (ms : List Mark) :
    reached available (ms.map (after n)) = [] := by
  have hneeded (m : Mark) : ¬ n + m.needed ≤ available := by omega
  simp [reached, List.filter_map, Function.comp_def, after, hneeded]

end Mark

namespace Reader

open Mark (reached)

/-- The reader leaves those of the marks that the source reaches. -/
def Reports {α : Type} (r : Reader Truncated α) (marks : ByteArray → Nat → List Mark) : Prop :=
  ∀ source p, (r source p).events = reached (source.size - p) (marks source p)

namespace Reports

variable {α β : Type} {r : Reader Truncated α} {marks : ByteArray → Nat → List Mark}

theorem pure (a : α) : Reports (Pure.pure a) fun _ _ => [] := fun _ _ => rfl

theorem emit (e : Event) : Reports (Reader.emit e) fun _ _ => [⟨0, e⟩] := fun _ _ => rfl

theorem bindSize {next : Nat → Reader Truncated α} {marks : Nat → ByteArray → Nat → List Mark}
    (h : ∀ n, Reports (next n) (marks n)) :
    Reports (Reader.size >>= next) fun source p => marks source.size source p :=
  fun source p => h source.size source p

theorem emitIf (c : Prop) [Decidable c] (e : Event) (h : Reports r marks) :
    Reports (if c then Reader.emit e >>= fun _ => r else r) fun source p =>
      (if c then [⟨0, e⟩] else []) ++ marks source p := by
  intro source p
  have hmarks : reached (source.size - p) (if c then [⟨0, e⟩] else []) = if c then [e] else [] := by
    split_ifs <;> rfl
  rw [emitIf_events, Mark.reached_append, ← h source p, hmarks]

theorem field (f : Field) : Reports (Reader.field f) fun _ _ => [] := by
  intro source p
  rw [Reader.field]
  split <;> rfl

theorem bind {next : α → Reader Truncated β} {marks' : α → ByteArray → Nat → List Mark}
    {l : Layout} {v : ByteArray → Nat → α} (hf : Follows r l v) (hr : Reports r marks)
    (hn : ∀ a, Reports (next a) (marks' a)) :
    Reports (r >>= next) fun source p =>
      marks source p ++ (marks' (v source p) source (p + l.size)).map (Mark.after l.size) := by
  intro source p
  rw [Mark.reached_append, ← hr source p]
  by_cases h : l.size ≤ source.size - p
  · obtain ⟨hv, hp⟩ := hf.fits source p h
    rw [bind_events_of_ok next hv, hp, hn, Mark.reached_after h, Nat.sub_add_eq]
  · obtain ⟨place, ⟨hm, hh⟩, -⟩ := Layout.existsUnique_place (Nat.lt_of_not_le h)
    rw [bind_events_of_error next (hf.truncated source p place hm hh).1,
      Mark.reached_after_of_lt (Nat.lt_of_not_le h), List.append_nil]

theorem congr {marks' : ByteArray → Nat → List Mark} (h : Reports r marks)
    (hm : ∀ source p, marks source p = marks' source p) : Reports r marks' := by
  intro source p
  rw [h source p, hm]

theorem values (l : Layout) : Reports (Reader.values l) fun _ _ => [] := by
  induction l with
  | nil => exact pure ()
  | cons f fs ih =>
    exact (bind (.field f) (field f) fun v => bind (.values fs) ih fun vs => pure (v, vs)).congr
      fun _ _ => rfl

theorem record (f : Format α) : Reports (Reader.record f) fun _ _ => [] :=
  (bind (.values f.layout) (values f.layout) fun vs => pure (f.build vs)).congr fun _ _ => rfl

end Reports

end Reader

open Reader (Reports)

theorem GenericHeader.read_reports :
    Reports read fun source p => [⟨24, .genericHeader (format.decode source p)⟩] := by
  have h := Reports.bind (.record format) (.record format) fun h =>
    .bind (.emit (.genericHeader h)) (.emit (.genericHeader h)) fun _ => .pure h
  exact h.congr fun _ _ => rfl

theorem RegionTable.entry_reports (k : RegionKind) :
    Reports (entry k) fun source p => [⟨96, .region k (Region.format.decode source p)⟩] := by
  have h := Reports.bind (.record Region.format) (.record Region.format) fun r =>
    .bind (.emit (.region k r)) (.emit (.region k r)) fun _ => .pure r
  exact h.congr fun _ _ => rfl

theorem RegionTable.read_reports :
    Reports read fun source p => RegionKind.all.map fun k =>
      ⟨96 * (k.index + 1), .region k ((decode source p).get k)⟩ := by
  have h := Reports.bind (entry_follows .readWrite) (entry_reports .readWrite) fun readWrite =>
    .bind (entry_follows .readOnly) (entry_reports .readOnly) fun readOnly =>
    .bind (entry_follows .bitmap) (entry_reports .bitmap) fun bitmap =>
    .bind (entry_follows .heap) (entry_reports .heap) fun heap =>
    .bind (entry_follows .code) (entry_reports .code) fun code =>
    .pure { readWrite, readOnly, bitmap, heap, code : RegionTable }
  exact h.congr fun _ _ => rfl

theorem HeapHeaders.read_reports : Reports read fun _ _ => [] := by
  have h := Reports.bind (.record MappedHeapHeader.format) (.record MappedHeapHeader.format)
    fun mapped =>
    .bind (.record StreamedHeapHeader.format) (.record StreamedHeapHeader.format) fun streamed =>
    .pure { mapped, streamed : HeapHeaders }
  exact h.congr fun _ _ => rfl

theorem Configuration.read_reports :
    Reports read fun source p =>
      [⟨336, .identity (decode source p).trimmedIdentity⟩,
        ⟨488, .heapHeaders (decode source p).heap⟩, ⟨528, .profile (decode source p).profile⟩] := by
  have h := Reports.bind (.record MachineSettings.format) (.record MachineSettings.format)
    fun machine =>
    .bind (.field identityField) (.field identityField) fun raw =>
    .bind (.emit _) (.emit (.identity (Text.trimNuls (Text.lossy raw)))) fun _ =>
    .bind (.record ImageSettings.format) (.record ImageSettings.format) fun image =>
    .bind HeapHeaders.read_follows HeapHeaders.read_reports fun heap =>
    .bind (.emit _) (.emit (.heapHeaders heap)) fun _ =>
    .bind (.record ProfileSettings.format) (.record ProfileSettings.format) fun profile =>
    .bind (.emit _) (.emit (.profile profile)) fun _ =>
    .pure { machine, image with identity := Text.lossy raw, heap, profile : Configuration }
  exact h.congr fun _ _ => rfl

namespace Header

/-- What is reported of the headers one after the other, the last of all when all is read. -/
inductive Part
  | generic
  | region (k : RegionKind)
  | identity
  | heapHeaders
  | profile
  | whole

namespace Part

def stop : Part → Nat
  | generic => 24
  | region k => 24 + 96 * (k.index + 1)
  | identity => 840
  | heapHeaders => 992
  | profile | whole => 1032

def event (h : Header) : Part → Event
  | generic => .genericHeader h.generic
  | region k => .region k (h.regions.get k)
  | identity => .identity h.config.trimmedIdentity
  | heapHeaders => .heapHeaders h.config.heap
  | profile => .profile h.config.profile
  | whole => .headerRead h.generic.version h.config.requestedBase

def later : List Part := RegionKind.all.map region ++ [identity, heapHeaders, profile, whole]

def mark (h : Header) (part : Part) : Mark := ⟨part.stop, part.event h⟩

theorem event_level (h : Header) (part : Part) : (part.event h).level ≠ .warn := by
  cases part <;> simp [event, Event.level]

theorem le_stop (part : Part) : 24 ≤ part.stop := by
  cases part <;> simp [stop]

theorem reached_marks (available : Nat) (h : Header) (parts : List Part) :
    Mark.reached available (parts.map (mark h)) =
      (parts.filter (·.stop ≤ available)).map (·.event h) := by
  rw [Mark.reached, List.filter_map, List.map_map]
  rfl

theorem later_sorted : (generic :: later).Pairwise fun x y => x.stop ≤ y.stop := by
  decide

end Part

def oversized (h : Header) (fileSize : Nat) : List Event :=
  if fileSize < h.generic.headerSize.toNat then
    [.headerOversized h.generic.headerSize fileSize] else []

theorem parts_reports :
    Reports parts fun source p => Part.generic.mark (decode source p) ::
      ((oversized (decode source p) source.size).map (Mark.mk 24) ++
        Part.later.map (Part.mark (decode source p))) := by
  have hrest (generic : GenericHeader) := Reports.bind RegionTable.read_follows
    RegionTable.read_reports fun regions =>
    .bind Configuration.read_follows Configuration.read_reports fun config =>
    .bind (.emit _) (.emit (.headerRead generic.version config.requestedBase)) fun _ =>
    .pure { generic, regions, config : Header }
  have h := Reports.bind GenericHeader.read_follows GenericHeader.read_reports fun generic =>
    .bindSize fun fileSize =>
    (hrest generic).emitIf (fileSize < generic.headerSize.toNat)
      (.headerOversized generic.headerSize fileSize)
  refine h.congr fun source p => ?_
  have hgeneric : (decode source p).generic = GenericHeader.format.decode source p := rfl
  simp only [oversized, hgeneric]
  split_ifs
  · rfl
  · rfl

section Events

variable {expected : UInt32} {source : ByteArray}

def reports (source : ByteArray) : List Event :=
  ((Part.generic :: Part.later).filter (·.stop ≤ source.size)).map (·.event (decode source 0))

theorem parts_events_of_le (h : 24 ≤ source.size) :
    (parts source 0).events = Part.generic.event (decode source 0) ::
      (oversized (decode source 0) source.size ++
        (Part.later.filter (·.stop ≤ source.size)).map (·.event (decode source 0))) := by
  rw [parts_reports source 0, Mark.reached_cons, Mark.reached_append, Mark.reached_map_mk,
    Part.reached_marks, Nat.sub_zero, if_pos h, if_pos (show (Part.mark _ _).needed ≤ _ from h),
    List.singleton_append, Part.mark]

theorem parts_events_of_lt (h : source.size < 24) : (parts source 0).events = [] := by
  have hnot (part : Part) : ¬ part.stop ≤ source.size := by
    have hle := part.le_stop
    omega
  have hfirst : ¬ (Part.generic.mark (decode source 0)).needed ≤ source.size := hnot .generic
  rw [parts_reports source 0, Mark.reached_cons, Mark.reached_append, Mark.reached_map_mk,
    Part.reached_marks, Nat.sub_zero, if_neg (Nat.not_le_of_lt h), if_neg hfirst]
  simp [hnot]

theorem read_events_eq (expected : UInt32) (source : ByteArray) (p : Nat) :
    (read expected source p).events =
      if source.size < 24 ∨ magicOf source ≠ expected then [] else
        Part.generic.event (decode source 0) :: (oversized (decode source 0) source.size ++
          (Part.later.filter (·.stop ≤ source.size)).map (·.event (decode source 0))) := by
  rw [read_events]
  by_cases hs : source.size < 24
  · rw [parts_events_of_lt hs, if_pos (Or.inl hs), ite_self]
  · have hle : 24 ≤ source.size := Nat.le_of_not_lt hs
    by_cases hm : magicOf source = expected
    · rw [if_pos ⟨by omega, hm⟩, if_neg (by simp [hs, hm]), parts_events_of_le hle]
    · rw [if_neg fun hboth => hm hboth.2, if_pos (Or.inr hm)]

/-- The events of a reading but for the warning, of which there is at most one. -/
def unwarned (es : List Event) : List Event := es.filter fun e => e.level ≠ .warn

theorem unwarned_parts (h : Header) (parts : List Part) :
    unwarned (parts.map (·.event h)) = parts.map (·.event h) := by
  rw [unwarned, List.filter_eq_self]
  intro e he
  obtain ⟨part, -, hpart⟩ := List.mem_map.1 he
  rw [← hpart]
  exact decide_eq_true (part.event_level h)

theorem unwarned_oversized (h : Header) (fileSize : Nat) :
    unwarned (oversized h fileSize) = [] := by
  rw [oversized]
  split_ifs
  · rfl
  · rfl

theorem unwarned_read (expected : UInt32) (source : ByteArray) (p : Nat) :
    unwarned (read expected source p).events =
      if source.size < 24 ∨ magicOf source ≠ expected then [] else reports source := by
  rw [read_events_eq]
  split_ifs with h
  · rfl
  · have hgeneric : Part.generic.stop ≤ source.size := Nat.le_of_not_lt fun hs => h (Or.inl hs)
    have hcons (es : List Event) : unwarned (Part.generic.event (decode source 0) :: es) =
        Part.generic.event (decode source 0) :: unwarned es := rfl
    have happend (es fs : List Event) : unwarned (es ++ fs) = unwarned es ++ unwarned fs :=
      List.filter_append es fs
    rw [hcons, happend, unwarned_oversized, unwarned_parts, reports, List.nil_append,
      List.filter_cons_of_pos (by simpa using hgeneric), List.map_cons]

theorem event_append {part : Part} (suffix : ByteArray) (h : part.stop ≤ source.size) :
    part.event (decode (source ++ suffix) 0) = part.event (decode source 0) := by
  cases part with
  | generic =>
    exact congrArg Event.genericHeader ((Reader.Follows.record GenericHeader.format).window _ _ 0 0
      (extract_append_of_le suffix h))
  | region k =>
    have hget (s : ByteArray) : (decode s 0).regions.get k =
        Region.format.decode s (RegionTable.entryOffset 24 k) := by
      cases k <;> rfl
    have hstop : RegionTable.entryOffset 24 k + Region.format.layout.size =
        24 + 96 * (k.index + 1) := by
      cases k <;> rfl
    have hwindow := (Reader.Follows.record Region.format).window (source ++ suffix) source
      (RegionTable.entryOffset 24 k) (RegionTable.entryOffset 24 k)
      (extract_append_of_le suffix (hstop.trans_le h))
    rw [Part.event, Part.event, hget, hget, hwindow]
  | identity =>
    have hraw : Configuration.rawIdentity (source ++ suffix) 504 =
        Configuration.rawIdentity source 504 := by
      rw [Configuration.rawIdentity_eq_extract, Configuration.rawIdentity_eq_extract]
      exact extract_append_of_le suffix h
    exact congrArg (fun raw => Event.identity (Text.trimNuls (Text.lossy raw))) hraw
  | heapHeaders =>
    exact congrArg Event.heapHeaders (HeapHeaders.read_follows.window _ _ 896 896
      (extract_append_of_le suffix h))
  | profile => rw [decode_append suffix h]
  | whole => rw [decode_append suffix h]

theorem reports_append (source suffix : ByteArray) :
    reports source <+: reports (source ++ suffix) := by
  have hsame : reports source = ((Part.generic :: Part.later).filter (·.stop ≤ source.size)).map
      (·.event (decode (source ++ suffix) 0)) := by
    refine List.map_congr_left fun part hpart => (event_append suffix ?_).symm
    exact of_decide_eq_true (List.mem_filter.1 hpart).2
  rw [hsame]
  exact (filter_prefix_of_le Part.later_sorted (size_le_append source suffix)).map _

theorem filter_parts_cons (h : Header) (available : Nat) (part : Part) (parts : List Part) :
    ((part :: parts).filter (·.stop ≤ available)).map (·.event h) =
      (if part.stop ≤ available then [part.event h] else []) ++
        (parts.filter (·.stop ≤ available)).map (·.event h) := by
  by_cases hpart : part.stop ≤ available <;> simp [hpart]

theorem later_events (h : Header) (available : Nat) :
    (Part.later.filter (·.stop ≤ available)).map (·.event h) =
      (RegionKind.all.filter fun k => 24 + 96 * (k.index + 1) ≤ available).map
          (fun k => Event.region k (h.regions.get k)) ++
        ((if 840 ≤ available then [Event.identity h.config.trimmedIdentity] else []) ++
          ((if 992 ≤ available then [Event.heapHeaders h.config.heap] else []) ++
            ((if 1032 ≤ available then [Event.profile h.config.profile] else []) ++
              if 1032 ≤ available then
                [Event.headerRead h.generic.version h.config.requestedBase] else []))) := by
  rw [Part.later, List.filter_append, List.map_append, List.filter_map, List.map_map,
    filter_parts_cons, filter_parts_cons, filter_parts_cons, filter_parts_cons, List.filter_nil,
    List.map_nil, List.append_nil]
  rfl

theorem unwarned_read_append (expected : UInt32) (source suffix : ByteArray) (p q : Nat) :
    unwarned (read expected source p).events <+:
      unwarned (read expected (source ++ suffix) q).events := by
  rw [unwarned_read, unwarned_read]
  by_cases hnone : source.size < 24 ∨ magicOf source ≠ expected
  · rw [if_pos hnone]
    exact List.nil_prefix
  · obtain ⟨hs, hm⟩ := not_or.1 hnone
    have hsize := size_le_append source suffix
    have hlonger : ¬ ((source ++ suffix).size < 24 ∨ magicOf (source ++ suffix) ≠ expected) := by
      rw [magicOf_append suffix (by omega)]
      exact not_or.2 ⟨by omega, hm⟩
    rw [if_neg hnone, if_neg hlonger]
    exact reports_append source suffix

theorem headerRead_mem_iff {p : Nat} :
    (∃ version base, .headerRead version base ∈ (read expected source p).events) ↔
      ∃ header, (read expected source p).result = .ok header := by
  have hread : (∃ header, (read expected source p).result = .ok header) ↔
      1032 ≤ source.size ∧ magicOf source = expected := by
    simp only [read_ok_iff, exists_and_left, exists_eq, and_true]
  rw [hread, read_events_eq]
  by_cases hnone : source.size < 24 ∨ magicOf source ≠ expected
  · rw [if_pos hnone]
    simp only [List.not_mem_nil, exists_false, false_iff, not_and]
    intro hs hm
    rcases hnone with hshort | hother
    · omega
    · exact hother hm
  · have hm : magicOf source = expected := not_not.1 (not_or.1 hnone).2
    rw [if_neg hnone, later_events]
    simp [oversized, Part.event, hm]

theorem read_events_listed (expected : UInt32) (source : ByteArray) (p : Nat) :
    (read expected source p).events =
      let h : Header := decode source 0
      if source.size < 24 ∨ magicOf source ≠ expected then [] else
        [Event.genericHeader h.generic] ++
        (if source.size < h.generic.headerSize.toNat then
          [Event.headerOversized h.generic.headerSize source.size] else []) ++
        (RegionKind.all.filter fun k => 24 + 96 * (k.index + 1) ≤ source.size).map
          (fun k => Event.region k (h.regions.get k)) ++
        (if 840 ≤ source.size then [Event.identity h.config.trimmedIdentity] else []) ++
        (if 992 ≤ source.size then [Event.heapHeaders h.config.heap] else []) ++
        (if 1032 ≤ source.size then [Event.profile h.config.profile] else []) ++
        (if 1032 ≤ source.size then
          [Event.headerRead h.generic.version h.config.requestedBase] else []) := by
  rw [read_events_eq, later_events]
  simp only [oversized, Part.event, List.append_assoc, List.cons_append, List.nil_append]

end Events

section Shown

variable (source : ByteArray)

theorem decode_headerSize :
    (decode source 0).generic.headerSize.toNat = numberAt source 12 4 :=
  toNat_uint32_numberAt source 12

theorem headerOversized_text (fileSize : Nat) :
    (Event.headerOversized (decode source 0).generic.headerSize fileSize).text =
      "header size " ++ toString (numberAt source 12 4) ++ " is larger than the file (" ++
        toString fileSize ++ " bytes)" := by
  rw [← decode_headerSize]
  rfl

theorem identity_text :
    (Event.identity (decode source 0).config.trimmedIdentity).text =
      "parsed jvm ident " ++ Text.quote (Text.trimNuls (Text.lossy (source.extract 584 840))) :=
  congrArg (fun raw => "parsed jvm ident " ++ Text.quote (Text.trimNuls (Text.lossy raw)))
    (Configuration.rawIdentity_eq_extract source 504)

theorem region_texts (n : Nat) :
    ((RegionKind.all.filter fun k => 24 + 96 * (k.index + 1) ≤ n).map fun k =>
        Event.region k ((decode source 0).regions.get k)).map (fun e => (e.level, e.text)) =
      ([(0, "rw"), (1, "ro"), (2, "bm"), (3, "hp"), (4, "ac")].filter fun k =>
        24 + 96 * (k.1 + 1) ≤ n).map fun k =>
          (.trace, "parsed region " ++ k.2 ++ " " ++ Region.shown source (24 + 96 * k.1)) := by
  have hrows : [(0, "rw"), (1, "ro"), (2, "bm"), (3, "hp"), (4, "ac")] =
      RegionKind.all.map fun k => (k.index, k.shortName) := rfl
  have htext (k : RegionKind) : (Event.region k ((decode source 0).regions.get k)).text =
      "parsed region " ++ k.shortName ++ " " ++ Region.shown source (24 + 96 * k.index) := by
    rw [← Region.render_decode]
    cases k <;> rfl
  rw [hrows, List.filter_map, List.map_map, List.map_map]
  refine List.map_congr_left fun k _ => ?_
  exact congrArg (Prod.mk Level.trace) (htext k)

theorem headerRead_text : ∃ width base, Text.Hex.Shows width base (numberAt source 856 8) ∧
    (Event.headerRead (decode source 0).generic.version
      (decode source 0).config.requestedBase).text =
      "parsed header, version " ++ toString ((numberAt source 8 4 : Int).bmod (256 ^ 4)) ++
        ", requested base 0x" ++ base := by
  obtain ⟨width, -, hshows⟩ := Text.Hex.plain_shows (numberAt source 856 8)
  refine ⟨width, _, hshows, ?_⟩
  have hversion : (decode source 0).generic.version.toInt =
      (numberAt source 8 4 : Int).bmod (256 ^ 4) := toInt_int32_numberAt source 8
  have hbase : (decode source 0).config.requestedBase.toNat = numberAt source 856 8 :=
    toNat_uint64_numberAt source 856
  have hmark : ", requested base 0x" = ", requested base " ++ "0x" := rfl
  dsimp only [Event.text]
  rw [hversion, hbase, Text.Hex.marked, hmark]
  simp only [String.append_assoc]
  rfl

end Shown

/-- The events of a reading, whatever the position was, tell how far it got: which there are is told
by the size of the source alone, and what they show is what the source spells. -/
theorem events_exact (expected : UInt32) (source : ByteArray) (p : Nat) :
    let h : Header := decode source 0
    let x := read expected source p
    let identity := Text.trimNuls (Text.lossy (source.extract 584 840))
    (x.events =
      if source.size < 24 ∨ magicOf source ≠ expected then [] else
        [Event.genericHeader h.generic] ++
        (if source.size < h.generic.headerSize.toNat then
          [Event.headerOversized h.generic.headerSize source.size] else []) ++
        (RegionKind.all.filter fun k => 24 + 96 * (k.index + 1) ≤ source.size).map
          (fun k => Event.region k (h.regions.get k)) ++
        (if 840 ≤ source.size then [Event.identity h.config.trimmedIdentity] else []) ++
        (if 992 ≤ source.size then [Event.heapHeaders h.config.heap] else []) ++
        (if 1032 ≤ source.size then [Event.profile h.config.profile] else []) ++
        (if 1032 ≤ source.size then
          [Event.headerRead h.generic.version h.config.requestedBase] else [])) ∧
    (∃ width base, Text.Hex.Shows width base (numberAt source 856 8) ∧
      Text.quotedIn? (Text.quote identity) = some identity ∧
      x.events.map (fun e => (e.level, e.text)) =
        if source.size < 24 ∨ magicOf source ≠ expected then [] else
          List.flatten [
            [(Level.trace, "parsed generic header " ++ GenericHeader.shown source 0)],
            if source.size < numberAt source 12 4 then
              [(.warn, "header size " ++ toString (numberAt source 12 4) ++
                " is larger than the file (" ++ toString source.size ++ " bytes)")] else [],
            ([(0, "rw"), (1, "ro"), (2, "bm"), (3, "hp"), (4, "ac")].filter fun k =>
              24 + 96 * (k.1 + 1) ≤ source.size).map fun k =>
                (.trace, "parsed region " ++ k.2 ++ " " ++ Region.shown source (24 + 96 * k.1)),
            if 840 ≤ source.size then
              [(.trace, "parsed jvm ident " ++ Text.quote identity)] else [],
            if 992 ≤ source.size then
              [(.trace, "parsed heap headers " ++ HeapHeaders.shown source 896)] else [],
            if 1032 ≤ source.size then
              [(.trace, "parsed profile settings " ++ ProfileSettings.shown source 992)] else [],
            if 1032 ≤ source.size then
              [(.debug, "parsed header, version " ++
                toString ((numberAt source 8 4 : Int).bmod (256 ^ 4)) ++ ", requested base 0x" ++
                  base)] else []]) ∧
    (∀ suffix q, unwarned x.events <+: unwarned (read expected (source ++ suffix) q).events) ∧
    ((∃ version base, .headerRead version base ∈ x.events) ↔ ∃ header, x.result = .ok header) := by
  intro h x identity
  have hlisted : x.events = _ := read_events_listed expected source p
  refine ⟨hlisted, ?_, fun suffix q => unwarned_read_append expected source suffix p q,
    headerRead_mem_iff⟩
  obtain ⟨width, base, hshows, hwhole⟩ := headerRead_text source
  refine ⟨width, base, hshows, Text.quotedIn?_quote identity, ?_⟩
  rw [hlisted]
  simp only [apply_ite (List.map _), List.map_append, List.map_cons, List.map_nil, region_texts,
    List.flatten_cons, List.flatten_nil, List.append_nil, List.append_assoc, decode_headerSize,
    headerOversized_text, identity_text, hwhole]
  rw [← GenericHeader.render_decode, ← HeapHeaders.render_decode, ← ProfileSettings.render_decode]
  rfl

end Header

end SharedArchive
