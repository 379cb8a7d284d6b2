import Mathlib
import SharedArchive.Proofs.EventLevels
import SharedArchive.Proofs.Transcripts

/-!
What a run of the command logs when it is asked for warnings, or for the file that it maps besides.
The log opens with the file and the warning that the headers do not fit in it. A run that succeeds
then warns of the regions that claim more than they span, once for each time that the payloads are
loaded; one that fails ends with the read that went too far; and there is nothing else.
-/

namespace SharedArchive.Command

theorem logLine_eq (e : Event) : logLine e = e.level.column ++ " " ++ e.text := rfl

theorem logLine_fileMapped (path : String) (size : Nat) :
    logLine (.fileMapped path size) =
      " INFO mapped " ++ path ++ " (" ++ toString size ++ " bytes)" := by
  have htext : (Event.fileMapped path size).text =
      "mapped " ++ path ++ " (" ++ toString size ++ " bytes)" := rfl
  rw [logLine_eq, htext]
  simp only [Event.level, Level.column, ← String.append_assoc, String.reduceAppend]

theorem logLine_headerOversized (size : UInt32) (fileSize : Nat) :
    logLine (.headerOversized size fileSize) =
      " WARN header size " ++ toString size.toNat ++ " is larger than the file (" ++
        toString fileSize ++ " bytes)" := by
  have htext : (Event.headerOversized size fileSize).text =
      "header size " ++ toString size.toNat ++ " is larger than the file (" ++
        toString fileSize ++ " bytes)" := rfl
  rw [logLine_eq, htext]
  simp only [Event.level, Level.column, ← String.append_assoc, String.reduceAppend]

theorem logLine_regionClipped (k : RegionKind) (used : UInt64) (available : Nat) :
    logLine (.regionClipped k used available) =
      " WARN region " ++ k.shortName ++ " claims " ++ toString used.toNat ++
        " used bytes but only " ++ toString available ++
          " are available before the next region" := by
  have htext : (Event.regionClipped k used available).text =
      "region " ++ k.shortName ++ " claims " ++ toString used.toNat ++ " used bytes but only " ++
        toString available ++ (" are available " ++ "before the next region") := by
    rw [← String.append_assoc]
    rfl
  rw [logLine_eq, htext]
  simp only [Event.level, Level.column, ← String.append_assoc, String.reduceAppend]

def cutShortLine (needed remaining position : Nat) : String :=
  "ERROR out of bytes: needed " ++ toString needed ++ " at position " ++ toString position ++
    ", only " ++ toString remaining ++ " remaining"

theorem logLine_cutShort (cause : Truncated) :
    logLine (.cutShort cause) = cutShortLine cause.needed cause.remaining cause.position := by
  have htext : (Event.cutShort cause).text = cause.message := rfl
  have hmessage : cause.message =
      "out of bytes: needed " ++ toString cause.needed ++ " at position " ++
        toString cause.position ++ ", only " ++ toString cause.remaining ++ " remaining" := rfl
  delta cutShortLine
  rw [logLine_eq, htext, hmessage]
  simp only [Event.level, Level.column, ← String.append_assoc, String.reduceAppend]

namespace Session

variable {α β : Type}

/-- How the session ends, and those of its events that the log shows. -/
structure Logs (s : Session α) (kept : Level) (x : Except Failure α) (es : List Event) : Prop where
  result : s.result = x
  shown : s.events.filter (·.visible kept) = es

section Logs

variable {kept : Level} {es more : List Event}

theorem logs_print (kept : Level) (lines : List String) : (print lines).Logs kept (.ok ()) [] :=
  ⟨rfl, rfl⟩

theorem logs_ofOutcome {x : Outcome Failure α} {r : Except Failure α} (h : x.result = r)
    (he : x.events.filter (·.visible kept) = es) : (ofOutcome x).Logs kept r es :=
  ⟨h, he⟩

namespace Logs

variable {s : Session α} {next : α → Session β}

theorem congr {x : Except Failure α} (he : es = more) (hs : s.Logs kept x es) :
    s.Logs kept x more :=
  he ▸ hs

theorem bind {a : α} {x : Except Failure β} (hs : s.Logs kept (.ok a) es)
    (hnext : (next a).Logs kept x more) : (s >>= next).Logs kept x (es ++ more) := by
  obtain ⟨result, printed, events⟩ := s
  obtain ⟨rfl, rfl⟩ := hs
  refine ⟨hnext.result, ?_⟩
  rw [← hnext.shown]
  exact List.filter_append events _

theorem bind_error {e : Failure} (hs : s.Logs kept (.error e) es) :
    (s >>= next).Logs kept (.error e) es := by
  obtain ⟨result, printed, events⟩ := s
  obtain ⟨rfl, rfl⟩ := hs
  exact ⟨rfl, rfl⟩

theorem stderr_ok {s : Session Unit} (hs : s.Logs kept (.ok ()) es) :
    (s.transcript kept).stderr = unlines (es.map logLine) := by
  rw [transcript, hs.result, hs.shown]

theorem stderr_error {s : Session Unit} {e : Failure} (hs : s.Logs kept (.error e) es) :
    (s.transcript kept).stderr = unlines (es.map logLine ++ failureLog kept e) := by
  rw [transcript, hs.result, hs.shown]

theorem stderr_truncated {s : Session Unit} {needed remaining position : Nat}
    (hs : s.Logs kept (.error (.truncated ⟨needed, remaining, position⟩)) es) :
    (s.transcript kept).stderr =
      unlines (es.map logLine ++ [cutShortLine needed remaining position]) := by
  have hvisible : (Event.cutShort ⟨needed, remaining, position⟩).visible kept = true :=
    decide_eq_true (Nat.zero_le kept.rank)
  rw [hs.stderr_error, failureLog, List.filter_cons_of_pos hvisible]
  exact congrArg (fun line => unlines (es.map logLine ++ [line])) (logLine_cutShort _)

end Logs

end Logs

end Session

namespace Request

variable {r : Request} {source : ByteArray}

def opening (r : Request) (source : ByteArray) : List Event :=
  let h := Header.decode source 0
  (if r.verbosity = 1 then [.fileMapped r.file source.size] else []) ++
    if 24 ≤ source.size ∧ numberAt source 0 4 = r.expectedMagic.toNat ∧
        source.size < h.generic.headerSize.toNat then
      [.headerOversized h.generic.headerSize source.size]
    else []

theorem level_of_verbosity (hv : r.verbosity ≤ 1) :
    r.level = if r.verbosity = 1 then .info else .warn := by
  have hcases : r.verbosity = 0 ∨ r.verbosity = 1 := by omega
  rw [level]
  rcases hcases with hzero | hone
  · rw [hzero]
    rfl
  · rw [hone]
    rfl

theorem level_mem (hv : r.verbosity ≤ 1) : r.level = .warn ∨ r.level = .info := by
  rw [level_of_verbosity hv]
  split_ifs
  · exact Or.inr rfl
  · exact Or.inl rfl

theorem shown_ofFile (hv : r.verbosity ≤ 1) :
    (Archive.ofFile r.expectedMagic r.file (.ok source)).events.filter (·.visible r.level) =
      r.opening source := by
  have hheaders : (Header.read r.expectedMagic source 0).events.filter (·.visible r.level) =
      if 24 ≤ source.size ∧ numberAt source 0 4 = r.expectedMagic.toNat ∧
          source.size < (Header.decode source 0).generic.headerSize.toNat then
        [.headerOversized (Header.decode source 0).generic.headerSize source.size]
      else [] := by
    have hwarned : 24 ≤ source.size ∧ numberAt source 0 4 = r.expectedMagic.toNat ∧
        source.size < (Header.decode source 0).generic.headerSize.toNat ↔
        ¬ (source.size < 24 ∨ Header.magicOf source ≠ r.expectedMagic) ∧
          source.size < (Header.decode source 0).generic.headerSize.toNat := by
      rw [not_or, not_lt, not_not, Archive.magicOf_eq_iff, and_assoc]
    rw [Event.filter_visible (fun e => Header.isReport_of_mem_read) (level_mem hv),
      Header.warnings_read, if_congr hwarned rfl rfl, ite_and, ite_not, Header.oversized]
  change (Event.fileMapped r.file source.size ::
    (Header.read r.expectedMagic source 0).events).filter _ = _
  rw [List.filter_cons, hheaders, level_of_verbosity hv, opening]
  split_ifs <;> first | rfl | contradiction

section Outcomes

variable {a : Archive}

theorem logs_ofFile (hv : r.verbosity ≤ 1) {x : Except Failure Archive}
    (h : (Archive.ofBytes r.expectedMagic source).result = x) :
    (Session.ofOutcome (Archive.ofFile r.expectedMagic r.file (.ok source))).Logs r.level x
      (r.opening source) :=
  Session.logs_ofOutcome (ofFile_result.trans h) (shown_ofFile hv)

theorem logs_baseName (kept : Level) {x : Except Failure (Option String)}
    (h : a.baseName.result = x) : (Session.ofOutcome a.baseName).Logs kept x [] := by
  refine Session.logs_ofOutcome h ?_
  rw [a.baseName_events]
  rfl

theorem logs_unopened (hv : r.verbosity ≤ 1) {e : Failure}
    (h : (Archive.ofBytes r.expectedMagic source).result = .error e) :
    (r.session (.ok source)).Logs r.level (.error e) (r.opening source) :=
  (logs_ofFile hv h).bind_error

theorem logs_unnamed (hv : r.verbosity ≤ 1) {e : Failure}
    (h : (Archive.ofBytes r.expectedMagic source).result = .ok a)
    (hname : a.baseName.result = .error e) :
    (r.session (.ok source)).Logs r.level (.error e) (r.opening source) := by
  have hrest (next : Option String → Session Unit) :
      (Session.ofOutcome a.baseName >>= next).Logs r.level (.error e) [] :=
    (logs_baseName r.level hname).bind_error
  exact .congr (List.append_nil _) ((logs_ofFile hv h).bind (hrest _))

theorem logs_payloads (hv : r.verbosity ≤ 1) (a : Archive) :
    (Session.ofOutcome a.payloads).Logs r.level (.ok (Payload.table a.regions a.source))
      (Payload.clipped a.regions a.source.size) := by
  refine Session.logs_ofOutcome a.payloads_result ?_
  rw [Event.filter_visible (fun e => Archive.isReport_of_mem_payloads) (level_mem hv),
    Archive.warnings_payloads]

theorem logs_symbols (hv : r.verbosity ≤ 1) (a : Archive) (pattern : UInt64) :
    ∃ found, (Session.ofOutcome (a.symbols pattern)).Logs r.level (.ok found)
      (Payload.clipped a.regions a.source.size) := by
  refine ⟨_, Session.logs_ofOutcome (a.symbols_result pattern) ?_⟩
  rw [Event.filter_visible (fun e => Archive.isReport_of_mem_symbols) (level_mem hv),
    Archive.warnings_symbols]

theorem logs_regions (hv : r.verbosity ≤ 1) (a : Archive) {rest : Session Unit} {es : List Event}
    (h : rest.Logs r.level (.ok ()) es) :
    (if r.regions = true then do
        let payloads ← Session.ofOutcome a.payloads
        Session.print (Report.regions payloads)
        rest
      else rest).Logs r.level (.ok ())
      ((if r.regions then Payload.clipped a.regions a.source.size else []) ++ es) := by
  by_cases hr : r.regions = true
  · rw [if_pos hr, if_pos hr]
    exact (logs_payloads hv a).bind ((Session.logs_print _ _).bind h)
  · rw [if_neg hr, if_neg hr]
    exact h

/-- Each time that the payloads are loaded they are warned of again. -/
theorem logs_whole (hv : r.verbosity ≤ 1) {name : Option String}
    (hpattern : r.symbols = true → ∃ pattern, r.pattern = some pattern)
    (h : (Archive.ofBytes r.expectedMagic source).result = .ok a)
    (hname : a.baseName.result = .ok name) :
    (r.session (.ok source)).Logs r.level (.ok ())
      (r.opening source ++
        ((if r.regions then Payload.clipped a.regions a.source.size else []) ++
          if r.symbols then Payload.clipped a.regions a.source.size else [])) := by
  refine (logs_ofFile hv h).bind ((logs_baseName r.level hname).bind
    ((Session.logs_print _ _).bind (logs_regions hv a ?_)))
  cases hs : r.symbols with
  | false => exact Session.logs_print _ []
  | true =>
    obtain ⟨pattern, hp⟩ := hpattern hs
    obtain ⟨found, hfound⟩ := logs_symbols hv a pattern
    rw [hp]
    exact .congr (List.append_nil _) (hfound.bind (Session.logs_print r.level _))

end Outcomes

section Runs

theorem opening_lines (r : Request) (source : ByteArray) :
    (r.opening source).map logLine =
      (if r.verbosity = 1 then
        [" INFO mapped " ++ r.file ++ " (" ++ toString source.size ++ " bytes)"] else []) ++
      if 24 ≤ source.size ∧ numberAt source 0 4 = r.expectedMagic.toNat ∧
          source.size < numberAt source 12 4 then
        [" WARN header size " ++ toString (numberAt source 12 4) ++
          " is larger than the file (" ++ toString source.size ++ " bytes)"] else [] := by
  simp only [opening, List.map_append, apply_ite (List.map logLine), List.map_cons, List.map_nil,
    logLine_fileMapped, logLine_headerOversized, Header.decode_headerSize]

theorem clipped_lines (regions : RegionTable) (fileSize : Nat) :
    (Payload.clipped regions fileSize).map logLine =
      [(RegionKind.readWrite, "rw"), (.readOnly, "ro"), (.bitmap, "bm"), (.heap, "hp")].flatMap
        fun k =>
          let region := regions.get k.1
          let start := region.fileOffset.toNat
          let available := Span.stopAfter regions.offsets fileSize start - start
          if start < fileSize ∧ available < region.used.toNat then
            [" WARN region " ++ k.2 ++ " claims " ++ toString region.used.toNat ++
              " used bytes but only " ++ toString available ++
                " are available before the next region"]
          else [] := by
  have hrows : [(RegionKind.readWrite, "rw"), (.readOnly, "ro"), (.bitmap, "bm"), (.heap, "hp")] =
      Payload.loaded.map fun k => (k, k.shortName) := rfl
  rw [hrows, Payload.clipped, List.map_flatMap, List.flatMap_map]
  simp only [apply_ite (List.map logLine), List.map_cons, List.map_nil, logLine_regionClipped]

theorem stderr_admitted (hv : r.verbosity ≤ 1)
    (hpattern : r.symbols = true → ∃ pattern, r.pattern = some pattern) (h : r.Admits source) :
    (r.run (.ok source)).stderr =
      let warned := (Payload.clipped (Header.decode source 0).regions source.size).map logLine
      unlines ((r.opening source).map logLine ++
        ((if r.regions then warned else []) ++ if r.symbols then warned else [])) := by
  obtain ⟨hs, hm, hholds⟩ := h
  obtain ⟨name, hname⟩ := (Archive.baseName_reading source).1 hholds
  have hlogs := logs_whole hv hpattern (Archive.ofBytes_opens hs hm) hname
  rw [run, hlogs.stderr_ok]
  simp only [List.map_append, apply_ite (List.map logLine), List.map_nil]
  rfl

theorem stderr_mismatch (hv : r.verbosity ≤ 1) (hs : 4 ≤ source.size)
    (hm : numberAt source 0 4 ≠ r.expectedMagic.toNat) :
    (r.run (.ok source)).stderr = unlines ((r.opening source).map logLine) := by
  have hopen := Archive.ofBytes_wrongMagic hs (mt Archive.magicOf_eq_iff.1 hm)
  rw [run, (logs_unopened hv hopen).stderr_error, failureLog, List.append_nil]

theorem stderr_refused (hv : r.verbosity ≤ 1) (h : ¬ r.Admits source) :
    ∃ last : List String,
      (r.run (.ok source)).stderr = unlines ((r.opening source).map logLine ++ last) ∧
      if source.size < 4 then last = [cutShortLine 4 source.size 0]
      else if numberAt source 0 4 ≠ r.expectedMagic.toNat then last = []
      else if source.size < 1032 then
        ∃ place, (∀ other,
            other ∈ Header.fields.places ∧ other.Holds source.size ↔ other = place) ∧
          last = [cutShortLine place.field.width (source.size - place.start) place.start]
      else last = [cutShortLine (numberAt source 20 4) (source.size - numberAt source 16 4)
        (numberAt source 16 4)] := by
  split_ifs with h4 hm hs
  · exact ⟨_, (logs_unopened hv (Archive.ofBytes_short h4)).stderr_truncated, rfl⟩
  · refine ⟨[], ?_, rfl⟩
    rw [List.append_nil]
    exact stderr_mismatch hv (Nat.le_of_not_lt h4) hm
  · have hmagic := Archive.magicOf_eq_iff.2 (not_not.1 hm)
    obtain ⟨place, hplace, hcut⟩ := Archive.ofBytes_cut (Nat.le_of_not_lt h4) hmagic hs
    exact ⟨_, (logs_unopened hv hcut).stderr_truncated, place, hplace, rfl⟩
  · have hmagic := not_not.1 hm
    have hlong := Nat.le_of_not_lt hs
    have hlost : ¬ Archive.HoldsName source := fun hholds => h ⟨hlong, hmagic, hholds⟩
    have hname := (Archive.baseName_reading source).2 hlost
    exact ⟨_, (logs_unnamed hv (Archive.ofBytes_opens hlong hmagic) hname).stderr_truncated, rfl⟩

end Runs

end Request

section Lines

variable {arguments : List String} {r : Request} {source : ByteArray}

/-- The log of an accepted command line, when it is kept for warnings or for the mapped file as
well. It opens with the file and the warning that the headers do not fit in it. If the run succeeds
the clipped regions are warned of once for each section that the line asks for, and if not the read
that went too far is told. -/
theorem log_accounted (h : Request.ofArguments arguments = .ok r) (hv : r.verbosity ≤ 1)
    {contents : String → Except FileFault ByteArray} (hsource : contents r.file = .ok source) :
    ∃ t, run arguments contents = t ∧ ∃ (opening clipped last : List String),
      ∃ stop : RegionKind → Nat,
      let regions := (Header.decode source 0).regions
      let cut := fun needed remaining position : Nat =>
        "ERROR out of bytes: needed " ++ toString needed ++ " at position " ++
          toString position ++ ", only " ++ toString remaining ++ " remaining"
      opening = (if r.verbosity = 1 then
          [" INFO mapped " ++ r.file ++ " (" ++ toString source.size ++ " bytes)"] else []) ++
        (if 24 ≤ source.size ∧ numberAt source 0 4 = r.expectedMagic.toNat ∧
            source.size < numberAt source 12 4 then
          [" WARN header size " ++ toString (numberAt source 12 4) ++
            " is larger than the file (" ++ toString source.size ++ " bytes)"] else []) ∧
      (∀ k, IsLeast (Span.ends regions.offsets source.size (regions.get k).fileOffset.toNat)
        (stop k)) ∧
      clipped = [(RegionKind.readWrite, "rw"), (.readOnly, "ro"), (.bitmap, "bm"),
        (.heap, "hp")].flatMap (fun k =>
          let region := regions.get k.1
          let start := region.fileOffset.toNat
          let available := stop k.1 - start
          if start < source.size ∧ available < region.used.toNat then
            [" WARN region " ++ k.2 ++ " claims " ++ toString region.used.toNat ++
              " used bytes but only " ++ toString available ++
                " are available before the next region"]
          else []) ∧
      (if t.exitCode = 0 then
        last = (if r.regions then clipped else []) ++ if r.symbols then clipped else []
      else if source.size < 4 then last = [cut 4 source.size 0]
      else if numberAt source 0 4 ≠ r.expectedMagic.toNat then last = []
      else if source.size < 1032 then
        ∃ place, (∀ other,
            other ∈ Header.fields.places ∧ other.Holds source.size ↔ other = place) ∧
          last = [cut place.field.width (source.size - place.start) place.start]
      else last = [cut (numberAt source 20 4) (source.size - numberAt source 16 4)
        (numberAt source 16 4)]) ∧
      t.stderr = String.join ((opening ++ last).map (· ++ "\n")) := by
  have hpattern := Request.exists_pattern h
  rw [run_of_accepted h, hsource]
  by_cases hadmits : r.Admits source
  · obtain ⟨-, -, -, -, -, -, -, -, hexit, -⟩ := Request.run_admitted hpattern hadmits
    refine ⟨_, rfl, _, _, _, _, r.opening_lines source, fun k => Span.stopAfter_isLeast _ _ _,
      Request.clipped_lines _ source.size, ?_, Request.stderr_admitted hv hpattern hadmits⟩
    rw [if_pos hexit]
  · have hexit : (r.run (.ok source)).exitCode ≠ 0 := by
      rw [(Request.run_refused hadmits).1]
      exact one_ne_zero
    obtain ⟨last, hlog, hlast⟩ := Request.stderr_refused hv hadmits
    refine ⟨_, rfl, _, _, last, _, r.opening_lines source, fun k => Span.stopAfter_isLeast _ _ _,
      Request.clipped_lines _ source.size, ?_, hlog⟩
    rw [if_neg hexit]
    exact hlast

theorem hello_logged :
    Request.ofArguments askAll = .ok ⟨"hello", some 0, true, true, some 1, 1⟩ ∧
      (run askAll fun _ => .ok Archive.helloBytes).stderr = String.join [
        " INFO mapped hello (1075 bytes)\n",
        " WARN region ro claims 16 used bytes but only 11 are available before the next region\n",
        " WARN region ro claims 16 used bytes but only 11 are available before the next region\n"] := by
  have haccepted : Request.ofArguments askAll =
      .ok ⟨"hello", some 0, true, true, some 1, 1⟩ := by decide
  let contents : String → Except FileFault ByteArray := fun _ => .ok Archive.helloBytes
  have hsource : contents "hello" = .ok Archive.helloBytes := rfl
  obtain ⟨t, ht, opening, clipped, last, stop, hopening, hstop, hclipped, hlast, hlog⟩ :=
    log_accounted haccepted (by decide) hsource
  have hadmits : Request.Admits ⟨"hello", some 0, true, true, some 1, 1⟩ Archive.helloBytes :=
    ⟨by decide +kernel, by decide +kernel, Or.inl (by decide +kernel)⟩
  obtain ⟨-, -, -, -, -, -, -, -, hexit, -⟩ :=
    Request.run_admitted (Request.exists_pattern haccepted) hadmits
  rw [← hsource, ← run_of_accepted haccepted contents, ht] at hexit
  have hspan (k : RegionKind) := (hstop k).unique (Span.stopAfter_isLeast _ _ _)
  have hwarned : clipped =
      [" WARN region ro claims 16 used bytes but only 11 are available before the next region"] := by
    rw [hclipped]
    simp only [hspan]
    decide +kernel
  have hfile : opening = [" INFO mapped hello (1075 bytes)"] := by
    rw [hopening]
    decide +kernel
  rw [if_pos hexit, hwarned] at hlast
  refine ⟨haccepted, ?_⟩
  rw [ht, hlog, hfile, hlast]
  decide +kernel

end Lines

end SharedArchive.Command
