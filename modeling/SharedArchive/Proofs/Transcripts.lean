import Mathlib
import SharedArchive.Command.Run
import SharedArchive.Proofs.Arguments
import SharedArchive.Proofs.Loading
import SharedArchive.Proofs.Numerals

/-!
What a run of the command shows. A file is admitted if it is long enough, begins with the expected
magic and holds the name of the archive it is laid over. For an admitted file the whole report that
was asked for is printed; for any other regular file there is one line, which tells apart a magic
that is not the expected one from a file that is too short; and without a file there is nothing.
-/

namespace SharedArchive

namespace Archive

variable {expected : UInt32} {source : ByteArray}

theorem magicOf_toNat (source : ByteArray) :
    (Header.magicOf source).toNat = numberAt source 0 4 :=
  toNat_uint32_numberAt source 0

theorem magicOf_eq_iff :
    Header.magicOf source = expected ↔ numberAt source 0 4 = expected.toNat := by
  rw [← UInt32.toNat_inj, magicOf_toNat]

theorem ofBytes_result :
    (ofBytes expected source).result =
      (Header.read expected source 0).result.map fun header => ⟨source, header⟩ := rfl

theorem ofBytes_wrongMagic (hs : 4 ≤ source.size) (hm : Header.magicOf source ≠ expected) :
    (ofBytes expected source).result = .error (.wrongMagic expected (Header.magicOf source)) := by
  rw [ofBytes_result, (Header.read_long expected 0 hs).1, if_neg hm]
  rfl

theorem ofBytes_short (hs : source.size < 4) :
    (ofBytes expected source).result = .error (.truncated ⟨4, source.size, 0⟩) := by
  rw [ofBytes_result, (Header.read_short 0 hs).1]
  rfl

theorem ofBytes_cut (h4 : 4 ≤ source.size) (hm : Header.magicOf source = expected)
    (hs : source.size < 1032) :
    ∃ place, (∀ other, other ∈ Header.fields.places ∧ other.Holds source.size ↔ other = place) ∧
      (ofBytes expected source).result =
        .error (.truncated ⟨place.field.width, source.size - place.start, place.start⟩) := by
  have hcut : source.size < Header.layout.size := by
    rw [Header.layout_size]
    exact hs
  obtain ⟨place, hplace, hunique⟩ := Layout.existsUnique_place hcut
  refine ⟨place, fun other => ?_, ?_⟩
  · rw [← Header.layout_eq_fields]
    refine ⟨hunique other, ?_⟩
    rintro rfl
    exact hplace
  · rw [ofBytes_result, (Header.read_cut 0 h4 hm hplace.1 hplace.2).1]
    rfl

theorem ofBytes_truncated (hs : source.size < 1032)
    (hm : 4 ≤ source.size → Header.magicOf source = expected) :
    ∃ cause, (ofBytes expected source).result = .error (.truncated cause) := by
  by_cases h4 : source.size < 4
  · exact ⟨_, ofBytes_short h4⟩
  · have hle := Nat.le_of_not_lt h4
    obtain ⟨place, -, hcut⟩ := ofBytes_cut hle (hm hle) hs
    exact ⟨_, hcut⟩

theorem ofBytes_opens (hs : 1032 ≤ source.size) (hm : numberAt source 0 4 = expected.toNat) :
    (ofBytes expected source).result = .ok ⟨source, Header.decode source 0⟩ :=
  ofBytes_ok_iff.2 ⟨hs, magicOf_eq_iff.2 hm, rfl⟩

def HoldsName (source : ByteArray) : Prop :=
  numberAt source 20 4 = 0 ∨ numberAt source 16 4 + numberAt source 20 4 ≤ source.size

theorem baseName_reading (source : ByteArray) :
    (HoldsName source →
      ∃ name, (mk source (Header.decode source 0)).baseName.result = .ok name) ∧
    (¬ HoldsName source →
      (mk source (Header.decode source 0)).baseName.result =
        .error (.truncated ⟨numberAt source 20 4, source.size - numberAt source 16 4,
          numberAt source 16 4⟩)) := by
  have hoffset : (Header.decode source 0).generic.baseNameOffset.toNat = numberAt source 16 4 :=
    toNat_uint32_numberAt source 16
  have hsize : (Header.decode source 0).generic.baseNameSize.toNat = numberAt source 20 4 :=
    toNat_uint32_numberAt source 20
  have hbase : (Header.decode source 0).generic.hasBase = true ↔ numberAt source 20 4 ≠ 0 := by
    rw [GenericHeader.hasBase_iff, hsize]
  rw [baseName_result, generic, hoffset, hsize, HoldsName]
  split_ifs with hb hfit
  · exact ⟨fun _ => ⟨_, rfl⟩, fun h => absurd (Or.inr hfit) h⟩
  · refine ⟨fun h => ?_, fun _ => rfl⟩
    rcases h with hzero | hin
    · exact absurd hzero (hbase.1 hb)
    · exact absurd hin hfit
  · refine ⟨fun _ => ⟨_, rfl⟩, fun h => absurd (Or.inl ?_) h⟩
    exact not_not.1 (mt hbase.2 hb)

end Archive

namespace Command

namespace Session

variable {α β : Type}

/-- How the session ends, and the lines it has printed by then. -/
structure Ends (s : Session α) (x : Except Failure α) (lines : List String) : Prop where
  result : s.result = x
  printed : s.printed = lines

theorem ends_print (lines : List String) : (print lines).Ends (.ok ()) lines := ⟨rfl, rfl⟩

theorem ends_ofOutcome {x : Outcome Failure α} {r : Except Failure α} (h : x.result = r) :
    (ofOutcome x).Ends r [] :=
  ⟨h, rfl⟩

namespace Ends

variable {s : Session α} {next : α → Session β} {lines : List String}

theorem bind {a : α} {x : Except Failure β} {more : List String} (hs : s.Ends (.ok a) lines)
    (hnext : (next a).Ends x more) : (s >>= next).Ends x (lines ++ more) := by
  obtain ⟨result, printed, events⟩ := s
  obtain ⟨rfl, rfl⟩ := hs
  exact ⟨hnext.result, congrArg (printed ++ ·) hnext.printed⟩

theorem bind_error {e : Failure} (hs : s.Ends (.error e) lines) :
    (s >>= next).Ends (.error e) lines := by
  obtain ⟨result, printed, events⟩ := s
  obtain ⟨rfl, rfl⟩ := hs
  exact ⟨rfl, rfl⟩

theorem transcript_ok {s : Session Unit} (hs : s.Ends (.ok ()) lines) (kept : Level) :
    (s.transcript kept).exitCode = 0 ∧ (s.transcript kept).stdout = unlines lines := by
  rw [transcript, hs.result, hs.printed]
  exact ⟨rfl, rfl⟩

theorem transcript_error {s : Session Unit} {e : Failure} (hs : s.Ends (.error e) lines)
    (kept : Level) :
    (s.transcript kept).exitCode = 1 ∧
      (s.transcript kept).stdout = unlines (lines ++ Report.failure e) := by
  rw [transcript, hs.result, hs.printed]
  exact ⟨rfl, rfl⟩

end Ends

end Session

def mismatchText (x : String) : String :=
  "Invalid AOTCache file: magic number mismatch (actual: " ++ x ++ ")\n"

def tooShortText : String := "Invalid AOTCache file: file too short\n"

theorem unlines_cons (line : String) (lines : List String) :
    unlines (line :: lines) = line ++ "\n" ++ unlines lines := by
  rw [unlines, List.map_cons, String.join_cons]
  rfl

theorem unlines_nil : unlines [] = "" := rfl

namespace Request

variable {r : Request} {source : ByteArray}

def Admits (r : Request) (source : ByteArray) : Prop :=
  1032 ≤ source.size ∧ numberAt source 0 4 = r.expectedMagic.toNat ∧ Archive.HoldsName source

def report (r : Request) (a : Archive) (name : Option String) (payloads : Table Payload)
    (found : List SymbolMatch) : List String :=
  Report.header a name ++ ((if r.regions then Report.regions payloads else []) ++
    if r.symbols then Report.symbols found else [])

theorem exists_pattern {arguments : List String} (h : ofArguments arguments = .ok r)
    (hs : r.symbols = true) : ∃ pattern, r.pattern = some pattern := by
  obtain ⟨p, -, hp⟩ := bind_ok_iff.1 h
  rw [ofProgress] at hp
  split at hp
  · cases hp
  · split_ifs at hp with hneeds
    cases hp
    rw [show p.symbols = true from hs, Bool.true_and, Option.isNone_iff_eq_none] at hneeds
    exact Option.ne_none_iff_exists'.1 hneeds

section Sessions

variable {a : Archive}

theorem ofFile_result :
    (Archive.ofFile r.expectedMagic r.file (.ok source)).result =
      (Archive.ofBytes r.expectedMagic source).result := rfl

theorem session_unopened {e : Failure}
    (h : (Archive.ofBytes r.expectedMagic source).result = .error e) :
    (r.session (.ok source)).Ends (.error e) [] :=
  (Session.ends_ofOutcome (ofFile_result.trans h)).bind_error

theorem session_unnamed {e : Failure}
    (h : (Archive.ofBytes r.expectedMagic source).result = .ok a)
    (hname : a.baseName.result = .error e) : (r.session (.ok source)).Ends (.error e) [] :=
  (Session.ends_ofOutcome (ofFile_result.trans h)).bind
    (Session.ends_ofOutcome hname).bind_error

theorem session_fault (fault : FileFault) :
    (r.session (.error fault)).Ends (.error (.file fault)) [] :=
  (Session.ends_ofOutcome rfl).bind_error

theorem ends_regions (r : Request) (a : Archive) {rest : Session Unit} {lines : List String}
    (h : rest.Ends (.ok ()) lines) :
    (if r.regions = true then do
        let payloads ← Session.ofOutcome a.payloads
        Session.print (Report.regions payloads)
        rest
      else rest).Ends (.ok ())
      ((if r.regions then Report.regions (Payload.table a.regions a.source) else []) ++ lines) := by
  by_cases hr : r.regions = true
  · rw [if_pos hr, if_pos hr]
    exact (Session.ends_ofOutcome a.payloads_result).bind ((Session.ends_print _).bind h)
  · rw [if_neg hr, if_neg hr]
    exact h

theorem session_whole {name : Option String}
    (hpattern : r.symbols = true → ∃ pattern, r.pattern = some pattern)
    (h : (Archive.ofBytes r.expectedMagic source).result = .ok a)
    (hname : a.baseName.result = .ok name) :
    ∃ payloads found, a.payloads.result = .ok payloads ∧
      (∀ pattern ∈ r.pattern, (a.symbols pattern).result = .ok found) ∧
      (r.session (.ok source)).Ends (.ok ()) (r.report a name payloads found) := by
  obtain ⟨found, hfound⟩ :
      ∃ found, ∀ pattern ∈ r.pattern, (a.symbols pattern).result = .ok found := by
    cases r.pattern with
    | none => exact ⟨[], by simp⟩
    | some pattern => exact ⟨_, by simpa using a.symbols_result pattern⟩
  refine ⟨_, found, a.payloads_result, hfound, ?_⟩
  refine (Session.ends_ofOutcome (ofFile_result.trans h)).bind
    ((Session.ends_ofOutcome hname).bind ((Session.ends_print _).bind (ends_regions r a ?_)))
  cases hs : r.symbols with
  | false => exact Session.ends_print []
  | true =>
    obtain ⟨pattern, hp⟩ := hpattern hs
    rw [hp]
    exact (Session.ends_ofOutcome (hfound pattern hp)).bind (Session.ends_print _)

end Sessions

section Runs

theorem run_admitted (hpattern : r.symbols = true → ∃ pattern, r.pattern = some pattern)
    (h : r.Admits source) :
    ∃ a name payloads found,
      (Archive.ofBytes r.expectedMagic source).result = .ok a ∧ a.baseName.result = .ok name ∧
      a.payloads.result = .ok payloads ∧
      (∀ pattern ∈ r.pattern, (a.symbols pattern).result = .ok found) ∧
      (r.run (.ok source)).exitCode = 0 ∧
      (r.run (.ok source)).stdout = unlines (r.report a name payloads found) := by
  obtain ⟨hs, hm, hholds⟩ := h
  obtain ⟨name, hname⟩ := (Archive.baseName_reading source).1 hholds
  have hopen := Archive.ofBytes_opens hs hm
  obtain ⟨payloads, found, hpayloads, hfound, hends⟩ := session_whole hpattern hopen hname
  exact ⟨_, name, payloads, found, hopen, hname, hpayloads, hfound, hends.transcript_ok r.level⟩

theorem run_mismatch (hs : 4 ≤ source.size)
    (hm : numberAt source 0 4 ≠ r.expectedMagic.toNat) :
    (r.run (.ok source)).exitCode = 1 ∧
      ∃ x, Text.Hex.Shows 8 x (numberAt source 0 4) ∧
        (r.run (.ok source)).stdout = mismatchText x := by
  have hopen := Archive.ofBytes_wrongMagic hs (mt Archive.magicOf_eq_iff.1 hm)
  obtain ⟨hexit, hout⟩ := (session_unopened hopen).transcript_error r.level
  have hlt : numberAt source 0 4 < 16 ^ 8 := by
    have hbytes := numberAt_lt source 0 4
    omega
  refine ⟨hexit, Text.Hex.padded 8 (numberAt source 0 4),
    Text.Hex.padded_shows (by decide) hlt, ?_⟩
  rw [run, hout, List.nil_append, Report.failure, unlines_cons, unlines_nil, String.append_empty,
    Archive.magicOf_toNat, String.append_assoc]
  rfl

theorem run_truncated {cause : Truncated}
    (h : (r.session (.ok source)).Ends (.error (.truncated cause)) []) :
    (r.run (.ok source)).exitCode = 1 ∧ (r.run (.ok source)).stdout = tooShortText :=
  h.transcript_error r.level

theorem run_tooShort (h : ¬ r.Admits source)
    (hm : 4 ≤ source.size → numberAt source 0 4 = r.expectedMagic.toNat) :
    (r.run (.ok source)).exitCode = 1 ∧ (r.run (.ok source)).stdout = tooShortText := by
  by_cases hs : source.size < 1032
  · obtain ⟨cause, hopen⟩ :=
      Archive.ofBytes_truncated hs fun h4 => Archive.magicOf_eq_iff.2 (hm h4)
    exact run_truncated (session_unopened hopen)
  · have hlong : 1032 ≤ source.size := Nat.le_of_not_lt hs
    have hmagic := hm (by omega)
    have hlost : ¬ Archive.HoldsName source := fun hholds => h ⟨hlong, hmagic, hholds⟩
    have hname := (Archive.baseName_reading source).2 hlost
    exact run_truncated (session_unnamed (Archive.ofBytes_opens hlong hmagic) hname)

theorem run_refused (h : ¬ r.Admits source) :
    (r.run (.ok source)).exitCode = 1 ∧
      if 4 ≤ source.size ∧ numberAt source 0 4 ≠ r.expectedMagic.toNat then
        ∃ x, Text.Hex.Shows 8 x (numberAt source 0 4) ∧
          (r.run (.ok source)).stdout = mismatchText x
      else (r.run (.ok source)).stdout = tooShortText := by
  split_ifs with hm
  · exact run_mismatch hm.1 hm.2
  · refine run_tooShort h fun h4 => ?_
    by_contra hother
    exact hm ⟨h4, hother⟩

theorem run_fault (fault : FileFault) :
    (r.run (.error fault)).exitCode = 1 ∧ (r.run (.error fault)).stdout = "" :=
  (session_fault fault).transcript_error r.level

end Runs

end Request

section Lines

variable {arguments : List String} {r : Request}

theorem run_of_accepted (h : Request.ofArguments arguments = .ok r)
    (contents : String → Except FileFault ByteArray) :
    run arguments contents = r.run (contents r.file) := by
  rw [run, h]

theorem report_begins (r : Request) (a : Archive) (name : Option String)
    (payloads : Table Payload) (found : List SymbolMatch) :
    ∃ rest, unlines (r.report a name payloads found) = "Valid AOTCache file\n" ++ rest := by
  obtain ⟨rest, hrest⟩ :
      ∃ rest, r.report a name payloads found = "Valid AOTCache file" :: rest := ⟨_, rfl⟩
  rw [hrest, unlines_cons]
  exact ⟨_, rfl⟩

def askAll : List String :=
  ["--magic=0", "--regions", "hello", "--symbols", "--pattern", "0x1", "-v"]

end Lines

end Command

end SharedArchive
