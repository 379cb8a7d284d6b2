import Mathlib
import SharedArchive.Proofs.Items
import SharedArchive.Proofs.Transcripts

/-!
The sections of a report. What is told of the header, of the regions and of the symbols depends on
the file alone, and for the symbols on the pattern; the rest of a request only says which of the
sections there are. So of two requests about a file one tells what the other tells and more, or both
tell why there is nothing to tell.
-/

namespace SharedArchive.Command

def opened (source : ByteArray) : Archive := ⟨source, Header.decode source 0⟩

def nameOf (a : Archive) : Option String :=
  match a.baseName.result with
  | .ok name => name
  | .error _ => none

theorem nameOf_eq {a : Archive} {name : Option String} (h : a.baseName.result = .ok name) :
    nameOf a = name := by
  rw [nameOf, h]

section Texts

variable (source : ByteArray)

def headerText : String := unlines (Report.header (opened source) (nameOf (opened source)))

def regionsText : String :=
  unlines (Report.regions (Payload.table (opened source).regions (opened source).source))

def symbolsText (pattern : UInt64) : String :=
  unlines (Report.symbols ((opened source).scan pattern).remaining)

end Texts

theorem unlines_append (lines more : List String) :
    unlines (lines ++ more) = unlines lines ++ unlines more := by
  simp [unlines, String.join_append]

namespace Request

variable {r r' : Request} {source : ByteArray}

def regionsPart (r : Request) (source : ByteArray) : String :=
  if r.regions then regionsText source else ""

def symbolsPart (r : Request) (source : ByteArray) : String :=
  match r.symbols, r.pattern with
  | true, some pattern => symbolsText source pattern
  | _, _ => ""

theorem run_sections (hpattern : r.symbols = true → ∃ pattern, r.pattern = some pattern)
    (h : r.Admits source) :
    (r.run (.ok source)).exitCode = 0 ∧
      (r.run (.ok source)).stdout =
        headerText source ++ r.regionsPart source ++ r.symbolsPart source := by
  obtain ⟨a, name, payloads, found, hopen, hname, hpayloads, hfound, hexit, hout⟩ :=
    run_admitted hpattern h
  have ha : a = opened source := by
    rw [Archive.ofBytes_opens h.1 h.2.1] at hopen
    exact (Except.ok.inj hopen).symm
  subst ha
  have htable : payloads = Payload.table (opened source).regions (opened source).source := by
    rw [Archive.payloads_result] at hpayloads
    exact (Except.ok.inj hpayloads).symm
  have hregions : unlines (if r.regions then Report.regions payloads else []) =
      r.regionsPart source := by
    rw [regionsPart, regionsText, ← htable]
    split_ifs <;> rfl
  have hsymbols : unlines (if r.symbols then Report.symbols found else []) =
      r.symbolsPart source := by
    cases hs : r.symbols with
    | false => simp [symbolsPart, hs, unlines_nil]
    | true =>
      obtain ⟨pattern, hp⟩ := hpattern hs
      have hmatches := hfound pattern hp
      rw [Archive.symbols_result] at hmatches
      simp [symbolsPart, hs, hp, symbolsText, Except.ok.inj hmatches]
  refine ⟨hexit, ?_⟩
  rw [hout, report, unlines_append, unlines_append, hregions, hsymbols, headerText, nameOf_eq hname,
    String.append_assoc]

theorem regionsPart_congr (h : r.regions = r'.regions) :
    r.regionsPart source = r'.regionsPart source := by
  rw [regionsPart, regionsPart, h]

theorem symbolsPart_congr (hs : r.symbols = r'.symbols)
    (hp : r.symbols = true → r.pattern = r'.pattern) :
    r.symbolsPart source = r'.symbolsPart source := by
  rw [symbolsPart, symbolsPart, ← hs]
  cases hr : r.symbols with
  | false => rfl
  | true => rw [hp hr]

theorem symbolsPart_of_symbols (hs : r.symbols = true) {pattern : UInt64}
    (hp : r.pattern = some pattern) : r.symbolsPart source = symbolsText source pattern := by
  simp [symbolsPart, hs, hp]

theorem symbolsPart_of_not_symbols (hs : r.symbols = false) : r.symbolsPart source = "" := by
  simp [symbolsPart, hs]

theorem admits_of_exitCode {contents : Except FileFault ByteArray}
    (h : (r.run contents).exitCode = 0) : ∃ source, contents = .ok source ∧ r.Admits source := by
  cases contents with
  | error fault =>
    rw [(run_fault fault).1] at h
    cases h
  | ok source =>
    refine ⟨source, rfl, ?_⟩
    by_contra hrefused
    rw [(run_refused hrefused).1] at h
    cases h

section Pairs

variable (hmagic : r.expectedMagic = r'.expectedMagic)

include hmagic

theorem admits_iff : r.Admits source ↔ r'.Admits source := by
  rw [Admits, Admits, hmagic]

theorem run_refused_alike (h : ¬ r.Admits source) :
    (r.run (.ok source)).exitCode = (r'.run (.ok source)).exitCode ∧
      (r.run (.ok source)).stdout = (r'.run (.ok source)).stdout := by
  obtain ⟨hexit, hline⟩ := run_refused h
  obtain ⟨hexit', hline'⟩ := run_refused (mt (admits_iff hmagic).2 h)
  refine ⟨hexit.trans hexit'.symm, ?_⟩
  rw [hmagic] at hline
  split_ifs at hline hline'
  · obtain ⟨x, hx, hout⟩ := hline
    obtain ⟨x', hx', hout'⟩ := hline'
    rw [hout, hout', hx.unique hx']
  · rw [hline, hline']

theorem run_alike (hpattern : r.symbols = true → ∃ pattern, r.pattern = some pattern)
    (hpattern' : r'.symbols = true → ∃ pattern, r'.pattern = some pattern)
    (contents : Except FileFault ByteArray) :
    (r.run contents).exitCode = (r'.run contents).exitCode ∧
      ((r.run contents).exitCode ≠ 0 → (r.run contents).stdout = (r'.run contents).stdout) ∧
      (r.regions = r'.regions → r.symbols = r'.symbols →
        (r.symbols = true → r.pattern = r'.pattern) →
        (r.run contents).stdout = (r'.run contents).stdout) := by
  cases contents with
  | error fault =>
    obtain ⟨hexit, hout⟩ := run_fault (r := r) fault
    obtain ⟨hexit', hout'⟩ := run_fault (r := r') fault
    have hsame := hout.trans hout'.symm
    exact ⟨hexit.trans hexit'.symm, fun _ => hsame, fun _ _ _ => hsame⟩
  | ok source =>
    by_cases h : r.Admits source
    · obtain ⟨hexit, hout⟩ := run_sections hpattern h
      obtain ⟨hexit', hout'⟩ := run_sections hpattern' ((admits_iff hmagic).1 h)
      refine ⟨hexit.trans hexit'.symm, fun hne => absurd hexit hne, ?_⟩
      intro hregions hsymbols hpatterns
      rw [hout, hout', regionsPart_congr hregions, symbolsPart_congr hsymbols hpatterns]
    · obtain ⟨hexit, hout⟩ := run_refused_alike hmagic h
      exact ⟨hexit, fun _ => hout, fun _ _ _ => hout⟩

end Pairs

end Request

/-- The sections that an accepted line asks for are printed one after the other, and each depends on
the file alone, but for the pattern of the symbols. The lines that expect the same magic of a file
tell the same wherever they ask for the same sections, and succeed or fail together; and the items
of a line may come in any order. -/
theorem sections_appended (contents : String → Except FileFault ByteArray) :
    (∀ arguments r, Request.ofArguments arguments = .ok r →
      (run arguments contents).exitCode = 0 →
      ∃ source symbols, contents r.file = .ok source ∧
        (Archive.ofBytes r.expectedMagic source).result = .ok (opened source) ∧
        (run arguments contents).stdout =
          headerText source ++ (if r.regions then regionsText source else "") ++ symbols ∧
        (r.symbols = false → symbols = "") ∧
        (r.symbols = true → ∃ pattern found, r.pattern = some pattern ∧
          symbols = symbolsText source pattern ∧
          ((opened source).symbols pattern).result = .ok found ∧
          symbols = s!"Symbols ({found.length}):" ++ "\n" ++
            unlines (found.map Report.symbol))) ∧
    (∀ arguments arguments' r r', Request.ofArguments arguments = .ok r →
      Request.ofArguments arguments' = .ok r' → r.file = r'.file → r.magic = r'.magic →
      (run arguments contents).exitCode = (run arguments' contents).exitCode ∧
      ((run arguments contents).exitCode ≠ 0 →
        (run arguments contents).stdout = (run arguments' contents).stdout) ∧
      (r.regions = r'.regions → r.symbols = r'.symbols →
        (r.symbols = true → r.pattern = r'.pattern) →
        (run arguments contents).stdout = (run arguments' contents).stdout)) ∧
    ∀ arguments r, Request.ofArguments arguments = .ok r →
      ∃ (items : List Item) (tail : List String),
        arguments = items.flatMap Item.arguments ++ tail ∧ (∀ a ∈ tail.head?, a = "--") ∧
        ∀ items' : List Item, items.Perm items' →
          Request.ofArguments (items'.flatMap Item.arguments ++ tail) = .ok r ∧
          run (items'.flatMap Item.arguments ++ tail) contents = run arguments contents := by
  refine ⟨?_, ?_, ?_⟩
  · intro arguments r h hexit
    rw [run_of_accepted h] at hexit ⊢
    obtain ⟨source, hsource, hadmits⟩ := Request.admits_of_exitCode hexit
    have hpattern := Request.exists_pattern h
    have hopen := Archive.ofBytes_opens hadmits.1 hadmits.2.1
    refine ⟨source, r.symbolsPart source, hsource, hopen, ?_,
      Request.symbolsPart_of_not_symbols, ?_⟩
    · rw [hsource]
      exact (Request.run_sections hpattern hadmits).2
    · intro hs
      obtain ⟨pattern, hp⟩ := hpattern hs
      have hpart : r.symbolsPart source = symbolsText source pattern :=
        Request.symbolsPart_of_symbols hs hp
      refine ⟨pattern, _, hp, hpart, Archive.symbols_result _ _, ?_⟩
      rw [hpart, symbolsText, Report.symbols, unlines_cons]
  · intro arguments arguments' r r' h h' hfile hmagic
    have hexpected : r.expectedMagic = r'.expectedMagic :=
      congrArg (·.getD Header.defaultMagic) hmagic
    rw [run_of_accepted h, run_of_accepted h', ← hfile]
    exact Request.run_alike hexpected (Request.exists_pattern h) (Request.exists_pattern h') _
  · intro arguments r h
    obtain ⟨q, hq, -⟩ := bind_ok_iff.1 h
    obtain ⟨items, tail, rfl, htail⟩ := Progress.exists_items rfl rfl hq
    refine ⟨items, tail, rfl, htail, ?_⟩
    intro items' hperm
    have h' := (ofArguments_perm hperm).1 h
    rw [run_of_accepted h, run_of_accepted h']
    exact ⟨h', rfl⟩

def askMost : List String := ["hello", "--magic=0", "--regions", "--symbols", "--pattern", "0x1"]

def askLittle : List String := ["-vv", "--pattern=2", "hello", "--magic", "0x0"]

theorem hello_sections :
    Request.ofArguments askMost = .ok ⟨"hello", some 0, true, true, some 1, 0⟩ ∧
      Request.ofArguments askLittle = .ok ⟨"hello", some 0, false, false, some 2, 2⟩ ∧
      (run askMost fun _ => .ok Archive.helloBytes).exitCode = 0 ∧
      (run askLittle fun _ => .ok Archive.helloBytes).exitCode = 0 ∧
      ∃ regions symbols : String,
        (run askMost fun _ => .ok Archive.helloBytes).stdout =
          (run askLittle fun _ => .ok Archive.helloBytes).stdout ++ regions ++ symbols := by
  have hmost : Request.ofArguments askMost =
      .ok ⟨"hello", some 0, true, true, some 1, 0⟩ := by decide
  have hlittle : Request.ofArguments askLittle =
      .ok ⟨"hello", some 0, false, false, some 2, 2⟩ := by decide
  obtain ⟨hsections, hpairs, -⟩ := sections_appended fun _ => .ok Archive.helloBytes
  have hheld : 1032 ≤ Archive.helloBytes.size ∧
      numberAt Archive.helloBytes 0 4 = (0 : UInt32).toNat ∧
      (numberAt Archive.helloBytes 20 4 = 0 ∨
        numberAt Archive.helloBytes 16 4 + numberAt Archive.helloBytes 20 4 ≤
          Archive.helloBytes.size) := by
    decide +kernel
  have hexit : (run askMost fun _ => .ok Archive.helloBytes).exitCode = 0 := by
    rw [run_of_accepted hmost]
    exact (Request.run_sections (Request.exists_pattern hmost) hheld).1
  have hexit' := (hpairs _ _ _ _ hmost hlittle rfl rfl).1.symm.trans hexit
  obtain ⟨source, symbols, hsource, -, hout, -⟩ := hsections _ _ hmost hexit
  obtain ⟨source', symbols', hsource', -, hout', hnone, -⟩ := hsections _ _ hlittle hexit'
  cases hsource
  cases hsource'
  refine ⟨hmost, hlittle, hexit, hexit', regionsText Archive.helloBytes, symbols, ?_⟩
  rw [hout, hout', hnone rfl]
  simp

end SharedArchive.Command
