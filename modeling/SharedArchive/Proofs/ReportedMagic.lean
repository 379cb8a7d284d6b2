import Mathlib
import SharedArchive.Proofs.GivenMagic
import SharedArchive.Proofs.Transcripts

/-!
The magic that is reported is the magic that is accepted. A run reports a mismatch exactly if the
file is long enough to have a magic and has another one than is expected, and it then shows the
file's. So of all numbers just one is not answered by a mismatch when it is given as the magic, and
that is the number which every mismatch shows.
-/

namespace SharedArchive.Command

section Texts

variable {x y : String}

theorem append_ne (a b : String) (hlength : a.toList.length = b.toList.length) (hne : a ≠ b)
    (x y : String) : a ++ x ≠ b ++ y := by
  intro h
  have hlists := congrArg String.toList h
  rw [String.toList_append, String.toList_append] at hlists
  exact hne (String.toList_inj.1 (List.append_inj_left hlists hlength))

theorem mismatchText_ne_tooShort (x : String) : mismatchText x ≠ tooShortText := by
  have hsplit : mismatchText x =
      "Invalid AOTCache file: m" ++ ("agic number mismatch (actual: " ++ x ++ ")\n") := by
    rw [← String.append_assoc, ← String.append_assoc]
    rfl
  rw [hsplit]
  exact append_ne _ "Invalid AOTCache file: f" (by decide) (by decide) _ "ile too short\n"

theorem mismatchText_ne_valid (x rest : String) :
    mismatchText x ≠ "Valid AOTCache file\n" ++ rest := by
  have hsplit : mismatchText x =
      "Inva" ++ ("lid AOTCache file: magic number mismatch (actual: " ++ x ++ ")\n") := by
    rw [← String.append_assoc, ← String.append_assoc]
    rfl
  have hvalid : "Valid AOTCache file\n" ++ rest = "Vali" ++ ("d AOTCache file\n" ++ rest) := by
    rw [← String.append_assoc]
    rfl
  rw [hsplit, hvalid]
  exact append_ne _ _ (by decide) (by decide) _ _

theorem append_inj_middle (a b : String) (h : a ++ x ++ b = a ++ y ++ b) : x = y := by
  have hlists := congrArg String.toList h
  simp only [String.toList_append] at hlists
  exact String.toList_inj.1 (List.append_cancel_left (List.append_cancel_right hlists))

theorem mismatchText_inj (h : mismatchText x = mismatchText y) : x = y :=
  append_inj_middle _ _ h

end Texts

section Files

variable {r : Request} {source : ByteArray}

theorem run_expected (hpattern : r.symbols = true → ∃ pattern, r.pattern = some pattern)
    (hm : 4 ≤ source.size → numberAt source 0 4 = r.expectedMagic.toNat) :
    ((r.run (.ok source)).exitCode = 0 ∨ (r.run (.ok source)).stdout = tooShortText) ∧
      ∀ x, (r.run (.ok source)).stdout ≠ mismatchText x := by
  by_cases hadmits : r.Admits source
  · obtain ⟨a, name, payloads, found, -, -, -, -, hexit, hout⟩ :=
      Request.run_admitted hpattern hadmits
    obtain ⟨rest, hrest⟩ := report_begins r a name payloads found
    refine ⟨Or.inl hexit, fun x => ?_⟩
    rw [hout, hrest]
    exact (mismatchText_ne_valid x rest).symm
  · obtain ⟨-, hout⟩ := Request.run_tooShort hadmits hm
    refine ⟨Or.inr hout, fun x => ?_⟩
    rw [hout]
    exact (mismatchText_ne_tooShort x).symm

theorem run_mismatch_iff (hpattern : r.symbols = true → ∃ pattern, r.pattern = some pattern)
    {x : String} :
    (r.run (.ok source)).stdout = mismatchText x ↔
      (4 ≤ source.size ∧ numberAt source 0 4 ≠ r.expectedMagic.toNat) ∧
        Text.Hex.Shows 8 x (numberAt source 0 4) := by
  by_cases hm : 4 ≤ source.size ∧ numberAt source 0 4 ≠ r.expectedMagic.toNat
  · obtain ⟨-, y, hy, hout⟩ := Request.run_mismatch hm.1 hm.2
    rw [hout]
    constructor
    · intro h
      rw [← mismatchText_inj h]
      exact ⟨hm, hy⟩
    · rintro ⟨-, hx⟩
      rw [hx.unique hy]
  · have hexpected : 4 ≤ source.size → numberAt source 0 4 = r.expectedMagic.toNat := by
      intro h4
      by_contra hother
      exact hm ⟨h4, hother⟩
    exact iff_of_false ((run_expected hpattern hexpected).2 x) fun h => hm h.1

end Files

section Lines

variable {arguments line' : List String} {r : Request}
  {contents : String → Except FileFault ByteArray} {source : ByteArray}

theorem run_givesMagic (h : Request.ofArguments arguments = .ok r)
    (hsource : contents r.file = .ok source) {value : String} {n : Nat} (hn : n < UInt32.size)
    (hvalue : Text.Hex.Denotes value n) (hline : GivesMagic r value arguments line') :
    ∃ r', Request.ofArguments line' = .ok r' ∧ r' = { r with magic := some (UInt32.ofNat n) } ∧
      r'.expectedMagic.toNat = n ∧ run line' contents = r'.run (.ok source) := by
  have hread : Text.Hex.read UInt32.size value = .ok n :=
    (Text.Hex.read_ok_iff (by decide)).2 ⟨hn, hvalue⟩
  have haccepted := (ofArguments_givesMagic h hline).2 ⟨n, hread, rfl⟩
  refine ⟨_, haccepted, rfl, UInt32.toNat_ofNat_of_lt' hn, ?_⟩
  rw [run_of_accepted haccepted contents, hsource]

theorem lt_of_accepted (h : Request.ofArguments arguments = .ok r) {value : String} {n : Nat}
    (hvalue : Text.Hex.Denotes value n) (hline : GivesMagic r value arguments line')
    {r' : Request} (hr' : Request.ofArguments line' = .ok r') : n < UInt32.size := by
  obtain ⟨m, hm, -⟩ := (ofArguments_givesMagic h hline).1 hr'
  obtain ⟨hlt, hdenotes⟩ := (Text.Hex.read_ok_iff (by decide)).1 hm
  rw [hvalue.unique hdenotes]
  exact hlt

/-- Given as the magic, the number that a run reports is never answered by a mismatch; and there is
just one number that is not, so that every other is answered by a mismatch that shows this one. -/
theorem reported_magic_accepted (h : Request.ofArguments arguments = .ok r)
    (hsource : contents r.file = .ok source) :
    (∀ value, ∃ line', GivesMagic r value arguments line') ∧
    (∀ x, (run arguments contents).stdout = mismatchText x →
      ∀ value line', Text.Hex.Respells value x → GivesMagic r value arguments line' →
        (∃ r', Request.ofArguments line' = .ok r') ∧
        ((run line' contents).exitCode = 0 ∨ (run line' contents).stdout = tooShortText) ∧
        ∀ y, (run line' contents).stdout ≠ mismatchText y) ∧
    (4 ≤ source.size →
      (∃! n, ∀ value line', Text.Hex.Denotes value n → GivesMagic r value arguments line' →
        (∃ r', Request.ofArguments line' = .ok r') ∧
          ∀ y, (run line' contents).stdout ≠ mismatchText y) ∧
      ∃ n x, Text.Hex.Shows 8 x n ∧
        (∀ value line', Text.Hex.Denotes value n → GivesMagic r value arguments line' →
          ∀ y, (run line' contents).stdout ≠ mismatchText y) ∧
        (∀ m, m ≠ n → ∀ value line', Text.Hex.Denotes value m →
          GivesMagic r value arguments line' → (∃ r', Request.ofArguments line' = .ok r') →
            (run line' contents).stdout = mismatchText x) ∧
        (r.magic = none → Header.defaultMagic.toNat ≠ n →
          (run arguments contents).stdout = mismatchText x) ∧
        ∀ y, (run arguments contents).stdout = mismatchText y → y = x) := by
  have hpattern := Request.exists_pattern h
  have hown : run arguments contents = r.run (.ok source) := by
    rw [run_of_accepted h contents, hsource]
  have hlt : numberAt source 0 4 < UInt32.size := numberAt_lt source 0 4
  -- the number that the file begins with is the one that is not answered by a mismatch
  have hright (value : String) (line' : List String)
      (hvalue : Text.Hex.Denotes value (numberAt source 0 4))
      (hline : GivesMagic r value arguments line') :
      (∃ r', Request.ofArguments line' = .ok r') ∧
        ((run line' contents).exitCode = 0 ∨ (run line' contents).stdout = tooShortText) ∧
        ∀ y, (run line' contents).stdout ≠ mismatchText y := by
    obtain ⟨r', hr', hsame, hmagic, hrun⟩ := run_givesMagic h hsource hlt hvalue hline
    rw [hrun]
    refine ⟨⟨r', hr'⟩, run_expected ?_ fun _ => hmagic.symm⟩
    rw [hsame]
    exact hpattern
  refine ⟨exists_givesMagic h, ?_, fun h4 => ?_⟩
  · intro x hx value line' hvalue hline
    rw [hown, run_mismatch_iff hpattern] at hx
    exact hright value line' (hvalue.denotes hx.2 (by decide)) hline
  · have hshows : Text.Hex.Shows 8 _ (numberAt source 0 4) :=
      Text.Hex.padded_shows (by decide) hlt
    have hwrong {m : Nat} (hne : m ≠ numberAt source 0 4) {value : String} {line' : List String}
        (hvalue : Text.Hex.Denotes value m) (hline : GivesMagic r value arguments line')
        (haccepted : ∃ r', Request.ofArguments line' = .ok r') :
        (run line' contents).stdout = mismatchText (Text.Hex.padded 8 (numberAt source 0 4)) := by
      have hm : m < UInt32.size := lt_of_accepted h hvalue hline haccepted.choose_spec
      obtain ⟨r', -, hsame, hmagic, hrun⟩ := run_givesMagic h hsource hm hvalue hline
      rw [hrun, run_mismatch_iff (by rw [hsame]; exact hpattern), hmagic]
      exact ⟨⟨h4, hne.symm⟩, hshows⟩
    refine ⟨⟨numberAt source 0 4, fun value line' hvalue hline => ?_, ?_⟩, _, _, hshows,
      fun value line' hvalue hline => (hright value line' hvalue hline).2.2,
      fun m hne value line' => hwrong hne, ?_, ?_⟩
    · obtain ⟨haccepted, -, hnever⟩ := hright value line' hvalue hline
      exact ⟨haccepted, hnever⟩
    · intro m hm
      by_contra hne
      obtain ⟨value, hvalue⟩ := Text.Hex.exists_denotes m
      obtain ⟨line', hline⟩ := exists_givesMagic h value
      obtain ⟨haccepted, hnever⟩ := hm value line' hvalue hline
      exact hnever _ (hwrong hne hvalue hline haccepted)
    · intro hnone hdefault
      rw [hown, run_mismatch_iff hpattern, Request.expectedMagic, hnone]
      exact ⟨⟨h4, hdefault.symm⟩, hshows⟩
    · intro y hy
      rw [hown, run_mismatch_iff hpattern] at hy
      exact hy.2.unique hshows

def fourBytes : ByteArray := ⟨#[0xf0, 0x0b, 0xab, 0xa2]⟩

theorem fourBytes_reported_accepted :
    Request.ofArguments ["--magic", "1", "x"] = .ok ⟨"x", some 1, false, false, none, 0⟩ ∧
      (run ["--magic", "1", "x"] fun _ => .ok fourBytes).stdout = mismatchText "a2ab0bf0" ∧
      Text.Hex.Respells "0X00A2aB0bF0" "a2ab0bf0" ∧
      ∀ y, (run ["--magic", "0X00A2aB0bF0", "x"] fun _ => .ok fourBytes).stdout ≠
        mismatchText y := by
  have haccepted : Request.ofArguments ["--magic", "1", "x"] =
      .ok ⟨"x", some 1, false, false, none, 0⟩ := by decide
  have hreported : (run ["--magic", "1", "x"] fun _ => .ok fourBytes).stdout =
      mismatchText "a2ab0bf0" := by decide +kernel
  have hrespells : Text.Hex.Respells "0X00A2aB0bF0" "a2ab0bf0" :=
    ⟨['0', 'X'], 2, "A2aB0bF0".toList, by decide, by decide, by decide⟩
  obtain ⟨-, hspelled, -⟩ :=
    @reported_magic_accepted _ _ (fun _ => .ok fourBytes) fourBytes haccepted rfl
  obtain ⟨-, -, hnever⟩ := hspelled _ hreported _ _ hrespells (.separate "1" ["x"])
  exact ⟨haccepted, hreported, hrespells, hnever⟩

end Lines

end SharedArchive.Command
