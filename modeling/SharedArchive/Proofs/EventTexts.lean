import Mathlib
import SharedArchive.Proofs.EventLevels
import SharedArchive.Proofs.QuotedText
import SharedArchive.Proofs.TextCuts

/-!
The texts of events. Besides fixed words and numbers an event's text holds only quoted text, so
nothing that stands in a file can end the line of an event or begin another one; and what was quoted
can be read off the event's text again.
-/

namespace SharedArchive

namespace Text

@[simp] theorem isPlain_toString (text : String) : IsPlain (toString text) ↔ IsPlain text := Iff.rfl

@[simp] theorem isPlain_natRepr (n : Nat) : IsPlain n.repr := by
  intro c hc
  rw [Nat.repr, String.toList_ofList] at hc
  have hdigit := Nat.isDigit_of_mem_toDigits (by decide) (by decide) hc
  simp only [Char.isDigit, Bool.and_eq_true, decide_eq_true_eq, ge_iff_le,
    UInt32.le_iff_toNat_le] at hdigit
  change 48 ≤ c.toNat ∧ c.toNat ≤ 57 at hdigit
  exact isGraphic_of_ascii ⟨by omega, by omega⟩

@[simp] theorem isPlain_toString_uint32 (n : UInt32) : IsPlain (toString n) :=
  isPlain_natRepr n.toNat

@[simp] theorem isPlain_toString_uint64 (n : UInt64) : IsPlain (toString n) :=
  isPlain_natRepr n.toNat

@[simp] theorem isPlain_intRepr (n : Int) : IsPlain n.repr := by
  cases n with
  | ofNat n => exact isPlain_natRepr n
  | negSucc n =>
    exact isPlain_append.2 ⟨isPlain_of_isPrintable (by decide), isPlain_natRepr (n + 1)⟩

theorem isPlain_toString_bool (b : Bool) : IsPlain (toString b) := by
  cases b
  · exact isPlain_of_isPrintable (by decide)
  · exact isPlain_of_isPrintable (by decide)

@[simp] theorem isPlain_plain (n : Nat) : IsPlain (Hex.plain n) := by
  intro c hc
  rw [Hex.plain, String.toList_ofList] at hc
  exact isGraphic_of_mem_digits hc

@[simp] theorem isPlain_marked (n : Nat) : IsPlain (Hex.marked n) :=
  isPlain_append.2 ⟨isPlain_of_isPrintable (by decide), isPlain_plain n⟩

@[simp] theorem isPlain_padded (width n : Nat) : IsPlain (Hex.padded width n) := by
  intro c hc
  rw [Hex.padded, String.toList_ofList, List.mem_append] at hc
  rcases hc with hzero | hdigit
  · rw [List.eq_of_mem_replicate hzero]
    exact isGraphic_of_ascii (by decide)
  · exact isGraphic_of_mem_digits hdigit

theorem isPlain_intercalate {separator : String} (hs : IsPlain separator) {parts : List String}
    (h : ∀ t ∈ parts, IsPlain t) : IsPlain (separator.intercalate parts) := by
  induction parts with
  | nil =>
    rw [String.intercalate_nil]
    exact isPlain_of_isPrintable (by decide)
  | cons first parts ih =>
    have hfirst := h first List.mem_cons_self
    have hrest := ih fun t ht => h t (List.mem_cons_of_mem first ht)
    cases parts with
    | nil =>
      rw [String.intercalate_singleton]
      exact hfirst
    | cons second parts =>
      rw [String.intercalate_cons_cons, isPlain_append, isPlain_append]
      exact ⟨⟨hfirst, hs⟩, hrest⟩

namespace Description

mutual

def HasPlainNames : Description → Prop
  | number _ _ | flag _ => True
  | record name fields => IsPlain name ∧ FieldsHavePlainNames fields
  | choice name held => IsPlain name ∧ held.HasPlainNames

def FieldsHavePlainNames : List (String × Description) → Prop
  | [] => True
  | (label, d) :: rest => IsPlain label ∧ d.HasPlainNames ∧ FieldsHavePlainNames rest

end

mutual

theorem HasPlainNames.isPlain_render : {d : Description} → d.HasPlainNames → IsPlain d.render
  | number bits value, _ => isPlain_intRepr value
  | flag value, _ => isPlain_toString_bool value
  | record name fields, h => by
    have hbraces : IsPlain " \x7b " ∧ IsPlain " \x7d" ∧ IsPlain ", " :=
      ⟨isPlain_of_isPrintable (by decide), isPlain_of_isPrintable (by decide),
        isPlain_of_isPrintable (by decide)⟩
    rw [HasPlainNames] at h
    have hfields := isPlain_intercalate hbraces.2.2 (FieldsHavePlainNames.isPlain_renderFields h.2)
    rw [render]
    simp only [isPlain_append]
    exact ⟨⟨⟨h.1, hbraces.1⟩, hfields⟩, hbraces.2.1⟩
  | choice name held, h => by
    have hparentheses : IsPlain "(" ∧ IsPlain ")" :=
      ⟨isPlain_of_isPrintable (by decide), isPlain_of_isPrintable (by decide)⟩
    rw [HasPlainNames] at h
    rw [render]
    simp only [isPlain_append]
    exact ⟨⟨⟨h.1, hparentheses.1⟩, h.2.isPlain_render⟩, hparentheses.2⟩

theorem FieldsHavePlainNames.isPlain_renderFields :
    {fields : List (String × Description)} → FieldsHavePlainNames fields →
      ∀ t ∈ renderFields fields, IsPlain t
  | [], _ => by simp [renderFields]
  | (label, d) :: rest, h => by
    have hcolon : IsPlain ": " := isPlain_of_isPrintable (by decide)
    rw [FieldsHavePlainNames] at h
    intro t ht
    rw [renderFields, List.mem_cons] at ht
    rcases ht with hfirst | hrest
    · rw [hfirst, isPlain_append, isPlain_append]
      exact ⟨⟨h.1, hcolon⟩, h.2.1.isPlain_render⟩
    · exact FieldsHavePlainNames.isPlain_renderFields h.2.2 t hrest

end

end Description

end Text

open Text Text.Description

theorem GenericHeader.describe_hasPlainNames (h : GenericHeader) : h.describe.HasPlainNames := by
  simp (disch := decide) [describe, HasPlainNames, FieldsHavePlainNames,
    isPlain_of_isPrintable, ofUInt32, ofInt32]

theorem Region.describe_hasPlainNames (r : Region) : r.describe.HasPlainNames := by
  simp (disch := decide) [describe, HasPlainNames, FieldsHavePlainNames,
    isPlain_of_isPrintable, ofUInt32, ofUInt64]

theorem HeapHeaders.describe_hasPlainNames (h : HeapHeaders) : h.describe.HasPlainNames := by
  simp (disch := decide) [describe, MappedHeapHeader.describe, StreamedHeapHeader.describe,
    HeapRootSegments.describe, HasPlainNames, FieldsHavePlainNames, isPlain_of_isPrintable, ofInt32,
    ofUInt64]

theorem ProfileSettings.describe_hasPlainNames (p : ProfileSettings) :
    p.describe.HasPlainNames := by
  simp (disch := decide) [describe, HasPlainNames, FieldsHavePlainNames,
    isPlain_of_isPrintable, ofUInt8, ofInt32, ofInt64]

@[simp] theorem RegionKind.shortName_isPlain (k : RegionKind) : IsPlain k.shortName := by
  cases k <;> exact isPlain_of_isPrintable (by decide)

@[simp] theorem Truncated.message_isPlain (t : Truncated) : IsPlain t.message := by
  delta message
  simp (disch := decide) [isPlain_of_isPrintable]

namespace Event

theorem text_isPlain {e : Event} (h : e.level ≠ .info) : IsPlain e.text := by
  cases e with
  | fileMapped path size => exact absurd rfl h
  | genericHeader g =>
    dsimp only [text]
    simp (disch := decide) [isPlain_of_isPrintable, g.describe_hasPlainNames.isPlain_render]
  | region k r =>
    dsimp only [text]
    simp (disch := decide) [isPlain_of_isPrintable, r.describe_hasPlainNames.isPlain_render]
  | heapHeaders hs =>
    dsimp only [text]
    simp (disch := decide) [isPlain_of_isPrintable, hs.describe_hasPlainNames.isPlain_render]
  | profile p =>
    dsimp only [text]
    simp (disch := decide) [isPlain_of_isPrintable, p.describe_hasPlainNames.isPlain_render]
  | cutShort cause => exact cause.message_isPlain
  | _ =>
    dsimp only [text]
    simp (disch := decide) [isPlain_of_isPrintable, isPlain_quote]

theorem IsReport.text_safe {e : Event} (h : e.IsReport) : ∀ c ∈ e.text.toList, ¬ IsControl c :=
  fun c hc => not_isControl_of_isGraphic (text_isPlain h.level_ne_info c hc)

theorem quotedIn?_identity (name : String) : quotedIn? (identity name).text = some name := by
  have htext : (identity name).text = "parsed jvm ident " ++ (quote name ++ "") := by
    rw [String.append_empty]
    rfl
  rw [htext]
  exact quotedIn?_append (by decide) name ""

theorem quotedIn?_symbolFound (name : String) (offset : Nat) (pointer : UInt64) :
    quotedIn? (symbolFound name offset pointer).text = some name := by
  have htext : (symbolFound name offset pointer).text = "symbol " ++ (quote name ++
      (" at rw+" ++ Hex.marked offset ++ " via " ++ Hex.marked pointer.toNat)) := by
    dsimp only [text]
    simp only [String.append_assoc]
    rfl
  rw [htext]
  exact quotedIn?_append (by decide) name _

end Event

namespace Header

variable {expected : UInt32} {source : ByteArray} {p : Nat}

theorem identity_of_mem_read {text : String}
    (h : .identity text ∈ (read expected source p).events) :
    text = (decode source 0).config.trimmedIdentity := by
  rw [read_events_eq] at h
  split_ifs at h
  · exact absurd h List.not_mem_nil
  · rw [List.mem_cons, List.mem_append, List.mem_map] at h
    obtain hgeneric | hsize | ⟨part, -, hpart⟩ := h
    · cases hgeneric
    · rw [oversized] at hsize
      split_ifs at hsize
      · cases List.mem_singleton.1 hsize
      · exact absurd hsize List.not_mem_nil
    · cases part with
      | identity => exact (Event.identity.inj hpart).symm
      | _ => cases hpart

theorem identity_mem_read (hs : 1032 ≤ source.size) (hm : magicOf source = expected) :
    .identity (decode source 0).config.trimmedIdentity ∈ (read expected source p).events := by
  have hread : ¬ (source.size < 24 ∨ magicOf source ≠ expected) := by
    rw [not_or, not_not]
    exact ⟨by omega, hm⟩
  have hidentity : Part.identity.stop ≤ source.size := by
    change 840 ≤ source.size
    omega
  rw [read_events_eq, if_neg hread]
  have hlater : Part.identity ∈ Part.later := by simp [Part.later]
  refine List.mem_cons_of_mem _ (List.mem_append_right _ (List.mem_map.2 ⟨.identity, ?_, rfl⟩))
  exact List.mem_filter.2 ⟨hlater, decide_eq_true hidentity⟩

end Header

namespace Archive

theorem symbols_found (a : Archive) (pattern : UInt64) :
    (a.symbols pattern).events.filter Event.isFound =
      (a.scan pattern).remaining.map fun m => .symbolFound m.name m.regionOffset m.pointer := by
  have hloading : (Payload.loaded.flatMap (Payload.spanEvents a.regions a.source.size)).filter
      Event.isFound = [] := by
    rw [← List.length_eq_zero_iff, ← List.countP_eq_length_filter]
    exact spanEvents_countP_found a.regions a.source.size
  rw [symbols_events, List.filter_append, List.filter_append, hloading, Scan.told_found]
  exact List.append_nil _

/-- No event of an archive shows a control character, whatever stands in the file. The identity and
the names of the symbols can be read off the events that show them, so that two texts are never
shown alike; and each reading that succeeds shows the one, and each match the other. -/
theorem events_unforged :
    (∀ (expected : UInt32) (source : ByteArray) (p : Nat),
      (∀ e ∈ (Header.read expected source p).events, ∀ c ∈ e.text.toList, ¬ IsControl c) ∧
      (∀ text, .identity text ∈ (Header.read expected source p).events →
        text = (Header.decode source 0).config.trimmedIdentity ∧
        quotedIn? (Event.identity text).text = some text) ∧
      ∀ h, (Header.read expected source p).result = .ok h →
        .identity h.config.trimmedIdentity ∈ (Header.read expected source p).events) ∧
    (∀ (a : Archive) (pattern : UInt64),
      (∀ e ∈ a.payloads.events ++ a.baseName.events ++ (a.symbols pattern).events,
        ∀ c ∈ e.text.toList, ¬ IsControl c) ∧
      ∃ ms, (a.symbols pattern).result = .ok ms ∧
        (a.symbols pattern).events.filter Event.isFound =
          ms.map (fun m => .symbolFound m.name m.regionOffset m.pointer) ∧
        ∀ m ∈ ms,
          quotedIn? (Event.symbolFound m.name m.regionOffset m.pointer).text = some m.name) ∧
    (∀ text text' : String, (Event.identity text).text = (Event.identity text').text →
      text = text') ∧
    ∀ (name name' : String) (offset offset' : Nat) (pointer pointer' : UInt64),
      (Event.symbolFound name offset pointer).text =
        (Event.symbolFound name' offset' pointer').text → name = name' := by
  refine ⟨?_, ?_, ?_, ?_⟩
  · intro expected source p
    refine ⟨fun e he => (Header.isReport_of_mem_read he).text_safe, ?_, ?_⟩
    · intro text htext
      exact ⟨Header.identity_of_mem_read htext, Event.quotedIn?_identity text⟩
    · intro h hread
      obtain ⟨hs, hm, rfl⟩ := Header.read_ok_iff.1 hread
      exact Header.identity_mem_read hs hm
  · intro a pattern
    refine ⟨?_, _, symbols_result a pattern, a.symbols_found pattern,
      fun m _ => Event.quotedIn?_symbolFound m.name m.regionOffset m.pointer⟩
    intro e he
    rw [baseName_events, List.append_nil, List.mem_append] at he
    rcases he with hpayloads | hsymbols
    · exact (isReport_of_mem_payloads hpayloads).text_safe
    · exact (isReport_of_mem_symbols hsymbols).text_safe
  · intro text text' htext
    have hread := Event.quotedIn?_identity text
    rw [htext, Event.quotedIn?_identity] at hread
    exact (Option.some.inj hread).symm
  · intro name name' offset offset' pointer pointer' htext
    have hread := Event.quotedIn?_symbolFound name offset pointer
    rw [htext, Event.quotedIn?_symbolFound] at hread
    exact (Option.some.inj hread).symm

def forgedIdentity : ByteArray :=
  ⟨("\n WARN \x1b\x22".toUTF8.data.toList ++ List.replicate 247 0).toArray⟩

def forgingBytes : ByteArray := Configuration.zeros 584 ++ forgedIdentity ++ Configuration.zeros 192

theorem forgedIdentity_trimmed :
    (Header.decode forgingBytes 0).config.trimmedIdentity = "\n WARN \x1b\x22" := by
  have hsize : forgedIdentity.size = 256 := by decide +kernel
  have hraw : Configuration.rawIdentity forgingBytes 504 = forgedIdentity := by
    have hmiddle :=
      extract_middle (Configuration.zeros 584) forgedIdentity (Configuration.zeros 192)
    rw [Configuration.zeros_size, hsize] at hmiddle
    rw [Configuration.rawIdentity_eq_extract]
    exact hmiddle
  have htrimmed (source : ByteArray) : (Header.decode source 0).config.trimmedIdentity =
      trimNuls (lossy (Configuration.rawIdentity source 504)) := rfl
  rw [htrimmed, hraw, trimNuls_lossy]
  decide +kernel

theorem forging_quoted :
    ∃ h, (Header.read 0 forgingBytes 0).result = .ok h ∧
      .identity "\n WARN \x1b\x22" ∈ (Header.read 0 forgingBytes 0).events ∧
      quotedIn? (Event.identity "\n WARN \x1b\x22").text = some "\n WARN \x1b\x22" ∧
      ∀ c ∈ (Event.identity "\n WARN \x1b\x22").text.toList, ¬ IsControl c := by
  have hread : (Header.read 0 forgingBytes 0).result = .ok (Header.decode forgingBytes 0) :=
    Header.read_ok_iff.2 ⟨by decide +kernel, by decide +kernel, rfl⟩
  obtain ⟨hreadings, -⟩ := events_unforged
  obtain ⟨hsafe, hshown, hleft⟩ := hreadings 0 forgingBytes 0
  have hmem := hleft _ hread
  rw [forgedIdentity_trimmed] at hmem
  exact ⟨_, hread, hmem, (hshown _ hmem).2, hsafe _ hmem⟩

end Archive

end SharedArchive
