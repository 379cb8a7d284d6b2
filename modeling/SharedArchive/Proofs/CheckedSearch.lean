import Mathlib
import SharedArchive.Proofs.CheckedReading
import SharedArchive.Proofs.Search

/-!
The search for symbols with every step checked, and all that an archive is asked. In every state
that a search reaches, the next offset is at most what the region uses, and that is at most the
payload; so no offset that the search forms is too large, and the checked search is the plain one.
-/

namespace SharedArchive

namespace Checked

open Scan (wordSize)

def wordAt? (bytes : ByteArray) (offset : Nat) : Option UInt64 := do
  let stop ← sum? offset wordSize
  let raw ← slice? bytes offset stop
  return Field.u64.decode raw

def follow (s : Scan) (offset : Nat) (pointer : UInt64) : Option Scan.Look :=
  match s.translator.resolve? s.target pointer with
  | none => some ⟨.outside pointer, s.cursor⟩
  | some target =>
    let x := symbol target s.cursor.source s.cursor.position
    let after := s.cursor.seek x.position
    match x.result with
    | .error .broken => none
    | .error (.failure cause) => some ⟨.unreadable target cause, after⟩
    | .ok symbol =>
      some ⟨.found ⟨offset, s.fileOffset + UInt64.ofNat offset, pointer, symbol⟩, after⟩

def look (s : Scan) (offset : Nat) : Option Scan.Look :=
  if wordAt? s.payload offset ≠ some s.pattern then some ⟨.otherWord, s.cursor⟩
  else do
    let bookkeeping ← sum? offset wordSize
    let place ← sum? bookkeeping 16
    match wordAt? s.payload place with
    | none => return ⟨.cutOff, s.cursor⟩
    | some pointer => follow s offset pointer

theorem eq_of_sum? {m n k : Nat} (h : sum? m n = some k) : k = m + n := by
  rw [sum?, word?] at h
  split_ifs at h
  exact (Option.some.inj h).symm

def advance (s : Scan) (events : Array Event := #[]) : Option Scan.Found :=
  match _ : sum? s.next wordSize with
  | none => none
  | some stop =>
    if stop ≤ s.used then
      match look s s.next with
      | none => none
      | some l =>
        let after := { s with cursor := l.cursor, next := stop }
        let events := events ++ (l.sighting.event? s.next).toArray
        match l.sighting.match? with
        | some m => some ⟨some m, after, events⟩
        | none => advance after events
    else some ⟨none, s, events⟩
termination_by s.used - s.next
decreasing_by
  have hstop := eq_of_sum? ‹_›
  simp only [wordSize] at *
  omega

theorem advance_next {s : Scan} {events : Array Event} {x : Scan.Found} {m : SymbolMatch}
    (hx : advance s events = some x) (hm : x.match? = some m) :
    s.next < x.after.next ∧ x.after.next ≤ s.used ∧ x.after.used = s.used := by
  fun_induction advance s events with
  | case1 => cases hx
  | case2 => cases hx
  | case3 s events stop hsum hle l hl after events' m' hm' =>
    have hlt : s.next < stop := by
      rw [eq_of_sum? hsum]
      exact Nat.lt_add_of_pos_right (by decide)
    cases hx
    exact ⟨hlt, hle, rfl⟩
  | case4 s events stop hsum hle l hl after events' hm' ih =>
    have hlt : s.next < stop := by
      rw [eq_of_sum? hsum]
      exact Nat.lt_add_of_pos_right (by decide)
    obtain ⟨hnext, hin, hused⟩ := ih hx
    exact ⟨hlt.trans hnext, hin, hused⟩
  | case5 =>
    cases hx
    cases hm

def collect (s : Scan) (found : Array SymbolMatch := #[]) (events : Array Event := #[]) :
    Option (Array SymbolMatch × Array Event) :=
  match _ : advance s events with
  | none => none
  | some x =>
    match _ : x.match? with
    | none => some (found, x.events)
    | some m => collect x.after (found.push m) x.events
termination_by s.used - s.next
decreasing_by
  have hnext := advance_next ‹_› ‹_›
  omega

def start (pattern : UInt64) (source : ByteArray) (rw : Payload) (ro : Region)
    (translator : Translator) : Option Scan := do
  let used ← usedBytes rw
  return {
    pattern
    payload := rw.bytes
    used := used.size
    fileOffset := rw.region.fileOffset
    target := ro
    translator
    cursor := { source } }

def run {ε : Type} (s : Scan) : Reader (Stop ε) (List SymbolMatch) := do
  let (found, events) ← check (collect s)
  Reader.emitAll events.toList
  return found.toList

structure Sound (s : Scan) : Prop where
  payload : s.payload.size < 2 ^ 63
  used : s.used ≤ s.payload.size
  next : s.next ≤ s.used
  source : s.cursor.source.size < 2 ^ 63
  position : s.cursor.position < UInt64.size

section Search

variable {s : Scan}

theorem sum?_eq {m n : Nat} (h : m + n < 2 ^ 64) : sum? m n = some (m + n) := if_pos h

theorem wordAt?_eq {bytes : ByteArray} (h : bytes.size < 2 ^ 63) (offset : Nat) :
    wordAt? bytes offset = Scan.wordAt? bytes offset := by
  by_cases hfits : offset + wordSize ≤ bytes.size
  · have hslice : slice? bytes offset (offset + wordSize) =
        some (bytes.extract offset (offset + wordSize)) := if_pos ⟨Nat.le_add_right _ _, hfits⟩
    rw [wordAt?, sum?_eq (by omega), Scan.wordAt?, if_pos hfits, Option.bind_eq_bind,
      Option.bind_some, hslice]
    rfl
  · rw [wordAt?, Scan.wordAt?, if_neg hfits]
    cases hsum : sum? offset wordSize with
    | none => rfl
    | some stop =>
      have hslice : slice? bytes offset stop = none := by
        refine if_neg fun hin => hfits ?_
        rw [← eq_of_sum? hsum]
        exact hin.2
      rw [Option.bind_eq_bind, Option.bind_some, hslice]
      rfl

theorem follow_eq (hs : Sound s) (offset : Nat) (pointer : UInt64) :
    follow s offset pointer = some (match s.translator.resolve? s.target pointer with
      | none => ⟨.outside pointer, s.cursor⟩
      | some target =>
        let x := Symbol.read target s.cursor.source s.cursor.position
        let after := s.cursor.seek x.position
        match x.result with
        | .error cause => ⟨.unreadable target cause, after⟩
        | .ok symbol =>
          ⟨.found ⟨offset, s.fileOffset + UInt64.ofNat offset, pointer, symbol⟩, after⟩) := by
  rw [follow]
  cases s.translator.resolve? s.target pointer with
  | none => rfl
  | some target =>
    have hsame := (symbol_agrees hs.source hs.position target).same
    simp only [hsame, Reader.mapError]
    cases (Symbol.read target s.cursor.source s.cursor.position).result <;> rfl

theorem look_eq (hs : Sound s) {offset : Nat} (h : offset + wordSize ≤ s.used) :
    look s offset = some (s.look offset) := by
  have hused := hs.used
  have hpayload := hs.payload
  simp only [wordSize] at h
  have hplace : sum? (offset + wordSize) 16 = some (offset + Scan.pointerDistance) :=
    sum?_eq (by simp only [wordSize]; omega)
  rw [look, Scan.look, wordAt?_eq hpayload, sum?_eq (by simp only [wordSize]; omega)]
  split_ifs
  · rfl
  · rw [Option.bind_eq_bind, Option.bind_some, hplace, Option.bind_some]
    dsimp only
    rw [wordAt?_eq hpayload]
    cases Scan.wordAt? s.payload (offset + Scan.pointerDistance) with
    | none => rfl
    | some pointer => exact follow_eq hs offset pointer

theorem sound_past (hs : Sound s) (h : s.next + wordSize ≤ s.used) :
    Sound (s.past (s.look s.next)) := by
  rw [Scan.past_look]
  exact ⟨hs.payload, hs.used, h, hs.source, hs.position⟩

theorem advance_of_sum {stop : Nat} (h : sum? s.next wordSize = some stop)
    (events : Array Event) :
    advance s events =
      if stop ≤ s.used then do
        let l ← look s s.next
        let after := { s with cursor := l.cursor, next := stop }
        let events := events ++ (l.sighting.event? s.next).toArray
        match l.sighting.match? with
        | some m => some ⟨some m, after, events⟩
        | none => advance after events
      else some ⟨none, s, events⟩ := by
  rw [advance]
  split
  next hnone => cases h.symm.trans hnone
  next stop' hstop =>
    cases h.symm.trans hstop
    cases look s s.next <;> rfl

theorem advance_fits (hs : Sound s) (events : Array Event) (h : s.next + wordSize ≤ s.used) :
    advance s events =
      let l := s.look s.next
      let events := events ++ (l.sighting.event? s.next).toArray
      match l.sighting.match? with
      | some m => some ⟨some m, s.past l, events⟩
      | none => advance (s.past l) events := by
  have hused := hs.used
  have hpayload := hs.payload
  have hsum : sum? s.next wordSize = some (s.next + wordSize) := sum?_eq (by omega)
  rw [advance_of_sum hsum, if_pos h, look_eq hs h]
  rfl

theorem advance_ends (hs : Sound s) (events : Array Event) (h : ¬ s.next + wordSize ≤ s.used) :
    advance s events = some ⟨none, s, events⟩ := by
  have hused := hs.used
  have hpayload := hs.payload
  have hnext := hs.next
  have hsum : sum? s.next wordSize = some (s.next + wordSize) :=
    sum?_eq (by simp only [wordSize]; omega)
  rw [advance_of_sum hsum, if_neg h]

theorem advance_eq (hs : Sound s) (events : Array Event) :
    advance s events = some (s.advance events) ∧ Sound (s.advance events).after := by
  fun_induction Scan.advance s events with
  | case1 s events hfits l events' m hm =>
    refine ⟨?_, sound_past hs hfits⟩
    rw [advance_fits hs events hfits]
    dsimp only
    rw [hm]
  | case2 s events hfits l events' hm ih =>
    rw [advance_fits hs events hfits]
    dsimp only
    rw [hm]
    exact ih (sound_past hs hfits)
  | case3 s events hfits => exact ⟨advance_ends hs events hfits, hs⟩

theorem collect_of_advance {x : Scan.Found} {events : Array Event}
    (h : advance s events = some x) (found : Array SymbolMatch) :
    collect s found events =
      match x.match? with
      | none => some (found, x.events)
      | some m => collect x.after (found.push m) x.events := by
  rw [collect]
  split
  next hnone => cases h.symm.trans hnone
  next y hy =>
    cases h.symm.trans hy
    split <;> simp only [*]

theorem collect_eq (hs : Sound s) (found : Array SymbolMatch) (events : Array Event) :
    collect s found events = some (s.collect found events) := by
  fun_induction Scan.collect s found events with
  | case1 s found events x hx =>
    rw [collect_of_advance (advance_eq hs events).1]
    change (match x.match? with | none => _ | some m => _) = _
    rw [hx]
  | case2 s found events x m hx ih =>
    obtain ⟨hadvance, hsound⟩ := advance_eq hs events
    rw [collect_of_advance hadvance]
    change (match x.match? with | none => _ | some m => _) = _
    rw [hx]
    exact ih hsound

theorem start_eq (pattern : UInt64) (source : ByteArray) (rw : Payload) (ro : Region)
    (translator : Translator) :
    start pattern source rw ro translator = some (Scan.start pattern source rw ro translator) := by
  rw [start, usedBytes_eq]
  rfl

theorem sound_start (pattern : UInt64) {source : ByteArray} {rw : Payload} (ro : Region)
    (translator : Translator) (hs : source.size < 2 ^ 63) (hrw : rw.bytes.size < 2 ^ 63) :
    Sound (Scan.start pattern source rw ro translator) where
  payload := hrw
  used := rw.usedBytes_size_le
  next := Nat.zero_le _
  source := hs
  position := (by decide : 0 < UInt64.size)

theorem found_agrees {ε : Type} (hs : Sound s) {source : ByteArray} {p : Nat}
    (hp : p < UInt64.size) :
    Agrees source p (run s : Reader (Stop ε) (List SymbolMatch)) s.run :=
  .check (collect_eq hs #[] #[]) ((Agrees.emitAll hp _).andThen fun _ _ hq => .pure hq _)

end Search

def reached (s : Scan) : Nat → Scan
  | 0 => s
  | n + 1 => (reached s n).advance.after

theorem sound_reached {s : Scan} (hs : Sound s) (n : Nat) : Sound (reached s n) := by
  induction n with
  | zero => exact hs
  | succ n ih => exact (advance_eq ih #[]).2

def symbols (a : Archive) (pattern : UInt64) : Reader (Stop Truncated) (List SymbolMatch) := do
  let payloads ← payloads a.regions
  let rw ← check payloads.toList[RegionKind.readWrite.index]?
  let s ← check (start pattern a.source rw a.regions.readOnly a.translator)
  let found ← run s
  Reader.emit (.symbolsCounted found.length pattern)
  return found

theorem symbols_agrees {a : Archive} (hs : a.source.size < 2 ^ 63) (pattern : UInt64) {p : Nat}
    (hp : p < UInt64.size) :
    Agrees a.source p (symbols a pattern) (a.readSymbols pattern) := by
  refine (payloads_agrees hs hp a.regions).bind fun ps hps => ?_
  have htable := (Payload.readAll_reading a.regions a.source p).1
  have hread : ps.readWrite.bytes.size < 2 ^ 63 := by
    cases hps.symm.trans htable
    change (a.source.extract _ _).size < 2 ^ 63
    rw [ByteArray.size_extract]
    omega
  have hsound := sound_start pattern a.regions.readOnly a.translator hs hread
  refine .check (a := ps.readWrite) rfl (.check (start_eq ..) ?_)
  exact (found_agrees hsound hp).andThen fun found _ hq =>
    (Agrees.emit hq _).andThen fun _ _ hq => .pure hq found

section Outcomes

variable {ε α : Type}

structure Unbroken (x : Outcome (Stop ε) α) (y : Outcome ε α) : Prop where
  never : x.result ≠ .error .broken
  result : x.result = y.result.mapError .failure
  events : x.events = y.events

theorem Unbroken.of_agrees {source : ByteArray} {checked : Reader (Stop ε) α} {plain : Reader ε α}
    (h : Agrees source 0 checked plain) :
    Unbroken (checked.outcome source) (plain.outcome source) := by
  have hresult : (checked source 0).result = (plain source 0).result.mapError .failure := by
    rw [h.same]
    rfl
  refine ⟨?_, hresult, ?_⟩
  · change (checked source 0).result ≠ _
    rw [hresult]
    cases (plain source 0).result <;> rintro ⟨⟩
  · change (checked source 0).events = _
    rw [h.same]
    rfl

def ask (a : Archive) (r : Reader (Stop Truncated) α) : Outcome (Stop Failure) α :=
  (r.mapError (Stop.map .truncated)).outcome a.source

def ofBytes (expected : UInt32) (source : ByteArray) : Outcome (Stop Failure) Archive :=
  let x := (header expected).outcome source
  ⟨x.result.map fun header => { source, header }, x.events⟩

theorem ask_unbroken {a : Archive} {checked : Reader (Stop Truncated) α}
    {plain : Reader Truncated α} (h : Agrees a.source 0 checked plain) :
    Unbroken (ask a checked) (a.ask plain) :=
  .of_agrees (h.mapError _)

theorem ofBytes_unbroken (expected : UInt32) {source : ByteArray} (hs : source.size < 2 ^ 63) :
    Unbroken (ofBytes expected source) (Archive.ofBytes expected source) := by
  obtain ⟨-, hresult, hevents⟩ := Unbroken.of_agrees (header_agrees (p := 0) hs expected)
  have hmapped : (ofBytes expected source).result =
      (Archive.ofBytes expected source).result.mapError .failure := by
    rw [ofBytes, Archive.ofBytes]
    dsimp only
    rw [hresult]
    cases ((Header.read expected).outcome source).result <;> rfl
  refine ⟨?_, hmapped, hevents⟩
  rw [hmapped]
  cases (Archive.ofBytes expected source).result <;> rintro ⟨⟩

/-- From a source and a payload that a machine can hold, nothing that the decoder does goes wrong:
the checked decoder never breaks off and answers what the plain one answers, whatever the headers,
the pattern, the regions and the base are, and in every state that a search reaches. -/
theorem decoding_unbroken :
    (∀ (expected : UInt32) (source : ByteArray), source.size < 2 ^ 63 →
      Unbroken (ofBytes expected source) (Archive.ofBytes expected source)) ∧
    (∀ a : Archive, a.source.size < 2 ^ 63 →
      Unbroken (ask a (payloads a.regions)) a.payloads ∧
      Unbroken (ask a (baseName a.generic)) a.baseName ∧
      ∀ pattern, Unbroken (ask a (symbols a pattern)) (a.symbols pattern)) ∧
    (∀ p : Payload, usedBytes p = some p.usedBytes) ∧
    ∀ (pattern : UInt64) (source : ByteArray) (rw : Payload) (ro : Region)
      (translator : Translator), source.size < 2 ^ 63 → rw.bytes.size < 2 ^ 63 →
      ∃ s, start pattern source rw ro translator = some s ∧
        s = Scan.start pattern source rw ro translator ∧
        collect s = some s.collect ∧
        ∀ n, advance (reached s n) = some (reached s n).advance := by
  refine ⟨fun expected source hs => ofBytes_unbroken expected hs, ?_, usedBytes_eq, ?_⟩
  · intro a hs
    exact ⟨ask_unbroken (payloads_agrees hs (by decide) _),
      ask_unbroken (baseName_agrees hs (by decide) _),
      fun pattern => ask_unbroken (symbols_agrees hs pattern (by decide))⟩
  · intro pattern source rw ro translator hs hrw
    have hsound := sound_start pattern ro translator hs hrw
    exact ⟨_, start_eq .., rfl, collect_eq hsound _ _,
      fun n => (advance_eq (sound_reached hsound n) _).1⟩

def boundless : Payload :=
  ⟨.readWrite, { used := 0xffffffffffffffff }, ⟨#[1, 0, 0, 0, 0, 0, 0, 0, 9]⟩⟩

theorem hello_unbroken :
    Archive.helloBytes.size < 2 ^ 63 ∧
      (ofBytes 0 Archive.helloBytes).result = .ok Archive.hello ∧
      (∃ ms, (ask Archive.hello (symbols Archive.hello 1)).result = .ok ms) ∧
      ∃ s, start 1 .empty boundless {} ⟨0x1000⟩ = some s ∧ s.used = 9 ∧
        collect s = some s.collect := by
  have hsize : Archive.helloBytes.size < 2 ^ 63 := by decide +kernel
  have hhello : Archive.hello.source.size < 2 ^ 63 := by decide +kernel
  obtain ⟨hopens, hanswers, -, hsearch⟩ := decoding_unbroken
  have hopen := (hopens 0 Archive.helloBytes hsize).result
  have hsymbols := ((hanswers Archive.hello hhello).2.2 1).result
  rw [Archive.hello_opens] at hopen
  rw [Archive.symbols_result] at hsymbols
  obtain ⟨s, hstart, hs, hcollect, -⟩ :=
    hsearch 1 .empty boundless {} ⟨0x1000⟩ (by decide) (by decide)
  have hused : s.used = 9 := by
    rw [hs]
    decide
  exact ⟨hsize, hopen, ⟨_, hsymbols⟩, s, hstart, hused, hcollect⟩

end Outcomes

end Checked

end SharedArchive
