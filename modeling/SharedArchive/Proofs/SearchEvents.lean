import Mathlib
import SharedArchive.Proofs.LoadingEvents
import SharedArchive.Proofs.SearchSteps

/-!
The events that a search for symbols leaves. A word in use that is the pattern is a hit. Each hit
whose record lies in the payload is told of once, in the order of the offsets: that its pointer
leads elsewhere, that no symbol could be read there, or the symbol, and then it is a match. The
payload ends before the record of at most three hits, and of those nothing is told. So the hits are
the matches and the events that are none, and these three at most.
-/

namespace SharedArchive

namespace Event

def isFound : Event → Bool
  | symbolFound .. => true
  | _ => false

def isOutside : Event → Bool
  | pointerOutside .. => true
  | _ => false

def isUnreadable : Event → Bool
  | symbolUnreadable .. => true
  | _ => false

end Event

namespace Scan

def eventAt? (s : Scan) (offset : Nat) : Option Event := (s.look offset).sighting.event? offset

def told (s : Scan) : List Event := s.offsets.filterMap s.eventAt?

section Run

variable (s : Scan)

theorem eventAt?_past (offset : Nat) : (s.past (s.look offset)).eventAt? = s.eventAt? := by
  rw [past_look]
  rfl

theorem told_cons (h : s.next + wordSize ≤ s.used) :
    s.told = (s.eventAt? s.next).toList ++ (s.past (s.look s.next)).told := by
  rw [told, told, offsets_cons h s.next, eventAt?_past, List.filterMap_cons]
  cases s.eventAt? s.next <;> rfl

theorem advance_told (events : Array Event) :
    (s.advance events).events.toList ++ (s.advance events).after.told =
      events.toList ++ s.told := by
  fun_induction advance s events with
  | case1 s events h l events' m hm =>
    rw [told_cons s h, ← List.append_assoc]
    simp only [events', l, Array.toList_append, Option.toList_toArray]
    rfl
  | case2 s events h l events' hm ih =>
    rw [ih, told_cons s h, ← List.append_assoc]
    simp only [events', l, Array.toList_append, Option.toList_toArray]
    rfl
  | case3 s events h => rfl

theorem collect_told (found : Array SymbolMatch) (events : Array Event) :
    (s.collect found events).2.toList = events.toList ++ s.told := by
  fun_induction collect s found events with
  | case1 s found events x hx =>
    have hnone : x.after.told = [] := by
      rw [told, offsets_after_none hx, List.filterMap_nil]
    rw [← advance_told s events]
    change x.events.toList = x.events.toList ++ x.after.told
    rw [hnone, List.append_nil]
  | case2 s found events x m hx ih => rw [ih, ← advance_told s events]

theorem run_eq {ε : Type} (source : ByteArray) (p : Nat) :
    (s.run : Reader ε (List SymbolMatch)) source p = ⟨.ok s.remaining, p, s.told⟩ := by
  have hfound := collect_found s #[] #[]
  have htold := collect_told s #[] #[]
  rw [run]
  change Reading.mk (.ok s.collect.1.toList) p (s.collect.2.toList ++ []) = _
  rw [hfound, htold, List.append_nil]
  rfl

end Run

section Sightings

theorem Sighting.event?_found (x : Sighting) (offset : Nat) :
    (x.event? offset).filter Event.isFound =
      x.match?.map fun m => .symbolFound m.name offset m.pointer := by
  cases x <;> rfl

theorem told_found (s : Scan) :
    s.told.filter Event.isFound =
      s.remaining.map fun m => .symbolFound m.name m.regionOffset m.pointer := by
  rw [told, remaining, List.filter_filterMap, List.map_filterMap]
  apply List.filterMap_congr
  intro o ho
  refine (Sighting.event?_found _ o).trans ?_
  change (s.matchAt? o).map _ = _
  cases hm : s.matchAt? o with
  | none => rfl
  | some m => rw [Option.map_some, Option.map_some, regionOffset_of_matchAt? hm]

def eventOf (s : Scan) (offset : Nat) (pointer : UInt64) : Event :=
  match s.translator.resolve? s.target pointer with
  | none => .pointerOutside pointer offset
  | some target =>
    match (Symbol.read target s.cursor.source 0).result with
    | .error cause => .symbolUnreadable target cause
    | .ok symbol => .symbolFound symbol.body offset pointer

theorem eventAt?_eq (s : Scan) (offset : Nat) :
    s.eventAt? offset =
      if wordAt? s.payload offset = some s.pattern then
        (wordAt? s.payload (offset + pointerDistance)).map (s.eventOf offset)
      else none := by
  rw [eventAt?, look]
  by_cases hw : wordAt? s.payload offset = some s.pattern
  · rw [if_neg (not_not.2 hw), if_pos hw]
    cases wordAt? s.payload (offset + pointerDistance) with
    | none => rfl
    | some pointer =>
      dsimp only [Option.map_some, eventOf]
      cases s.translator.resolve? s.target pointer with
      | none => rfl
      | some target =>
        dsimp only
        rw [Symbol.read_result_start]
        cases (Symbol.read target s.cursor.source 0).result with
        | error cause => rfl
        | ok symbol => rfl
  · rw [if_pos hw, if_neg hw]
    rfl

end Sightings

section Hits

variable (pattern : UInt64) (source : ByteArray) (rw : Payload) (ro : Region) (t : Translator)

/-- What is told of a hit: that its pointer does not lead into the region, or that it leads to where
no symbol fits in the source, and why reading one fails, or the symbol. -/
inductive Tells (o : Nat) : Event → Prop
  | outside {pointer : UInt64} (hpointer : pointer.toNat = numberAt rw.bytes (o + 24) 8)
      (hresolve : t.resolve? ro pointer = none) : Tells o (.pointerOutside pointer o)
  | unreadable {pointer target : UInt64} {cause : Truncated}
      (hpointer : pointer.toNat = numberAt rw.bytes (o + 24) 8)
      (hresolve : t.resolve? ro pointer = some target) (hfits : ¬ Symbol.Fits source target)
      (hcause : (Symbol.read target source 0).result = .error cause) :
      Tells o (.symbolUnreadable target cause)
  | found {pointer target : UInt64} {symbol : Symbol}
      (hpointer : pointer.toNat = numberAt rw.bytes (o + 24) 8)
      (hresolve : t.resolve? ro pointer = some target) (hfits : Symbol.Fits source target)
      (hsymbol : (Symbol.read target source 0).result = .ok symbol) :
      Tells o (.symbolFound symbol.body o pointer)

def hits : List Nat :=
  (start pattern source rw ro t).offsets.filter fun o => numberAt rw.bytes o 8 = pattern.toNat

def pointerOf (o : Nat) : UInt64 := UInt64.ofNat (numberAt rw.bytes (o + 24) 8)

variable {pattern source rw ro t}

theorem tells_eventOf {o : Nat} {pointer : UInt64}
    (hpointer : pointer.toNat = numberAt rw.bytes (o + 24) 8) :
    Tells source rw ro t o ((start pattern source rw ro t).eventOf o pointer) := by
  simp only [eventOf, start]
  cases hresolve : t.resolve? ro pointer with
  | none => exact .outside hpointer hresolve
  | some target =>
    dsimp only
    by_cases hfits : Symbol.Fits source target
    · have hsymbol := Symbol.read_fits 0 hfits
      rw [hsymbol]
      exact .found hpointer hresolve hfits hsymbol
    · obtain ⟨cause, hcause⟩ := Symbol.read_not_fits 0 hfits
      rw [hcause]
      exact .unreadable hpointer hresolve hfits hcause

theorem eventAt?_of_mem_offsets {o : Nat} (h : o ∈ (start pattern source rw ro t).offsets) :
    (start pattern source rw ro t).eventAt? o =
      if numberAt rw.bytes o 8 = pattern.toNat then
        if o + 32 ≤ rw.bytes.size then
          some ((start pattern source rw ro t).eventOf o (pointerOf rw o))
        else none
      else none := by
  have hin : o + 8 ≤ rw.bytes.size := (mem_offsets.1 h).2.2.trans rw.usedBytes_size_le
  have hword : wordAt? rw.bytes o = some pattern ↔ numberAt rw.bytes o 8 = pattern.toNat := by
    rw [wordAt?_eq_some_iff, and_iff_right hin, eq_comm]
  rw [eventAt?_eq, pointerDistance_eq, wordAt?_eq _ (o + 24)]
  simp only [start, hword, Nat.add_assoc, Nat.reduceAdd, apply_ite (Option.map _), Option.map_some,
    Option.map_none, pointerOf]

theorem told_eq : (start pattern source rw ro t).told =
    ((hits pattern source rw ro t).filter (· + 32 ≤ rw.bytes.size)).map fun o =>
      (start pattern source rw ro t).eventOf o (pointerOf rw o) := by
  rw [told, hits, ← List.filterMap_eq_map, List.filterMap_filter, List.filterMap_filter]
  apply List.filterMap_congr
  intro o ho
  rw [eventAt?_of_mem_offsets ho]
  simp only [decide_eq_true_eq, Function.comp_apply]

theorem pointerOf_toNat (o : Nat) : (pointerOf rw o).toNat = numberAt rw.bytes (o + 24) 8 :=
  toNat_uint64_numberAt rw.bytes (o + 24)

theorem tells_of_mem_told {e : Event} (h : e ∈ (start pattern source rw ro t).told) :
    ∃ o, Tells source rw ro t o e := by
  rw [told_eq, List.mem_map] at h
  obtain ⟨o, -, he⟩ := h
  exact ⟨o, he ▸ tells_eventOf (pointerOf_toNat o)⟩

theorem Tells.level {o : Nat} {e : Event} (h : Tells source rw ro t o e) :
    e.visible .trace ∧ e.level = if e.isFound then .debug else .trace := by
  cases h with
  | outside => exact ⟨rfl, rfl⟩
  | unreadable => exact ⟨rfl, rfl⟩
  | found => exact ⟨rfl, rfl⟩

theorem Tells.kind {o : Nat} {e : Event} (h : Tells source rw ro t o e) :
    (if e.isFound then 1 else 0) + (if e.isOutside then 1 else 0) +
      (if e.isUnreadable then 1 else 0) = 1 := by
  cases h with
  | outside => rfl
  | unreadable => rfl
  | found => rfl

example :
    let rw : Payload := ⟨.readWrite, { used := 24 },
      ⟨([7, 7, 7].flatMap (toLittleEndian 8)).toArray⟩⟩
    ((hits 7 .empty rw {} ⟨0⟩).filter (rw.bytes.size < · + 32)).length = 3 := by decide +kernel

end Hits

end Scan

namespace Archive

variable (a : Archive) (pattern : UInt64)

theorem symbols_events :
    (a.symbols pattern).events =
      Payload.loaded.flatMap (Payload.spanEvents a.regions a.source.size) ++
        (a.scan pattern).told ++ [.symbolsCounted (a.scan pattern).remaining.length pattern] := by
  have hp := (Payload.readAll_reading a.regions a.source 0).1
  change (a.readSymbols pattern a.source 0).events = _
  rw [readSymbols, Reader.bind_events_of_ok _ hp, Payload.readAll_events, List.append_assoc]
  congr 1
  exact congrArg Reading.events (Reader.bind_ok (Scan.run_eq (a.scan pattern) a.source _))

theorem spanEvents_countP_found (regions : RegionTable) (fileSize : Nat) :
    (Payload.loaded.flatMap (Payload.spanEvents regions fileSize)).countP Event.isFound = 0 := by
  rw [List.countP_eq_zero]
  intro e he
  obtain ⟨k, -, hk⟩ := List.mem_flatMap.1 he
  obtain ⟨-, rfl⟩ | ⟨-, ⟨-, rfl⟩ | rfl⟩ := Payload.mem_spanEvents.1 hk
  · exact Bool.false_ne_true
  · exact Bool.false_ne_true
  · exact Bool.false_ne_true

end Archive

end SharedArchive
