import Mathlib
import SharedArchive.Proofs.CheckedSearch

/-!
A search asked for one match after the other. Each call gives the match at the least offset that has
one among those still ahead, and stops right behind the word it begins with, so the next record may
overlap this one; once there is no match the calls go on giving none. However many calls are made
first, collecting the rest gives the rest of the matches and nothing else.
-/

namespace SharedArchive

namespace Scan

open Checked (reached)

section Matches

variable (pattern : UInt64) (source : ByteArray) (rw : Payload) (ro : Region) (t : Translator)

/-- A word in use is the pattern, the payload goes on for a pointer 24 bytes behind it, be that in
use or not, and the pointer leads into the region and to a symbol of the source. -/
structure IsMatch (m : SymbolMatch) : Prop where
  aligned : 8 ∣ m.regionOffset
  used : m.regionOffset + 8 ≤ rw.usedBytes.size
  word : numberAt rw.bytes m.regionOffset 8 = pattern.toNat
  whole : m.regionOffset + 24 + 8 ≤ rw.bytes.size
  pointer : m.pointer.toNat = numberAt rw.bytes (m.regionOffset + 24) 8
  resolves : t.resolve? ro m.pointer = some m.symbol.fileOffset
  symbol : (Symbol.read m.symbol.fileOffset source 0).result = .ok m.symbol
  fileOffset : m.fileOffset.toNat = (rw.region.fileOffset.toNat + m.regionOffset) % 2 ^ 64

def IsGood (offset : Nat) : Prop :=
  ∃ m, IsMatch pattern source rw ro t m ∧ m.regionOffset = offset

end Matches

theorem wordAt?_eq_some_iff {bytes : ByteArray} {offset : Nat} {w : UInt64} :
    wordAt? bytes offset = some w ↔
      offset + 8 ≤ bytes.size ∧ w.toNat = numberAt bytes offset 8 := by
  rw [wordAt?_eq, Option.ite_none_right_eq_some, Option.some_inj, ← UInt64.toNat_inj,
    toNat_uint64_numberAt, eq_comm (a := w.toNat)]

theorem matchAt?_eq_some_iff {s : Scan} {offset : Nat} {m : SymbolMatch} :
    s.matchAt? offset = some m ↔
      wordAt? s.payload offset = some s.pattern ∧
      wordAt? s.payload (offset + 24) = some m.pointer ∧
      s.translator.resolve? s.target m.pointer = some m.symbol.fileOffset ∧
      (Symbol.read m.symbol.fileOffset s.cursor.source 0).result = .ok m.symbol ∧
      m.regionOffset = offset ∧ m.fileOffset = s.fileOffset + UInt64.ofNat offset := by
  simp only [matchAt?_eq, Option.ite_none_right_eq_some, Option.bind_eq_some_iff,
    pointerDistance_eq, Symbol.read_ok_iff]
  constructor
  · intro h
    obtain ⟨hword, pointer, hpointer, target, htarget, hfits, hm⟩ := h
    cases hm
    exact ⟨hword, hpointer, htarget, ⟨hfits, rfl⟩, rfl, rfl⟩
  · intro h
    obtain ⟨hword, hpointer, htarget, ⟨hfits, hsymbol⟩, hregion, hfile⟩ := h
    refine ⟨hword, m.pointer, hpointer, m.symbol.fileOffset, htarget, hfits, ?_⟩
    rw [← hsymbol, ← hfile, ← hregion]

theorem regionOffset_of_matchAt? {s : Scan} {offset : Nat} {m : SymbolMatch}
    (h : s.matchAt? offset = some m) : m.regionOffset = offset :=
  (matchAt?_eq_some_iff.1 h).2.2.2.2.1

/-- `x` is the search `s`, some words further on. -/
structure Ahead (s x : Scan) : Prop where
  same : x = { s with next := x.next }
  aligned : 8 ∣ x.next
  inside : x.next ≤ s.used

section Steps

variable {s x : Scan}

theorem Ahead.matchAt? (h : Ahead s x) : x.matchAt? = s.matchAt? := by
  rw [h.same]
  rfl

theorem Ahead.past (h : Ahead s x) (hin : x.next + wordSize ≤ x.used) :
    Ahead s (x.past (x.look x.next)) := by
  have hused : x.used = s.used := by
    rw [h.same]
  rw [past_look]
  refine ⟨?_, ?_, ?_⟩
  · rw [h.same]
  · exact Nat.dvd_add h.aligned (dvd_refl 8)
  · exact hused ▸ hin

theorem Ahead.advance (h : Ahead s x) (events : Array Event) :
    Ahead s (x.advance events).after := by
  fun_induction Scan.advance x events with
  | case1 x events hin l events' m hm => exact h.past hin
  | case2 x events hin l events' hm ih => exact ih (h.past hin)
  | case3 x events hin => exact h

theorem advance_next_eq (x : Scan) (events : Array Event) {m : SymbolMatch}
    (hm : (x.advance events).match? = some m) :
    (x.advance events).after.next = m.regionOffset + 8 := by
  fun_induction Scan.advance x events with
  | case1 x events hin l events' m' hm' =>
    cases hm
    have hat : x.matchAt? x.next = some m := hm'
    rw [regionOffset_of_matchAt? hat]
    rfl
  | case2 x events hin l events' hm' ih => exact ih hm
  | case3 x events hin => cases hm

theorem mem_offsets {offset : Nat} :
    offset ∈ x.offsets ↔ x.next ≤ offset ∧ 8 ∣ offset - x.next ∧ offset + 8 ≤ x.used := by
  simp only [offsets, List.mem_range', wordSize]
  constructor
  · intro h
    obtain ⟨i, hi, hoffset⟩ := h
    omega
  · intro h
    obtain ⟨hnext, ⟨i, hi⟩, hused⟩ := h
    exact ⟨i, by omega, by omega⟩

theorem remaining_increasing (x : Scan) :
    x.remaining.Pairwise fun m m' => m.regionOffset < m'.regionOffset := by
  have hoffsets : x.offsets.Pairwise (· < ·) := List.pairwise_lt_range' wordSize (by decide)
  refine hoffsets.filterMap _ ?_
  intro o o' hlt m hm m' hm'
  rw [regionOffset_of_matchAt? hm, regionOffset_of_matchAt? hm']
  exact hlt

theorem advance_none_iff (x : Scan) (events : Array Event) :
    (x.advance events).match? = none ↔ x.remaining = [] := by
  rw [remaining_advance x events]
  cases (x.advance events).match? <;> simp

theorem offsets_after_none {x : Scan} {events : Array Event}
    (h : (x.advance events).match? = none) : (x.advance events).after.offsets = [] := by
  fun_induction Scan.advance x events with
  | case1 x events hin l events' m hm => cases h
  | case2 x events hin l events' hm ih => exact ih h
  | case3 x events hin => exact offsets_nil hin

theorem remaining_after_none {x : Scan} {events : Array Event}
    (h : (x.advance events).match? = none) : (x.advance events).after.remaining = [] := by
  rw [remaining, offsets_after_none h, List.filterMap_nil]

theorem Ahead.reached (h : Ahead s x) (n : Nat) : Ahead s (Checked.reached x n) := by
  induction n with
  | zero => exact h
  | succ n ih => exact ih.advance _

theorem answers_append_remaining (x : Scan) (n : Nat) :
    (List.range n).filterMap (fun k => (reached x k).advance.match?) ++
      (reached x n).remaining = x.remaining := by
  induction n with
  | zero => rfl
  | succ n ih =>
    rw [List.range_succ, List.filterMap_append, List.append_assoc, ← ih]
    congr 1
    rw [remaining_advance (reached x n) #[]]
    cases h : (reached x n).advance.match? with
    | none =>
      have hrest : (reached x (n + 1)).remaining = [] := remaining_after_none h
      simp [h, hrest]
    | some m => simp [h, Checked.reached]

end Steps

section Start

variable {pattern : UInt64} {source : ByteArray} {rw : Payload} {ro : Region} {t : Translator}
  {x : Scan}

theorem ahead_start :
    Ahead (start pattern source rw ro t) (start pattern source rw ro t) :=
  ⟨rfl, dvd_zero 8, Nat.zero_le _⟩

theorem isMatch_iff {m : SymbolMatch} :
    IsMatch pattern source rw ro t m ↔
      8 ∣ m.regionOffset ∧ m.regionOffset + 8 ≤ rw.usedBytes.size ∧
        (start pattern source rw ro t).matchAt? m.regionOffset = some m := by
  have hplace : m.fileOffset = rw.region.fileOffset + UInt64.ofNat m.regionOffset ↔
      m.fileOffset.toNat = (rw.region.fileOffset.toNat + m.regionOffset) % 2 ^ 64 := by
    rw [← UInt64.toNat_inj, UInt64.toNat_add, UInt64.toNat_ofNat', Nat.add_mod_mod]
  rw [matchAt?_eq_some_iff, wordAt?_eq_some_iff, wordAt?_eq_some_iff]
  constructor
  · intro h
    have hin : m.regionOffset + 8 ≤ rw.bytes.size := by
      have hwhole := h.whole
      omega
    exact ⟨h.aligned, h.used, ⟨hin, h.word.symm⟩, ⟨h.whole, h.pointer⟩, h.resolves, h.symbol, rfl,
      hplace.2 h.fileOffset⟩
  · intro h
    obtain ⟨haligned, hused, hword, hpointer, hresolves, hsymbol, -, hfile⟩ := h
    exact ⟨haligned, hused, hword.2.symm, hpointer.1, hpointer.2, hresolves, hsymbol,
      hplace.1 hfile⟩

theorem Ahead.mem_remaining (h : Ahead (start pattern source rw ro t) x) {m : SymbolMatch} :
    m ∈ x.remaining ↔ IsMatch pattern source rw ro t m ∧ x.next ≤ m.regionOffset := by
  have hused : x.used = rw.usedBytes.size := by
    rw [h.same]
    rfl
  have haligned := h.aligned
  rw [remaining, List.mem_filterMap, isMatch_iff, h.matchAt?]
  constructor
  · intro hm
    obtain ⟨o, ho, hat⟩ := hm
    have hoffset := regionOffset_of_matchAt? hat
    obtain ⟨hnext, hdvd, hin⟩ := mem_offsets.1 ho
    subst hoffset
    exact ⟨⟨by omega, hused ▸ hin, hat⟩, hnext⟩
  · intro hm
    obtain ⟨⟨hdvd, hin, hat⟩, hnext⟩ := hm
    exact ⟨m.regionOffset, mem_offsets.2 ⟨hnext, by omega, hused ▸ hin⟩, hat⟩

theorem Ahead.remaining_eq_nil_iff (h : Ahead (start pattern source rw ro t) x) :
    x.remaining = [] ↔ ∀ o, x.next ≤ o → ¬ IsGood pattern source rw ro t o := by
  rw [List.eq_nil_iff_forall_not_mem]
  constructor
  · intro hnone o ho hgood
    obtain ⟨m, hm, hoffset⟩ := hgood
    subst hoffset
    exact hnone m (h.mem_remaining.2 ⟨hm, ho⟩)
  · intro hnone m hm
    obtain ⟨hmatch, hnext⟩ := h.mem_remaining.1 hm
    exact hnone m.regionOffset hnext ⟨m, hmatch, rfl⟩

theorem Ahead.advance_some (h : Ahead (start pattern source rw ro t) x) {m : SymbolMatch}
    (hm : x.advance.match? = some m) :
    IsMatch pattern source rw ro t m ∧
      IsLeast {o | x.next ≤ o ∧ IsGood pattern source rw ro t o} m.regionOffset := by
  have hremaining := remaining_advance x #[]
  have hincreasing := remaining_increasing x
  rw [hm] at hremaining
  rw [hremaining, List.pairwise_cons] at hincreasing
  have hfirst : m ∈ x.remaining := by
    rw [hremaining]
    exact List.mem_cons_self
  obtain ⟨hmatch, hnext⟩ := h.mem_remaining.1 hfirst
  refine ⟨hmatch, ⟨hnext, m, hmatch, rfl⟩, ?_⟩
  intro o ho
  obtain ⟨hle, m', hmatch', hoffset⟩ := ho
  subst hoffset
  have hmem := h.mem_remaining.2 ⟨hmatch', hle⟩
  rw [hremaining, List.mem_cons] at hmem
  rcases hmem with hsame | hlater
  · rw [hsame]
  · exact (hincreasing.1 m' hlater).le

theorem reached_remaining_nil {s : Scan} {n : Nat} (h : (reached s n).remaining = []) (k : Nat) :
    (reached s (n + k)).remaining = [] := by
  induction k with
  | zero => exact h
  | succ k ih => exact remaining_after_none ((advance_none_iff _ #[]).2 ih)

theorem collect_eq_remaining (x : Scan) : x.collect.1.toList = x.remaining := by
  rw [collect_found]
  rfl

theorem mem_collect {m : SymbolMatch} :
    m ∈ (start pattern source rw ro t).collect.1.toList ↔ IsMatch pattern source rw ro t m := by
  rw [collect_eq_remaining, ahead_start.mem_remaining]
  exact and_iff_left (Nat.zero_le _)

theorem IsMatch.eq_of_regionOffset_eq {m m' : SymbolMatch} (h : IsMatch pattern source rw ro t m)
    (h' : IsMatch pattern source rw ro t m') (hoffset : m.regionOffset = m'.regionOffset) :
    m = m' := by
  have hat := (isMatch_iff.1 h).2.2
  have hat' := (isMatch_iff.1 h').2.2
  rw [hoffset, hat'] at hat
  exact (Option.some.inj hat).symm

end Start

/-- Calls made one after the other give the matches in the order of their offsets, each of them
once, and when there are no more they go on giving none; and collecting after any number of calls
gives what is left. -/
theorem calls_in_order (pattern : UInt64) (source : ByteArray) (rw : Payload) (ro : Region)
    (t : Translator) :
    let s := start pattern source rw ro t
    (∀ n, (8 ∣ (reached s n).next ∧ (reached s n).next ≤ rw.usedBytes.size ∧
        (reached s n).cursor = { source, position := 0 }) ∧
      match (reached s n).advance.match? with
      | some m => IsMatch pattern source rw ro t m ∧
          IsLeast {o | (reached s n).next ≤ o ∧ IsGood pattern source rw ro t o} m.regionOffset ∧
          (reached s (n + 1)).next = m.regionOffset + 8
      | none => (∀ o, (reached s n).next ≤ o → ¬ IsGood pattern source rw ro t o) ∧
          ∀ k, (reached s (n + k)).advance.match? = none) ∧
    ∃ ms, s.collect.1.toList = ms ∧
      ms.Pairwise (fun m m' => m.regionOffset < m'.regionOffset) ∧
      (∀ m, m ∈ ms ↔ IsMatch pattern source rw ro t m) ∧
      (∀ o, IsGood pattern source rw ro t o → ∃! m, m ∈ ms ∧ m.regionOffset = o) ∧
      ∀ n, (List.range n).filterMap (fun k => (reached s k).advance.match?) ++
        (reached s n).collect.1.toList = ms := by
  intro s
  have hstart : Ahead s s := ahead_start
  constructor
  · intro n
    have hahead : Ahead s (reached s n) := hstart.reached n
    refine ⟨⟨hahead.aligned, hahead.inside, ?_⟩, ?_⟩
    · rw [hahead.same]
      rfl
    · cases hm : (reached s n).advance.match? with
      | some m =>
        obtain ⟨hmatch, hleast⟩ := hahead.advance_some hm
        exact ⟨hmatch, hleast, advance_next_eq _ _ hm⟩
      | none =>
        have hnil := (advance_none_iff _ _).1 hm
        refine ⟨hahead.remaining_eq_nil_iff.1 hnil, ?_⟩
        intro k
        exact (advance_none_iff _ _).2 (reached_remaining_nil hnil k)
  · refine ⟨_, rfl, ?_, fun m => mem_collect, ?_, ?_⟩
    · rw [collect_eq_remaining]
      exact remaining_increasing s
    · intro o ho
      obtain ⟨m, hm, hoffset⟩ := ho
      refine ⟨m, ⟨mem_collect.2 hm, hoffset⟩, ?_⟩
      intro m' hm'
      exact (mem_collect.1 hm'.1).eq_of_regionOffset_eq hm (hm'.2.trans hoffset.symm)
    · intro n
      rw [collect_eq_remaining, collect_eq_remaining]
      exact answers_append_remaining s n

def overlapping : Payload :=
  ⟨.readWrite, { used := 17 }, ⟨([1, 1, 0, 0x1000, 0x1000].flatMap (toLittleEndian 8)).toArray⟩⟩

def lone : ByteArray := ⟨#[0, 0, 0, 0, 1, 0, 65]⟩

theorem overlapping_isMatch {o : Nat} (ho : o ∈ [0, 8]) :
    IsMatch 1 lone overlapping { used := 1 } ⟨0x1000⟩
      ⟨o, UInt64.ofNat o, 0x1000, ⟨0, 0, 1, "A"⟩⟩ := by
  have hat : ∀ o ∈ [0, 8], 8 ∣ o ∧ o + 8 ≤ overlapping.usedBytes.size ∧
      (start 1 lone overlapping { used := 1 } ⟨0x1000⟩).matchAt? o =
        some ⟨o, UInt64.ofNat o, 0x1000, ⟨0, 0, 1, "A"⟩⟩ := by decide +kernel
  exact isMatch_iff.2 (hat o ho)

theorem overlapping_found :
    overlapping.usedBytes.size = 17 ∧
      (∀ o ∈ [0, 8], IsGood 1 lone overlapping { used := 1 } ⟨0x1000⟩ o) ∧
      ∃ ms, (start 1 lone overlapping { used := 1 } ⟨0x1000⟩).collect.1.toList = ms ∧
        ∀ o ∈ [0, 8], ∃! m, m ∈ ms ∧ m.regionOffset = o := by
  have hgood (o : Nat) (ho : o ∈ [0, 8]) :
      IsGood 1 lone overlapping { used := 1 } ⟨0x1000⟩ o := ⟨_, overlapping_isMatch ho, rfl⟩
  obtain ⟨-, ms, hms, -, -, hunique, -⟩ :=
    calls_in_order 1 lone overlapping { used := 1 } ⟨0x1000⟩
  exact ⟨by decide +kernel, hgood, ms, hms, fun o ho => hunique o (hgood o ho)⟩

end Scan

end SharedArchive
