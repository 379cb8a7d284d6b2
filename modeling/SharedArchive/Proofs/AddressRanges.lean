import Mathlib
import SharedArchive.Proofs.SearchSteps
import SharedArchive.Proofs.Translation

/-!
The addresses that a region answers for. An address and its file offset determine each other, and
an address is resolved if its distance from the region's beginning, modulo `2 ^ 64`, is within what
the region uses. The region's range of addresses says the same as long as it does not reach the last
address; a range that does is empty, though the addresses still resolve.
-/

namespace SharedArchive

def AddressRange.Contains (a : AddressRange) (address : UInt64) : Prop :=
  a.start ≤ address ∧ address < a.stop

namespace Translator

variable {t : Translator} {r : Region} {address fileOffset : UInt64}

theorem distance_toNat (t : Translator) (r : Region) (address : UInt64) :
    ((address - t.regionBase r).toNat : Int) =
      ((address.toNat : Int) - t.base.toNat - r.mappingOffset.toNat) % 2 ^ 64 := by
  have haddress := address.toNat_lt
  have hbase := t.base.toNat_lt
  have hmapping := r.mappingOffset.toNat_lt
  rw [regionBase, UInt64.toNat_sub, UInt64.toNat_add]
  omega

theorem regionOffset?_eq_some_iff_distance {distance : UInt64} :
    t.regionOffset? r address = some distance ↔
      (distance.toNat : Int) =
        ((address.toNat : Int) - t.base.toNat - r.mappingOffset.toNat) % 2 ^ 64 ∧
      distance < r.used := by
  rw [regionOffset?_eq_some_iff_sub, ← distance_toNat, Int.natCast_inj, UInt64.toNat_inj]
  exact and_congr_left fun _ => eq_comm

theorem resolve?_eq_some_iff :
    t.resolve? r address = some fileOffset ↔
      address - t.regionBase r < r.used ∧ fileOffset = t.toFileOffset r address := by
  rw [resolve?, regionOffset?]
  split_ifs with hused
  · simp [hused, toFileOffset, eq_comm]
  · simp [hused]

theorem toAddress_of_resolve? (h : t.resolve? r address = some fileOffset) :
    t.toAddress r fileOffset = address := by
  rw [(resolve?_eq_some_iff.1 h).2]
  exact t.toAddress_toFileOffset r address

theorem ncard_below (n : UInt64) : {distance | distance < n}.ncard = n.toNat := by
  have hnumbers : UInt64.toNat '' {distance | distance < n} = ↑(Finset.range n.toNat) := by
    ext k
    simp only [Set.mem_image, Set.mem_ofPred_eq, Finset.coe_range, Set.mem_Iio]
    constructor
    · intro h
      obtain ⟨distance, hlt, hk⟩ := h
      rw [← hk]
      exact hlt
    · intro h
      have hk : (UInt64.ofNat k).toNat = k := UInt64.toNat_ofNat_of_lt' (h.trans n.toNat_lt)
      refine ⟨UInt64.ofNat k, ?_, hk⟩
      rw [UInt64.lt_iff_toNat_lt, hk]
      exact h
  rw [← Set.ncard_image_of_injective _ (fun _ _ => UInt64.toNat_inj.1), hnumbers,
    Set.ncard_coe_finset, Finset.card_range]

theorem ncard_resolved (t : Translator) (r : Region) :
    {address | ∃ fileOffset, t.resolve? r address = some fileOffset}.ncard = r.used.toNat := by
  have hset : {address | ∃ fileOffset, t.resolve? r address = some fileOffset} =
      (fun distance => t.regionBase r + distance) '' {distance | distance < r.used} := by
    ext address
    simp only [resolve?_eq_some_iff, Set.mem_ofPred_eq, exists_and_left, exists_eq, and_true,
      Set.mem_image]
    constructor
    · intro h
      exact ⟨_, h, by grind⟩
    · intro h
      obtain ⟨distance, hused, hsum⟩ := h
      rw [← hsum]
      grind
  have hinjective : Function.Injective fun distance => t.regionBase r + distance := by
    intro d d' h
    exact UInt64.add_right_inj _ |>.1 h
  rw [hset, Set.ncard_image_of_injective _ hinjective, ncard_below]

section Ranges

variable {a : AddressRange}

theorem not_contains_of_isEmpty (h : a.isEmpty = true) (address : UInt64) :
    ¬ a.Contains address := by
  intro hin
  have hle : a.stop ≤ a.start := of_decide_eq_true h
  exact UInt64.not_lt.2 hle (UInt64.lt_of_le_of_lt hin.1 hin.2)

theorem resolved_iff_contains
    (h : (t.base + r.mappingOffset).toNat + r.used.toNat < 2 ^ 64) :
    (∃ fileOffset, t.resolve? r address = some fileOffset) ↔
      (r.mappedRange t.base).Contains address := by
  have haddress := address.toNat_lt
  simp only [resolve?_eq_some_iff, exists_and_left, exists_eq, and_true,
    AddressRange.Contains, Region.mappedRange, regionBase, UInt64.lt_iff_toNat_lt,
    UInt64.le_iff_toNat_le, UInt64.toNat_sub]
  rw [UInt64.toNat_add (t.base + r.mappingOffset) r.used, Nat.mod_eq_of_lt h]
  omega

theorem mappedRange_isEmpty
    (h : 2 ^ 64 ≤ (t.base + r.mappingOffset).toNat + r.used.toNat) :
    (r.mappedRange t.base).isEmpty = true := by
  have hstart := (t.base + r.mappingOffset).toNat_lt
  have hused := r.used.toNat_lt
  apply decide_eq_true
  change t.base + r.mappingOffset + r.used ≤ t.base + r.mappingOffset
  rw [UInt64.le_iff_toNat_le, UInt64.toNat_add (t.base + r.mappingOffset) r.used]
  omega

theorem resolved_bounds (h : r.fileOffset.toNat + r.used.toNat ≤ 2 ^ 64)
    (hf : t.resolve? r address = some fileOffset) :
    r.fileOffset.toNat ≤ fileOffset.toNat ∧
      fileOffset.toNat < r.fileOffset.toNat + r.used.toNat := by
  obtain ⟨hused, rfl⟩ := resolve?_eq_some_iff.1 hf
  rw [UInt64.lt_iff_toNat_lt] at hused
  rw [toFileOffset, UInt64.toNat_add, Nat.mod_eq_of_lt (by omega)]
  omega

end Ranges

/-- Translating is one to one, its checked form says exactly which addresses the region answers
for, and the region's range says the same unless it reaches the last address. -/
theorem translation_exact (t : Translator) (r : Region) :
    (∀ x, t.toAddress r (t.toFileOffset r x) = x ∧ t.toFileOffset r (t.toAddress r x) = x) ∧
    (∀ x d, t.regionOffset? r x = some d ↔
      (d.toNat : Int) = ((x.toNat : Int) - t.base.toNat - r.mappingOffset.toNat) % 2 ^ 64 ∧
        d < r.used) ∧
    (∀ x f, t.resolve? r x = some f ↔
      (∃ d, t.regionOffset? r x = some d) ∧ f = t.toFileOffset r x) ∧
    Set.InjOn (t.resolve? r) {x | ∃ f, t.resolve? r x = some f} ∧
    {x | ∃ f, t.resolve? r x = some f}.ncard = r.used.toNat ∧
    (∀ x f, t.resolve? r x = some f → t.toAddress r f = x) ∧
    (∀ pattern source rw, ∀ m ∈ (Scan.start pattern source rw r t).collect.1.toList,
      t.toAddress r m.symbol.fileOffset = m.pointer) ∧
    (if (t.base.toNat + r.mappingOffset.toNat) % 2 ^ 64 + r.used.toNat < 2 ^ 64 then
      ∀ x, (∃ f, t.resolve? r x = some f) ↔ (r.mappedRange t.base).Contains x
    else (r.mappedRange t.base).isEmpty = true ∧ (∀ x, ¬ (r.mappedRange t.base).Contains x) ∧
      0 < {x | ∃ f, t.resolve? r x = some f}.ncard) ∧
    (r.fileOffset.toNat + r.used.toNat ≤ 2 ^ 64 → ∀ x f, t.resolve? r x = some f →
      r.fileOffset.toNat ≤ f.toNat ∧ f.toNat < r.fileOffset.toNat + r.used.toNat) := by
  have hstart : (t.base.toNat + r.mappingOffset.toNat) % 2 ^ 64 =
      (t.base + r.mappingOffset).toNat := (UInt64.toNat_add _ _).symm
  rw [hstart]
  refine ⟨fun x => ⟨t.toAddress_toFileOffset r x, t.toFileOffset_toAddress r x⟩,
    fun x d => regionOffset?_eq_some_iff_distance, ?_, ?_, ncard_resolved t r,
    fun x f => toAddress_of_resolve?, ?_, ?_, fun h x f => resolved_bounds h⟩
  · intro x f
    simp [resolve?_eq_some_iff, regionOffset?_eq_some_iff_sub]
  · intro x hx y hy hsame
    obtain ⟨f, hf⟩ := hx
    rw [← toAddress_of_resolve? hf, ← toAddress_of_resolve? (hsame.symm.trans hf)]
  · intro pattern source rw m hm
    exact toAddress_of_resolve? (Scan.mem_collect.1 hm).resolves
  · split_ifs with hwraps
    · intro x
      exact resolved_iff_contains hwraps
    · have hempty := mappedRange_isEmpty (Nat.le_of_not_lt hwraps)
      refine ⟨hempty, not_contains_of_isEmpty hempty, ?_⟩
      have hlt := (t.base + r.mappingOffset).toNat_lt
      rw [ncard_resolved]
      omega

theorem wrapping_resolved :
    let t : Translator := ⟨0xfffffffffffffff0⟩
    let r : Region := { fileOffset := 0x1000, used := 0x20 }
    (t.resolve? r 5 = some 0x1015 ∧ t.toAddress r 0x1015 = 5 ∧
      (UInt64.toNat 0x1000 ≤ UInt64.toNat 0x1015 ∧ UInt64.toNat 0x1015 < 0x1000 + 0x20) ∧
      (r.mappedRange t.base).isEmpty = true ∧
      {x | ∃ f, t.resolve? r x = some f}.ncard = 0x20) ∧
    ∃ m ∈ (Scan.start 1 Scan.lone Scan.overlapping { used := 1 } ⟨0x1000⟩).collect.1.toList,
      toAddress ⟨0x1000⟩ { used := 1 } m.symbol.fileOffset = m.pointer := by
  intro t r
  have hresolves : t.resolve? r 5 = some 0x1015 := by decide
  obtain ⟨-, -, -, -, hcount, hback, -, hrange, hbounds⟩ := translation_exact t r
  rw [if_neg (by decide)] at hrange
  have hmatch := Scan.mem_collect.2 (Scan.overlapping_isMatch (o := 8) (by decide))
  obtain ⟨-, -, -, -, -, -, hmatches, -, -⟩ := translation_exact ⟨0x1000⟩ { used := 1 }
  exact ⟨⟨hresolves, hback 5 0x1015 hresolves, hbounds (by decide) 5 0x1015 hresolves, hrange.1,
    hcount⟩, _, hmatch, hmatches _ _ _ _ hmatch⟩

end Translator

end SharedArchive
