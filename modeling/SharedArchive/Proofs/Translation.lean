import Mathlib
import SharedArchive.Proofs.Search
import SharedArchive.Proofs.Tiling

/-!
Addresses and payloads. An address is resolved by a distance modulo `2 ^ 64` that is held against
what the region says it uses; a payload is cut out of the file by its span. Both mean the same
bytes: an address that leads into the bytes in use leads to the byte of the file that stands there,
and one that leads past them leads out of the payload, also where the sum wraps.
-/

namespace SharedArchive

namespace Translator

variable {t : Translator} {r : Region} {address distance : UInt64}

theorem regionOffset?_eq_some_iff_sub :
    t.regionOffset? r address = some distance ↔
      address - t.regionBase r = distance ∧ distance < r.used := by
  rw [regionOffset?]
  constructor
  · intro h
    split at h
    next hused =>
      have hd := Option.some.inj h
      exact ⟨hd, hd ▸ hused⟩
    next => cases h
  · intro h
    obtain ⟨hd, hused⟩ := h
    subst hd
    exact if_pos hused

theorem regionOffset?_eq_some_iff :
    t.regionOffset? r address = some distance ↔
      distance < r.used ∧ address = t.toAddress r (r.fileOffset + distance) := by
  have haddress : address - t.regionBase r = distance ↔
      address = t.toAddress r (r.fileOffset + distance) := by
    rw [toAddress]
    constructor
    · intro h
      grind
    · intro h
      grind
  rw [regionOffset?_eq_some_iff_sub, haddress, and_comm]

theorem resolve?_of_regionOffset? (h : t.regionOffset? r address = some distance) :
    t.resolve? r address = some (r.fileOffset + distance) := by
  rw [resolve?, h]
  rfl

end Translator

namespace Payload

def LiesIn (p : Payload) (source : ByteArray) : Prop :=
  ∀ n < p.bytes.size, p.region.fileOffset.toNat + n < source.size ∧
    p.bytes[n]? = source[p.region.fileOffset.toNat + n]?

theorem extract_getElem? {source : ByteArray} {start stop n : Nat}
    (h : n < (source.extract start stop).size) :
    start + n < source.size ∧ (source.extract start stop)[n]? = source[start + n]? := by
  have hsource : start + n < source.size := by
    rw [ByteArray.size_extract] at h
    omega
  refine ⟨hsource, ?_⟩
  rw [getElem?_pos _ n h, getElem?_pos source _ hsource, ByteArray.getElem_extract]

theorem ofSource_liesIn (regions : RegionTable) (source : ByteArray) (k : RegionKind) :
    (ofSource regions source k).LiesIn source := by
  intro n hn
  by_cases hk : k = .code
  · subst hk
    exact absurd hn (Nat.not_lt_zero n)
  · have hbytes : (ofSource regions source k).bytes = source.extract
        (regions.get k).fileOffset.toNat
        (Span.stopAfter regions.offsets source.size (regions.get k).fileOffset.toNat) :=
      spanBytes_of_ne_code regions source hk
    rw [hbytes] at hn ⊢
    exact extract_getElem? hn

variable {p : Payload} {source : ByteArray} {distance : UInt64}

theorem usedBytes_getElem? {n : Nat} (h : n < p.usedSize) :
    n < p.bytes.size ∧ p.usedBytes[n]? = p.bytes[n]? := by
  rw [← usedBytes_size] at h
  have hbyte := extract_getElem? h
  rw [Nat.zero_add] at hbyte
  exact hbyte

/-- Past the bytes in use, but not past what the region says it uses, there is nothing more of the
payload, and the sum wraps to before it if it wraps. -/
theorem not_covers_add (hused : distance < p.region.used)
    (hpast : p.usedSize ≤ distance.toNat) :
    ¬ p.Covers (p.region.fileOffset + distance).toNat := by
  have hoffset := p.region.fileOffset.toNat_lt
  have hdistance := distance.toNat_lt
  rw [UInt64.lt_iff_toNat_lt] at hused
  rw [usedSize] at hpast
  rw [Covers, UInt64.toNat_add]
  omega

theorem LiesIn.add_distance (h : p.LiesIn source) (hsize : source.size ≤ 2 ^ 64)
    (hused : distance < p.region.used) :
    if distance.toNat < p.usedSize then
      (p.region.fileOffset + distance).toNat = p.region.fileOffset.toNat + distance.toNat ∧
        (p.region.fileOffset + distance).toNat < source.size ∧
        p.usedBytes[distance.toNat]? = source[(p.region.fileOffset + distance).toNat]?
    else ¬ p.Covers (p.region.fileOffset + distance).toNat := by
  split_ifs with hin
  · obtain ⟨hbytes, hbyte⟩ := usedBytes_getElem? hin
    obtain ⟨hsource, hspan⟩ := h distance.toNat hbytes
    have hsum : (p.region.fileOffset + distance).toNat =
        p.region.fileOffset.toNat + distance.toNat := by
      rw [UInt64.toNat_add, Nat.mod_eq_of_lt (hsource.trans_le hsize)]
    rw [hsum]
    exact ⟨rfl, hsource, hbyte.trans hspan⟩
  · exact not_covers_add hused (Nat.le_of_not_lt hin)

end Payload

namespace Archive

/-- Resolving addresses and loading payloads agree on every byte of every region, in a file of a
size that an offset can tell. -/
theorem resolve_agrees (a : Archive) (hsize : a.source.size ≤ 2 ^ 64) :
    ∃ ps, a.payloads.result = .ok ps ∧ ∀ k, (ps.get k).region = a.regions.get k ∧
      (∀ address distance,
        a.translator.regionOffset? (ps.get k).region address = some distance →
        ∃ f, a.translator.resolve? (ps.get k).region address = some f ∧
          if distance.toNat < (ps.get k).usedBytes.size then
            f.toNat = (ps.get k).region.fileOffset.toNat + distance.toNat ∧
              f.toNat < a.source.size ∧
              (ps.get k).usedBytes[distance.toNat]? = a.source[f.toNat]?
          else ¬ (ps.get k).Covers f.toNat) ∧
      ∀ n < (ps.get k).usedBytes.size, ∃ distance : UInt64, distance.toNat = n ∧
        ∀ address, a.translator.regionOffset? (ps.get k).region address = some distance ↔
          address = a.translator.toAddress (ps.get k).region
            ((ps.get k).region.fileOffset + distance) := by
  refine ⟨Payload.table a.regions a.source, a.payloads_result, ?_⟩
  intro k
  have hlies : ((Payload.table a.regions a.source).get k).LiesIn a.source := by
    rw [Payload.table_get]
    exact Payload.ofSource_liesIn a.regions a.source k
  have hregion : ((Payload.table a.regions a.source).get k).region = a.regions.get k := by
    rw [Payload.table_get]
    rfl
  -- nothing but these two facts is used of the payload
  generalize (Payload.table a.regions a.source).get k = p at hlies hregion
  simp only [Payload.usedBytes_size]
  refine ⟨hregion, ?_, ?_⟩
  · intro address distance hoffset
    obtain ⟨hused, -⟩ := Translator.regionOffset?_eq_some_iff.1 hoffset
    exact ⟨_, Translator.resolve?_of_regionOffset? hoffset, hlies.add_distance hsize hused⟩
  · intro n hn
    have hused : n < p.region.used.toNat := hn.trans_le (Nat.min_le_left _ _)
    have hdistance : (UInt64.ofNat n).toNat = n :=
      UInt64.toNat_ofNat_of_lt' (hused.trans p.region.used.toNat_lt)
    refine ⟨UInt64.ofNat n, hdistance, ?_⟩
    intro address
    rw [Translator.regionOffset?_eq_some_iff, and_iff_right]
    rw [UInt64.lt_iff_toNat_lt, hdistance]
    exact hused

theorem hello_resolved :
    hello.source.size ≤ 2 ^ 64 ∧ ∃ ps, hello.payloads.result = .ok ps ∧
      (∃ f, hello.translator.resolve? (ps.get .readOnly).region 0x1003 = some f ∧
        (ps.get .readOnly).usedBytes[UInt64.toNat 3]? = hello.source[f.toNat]?) ∧
      ∃ f, hello.translator.resolve? (ps.get .readOnly).region 0x100c = some f ∧
        ¬ (ps.get .readOnly).Covers f.toNat := by
  have hsize : hello.source.size ≤ 2 ^ 64 := by decide +kernel
  obtain ⟨ps, hps, hagree⟩ := resolve_agrees hello hsize
  have htable : Payload.table hello.regions hello.source = ps :=
    Except.ok.inj (hello.payloads_result.symm.trans hps)
  have hused : (ps.get .readOnly).usedBytes.size = 11 := by
    rw [← htable]
    decide +kernel
  obtain ⟨hregion, hresolve, -⟩ := hagree .readOnly
  have hin : hello.translator.regionOffset? (ps.get .readOnly).region 0x1003 = some 3 := by
    rw [hregion]
    decide +kernel
  have hpast : hello.translator.regionOffset? (ps.get .readOnly).region 0x100c = some 12 := by
    rw [hregion]
    decide +kernel
  obtain ⟨f, hf, hbyte⟩ := hresolve _ _ hin
  obtain ⟨g, hg, hout⟩ := hresolve _ _ hpast
  rw [hused, if_pos (by decide)] at hbyte
  rw [hused, if_neg (by decide)] at hout
  exact ⟨hsize, ps, hps, ⟨f, hf, hbyte.2.2⟩, g, hg, hout⟩

end Archive

end SharedArchive
