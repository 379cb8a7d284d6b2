import Mathlib
import SharedArchive.Proofs.Payloads

/-!
How the payloads share the file. A byte of the file lies in the payloads of the regions that begin
last before it and in no other, the code region apart; so payloads of regions that begin apart have
no byte in common, and laid one after the other in the order of their beginnings the payloads are
the file from the first of these beginnings on.
-/

namespace SharedArchive

def joined (pieces : List ByteArray) : ByteArray := pieces.foldr (· ++ ·) .empty

namespace Span

def starts (offsets : List Nat) (fileSize : Nat) : List Nat :=
  (offsets.filter (· < fileSize)).toFinset.sort (· ≤ ·)

theorem mem_starts {offsets : List Nat} {fileSize o : Nat} :
    o ∈ starts offsets fileSize ↔ o ∈ offsets ∧ o < fileSize := by
  simp [starts]

theorem starts_increasing (offsets : List Nat) (fileSize : Nat) :
    (starts offsets fileSize).Pairwise (· < ·) :=
  (Finset.sortedLT_sort _).pairwise

theorem stopAfter_eq_next {offsets later : List Nat} {fileSize start : Nat}
    (hp : later.Pairwise (· < ·))
    (hm : ∀ o, o ∈ later ↔ o ∈ offsets ∧ start < o ∧ o < fileSize) :
    stopAfter offsets fileSize start = later.head?.getD fileSize := by
  apply (stopAfter_isLeast offsets fileSize start).unique
  cases later with
  | nil =>
    refine ⟨Or.inl rfl, ?_⟩
    intro o ho
    rcases ho with he | hin
    · exact he.ge
    · exact absurd ((hm o).2 hin) List.not_mem_nil
  | cons next rest =>
    have hnext := (hm next).1 List.mem_cons_self
    refine ⟨Or.inr hnext, ?_⟩
    intro o ho
    rcases ho with he | hin
    · rw [he]
      exact hnext.2.2.le
    · rcases List.mem_cons.1 ((hm o).2 hin) with he | hrest
      · exact he.ge
      · exact ((List.pairwise_cons.1 hp).1 o hrest).le

theorem joined_spans {offsets starts : List Nat} {source : ByteArray} {low : Nat}
    (hp : starts.Pairwise (· < ·))
    (hm : ∀ o, o ∈ starts ↔ o ∈ offsets ∧ low ≤ o ∧ o < source.size) :
    joined (starts.map fun o => source.extract o (stopAfter offsets source.size o)) =
      source.extract (starts.head?.getD source.size) source.size := by
  -- what is left begins at a later offset, and holds all that begin from there on
  induction starts generalizing low with
  | nil => exact ByteArray.extract_same.symm
  | cons start later ih =>
    obtain ⟨hfirst, hlater⟩ := List.pairwise_cons.1 hp
    obtain ⟨-, hlow, hin⟩ := (hm start).1 List.mem_cons_self
    have hrest (o : Nat) : o ∈ later ↔ o ∈ offsets ∧ start < o ∧ o < source.size := by
      constructor
      · intro ho
        obtain ⟨hmem, -, hlt⟩ := (hm o).1 (List.mem_cons_of_mem start ho)
        exact ⟨hmem, hfirst o ho, hlt⟩
      · intro ho
        obtain ⟨hmem, hgt, hlt⟩ := ho
        rcases List.mem_cons.1 ((hm o).2 ⟨hmem, by omega, hlt⟩) with he | hl
        · omega
        · exact hl
    have hnext := stopAfter_eq_next hlater hrest
    have hbounds := stopAfter_bounds offsets hin
    have hjoined := ih hlater hrest
    rw [← hnext] at hjoined
    change source.extract start (stopAfter offsets source.size start) ++ joined _ = _
    rw [hjoined, ByteArray.extract_append_extract, Nat.min_eq_left hbounds.1.le,
      Nat.max_eq_right hbounds.2]
    rfl

end Span

namespace Payload

def Covers (p : Payload) (n : Nat) : Prop :=
  p.region.fileOffset.toNat ≤ n ∧ n < p.region.fileOffset.toNat + p.bytes.size

instance (p : Payload) (n : Nat) : Decidable (p.Covers n) :=
  inferInstanceAs (Decidable (_ ∧ _))

/-- The piece of the file that begins at `start`: a payload, or the span there where the code
region alone begins. -/
def pieceAt (regions : RegionTable) (source : ByteArray) (ps : Table Payload) (start : Nat) :
    ByteArray :=
  match ps.toList.find? fun p => p.kind ≠ .code ∧ p.region.fileOffset.toNat = start with
  | some p => p.bytes
  | none =>
    match Span.ofStart? regions.offsets source.size start with
    | some span => source.extract span.start span.stop
    | none => .empty

variable (regions : RegionTable) (source : ByteArray)

theorem covers_iff (k : RegionKind) (n : Nat) :
    (ofSource regions source k).Covers n ↔ k ≠ .code ∧ n < source.size ∧
      IsGreatest {o | o ∈ regions.offsets ∧ o ≤ n} (regions.get k).fileOffset.toNat := by
  by_cases hk : k = .code
  · subst hk
    constructor
    · intro h
      obtain ⟨hge, hlt⟩ := h
      exact absurd hlt (Nat.not_lt.2 hge)
    · intro h
      exact absurd rfl h.1
  · have hstop := Span.stopAfter_le regions.offsets source.size (regions.get k).fileOffset.toNat
    have hmem : (regions.get k).fileOffset.toNat ∈ regions.offsets :=
      List.mem_map_of_mem (regions.get_mem k)
    have hcovers : (ofSource regions source k).Covers n ↔
        (regions.get k).fileOffset.toNat ≤ n ∧
          n < Span.stopAfter regions.offsets source.size (regions.get k).fileOffset.toNat := by
      simp only [Covers, ofSource, spanBytes_of_ne_code regions source hk, ByteArray.size_extract]
      omega
    rw [hcovers, Span.lt_stopAfter_iff]
    constructor
    · intro h
      obtain ⟨hge, hlt, hnone⟩ := h
      refine ⟨hk, hlt, ⟨hmem, hge⟩, ?_⟩
      intro o ho
      by_contra hgt
      have hlater := hnone o ho.1 (Nat.lt_of_not_le hgt)
      exact absurd ho.2 (Nat.not_le.2 hlater)
    · intro h
      obtain ⟨-, hlt, hstart, hgreatest⟩ := h
      refine ⟨hstart.2, hlt, ?_⟩
      intro o ho hgt
      by_contra hle
      exact absurd (hgreatest ⟨ho, Nat.le_of_not_lt hle⟩) (Nat.not_le.2 hgt)

theorem bytes_eq_of_offset_eq {j k : RegionKind} (hj : j ≠ .code) (hk : k ≠ .code)
    (h : (regions.get j).fileOffset = (regions.get k).fileOffset) :
    spanBytes regions source j = spanBytes regions source k := by
  rw [spanBytes_of_ne_code regions source hj, spanBytes_of_ne_code regions source hk, h]

theorem pieceAt_table {start : Nat} (h : start < source.size) :
    pieceAt regions source (table regions source) start =
      source.extract start (Span.stopAfter regions.offsets source.size start) := by
  rw [pieceAt]
  split
  next p hp =>
    have hstart := List.find?_some hp
    have hin := List.mem_of_find?_eq_some hp
    rw [Table.toList_get, List.mem_map] at hin
    obtain ⟨k, -, hk⟩ := hin
    rw [table_get] at hk
    subst hk
    obtain ⟨hcode, hoffset⟩ := of_decide_eq_true hstart
    subst hoffset
    exact spanBytes_of_ne_code regions source hcode
  next =>
    rw [Span.ofStart?_inside h]

theorem joined_pieces :
    joined ((Span.starts regions.offsets source.size).map
        (pieceAt regions source (table regions source))) =
      source.extract ((Span.starts regions.offsets source.size).head?.getD source.size)
        source.size := by
  have hpieces : (Span.starts regions.offsets source.size).map
      (pieceAt regions source (table regions source)) =
      (Span.starts regions.offsets source.size).map fun o =>
        source.extract o (Span.stopAfter regions.offsets source.size o) := by
    apply List.map_congr_left
    intro o ho
    exact pieceAt_table regions source (Span.mem_starts.1 ho).2
  have hm (o : Nat) : o ∈ Span.starts regions.offsets source.size ↔
      o ∈ regions.offsets ∧ 0 ≤ o ∧ o < source.size := by
    simp [Span.mem_starts]
  rw [hpieces, Span.joined_spans (Span.starts_increasing _ _) hm]

/-- The payloads share the file out: each byte goes to the regions that begin last before it, and
nothing is lost from the first beginning on. -/
theorem payloads_partition (position : Nat) :
    ∃ ps, (readAll regions source position).result = .ok ps ∧
      (∀ k n, (ps.get k).Covers n ↔ k ≠ .code ∧ n < source.size ∧
        IsGreatest {o | o ∈ regions.offsets ∧ o ≤ n} (regions.get k).fileOffset.toNat) ∧
      (∀ j k, (regions.get j).fileOffset ≠ (regions.get k).fileOffset →
        ∀ n, ¬ ((ps.get j).Covers n ∧ (ps.get k).Covers n)) ∧
      (∀ j k, j ≠ .code → k ≠ .code →
        (regions.get j).fileOffset = (regions.get k).fileOffset →
        (ps.get j).bytes = (ps.get k).bytes) ∧
      (ps.get .code).bytes = .empty ∧
      ∃ starts : List Nat, starts.Pairwise (· < ·) ∧
        (∀ o, o ∈ starts ↔ o ∈ regions.offsets ∧ o < source.size) ∧
        joined (starts.map (pieceAt regions source ps)) =
          source.extract (starts.head?.getD source.size) source.size := by
  refine ⟨table regions source, (readAll_reading regions source position).1, ?_, ?_, ?_, rfl,
    Span.starts regions.offsets source.size, Span.starts_increasing _ _,
    fun o => Span.mem_starts, joined_pieces regions source⟩
  · intro k n
    rw [table_get]
    exact covers_iff regions source k n
  · intro j k hne n hboth
    rw [table_get, table_get, covers_iff, covers_iff] at hboth
    obtain ⟨⟨-, -, hj⟩, -, -, hk⟩ := hboth
    exact hne (UInt64.toNat_inj.1 (hj.unique hk))
  · intro j k hj hk heq
    rw [table_get, table_get]
    exact bytes_eq_of_offset_eq regions source hj hk heq

def twins : RegionTable where
  readWrite := { fileOffset := 8 }
  readOnly := { fileOffset := 8 }
  bitmap := { fileOffset := 12 }
  heap := { fileOffset := 1000 }
  code := { fileOffset := 0 }

def sixteenBytes : ByteArray := ⟨((List.range 16).map UInt8.ofNat).toArray⟩

theorem twins_share_bytes :
    (twins.get .readWrite).fileOffset = (twins.get .readOnly).fileOffset ∧
      (twins.get .readWrite).fileOffset ≠ (twins.get .bitmap).fileOffset ∧
      ∃ ps, (readAll twins sixteenBytes 3).result = .ok ps ∧
        (ps.get .readWrite).bytes = (ps.get .readOnly).bytes ∧
        (ps.get .readWrite).Covers 11 ∧ ¬ (ps.get .bitmap).Covers 11 := by
  obtain ⟨ps, hread, hcovers, hdisjoint, htwin, -⟩ := payloads_partition twins sixteenBytes 3
  have hne : (twins.get .readWrite).fileOffset ≠ (twins.get .bitmap).fileOffset := by decide
  have hlast : IsGreatest {o | o ∈ twins.offsets ∧ o ≤ 11}
      (twins.get .readWrite).fileOffset.toNat := by
    refine ⟨by decide, ?_⟩
    intro o ho
    have hoffsets : twins.offsets = [8, 8, 12, 1000, 0] := by decide
    obtain ⟨hmem, hle⟩ := ho
    change o ≤ 8
    rw [hoffsets] at hmem
    simp at hmem
    omega
  have hcovered := (hcovers .readWrite 11).2 ⟨by decide, by decide, hlast⟩
  refine ⟨rfl, hne, ps, hread, htwin .readWrite .readOnly (by decide) (by decide) rfl, hcovered, ?_⟩
  intro hboth
  exact hdisjoint .readWrite .bitmap hne 11 ⟨hcovered, hboth⟩

end Payload

end SharedArchive
