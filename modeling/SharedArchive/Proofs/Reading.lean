import Mathlib
import SharedArchive.Reader

/-!
Readers that follow a layout. Such a reader takes the fields of its layout in their order, makes a
value of the bytes they cover, and where the source ends inside a field it fails with that field's
numbers and stands at that field's beginning. Readers that follow layouts follow the layouts'
concatenation when one is run after the other, so a record's exact outcome comes from its fields.
-/

namespace SharedArchive

structure Place where
  start : Nat
  field : Field
deriving DecidableEq

namespace Place

def Holds (place : Place) (n : Nat) : Prop :=
  place.start ≤ n ∧ n < place.start + place.field.width

instance (place : Place) (n : Nat) : Decidable (place.Holds n) := by
  unfold Holds
  infer_instance

def shift (n : Nat) (place : Place) : Place := { place with start := n + place.start }

end Place

namespace Layout

def placesFrom : Nat → Layout → List Place
  | _, [] => []
  | start, f :: fs => ⟨start, f⟩ :: placesFrom (start + f.width) fs

def places (l : Layout) : List Place := placesFrom 0 l

theorem placesFrom_append (start : Nat) (l m : Layout) :
    placesFrom start (l ++ m) = placesFrom start l ++ placesFrom (start + l.size) m := by
  induction l generalizing start with
  | nil => rfl
  | cons f fs ih => simp [placesFrom, size, ih, Nat.add_assoc]

theorem placesFrom_add (start n : Nat) (l : Layout) :
    placesFrom (n + start) l = (placesFrom start l).map (Place.shift n) := by
  induction l generalizing start with
  | nil => rfl
  | cons f fs ih => simp [placesFrom, Place.shift, Nat.add_assoc, ih]

theorem places_append (l m : Layout) :
    (l ++ m).places = l.places ++ m.places.map (Place.shift l.size) := by
  have h := placesFrom_add 0 l.size m
  simp only [Nat.add_zero] at h
  rw [places, placesFrom_append, Nat.zero_add, h, places, places]

theorem placesFrom_bounds {start : Nat} {l : Layout} {place : Place}
    (h : place ∈ placesFrom start l) :
    start ≤ place.start ∧ place.start + place.field.width ≤ start + l.size := by
  induction l generalizing start with
  | nil => simp [placesFrom] at h
  | cons f fs ih =>
    simp only [size]
    rcases List.mem_cons.1 h with rfl | ht
    · dsimp only
      omega
    · have hb := ih ht
      omega

theorem placesFrom_covers {start n : Nat} {l : Layout} (h : start ≤ n) (hn : n < start + l.size) :
    ∃ place ∈ placesFrom start l, place.Holds n := by
  induction l generalizing start with
  | nil => simp only [size] at hn; omega
  | cons f fs ih =>
    simp only [size] at hn
    by_cases hf : n < start + f.width
    · exact ⟨⟨start, f⟩, List.mem_cons_self, h, hf⟩
    · have hs : start + f.width ≤ n := by omega
      obtain ⟨place, hp, hh⟩ := ih hs (by omega)
      exact ⟨place, List.mem_cons_of_mem _ hp, hh⟩

theorem placesFrom_unique {start n : Nat} {l : Layout} {a b : Place} (ha : a ∈ placesFrom start l)
    (hb : b ∈ placesFrom start l) (han : a.Holds n) (hbn : b.Holds n) : a = b := by
  induction l generalizing start with
  | nil => simp [placesFrom] at ha
  | cons f fs ih =>
    obtain ⟨ha1, ha2⟩ := han
    obtain ⟨hb1, hb2⟩ := hbn
    rcases List.mem_cons.1 ha with rfl | ha' <;> rcases List.mem_cons.1 hb with rfl | hb'
    · rfl
    · have hlater := (placesFrom_bounds hb').1
      dsimp only at ha2
      omega
    · have hlater := (placesFrom_bounds ha').1
      dsimp only at hb2
      omega
    · exact ih ha' hb'

theorem existsUnique_place {l : Layout} {n : Nat} (h : n < l.size) :
    ∃! place, place ∈ l.places ∧ place.Holds n := by
  have hn : n < 0 + l.size := by omega
  obtain ⟨place, hp, hh⟩ := placesFrom_covers (Nat.zero_le n) hn
  refine ⟨place, ⟨hp, hh⟩, ?_⟩
  rintro other ⟨ho, hoh⟩
  exact placesFrom_unique ho hp hoh hh

end Layout

namespace Reader

section Steps

variable {ε δ α β : Type} {source : ByteArray} {p : Nat}

theorem bind_of_ok {r : Reader ε α} {a : α} (next : α → Reader ε β)
    (h : (r source p).result = .ok a) :
    ((r >>= next) source p).result = (next a source (r source p).position).result ∧
      ((r >>= next) source p).position = (next a source (r source p).position).position := by
  rcases hr : r source p with ⟨result, q, es⟩
  rw [hr] at h
  dsimp only at h
  subst h
  rw [bind_ok hr]
  exact ⟨rfl, rfl⟩

theorem bind_of_error {r : Reader ε α} {e : ε} (next : α → Reader ε β)
    (h : (r source p).result = .error e) :
    ((r >>= next) source p).result = .error e ∧
      ((r >>= next) source p).position = (r source p).position := by
  rcases hr : r source p with ⟨result, q, es⟩
  rw [hr] at h
  dsimp only at h
  subst h
  rw [bind_error hr]
  exact ⟨rfl, rfl⟩

theorem bind_events_of_ok {r : Reader ε α} {a : α} (next : α → Reader ε β)
    (h : (r source p).result = .ok a) :
    ((r >>= next) source p).events =
      (r source p).events ++ (next a source (r source p).position).events := by
  rcases hr : r source p with ⟨result, q, es⟩
  rw [hr] at h
  dsimp only at h
  subst h
  rw [bind_ok hr]

theorem bind_events_of_error {r : Reader ε α} {e : ε} (next : α → Reader ε β)
    (h : (r source p).result = .error e) :
    ((r >>= next) source p).events = (r source p).events := by
  rcases hr : r source p with ⟨result, q, es⟩
  rw [hr] at h
  dsimp only at h
  subst h
  rw [bind_error hr]

theorem emitIf_events (c : Prop) [Decidable c] (e : Event) (r : Reader ε α) :
    ((if c then emit e >>= fun _ => r else r) source p).events =
      (if c then [e] else []) ++ (r source p).events := by
  split_ifs
  · rfl
  · rfl

theorem block_fits {start stop : Nat} (h : start ≤ stop) (hs : stop ≤ source.size) :
    field (.block (stop - start)) source start =
      ⟨.ok (source.extract start stop), stop, []⟩ := by
  have hw : (Field.block (stop - start)).width ≤ source.size - start :=
    Nat.sub_le_sub_right hs start
  have hn : start + (Field.block (stop - start)).width = stop := Nat.add_sub_of_le h
  rw [field_fits hw, hn]
  rfl

/-- The reading after `n` others of the same reader, each begun where the last one stopped. -/
def again (r : Reader ε α) (source : ByteArray) (position : Nat) : Nat → Reading ε α
  | 0 => r source position
  | n + 1 => r source (again r source position n).position

end Steps

/-- `r` follows the layout `l` and makes `value` of what it reads, of which only the bytes that the
layout covers matter. -/
structure Follows {α : Type} (r : Reader Truncated α) (l : Layout)
    (value : ByteArray → Nat → α) : Prop where
  fits : ∀ (source : ByteArray) (p : Nat), l.size ≤ source.size - p →
    (r source p).result = .ok (value source p) ∧ (r source p).position = p + l.size
  truncated : ∀ (source : ByteArray) (p : Nat) (place : Place), place ∈ l.places →
    place.Holds (source.size - p) →
    (r source p).result = .error
        ⟨place.field.width, source.size - p - place.start, p + place.start⟩ ∧
      (r source p).position = p + place.start
  window : ∀ (source source' : ByteArray) (p p' : Nat),
    source.extract p (p + l.size) = source'.extract p' (p' + l.size) →
    value source p = value source' p'

namespace Follows

variable {α β : Type}

theorem pure (a : α) : Follows (Pure.pure a) [] fun _ _ => a where
  fits _ _ _ := ⟨rfl, rfl⟩
  truncated _ _ _ h := by simp [Layout.places, Layout.placesFrom] at h
  window _ _ _ _ _ := rfl

theorem emit (e : Event) : Follows (Reader.emit e) [] fun _ _ => () where
  fits _ _ _ := ⟨rfl, rfl⟩
  truncated _ _ _ h := by simp [Layout.places, Layout.placesFrom] at h
  window _ _ _ _ _ := rfl

theorem bindSize {next : Nat → Reader Truncated α} {l : Layout} {v : ByteArray → Nat → α}
    (h : ∀ n, Follows (next n) l v) : Follows (Reader.size >>= next) l v where
  fits source := (h source.size).fits source
  truncated source := (h source.size).truncated source
  window := (h 0).window

theorem field (f : Field) :
    Follows (Reader.field f) [f] fun source p => f.decode (source.extract p (p + f.width)) where
  fits source p h := by
    have hf : f.width ≤ source.size - p := by simpa [Layout.size] using h
    rw [field_fits hf]
    exact ⟨rfl, rfl⟩
  truncated source p place hp hh := by
    have he : place = ⟨0, f⟩ := by simpa [Layout.places, Layout.placesFrom] using hp
    subst he
    have ht : source.size - p < f.width := by simpa using hh.2
    rw [field_truncated ht]
    exact ⟨rfl, rfl⟩
  window _ _ _ _ h := congrArg f.decode h

theorem bind {r : Reader Truncated α} {next : α → Reader Truncated β} {l m : Layout}
    {v : ByteArray → Nat → α} {w : α → ByteArray → Nat → β} (hr : Follows r l v)
    (hn : ∀ a, Follows (next a) m (w a)) :
    Follows (r >>= next) (l ++ m) fun source p => w (v source p) source (p + l.size) where
  fits source p h := by
    rw [Layout.size_append] at h
    obtain ⟨hv, hp⟩ := hr.fits source p (by omega)
    obtain ⟨hb, hq⟩ := bind_of_ok next hv
    obtain ⟨hw, he⟩ := (hn (v source p)).fits source (p + l.size) (by omega)
    rw [hp] at hb hq
    rw [hb, hq, hw, he, Layout.size_append]
    exact ⟨rfl, Nat.add_assoc _ _ _⟩
  truncated source p place hm hh := by
    rw [Layout.places_append, List.mem_append] at hm
    -- the source ends in a field of the first layout, or the first is read whole
    rcases hm with hm | hm
    · obtain ⟨he, hp⟩ := hr.truncated source p place hm hh
      obtain ⟨hb, hq⟩ := bind_of_error next he
      exact ⟨hb, hq.trans hp⟩
    · obtain ⟨later, hl, rfl⟩ := List.mem_map.1 hm
      simp only [Place.Holds, Place.shift] at hh
      obtain ⟨hv, hp⟩ := hr.fits source p (by omega)
      obtain ⟨hb, hq⟩ := bind_of_ok next hv
      have hlater : later.Holds (source.size - (p + l.size)) := by
        constructor <;> omega
      obtain ⟨he, hpos⟩ := (hn (v source p)).truncated source (p + l.size) later hl hlater
      have hrest : source.size - (p + l.size) - later.start =
          source.size - p - (l.size + later.start) := by omega
      rw [hp] at hb hq
      rw [hb, hq, he, hpos, hrest, Nat.add_assoc]
      exact ⟨rfl, rfl⟩
  window source source' p p' h := by
    rw [Layout.size_append] at h
    have hfirst := congrArg (fun b => b.extract 0 l.size) h
    have hlater := congrArg (fun b => b.extract l.size (l.size + m.size)) h
    simp only [ByteArray.extract_extract, Nat.add_zero, Nat.min_self] at hfirst hlater
    rw [Nat.min_eq_left (by omega), Nat.min_eq_left (by omega)] at hfirst
    have hv := hr.window source source' p p' hfirst
    simp only [← Nat.add_assoc] at hlater
    rw [hv]
    exact (hn _).window source source' _ _ hlater

theorem emitIf (c : Prop) [Decidable c] (e : Event) {r : Reader Truncated α} {l : Layout}
    {v : ByteArray → Nat → α} (h : Follows r l v) :
    Follows (if c then Reader.emit e >>= fun _ => r else r) l v := by
  split_ifs
  · exact (emit e).bind fun _ => h
  · exact h

theorem congr {r : Reader Truncated α} {l m : Layout} {v w : ByteArray → Nat → α}
    (h : Follows r l v) (hl : l = m) (hv : v = w) : Follows r m w := by
  subst hl hv
  exact h

theorem values (l : Layout) : Follows (Reader.values l) l l.decode := by
  induction l with
  | nil => exact pure ()
  | cons f fs ih =>
    have h := (field f).bind fun v => ih.bind fun vs => pure (v, vs)
    exact h.congr (by simp) rfl

theorem record (f : Format α) : Follows (Reader.record f) f.layout f.decode := by
  have h := (values f.layout).bind fun vs => pure (f.build vs)
  exact h.congr (List.append_nil _) rfl

theorem ok_iff {r : Reader Truncated α} {l : Layout} {v : ByteArray → Nat → α} (h : Follows r l v)
    {source : ByteArray} {p : Nat} {a : α} :
    (r source p).result = .ok a ↔ l.size ≤ source.size - p ∧ a = v source p := by
  by_cases hs : l.size ≤ source.size - p
  · rw [(h.fits source p hs).1, and_iff_right hs, Except.ok.injEq, eq_comm]
  · obtain ⟨place, ⟨hp, hh⟩, -⟩ := Layout.existsUnique_place (Nat.lt_of_not_le hs)
    rw [(h.truncated source p place hp hh).1]
    simp [hs]

end Follows

end Reader

end SharedArchive
