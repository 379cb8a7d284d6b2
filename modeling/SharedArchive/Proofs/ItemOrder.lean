import Mathlib
import SharedArchive.Proofs.Items
import SharedArchive.Proofs.Transcripts

/-!
A command line says the same in whatever order its items come and however they are spelled. The
value of an option is attached to its name or stands behind it, and flags to be more verbose come
together or apart, in short or spelled out. What an accepted line asks for is counted off its
items: the one file, the options' values, the flags, and how verbose to be.
-/

namespace SharedArchive.Command

/-- The same things said in another order or in another spelling. -/
inductive Rewords : List Item → List Item → Prop
  | reordered {items items' : List Item} (h : items.Perm items') : Rewords items items'
  | attached (o : ValueOption) (v : Numeral o) : Rewords [.separate o v] [.attached o v]
  | together (m n : Nat) : Rewords [.verbose m, .verbose n] [.verbose (m + n + 1)]
  | spelledOut (more : Nat) :
    Rewords [.verbose more] (List.replicate (more + 1) (.flag .verbose))
  | within {items items' : List Item} (before after : List Item) (h : Rewords items items') :
    Rewords (before ++ items ++ after) (before ++ items' ++ after)
  | symm {items items' : List Item} (h : Rewords items items') : Rewords items' items
  | trans {items items' items'' : List Item} (h : Rewords items items')
    (h' : Rewords items' items'') : Rewords items items''

theorem Item.settings_verbose (more : Nat) :
    (Item.verbose more).settings = List.replicate (more + 1) (.flag .verbose) :=
  List.replicate_succ.symm

theorem Item.settings_replicate (n : Nat) :
    (List.replicate n (Item.flag .verbose)).flatMap Item.settings =
      List.replicate n (.flag .verbose) := by
  induction n with
  | zero => rfl
  | succ n ih => exact congrArg (Setting.flag .verbose :: ·) ih

theorem Rewords.settings_perm {items items' : List Item} (h : Rewords items items') :
    (items.flatMap Item.settings).Perm (items'.flatMap Item.settings) := by
  induction h with
  | reordered h => exact h.flatMap_right _
  | attached o v => exact .refl _
  | together m n =>
    simp only [List.flatMap_cons, List.flatMap_nil, List.append_nil, Item.settings_verbose,
      List.replicate_append_replicate]
    rw [show m + 1 + (n + 1) = m + n + 1 + 1 by omega]
  | spelledOut more =>
    simp only [List.flatMap_cons, List.flatMap_nil, List.append_nil, Item.settings_verbose]
    rw [Item.settings_replicate]
  | within before after h ih =>
    simp only [List.flatMap_append]
    exact (ih.append_left _).append_right _
  | symm h ih => exact ih.symm
  | trans h h' ih ih' => exact ih.trans ih'

namespace Flag

variable {p : Progress} {f f' : Flag}

def count (p : Progress) : Flag → Nat
  | regions => p.regions.toNat
  | symbols => p.symbols.toNat
  | verbose => p.verbosity
  | help | version => 0

theorem count_give (h : f.isFree p = true) :
    f.count (f.give p) = min maxVerbosity (f.count p + 1) := by
  cases f with
  | regions | symbols =>
    rw [isFree, Bool.not_eq_true'] at h
    rw [count, count, h]
    rfl
  | verbose => rfl
  | help | version => cases h

theorem count_give_of_ne (h : f' ≠ f) : f.count (f'.give p) = f.count p := by
  cases f <;> cases f' <;> first | rfl | exact absurd rfl h

end Flag

namespace ValueOption

variable {p : Progress} {n : Nat} {o o' : ValueOption}

def value? (p : Progress) : ValueOption → Option Nat
  | magic => p.magic.map UInt32.toNat
  | pattern => p.pattern.map UInt64.toNat

theorem value?_eq_none (h : o.isGiven p = false) : o.value? p = none := by
  cases o <;> simpa [isGiven, value?] using h

theorem value?_give (hn : n < o.limit) : o.value? (o.give p n) = some n := by
  cases o with
  | magic => exact congrArg some (UInt32.toNat_ofNat_of_lt' hn)
  | pattern => exact congrArg some (UInt64.toNat_ofNat_of_lt' hn)

theorem value?_give_of_ne (h : o' ≠ o) : o.value? (o'.give p n) = o.value? p := by
  cases o <;> cases o' <;> first | rfl | exact absurd rfl h

end ValueOption

namespace Setting

def paths : Setting → List String
  | file path => [path]
  | _ => []

def values (o : ValueOption) : Setting → List Nat
  | option o' n => if o' = o then [n] else []
  | _ => []

def times (f : Flag) : Setting → Nat
  | flag f' => if f' = f then 1 else 0
  | _ => 0

variable {p q : Progress} {l : List Setting}

theorem giveAll_flatMap {γ : Type} (told : Progress → List γ) (part : Setting → List γ)
    (hgive : ∀ a ∈ l, ∀ p, a.isFree p = true → told (a.give p) = told p ++ part a)
    (h : giveAll p l = some q) : told q = told p ++ l.flatMap part := by
  induction l generalizing p with
  | nil =>
    cases h
    exact (List.append_nil _).symm
  | cons a rest ih =>
    rw [giveAll] at h
    split_ifs at h with ha
    have hrest := ih (fun b hb => hgive b (List.mem_cons_of_mem a hb)) h
    rw [hrest, hgive a List.mem_cons_self p ha, List.flatMap_cons, List.append_assoc]

theorem giveAll_paths (h : giveAll p l = some q) :
    q.file.toList = p.file.toList ++ l.flatMap paths := by
  refine giveAll_flatMap (·.file.toList) paths (fun a _ p ha => ?_) h
  cases a with
  | file path =>
    rw [isFree, Option.isNone_iff_eq_none] at ha
    simp [give, paths, ha]
  | option o n => cases o <;> simp [give, paths, ValueOption.give]
  | flag f => cases f <;> simp [give, paths, Flag.give]

theorem giveAll_values (o : ValueOption) (hl : ∀ o' n, .option o' n ∈ l → n < o'.limit)
    (h : giveAll p l = some q) :
    (o.value? q).toList = (o.value? p).toList ++ l.flatMap (values o) := by
  refine giveAll_flatMap (fun p => (o.value? p).toList) (values o) (fun a hmem p ha => ?_) h
  cases a with
  | file path => cases o <;> simp [give, values, ValueOption.value?]
  | option o' n =>
    rw [give, values]
    split_ifs with ho
    · subst ho
      rw [isFree, Bool.not_eq_true'] at ha
      rw [ValueOption.value?_give (hl o' n hmem), ValueOption.value?_eq_none ha]
      rfl
    · rw [ValueOption.value?_give_of_ne ho, List.append_nil]
  | flag f => cases f <;> cases o <;> simp [give, values, Flag.give, ValueOption.value?]

theorem count_give {a : Setting} {f : Flag} (ha : a.isFree p = true)
    (hp : f.count p ≤ maxVerbosity) :
    f.count (a.give p) = min maxVerbosity (f.count p + a.times f) := by
  have hsame : min maxVerbosity (f.count p + 0) = f.count p := Nat.min_eq_right hp
  cases a with
  | file path => exact hsame.symm
  | option o n => cases o <;> exact hsame.symm
  | flag f' =>
    rw [give, times]
    split_ifs with hf
    · subst hf
      exact Flag.count_give ha
    · rw [hsame, Flag.count_give_of_ne hf]

theorem giveAll_times (f : Flag) (hp : f.count p ≤ maxVerbosity) (h : giveAll p l = some q) :
    f.count q = min maxVerbosity (f.count p + (l.map (times f)).sum) := by
  induction l generalizing p with
  | nil =>
    cases h
    exact (Nat.min_eq_right hp).symm
  | cons a rest ih =>
    rw [giveAll] at h
    split_ifs at h with ha
    have hgive := count_give ha hp
    have hrest := ih (hgive.trans_le (Nat.min_le_left _ _)) h
    rw [hrest, hgive, List.map_cons, List.sum_cons]
    omega

end Setting

namespace Item

def paths : Item → List String
  | file path _ _ => [path]
  | _ => []

def values (o : ValueOption) : Item → List Nat
  | attached o' v | separate o' v => if o' = o then [v.value] else []
  | _ => []

def times (f : Flag) : Item → Nat
  | flag f' => if f' = f then 1 else 0
  | verbose more => if f = .verbose then more + 1 else 0
  | _ => 0

theorem settings_paths (i : Item) : i.settings.flatMap Setting.paths = i.paths := by
  cases i with
  | verbose more => simp [settings_verbose, paths, Setting.paths]
  | _ => rfl

theorem settings_values (o : ValueOption) (i : Item) :
    i.settings.flatMap (Setting.values o) = i.values o := by
  cases i with
  | verbose more => simp [settings_verbose, values, Setting.values]
  | attached o' v | separate o' v => exact List.append_nil _
  | _ => rfl

theorem settings_times (f : Flag) (i : Item) :
    (i.settings.map (Setting.times f)).sum = i.times f := by
  cases i with
  | verbose more =>
    simp [settings_verbose, times, Setting.times, eq_comm]
  | _ => rfl

theorem limit_of_mem_settings {items : List Item} {o : ValueOption} {n : Nat}
    (h : .option o n ∈ items.flatMap Item.settings) : n < o.limit := by
  obtain ⟨i, -, hi⟩ := List.mem_flatMap.1 h
  have hread (v : Numeral o) : v.value < o.limit :=
    Text.Hex.read_lt (by cases o <;> decide) v.reads
  cases i with
  | attached o' v | separate o' v =>
    rw [settings, List.mem_singleton] at hi
    cases hi
    exact hread v
  | verbose more =>
    rw [settings_verbose] at hi
    cases List.eq_of_mem_replicate hi
  | _ => simp [settings] at hi

end Item

section Requests

variable {r : Request} {items : List Item}

theorem ofArguments_all_items :
    Request.ofArguments (items.flatMap Item.arguments) = .ok r ↔
      ∃ s, Setting.giveAll {} (items.flatMap Item.settings) = some s ∧
        Request.ofProgress s = .ok r := by
  have h := @ofArguments_items r [] items
  rw [List.append_nil] at h
  rw [h]
  refine exists_congr fun s => and_congr_right fun hs => ?_
  have hsettle : s.acceptAll [] = .ok s :=
    Progress.settle_of_unsettled (Setting.giveAll_rest hs).1
  rw [hsettle]
  simp

theorem ofArguments_rewords {items' : List Item} (h : Rewords items items') :
    Request.ofArguments (items.flatMap Item.arguments) = .ok r ↔
      Request.ofArguments (items'.flatMap Item.arguments) = .ok r := by
  rw [ofArguments_all_items, ofArguments_all_items, Setting.giveAll_perm h.settings_perm]

theorem ofProgress_fields {s : Progress} (h : Request.ofProgress s = .ok r) :
    s.file = some r.file ∧ s.magic = r.magic ∧ s.pattern = r.pattern ∧ s.regions = r.regions ∧
      s.symbols = r.symbols ∧ s.verbosity = r.verbosity := by
  rw [Request.ofProgress] at h
  split at h
  · cases h
  next path hfile =>
    split_ifs at h
    cases h
    exact ⟨hfile, rfl, rfl, rfl, rfl, rfl⟩

theorem settings_sum (f : Flag) (items : List Item) :
    ((items.flatMap Item.settings).map (Setting.times f)).sum = (items.map (Item.times f)).sum := by
  induction items with
  | nil => rfl
  | cons i items ih =>
    rw [List.flatMap_cons, List.map_append, List.sum_append, Item.settings_times, ih,
      List.map_cons, List.sum_cons]

theorem counted_of_accepted (h : Request.ofArguments (items.flatMap Item.arguments) = .ok r) :
    items.flatMap Item.paths = [r.file] ∧
      items.flatMap (Item.values .magic) = (r.magic.map UInt32.toNat).toList ∧
      items.flatMap (Item.values .pattern) = (r.pattern.map UInt64.toNat).toList ∧
      (items.map (Item.times .regions)).sum = r.regions.toNat ∧
      (items.map (Item.times .symbols)).sum = r.symbols.toNat ∧
      r.verbosity = min maxVerbosity (items.map (Item.times .verbose)).sum := by
  obtain ⟨s, hs, hr⟩ := ofArguments_all_items.1 h
  obtain ⟨hfile, hmagic, hpattern, hregions, hsymbols, hverbosity⟩ := ofProgress_fields hr
  have hpaths := Setting.giveAll_paths hs
  have hvalues (o : ValueOption) :=
    Setting.giveAll_values o (fun o' n => Item.limit_of_mem_settings) hs
  have htimes (f : Flag) := Setting.giveAll_times f (by cases f <;> decide) hs
  have hcount (f : Flag) : Flag.count {} f = 0 := by cases f <;> rfl
  simp only [List.flatMap_assoc, Item.settings_paths, hfile] at hpaths
  simp only [List.flatMap_assoc, Item.settings_values] at hvalues
  simp only [settings_sum, hcount, Nat.zero_add] at htimes
  -- a flag that is not given twice never comes to the bound
  have hflag {f : Flag} {b : Bool} (hb : f.count s = b.toNat) :
      (items.map (Item.times f)).sum = b.toNat := by
    have hle := Bool.toNat_le b
    have hmin := (htimes f).symm.trans hb
    rw [maxVerbosity] at hmin
    omega
  refine ⟨hpaths.symm, ?_, ?_, hflag (congrArg Bool.toNat hregions),
    hflag (congrArg Bool.toNat hsymbols), hverbosity.symm.trans (htimes .verbose)⟩
  · rw [← hmagic]
    exact (hvalues .magic).symm
  · rw [← hpattern]
    exact (hvalues .pattern).symm

/-- An accepted line that does not end its options is a row of items. In every other order and in
every other spelling the items are accepted as the same request, and this is counted off them: one
file, the magic and the pattern at most once, either flag at most once, symbols with a pattern only,
and the flags to be more verbose all together, up to a bound. -/
theorem items_unordered {arguments : List String} (hopen : "--" ∉ arguments)
    (h : Request.ofArguments arguments = .ok r) :
    (∃ items : List Item, items.flatMap Item.arguments = arguments) ∧
      ∀ items : List Item, items.flatMap Item.arguments = arguments →
        (∀ items', Rewords items items' →
          Request.ofArguments (items'.flatMap Item.arguments) = .ok r) ∧
        r.verbosity = min 255 (items.map (Item.times .verbose)).sum ∧
        items.flatMap Item.paths = [r.file] ∧
        items.flatMap (Item.values .magic) = (r.magic.map UInt32.toNat).toList ∧
        items.flatMap (Item.values .pattern) = (r.pattern.map UInt64.toNat).toList ∧
        (items.map (Item.times .regions)).sum = r.regions.toNat ∧
        (items.map (Item.times .symbols)).sum = r.symbols.toNat ∧
        ((items.map (Item.times .symbols)).sum ≠ 0 →
          (items.flatMap (Item.values .pattern)).length = 1) := by
  refine ⟨?_, ?_⟩
  · obtain ⟨q, hq, -⟩ := bind_ok_iff.1 h
    obtain ⟨items, tail, hcut, hend⟩ := Progress.exists_items rfl rfl hq
    cases tail with
    | nil => exact ⟨items, (hcut.trans (List.append_nil _)).symm⟩
    | cons a rest =>
      rw [hend a rfl] at hcut
      exact absurd (by simp [hcut]) hopen
  · intro items hcut
    have haccepted : Request.ofArguments (items.flatMap Item.arguments) = .ok r := by
      rw [hcut]
      exact h
    obtain ⟨hpaths, hmagic, hpattern, hregions, hsymbols, hverbosity⟩ :=
      counted_of_accepted haccepted
    refine ⟨fun items' hitems => (ofArguments_rewords hitems).1 haccepted, hverbosity, hpaths,
      hmagic, hpattern, hregions, hsymbols, fun hgiven => ?_⟩
    have hasked : r.symbols = true := by
      by_contra hnot
      rw [hsymbols, Bool.eq_false_iff.2 hnot] at hgiven
      exact hgiven rfl
    obtain ⟨pattern, hsome⟩ := Request.exists_pattern haccepted hasked
    rw [hpattern, hsome]
    rfl

def tersely : List String := ["-vv", "--magic", "0x1", "f", "--symbols", "--pattern=2"]

def atLength : List String := ["--pattern=2", "--symbols", "f", "--magic=0x1", "-v", "--verbose"]

def oneMagic : Numeral .magic := ⟨"0x1", 1, by decide⟩

def sameItems : List Item :=
  [.file "f" (fun _ _ h => nomatch h) (by decide), .flag .symbols,
    .attached .pattern ⟨"2", 2, by decide⟩]

theorem tersely_rewords :
    Rewords (.verbose 1 :: .separate .magic oneMagic :: sameItems)
      (.flag .verbose :: .verbose 0 :: .attached .magic oneMagic :: sameItems).reverse := by
  have hmagic := Rewords.within [.verbose 1] sameItems (.attached .magic oneMagic)
  have hapart :=
    Rewords.within [] (.attached .magic oneMagic :: sameItems) (.symm (.together 0 0))
  have hspelled :=
    Rewords.within [] (.verbose 0 :: .attached .magic oneMagic :: sameItems) (.spelledOut 0)
  exact ((hmagic.trans hapart).trans hspelled).trans (.reordered (List.reverse_perm _).symm)

theorem asked_at_length :
    "--" ∉ tersely ∧ Request.ofArguments tersely = .ok ⟨"f", some 1, false, true, some 2, 2⟩ ∧
      Request.ofArguments atLength = .ok ⟨"f", some 1, false, true, some 2, 2⟩ := by
  have hopen : "--" ∉ tersely := by decide
  have haccepted : Request.ofArguments tersely = .ok ⟨"f", some 1, false, true, some 2, 2⟩ := by
    decide
  obtain ⟨-, hcuts⟩ := items_unordered hopen haccepted
  obtain ⟨hrewords, -⟩ := hcuts (.verbose 1 :: .separate .magic oneMagic :: sameItems) rfl
  exact ⟨hopen, haccepted, hrewords _ tersely_rewords⟩

end Requests

end SharedArchive.Command
