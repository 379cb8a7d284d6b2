import Mathlib
import SharedArchive.Archive
import SharedArchive.Proofs.HeaderReading
import SharedArchive.Proofs.Payloads

/-!
Reading with every step checked. The checked readers do what the plain ones do, but each position
moved, each difference, cast and slice is checked first, and so is what the header reader takes for
granted; where a check fails the reading breaks off. From a source that a machine can hold nothing
breaks: a checked reader gives the plain reader's answer, position and events.
-/

namespace SharedArchive

/-- Why a checked reading stops: a check failed, or the plain reading fails too. -/
inductive Stop (ε : Type)
  | broken
  | failure (e : ε)

def Stop.map {ε δ : Type} (f : ε → δ) : Stop ε → Stop δ
  | broken => broken
  | failure e => failure (f e)

namespace Checked

variable {ε δ α β : Type}

def word? (n : Nat) : Option Nat := if n < UInt64.size then some n else none

def sum? (m n : Nat) : Option Nat := word? (m + n)

def difference? (m n : Nat) : Option Nat := if n ≤ m then some (m - n) else none

def slice? (bytes : ByteArray) (start stop : Nat) : Option ByteArray :=
  if start ≤ stop ∧ stop ≤ bytes.size then some (bytes.extract start stop) else none

/-- The bytes that a read copies. To copy none, no slice is made. -/
def copy? (bytes : ByteArray) (start stop : Nat) : Option ByteArray :=
  if start = stop then some .empty else slice? bytes start stop

def holds? (p : Prop) [Decidable p] : Option Unit := if p then some () else none

def check : Option α → Reader (Stop ε) α
  | some a => pure a
  | none => Reader.fail .broken

def seek (target : Nat) : Reader (Stop ε) Unit := do
  let target ← check (word? target)
  Reader.seek target

def field (f : Field) : Reader (Stop Truncated) f.Value := fun source position =>
  match Buffer.ensure (Cursor.mk source position) f.width with
  | .error t => ⟨.error (.failure t), position, []⟩
  | .ok () =>
    match sum? position f.width with
    | none => ⟨.error .broken, position, []⟩
    | some stop =>
      match copy? source position stop with
      | none => ⟨.error .broken, position, []⟩
      | some raw => ⟨.ok (f.decode raw), stop, []⟩

def values : (l : Layout) → Reader (Stop Truncated) l.Values
  | [] => pure ()
  | f :: fs => do
    let v ← field f
    let vs ← values fs
    return (v, vs)

def record (f : Format α) : Reader (Stop Truncated) α := do
  let vs ← values f.layout
  return f.build vs

open Reader (emit)

def genericHeader : Reader (Stop Truncated) GenericHeader := do
  let h ← record GenericHeader.format
  emit (.genericHeader h)
  return h

def regionEntry (k : RegionKind) : Reader (Stop Truncated) Region := do
  let r ← record Region.format
  emit (.region k r)
  return r

def regionTable : Reader (Stop Truncated) RegionTable := Table.build regionEntry

def heapHeaders : Reader (Stop Truncated) HeapHeaders := do
  let mapped ← record MappedHeapHeader.format
  let streamed ← record StreamedHeapHeader.format
  return { mapped, streamed }

def configuration : Reader (Stop Truncated) Configuration := do
  let machine ← record MachineSettings.format
  let raw ← field Configuration.identityField
  let identity := Text.lossy raw
  emit (.identity (Text.trimNuls identity))
  let image ← record ImageSettings.format
  let heap ← heapHeaders
  emit (.heapHeaders heap)
  let profile ← record ProfileSettings.format
  emit (.profile profile)
  return { machine, image with identity, heap, profile }

/-- The configuration is taken to begin at byte 504. -/
def headerParts : Reader (Stop Truncated) Header := do
  let generic ← genericHeader
  let fileSize ← Reader.size
  if fileSize < generic.headerSize.toNat then
    emit (.headerOversized generic.headerSize fileSize)
  let regions ← regionTable
  let c ← Reader.cursor
  check (holds? (c.position = 504))
  let config ← configuration
  emit (.headerRead generic.version config.requestedBase)
  return { generic, regions, config }

def header (expected : UInt32) : Reader (Stop Failure) Header := do
  seek 0
  let magic ← (Reader.aside (field .u32)).mapError (Stop.map .truncated)
  if magic = expected then headerParts.mapError (Stop.map .truncated)
  else Reader.fail (.failure (.wrongMagic expected magic))

def usedBytes (p : Payload) : Option ByteArray :=
  slice? p.bytes 0 (min p.region.used.toNat p.bytes.size)

def regionBytes (regions : RegionTable) (k : RegionKind) (r : Region) :
    Reader (Stop Truncated) ByteArray := do
  let fileSize ← Reader.size
  match Span.ofStart? regions.offsets fileSize r.fileOffset.toNat with
  | none =>
    emit (.regionAbsent k)
    return .empty
  | some span =>
    let length ← check (difference? span.stop span.start)
    if length < r.used.toNat then
      emit (.regionClipped k r.used length)
    emit (.regionSpan k span.start span.stop)
    seek span.start
    let size ← check (word? length)
    check (holds? (size ≤ fileSize))
    field (.block size)

def payload (regions : RegionTable) (k : RegionKind) : Reader (Stop Truncated) Payload := do
  let region := regions.get k
  let bytes ← match k with
    | .code => pure .empty
    | _ => regionBytes regions k region
  return { kind := k, region, bytes }

def payloads (regions : RegionTable) : Reader (Stop Truncated) (Table Payload) :=
  Reader.aside (Table.build (payload regions))

def baseName (h : GenericHeader) : Reader (Stop Truncated) (Option String) :=
  if h.hasBase then do
    seek h.baseNameOffset.toNat
    let raw ← field (.block h.baseNameSize.toNat)
    return some (Archive.textToNul raw)
  else return none

def symbol (fileOffset : UInt64) : Reader (Stop Truncated) Symbol := Reader.aside do
  seek fileOffset.toNat
  let hashAndRefcount ← field .u32
  let length ← field .u16
  let body ← field (.block length.toNat)
  return { fileOffset, hashAndRefcount, length, body := Text.lossy body }

/-- From the source and the position on, the checked reader does what the plain one does, and it
stops at a position that is a word. -/
structure Agrees (source : ByteArray) (p : Nat) (checked : Reader (Stop ε) α)
    (plain : Reader ε α) : Prop where
  same : checked source p = plain.mapError .failure source p
  within : (plain source p).position < UInt64.size

namespace Agrees

variable {source : ByteArray} {p : Nat}

theorem pure (hp : p < UInt64.size) (a : α) :
    Agrees source p (Pure.pure a : Reader (Stop ε) α) (Pure.pure a) := ⟨rfl, hp⟩

theorem emit (hp : p < UInt64.size) (e : Event) :
    Agrees source p (Reader.emit e : Reader (Stop ε) Unit) (Reader.emit e) := ⟨rfl, hp⟩

theorem emitAll (hp : p < UInt64.size) (es : List Event) :
    Agrees source p (Reader.emitAll es : Reader (Stop ε) Unit) (Reader.emitAll es) := ⟨rfl, hp⟩

theorem size (hp : p < UInt64.size) :
    Agrees source p (Reader.size : Reader (Stop ε) Nat) Reader.size := ⟨rfl, hp⟩

theorem fail (hp : p < UInt64.size) (e : ε) :
    Agrees source p (Reader.fail (.failure e) : Reader (Stop ε) α) (Reader.fail e) := ⟨rfl, hp⟩

theorem check {x : Option α} {a : α} {next : α → Reader (Stop ε) β} {plain : Reader ε β}
    (hx : x = some a) (h : Agrees source p (next a) plain) :
    Agrees source p (check x >>= next) plain := by
  rw [hx]
  exact ⟨h.same, h.within⟩

theorem seek {target : Nat} (ht : target < UInt64.size) :
    Agrees source p (seek target : Reader (Stop ε) Unit) (Reader.seek target) :=
  check (if_pos ht) ⟨rfl, ht⟩

theorem bind {checked : Reader (Stop ε) α} {plain : Reader ε α}
    {next : α → Reader (Stop ε) β} {next' : α → Reader ε β} (h : Agrees source p checked plain)
    (hnext : ∀ a, (plain source p).result = .ok a →
      Agrees source (plain source p).position (next a) (next' a)) :
    Agrees source p (checked >>= next) (plain >>= next') := by
  obtain ⟨hsame, hwithin⟩ := h
  rw [Reader.mapError] at hsame
  rcases hr : plain source p with ⟨result, q, es⟩
  rw [hr] at hsame hwithin hnext
  cases result with
  | error e =>
    have hplain : (plain >>= next') source p = ⟨.error e, q, es⟩ := Reader.bind_error hr
    refine ⟨?_, ?_⟩
    · rw [Reader.mapError, hplain]
      exact Reader.bind_error hsame
    · rw [hplain]
      exact hwithin
  | ok a =>
    obtain ⟨hnextSame, hnextWithin⟩ := hnext a rfl
    have hplain : (plain >>= next') source p = ⟨(next' a source q).result,
        (next' a source q).position, es ++ (next' a source q).events⟩ := Reader.bind_ok hr
    refine ⟨?_, ?_⟩
    · rw [Reader.mapError, hplain, Reader.bind_ok hsame, hnextSame]
      rfl
    · rw [hplain]
      exact hnextWithin

theorem andThen {checked : Reader (Stop ε) α} {plain : Reader ε α}
    {next : α → Reader (Stop ε) β} {next' : α → Reader ε β} (h : Agrees source p checked plain)
    (hnext : ∀ a q, q < UInt64.size → Agrees source q (next a) (next' a)) :
    Agrees source p (checked >>= next) (plain >>= next') :=
  h.bind fun a _ => hnext a _ h.within

theorem aside {checked : Reader (Stop ε) α} {plain : Reader ε α} (hp : p < UInt64.size)
    (h : Agrees source p checked plain) :
    Agrees source p (Reader.aside checked) (Reader.aside plain) := by
  refine ⟨?_, hp⟩
  simp only [Reader.aside, h.same, Reader.mapError]

theorem mapError {checked : Reader (Stop ε) α} {plain : Reader ε α}
    (h : Agrees source p checked plain) (f : ε → δ) :
    Agrees source p (checked.mapError (Stop.map f)) (plain.mapError f) := by
  refine ⟨?_, h.within⟩
  simp only [Reader.mapError, h.same]
  cases (plain source p).result <;> rfl

theorem emitIf (hp : p < UInt64.size) (c : Prop) [Decidable c] (e : Event)
    {checked : Reader (Stop ε) α} {plain : Reader ε α} (h : Agrees source p checked plain) :
    Agrees source p (if c then Reader.emit e >>= fun _ => checked else checked)
      (if c then Reader.emit e >>= fun _ => plain else plain) := by
  split_ifs
  · exact (emit hp e).bind fun _ _ => h
  · exact h

theorem cursor {next : Cursor → Reader (Stop ε) β} {plain : Reader ε β}
    (h : Agrees source p (next ⟨source, p⟩) plain) :
    Agrees source p (Reader.cursor >>= next) plain := ⟨h.same, h.within⟩

theorem build {entry : RegionKind → Reader (Stop ε) α} {entry' : RegionKind → Reader ε α}
    (hp : p < UInt64.size)
    (h : ∀ k q, q < UInt64.size → Agrees source q (entry k) (entry' k)) :
    Agrees source p (Table.build entry) (Table.build entry') :=
  (h .readWrite p hp).andThen fun readWrite _ hq =>
    (h .readOnly _ hq).andThen fun readOnly _ hq =>
    (h .bitmap _ hq).andThen fun bitmap _ hq =>
    (h .heap _ hq).andThen fun heap _ hq =>
    (h .code _ hq).andThen fun code _ hq =>
    pure hq { readWrite, readOnly, bitmap, heap, code : Table α }

end Agrees

section Fields

variable {source : ByteArray} {p : Nat}

theorem copy?_eq_some {start stop : Nat} (h : start ≤ stop)
    (hs : start = stop ∨ stop ≤ source.size) :
    copy? source start stop = some (source.extract start stop) := by
  rw [copy?]
  split_ifs with he
  · subst he
    rw [ByteArray.extract_eq_empty_iff.2 (by omega)]
  · exact if_pos ⟨h, hs.resolve_left he⟩

theorem field_agrees (hs : source.size < 2 ^ 63) (hp : p < UInt64.size) (f : Field) :
    Agrees source p (field f) (Reader.field f) := by
  change p < 2 ^ 64 at hp
  by_cases hfits : f.width ≤ source.size - p
  · have hword : p + f.width < 2 ^ 64 := by omega
    have hsum : sum? p f.width = some (p + f.width) := if_pos hword
    have hcopy : copy? source p (p + f.width) = some (source.extract p (p + f.width)) :=
      copy?_eq_some (Nat.le_add_right _ _) (by omega)
    have hensure : Buffer.ensure (Cursor.mk source p) f.width = .ok () := if_pos hfits
    refine ⟨?_, ?_⟩
    · simp only [field, hensure, hsum, hcopy, Reader.mapError, Reader.field_fits hfits,
        Except.mapError]
    · rw [Reader.field_fits hfits]
      exact hword
  · have hcut : source.size - p < f.width := Nat.lt_of_not_le hfits
    have hensure : Buffer.ensure (Cursor.mk source p) f.width =
        .error ⟨f.width, source.size - p, p⟩ := if_neg hfits
    refine ⟨?_, ?_⟩
    · simp only [field, hensure, Reader.mapError, Reader.field_truncated hcut, Except.mapError]
    · rw [Reader.field_truncated hcut]
      exact hp

theorem values_agrees (hs : source.size < 2 ^ 63) (hp : p < UInt64.size) (l : Layout) :
    Agrees source p (values l) (Reader.values l) := by
  induction l generalizing p with
  | nil => exact .pure hp ()
  | cons f fs ih =>
    exact (field_agrees hs hp f).andThen fun v q hq =>
      (ih hq).andThen fun vs q' hq' => .pure hq' (v, vs)

theorem record_agrees (hs : source.size < 2 ^ 63) (hp : p < UInt64.size) (f : Format α) :
    Agrees source p (record f) (Reader.record f) :=
  (values_agrees hs hp f.layout).andThen fun vs _ hq => .pure hq (f.build vs)

end Fields

section Headers

variable {source : ByteArray} {p : Nat}

theorem genericHeader_agrees (hs : source.size < 2 ^ 63) (hp : p < UInt64.size) :
    Agrees source p genericHeader GenericHeader.read :=
  (record_agrees hs hp _).andThen fun h _ hq => (Agrees.emit hq _).andThen fun _ _ hq => .pure hq h

theorem regionTable_agrees (hs : source.size < 2 ^ 63) (hp : p < UInt64.size) :
    Agrees source p regionTable RegionTable.read :=
  .build hp fun _ _ hq => (record_agrees hs hq _).andThen fun r _ hq =>
    (Agrees.emit hq _).andThen fun _ _ hq => .pure hq r

theorem heapHeaders_agrees (hs : source.size < 2 ^ 63) (hp : p < UInt64.size) :
    Agrees source p heapHeaders HeapHeaders.read :=
  (record_agrees hs hp _).andThen fun mapped _ hq =>
    (record_agrees hs hq _).andThen fun streamed _ hq =>
    .pure hq { mapped, streamed : HeapHeaders }

theorem configuration_agrees (hs : source.size < 2 ^ 63) (hp : p < UInt64.size) :
    Agrees source p configuration Configuration.read :=
  (record_agrees hs hp _).andThen fun machine _ hq =>
    (field_agrees hs hq _).andThen fun raw _ hq =>
    (Agrees.emit hq _).andThen fun _ _ hq =>
    (record_agrees hs hq _).andThen fun image _ hq =>
    (heapHeaders_agrees hs hq).andThen fun heap _ hq =>
    (Agrees.emit hq _).andThen fun _ _ hq =>
    (record_agrees hs hq _).andThen fun profile _ hq =>
    (Agrees.emit hq _).andThen fun _ _ hq =>
    .pure hq { machine, image with identity := Text.lossy raw, heap, profile : Configuration }

theorem position_of_follows {r : Reader Truncated α} {l : Layout} {value : ByteArray → Nat → α}
    {a : α} (hr : r.Follows l value) (h : (r source p).result = .ok a) :
    (r source p).position = p + l.size := by
  by_cases hl : l.size ≤ source.size - p
  · exact (hr.fits source p hl).2
  · obtain ⟨place, ⟨hmem, hholds⟩, -⟩ := Layout.existsUnique_place (Nat.lt_of_not_le hl)
    rw [(hr.truncated source p place hmem hholds).1] at h
    cases h

theorem headerParts_agrees (hs : source.size < 2 ^ 63) :
    Agrees source 0 headerParts Header.parts := by
  refine (genericHeader_agrees hs (by decide)).bind fun generic hgeneric => ?_
  rw [position_of_follows GenericHeader.read_follows hgeneric]
  have h24 : 0 + GenericHeader.format.layout.size < UInt64.size := by decide
  refine (Agrees.size h24).bind fun fileSize _ => ?_
  refine Agrees.emitIf h24 _ _ ?_
  refine (regionTable_agrees hs h24).bind fun regions hregions => ?_
  rw [position_of_follows RegionTable.read_follows hregions]
  rw [Nat.zero_add, show GenericHeader.format.layout.size + RegionTable.layout.size = 504 from
    Header.configurationOffset_eq]
  refine .cursor (.check (if_pos rfl) ?_)
  exact (configuration_agrees hs (by decide)).andThen fun config _ hq =>
    (Agrees.emit hq _).andThen fun _ _ hq => .pure hq { generic, regions, config : Header }

theorem header_agrees (hs : source.size < 2 ^ 63) (expected : UInt32) :
    Agrees source p (header expected) (Header.read expected) := by
  refine (Agrees.seek (by decide)).bind fun _ _ => ?_
  have hmagic : Agrees source 0 ((Reader.aside (field .u32)).mapError (Stop.map .truncated))
      ((Reader.aside (Reader.field .u32)).mapError Failure.truncated) :=
    ((field_agrees hs (by decide) .u32).aside (by decide)).mapError _
  refine hmagic.bind fun magic _ => ?_
  change Agrees source 0 _ _
  split_ifs
  · exact (headerParts_agrees hs).mapError _
  · exact .fail (by decide) _

end Headers

section Payloads

variable {source : ByteArray} {p : Nat}

theorem usedBytes_eq (p : Payload) : usedBytes p = some p.usedBytes :=
  if_pos ⟨Nat.zero_le _, Nat.min_le_right _ _⟩

theorem regionBytes_agrees (hs : source.size < 2 ^ 63) (hp : p < UInt64.size)
    (regions : RegionTable) (k : RegionKind) (r : Region) :
    Agrees source p (regionBytes regions k r) (Payload.readSpan regions k r) := by
  refine (Agrees.size hp).bind fun fileSize hsize => ?_
  cases hsize
  change Agrees source p _ _
  have hstart : r.fileOffset.toNat < UInt64.size := UInt64.toNat_lt _
  by_cases hin : r.fileOffset.toNat < source.size
  · obtain ⟨hlt, hle⟩ := Span.stopAfter_bounds regions.offsets hin
    rw [Span.ofStart?_inside hin]
    generalize Span.stopAfter regions.offsets source.size r.fileOffset.toNat = stop at hlt hle
    have hlength : stop - r.fileOffset.toNat < UInt64.size := by
      change _ < 2 ^ 64
      omega
    refine .check (if_pos hlt.le) (.emitIf hp _ _ ((Agrees.emit hp _).andThen fun _ _ hq => ?_))
    have hsize : stop - r.fileOffset.toNat ≤ source.size := (Nat.sub_le _ _).trans hle
    exact (Agrees.seek hstart).bind fun _ _ =>
      .check (if_pos hlength) (.check (if_pos hsize) (field_agrees hs hstart _))
  · rw [Span.ofStart?_eq_none_iff.2 (Nat.le_of_not_lt hin)]
    exact (Agrees.emit hp _).andThen fun _ _ hq => .pure hq _

theorem payload_agrees (hs : source.size < 2 ^ 63) (hp : p < UInt64.size)
    (regions : RegionTable) (k : RegionKind) :
    Agrees source p (payload regions k) (Payload.read regions k) := by
  cases k with
  | code =>
    exact (Agrees.pure hp .empty).andThen fun bytes _ hq =>
      .pure hq (⟨.code, regions.code, bytes⟩ : Payload)
  | readWrite | readOnly | bitmap | heap =>
    exact (regionBytes_agrees hs hp regions _ _).andThen fun bytes _ hq =>
      .pure hq (⟨_, _, bytes⟩ : Payload)

theorem payloads_agrees (hs : source.size < 2 ^ 63) (hp : p < UInt64.size)
    (regions : RegionTable) : Agrees source p (payloads regions) (Payload.readAll regions) :=
  .aside hp (.build hp fun k _ hq => payload_agrees hs hq regions k)

theorem baseName_agrees (hs : source.size < 2 ^ 63) (hp : p < UInt64.size) (h : GenericHeader) :
    Agrees source p (baseName h) (Archive.readBaseName h) := by
  have hword (n : UInt32) : n.toNat < UInt64.size := n.toNat_lt.trans (by decide)
  rw [baseName, Archive.readBaseName]
  split_ifs
  · exact (Agrees.seek (hword _)).andThen fun _ _ hq =>
      (field_agrees hs hq _).andThen fun raw _ hq => .pure hq (some (Archive.textToNul raw))
  · exact .pure hp none

theorem symbol_agrees (hs : source.size < 2 ^ 63) (hp : p < UInt64.size) (fileOffset : UInt64) :
    Agrees source p (symbol fileOffset) (Symbol.read fileOffset) :=
  .aside hp <| (Agrees.seek fileOffset.toNat_lt).andThen fun _ _ hq =>
    (field_agrees hs hq .u32).andThen fun hashAndRefcount _ hq =>
    (field_agrees hs hq .u16).andThen fun length _ hq =>
    (field_agrees hs hq _).andThen fun body _ hq =>
    .pure hq (⟨fileOffset, hashAndRefcount, length, Text.lossy body⟩ : Symbol)

end Payloads

end Checked

end SharedArchive
