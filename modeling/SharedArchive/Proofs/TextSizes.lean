import Mathlib
import SharedArchive.Proofs.HeaderReading
import SharedArchive.Proofs.Pieces
import SharedArchive.Proofs.Search

/-!
Sizes of decoded texts. A text is encoded to the bytes that it was decoded from exactly if these are
the encoding of some characters; otherwise it differs, but it is never encoded to fewer bytes than
there were and never to more than three times as many. So the sizes of an identity and of a symbol's
name are bounded by what the file says they are.
-/

namespace SharedArchive

namespace Text

theorem Cuts.utf8Len_bounds {bytes : List UInt8} {text : List Char} (h : Cuts bytes text) :
    bytes.length ≤ String.utf8Len text ∧ String.utf8Len text ≤ 3 * bytes.length := by
  obtain ⟨pieces, rfl, rfl⟩ := h
  induction pieces with
  | nil => exact ⟨Nat.le_refl 0, Nat.le_refl 0⟩
  | cons piece rest ih =>
    obtain ⟨hlow, hhigh⟩ := ih
    have hleast := piece.length_le_utf8Size
    have hmost := piece.utf8Size_le_length
    simp only [List.flatMap_cons, List.length_append, List.map_cons, String.utf8Len_cons]
    omega

/-- `text` says of `raw` all that text can say: the bytes themselves if they are text, and
otherwise no fewer bytes and at most three for each. -/
structure Retains (raw : ByteArray) (text : String) : Prop where
  toUTF8_eq_iff : text.toUTF8 = raw ↔ raw.IsValidUTF8
  size_le : raw.size ≤ text.utf8ByteSize
  le_size : text.utf8ByteSize ≤ 3 * raw.size
  size_eq : raw.IsValidUTF8 → text.utf8ByteSize = raw.size

theorem Retains.sizes {raw : ByteArray} {text : String} {n : Nat} (h : Retains raw text)
    (hn : raw.size = n) :
    n ≤ text.utf8ByteSize ∧ text.utf8ByteSize ≤ 3 * n ∧
      (raw.IsValidUTF8 → text.utf8ByteSize = n) := by
  subst hn
  exact ⟨h.size_le, h.le_size, h.size_eq⟩

theorem toUTF8_lossy_iff (raw : ByteArray) : (lossy raw).toUTF8 = raw ↔ raw.IsValidUTF8 := by
  constructor
  · intro h
    rw [← h]
    exact (lossy raw).isValidUTF8
  · intro h
    have hraw : (String.ofByteArray raw h).toUTF8 = raw := rfl
    rw [← hraw, lossy_toUTF8]

theorem retains_lossy (raw : ByteArray) : Retains raw (lossy raw) := by
  have hvalid := toUTF8_lossy_iff raw
  have hbounds := (cuts_lossyChars raw.data.toList).utf8Len_bounds
  rw [← String.utf8ByteSize_ofList, Array.length_toList] at hbounds
  refine ⟨hvalid, hbounds.1, hbounds.2, ?_⟩
  intro h
  exact congrArg ByteArray.size (hvalid.2 h)

end Text

theorem Configuration.identity_retains {source : ByteArray} {p : Nat} {c : Configuration}
    (h : (read source p).result = .ok c) :
    (source.extract (p + 80) (p + 336)).size = 256 ∧
      Text.Retains (source.extract (p + 80) (p + 336)) c.identity := by
  obtain ⟨hs, rfl⟩ := read_ok_iff.1 h
  rw [← rawIdentity_eq_extract]
  exact ⟨rawIdentity_size hs, Text.retains_lossy _⟩

namespace Symbol

def rawBody (s : Symbol) (source : ByteArray) : ByteArray :=
  source.extract (s.fileOffset.toNat + 6) (s.fileOffset.toNat + 6 + s.length.toNat)

theorem body_retains {source : ByteArray} {fileOffset : UInt64} {p : Nat} {s : Symbol}
    (h : (read fileOffset source p).result = .ok s) :
    (s.rawBody source).size = s.length.toNat ∧ Text.Retains (s.rawBody source) s.body := by
  obtain ⟨⟨-, hfits⟩, rfl⟩ := read_ok_iff.1 h
  have hlength : (ofSource source fileOffset).length.toNat = lengthAt source fileOffset :=
    lengthAt_toUInt16 source fileOffset
  have hsize : ((ofSource source fileOffset).rawBody source).size =
      (ofSource source fileOffset).length.toNat := by
    rw [rawBody, ByteArray.size_extract, hlength]
    change min (fileOffset.toNat + 6 + lengthAt source fileOffset) source.size -
      (fileOffset.toNat + 6) = _
    omega
  have hbody : (ofSource source fileOffset).body =
      Text.lossy ((ofSource source fileOffset).rawBody source) := by
    rw [rawBody, hlength]
    rfl
  rw [hbody]
  exact ⟨hsize, Text.retains_lossy _⟩

end Symbol

theorem Archive.read_of_mem_symbols {a : Archive} {pattern : UInt64} {ms : List SymbolMatch}
    (h : (a.symbols pattern).result = .ok ms) {m : SymbolMatch} (hm : m ∈ ms) (p : Nat) :
    (Symbol.read m.symbol.fileOffset a.source p).result = .ok m.symbol := by
  rw [symbols_result, Except.ok.injEq, scan_remaining] at h
  subst h
  obtain ⟨k, hk, rfl⟩ := List.mem_map.1 hm
  obtain ⟨-, -, -, -, hfits⟩ := (a.mem_records).1 hk
  exact Symbol.read_fits p hfits

/-- Text that is decoded from a file is encoded to the same bytes exactly if these are text, and
otherwise to no fewer and at most three times as many; so the sizes of an identity and of a symbol's
name keep to what the file says they are. -/
theorem Text.decoded_sizes :
    (∀ raw : ByteArray, Retains raw (lossy raw)) ∧
    (∀ (source : ByteArray) (p : Nat) (c : Configuration),
      (Configuration.read source p).result = .ok c →
      let raw := source.extract (p + 80) (p + 336)
      Retains raw c.identity ∧ 256 ≤ c.identity.utf8ByteSize ∧ c.identity.utf8ByteSize ≤ 768 ∧
        (raw.IsValidUTF8 → c.identity.utf8ByteSize = 256)) ∧
    (∀ (source : ByteArray) (fileOffset : UInt64) (p : Nat) (s : Symbol),
      (Symbol.read fileOffset source p).result = .ok s →
      let n := s.length.toNat
      let raw := source.extract (fileOffset.toNat + 6) (fileOffset.toNat + 6 + n)
      Retains raw s.body ∧ n ≤ s.body.utf8ByteSize ∧ s.body.utf8ByteSize ≤ 3 * n ∧
        (raw.IsValidUTF8 → s.body.utf8ByteSize = n)) ∧
    ∀ (a : Archive) (pattern : UInt64) (ms : List SymbolMatch),
      (a.symbols pattern).result = .ok ms → ∀ m ∈ ms,
      let n := m.symbol.length.toNat
      let start := m.symbol.fileOffset.toNat + 6
      let raw := a.source.extract start (start + n)
      Retains raw m.name ∧ n ≤ m.name.utf8ByteSize ∧ m.name.utf8ByteSize ≤ 3 * n ∧
        (raw.IsValidUTF8 → m.name.utf8ByteSize = n) := by
  refine ⟨retains_lossy, ?_, ?_, ?_⟩
  · intro source p c hc
    obtain ⟨hsize, hretains⟩ := Configuration.identity_retains hc
    exact ⟨hretains, hretains.sizes hsize⟩
  · intro source fileOffset p s hs
    obtain ⟨hsize, hretains⟩ := Symbol.body_retains hs
    obtain ⟨-, rfl⟩ := Symbol.read_ok_iff.1 hs
    exact ⟨hretains, hretains.sizes hsize⟩
  · intro a pattern ms hms m hm
    obtain ⟨hsize, hretains⟩ := Symbol.body_retains (Archive.read_of_mem_symbols hms hm 0)
    exact ⟨hretains, hretains.sizes hsize⟩

def brokenBytes : ByteArray := ⟨#[0, 0, 0, 0, 3, 0, 0xe2, 0x82, 0x41]⟩

theorem brokenBytes_sizes :
    (Symbol.read 0 brokenBytes 0).result = .ok ⟨0, 0, 3, "\ufffdA"⟩ ∧
      3 ≤ "\ufffdA".utf8ByteSize ∧ "\ufffdA".utf8ByteSize ≤ 9 := by
  have hread : (Symbol.read 0 brokenBytes 0).result = .ok ⟨0, 0, 3, "\ufffdA"⟩ :=
    Symbol.read_ok_iff.2 ⟨by decide, by decide⟩
  obtain ⟨-, -, hsymbol, -⟩ := Text.decoded_sizes
  obtain ⟨-, hlow, hhigh, -⟩ := hsymbol brokenBytes 0 0 _ hread
  exact ⟨hread, hlow, hhigh⟩

end SharedArchive
