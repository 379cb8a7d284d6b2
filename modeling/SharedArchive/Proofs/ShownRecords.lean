import Mathlib
import SharedArchive.Event
import SharedArchive.Proofs.HeaderReading

/-!
How the records of the headers are shown, read off the bytes that they stand in: a record's name
and, in braces, its fields in file order. A number is in decimal, one with a sign in two's
complement, and a flag is true unless its byte is zero.
-/

namespace SharedArchive

def unsignedAt (label : String) (source : ByteArray) (position width : Nat) : String :=
  label ++ ": " ++ toString (numberAt source position width)

def signedAt (label : String) (source : ByteArray) (position width : Nat) : String :=
  label ++ ": " ++ toString ((numberAt source position width : Int).bmod (256 ^ width))

def flagAt (label : String) (source : ByteArray) (position : Nat) : String :=
  label ++ ": " ++ if numberAt source position 1 = 0 then "false" else "true"

def braced (name : String) (fields : List String) : String :=
  name ++ " \x7b " ++ ", ".intercalate fields ++ " \x7d"

def GenericHeader.shown (source : ByteArray) (p : Nat) : String :=
  braced "GenericHeader" [
    unsignedAt "magic" source p 4,
    unsignedAt "crc" source (p + 4) 4,
    signedAt "version" source (p + 8) 4,
    unsignedAt "header_size" source (p + 12) 4,
    unsignedAt "base_archive_name_offset" source (p + 16) 4,
    unsignedAt "base_archive_name_size" source (p + 20) 4]

def Region.shown (source : ByteArray) (p : Nat) : String :=
  braced "Region" [
    unsignedAt "crc" source p 4,
    unsignedAt "read_only" source (p + 4) 4,
    unsignedAt "allow_exec" source (p + 8) 4,
    unsignedAt "is_heap_region" source (p + 12) 4,
    unsignedAt "is_bitmap_region" source (p + 16) 4,
    unsignedAt "mapped_from_file" source (p + 20) 4,
    unsignedAt "file_offset" source (p + 24) 8,
    unsignedAt "mapping_offset" source (p + 32) 8,
    unsignedAt "used" source (p + 40) 8,
    unsignedAt "oopmap_offset" source (p + 48) 8,
    unsignedAt "oopmap_size_in_bits" source (p + 56) 8,
    unsignedAt "ptrmap_offset" source (p + 64) 8,
    unsignedAt "ptrmap_size_in_bits" source (p + 72) 8]

def HeapHeaders.shown (source : ByteArray) (p : Nat) : String :=
  braced "HeapHeaders" [
    "mapped: " ++ braced "MappedHeapHeader" [
      unsignedAt "ptrmap_start_pos" source p 8,
      unsignedAt "oopmap_start_pos" source (p + 8) 8,
      "root_segments: " ++ braced "HeapRootSegments" [
        unsignedAt "base_offset" source (p + 16) 8,
        unsignedAt "count" source (p + 24) 8,
        signedAt "roots_count" source (p + 32) 4,
        unsignedAt "max_size_in_bytes" source (p + 40) 8,
        signedAt "max_size_in_elems" source (p + 48) 4]],
    "streamed: " ++ braced "StreamedHeapHeader" [
      unsignedAt "forwarding_offset" source (p + 56) 8,
      unsignedAt "roots_offset" source (p + 64) 8,
      unsignedAt "root_highest_object_index_table_offset" source (p + 72) 8,
      unsignedAt "num_roots" source (p + 80) 8,
      unsignedAt "num_archived_objects" source (p + 88) 8]]

def ProfileSettings.shown (source : ByteArray) (p : Nat) : String :=
  braced "ProfileSettings" [
    unsignedAt "compiler_type" source p 1,
    signedAt "type_profile_level" source (p + 1) 4,
    signedAt "type_profile_args_limit" source (p + 8) 4,
    signedAt "type_profile_parms_limit" source (p + 12) 4,
    signedAt "type_profile_width" source (p + 16) 8,
    signedAt "bci_profile_width" source (p + 24) 8,
    flagAt "profile_traps" source (p + 32),
    flagAt "type_profile_casts" source (p + 33),
    signedAt "spec_trap_limit_extra_entries" source (p + 34) 4]

open Text.Description

theorem render_record (name : String) (fields : List (String × Text.Description)) :
    (record name fields).render = braced name (renderFields fields) := by
  rw [render]
  rfl

section Fields

variable (source : ByteArray) (p : Nat)

theorem render_u8 :
    (ofUInt8 (Field.u8.decode (source.extract p (p + Field.u8.width)))).render =
      toString (numberAt source p 1) := by
  have hn : (Field.u8.decode (source.extract p (p + Field.u8.width))).toNat = numberAt source p 1 :=
    toNat_uint8_numberAt source p
  rw [ofUInt8, hn]
  rfl

theorem render_u32 :
    (ofUInt32 (Field.u32.decode (source.extract p (p + Field.u32.width)))).render =
      toString (numberAt source p 4) := by
  have hn : (Field.u32.decode (source.extract p (p + Field.u32.width))).toNat =
      numberAt source p 4 := toNat_uint32_numberAt source p
  rw [ofUInt32, hn]
  rfl

theorem render_u64 :
    (ofUInt64 (Field.u64.decode (source.extract p (p + Field.u64.width)))).render =
      toString (numberAt source p 8) := by
  have hn : (Field.u64.decode (source.extract p (p + Field.u64.width))).toNat =
      numberAt source p 8 := toNat_uint64_numberAt source p
  rw [ofUInt64, hn]
  rfl

theorem render_i32 :
    (ofInt32 (Field.i32.decode (source.extract p (p + Field.i32.width)))).render =
      toString ((numberAt source p 4 : Int).bmod (256 ^ 4)) := by
  have hn : (Field.i32.decode (source.extract p (p + Field.i32.width))).toInt =
      (numberAt source p 4 : Int).bmod (256 ^ 4) := toInt_int32_numberAt source p
  rw [ofInt32, hn]
  rfl

theorem render_i64 :
    (ofInt64 (Field.i64.decode (source.extract p (p + Field.i64.width)))).render =
      toString ((numberAt source p 8 : Int).bmod (256 ^ 8)) := by
  have hn : (Field.i64.decode (source.extract p (p + Field.i64.width))).toInt =
      (numberAt source p 8 : Int).bmod (256 ^ 8) := toInt_int64_numberAt source p
  rw [ofInt64, hn]
  rfl

theorem render_flag :
    (flag (Field.flag.decode (source.extract p (p + Field.flag.width)))).render =
      if numberAt source p 1 = 0 then "false" else "true" := by
  have hflag : Field.flag.decode (source.extract p (p + Field.flag.width)) =
      (numberAt source p 1 != 0) := rfl
  rw [hflag]
  split_ifs with hzero
  · rw [hzero]
    rfl
  · rw [bne_iff_ne.2 hzero]
    rfl

end Fields

theorem GenericHeader.render_decode (source : ByteArray) (p : Nat) :
    (format.decode source p).describe.render = shown source p := by
  simp only [describe, format, Format.decode, Layout.decode, render_record, renderFields,
    render_u32, render_i32]
  rfl

theorem Region.render_decode (source : ByteArray) (p : Nat) :
    (format.decode source p).describe.render = shown source p := by
  simp only [describe, format, Format.decode, Layout.decode, render_record, renderFields,
    render_u32, render_u64]
  rfl

theorem ProfileSettings.render_decode (source : ByteArray) (p : Nat) :
    (format.decode source p).describe.render = shown source p := by
  simp only [describe, format, Format.decode, Layout.decode, render_record, renderFields, render_u8,
    render_i32, render_i64, render_flag]
  rfl

theorem HeapHeaders.render_decode (source : ByteArray) (p : Nat) :
    (decode source p).describe.render = shown source p := by
  simp only [describe, decode, MappedHeapHeader.describe, HeapRootSegments.describe,
    StreamedHeapHeader.describe, MappedHeapHeader.format, StreamedHeapHeader.format,
    Format.decode, Layout.decode, render_record, renderFields, render_u64, render_i32]
  rfl

end SharedArchive
