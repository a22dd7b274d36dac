/-
Records and the bytes they are kept as. Every record kind takes up a fixed number of bytes, is read back from
them whatever follows, and is written back as the very bytes it was read from, the reserved ones included; so
a checksum over a record is one over the bytes it came from. Nothing but a short input is refused.
-/
import FlashVolume.Proofs.Format
import FlashVolume.Record.Block
import FlashVolume.Record.CacheHeader
import FlashVolume.Record.Footer
import FlashVolume.Record.PartialHeader
import FlashVolume.Record.SegmentHeader

namespace FlashVolume

/-! ## One kind of record -/

/-- Writing and reading undo each other on records of `size` bytes. -/
structure Format.Inverse {α : Type} (f : Format α) (size : Nat) : Prop where
  length_encode : ∀ a, (f.encode a).length = size
  read_encode : ∀ a tail, f.read? (f.encode a ++ tail) = some a
  encode_read : ∀ bytes, size ≤ bytes.length → ∃ a, f.read? bytes = some a ∧ f.encode a = bytes.take size
  checksum_read : ∀ bytes a, f.read? bytes = some a → ∀ covered ≤ size,
    Check.checksumOf? ((f.encode a).take covered) = Check.checksumOf? (bytes.take covered)
  read_short : ∀ bytes, f.read? bytes = none ↔ bytes.length < size

theorem Format.Exact.inverse {α : Type} {f : Format α} (hf : f.Exact) {size : Nat} (hsize : f.size = size) :
    f.Inverse size where
  length_encode a := hsize ▸ hf.length_encode a
  read_encode a tail := (Format.read?_eq_some hf).2 ⟨tail, rfl⟩
  encode_read bytes h := by
    rw [← hsize] at h ⊢
    exact Format.exists_read? hf h
  checksum_read bytes a h covered hcovered := by
    obtain ⟨rest, rfl⟩ := (Format.read?_eq_some hf).1 h
    rw [List.take_append_of_le_length (by rw [hf.length_encode, hsize]; exact hcovered)]
  read_short bytes := hsize ▸ Format.read?_eq_none hf

/-- Decoding a checksummed record fails exactly for want of bytes, and says how many there are and how many it
takes; a record that is decoded has the bytes it was decoded from. -/
structure Sealed.Decodes (α : Type) [Sealed α] (title : String) (size : Nat) : Prop where
  long : ∀ bytes, size ≤ bytes.length →
    ∃ record : α, decode bytes = .ok record ∧ encode record = bytes.take size
  short : ∀ bytes failure, (decode bytes : Except Truncated α) = .error failure ↔
    bytes.length < size ∧ failure = ⟨title, size, bytes.length⟩

theorem Sealed.decodes {α : Type} [Sealed α] (hf : (format : Format α).Exact) {size : Nat}
    (hsize : (format : Format α).size = size) : Decodes α (Sealed.title α) size where
  long bytes h := by
    obtain ⟨record, hread, hencode⟩ := (hf.inverse hsize).encode_read bytes h
    refine ⟨record, ?_, hencode⟩
    unfold decode
    rw [hread]
  short bytes failure := by
    rw [← (hf.inverse hsize).read_short bytes]
    unfold decode
    cases h : (format : Format α).read? bytes with
    | none => simp [hsize, eq_comm]
    | some record => simp

/-! ## Block descriptors one after the other -/

theorem BlockDescriptor.parseArea_spec (area : List UInt8) :
    (parseArea area).length = area.length / 32 ∧
      (parseArea area).flatMap format.encode = area.take (area.length / 32 * 32) :=
  Format.readAll_spec exact_format (Nat.div_mul_le_self area.length 32)

/-! ## All kinds -/

/-- Reading and writing are mutually inverse for every kind of record, a checksummed one is decoded just so, and
an area of block descriptors is read as all the whole ones in it. -/
theorem records_inverse :
    SegmentHeader.format.Inverse 768 ∧ PartialHeader.format.Inverse 512 ∧ LogFooter.format.Inverse 768 ∧
      CacheHeader.format.Inverse 32 ∧ BlockBitmapHeader.format.Inverse 16 ∧
      OffsetsTableHeader.format.Inverse 32 ∧ BlockDescriptor.format.Inverse 32 ∧ LebPeb.format.Inverse 16 ∧
      Sealed.Decodes SegmentHeader "segment header" 768 ∧
      Sealed.Decodes PartialHeader "partial log header" 512 ∧ Sealed.Decodes LogFooter "log footer" 768 ∧
      ∀ area, (BlockDescriptor.parseArea area).length = area.length / 32 ∧
        (BlockDescriptor.parseArea area).flatMap BlockDescriptor.format.encode =
          area.take (area.length / 32 * 32) := by
  refine ⟨SegmentHeader.exact_format.inverse SegmentHeader.size_format,
    PartialHeader.exact_format.inverse PartialHeader.size_format,
    LogFooter.exact_format.inverse LogFooter.size_format, CacheHeader.exact_format.inverse CacheHeader.size_format,
    BlockBitmapHeader.exact_format.inverse rfl, OffsetsTableHeader.exact_format.inverse rfl,
    BlockDescriptor.exact_format.inverse rfl, LebPeb.exact_format.inverse rfl, ?_, ?_, ?_,
    BlockDescriptor.parseArea_spec⟩
  · exact Sealed.decodes SegmentHeader.exact_format SegmentHeader.size_format
  · exact Sealed.decodes PartialHeader.exact_format PartialHeader.size_format
  · exact Sealed.decodes LogFooter.exact_format LogFooter.size_format

end FlashVolume
