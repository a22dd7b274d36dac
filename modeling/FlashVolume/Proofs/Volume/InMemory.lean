/-
Volumes that lie in memory. A read of them fails if it crosses their end, and for no other reason, and a header
is looked for only where the device has room for it: so reading one never fails, and it is what the bytes from
its position on begin with.
-/
import FlashVolume.Proofs.Arithmetic.Geometry
import FlashVolume.Proofs.Outcome
import FlashVolume.Proofs.Record.Seal
import FlashVolume.Volume.Record

namespace FlashVolume

/-- What a record is parsed from are its own bytes: more of them do not matter. -/
theorem Sealed.parse?_take {α : Type} [Sealed α] [LawfulSealed α] {bytes : List UInt8} {length : Nat}
    (h : (Sealed.format : Format α).size ≤ length) :
    (Sealed.parse? (bytes.take length) : Option α) = Sealed.parse? bytes := by
  apply Option.ext
  intro record
  rw [Sealed.parse?_eq_some, Sealed.parse?_eq_some, and_congr_right_iff]
  intro _
  constructor
  · rintro ⟨tail, htail⟩
    refine ⟨tail ++ bytes.drop length, ?_⟩
    rw [← List.append_assoc, ← htail, List.take_append_drop]
  · rintro ⟨tail, rfl⟩
    refine ⟨tail.take (length - (Sealed.encode record).length), ?_⟩
    rw [List.take_append, List.take_of_length_le (by rwa [Sealed.length_encode])]

theorem Sealed.size_le_of_parse? {α : Type} [Sealed α] [LawfulSealed α] {bytes : List UInt8} {record : α}
    (h : Sealed.parse? bytes = some record) : (Sealed.format : Format α).size ≤ bytes.length := by
  obtain ⟨-, tail, rfl⟩ := Sealed.parse?_eq_some.1 h
  rw [List.length_append, Sealed.length_encode]
  exact Nat.le_add_right ..

namespace Volume

variable {bytes : ByteArray} {g : Geometry} {peb page offset length : Nat}

/-! ## Reads -/

/-- The bytes from an offset on. -/
def bytesFrom (bytes : ByteArray) (offset : Nat) : List UInt8 := bytes.data.toList.drop offset

theorem length_bytesFrom (bytes : ByteArray) (offset : Nat) :
    (bytesFrom bytes offset).length = bytes.size - offset :=
  List.length_drop

/-- A read delivers the bytes it asks for, or crosses the end. -/
theorem readBytes_ofBytes (bytes : ByteArray) (g : Geometry) (peb offset length : Nat) :
    (mk (.ofBytes bytes) g).readBytes peb offset length =
      if offset + length ≤ bytes.size then .ok ((bytesFrom bytes offset).take length)
      else .error (.fault (.read peb offset (.pastEnd offset length bytes.size))) := by
  unfold readBytes Handle.ofBytes bytesFrom
  by_cases h : offset + length ≤ bytes.size
  · simp only [if_pos h]
    rw [ByteArray.data_extract, Array.toList_extract, List.extract_eq_take_drop, Nat.add_sub_cancel_left]
  · simp only [if_neg h]

/-- A header that ends within the words is there if the device has room for it. -/
theorem readHeaderBytes_ofBytes (bytes : ByteArray) (h : g.headerOffset peb page + length < UInt64.size - 1) :
    (mk (.ofBytes bytes) g).readHeaderBytes peb page length =
      .ok (if g.headerOffset peb page + length ≤ bytes.size then
        some ((bytesFrom bytes (g.headerOffset peb page)).take length) else none) := by
  have hword : word64 (g.headerOffset peb page) = .ok (g.headerOffset peb page) :=
    word64_eq_ok.2 ⟨by omega, rfl⟩
  have hmin : min (g.headerOffset peb page + length) (UInt64.size - 1) = g.headerOffset peb page + length :=
    Nat.min_eq_left (Nat.le_of_lt h)
  unfold readHeaderBytes
  simp only [hword, bind, Except.bind, hmin]
  show (if bytes.size < _ then Except.ok none else _) = _
  by_cases hroom : g.headerOffset peb page + length ≤ bytes.size
  · rw [if_neg (Nat.not_lt.2 hroom), if_pos hroom, readBytes_ofBytes, if_pos hroom]
    rfl
  · rw [if_pos (Nat.lt_of_not_le hroom), if_neg hroom]

/-! ## Headers -/

/-- A record of the size that was read for is what the bytes begin with, whether there is room for it or not. -/
theorem bind_parse?_ofBytes {α : Type} [Sealed α] [LawfulSealed α] (bytes : ByteArray) (offset : Nat) :
    (if offset + (Sealed.format : Format α).size ≤ bytes.size then
        some ((bytesFrom bytes offset).take (Sealed.format : Format α).size) else none).bind Sealed.parse? =
      (Sealed.parse? (bytesFrom bytes offset) : Option α) := by
  split
  · exact Sealed.parse?_take (Nat.le_refl _)
  · refine (Option.eq_none_iff_forall_ne_some.2 fun record hrecord => ?_).symm
    have hle := Sealed.size_le_of_parse? hrecord
    have hpos := Sealed.checksumEnd_le_size record
    rw [length_bytesFrom] at hle
    unfold Check.checksumEnd at hpos
    omega

theorem segmentHeader?_ofBytes (bytes : ByteArray)
    (h : g.headerOffset peb page + SegmentHeader.format.size < UInt64.size - 1) :
    (mk (.ofBytes bytes) g).segmentHeader? peb page =
      .ok (Sealed.parse? (bytesFrom bytes (g.headerOffset peb page))) := by
  unfold segmentHeader?
  rw [readHeaderBytes_ofBytes bytes h]
  exact congrArg Except.ok (bind_parse?_ofBytes (α := SegmentHeader) bytes _)

theorem partialHeader?_ofBytes (bytes : ByteArray)
    (h : g.headerOffset peb page + PartialHeader.format.size < UInt64.size - 1) :
    (mk (.ofBytes bytes) g).partialHeader? peb page =
      .ok (Sealed.parse? (bytesFrom bytes (g.headerOffset peb page))) := by
  unfold partialHeader?
  rw [readHeaderBytes_ofBytes bytes h]
  exact congrArg Except.ok (bind_parse?_ofBytes (α := PartialHeader) bytes _)

end Volume

end FlashVolume
