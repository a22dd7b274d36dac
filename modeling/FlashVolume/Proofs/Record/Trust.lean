/-
The trust gate of a checksummed record, read off its bytes. Nothing behind the bytes that the check covers can
shake it, and nothing that changes up to four bytes in a row gets past it: the check itself stays as it is and
the CRC-32 of what it covers does not, or the other way round.
-/
import FlashVolume.Proofs.Crc32
import FlashVolume.Proofs.Record.Seal

namespace FlashVolume

/-! ## The checksum field -/

namespace Check

variable {record : List UInt8}

theorem length_zeroed (h : checksumEnd ≤ record.length) : (zeroed record).length = record.length := by
  simp only [zeroed, checksumOffset, checksumEnd, List.length_append, List.length_take, List.length_drop,
    List.length_cons, List.length_nil] at h ⊢
  omega

/-- The bytes of the field are zero, and the others are as they were. -/
theorem getElem?_zeroed (h : checksumEnd ≤ record.length) (i : Nat) :
    (zeroed record)[i]? = if checksumOffset ≤ i ∧ i < checksumEnd then some 0 else record[i]? := by
  unfold checksumEnd at h
  unfold zeroed checksumOffset checksumEnd
  have hfront : (record.take 12).length = 12 := by rw [List.length_take]; omega
  by_cases hbefore : i < 12
  · rw [if_neg (by omega), List.append_assoc, List.getElem?_append_left (by omega),
      List.getElem?_take_of_lt hbefore]
  by_cases hbehind : 16 ≤ i
  · rw [if_neg (by omega), List.getElem?_append_right (by simp [hfront]; omega), List.getElem?_drop]
    congr 1
    simp [hfront]
    omega
  · rw [if_pos (by omega), List.getElem?_append_left (by simp [hfront]; omega),
      List.getElem?_append_right (by omega), hfront]
    have hzeros : [0, 0, 0, 0] = List.replicate 4 (0 : UInt8) := rfl
    rw [hzeros, List.getElem?_replicate, if_pos (by omega)]

end Check

/-! ## Changes -/

/-- The second byte string differs from the first one at most from `start` up to `stop`. -/
structure ChangedWithin (start stop : Nat) (bytes bytes' : List UInt8) : Prop where
  length : bytes'.length = bytes.length
  outside : ∀ i, i < start ∨ stop ≤ i → bytes'[i]? = bytes[i]?

namespace ChangedWithin

variable {start stop n : Nat} {bytes bytes' : List UInt8}

theorem mono (h : ChangedWithin start stop bytes bytes') {start' stop' : Nat} (hstart : start' ≤ start)
    (hstop : stop ≤ stop') : ChangedWithin start' stop' bytes bytes' :=
  ⟨h.length, fun i hi => h.outside i (by omega)⟩

/-- Bytes outside the window are as they were. -/
theorem slice_eq (h : ChangedWithin start stop bytes bytes') {offset size : Nat}
    (hoffset : offset + size ≤ start ∨ stop ≤ offset) :
    (bytes'.drop offset).take size = (bytes.drop offset).take size := by
  apply List.ext_getElem?
  intro i
  rw [List.getElem?_take, List.getElem?_take, List.getElem?_drop, List.getElem?_drop]
  split
  · exact h.outside (offset + i) (by omega)
  · rfl

theorem take_eq (h : ChangedWithin start stop bytes bytes') (hn : n ≤ start) : bytes'.take n = bytes.take n := by
  have := h.slice_eq (.inl (by omega : 0 + n ≤ start))
  rwa [List.drop_zero, List.drop_zero] at this

theorem drop_eq (h : ChangedWithin start stop bytes bytes') (hn : stop ≤ n) : bytes'.drop n = bytes.drop n := by
  apply List.ext_getElem?
  intro i
  rw [List.getElem?_drop, List.getElem?_drop]
  exact h.outside (n + i) (by omega)

/-- What differs differs within the window. -/
theorem exists_ne (h : ChangedWithin start stop bytes bytes') (hne : bytes' ≠ bytes) :
    ∃ i, start ≤ i ∧ i < stop ∧ bytes'[i]? ≠ bytes[i]? := by
  by_contra hall
  apply hne
  apply List.ext_getElem?
  intro i
  by_cases hi : start ≤ i ∧ i < stop
  · exact Classical.not_not.1 fun hi' => hall ⟨i, hi.1, hi.2, hi'⟩
  · exact h.outside i (by omega)

theorem take (h : ChangedWithin start stop bytes bytes') (n : Nat) :
    ChangedWithin start stop (bytes.take n) (bytes'.take n) := by
  refine ⟨by rw [List.length_take, List.length_take, h.length], fun i hi => ?_⟩
  rw [List.getElem?_take, List.getElem?_take, h.outside i hi]

/-- Zeroing the checksum field keeps a change within its window. -/
theorem zeroed (h : ChangedWithin start stop bytes bytes') (hlength : Check.checksumEnd ≤ bytes.length) :
    ChangedWithin start stop (Check.zeroed bytes) (Check.zeroed bytes') := by
  refine ⟨?_, fun i hi => ?_⟩
  · rw [Check.length_zeroed hlength, Check.length_zeroed (h.length ▸ hlength), h.length]
  · rw [Check.getElem?_zeroed hlength, Check.getElem?_zeroed (h.length ▸ hlength), h.outside i hi]

end ChangedWithin

/-- Up to four bytes in a row are not changed without the CRC-32. -/
theorem Crc32.ofBytes_ne_of_changedWithin {start stop : Nat} {bytes bytes' : List UInt8}
    (h : ChangedWithin start stop bytes bytes') (hwidth : stop ≤ start + 4) (hne : bytes' ≠ bytes) :
    ofBytes bytes' ≠ ofBytes bytes := by
  obtain ⟨i, hstart, hstop, -⟩ := h.exists_ne hne
  have hsplit : ∀ bytes : List UInt8, bytes =
      bytes.take start ++ ((bytes.drop start).take (stop - start) ++ bytes.drop stop) := fun bytes => by
    rw [show bytes.drop stop = (bytes.drop start).drop (stop - start) by
      rw [List.drop_drop, Nat.add_sub_cancel' (by omega)], List.take_append_drop, List.take_append_drop]
  rw [hsplit bytes, hsplit bytes', h.take_eq (Nat.le_refl _), h.drop_eq (Nat.le_refl _)] at hne ⊢
  apply ofBytes_ne
  · rw [List.length_take, List.length_take, List.length_drop, List.length_drop, h.length]
  · rw [List.length_take]
    omega
  · intro heq
    exact hne (by rw [heq])

namespace Sealed

variable {α : Type} [Sealed α] [LawfulSealed α] {r r' : α} {bytes bytes' : List UInt8} {start stop : Nat}

/-! ## The gate -/

theorem take_signature (r : α) (tail : List UInt8) :
    (encode r ++ tail).take Signature.format.size = Signature.format.encode (signature r) := by
  rw [encode_eq r, List.append_assoc, List.take_left' (Signature.exact_format.length_encode _)]

theorem slice_check (r : α) (tail : List UInt8) :
    ((encode r ++ tail).drop Signature.format.size).take Check.format.size = Check.format.encode (check r) := by
  rw [encode_eq r, List.append_assoc, List.append_assoc,
    List.drop_left' (Signature.exact_format.length_encode _), List.take_left' (Check.exact_format.length_encode _)]

theorem slice_covered (r : α) (tail : List UInt8) :
    ((encode r ++ tail).drop Signature.format.size).take 2 = Format.u16.encode (check r).bytes := by
  rw [show 2 = min 2 Check.format.size from rfl, ← List.take_take, slice_check]
  rfl

theorem slice_checksum (r : α) (tail : List UInt8) :
    ((encode r ++ tail).drop Check.checksumOffset).take 4 = Format.u32.encode (check r).checksum := by
  have h := congrArg (List.drop 4) (slice_check r tail)
  rwa [List.drop_take, List.drop_drop] at h

/-- Bytes of the length of some record hold one. -/
theorem exists_record (r : α) (tail : List UInt8) (hlength : bytes'.length = (encode r ++ tail).length) :
    ∃ (r' : α) (tail' : List UInt8), bytes' = encode r' ++ tail' := by
  rw [List.length_append, length_encode] at hlength
  have hsize : (Sealed.format (α := α)).size ≤ bytes'.length := by omega
  obtain ⟨r', hread, -⟩ := Format.exists_read? LawfulSealed.exact_format hsize
  exact ⟨r', (Format.read?_eq_some LawfulSealed.exact_format).1 hread⟩

/-- A record is to be trusted just if it has the signature of its kind and the CRC-32 of the bytes that its
check covers, announced as such. -/
theorem isValid_iff (tail : List UInt8) : isValid r = true ↔ isSigned r = true ∧
    (check r).flags &&& Check.crc32Flag ≠ 0 ∧ Check.checksumEnd ≤ (check r).bytes.toNat ∧
    (check r).bytes.toNat ≤ (format : Format α).size ∧
    Crc32.ofBytes (Check.zeroed ((encode r ++ tail).take (check r).bytes.toNat)) = (check r).checksum := by
  unfold isValid
  rw [Bool.and_eq_true, Check.verify_iff, length_encode]
  constructor
  · rintro ⟨hsigned, hflags, hlow, hhigh, hsum⟩
    refine ⟨hsigned, hflags, hlow, hhigh, ?_⟩
    rwa [List.take_append_of_le_length (by rw [length_encode]; exact hhigh)]
  · rintro ⟨hsigned, hflags, hlow, hhigh, hsum⟩
    refine ⟨hsigned, hflags, hlow, hhigh, ?_⟩
    rwa [List.take_append_of_le_length (by rw [length_encode]; exact hhigh)] at hsum

/-- What the check covers, the check itself apart, has not changed, and neither has the check: the verdict stays. -/
theorem isValid_of_changedBehind {tail tail' : List UInt8} (h : isValid r = true)
    (hchange : ChangedWithin (check r).bytes.toNat stop (encode r ++ tail) (encode r' ++ tail')) :
    isValid r' = true := by
  obtain ⟨hsigned, hflags, hlow, hhigh, hsum⟩ := (isValid_iff tail).1 h
  have hfront : Signature.format.size + Check.format.size ≤ (check r).bytes.toNat := hlow
  have hsignature : signature r' = signature r := by
    apply Format.encode_injective Signature.exact_format
    rw [← take_signature r tail, ← take_signature r' tail', hchange.take_eq (by omega)]
  have hcheck : check r' = check r := by
    apply Format.encode_injective Check.exact_format
    rw [← slice_check r tail, ← slice_check r' tail', hchange.slice_eq (.inl hfront)]
  rw [isValid_iff tail', hcheck, hchange.take_eq (Nat.le_refl _)]
  exact ⟨by unfold isSigned at *; rw [hsignature, hsigned], hflags, hlow, hhigh, hsum⟩

/-- A change of up to four covered bytes in a row outside the check leaves the check as it is, but not the CRC. -/
theorem isValid_of_burst {tail tail' : List UInt8} (h : isValid r = true)
    (hchange : ChangedWithin start stop (encode r ++ tail) (encode r' ++ tail'))
    (hne : encode r' ++ tail' ≠ encode r ++ tail) (hwidth : stop ≤ start + 4)
    (hcovered : stop ≤ (check r).bytes.toNat) (hcheck : stop ≤ 8 ∨ 16 ≤ start) : isValid r' = false := by
  obtain ⟨-, -, hlow, hhigh, hsum⟩ := (isValid_iff tail).1 h
  have hcheck' : check r' = check r := by
    apply Format.encode_injective Check.exact_format
    rw [← slice_check r tail, ← slice_check r' tail', hchange.slice_eq hcheck.symm]
  have hle : (check r).bytes.toNat ≤ (encode r ++ tail).length := by
    rw [List.length_append, length_encode]; omega
  rw [← Bool.not_eq_true, isValid_iff tail', hcheck']
  rintro ⟨-, -, -, -, hsum'⟩
  have hzeroed := (hchange.take (check r).bytes.toNat).zeroed (by rw [List.length_take]; omega)
  refine Crc32.ofBytes_ne_of_changedWithin hzeroed hwidth (fun heq => ?_) (hsum'.trans hsum.symm)
  obtain ⟨i, hstart, hstop, hi⟩ := hchange.exists_ne hne
  have hat := congrArg (fun bytes => bytes[i]?) heq
  have hfield : ¬ (Check.checksumOffset ≤ i ∧ i < Check.checksumEnd) := by
    unfold Check.checksumOffset Check.checksumEnd
    omega
  rw [Check.getElem?_zeroed (by rw [List.length_take, hchange.length]; omega),
    Check.getElem?_zeroed (by rw [List.length_take]; omega), if_neg hfield, if_neg hfield,
    List.getElem?_take_of_lt (by omega), List.getElem?_take_of_lt (by omega)] at hat
  exact hi hat

/-- A change in the checksum field leaves the CRC as it is, but not what it is compared with. -/
theorem isValid_of_changedChecksum {tail tail' : List UInt8} (h : isValid r = true)
    (hchange : ChangedWithin Check.checksumOffset Check.checksumEnd (encode r ++ tail) (encode r' ++ tail'))
    (hne : encode r' ++ tail' ≠ encode r ++ tail) : isValid r' = false := by
  obtain ⟨-, -, hlow, hhigh, hsum⟩ := (isValid_iff tail).1 h
  have hcovered : (check r').bytes = (check r).bytes := by
    apply Format.encode_injective Format.exact_u16
    rw [← slice_covered r tail, ← slice_covered r' tail', hchange.slice_eq (.inl (by decide))]
  have hle : (check r).bytes.toNat ≤ (encode r ++ tail).length := by
    rw [List.length_append, length_encode]; omega
  have hzeroed : Check.zeroed ((encode r' ++ tail').take (check r).bytes.toNat) =
      Check.zeroed ((encode r ++ tail).take (check r).bytes.toNat) := by
    apply List.ext_getElem?
    intro i
    rw [Check.getElem?_zeroed (by rw [List.length_take, hchange.length]; omega),
      Check.getElem?_zeroed (by rw [List.length_take]; omega)]
    split
    · rfl
    · exact (hchange.take _).outside i (by omega)
  rw [← Bool.not_eq_true, isValid_iff tail', hcovered, hzeroed, hsum]
  rintro ⟨-, -, -, -, hchecksum⟩
  obtain ⟨i, hstart, hstop, hi⟩ := hchange.exists_ne hne
  unfold Check.checksumOffset at hstart
  unfold Check.checksumEnd at hstop
  -- The differing byte lies in the field, which holds the same checksum.
  have hfield := (slice_checksum r' tail').trans (hchecksum ▸ (slice_checksum r tail).symm)
  have hat := congrArg (fun bytes => bytes[i - 12]?) hfield
  simp only [List.getElem?_take, List.getElem?_drop, Check.checksumOffset] at hat
  rw [if_pos (by omega), if_pos (by omega), Nat.add_sub_cancel' hstart] at hat
  exact hi hat

/-- The gate depends on exactly the covered bytes: a record is still found where bytes behind those its check
covers change, but none where up to four bytes in a row change, be it covered bytes behind the check, bytes of
the signature or of the checksum. -/
theorem parse?_of_changedWithin (kind : RecordKind) {bytes bytes' : List UInt8} {r : kind.Record}
    (h : parse? bytes = some r) :
    (ChangedWithin (check r).bytes.toNat bytes.length bytes bytes' →
      (parse? bytes' : Option kind.Record).isSome = true) ∧
    ∀ start stop, ChangedWithin start stop bytes bytes' → stop ≤ start + 4 → bytes' ≠ bytes →
      16 ≤ start ∧ stop ≤ (check r).bytes.toNat ∨ stop ≤ 8 ∨ 12 ≤ start ∧ stop ≤ 16 →
      (parse? bytes' : Option kind.Record) = none := by
  obtain ⟨hvalid, tail, rfl⟩ := parse?_eq_some.1 h
  constructor
  · intro hchange
    obtain ⟨r', tail', rfl⟩ := exists_record r tail hchange.length
    rw [parse?_encode, if_pos (isValid_of_changedBehind hvalid hchange)]
    rfl
  · intro start stop hchange hwidth hne hwindow
    obtain ⟨r', tail', rfl⟩ := exists_record r tail hchange.length
    have hlow := ((isValid_iff tail).1 hvalid).2.2.1
    have hinvalid : isValid r' = false := by
      rcases hwindow with ⟨hstart, hstop⟩ | hstop | ⟨hstart, hstop⟩
      · exact isValid_of_burst hvalid hchange hne hwidth hstop (.inr hstart)
      · unfold Check.checksumEnd at hlow
        exact isValid_of_burst hvalid hchange hne hwidth (by omega) (.inl hstop)
      · exact isValid_of_changedChecksum hvalid (hchange.mono hstart hstop) hne
    rw [parse?_encode, hinvalid]
    rfl

/-- A sealed header is found in front of any two bytes, and no longer once its hundredth byte changes. -/
theorem partialHeader_gate :
    let header : RecordKind.partialLog.Record :=
      sealWhole (α := PartialHeader) (PartialHeader.fresh ⟨4096, 131072, 131072, 1⟩ .superblock 16 8192 42)
    let bytes := encode header ++ [0, 0]
    parse? bytes = some header ∧
      (parse? (encode header ++ [1, 2]) : Option RecordKind.partialLog.Record).isSome = true ∧
      (parse? (bytes.set 100 1) : Option RecordKind.partialLog.Record) = none := by
  intro header bytes
  have hparse : parse? bytes = some header :=
    parse?_eq_some.2 ⟨isValid_sealWhole (α := PartialHeader) (by decide), [0, 0], rfl⟩
  have hlength : (encode header).length = 512 := length_encode header
  have hcovered : (check header).bytes.toNat = 512 :=
    congrArg (·.bytes.toNat) (check_sealWhole (α := PartialHeader) _)
  have hbehind : ChangedWithin (check header).bytes.toNat bytes.length bytes (encode header ++ [1, 2]) := by
    refine ⟨by simp [bytes], fun i hi => ?_⟩
    rcases hi with hi | hi
    · rw [List.getElem?_append_left (by omega), List.getElem?_append_left (by omega)]
    · rw [List.getElem?_eq_none (by simpa [bytes] using hi), List.getElem?_eq_none hi]
  have hbyte : ChangedWithin 100 101 bytes (bytes.set 100 1) :=
    ⟨List.length_set, fun i hi => List.getElem?_set_ne (by omega)⟩
  have hne : bytes.set 100 1 ≠ bytes := fun heq => by
    have hat : (bytes.set 100 1)[100]? = bytes[100]? := by rw [heq]
    revert hat
    decide +kernel
  refine ⟨hparse, (parse?_of_changedWithin .partialLog hparse).1 hbehind,
    (parse?_of_changedWithin .partialLog hparse).2 100 101 hbyte (by decide) hne (.inl ⟨by decide, by omega⟩)⟩

end Sealed

end FlashVolume
