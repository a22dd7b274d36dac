/-
Sealing records. The bytes of a checksummed record begin with its signature and its check, and its checksum is
taken with the checksum field zeroed. So putting the checksum into the record does not change what it is taken
of: a sealed record passes its own check, sealing it once more changes nothing, and what it is sealed as is told
by its first eight bytes, so no other kind of record is ever read from them.
-/
import FlashVolume.Proofs.Format
import FlashVolume.Record.Footer
import FlashVolume.Record.LogHeader

namespace FlashVolume

/-! ## Laws of checksummed records -/

/-- A kind of checksummed record keeps its signature and then its check at the front of its bytes, and nothing
but the check is replaced with the check. -/
class LawfulSealed (α : Type) [Sealed α] : Prop where
  exact_format : (Sealed.format : Format α).Exact
  size_lt : (Sealed.format : Format α).size < UInt16.size
  signature_withCheck : ∀ (r : α) c, Sealed.signature (Sealed.withCheck r c) = Sealed.signature r
  check_withCheck : ∀ (r : α) c, Sealed.check (Sealed.withCheck r c) = c
  withCheck_check : ∀ r : α, Sealed.withCheck r (Sealed.check r) = r
  withCheck_withCheck : ∀ (r : α) c c', Sealed.withCheck (Sealed.withCheck r c) c' = Sealed.withCheck r c'
  encode_withCheck : ∀ (r : α) c, Sealed.encode (Sealed.withCheck r c) =
    Signature.format.encode (Sealed.signature r) ++
      (Check.format.encode c ++ (Sealed.encode r).drop Check.checksumEnd)

theorem Check.length_encode_signature (signature : Signature) (check : Check) :
    (Signature.format.encode signature ++ Check.format.encode check).length = Check.checksumEnd := by
  rw [List.length_append, Signature.exact_format.length_encode, Check.exact_format.length_encode]
  rfl

/-- Where the check stands right behind the signature, what follows them starts at the end of the checksum. -/
theorem Check.drop_checksumEnd (signature : Signature) (check : Check) (body : List UInt8) :
    (Signature.format.encode signature ++ (Check.format.encode check ++ body)).drop Check.checksumEnd = body := by
  rw [← List.append_assoc, ← Check.length_encode_signature signature check, List.drop_left]

theorem append_front (a b c d : List UInt8) : (a ++ (b ++ c)) ++ d = a ++ (b ++ (c ++ d)) := by
  simp only [List.append_assoc]

instance : LawfulSealed SegmentHeader where
  exact_format := SegmentHeader.exact_format
  size_lt := by decide
  signature_withCheck _ _ := rfl
  check_withCheck _ _ := rfl
  withCheck_check _ := rfl
  withCheck_withCheck _ _ _ := rfl
  encode_withCheck r c := by
    rw [show Sealed.encode r = Signature.format.encode (Sealed.signature r) ++
      (Check.format.encode (Sealed.check r) ++ _) from append_front .., Check.drop_checksumEnd]
    exact append_front ..

instance : LawfulSealed PartialHeader where
  exact_format := PartialHeader.exact_format
  size_lt := by decide
  signature_withCheck _ _ := rfl
  check_withCheck _ _ := rfl
  withCheck_check _ := rfl
  withCheck_withCheck _ _ _ := rfl
  encode_withCheck r c := by
    rw [show Sealed.encode r = Signature.format.encode (Sealed.signature r) ++
      (Check.format.encode (Sealed.check r) ++ _) from rfl, Check.drop_checksumEnd]
    rfl

instance : LawfulSealed LogFooter where
  exact_format := LogFooter.exact_format
  size_lt := by decide
  signature_withCheck _ _ := rfl
  check_withCheck _ _ := rfl
  withCheck_check _ := rfl
  withCheck_withCheck _ _ _ := rfl
  encode_withCheck r c := by
    rw [show Sealed.encode r = Signature.format.encode (Sealed.signature r) ++
      (Check.format.encode (Sealed.check r) ++ _) from append_front .., Check.drop_checksumEnd]
    exact append_front ..

/-! ## The checksum field -/

namespace Check

/-- A record with its checksum field zeroed. -/
def zeroed (record : List UInt8) : List UInt8 :=
  record.take checksumOffset ++ [0, 0, 0, 0] ++ record.drop checksumEnd

theorem checksumOf?_eq {record : List UInt8} (h : checksumEnd ≤ record.length) :
    checksumOf? record = some (Crc32.ofBytes (zeroed record)) := if_pos h

/-- Zeroing the checksum field is setting the checksum to zero. -/
theorem zeroed_encode (signature : Signature) (check : Check) (body : List UInt8) :
    zeroed (Signature.format.encode signature ++ (format.encode check ++ body)) =
      Signature.format.encode signature ++ (format.encode { check with checksum := 0 } ++ body) := by
  -- What stands in front of the field.
  obtain ⟨front, hfront⟩ : ∃ front, front = Signature.format.encode signature ++
    (Format.u16.encode check.bytes ++ Format.u16.encode check.flags) := ⟨_, rfl⟩
  have hlength : front.length = checksumOffset := by rw [hfront]; rfl
  have hsplit : ∀ checksum, Signature.format.encode signature ++
      (format.encode { check with checksum } ++ body) = front ++ (Format.u32.encode checksum ++ body) :=
    fun checksum => by
      rw [show format.encode { check with checksum } = Format.u16.encode check.bytes ++
        (Format.u16.encode check.flags ++ Format.u32.encode checksum) from rfl]
      simp only [hfront, List.append_assoc]
  have htake := congrArg (List.take checksumOffset) (hsplit check.checksum)
  rw [List.take_left' hlength] at htake
  unfold zeroed
  rw [drop_checksumEnd, htake, hsplit 0, List.append_assoc]
  rfl

/-! ## Verdicts -/

theorem verify_iff {check : Check} {record : List UInt8} :
    check.verify record = true ↔ check.flags &&& crc32Flag ≠ 0 ∧ checksumEnd ≤ check.bytes.toNat ∧
      check.bytes.toNat ≤ record.length ∧
      Crc32.ofBytes (zeroed (record.take check.bytes.toNat)) = check.checksum := by
  unfold verify
  by_cases h : checksumEnd ≤ (record.take check.bytes.toNat).length
  · rw [checksumOf?_eq h]
    rw [List.length_take] at h
    simp only [Bool.and_eq_true, bne_iff_ne, decide_eq_true_eq, beq_iff_eq, Option.some.injEq]
    constructor
    · rintro ⟨⟨hflags, hle⟩, hsum⟩
      exact ⟨hflags, by omega, hle, hsum⟩
    · rintro ⟨hflags, -, hle, hsum⟩
      exact ⟨⟨hflags, hle⟩, hsum⟩
  · rw [checksumOf?, if_neg h]
    rw [List.length_take] at h
    constructor
    · simp
    · rintro ⟨-, hcovered, hle, -⟩
      omega

theorem or_crc32Flag (flags : UInt16) : (flags ||| crc32Flag) &&& crc32Flag ≠ 0 := by
  intro h
  have low := congrArg (fun w => w.toBitVec.getLsbD 0) h
  simp [crc32Flag] at low

end Check

namespace Sealed

variable {α : Type} [Sealed α] [LawfulSealed α]

/-! ## Reading a record by its parts -/

theorem length_encode (r : α) : (encode r).length = (format : Format α).size :=
  LawfulSealed.exact_format.length_encode r

theorem encode_eq (r : α) :
    encode r = Signature.format.encode (signature r) ++
      (Check.format.encode (check r) ++ (encode r).drop Check.checksumEnd) := by
  have h := LawfulSealed.encode_withCheck r (check r)
  rwa [LawfulSealed.withCheck_check] at h

theorem checksumEnd_le_size (r : α) : Check.checksumEnd ≤ (format : Format α).size := by
  have h := congrArg List.length (encode_eq r)
  rw [← List.append_assoc, List.length_append, Check.length_encode_signature, length_encode] at h
  omega

theorem read?_signature (r : α) (tail : List UInt8) :
    Signature.format.read? (encode r ++ tail) = some (signature r) := by
  rw [encode_eq r, List.append_assoc]
  exact (Format.read?_eq_some Signature.exact_format).2 ⟨_, rfl⟩

theorem parse?_encode (r : α) (tail : List UInt8) :
    parse? (encode r ++ tail) = if isValid r = true then some r else none := by
  have hread : (format : Format α).read? (encode r ++ tail) = some r :=
    (Format.read?_eq_some LawfulSealed.exact_format).2 ⟨tail, rfl⟩
  unfold parse?
  rw [hread]

/-- A record is parsed from the bytes it is written as, if it is to be trusted. -/
theorem parse?_eq_some {bytes : List UInt8} {r : α} :
    parse? bytes = some r ↔ isValid r = true ∧ ∃ tail, bytes = encode r ++ tail := by
  constructor
  · intro h
    unfold parse? at h
    split at h
    · rename_i r' hread
      split at h
      · rename_i hvalid
        cases h
        exact ⟨hvalid, (Format.read?_eq_some LawfulSealed.exact_format).1 hread⟩
      · cases h
    · cases h
  · rintro ⟨hvalid, tail, rfl⟩
    rw [parse?_encode, if_pos hvalid]

/-! ## Sealing -/

/-- The check of a record that covers all of it, with some checksum. -/
def wholeCheck (r : α) (checksum : UInt32) : Check :=
  ⟨(format : Format α).size.toUInt16, (check r).flags ||| Check.crc32Flag, checksum⟩

/-- The checksum of a record that covers all of it. -/
def wholeChecksum (r : α) : UInt32 := Crc32.ofBytes (encode (withCheck r (wholeCheck r 0)))

theorem toNat_size : (format : Format α).size.toUInt16.toNat = (format : Format α).size :=
  UInt16.toNat_ofNat_of_lt' LawfulSealed.size_lt

theorem take_encode (r : α) : (encode r).take (format : Format α).size = encode r := by
  rw [← length_encode r, List.take_length]

/-- Whatever checksum a record holds, the one taken of it is the same. -/
theorem zeroed_encode_withCheck (r : α) (checksum : UInt32) :
    Check.zeroed (encode (withCheck r (wholeCheck r checksum))) = encode (withCheck r (wholeCheck r 0)) := by
  rw [LawfulSealed.encode_withCheck, LawfulSealed.encode_withCheck, Check.zeroed_encode]
  rfl

/-- Sealing replaces the check, and nothing else. -/
theorem sealWhole_eq (r : α) : sealWhole r = withCheck r (wholeCheck r (wholeChecksum r)) := by
  have hchecksum : Check.checksumOf? (encode (withCheck r (wholeCheck r (check r).checksum))) =
      some (wholeChecksum r) := by
    rw [Check.checksumOf?_eq (by rw [length_encode]; exact checksumEnd_le_size r), zeroed_encode_withCheck]
    rfl
  unfold sealWhole sealRange
  simp only [toNat_size, Nat.le_refl, if_true, take_encode, LawfulSealed.check_withCheck,
    LawfulSealed.withCheck_withCheck]
  unfold wholeCheck at hchecksum
  rw [hchecksum]
  rfl

theorem check_sealWhole (r : α) : check (sealWhole r) = wholeCheck r (wholeChecksum r) := by
  rw [sealWhole_eq, LawfulSealed.check_withCheck]

theorem signature_sealWhole (r : α) : signature (sealWhole r) = signature r := by
  rw [sealWhole_eq, LawfulSealed.signature_withCheck]

/-- A sealed record holds up, if it is signed. -/
theorem isValid_sealWhole {r : α} (h : isSigned r = true) : isValid (sealWhole r) = true := by
  have hsigned : isSigned (sealWhole r) = true := by
    unfold isSigned at h ⊢
    rw [signature_sealWhole, h]
  unfold isValid
  rw [hsigned, Bool.true_and, Check.verify_iff, check_sealWhole]
  have hbytes : (wholeCheck r (wholeChecksum r)).bytes.toNat = (format : Format α).size := toNat_size
  refine ⟨Check.or_crc32Flag _, ?_, ?_, ?_⟩
  · rw [hbytes]
    exact checksumEnd_le_size r
  · rw [hbytes]
    exact Nat.le_of_eq (length_encode (sealWhole r)).symm
  · rw [hbytes, take_encode, sealWhole_eq, zeroed_encode_withCheck]
    rfl

theorem sealWhole_sealWhole (r : α) : sealWhole (sealWhole r) = sealWhole r := by
  have hflags : (check r).flags ||| Check.crc32Flag ||| Check.crc32Flag =
      (check r).flags ||| Check.crc32Flag := by
    rw [UInt16.or_assoc, UInt16.or_self]
  have hcheck : ∀ checksum, wholeCheck (sealWhole r) checksum = wholeCheck r checksum := fun checksum => by
    unfold wholeCheck
    rw [check_sealWhole]
    unfold wholeCheck
    rw [hflags]
  have hchecksum : wholeChecksum (sealWhole r) = wholeChecksum r := by
    unfold wholeChecksum
    rw [hcheck, sealWhole_eq, LawfulSealed.withCheck_withCheck]
  rw [sealWhole_eq (sealWhole r), hcheck, hchecksum, sealWhole_eq, LawfulSealed.withCheck_withCheck]

/-- Outside the check a sealed record has the bytes it had before. -/
theorem encode_sealWhole (r : α) :
    encode (sealWhole r) = (encode r).take Signature.format.size ++
      (Check.format.encode (check (sealWhole r)) ++ (encode r).drop Check.checksumEnd) := by
  have hfront : (encode r).take Signature.format.size = Signature.format.encode (signature r) := by
    rw [encode_eq r, ← Signature.exact_format.length_encode (signature r), List.take_left]
  rw [hfront, check_sealWhole, sealWhole_eq, LawfulSealed.encode_withCheck]

end Sealed

/-! ## The three kinds -/

/-- The kinds of checksummed records. -/
inductive RecordKind
  | segment
  | partialLog
  | footer
deriving DecidableEq

namespace RecordKind

/-- The records of a kind. -/
def Record : RecordKind → Type
  | segment => SegmentHeader
  | partialLog => PartialHeader
  | footer => LogFooter

instance : (kind : RecordKind) → Sealed kind.Record
  | segment => inferInstanceAs (Sealed SegmentHeader)
  | partialLog => inferInstanceAs (Sealed PartialHeader)
  | footer => inferInstanceAs (Sealed LogFooter)

instance : (kind : RecordKind) → LawfulSealed kind.Record
  | segment => inferInstanceAs (LawfulSealed SegmentHeader)
  | partialLog => inferInstanceAs (LawfulSealed PartialHeader)
  | footer => inferInstanceAs (LawfulSealed LogFooter)

/-- The record as the header of a log, if it is one. -/
def logHeader? : (kind : RecordKind) → kind.Record → Option LogHeader
  | segment, header => some (.ofSegment header)
  | partialLog, header => some (.ofPartial header)
  | footer, _ => none

theorem key_injective {kind other : RecordKind} (h : Sealed.key kind.Record = Sealed.key other.Record) :
    kind = other := by
  cases kind <;> cases other <;> first | rfl | exact absurd h (by decide)

end RecordKind

namespace Sealed

theorem key_of_isSigned {α : Type} [Sealed α] {r : α} (h : isSigned r = true) : (signature r).key = key α := by
  unfold isSigned Signature.isValid at h
  simpa using (Bool.and_eq_true_iff.1 h).2

/-- Bytes that a signed record is written as are no record of another kind. -/
theorem parse?_eq_none_of_ne {kind other : RecordKind} (hne : other ≠ kind) {r : kind.Record}
    (h : isSigned r = true) (tail : List UInt8) : (parse? (encode r ++ tail) : Option other.Record) = none := by
  rw [Option.eq_none_iff_forall_ne_some]
  intro r' hparse
  obtain ⟨hvalid, tail', hbytes⟩ := parse?_eq_some.1 hparse
  have hsigned : isSigned r' = true := (Bool.and_eq_true_iff.1 hvalid).1
  have hsignature : signature r' = signature r := by
    have := read?_signature r tail
    rw [hbytes, read?_signature] at this
    exact Option.some.inj this
  apply hne
  apply RecordKind.key_injective
  rw [← key_of_isSigned hsigned, hsignature, key_of_isSigned h]

/-- The log header read from the bytes of a trusted record is that record, if it is a log header at all. -/
theorem logHeader_encode {kind : RecordKind} {r : kind.Record} (h : isValid r = true) (tail : List UInt8) :
    LogHeader.parse? (encode r ++ tail) = kind.logHeader? r := by
  have hparse : parse? (encode r ++ tail) = some r := parse?_eq_some.2 ⟨h, tail, rfl⟩
  have hkey := key_of_isSigned (Bool.and_eq_true_iff.1 h).1
  unfold LogHeader.parse?
  rw [read?_signature]
  simp only [hkey]
  cases kind with
  | segment =>
    rw [if_pos (by decide)]
    exact congrArg (Option.map LogHeader.ofSegment) hparse
  | partialLog =>
    rw [if_neg (by decide), if_pos (by decide)]
    exact congrArg (Option.map LogHeader.ofPartial) hparse
  | footer => rw [if_neg (by decide), if_neg (by decide)]; rfl

/-- Sealing a signed record makes the parse of its kind read it back, whatever follows; it replaces nothing but
the check, where it sets the length, the CRC-32 flag and the checksum; it is done once and for all; no other kind
of record is read from the sealed bytes; and they are the header of a log just if the record is one. -/
theorem sealWhole_trusted (kind : RecordKind) (r : kind.Record) (h : isSigned r = true) (tail : List UInt8) :
    parse? (encode (sealWhole r) ++ tail) = some (sealWhole r) ∧
      (∃ checksum, check (sealWhole r) =
          ⟨(format : Format kind.Record).size.toUInt16, (check r).flags ||| Check.crc32Flag, checksum⟩ ∧
        sealWhole r = withCheck r (check (sealWhole r)) ∧
        encode (sealWhole r) = (encode r).take Signature.format.size ++
          (Check.format.encode (check (sealWhole r)) ++ (encode r).drop Check.checksumEnd)) ∧
      sealWhole (sealWhole r) = sealWhole r ∧
      (∀ other, other ≠ kind → (parse? (encode (sealWhole r) ++ tail) : Option other.Record) = none) ∧
      LogHeader.parse? (encode (sealWhole r) ++ tail) = kind.logHeader? (sealWhole r) := by
  have hvalid := isValid_sealWhole h
  have hsigned := (Bool.and_eq_true_iff.1 hvalid).1
  refine ⟨parse?_eq_some.2 ⟨hvalid, tail, rfl⟩, ⟨wholeChecksum r, check_sealWhole r, ?_, encode_sealWhole r⟩,
    sealWhole_sealWhole r, fun other hne => parse?_eq_none_of_ne hne hsigned tail, logHeader_encode hvalid tail⟩
  rw [check_sealWhole, ← sealWhole_eq]

/-- The header of a partial log, sealed and followed by as many zeros as fill up a segment header. -/
theorem partialHeader_trusted :
    let header : RecordKind.partialLog.Record :=
      PartialHeader.fresh ⟨4096, 131072, 131072, 1⟩ .superblock 16 8192 42
    let bytes := encode (sealWhole header) ++ List.replicate 256 0
    isSigned header = true ∧ parse? bytes = some (sealWhole header) ∧
      (check (sealWhole header)).bytes = 512 ∧ (check (sealWhole header)).flags = 1 ∧
      (parse? bytes : Option SegmentHeader) = none ∧ (parse? bytes : Option LogFooter) = none ∧
      LogHeader.parse? bytes = some (.ofPartial (sealWhole header)) := by
  intro header bytes
  have hsigned : isSigned header = true := by decide
  obtain ⟨hparse, ⟨checksum, hcheck, -, -⟩, -, hother, hlog⟩ :=
    sealWhole_trusted .partialLog header hsigned (List.replicate 256 0)
  refine ⟨hsigned, hparse, ?_, ?_, hother .segment (by decide), hother .footer (by decide), hlog⟩
  · rw [hcheck]
    rfl
  · rw [hcheck]
    show (0 : UInt16) ||| Check.crc32Flag = 1
    decide

end Sealed

end FlashVolume
