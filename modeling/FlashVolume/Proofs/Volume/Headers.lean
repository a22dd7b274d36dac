/-
The readers of log headers. A header that is read for either kind is the one that the reader for its kind comes to.
But it is looked for in as many bytes as the longer of the two kinds takes: where the device ends before, a partial
log has a header that only the reader for partial logs comes to.
-/
import FlashVolume.Proofs.Image.Edge
import FlashVolume.Proofs.Volume.InMemory

namespace FlashVolume

/-! ## Headers of either kind -/

namespace LogHeader

variable {bytes : List UInt8}

/-- What is read for either kind is what is read for one of them. -/
theorem parse?_eq_some_iff {log : LogHeader} : parse? bytes = some log ↔
    ∃ (kind : RecordKind) (record : kind.Record), kind.logHeader? record = some log ∧
      Sealed.parse? bytes = some record := by
  constructor
  · intro h
    unfold parse? at h
    split at h
    · cases h
    split at h
    · obtain ⟨record, hparse, hlog⟩ := Option.map_eq_some_iff.1 h
      exact ⟨.segment, record, congrArg some hlog, hparse⟩
    split at h
    · obtain ⟨record, hparse, hlog⟩ := Option.map_eq_some_iff.1 h
      exact ⟨.partialLog, record, congrArg some hlog, hparse⟩
    · cases h
  · rintro ⟨kind, record, hlog, hparse⟩
    obtain ⟨hvalid, tail, rfl⟩ := Sealed.parse?_eq_some.1 hparse
    rw [Sealed.logHeader_encode hvalid tail, hlog]

theorem parse?_eq_ofSegment {header : SegmentHeader} :
    parse? bytes = some (.ofSegment header) ↔ Sealed.parse? bytes = some header := by
  rw [parse?_eq_some_iff]
  constructor
  · rintro ⟨kind, record, hlog, hparse⟩
    cases kind <;> cases hlog
    exact hparse
  · exact fun hparse => ⟨.segment, header, rfl, hparse⟩

theorem parse?_eq_ofPartial {header : PartialHeader} :
    parse? bytes = some (.ofPartial header) ↔ Sealed.parse? bytes = some header := by
  rw [parse?_eq_some_iff]
  constructor
  · rintro ⟨kind, record, hlog, hparse⟩
    cases kind <;> cases hlog
    exact hparse
  · exact fun hparse => ⟨.partialLog, header, rfl, hparse⟩

end LogHeader

/-- What is read for either kind is what is read for one of them, and nothing if both find nothing. -/
structure HeadersAgree (segment : Option SegmentHeader) (partialLog : Option PartialHeader)
    (log : Option LogHeader) : Prop where
  ofSegment : ∀ header, log = some (.ofSegment header) ↔ segment = some header
  ofPartial : ∀ header, log = some (.ofPartial header) ↔ partialLog = some header
  none : log = .none ↔ segment = .none ∧ partialLog = .none

/-- From the same bytes the same header is read. -/
theorem LogHeader.agree_parse? (bytes : List UInt8) :
    HeadersAgree (Sealed.parse? bytes) (Sealed.parse? bytes) (parse? bytes) := by
  refine ⟨fun _ => parse?_eq_ofSegment, fun _ => parse?_eq_ofPartial, ?_⟩
  simp only [Option.eq_none_iff_forall_ne_some]
  constructor
  · exact fun h => ⟨fun header hheader => h _ (parse?_eq_ofSegment.2 hheader),
      fun header hheader => h _ (parse?_eq_ofPartial.2 hheader)⟩
  · rintro ⟨hsegment, hpartial⟩ header hheader
    cases header with
    | ofSegment header => exact hsegment header (parse?_eq_ofSegment.1 hheader)
    | ofPartial header => exact hpartial header (parse?_eq_ofPartial.1 hheader)

/-! ## Positions -/

namespace Geometry

theorem pageSize_le_of_ofLogs? {page erase segment pebs : Nat} {g : Geometry}
    (h : ofLogs? page erase segment pebs = some g) : g.pageSize ≤ 65536 := by
  obtain ⟨⟨-, hpage, -⟩, rfl⟩ := ofLogs?_eq_some_iff.1 h
  simp only [Nat.one_shiftLeft]
  exact Nat.pow_le_pow_right Nat.two_pos hpage

/-- Numbers of 32 bits designate no header near the end of the words. -/
theorem headerOffset_lt_of_ofLogs? {logPage logErase logSegment logPebs peb page : Nat} {g : Geometry}
    (h : ofLogs? logPage logErase logSegment logPebs = some g) (hpeb : peb < UInt32.size)
    (hpage : page < UInt32.size) {length : Nat} (hlength : length ≤ 768) :
    g.headerOffset peb page + length < UInt64.size - 1 := by
  have hoffset := g.headerOffset_le peb page
  have hblock : peb * g.eraseSize ≤ UInt32.size * 2 ^ 31 :=
    Nat.mul_le_mul (Nat.le_of_lt hpeb) (bounded_of_ofLogs? h).eraseSize_le
  have hwithin : page * g.pageSize ≤ UInt32.size * 65536 :=
    Nat.mul_le_mul (Nat.le_of_lt hpage) (pageSize_le_of_ofLogs? h)
  unfold logOffset bootRecordSize at hoffset
  simp only [UInt32.size, UInt64.size] at hblock hwithin ⊢
  omega

end Geometry

/-! ## Readers -/

namespace Volume

variable {bytes : ByteArray} {g : Geometry} {peb page : Nat}

/-- The device goes on long enough behind the position of a header for one of either kind. -/
def HasRoom (bytes : ByteArray) (g : Geometry) (peb page : Nat) : Prop :=
  g.headerOffset peb page + 768 ≤ bytes.size

instance (bytes : ByteArray) (g : Geometry) (peb page : Nat) : Decidable (HasRoom bytes g peb page) :=
  inferInstanceAs (Decidable (_ ≤ _))

theorem logHeader?_ofBytes (bytes : ByteArray) (h : g.headerOffset peb page + 768 < UInt64.size - 1) :
    (mk (.ofBytes bytes) g).logHeader? peb page =
      .ok (if HasRoom bytes g peb page then
        LogHeader.parse? ((bytesFrom bytes (g.headerOffset peb page)).take 768) else none) := by
  have hlength : max SegmentHeader.format.size PartialHeader.format.size = 768 := by
    rw [SegmentHeader.size_format, PartialHeader.size_format]
    rfl
  unfold logHeader?
  rw [hlength, readHeaderBytes_ofBytes bytes h]
  by_cases hroom : HasRoom bytes g peb page
  · rw [if_pos hroom, if_pos (show _ ≤ _ from hroom)]
    rfl
  · rw [if_neg hroom, if_neg (show ¬ _ ≤ _ from hroom)]
    rfl

/-- A segment header takes all the room there has to be for either kind. -/
theorem hasRoom_of_parse? {header : SegmentHeader}
    (h : Sealed.parse? (bytesFrom bytes (g.headerOffset peb page)) = some header) : HasRoom bytes g peb page := by
  have hle : SegmentHeader.format.size ≤ _ := Sealed.size_le_of_parse? h
  rw [SegmentHeader.size_format, length_bytesFrom] at hle
  unfold HasRoom
  omega

/-- Reading a header never fails in memory. The readers agree, except where the device ends too soon behind a
partial log: its header is not found then by the reader for either kind, nor is any other. -/
theorem logHeader?_agrees {logPage logErase logSegment logPebs : Nat}
    (hg : Geometry.ofLogs? logPage logErase logSegment logPebs = some g) (hpeb : peb < UInt32.size)
    (hpage : page < UInt32.size) (bytes : ByteArray) :
    ∃ segment partialLog log,
      (mk (.ofBytes bytes) g).segmentHeader? peb page = .ok segment ∧
      (mk (.ofBytes bytes) g).partialHeader? peb page = .ok partialLog ∧
      (mk (.ofBytes bytes) g).logHeader? peb page = .ok log ∧
      (HeadersAgree segment partialLog log ↔ (partialLog ≠ none → HasRoom bytes g peb page)) ∧
      (¬ HasRoom bytes g peb page → segment = none ∧ log = none) := by
  have hword {length : Nat} (hlength : length ≤ 768) :=
    Geometry.headerOffset_lt_of_ofLogs? hg hpeb hpage hlength
  have hsegment := hword (Nat.le_of_eq SegmentHeader.size_format)
  have hpartial := hword (Nat.le_trans (Nat.le_of_eq PartialHeader.size_format) (by decide))
  refine ⟨_, _, _, segmentHeader?_ofBytes bytes hsegment, partialHeader?_ofBytes bytes hpartial,
    logHeader?_ofBytes bytes (hword (Nat.le_refl _)), ?_⟩
  by_cases hroom : HasRoom bytes g peb page
  · have hagree := LogHeader.agree_parse? ((bytesFrom bytes (g.headerOffset peb page)).take 768)
    rw [Sealed.parse?_take (α := SegmentHeader) (Nat.le_of_eq SegmentHeader.size_format),
      Sealed.parse?_take (α := PartialHeader)
        (Nat.le_trans (Nat.le_of_eq PartialHeader.size_format) (by decide))] at hagree
    rw [if_pos hroom]
    exact ⟨iff_of_true hagree fun _ => hroom, fun h => absurd hroom h⟩
  · have hnone : (Sealed.parse? (bytesFrom bytes (g.headerOffset peb page)) : Option SegmentHeader) = none :=
      Option.eq_none_iff_forall_ne_some.2 fun header hheader => hroom (hasRoom_of_parse? hheader)
    rw [if_neg hroom, hnone]
    refine ⟨⟨fun hagree hfound => absurd (hagree.none.1 rfl).2 hfound, fun h => ?_⟩, fun _ => ⟨rfl, rfl⟩⟩
    rw [Decidable.of_not_not (mt h hroom)]
    exact ⟨fun _ => iff_of_false nofun nofun, fun _ => iff_of_false nofun nofun, iff_of_true rfl ⟨rfl, rfl⟩⟩

open EdgeVolume (narrow)

/-- The readers agree on the first log of a volume. -/
theorem narrow_agrees : ∃ header, narrow.segmentHeader? 0 0 = .ok (some header) ∧
    narrow.partialHeader? 0 0 = .ok none ∧ narrow.logHeader? 0 0 = .ok (some (.ofSegment header)) := by
  obtain ⟨⟨hfound, -⟩, -⟩ := EdgeVolume.outcomes
  obtain ⟨_ | header, _ | _, _ | log, hsegment, hpartial, hlog, heq⟩ := EdgeVolume.exists_readers hfound <;> cases heq
  obtain ⟨segment', partial', log', hsegment', hpartial', hlog', hagree, -⟩ :=
    logHeader?_agrees (show Geometry.ofLogs? 9 12 12 0 = some EdgeVolume.geometry by decide)
      (show 0 < UInt32.size by decide) (show 0 < UInt32.size by decide) ⟨EdgeVolume.narrowBytes.toArray⟩
  obtain rfl := Except.ok.inj (hsegment.symm.trans hsegment')
  obtain rfl := Except.ok.inj (hpartial.symm.trans hpartial')
  refine ⟨header, hsegment, hpartial, hlog'.trans (congrArg _ ?_)⟩
  exact ((hagree.2 fun h => absurd rfl h).ofSegment header).2 rfl

/-- A partial log in the last bytes of a device has a header that the reader for either kind does not come to. -/
theorem narrow_disagrees : Geometry.ofLogs? 9 12 12 0 = some narrow.geometry ∧
    ∃ header, narrow.segmentHeader? 0 4 = .ok none ∧ narrow.partialHeader? 0 4 = .ok (some header) ∧
      narrow.logHeader? 0 4 = .ok none := by
  refine ⟨by decide, ?_⟩
  obtain ⟨⟨-, hfound⟩, -⟩ := EdgeVolume.outcomes
  obtain ⟨_ | _, _ | header, _ | _, hsegment, hpartial, hlog, heq⟩ := EdgeVolume.exists_readers hfound <;> cases heq
  exact ⟨header, hsegment, hpartial, hlog⟩

end Volume

end FlashVolume
