/-
Walks and the segment they start in. The full log a walk ends at is of the segment: it has its creation time and
its kind. So has the newest log of it, unless that is a partial one, of which the walk only looks at the creation
time: then its header may name any other kind.
-/
import FlashVolume.Proofs.Image.Stray
import FlashVolume.Proofs.Log.Walk

namespace FlashVolume

/-- What the segment of the log holds, as its own header has it. -/
def LogHeader.kindTag : LogHeader → UInt16
  | ofSegment header => header.kindTag
  | ofPartial header => header.kindTag

theorem LogHeader.kind?_eq (header : LogHeader) : header.kind? = SegmentKind.ofTag? header.kindTag := by
  cases header <;> rfl

namespace Volume

variable {v : Volume} {peb page : Nat} {segment first : SegmentHeader} {log : FoundLog}

/-- The header of a log names another kind only if it is that of a partial log. -/
theorem Follows.kindTag_ne_iff (h : v.Follows peb page segment log) : log.header.kindTag ≠ segment.kindTag ↔
    ∃ header, log.header = .ofPartial header ∧ page < log.page ∧
      v.HasPartial peb log.page segment.createTime header ∧ header.kindTag ≠ segment.kindTag := by
  constructor
  · intro hkind
    rcases h.header with ⟨-, hheader⟩ | ⟨header, hheader, hlt, hpartial⟩ <;> rw [hheader] at hkind
    · exact absurd rfl hkind
    · exact ⟨header, hheader, hlt, hpartial, hkind⟩
  · rintro ⟨header, hheader, -, -, hkind⟩
    rw [hheader]
    exact hkind

/-- The full log of the log a walk returns is of the segment the walk started in, by creation time and kind, and
the header of that log has the creation time, too. It names another kind exactly if it is that of a partial log
further on which does so; where no page further on shows such a partial log, the walk stays with the segment. -/
theorem walk_keeps_segment (v : Volume) {peb page : Nat} {first : SegmentHeader} {log : FoundLog}
    (h : v.walk peb page first = .ok log) :
    log.segment.createTime = first.createTime ∧ log.segment.kindTag = first.kindTag ∧
      log.createTime = first.createTime ∧
      (log.header.kindTag ≠ first.kindTag ↔
        ∃ header, log.header = .ofPartial header ∧ page < log.page ∧
          v.HasPartial peb log.page first.createTime header ∧ header.kindTag ≠ first.kindTag) ∧
      ((∀ next header, page < next → v.HasPartial peb next first.createTime header →
          header.kindTag = first.kindTag) →
        log.header.kindTag = first.kindTag) := by
  obtain ⟨last, hle, -, hfollows, htime, hkind⟩ := walk_follows h
  have hiff := hfollows.kindTag_ne_iff
  rw [hkind, htime] at hiff
  refine ⟨htime, hkind, hfollows.createTime.trans htime, ⟨fun hne => ?_, ?_⟩, fun hsame => ?_⟩
  · obtain ⟨header, hheader, hlt, hpartial⟩ := hiff.1 hne
    exact ⟨header, hheader, Nat.lt_of_le_of_lt hle hlt, hpartial⟩
  · rintro ⟨header, hheader, -, -, hne⟩
    rw [hheader]
    exact hne
  · by_contra hne
    obtain ⟨header, -, hlt, hpartial, hne⟩ := hiff.1 hne
    exact hne (hsame _ header (Nat.lt_of_le_of_lt hle hlt) hpartial)

open StrayVolume (stray opening)

/-- The walk over a full log with a partial one of the same kind. -/
theorem stray_keeps_segment : ∃ log, stray.walk 1 0 opening = .ok log ∧
    log.segment.createTime = opening.createTime ∧ log.segment.kindTag = opening.kindTag ∧
    log.createTime = opening.createTime ∧ log.header.kind? = opening.kind? := by
  obtain ⟨-, -, -, hkinds, -⟩ := StrayVolume.outcomes
  obtain ⟨log, hwalk, hkinds⟩ := Option.map_eq_some_iff.1 hkinds
  rw [Outcome.toOption_eq_some] at hwalk
  obtain ⟨htime, hkind, hcreate, -⟩ := walk_keeps_segment stray hwalk
  exact ⟨log, hwalk, htime, hkind, hcreate, congrArg Prod.fst hkinds⟩

/-- A walk leaves the segment it started in: the log it returns is a partial one of another kind. -/
theorem stray_leaves_segment : ∃ log, stray.walk 2 0 opening = .ok log ∧
    log.createTime = opening.createTime ∧ log.header.kindTag ≠ opening.kindTag := by
  obtain ⟨-, -, -, -, hkinds, -⟩ := StrayVolume.outcomes
  obtain ⟨log, hwalk, hkinds⟩ := Option.map_eq_some_iff.1 hkinds
  rw [Outcome.toOption_eq_some] at hwalk
  obtain ⟨last, -, -, hfollows, htime, -⟩ := walk_follows hwalk
  refine ⟨log, hwalk, hfollows.createTime.trans htime, fun hsame => ?_⟩
  have hkind : log.header.kind? = some .mappingTable := congrArg Prod.fst hkinds
  rw [LogHeader.kind?_eq, hsame] at hkind
  revert hkind
  decide

end Volume

end FlashVolume
