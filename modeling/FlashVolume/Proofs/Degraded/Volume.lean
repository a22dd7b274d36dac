/-
Volumes read through a handle on which some reads fail. Whatever is looked up on such a volume comes
out as on the sound one, or ends in a fault: a failed read is never taken for a header that is not
there.
-/
import FlashVolume.Detection.Census
import FlashVolume.Log.Chain
import FlashVolume.Proofs.Outcome

namespace FlashVolume

/-- The outcome is the one it should be, or a fault. -/
def FaultOr {α : Type} (faulty sound : Outcome α) : Prop :=
  faulty = sound ∨ ∃ cause, faulty = .error (.fault cause)

namespace FaultOr

variable {α β : Type}

theorem refl (x : Outcome α) : FaultOr x x := .inl rfl

theorem fault (cause : Fault) (x : Outcome α) : FaultOr (.error (.fault cause)) x := .inr ⟨cause, rfl⟩

theorem bind {x y : Outcome α} {f g : α → Outcome β} (hx : FaultOr x y)
    (hf : ∀ a, FaultOr (f a) (g a)) : FaultOr (x >>= f) (y >>= g) := by
  rcases hx with rfl | ⟨cause, rfl⟩
  · rcases x with stop | a
    · exact .refl _
    · exact hf a
  · exact .fault cause _

theorem map {x y : Outcome α} (hx : FaultOr x y) (f : α → β) : FaultOr (x.map f) (y.map f) := by
  rcases hx with rfl | ⟨cause, rfl⟩
  · exact .refl _
  · exact .fault cause _

theorem mapM {f g : α → Outcome β} (hf : ∀ a, FaultOr (f a) (g a)) :
    ∀ as : List α, FaultOr (as.mapM f) (as.mapM g)
  | [] => .refl _
  | a :: as => by
    rw [List.mapM_cons, List.mapM_cons]
    exact (hf a).bind fun b => (mapM hf as).bind fun bs => .refl _

theorem filterMapM {f g : α → Outcome (Option β)} (hf : ∀ a, FaultOr (f a) (g a)) :
    ∀ as : List α, FaultOr (as.filterMapM f) (as.filterMapM g)
  | [] => .refl _
  | a :: as => by
    rw [List.filterMapM_cons, List.filterMapM_cons]
    refine (hf a).bind fun found => ?_
    rcases found with _ | b
    · exact filterMapM hf as
    · exact (filterMapM hf as).bind fun bs => .refl _

end FaultOr

/-- A handle of the same size whose reads deliver what they should, or fail. -/
structure Handle.Degrades (faulty sound : Handle) : Prop where
  size : faulty.size = sound.size
  read : ∀ offset length, faulty.read offset length = sound.read offset length ∨
    ∃ cause, faulty.read offset length = .error cause

/-- A handle on which some byte ranges cannot be read. -/
theorem Handle.failing_degrades (ranges : List (Nat × Nat)) (handle : Handle) :
    (handle.failing ranges).Degrades handle where
  size := rfl
  read offset length := by
    unfold failing
    simp only
    split
    · exact .inr ⟨_, rfl⟩
    · exact .inl rfl

/-- The same volume read through such a handle. -/
structure Volume.Degrades (faulty sound : Volume) : Prop where
  geometry : faulty.geometry = sound.geometry
  handle : faulty.handle.Degrades sound.handle

namespace Volume.Degrades

variable {w v : Volume} (h : w.Degrades v)

include h

/-! ## Records -/

theorem pebsCount : w.pebsCount = v.pebsCount := by
  unfold Volume.pebsCount
  rw [h.geometry, h.handle.size]

theorem pagesPerPeb : w.pagesPerPeb = v.pagesPerPeb := by
  unfold Volume.pagesPerPeb
  rw [h.geometry]

theorem areaRegion (page : Nat) (area : AreaDescriptor) : w.areaRegion page area = v.areaRegion page area := by
  unfold Volume.areaRegion
  rw [h.geometry]

theorem readBytes (peb offset length : Nat) :
    FaultOr (w.readBytes peb offset length) (v.readBytes peb offset length) := by
  unfold Volume.readBytes
  rcases h.handle.read offset length with e | ⟨cause, e⟩ <;> rw [e]
  · exact .refl _
  · exact .fault ..

theorem readHeaderBytes (peb page length : Nat) :
    FaultOr (w.readHeaderBytes peb page length) (v.readHeaderBytes peb page length) := by
  unfold Volume.readHeaderBytes
  rw [h.geometry, h.handle.size]
  refine .bind (.refl _) fun offset => ?_
  split
  · exact .refl _
  · exact (h.readBytes ..).bind fun bytes => .refl _

theorem segmentHeader? (peb page : Nat) :
    FaultOr (w.segmentHeader? peb page) (v.segmentHeader? peb page) :=
  (h.readHeaderBytes ..).bind fun _ => .refl _

theorem partialHeader? (peb page : Nat) :
    FaultOr (w.partialHeader? peb page) (v.partialHeader? peb page) :=
  (h.readHeaderBytes ..).bind fun _ => .refl _

theorem readArea (peb page : Nat) (area : AreaDescriptor) :
    FaultOr (w.readArea peb page area) (v.readArea peb page area) := by
  unfold Volume.readArea
  rw [h.areaRegion, h.geometry]
  split
  · exact .refl _
  · refine .bind (.refl _) fun start => .bind (.refl _) fun _ => ?_
    exact h.readBytes ..

theorem readAreaStart (peb page : Nat) (area : AreaDescriptor) (length : Nat) :
    FaultOr (w.readAreaStart peb page area length) (v.readAreaStart peb page area length) := by
  unfold Volume.readAreaStart
  rw [h.areaRegion, h.geometry]
  split
  · exact .refl _
  · split
    · exact .refl _
    · exact .bind (.refl _) fun start => (h.readBytes ..).bind fun _ => .refl _

theorem footerOf? (peb page : Nat) (header : LogHeader) :
    FaultOr (w.footerOf? peb page header) (v.footerOf? peb page header) := by
  unfold Volume.footerOf?
  split
  · exact (h.readAreaStart ..).bind fun _ => .refl _
  · exact .refl _

theorem blockBitmapHeader? (peb page : Nat) (header : LogHeader) :
    FaultOr (w.blockBitmapHeader? peb page header) (v.blockBitmapHeader? peb page header) := by
  unfold Volume.blockBitmapHeader?
  split
  · exact .refl _
  · exact (h.readAreaStart ..).bind fun _ => .refl _

theorem offsetsTableHeader? (peb page : Nat) (header : LogHeader) :
    FaultOr (w.offsetsTableHeader? peb page header) (v.offsetsTableHeader? peb page header) := by
  unfold Volume.offsetsTableHeader?
  split
  · exact .refl _
  · exact (h.readAreaStart ..).bind fun _ => .refl _

theorem cacheArea? (peb page : Nat) (header : LogHeader) :
    FaultOr (w.cacheArea? peb page header) (v.cacheArea? peb page header) := by
  unfold Volume.cacheArea?
  split
  · exact .refl _
  · exact (h.readArea ..).bind fun _ => .refl _

/-! ## Walks -/

theorem walkFullFrom (pagesPerPeb peb page : Nat) (current : SegmentHeader) :
    FaultOr (w.walkFullFrom pagesPerPeb peb page current) (v.walkFullFrom pagesPerPeb peb page current) := by
  unfold Volume.walkFullFrom
  split
  · exact .refl _
  split
  · exact .refl _
  rename_i next _
  split
  · rcases h.segmentHeader? peb next with e | ⟨cause, e⟩ <;> rw [e]
    · split
      · exact .refl _
      · exact .refl _
      · split
        · exact walkFullFrom pagesPerPeb peb next _
        · exact .refl _
    · exact .fault ..
  · exact .refl _
termination_by pagesPerPeb - page
decreasing_by
  have := pos_of_validLogPages (by assumption)
  have := (word32_eq_ok.1 (by assumption)).2
  omega

theorem walkFull (peb page : Nat) (first : SegmentHeader) :
    FaultOr (w.walkFull peb page first) (v.walkFull peb page first) := by
  unfold Volume.walkFull
  rw [h.pagesPerPeb]
  split
  · exact .refl _
  · exact h.walkFullFrom ..

theorem partialFooter? (peb page : Nat) (header : PartialHeader) :
    FaultOr (w.partialFooter? peb page header) (v.partialFooter? peb page header) := by
  unfold Volume.partialFooter?
  split
  · exact h.footerOf? ..
  · exact .refl _

theorem walkPartialFrom (start upper fullBytes : Nat) (log : FoundLog) (logBytes : Nat) :
    FaultOr (w.walkPartialFrom start upper fullBytes log logBytes)
      (v.walkPartialFrom start upper fullBytes log logBytes) := by
  have hnext : w.pageAfter log.page logBytes = v.pageAfter log.page logBytes := by
    unfold pageAfter
    rw [h.geometry]
  have hused : w.consumed start log.page logBytes = v.consumed start log.page logBytes := by
    unfold consumed
    rw [h.geometry]
  unfold Volume.walkPartialFrom
  rw [hused, hnext]
  split
  · exact .refl _
  simp only
  split
  · rcases h.partialHeader? log.peb (v.pageAfter log.page logBytes) with e | ⟨cause, e⟩ <;> rw [e]
    · split
      · exact .refl _
      · exact .refl _
      · split
        · rename_i header _ _
          rcases h.partialFooter? log.peb (v.pageAfter log.page logBytes) header with e | ⟨cause, e⟩ <;>
            rw [e]
          · split
            · exact .refl _
            · exact walkPartialFrom ..
          · exact .fault ..
        · exact .refl _
    · exact .fault ..
  · exact .refl _
termination_by upper - log.page
decreasing_by
  have : log.page < v.pageAfter log.page logBytes := by unfold pageAfter; omega
  omega

theorem walkPartial (peb page : Nat) (segment : SegmentHeader) :
    FaultOr (w.walkPartial peb page segment) (v.walkPartial peb page segment) := by
  unfold Volume.walkPartial
  rw [h.pagesPerPeb, h.geometry]
  split
  · exact .refl _
  split
  · exact .refl _
  split
  · exact .refl _
  rcases h.footerOf? peb page (.ofSegment segment) with e | ⟨cause, e⟩ <;> rw [e]
  · split
    · exact .refl _
    · exact h.walkPartialFrom ..
  · exact .fault ..

theorem walk (peb page : Nat) (first : SegmentHeader) :
    FaultOr (w.walk peb page first) (v.walk peb page first) := by
  unfold Volume.walk
  rcases h.walkFull peb page first with e | ⟨cause, e⟩ <;> rw [e]
  · split
    · exact .refl _
    · exact h.walkPartial ..
  · exact .fault ..

/-! ## Lookups -/

theorem findSegment? (peb : Nat) (kind : SegmentKind) (page : Nat) :
    FaultOr (w.findSegment? peb kind page) (v.findSegment? peb kind page) := by
  unfold Volume.findSegment?
  rw [h.pebsCount]
  split
  · exact .refl _
  split
  · rcases h.segmentHeader? peb page with e | ⟨cause, e⟩ <;> rw [e]
    · exact .refl _
    · exact .fault ..
  · exact .refl _

theorem findLast? (peb : Nat) (kind : SegmentKind) :
    FaultOr (w.findLast? peb kind) (v.findLast? peb kind) := by
  unfold Volume.findLast?
  rcases h.findSegment? peb kind 0 with e | ⟨cause, e⟩ <;> rw [e]
  · split
    · exact .refl _
    · exact .refl _
    · rename_i header _
      rcases h.walk peb 0 header with e | ⟨cause, e⟩ <;> rw [e]
      · exact .refl _
      · exact .fault ..
  · exact .fault ..

theorem followFrom (i : Instance) (createTime : UInt64) :
    ∀ (hops : Nat) (log : FoundLog),
      FaultOr (w.followFrom i createTime hops log) (v.followFrom i createTime hops log)
  | 0, _ => .refl _
  | hops + 1, log => by
    unfold Volume.followFrom
    split
    · exact .refl _
    rename_i next _
    rcases h.findSegment? next .superblock 0 with e | ⟨cause, e⟩ <;> rw [e]
    · split
      · exact .refl _
      · exact .refl _
      · split
        · rename_i header _ _
          rcases h.walk next 0 header with e | ⟨cause, e⟩ <;> rw [e]
          · split
            · exact .refl _
            · exact followFrom i createTime hops _
          · exact .fault ..
        · exact .refl _
    · exact .fault ..

theorem followSuperblocks? (header : VolumeHeader) (i : Instance) (createTime : UInt64) :
    FaultOr (w.followSuperblocks? header i createTime) (v.followSuperblocks? header i createTime) := by
  unfold Volume.followSuperblocks?
  rw [h.pebsCount]
  split
  · exact .refl _
  rename_i peb _
  rcases h.findLast? peb .superblock with e | ⟨cause, e⟩ <;> rw [e]
  · split
    · exact .refl _
    · exact .refl _
    · split
      · split
        · exact .refl _
        · rename_i log _ _ _ pebs _
          rcases h.followFrom i createTime pebs log with e | ⟨cause, e⟩ <;> rw [e]
          · exact .refl _
          · exact .fault ..
      · exact .refl _
  · exact .fault ..

/-! ## Census -/

theorem scanPeb (peb : Nat) : FaultOr (w.scanPeb peb) (v.scanPeb peb) := by
  unfold Volume.scanPeb
  exact (h.segmentHeader? ..).bind fun _ => .refl _

theorem scanShard (shard : Shard) : FaultOr (w.scanShard shard) (v.scanShard shard) :=
  FaultOr.filterMapM h.scanPeb _

end Volume.Degrades

end FlashVolume
