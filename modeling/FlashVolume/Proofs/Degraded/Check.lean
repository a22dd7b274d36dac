/-
A read that fails is never swallowed. Detection and check on a device with unreadable ranges report what
they would report on the sound device, or that they failed.
-/
import FlashVolume.Check.Config
import FlashVolume.Check.Report
import FlashVolume.Proofs.Degraded.Volume

namespace FlashVolume

/-! ## Bootstrap header -/

theorem Bootstrap.search_degrades {faulty sound : Handle} (h : faulty.Degrades sound) (eraseSize : Nat) :
    ∀ probes, FaultOr (search faulty eraseSize probes) (search sound eraseSize probes)
  | [] => .refl _
  | offset :: rest => by
    unfold search
    rw [h.size]
    split
    · exact .refl _
    split
    · exact .refl _
    split
    · exact .refl _
    rcases h.read offset SegmentHeader.format.size with e | ⟨cause, e⟩ <;> rw [e]
    · split
      · exact .refl _
      · split
        · exact .refl _
        · exact search_degrades h eraseSize rest
    · exact .fault ..

theorem Bootstrap.find?_degrades {faulty sound : Handle} (h : faulty.Degrades sound) (eraseSize : Nat) :
    FaultOr (find? faulty eraseSize) (find? sound eraseSize) := by
  unfold find?
  rw [h.size]
  exact search_degrades h eraseSize _

/-! ## Trail -/

/-- The step ends as it should, or in a fault. -/
def StepFaultOr (faulty sound : StepResult) : Prop :=
  faulty = sound ∨ ∃ cause, faulty.2 = .error (.fault cause)

/-- The same trailhead on a volume whose reads may fail. -/
structure Trailhead.Degrades (faulty sound : Trailhead) : Prop where
  volume : faulty.volume.Degrades sound.volume
  bootstrap : faulty.bootstrap = sound.bootstrap

/-- Steps that end as they should or in a fault make up a trail that does. -/
theorem Trailhead.followSteps_faultOr {s t : Trailhead}
    {steps : List (String × (Trailhead → CreationPoint → StepResult))}
    (hsteps : ∀ step ∈ steps, ∀ point, StepFaultOr (step.2 s point) (step.2 t point))
    (point : CreationPoint) :
    StepFaultOr (s.followSteps point steps) (t.followSteps point steps) := by
  induction steps generalizing point with
  | nil => exact .inl rfl
  | cons step rest ih =>
    obtain ⟨name, step⟩ := step
    unfold Trailhead.followSteps
    rcases hsteps _ (List.mem_cons_self ..) point with e | ⟨cause, e⟩ <;> simp only at e
    · rw [e]
      split
      · exact ih (fun step hstep => hsteps step (List.mem_cons_of_mem _ hstep)) _
      · exact .inl rfl
    · rcases hstep : step s point with ⟨next, ending⟩
      rw [hstep] at e
      cases e
      exact .inr ⟨cause, rfl⟩

namespace Trailhead.Degrades

variable {s t : Trailhead} (h : s.Degrades t)

include h

theorem snapshotLog? : FaultOr s.snapshotLog? t.snapshotLog? := by
  unfold Trailhead.snapshotLog?
  rw [h.bootstrap]
  split
  · exact (h.volume.walk ..).map _
  · exact h.volume.findLast? ..

theorem findSnapshot (point : CreationPoint) :
    StepFaultOr (s.findSnapshot point) (t.findSnapshot point) := by
  unfold Trailhead.findSnapshot
  rcases h.snapshotLog? with e | ⟨cause, e⟩ <;> rw [e]
  · exact .inl rfl
  · exact .inr ⟨cause, rfl⟩

theorem superblocks (header : VolumeHeader) (createTime : UInt64) :
    FaultOr (s.superblocks header createTime) (t.superblocks header createTime) := by
  unfold Trailhead.superblocks
  exact (h.volume.followSuperblocks? ..).bind fun main =>
    (h.volume.followSuperblocks? ..).bind fun copy => .refl _

theorem mappingCache? (log : FoundLog) : FaultOr (s.mappingCache? log) (t.mappingCache? log) := by
  unfold Trailhead.mappingCache?
  exact (h.volume.cacheArea? ..).bind fun area => .refl _

theorem findCache (point : CreationPoint) : StepFaultOr (s.findCache point) (t.findCache point) := by
  unfold Trailhead.findCache
  split
  · exact .inl rfl
  rename_i log _
  rcases h.mappingCache? log with e | ⟨cause, e⟩ <;> rw [e]
  · exact .inl rfl
  · exact .inr ⟨cause, rfl⟩

theorem findSuperblock (point : CreationPoint) :
    StepFaultOr (s.findSuperblock point) (t.findSuperblock point) := by
  unfold Trailhead.findSuperblock
  split
  · exact .inl rfl
  rename_i base _
  rcases h.superblocks base.segment.volume point.createTime with e | ⟨cause, e⟩ <;> rw [e]
  · split
    · exact .inl rfl
    · split
      · exact h.findCache _
      · exact .inl rfl
  · exact .inr ⟨cause, rfl⟩

theorem optionalLog? (point : CreationPoint) (cache : MappingCache) (kind : SegmentKind)
    (leb : Option Nat) :
    FaultOr (s.optionalLog? point cache kind leb) (t.optionalLog? point cache kind leb) := by
  unfold Trailhead.optionalLog?
  split
  · split
    · unfold Trailhead.lebLog?
      split
      · exact .refl _
      · exact (h.volume.findLast? ..).map _
    · exact .refl _
  · exact .refl _

theorem lebPair (point : CreationPoint) (cache : MappingCache) (kind : SegmentKind) (hasCopy : Bool)
    (lebs : Duplex (Option Nat)) :
    FaultOr (s.lebPair point cache kind hasCopy lebs) (t.lebPair point cache kind hasCopy lebs) := by
  unfold Trailhead.lebPair
  refine (h.optionalLog? ..).bind fun main => ?_
  cases hasCopy
  · exact .refl _
  · exact (h.optionalLog? ..).bind fun copy => .refl _

theorem groupPairs (point : CreationPoint) (cache : MappingCache) (kind : SegmentKind) (hasCopy : Bool)
    (groups : List (List (Duplex (Option Nat)))) :
    FaultOr (s.groupPairs point cache kind hasCopy groups)
      (t.groupPairs point cache kind hasCopy groups) :=
  FaultOr.mapM (fun group => FaultOr.mapM (h.lebPair point cache kind hasCopy) group) groups

theorem findSegmentBitmap (point : CreationPoint) :
    StepFaultOr (s.findSegmentBitmap point) (t.findSegmentBitmap point) := by
  unfold Trailhead.findSegmentBitmap
  rw [h.volume.geometry]
  split
  · rename_i header cache _ _
    simp only
    split
    · rcases h.groupPairs point cache .segmentBitmap header.segmentBitmap.hasCopy
        (bitmapLebs header.segmentBitmap t.volume.geometry.pebsPerSegment) with e | ⟨cause, e⟩ <;> rw [e]
      · exact .inl rfl
      · exact .inr ⟨cause, rfl⟩
    · exact .inl rfl
  · exact .inl rfl

theorem findMappingTable (point : CreationPoint) :
    StepFaultOr (s.findMappingTable point) (t.findMappingTable point) := by
  unfold Trailhead.findMappingTable
  split
  · rename_i header cache _ _
    have hpairs : FaultOr
        (s.volume.pebsCount.bind fun pebs =>
          s.groupPairs point cache .mappingTable header.mappingTable.hasCopy
            (tableLebs header.mappingTable pebs))
        (t.volume.pebsCount.bind fun pebs =>
          t.groupPairs point cache .mappingTable header.mappingTable.hasCopy
            (tableLebs header.mappingTable pebs)) := by
      rw [h.volume.pebsCount]
      exact FaultOr.bind (.refl _) fun pebs => h.groupPairs ..
    rcases hpairs with e | ⟨cause, e⟩ <;> simp only [e]
    · exact .inl rfl
    · exact .inr ⟨cause, rfl⟩
  · exact .inl rfl

theorem follow (point : CreationPoint) : StepFaultOr (s.follow point) (t.follow point) := by
  refine followSteps_faultOr (fun step hstep point => ?_) point
  unfold steps at hstep
  simp only [List.mem_cons, List.not_mem_nil, or_false] at hstep
  rcases hstep with rfl | rfl | rfl | rfl
  · exact h.findSnapshot point
  · exact h.findSuperblock point
  · exact h.findSegmentBitmap point
  · exact h.findMappingTable point

end Trailhead.Degrades

/-! ## Detection -/

/-- A device of the same size whose reads deliver what they should, or fail, through whatever handle. -/
structure Device.Degrades (faulty sound : Device) : Prop where
  handle : faulty.handle.Degrades sound.handle
  reopened : ∀ opened, faulty.reopened = .ok opened → ∃ opened', sound.reopened = .ok opened' ∧
    opened.Degrades opened'

/-- A device on which some byte ranges cannot be read. -/
theorem Device.failing_degrades (ranges : List (Nat × Nat)) (device : Device) :
    (device.failing ranges).Degrades device where
  handle := Handle.failing_degrades ranges device.handle
  reopened opened h := by
    unfold failing at h
    rcases hopen : device.reopened with cause | opened' <;> rw [hopen] at h <;> cases h
    exact ⟨opened', rfl, Handle.failing_degrades ranges opened'⟩

theorem Volume.Degrades.scan {w v : Volume} (h : w.Degrades v) {faulty sound : Device}
    (hd : faulty.Degrades sound) (workers : Nat) :
    FaultOr (w.scan faulty.reopened workers) (v.scan sound.reopened workers) := by
  unfold Volume.scan
  rw [h.pebsCount]
  split
  · exact .refl _
  simp only
  split
  · exact FaultOr.mapM h.scanShard _
  · rcases hopen : faulty.reopened with cause | opened
    · exact .fault ..
    · obtain ⟨opened', hsound, hopened⟩ := hd.reopened opened hopen
      rw [hsound]
      have hw : (w.withHandle opened).Degrades (v.withHandle opened') := ⟨h.geometry, hopened⟩
      exact FaultOr.mapM hw.scanShard _

namespace Device.Degrades

variable {faulty sound : Device} (h : faulty.Degrades sound)

include h

theorem explore (options : DetectOptions) {s t : Trailhead} (ht : s.Degrades t) :
    FaultOr (faulty.explore options s) (sound.explore options t) := by
  unfold Device.explore
  rw [ht.volume.geometry, ht.bootstrap]
  simp only
  generalize { CreationPoint.fresh t.bootstrap.header.createTime with
    geometry := some t.volume.geometry } = fresh
  rcases ht.follow fresh with e | ⟨cause, e⟩
  · rw [e]
    split
    · exact .refl _
    split
    · rcases ht.volume.scan h options.workers with e | ⟨cause, e⟩ <;> rw [e]
      · exact .refl _
      · exact .fault ..
    · exact .refl _
  · rcases hfollow : s.follow fresh with ⟨point, ending⟩
    rw [hfollow] at e
    cases e
    exact .fault ..

theorem tryDetect (options : DetectOptions) :
    FaultOr (faulty.tryDetect options) (sound.tryDetect options) := by
  unfold Device.tryDetect
  rcases Bootstrap.find?_degrades h.handle options.scanEraseSize with e | ⟨cause, e⟩ <;> rw [e]
  · split
    · exact .refl _
    · exact .refl _
    · split
      · exact .refl _
      · split
        · exact .refl _
        · exact h.explore options ⟨⟨rfl, h.handle⟩, rfl⟩
  · exact .fault ..

/-- Detection reports the same, or that it failed. -/
theorem detect (options : DetectOptions) : faulty.detect options = sound.detect options ∨
    ∃ cause, faulty.detect options = .ok (.ofFault cause) := by
  unfold Device.detect
  rcases h.tryDetect options with e | ⟨cause, e⟩ <;> rw [e]
  · exact .inl rfl
  · exact .inr ⟨cause, rfl⟩

end Device.Degrades

/-! ## Check -/

/-- The same subject on a volume whose reads may fail. -/
structure Subject.Degrades (faulty sound : Subject) : Prop where
  volume : faulty.volume.Degrades sound.volume
  detection : faulty.detection = sound.detection

/-- The inspection comes out as it should, or fails. -/
def Inspector.FailsOr (inspector : Inspector) (faulty sound : Subject) : Prop :=
  inspector.inspect faulty = inspector.inspect sound ∨
    ∃ cause, inspector.inspect faulty = .error (.failure cause)

namespace Subject.Degrades

variable {faulty sound : Subject} (h : faulty.Degrades sound)

include h

theorem point? : faulty.point? = sound.point? := by
  unfold Subject.point?
  rw [h.detection]

theorem state? : faulty.state? = sound.state? := by
  unfold Subject.state?
  rw [h.point?]

theorem superblockVerdict :
    FaultOr (Inspector.superblockVerdict faulty) (Inspector.superblockVerdict sound) := by
  unfold Inspector.superblockVerdict
  simp only [h.point?]
  split
  · split
    · exact .refl _
    · refine (h.volume.blockBitmapHeader? ..).bind fun bitmap => ?_
      split
      · exact .refl _
      · exact (h.volume.offsetsTableHeader? ..).bind fun table => .refl _
  · exact .refl _

theorem superblock : Inspector.superblock.FailsOr faulty sound := by
  unfold Inspector.FailsOr Inspector.superblock
  rcases h.superblockVerdict with e | ⟨cause, e⟩ <;> simp only [e]
  · exact .inl trivial
  · exact .inr ⟨.fault cause, rfl⟩

/-- No inspection accepts or rejects a structure for a read that failed. -/
theorem standard : ∀ inspector ∈ Inspector.standard, inspector.FailsOr faulty sound := by
  have hpoint := h.point?
  have hstate := h.state?
  intro inspector hmem
  unfold Inspector.standard at hmem
  simp only [List.mem_cons, List.not_mem_nil, or_false] at hmem
  -- Only the superblock is looked at on the volume itself.
  rcases hmem with rfl | rfl | rfl | rfl | rfl | rfl | rfl | rfl
  · simp only [Inspector.FailsOr, Inspector.baseSnapshot, hpoint]
    exact .inl trivial
  · exact h.superblock
  · simp only [Inspector.FailsOr, Inspector.segmentBitmap, hpoint]
    exact .inl trivial
  · simp only [Inspector.FailsOr, Inspector.mappingTable, hpoint]
    exact .inl trivial
  all_goals
    simp only [Inspector.FailsOr, Inspector.treeRoot, hstate]
    exact .inl trivial

end Subject.Degrades

/-- Inspections that come out as they should or fail make up a run that comes out as it should, or that names
a failure. -/
theorem Subject.inspectAll_degrades {faulty sound : Subject} {inspectors : List Inspector}
    (hall : ∀ inspector ∈ inspectors, inspector.FailsOr faulty sound) :
    faulty.inspectAll inspectors = sound.inspectAll inspectors ∨
      ∃ inspected, faulty.inspectAll inspectors = .ok inspected ∧ inspected.failure.isSome := by
  induction inspectors with
  | nil => exact .inl rfl
  | cons inspector rest ih =>
    have hrest := ih fun other hother => hall other (List.mem_cons_of_mem _ hother)
    unfold inspectAll
    rcases hall inspector (List.mem_cons_self ..) with e | ⟨cause, e⟩ <;> rw [e]
    · split
      · exact .inl rfl
      · exact .inl rfl
      · exact hrest
      · rcases hrest with e | ⟨inspected, e, hfailed⟩ <;> rw [e]
        · exact .inl rfl
        · exact .inr ⟨_, rfl, hfailed⟩
    · exact .inr ⟨_, rfl, rfl⟩

theorem Detection.subject?_degrades {faulty sound : Handle} (h : faulty.Degrades sound) (d : Detection) :
    d.subject? faulty = none ∧ d.subject? sound = none ∨
      ∃ s t, d.subject? faulty = some s ∧ d.subject? sound = some t ∧ s.Degrades t := by
  unfold subject? Subject.of?
  split
  · rcases d.geometry with _ | geometry
    · exact .inl ⟨rfl, rfl⟩
    · exact .inr ⟨_, _, rfl, rfl, ⟨rfl, h⟩, rfl⟩
  · exact .inl ⟨rfl, rfl⟩

/-- A check reports the same, or that it failed. -/
theorem Detection.check_degrades {faulty sound : Handle} (h : faulty.Degrades sound) (d : Detection) :
    d.check faulty Inspector.standard = d.check sound Inspector.standard ∨
      ∃ report, d.check faulty Inspector.standard = .ok report ∧ report.state = .failed := by
  unfold check
  rcases subject?_degrades h d with ⟨e, e'⟩ | ⟨s, t, e, e', hst⟩ <;> simp only [e, e']
  · exact .inl trivial
  rcases Subject.inspectAll_degrades hst.standard with e | ⟨inspected, e, hfailed⟩ <;>
    simp only [e, hst.state?]
  · exact .inl trivial
  · refine .inr ⟨_, rfl, ?_⟩
    simp only [Option.isSome_or, hfailed, Bool.true_or]
    rfl

/-- Where reads fail, the reports of detection and check are those of the sound device, or one of them
says that it failed. -/
theorem Device.failing_check (ranges : List (Nat × Nat)) (device : Device) (options : DetectOptions) :
    (device.failing ranges).check options = device.check options ∨
      ∃ d report, (device.failing ranges).check options = .ok (d, report) ∧
        (d.state = .failed ∨ report.state = .failed) := by
  have h := Device.failing_degrades ranges device
  unfold Device.check
  rcases h.detect options with e | ⟨cause, e⟩ <;> rw [e]
  · rcases device.detect options with cause | d
    · exact .inl rfl
    · simp only
      rcases Detection.check_degrades h.handle d with e | ⟨report, e, hfailed⟩ <;> rw [e]
      · exact .inl rfl
      · exact .inr ⟨d, report, rfl, .inr hfailed⟩
  · -- There is nothing to inspect after a failed detection.
    exact .inr ⟨_, _, rfl, .inl rfl⟩

end FlashVolume
