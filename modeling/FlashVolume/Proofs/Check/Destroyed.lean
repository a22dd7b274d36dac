/-
What a verdict of complete destruction means. It speaks of the newest volume only: a forced check gives it
where there is no bootstrap header, or where everything that still opens an erase block is older than the
volume of the bootstrap header.
-/
import FlashVolume.Proofs.Check
import FlashVolume.Proofs.Detection.Coherence
import FlashVolume.Proofs.Detection.Exact

namespace FlashVolume

/-! ## Verdicts -/

theorem DetectionState.classify_eq_noFilesystem {found : Inventory} :
    classify found = .noFilesystem ↔ found = .empty := by
  unfold classify
  constructor
  · intro h
    split at h
    · assumption
    · split at h <;> cases h
  · rintro rfl
    rfl

theorem CheckState.classify_eq_completelyDestroyed {detection : DetectionState} {damage : Damage}
    {hasFailed mounted : Bool} :
    classify detection damage hasFailed mounted = .completelyDestroyed ↔
      hasFailed = false ∧ detection = .noFilesystem := by
  unfold classify
  constructor
  · intro h
    split at h
    · cases h
    rename_i hfailed
    refine ⟨eq_false_of_ne_true hfailed, ?_⟩
    cases detection with
    | noFilesystem => rfl
    | hasFilesystem =>
      simp only at h
      repeat' split at h
      all_goals cases h
    | unknown | hasSomeMetadata | failed => cases h
  · rintro ⟨rfl, rfl⟩
    rfl

namespace Detection

variable {d : Detection} {handle : Handle} {inspectors : List Inspector} {report : CheckReport}

/-- The verdict follows from the state of the detection. -/
theorem exists_classify_of_check (h : d.check handle inspectors = .ok report) :
    ∃ damage hasFailed mounted, report.state = .classify d.state damage hasFailed mounted := by
  unfold check at h
  rcases hsubject : d.subject? handle with _ | subject <;> simp only [hsubject] at h
  · cases h
    exact ⟨_, _, _, rfl⟩
  · rcases hall : subject.inspectAll inspectors with cause | inspected <;> simp only [hall] at h
    · cases h
    · cases h
      exact ⟨_, _, _, rfl⟩

theorem state_of_check_destroyed (h : d.check handle inspectors = .ok report)
    (hstate : report.state = .completelyDestroyed) : d.state = .noFilesystem := by
  obtain ⟨damage, hasFailed, mounted, hclass⟩ := exists_classify_of_check h
  rw [hclass] at hstate
  exact (CheckState.classify_eq_completelyDestroyed.1 hstate).2

/-- Where detection found no file system, there is nothing to inspect and all is lost. -/
theorem check_of_noFilesystem (hstate : d.state = .noFilesystem) (hfailure : d.failure = none)
    (handle : Handle) (inspectors : List Inspector) :
    ∃ report, d.check handle inspectors = .ok report ∧ report.state = .completelyDestroyed := by
  have hnone : d.subject? handle = none := by
    unfold subject?
    rw [hstate]
    rfl
  refine ⟨_, by unfold check; rw [hnone], ?_⟩
  rw [hstate, hfailure]
  rfl

end Detection

/-! ## What survives -/

/-- If nothing was found of the newest volume after a survey is merged into the history of a point, all
that was seen is older than the point. -/
theorem History.NewestAfter.older {w : Volume} {pebs : Nat} {p q : CreationPoint}
    {items : List ScannedSegment} (hq : NewestAfter p items q) (hs : w.Surveyed pebs items)
    (hempty : q.found = .empty) {peb : Nat} {header : SegmentHeader} {kind : SegmentKind}
    (hpeb : peb < pebs) (hopen : w.OpensWith peb header kind) : header.createTime < p.createTime := by
  -- A segment of the newest volume would count as found.
  have hnone : ∀ item ∈ items, item.volumeCreateTime ≠ q.createTime := by
    intro item hmem htime
    obtain ⟨peb, header, kind, -, hopen, rfl⟩ := (hs.mem_iff _).1 hmem
    have hhas := (hq.found kind).2 (.inr ⟨hopen.isMetadata, _, hmem, htime, rfl⟩)
    rw [hempty, Inventory.has_empty] at hhas
    cases hhas
  have hmem : header.note peb kind ∈ items := (hs.mem_iff _).2 ⟨peb, header, kind, hpeb, hopen, rfl⟩
  rcases hq.createTime with htime | ⟨item, hitem, htime⟩
  · rw [← htime]
    exact UInt64.lt_of_le_of_ne (hq.le_item _ hmem) (hnone _ hmem)
  · exact absurd htime (hnone item hitem)

namespace Device

variable {device : Device} {options : DetectOptions} {d : Detection} {report : CheckReport}

/-- A check finds a device completely destroyed if detection finds no file system on it. -/
theorem check_of_detect_noFilesystem (h : device.detect options = .ok d)
    (hstate : d.state = .noFilesystem) :
    ∃ report, device.check options = .ok (d, report) ∧ report.state = .completelyDestroyed := by
  have hfailure : d.failure = none := by
    rw [← Option.not_isSome_iff_eq_none, (detect_coherent h).failure_iff, hstate]
    nofun
  obtain ⟨report, hcheck, hreport⟩ :=
    Detection.check_of_noFilesystem hstate hfailure device.handle Inspector.standard
  refine ⟨report, ?_, hreport⟩
  unfold check
  simp only [h, hcheck]

/-- A forced check only finds a device completely destroyed if it has no bootstrap header, or if every
metadata segment that opens an erase block is older than the volume of the bootstrap header. -/
theorem older_of_check_destroyed (h : device.check options = .ok (d, report))
    (hforce : options.force = true) (hstate : report.state = .completelyDestroyed) :
    device.trailhead? options = .ok none ∨
      ∃ t w pebs, device.trailhead? options = .ok (some t) ∧
        t.volume.forCensus device.reopened options.workers = .ok w ∧ t.volume.pebsCount = .ok pebs ∧
        (device.ReopensAlike → w = t.volume) ∧
        ∀ peb header kind, peb < pebs → w.OpensWith peb header kind →
          header.createTime < t.bootstrap.header.createTime := by
  obtain ⟨hdetect, hcheck⟩ := detect_of_check h
  have hnothing := Detection.state_of_check_destroyed hcheck hstate
  rcases explore_of_detect hdetect (by rw [hnothing]; nofun) with ⟨hnone, -⟩ | ⟨t, ht, hexplore⟩
  · exact .inl hnone
  obtain ⟨point, search, w, pebs, shards, hfollow, hw, hpebs, hs, rfl⟩ :=
    surveyed_of_explore hexplore (.inl hforce)
  obtain ⟨q, hq, hnewest⟩ := History.exists_latest?_merge point t.volume.geometry shards
  have hempty : q.found = .empty := by
    rw [← History.found_detection hq t.volume.geometry]
    exact DetectionState.classify_eq_noFilesystem.1 hnothing
  refine .inr ⟨t, w, pebs, ht, hw, hpebs, fun hr => ?_, fun peb header kind hpeb hopen => ?_⟩
  · exact Volume.forCensus_alike hr (handle_of_trailhead? ht) hw
  · have hgrows := (Trailhead.follow_grows hfollow).1
    have hlt := hnewest.older hs hempty hpeb hopen
    rw [hgrows.createTime] at hlt
    exact hlt

/-- Older metadata is left on the device a newer user data segment overwrote in part. -/
theorem overwritten_older : ∃ d report t pebs,
    CompactVolume.overwritten.check (CompactVolume.options true) = .ok (d, report) ∧
      report.state = .completelyDestroyed ∧
      CompactVolume.overwritten.trailhead? (CompactVolume.options true) = .ok (some t) ∧
      t.volume.pebsCount = .ok pebs ∧
      ∀ peb header kind, peb < pebs → t.volume.OpensWith peb header kind →
        header.createTime < t.bootstrap.header.createTime := by
  obtain ⟨d, hdetect, hnothing, -, htimes⟩ :=
    CompactVolume.exists_detect CompactVolume.verdict_overwritten
  obtain ⟨report, h, hstate⟩ := check_of_detect_noFilesystem hdetect hnothing
  have halike : CompactVolume.overwritten.ReopensAlike := ⟨_, rfl, rfl, fun _ _ => rfl⟩
  rcases older_of_check_destroyed h rfl hstate with hnone | ⟨t, w, pebs, ht, -, hpebs, hw, holder⟩
  · rcases explore_of_detect hdetect (by rw [hnothing]; nofun) with ⟨-, rfl⟩ | ⟨t, ht, -⟩
    · cases htimes
    · cases hnone.symm.trans ht
  · rw [hw halike] at holder
    exact ⟨d, report, t, pebs, h, hstate, ht, hpebs, holder⟩

/-- If a forced check by given sizes of a device without faults finds it completely destroyed, no metadata
segment opens an erase block. -/
def NothingSurvives (device : Device) (config : Config) : Prop :=
  ∀ (geometry : Geometry) (d : Detection) (report : CheckReport) (pebs : Nat), device.ReopensAlike →
    (∀ offset length, offset + length ≤ device.handle.size →
      ∃ bytes, device.handle.read offset length = .ok bytes) →
    config.force = true → config.pageSize = some geometry.pageSize →
    config.eraseSize = some geometry.eraseSize → config.segmentSize = some geometry.segmentSize →
    (∀ declared, config.detectOptions.resolveGeometry declared = .ok geometry) →
    device.check config.detectOptions = .ok (d, report) → report.state = .completelyDestroyed →
    Volume.pebsCount ⟨device.handle, geometry⟩ = .ok pebs →
      ∀ peb < pebs, ∀ header kind, ¬ Volume.OpensWith ⟨device.handle, geometry⟩ peb header kind

/-- Something survives where detection finds no file system although a census notes a segment. -/
theorem not_nothingSurvives {blocks : List (List UInt8)} {peb : Nat}
    (hblocks : ∀ block ∈ blocks, block.length = 2048)
    (hdetect : (Device.ofBytes ⟨blocks.flatten.toArray⟩).detect (CompactVolume.options true) = .ok d)
    (hnothing : d.state = .noFilesystem) (hpeb : peb < blocks.length)
    (hnoted : CompactVolume.isNoted (.ofBytes ⟨blocks.flatten.toArray⟩) peb = true) :
    ¬ (Device.ofBytes ⟨blocks.flatten.toArray⟩).NothingSurvives (CompactVolume.config true) := by
  intro hall
  obtain ⟨report, h, hstate⟩ := check_of_detect_noFilesystem hdetect hnothing
  obtain ⟨header, kind, hopen⟩ := CompactVolume.exists_opensWith hnoted
  have halike : (Device.ofBytes ⟨blocks.flatten.toArray⟩).ReopensAlike := ⟨_, rfl, rfl, fun _ _ => rfl⟩
  have hpebs : Volume.pebsCount
      ⟨(Device.ofBytes ⟨blocks.flatten.toArray⟩).handle, CompactVolume.geometry⟩ = .ok blocks.length := by
    refine Volume.pebsCount_eq_ok.2 ⟨Nat.succ_ne_zero 2047, ?_⟩
    rw [Device.ofBytes_flatten (by decide) hblocks]
    exact Nat.mul_div_cancel _ (by decide)
  exact hall CompactVolume.geometry d report _ halike (CompactVolume.readable_ofBytes _) rfl rfl rfl rfl
    (CompactVolume.resolveGeometry_options true) h hstate hpebs peb hpeb header kind hopen

/-- Complete destruction does not mean that nothing survives. Older metadata segments still open erase
blocks of the device a newer user data segment overwrote in part; and where no probe for a bootstrap header
reaches, any can. -/
theorem destroyed_with_survivors :
    (∃ (device : Device) (config : Config) (t : Trailhead),
      device.trailhead? config.detectOptions = .ok (some t) ∧ ¬ device.NothingSurvives config) ∧
    ∃ (device : Device) (config : Config),
      device.trailhead? config.detectOptions = .ok none ∧ ¬ device.NothingSurvives config := by
  constructor
  · obtain ⟨d, hdetect, hnothing, -, htimes⟩ :=
      CompactVolume.exists_detect CompactVolume.verdict_overwritten
    rcases explore_of_detect hdetect (by rw [hnothing]; nofun) with ⟨-, rfl⟩ | ⟨t, ht, -⟩
    · cases htimes
    · exact ⟨_, CompactVolume.config true, t, ht, not_nothingSurvives
        CompactVolume.length_of_mem_overwrittenBlocks hdetect hnothing (by decide)
        CompactVolume.isNoted_overwritten⟩
  · obtain ⟨d, hdetect, hnothing, -, htimes⟩ := CompactVolume.exists_detect CompactVolume.verdict_unprobed
    rcases explore_of_detect hdetect (by rw [hnothing]; nofun) with ⟨hnone, -⟩ | ⟨t, -, hexplore⟩
    · exact ⟨_, CompactVolume.config true, hnone, not_nothingSurvives
        CompactVolume.length_of_mem_unprobedBlocks hdetect hnothing (by decide)
        CompactVolume.isNoted_unprobed⟩
    · rw [List.map_eq_nil_iff] at htimes
      exact absurd htimes (points_ne_nil_of_explore hexplore)

end Device

end FlashVolume
