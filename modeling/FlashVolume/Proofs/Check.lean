/-
What a clean verdict rests on. A volume is only called healthy, or merely not unmounted, when every
inspection accepts what it looks at; and then the newest creation point holds the logs themselves and
not only traces of them that a census saw.
-/
import FlashVolume.Check.Report
import FlashVolume.Proofs.Detection.Run
import FlashVolume.Proofs.Geometry
import FlashVolume.Proofs.History
import FlashVolume.Proofs.Image.Compact
import FlashVolume.Proofs.Trail.Declared

namespace FlashVolume

/-! ## Verdicts -/

/-- A set of structures is empty if it has no member. -/
theorem Damage.isEmpty_iff {d : Damage} : d.isEmpty ↔ ∀ s, d.has s = false := by
  unfold isEmpty toList
  rw [List.isEmpty_iff, List.filter_eq_nil_iff]
  exact ⟨fun h s => by simpa using h s (Structure.mem_all s), fun h s _ => by simp [h s]⟩

theorem Damage.criticalCount_of_isEmpty {d : Damage} (h : d.isEmpty) : d.criticalCount = 0 := by
  unfold criticalCount
  rw [List.isEmpty_iff.1 h]
  rfl

/-- A state is clean if nothing failed, detection found a complete volume and no structure is
corrupted. -/
theorem CheckState.isClean_classify {detection : DetectionState} {damage : Damage}
    {hasFailed mounted : Bool} :
    (classify detection damage hasFailed mounted).isClean ↔
      hasFailed = false ∧ detection = .hasFilesystem ∧ damage.isEmpty := by
  constructor
  · intro h
    unfold classify at h
    split at h
    · cases h
    rename_i hfailed
    cases detection with
    | hasFilesystem =>
      simp only at h
      split at h
      · cases h
      split at h
      · cases h
      rename_i hempty
      exact ⟨eq_false_of_ne_true hfailed, rfl, by simpa using hempty⟩
    | unknown | noFilesystem | hasSomeMetadata | failed => cases h
  · rintro ⟨rfl, rfl, hempty⟩
    unfold classify
    simp only [Bool.false_eq_true, if_false, Damage.criticalCount_of_isEmpty hempty, hempty]
    cases mounted <;> rfl

namespace Finding

theorem has_foldl_union (findings : List Finding) (d : Damage) (s : Structure) :
    (findings.foldl (fun damage finding => damage.union (.ofStructure finding.target)) d).has s =
      (d.has s || findings.any (·.target == s)) := by
  induction findings generalizing d with
  | nil => exact (Bool.or_false _).symm
  | cons finding findings ih =>
    rw [List.foldl_cons, ih, List.any_cons, ← Bool.or_assoc, Bool.beq_comm]
    rfl

/-- What findings are about is damaged, and nothing else. -/
theorem has_damage {findings : List Finding} {s : Structure} :
    (damage findings).has s = findings.any (·.target == s) :=
  (has_foldl_union findings .none s).trans (Bool.false_or _)

theorem eq_nil_of_damage_isEmpty {findings : List Finding} (h : (damage findings).isEmpty) :
    findings = [] := by
  rw [List.eq_nil_iff_forall_not_mem]
  intro finding hfinding
  have hnone := Damage.isEmpty_iff.1 h finding.target
  rw [has_damage, List.any_eq_false] at hnone
  exact hnone finding hfinding (beq_self_eq_true _)

end Finding

/-- A run of inspections without findings that did not fail accepted everything. -/
theorem Subject.sound_of_inspectAll {subject : Subject} :
    ∀ {inspectors : List Inspector}, subject.inspectAll inspectors = .ok ⟨[], none⟩ →
      ∀ inspector ∈ inspectors, inspector.inspect subject = .ok .sound
  | [], _, _, h => nomatch h
  | inspector :: rest, h, other, hother => by
    unfold inspectAll at h
    rcases hi : inspector.inspect subject with (cause | cause) | _ | problem <;> simp only [hi] at h
    · cases h
    · cases h
    · rcases List.mem_cons.1 hother with rfl | hother
      · exact hi
      · exact sound_of_inspectAll h other hother
    · rcases hrest : subject.inspectAll rest with cause | result <;> rw [hrest] at h <;> cases h

/-! ## Inspections -/

namespace Inspector

/-- Every pair has its main instance, and its copy where there should be one. -/
def Complete (pairs : List LogPair) (hasCopy : Bool) : Prop :=
  ∀ pair ∈ pairs, pair.main.isSome ∧ (hasCopy → pair.copy.isSome)

theorem missingInstance?_eq_none {index : Nat} {pair : LogPair} {hasCopy : Bool} :
    missingInstance? index pair hasCopy = none ↔ pair.main.isSome ∧ (hasCopy → pair.copy.isSome) := by
  unfold missingInstance?
  rcases pair with ⟨_ | main, _ | copy⟩ <;> cases hasCopy <;> simp

theorem ofPairs_eq_sound {pairs : List LogPair} {hasCopy : Bool} :
    ofPairs pairs hasCopy = .sound ↔ Complete pairs hasCopy := by
  have hfirst : firstMissing? pairs hasCopy = none ↔ Complete pairs hasCopy := by
    unfold firstMissing? Complete
    rw [List.findSome?_eq_none_iff]
    constructor
    · intro h pair hpair
      rw [← List.zipIdx_map_fst 0 pairs] at hpair
      obtain ⟨⟨_, index⟩, hmem, rfl⟩ := List.mem_map.1 hpair
      exact missingInstance?_eq_none.1 (h _ hmem)
    · rintro h ⟨pair, index⟩ hmem
      refine missingInstance?_eq_none.2 (h pair ?_)
      rw [← List.zipIdx_map_fst 0 pairs]
      exact List.mem_map_of_mem hmem
  rw [← hfirst]
  unfold ofPairs
  rcases firstMissing? pairs hasCopy with _ | problem
  · exact iff_of_true rfl rfl
  · exact iff_of_false nofun nofun

theorem superblockLog_eq_ok {point : CreationPoint} {log : FoundLog}
    (h : superblockLog point = .ok log) :
    ∃ copy, point.superblock = ⟨some log, some copy⟩ ∧ log.footer.isSome := by
  unfold superblockLog at h
  rcases hpair : point.superblock with ⟨_ | main, _ | copy⟩ <;> simp only [hpair] at h
  · split at h <;> cases h
  · cases h
  · cases h
  · split at h
    · rename_i hfooter
      cases h
      exact ⟨copy, rfl, hfooter⟩
    · cases h

/-- The superblock is only accepted with both instances, a footer and a mapping cache. -/
theorem superblock_sound {subject : Subject} (h : superblock.inspect subject = .ok .sound) :
    ∃ point main copy, subject.point? = some point ∧ point.superblock = ⟨some main, some copy⟩ ∧
      main.footer.isSome ∧ point.cache.isSome := by
  replace h := Outcome.mapError_eq_ok.1 h
  unfold superblockVerdict at h
  rcases hpoint : subject.point?.filter (·.found.superblock) with _ | point <;> simp only [hpoint] at h
  · cases h
  rcases hlog : superblockLog point with problem | main <;> simp only [hlog] at h
  · cases h
  obtain ⟨copy, hpair, hfooter⟩ := superblockLog_eq_ok hlog
  refine ⟨point, main, copy, (Option.filter_eq_some_iff.1 hpoint).1, hpair, hfooter, ?_⟩
  -- The area headers are read before the cache is looked at.
  obtain ⟨bitmap, -, h⟩ := Outcome.bind_eq_ok.1 h
  split at h
  · cases h
  obtain ⟨table, -, h⟩ := Outcome.bind_eq_ok.1 h
  split at h
  · cases h
  split at h
  · cases h
  · rename_i hcache
    exact Option.isSome_iff_ne_none.2 fun hnone => hcache (Option.isNone_iff_eq_none.2 hnone)

/-- A structure is only accepted where it counts as found. -/
theorem sound_of_found {point : CreationPoint} {found : CreationPoint → Bool} {problem : String}
    {judge : CreationPoint → Verdict}
    (h : (match (some point).filter found with
      | none => Verdict.corrupted problem
      | some point => judge point) = .sound) :
    judge point = .sound := by
  rw [Option.filter_some] at h
  split at h
  · cases h
  · rename_i hfilter
    split at hfilter <;> cases hfilter
    exact h

theorem segmentBitmap_sound {subject : Subject} {point : CreationPoint} {header : VolumeHeader}
    (h : segmentBitmap.inspect subject = .ok .sound) (hpoint : subject.point? = some point)
    (hheader : point.volumeHeader? = some header) :
    Complete point.segmentBitmap header.segmentBitmap.hasCopy := by
  unfold segmentBitmap at h
  simp only [hpoint, Except.ok.injEq] at h
  have hjudge := sound_of_found h
  rw [hheader] at hjudge
  exact ofPairs_eq_sound.1 hjudge

theorem mappingTable_sound {subject : Subject} {point : CreationPoint} {header : VolumeHeader}
    (h : mappingTable.inspect subject = .ok .sound) (hpoint : subject.point? = some point)
    (hheader : point.volumeHeader? = some header) :
    Complete point.mappingTable header.mappingTable.hasCopy := by
  unfold mappingTable at h
  simp only [hpoint, Except.ok.injEq] at h
  have hjudge := sound_of_found h
  rw [hheader] at hjudge
  exact ofPairs_eq_sound.1 hjudge

/-- Inspections that accept everything looked at a point with both instances of the superblock and a
mapping cache, and missed no instance of the bitmap or the table. -/
theorem standard_sound {subject : Subject}
    (h : ∀ inspector ∈ standard, inspector.inspect subject = .ok .sound) :
    ∃ point main copy, subject.point? = some point ∧ point.superblock = ⟨some main, some copy⟩ ∧
      main.footer.isSome ∧ point.cache.isSome ∧ point.volumeHeader? = some main.segment.volume ∧
      Complete point.segmentBitmap main.segment.volume.segmentBitmap.hasCopy ∧
      Complete point.mappingTable main.segment.volume.mappingTable.hasCopy := by
  obtain ⟨point, main, copy, hpoint, hpair, hfooter, hcache⟩ :=
    superblock_sound (h superblock (by simp [standard]))
  have hheader : point.volumeHeader? = some main.segment.volume := by
    unfold CreationPoint.volumeHeader? CreationPoint.latestSuperblock?
    rw [hpair]
    rfl
  exact ⟨point, main, copy, hpoint, hpair, hfooter, hcache, hheader,
    segmentBitmap_sound (h segmentBitmap (by simp [standard])) hpoint hheader,
    mappingTable_sound (h mappingTable (by simp [standard])) hpoint hheader⟩

end Inspector

/-! ## Clean verdicts -/

/-- What a mountable volume consists of was located: the initial snapshot, both instances of the
superblock, the main one with a footer, the mapping cache, and every instance its pairs should have. -/
structure CreationPoint.Located (p : CreationPoint) (header : VolumeHeader) : Prop where
  volumeHeader : p.volumeHeader? = some header
  baseSnapshot : p.baseSnapshot.isSome
  superblock : ∃ main copy, p.superblock = ⟨some main, some copy⟩ ∧ main.footer.isSome
  cache : p.cache.isSome
  segmentBitmap : Inspector.Complete p.segmentBitmap header.segmentBitmap.hasCopy
  mappingTable : Inspector.Complete p.mappingTable header.mappingTable.hasCopy

theorem Detection.subject?_eq_some {d : Detection} {handle : Handle} {geometry : Geometry}
    (hgeometry : d.geometry = some geometry) (hstate : d.state = .hasFilesystem) :
    d.subject? handle = some ⟨⟨handle, geometry⟩, d⟩ := by
  unfold subject? Subject.of?
  rw [if_pos (.inl hstate), hgeometry]
  rfl

/-- A report classifies the volume by what it says itself. -/
theorem Detection.state_of_check {d : Detection} {handle : Handle} {inspectors : List Inspector}
    {report : CheckReport} (h : d.check handle inspectors = .ok report) :
    report.state = .classify d.state report.damage report.failure.isSome report.mounted := by
  unfold check at h
  rcases hsubject : d.subject? handle with _ | subject <;> simp only [hsubject] at h
  · cases h
    rfl
  · rcases hall : subject.inspectAll inspectors with cause | inspected <;> simp only [hall] at h
    · cases h
    cases h
    rfl

/-- A clean verdict is only given where detection found a complete volume. -/
theorem Detection.state_of_check_clean {d : Detection} {handle : Handle} {inspectors : List Inspector}
    {report : CheckReport} (h : d.check handle inspectors = .ok report) (hclean : report.state.isClean) :
    d.state = .hasFilesystem := by
  rw [state_of_check h] at hclean
  exact (CheckState.isClean_classify.1 hclean).2.1

/-- A check with a clean verdict accepted everything it inspected. -/
theorem Detection.sound_of_check_clean {d : Detection} {handle : Handle} {inspectors : List Inspector}
    {report : CheckReport} {geometry : Geometry} (hgeometry : d.geometry = some geometry)
    (h : d.check handle inspectors = .ok report) (hclean : report.state.isClean) :
    ∀ inspector ∈ inspectors, inspector.inspect ⟨⟨handle, geometry⟩, d⟩ = .ok .sound := by
  have hsubject : d.subject? handle = some ⟨⟨handle, geometry⟩, d⟩ :=
    subject?_eq_some hgeometry (state_of_check_clean h hclean)
  unfold check at h
  simp only [hsubject] at h
  rcases hall : Subject.inspectAll ⟨⟨handle, geometry⟩, d⟩ inspectors with cause | ⟨findings, failure⟩ <;>
    simp only [hall] at h
  · cases h
  cases h
  obtain ⟨hfailed, -, hempty⟩ := CheckState.isClean_classify.1 hclean
  cases Finding.eq_nil_of_damage_isEmpty hempty
  rw [Option.isSome_or, Bool.or_eq_false_iff, Option.isSome_eq_false_iff, Option.isNone_iff_eq_none]
    at hfailed
  rw [hfailed.1] at hall
  exact Subject.sound_of_inspectAll hall

namespace Device

variable {device : Device} {options : DetectOptions} {d : Detection} {report : CheckReport}

/-- The newest point of an explored volume, if it has both instances of a superblock, holds the logs its
trail found. -/
theorem sameLogs_of_explore {t : Trailhead} {point : CreationPoint} (h : device.explore options t = .ok d)
    (hpoint : d.history.latest? = some point) (hsuper : point.superblock.isPresent) :
    ∃ trail search, t.follow t.origin = (trail, .ok search) ∧ trail.SameLogs point := by
  obtain ⟨trail, search, hfollow, hd⟩ := explore_cases h
  refine ⟨trail, search, hfollow, ?_⟩
  rcases hd with ⟨-, -, rfl⟩ | ⟨shards, -, -, rfl⟩
  · cases hpoint
    exact .refl trail
  · have hmem : point ∈ (History.merge ⟨[trail]⟩ t.volume.geometry shards).points :=
      List.mem_of_getLast? hpoint
    rcases History.merge_sameLogs hmem with ⟨p, hp, hsame⟩ | ⟨time, hsame⟩
    · rw [← List.mem_singleton.1 hp]
      exact hsame
    · rw [hsame.superblock] at hsuper
      cases hsuper

/-- A clean verdict is backed by located structures, and the pairs of the segment bitmap and of the
mapping table were located as far as the volume header declares any. -/
theorem located_of_check_clean (h : device.check options = .ok (d, report)) (hclean : report.state.isClean) :
    ∃ point header, d.history.latest? = some point ∧ point.Located header ∧
      (point.segmentBitmap ≠ [] ↔ header.DeclaresBitmap) ∧
      (point.mappingTable ≠ [] ↔ header.DeclaresBitmap ∧ header.DeclaresTable) := by
  obtain ⟨hdetect, hcheck⟩ := detect_of_check h
  have hstate := Detection.state_of_check_clean hcheck hclean
  rcases detect_cases hdetect with ⟨_, -, rfl⟩ | ⟨-, rfl⟩ | ⟨_, geometry, located, -, hg, -, hexplore⟩
  · cases hstate
  · cases hstate
  have hgeometry := geometry_of_explore hexplore
  obtain ⟨point, main, copy, hpoint, hpair, hfooter, hcache, hheader, hbitmap, htable⟩ :=
    Inspector.standard_sound (Detection.sound_of_check_clean hgeometry hcheck hclean)
  obtain ⟨trail, search, hfollow, hsame⟩ := sameLogs_of_explore hexplore hpoint (by rw [hpair]; rfl)
  -- A complete bitmap has no pair without instance, so the trail went on to the mapping table.
  have hpresent : ∀ pair ∈ point.segmentBitmap, pair.isPresent := fun pair h =>
    Bool.or_eq_true_iff.2 (.inl (hbitmap pair h).1)
  rw [hsame.cache] at hcache
  rw [hsame.segmentBitmap] at hpresent
  obtain ⟨hbase, header, htrail, hlists⟩ := Trailhead.follow_declared rfl rfl rfl
    (DetectOptions.resolveGeometry_wellFormed hg).pebsPerSegment_pos hfollow hcache hpresent
  rw [← hsame.volumeHeader?, hheader] at htrail
  cases htrail
  rw [← hsame.cache] at hcache
  rw [← hsame.baseSnapshot] at hbase
  rw [← hsame.segmentBitmap, ← hsame.mappingTable] at hlists
  exact ⟨point, _, hpoint, ⟨hheader, hbase, ⟨main, copy, hpair, hfooter⟩, hcache, hbitmap, htable⟩, hlists⟩

/-- A volume that declares all it has gets a clean verdict. -/
theorem whole_located : ∃ d report,
    CompactVolume.whole.device.check Config.default.detectOptions = .ok (d, report) ∧
      report.state.isClean ∧
      ∃ point header, d.history.latest? = some point ∧ point.Located header ∧
        (point.segmentBitmap ≠ [] ↔ header.DeclaresBitmap) ∧
        (point.mappingTable ≠ [] ↔
          header.DeclaresBitmap ∧ header.DeclaresTable) := by
  obtain ⟨d, report, h, hstate, -⟩ := CompactVolume.exists_check CompactVolume.outcome_whole
  have hclean : report.state.isClean := by rw [hstate]; rfl
  exact ⟨d, report, h, hclean, located_of_check_clean h hclean⟩

/-- A clean verdict does not mean that any pair was located: a volume that declares no segment bitmap
gets one, if only a census sees segments of both kinds. -/
theorem clean_without_pairs : ¬ ∀ (device : Device) (options : DetectOptions) (d : Detection)
    (report : CheckReport), device.check options = .ok (d, report) → report.state.isClean →
      ∃ point header, d.history.latest? = some point ∧ point.Located header ∧
        point.segmentBitmap ≠ [] ∧ point.mappingTable ≠ [] := by
  intro hall
  obtain ⟨d, report, h, hstate, hpairs⟩ :=
    CompactVolume.exists_check CompactVolume.outcome_undeclared
  obtain ⟨point, header, hpoint, -, hbitmap, -⟩ := hall _ _ _ _ h (by rw [hstate]; rfl)
  rw [hpoint] at hpairs
  cases hb : point.segmentBitmap with
  | nil => exact hbitmap hb
  | cons pair rest => rw [Option.map_some, hb] at hpairs; cases hpairs

end Device

end FlashVolume
