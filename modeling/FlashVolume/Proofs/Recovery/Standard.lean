/-
What the standard actions make of a damaged volume. They cannot rebuild anything, so a recovery ends with the
first corrupted structure in inspection order, or before that if there is no geometry to read the volume by.
The exception is a volume that is destroyed altogether although a bootstrap header was found: it has a
geometry and no structure that counts as corrupted, so no action refuses and nothing is reported as recovered.
-/
import FlashVolume.Proofs.Check.Destroyed
import FlashVolume.Proofs.Check.Missed
import FlashVolume.Proofs.Recovery.Pipeline

namespace FlashVolume

/-! ## The standard actions -/

namespace CheckReport

/-- What the standard actions make of a report. -/
def recoverStandard (report : CheckReport) (handle : Handle) (detection : Detection) (noChange : Bool) :
    Except RecoveryError (List Fix) :=
  (report.recover handle detection RecoveryAction.standard noChange : ExceptT RecoveryError Id (List Fix)).run

variable {report : CheckReport} {handle : Handle} {detection : Detection} {noChange : Bool}

/-- The actions a recovery takes are those that refuse the corrupted structures, in inspection order. -/
theorem filter_standard (report : CheckReport) :
    (RecoveryAction.standard : List (RecoveryAction Id)).filter (report.damage.has ·.target) =
      report.damage.toList.map RecoveryAction.unrepairable := by
  unfold RecoveryAction.standard Damage.toList
  rw [List.filter_map]
  rfl

/-- The first corrupted structure is refused. -/
theorem recoverStandard_of_damaged {s : Structure} (hfirst : report.damage.toList.head? = some s)
    (hgeometry : detection.geometry.isSome) :
    report.recoverStandard handle detection noChange = .error (.unsupported s.name) := by
  obtain ⟨rest, hlist⟩ := List.head?_eq_some_iff.1 hfirst
  obtain ⟨geometry, hgeometry⟩ := Option.isSome_iff_exists.1 hgeometry
  have hneeds : ¬ report.needsNothing := by
    unfold needsNothing Damage.isEmpty
    rw [hlist]
    nofun
  unfold recoverStandard recover Subject.of?
  rw [if_neg hneeds, hgeometry, Option.map_some, filter_standard, hlist]
  rfl

/-- Where no structure is corrupted and there is a geometry, nothing is refused, whatever the verdict. -/
theorem recoverStandard_of_undamaged (hnone : report.damage.toList = [])
    (hgeometry : detection.geometry.isSome) :
    report.recoverStandard handle detection noChange = .ok [] := by
  obtain ⟨geometry, hgeometry⟩ := Option.isSome_iff_exists.1 hgeometry
  unfold recoverStandard recover Subject.of?
  split
  · rfl
  · rw [hgeometry, Option.map_some, filter_standard, hnone]
    rfl

/-- A destroyed volume without a geometry is refused as a whole. -/
theorem recoverStandard_of_no_geometry (hstate : report.state = .completelyDestroyed)
    (hgeometry : detection.geometry = none) :
    report.recoverStandard handle detection noChange = .error (.unsupported "volume") := by
  have hneeds : ¬ report.needsNothing := fun h => (needsNothing_iff.1 h).2 hstate
  unfold recoverStandard recover Subject.of?
  rw [if_neg hneeds, hgeometry]
  rfl

end CheckReport

/-! ## Damaged volumes -/

theorem Damage.exists_head? {d : Damage} {s : Structure} (h : d.has s) :
    ∃ first, d.toList.head? = some first := by
  have hmem : s ∈ d.toList := List.mem_filter.2 ⟨s.mem_all, h⟩
  exact ⟨_, List.head?_eq_some_head (List.ne_nil_of_mem hmem)⟩

theorem Damage.toList_eq_nil {d : Damage} (h : ∀ s, d.has s = false) : d.toList = [] :=
  List.filter_eq_nil_iff.2 fun s _ => by rw [h s]; nofun

/-- A volume is called corrupted where detection found at least some metadata, and if it found a complete
volume, some structure is damaged. -/
theorem CheckState.classify_corrupted {detection : DetectionState} {damage : Damage}
    {hasFailed mounted : Bool}
    (h : classify detection damage hasFailed mounted = .slightlyCorrupted ∨
      classify detection damage hasFailed mounted = .heavilyCorrupted) :
    hasFailed = false ∧
      (detection = .hasSomeMetadata ∨ detection = .hasFilesystem ∧ ∃ s, damage.has s) := by
  unfold classify at h
  split at h
  · rcases h with h | h <;> cases h
  rename_i hfailed
  refine ⟨eq_false_of_ne_true hfailed, ?_⟩
  cases detection with
  | hasSomeMetadata => exact .inl rfl
  | hasFilesystem =>
    refine .inr ⟨rfl, ?_⟩
    by_contra hnone
    simp only [not_exists, Bool.not_eq_true] at hnone
    have hempty := Damage.isEmpty_iff.2 hnone
    simp only [Damage.criticalCount_of_isEmpty hempty, hempty] at h
    cases mounted <;> rcases h with h | h <;> cases h
  | unknown | noFilesystem | failed => rcases h with h | h <;> cases h

namespace Device

variable {device : Device} {options : DetectOptions} {d : Detection} {report : CheckReport}

theorem geometry_of_detect (h : device.detect options = .ok d)
    (hstate : d.state = .hasFilesystem ∨ d.state = .hasSomeMetadata) : d.geometry.isSome := by
  obtain ⟨t, -, hexplore⟩ := explore_of_found h hstate
  rw [geometry_of_explore hexplore]
  rfl

/-- A volume that is called corrupted has a geometry and a damaged structure. -/
theorem damaged_of_check_corrupted (h : device.check options = .ok (d, report))
    (hstate : report.state = .slightlyCorrupted ∨ report.state = .heavilyCorrupted) :
    d.geometry.isSome ∧ ∃ s, report.damage.has s := by
  obtain ⟨hdetect, hcheck⟩ := detect_of_check h
  rw [Detection.state_of_check hcheck] at hstate
  obtain ⟨hfailed, hfound⟩ := CheckState.classify_corrupted hstate
  rcases hfound with hsome | ⟨hall, hdamaged⟩
  · refine ⟨geometry_of_detect hdetect (.inr hsome), ?_⟩
    rw [Option.isSome_eq_false_iff, Option.isNone_iff_eq_none] at hfailed
    obtain ⟨s, hdamage, -⟩ := exists_missed_of_check h hfailed hsome
    exact ⟨s, hdamage⟩
  · exact ⟨geometry_of_detect hdetect (.inl hall), hdamaged⟩

/-- On a volume that is destroyed altogether no structure counts as damaged. There is a geometry exactly if a
bootstrap header was found. -/
theorem undamaged_of_check_destroyed (h : device.check options = .ok (d, report))
    (hstate : report.state = .completelyDestroyed) :
    (∀ s, report.damage.has s = false) ∧
      (device.trailhead? options = .ok none ∧ d.geometry = none ∨
        (∃ t, device.trailhead? options = .ok (some t)) ∧ d.geometry.isSome) := by
  obtain ⟨hdetect, hcheck⟩ := detect_of_check h
  have hnothing := Detection.state_of_check_destroyed hcheck hstate
  constructor
  · have hnone : d.subject? device.handle = none := if_neg (by rw [hnothing]; nofun)
    obtain ⟨empty, hempty, -, hdamage, -⟩ := Detection.check_of_no_subject hnone
    cases (hempty _).symm.trans hcheck
    exact hdamage
  · rcases explore_of_detect hdetect (by rw [hnothing]; nofun) with ⟨hnone, rfl⟩ | ⟨t, ht, hexplore⟩
    · exact .inl ⟨hnone, rfl⟩
    · exact .inr ⟨⟨t, ht⟩, by rw [geometry_of_explore hexplore]; rfl⟩

/-- A recovery never calls a corrupted volume recovered: it ends with the first corrupted structure in
inspection order. It refuses a volume that is destroyed altogether if there is no bootstrap header; where
there is one, it has nothing to do. -/
theorem recoverStandard_of_check (h : device.check options = .ok (d, report)) (noChange : Bool) :
    (report.state = .slightlyCorrupted ∨ report.state = .heavilyCorrupted →
        ∃ s, report.damage.toList.head? = some s ∧
          report.recoverStandard device.handle d noChange = .error (.unsupported s.name)) ∧
      (report.state = .completelyDestroyed →
        device.trailhead? options = .ok none ∧
            report.recoverStandard device.handle d noChange = .error (.unsupported "volume") ∨
          (∃ t, device.trailhead? options = .ok (some t)) ∧
            report.recoverStandard device.handle d noChange = .ok []) := by
  constructor
  · intro hstate
    obtain ⟨hgeometry, s, hs⟩ := damaged_of_check_corrupted h hstate
    obtain ⟨first, hfirst⟩ := Damage.exists_head? hs
    exact ⟨first, hfirst, CheckReport.recoverStandard_of_damaged hfirst hgeometry⟩
  · intro hstate
    obtain ⟨hdamage, ⟨hnone, hgeometry⟩ | ⟨ht, hgeometry⟩⟩ := undamaged_of_check_destroyed h hstate
    · exact .inl ⟨hnone, CheckReport.recoverStandard_of_no_geometry hstate hgeometry⟩
    · exact .inr ⟨ht, CheckReport.recoverStandard_of_undamaged (Damage.toList_eq_nil hdamage) hgeometry⟩

/-- A whole volume with a newer superblock behind it, all of it scanned, is refused at the structure that is
corrupted first. -/
theorem followed_refused : ∃ d report s,
    CompactVolume.followed.check (CompactVolume.options true) = .ok (d, report) ∧
      report.state = .heavilyCorrupted ∧ report.damage.toList.head? = some s ∧
      report.recoverStandard CompactVolume.followed.handle d false = .error (.unsupported s.name) := by
  obtain ⟨d, report, h, hsome, hnone⟩ :=
    CompactVolume.exists_forcedCheck CompactVolume.forcedCheck_followed
  have hstate := (heavily_of_check h hnone hsome).1
  obtain ⟨s, hfirst, hrefused⟩ := (recoverStandard_of_check h false).1 (.inr hstate)
  exact ⟨d, report, s, h, hstate, hfirst, hrefused⟩

/-- A recovery with the standard actions refuses whatever a check with these settings calls damaged. -/
def NeverRecovered (device : Device) (config : Config) : Prop :=
  ∀ (d : Detection) (report : CheckReport) (noChange : Bool),
    device.check config.detectOptions = .ok (d, report) →
    (report.state = .slightlyCorrupted ∨ report.state = .heavilyCorrupted ∨
      report.state = .completelyDestroyed) →
    ∃ what, report.recoverStandard device.handle d noChange = .error (.unsupported what)

/-- The device a newer user data segment overwrote in part counts as destroyed altogether, and a recovery of
it is done without having done anything. -/
theorem destroyed_recovered : ¬ CompactVolume.overwritten.NeverRecovered (CompactVolume.config true) := by
  intro hall
  obtain ⟨d, hdetect, hnothing, -, htimes⟩ :=
    CompactVolume.exists_detect CompactVolume.verdict_overwritten
  obtain ⟨report, h, hstate⟩ := check_of_detect_noFilesystem hdetect hnothing
  obtain ⟨hdamage, ⟨hnone, -⟩ | ⟨-, hgeometry⟩⟩ := undamaged_of_check_destroyed h hstate
  · -- Without a bootstrap header there would be no creation point.
    rcases explore_of_detect hdetect (by rw [hnothing]; nofun) with ⟨-, rfl⟩ | ⟨t, ht, -⟩
    · cases htimes
    · cases hnone.symm.trans ht
  · obtain ⟨what, hrefused⟩ := hall d report false h (.inr (.inr hstate))
    have hdone : report.recoverStandard CompactVolume.overwritten.handle d false = .ok [] :=
      CheckReport.recoverStandard_of_undamaged (Damage.toList_eq_nil hdamage) hgeometry
    cases hrefused.symm.trans hdone

end Device

end FlashVolume
