/-
What detection missed is reported. A full check rejects every critical structure that does not count as found
on the newest point, so partial metadata always comes with a finding; and the exit code of the command is zero
exactly for a volume that can be mounted as it is, whether or not a repair was asked for.
-/
import FlashVolume.CommandLine.Run
import FlashVolume.Proofs.Arithmetic.Check
import FlashVolume.Proofs.Check.Account
import FlashVolume.Proofs.Detection.Exact
import FlashVolume.Proofs.Image.Leftover

namespace FlashVolume

/-! ## Critical structures -/

namespace Inventory

/-- The critical structure was found. Trees are in no inventory. -/
def holds (i : Inventory) : Structure → Bool
  | .baseSnapshot => i.baseSnapshot
  | .superblock => i.superblock
  | .segmentBitmap => i.segmentBitmap
  | .mappingTable => i.mappingTable
  | _ => false

/-- An inventory that is not complete lacks a critical structure. -/
theorem exists_missing {i : Inventory} (h : i ≠ complete) : ∃ s, s.isCritical ∧ i.holds s = false := by
  by_contra hnone
  simp only [not_exists, not_and, Bool.not_eq_false] at hnone
  refine h ?_
  rcases i with ⟨baseSnapshot, superblock, segmentBitmap, mappingTable⟩
  have h1 : baseSnapshot = true := hnone .baseSnapshot rfl
  have h2 : superblock = true := hnone .superblock rfl
  have h3 : segmentBitmap = true := hnone .segmentBitmap rfl
  have h4 : mappingTable = true := hnone .mappingTable rfl
  rw [h1, h2, h3, h4]
  rfl

end Inventory

namespace Inspector

variable {subject : Subject} {point : CreationPoint}

/-- A critical structure that does not count as found on the newest point is rejected. -/
theorem exists_rejecting {s : Structure} (hpoint : subject.point? = some point) (hcritical : s.isCritical)
    (hmissing : point.found.holds s = false) :
    ∃ inspector ∈ standard, inspector.target = s ∧
      ∃ problem, inspector.inspect subject = .ok (.corrupted problem) := by
  -- All four look at the newest point only if it counts their structure as found.
  have hfilter (found : CreationPoint → Bool) (h : found point = false) :
      subject.point?.filter found = none := by
    rw [hpoint]
    exact Option.filter_some_neg (by rw [h])
  cases s with
  | baseSnapshot =>
    refine ⟨baseSnapshot, by simp [standard], rfl, "no initial snapshot segment", ?_⟩
    have hany : subject.point?.any (·.found.baseSnapshot) = false := by
      rw [hpoint]
      exact hmissing
    simp only [baseSnapshot, hany]
    rfl
  | superblock =>
    refine ⟨superblock, by simp [standard], rfl, "no superblock segment", ?_⟩
    simp only [superblock, superblockVerdict, hfilter (·.found.superblock) hmissing]
    rfl
  | segmentBitmap =>
    refine ⟨segmentBitmap, by simp [standard], rfl, "segment bitmap not found", ?_⟩
    simp only [segmentBitmap, hfilter (·.found.segmentBitmap) hmissing]
  | mappingTable =>
    refine ⟨mappingTable, by simp [standard], rfl, "mapping table not found", ?_⟩
    simp only [mappingTable, hfilter (·.found.mappingTable) hmissing]
  | inodesTree | snapshotsTree | invalidExtentsTree | sharedDictionaryTree => cases hcritical

end Inspector

/-! ## Findings -/

/-- A run of inspections that did not fail came to a verdict on everything. -/
theorem Subject.decided_of_inspectAll {subject : Subject} :
    ∀ {inspectors : List Inspector} {findings : List Finding},
      subject.inspectAll inspectors = .ok ⟨findings, none⟩ →
      ∀ inspector ∈ inspectors, inspector.Decides subject
  | [], _, _, _, h => nomatch h
  | inspector :: rest, findings, h, other, hother => by
    unfold inspectAll at h
    rcases hi : inspector.inspect subject with (cause | cause) | _ | problem <;> simp only [hi] at h
    · cases h
    · cases h
    · rcases List.mem_cons.1 hother with rfl | hother
      · exact ⟨_, hi⟩
      · exact decided_of_inspectAll h other hother
    · rcases hrest : subject.inspectAll rest with cause | ⟨later, failure⟩ <;> rw [hrest] at h <;>
        cases h
      rcases List.mem_cons.1 hother with rfl | hother
      · exact ⟨_, hi⟩
      · exact decided_of_inspectAll hrest other hother

/-- A rejected structure is damaged, and there is a finding about it. -/
theorem CheckReport.Accounts.reports {report : CheckReport} {subject : Subject} {inspected : List Inspector}
    {failure : Option String} (h : report.Accounts subject inspected failure) {inspector : Inspector}
    (hmem : inspector ∈ inspected) {problem : String}
    (hrejected : inspector.inspect subject = .ok (.corrupted problem)) :
    report.damage.has inspector.target ∧
      ∃ finding ∈ report.findings, finding.target = inspector.target := by
  have hdamage := (h.damage _).2 ⟨inspector, hmem, rfl, problem, hrejected⟩
  refine ⟨hdamage, ⟨inspector.target, problem⟩, ?_, rfl⟩
  rw [h.findings]
  exact List.mem_filterMap.2 ⟨inspector, hmem, Inspector.finding?_eq_some.2 ⟨problem, hrejected, rfl⟩⟩

/-- A report without a failure accounts for all inspections. -/
theorem Detection.accounts_of_check {d : Detection} {handle : Handle} {subject : Subject}
    {inspectors : List Inspector} {report : CheckReport} (h : d.check handle inspectors = .ok report)
    (hsubject : d.subject? handle = some subject) (hnone : report.failure = none) :
    report.Accounts subject inspectors none := by
  have hcheck := h
  unfold check at hcheck
  simp only [hsubject] at hcheck
  rcases hall : subject.inspectAll inspectors with cause | ⟨findings, failure⟩ <;>
    simp only [hall] at hcheck
  · cases hcheck
  cases hcheck
  obtain ⟨rfl, hfailure⟩ := Option.or_eq_none_iff.1 hnone
  obtain ⟨report, hreport, haccounts⟩ := exists_accounts hsubject hfailure inspectors none
  have hdecided := Subject.decided_of_inspectAll hall
  cases h.symm.trans (hreport _ (Subject.inspectAll_of_decided hdecided))
  exact haccounts

namespace Device

variable {device : Device} {options : DetectOptions} {d : Detection} {report : CheckReport}

/-- A run that found something judges by the newest point. -/
theorem newest_of_found (h : device.detect options = .ok d)
    (hstate : d.state = .hasFilesystem ∨ d.state = .hasSomeMetadata) :
    ∃ newest, d.history.latest? = some newest ∧ d.state = .classify newest.found := by
  obtain ⟨t, -, hexplore⟩ := explore_of_found h hstate
  obtain ⟨newest, hnewest⟩ := History.exists_latest? (points_ne_nil_of_explore hexplore)
  obtain ⟨history, rfl⟩ : ∃ history : History, d = history.detection t.volume.geometry := by
    obtain ⟨point, search, -, ⟨-, -, hd⟩ | ⟨shards, -, -, hd⟩⟩ := explore_cases hexplore <;>
      exact ⟨_, hd⟩
  refine ⟨newest, hnewest, ?_⟩
  unfold History.detection
  rw [show history.latest? = some newest from hnewest]
  rfl

/-- A check without a failure reports every critical structure that does not count as found. -/
theorem missed_of_check (h : device.check options = .ok (d, report)) (hnone : report.failure = none)
    (hstate : d.state = .hasFilesystem ∨ d.state = .hasSomeMetadata) {newest : CreationPoint}
    (hnewest : d.history.latest? = some newest) {s : Structure} (hcritical : s.isCritical)
    (hmissing : newest.found.holds s = false) :
    report.damage.has s ∧ ∃ finding ∈ report.findings, finding.target = s := by
  obtain ⟨hdetect, hcheck⟩ := detect_of_check h
  obtain ⟨-, subject, hsubject⟩ := subject?_of_detect hdetect hstate device.handle
  have hpoint : subject.point? = some newest := by
    unfold Detection.subject? Subject.of? at hsubject
    rw [if_pos hstate] at hsubject
    obtain ⟨geometry, -, rfl⟩ := Option.map_eq_some_iff.1 hsubject
    exact hnewest
  obtain ⟨inspector, hmem, rfl, problem, hrejected⟩ :=
    Inspector.exists_rejecting hpoint hcritical hmissing
  exact (Detection.accounts_of_check hcheck hsubject hnone).reports hmem hrejected

/-- Where detection found only some metadata, a critical structure is damaged. -/
theorem exists_missed_of_check (h : device.check options = .ok (d, report)) (hnone : report.failure = none)
    (hstate : d.state = .hasSomeMetadata) :
    ∃ s, report.damage.has s ∧ ∃ finding ∈ report.findings, finding.target = s := by
  obtain ⟨newest, hnewest, hclassify⟩ := newest_of_found (detect_of_check h).1 (.inr hstate)
  have hincomplete : newest.found ≠ .complete := by
    intro hcomplete
    rw [hstate, hcomplete] at hclassify
    cases hclassify
  obtain ⟨s, hcritical, hmissing⟩ := Inventory.exists_missing hincomplete
  exact ⟨s, missed_of_check h hnone (.inr hstate) hnewest hcritical hmissing⟩

/-- Partial metadata always comes with a finding. -/
theorem heavily_of_check (h : device.check options = .ok (d, report)) (hnone : report.failure = none)
    (hstate : d.state = .hasSomeMetadata) :
    report.state = .heavilyCorrupted ∧ report.findings ≠ [] := by
  constructor
  · rw [Detection.state_of_check (detect_of_check h).2, hnone, hstate]
    rfl
  · obtain ⟨-, -, finding, hfinding, -⟩ := exists_missed_of_check h hnone hstate
    exact List.ne_nil_of_mem hfinding

end Device

/-! ## Exit code -/

theorem CheckState.isClean_iff {state : CheckState} :
    state.isClean ↔ state = .healthy ∨ state = .uncleanUnmount := by
  cases state <;> simp [isClean]

namespace CommandLine

variable {device : Device} {name : String} {config : Config}

/-- The exit code is zero exactly for a clean verdict. A repair may be attempted, but never makes it so. -/
theorem code_checkDevice_eq_zero_iff : (checkDevice device name config).code = 0 ↔
    ∃ d report, device.check config.detectOptions = .ok (d, report) ∧
      (report.state = .healthy ∨ report.state = .uncleanUnmount) := by
  unfold checkDevice
  rcases hcheck : device.check config.detectOptions with cause | ⟨d, report⟩ <;> simp only
  · exact iff_of_false (by decide) fun ⟨_, _, h, _⟩ => nomatch h
  have hclean : (∃ d' report', (.ok (d, report) : Except Crash _) = .ok (d', report') ∧
      (report'.state = .healthy ∨ report'.state = .uncleanUnmount)) ↔ report.state.isClean := by
    rw [CheckState.isClean_iff]
    exact ⟨fun ⟨_, _, e, h⟩ => by cases e; exact h, fun h => ⟨d, report, rfl, h⟩⟩
  rw [hclean]
  split
  · rename_i hfailed
    refine iff_of_false Nat.one_ne_zero fun h => ?_
    rw [Detection.state_of_check (Device.detect_of_check hcheck).2, CheckState.isClean_classify, hfailed] at h
    cases h.1
  split
  · rename_i h
    exact iff_of_true rfl h
  · rename_i hdirty
    refine iff_of_false ?_ hdirty
    split
    · split <;> exact Nat.one_ne_zero
    · exact Nat.one_ne_zero

/-- A check reports what detection missed, and the exit code follows from its verdict. If it did not fail and
detection found at least some metadata, every critical structure that does not count as found on the newest
point is damaged and has a finding; so partial metadata means heavy corruption with a finding, and the verdict
is clean exactly if detection found a complete volume and no structure is damaged. The command exits with zero
exactly if there is a report and it calls the volume healthy or merely not unmounted, whatever is said about
repairs; and there is one for every device of at most 2 ^ 63 bytes, unless the erase size is given as zero. -/
theorem check_reports_missed (device : Device) (config : Config) :
    (∀ d report, device.check config.detectOptions = .ok (d, report) → report.failure = none →
        d.state = .hasFilesystem ∨ d.state = .hasSomeMetadata →
          (∃ newest, d.history.latest? = some newest ∧
            ∀ s, s.isCritical → newest.found.holds s = false →
              report.damage.has s ∧ ∃ finding ∈ report.findings, finding.target = s) ∧
          (d.state = .hasSomeMetadata → report.state = .heavilyCorrupted ∧ report.findings ≠ []) ∧
          (report.state.isClean ↔ d.state = .hasFilesystem ∧ report.damage.isEmpty)) ∧
      (∀ open? arguments name, open? name = .ok device → parse? arguments = some (.check name config) →
        ((run open? arguments).code = 0 ↔
          ∃ d report, device.check config.detectOptions = .ok (d, report) ∧
            (report.state = .healthy ∨ report.state = .uncleanUnmount))) ∧
      (device.handle.size ≤ 2 ^ 63 → config.eraseSize ≠ some 0 →
        ∃ d report, device.check config.detectOptions = .ok (d, report)) := by
  refine ⟨fun d report h hnone hstate => ⟨?_, Device.heavily_of_check h hnone, ?_⟩,
    fun open? arguments name hopen hparse => ?_, fun hsize herase => ?_⟩
  · obtain ⟨newest, hnewest, -⟩ := Device.newest_of_found (Device.detect_of_check h).1 hstate
    exact ⟨newest, hnewest, fun s hcritical hmissing =>
      Device.missed_of_check h hnone hstate hnewest hcritical hmissing⟩
  · rw [Detection.state_of_check (Device.detect_of_check h).2, CheckState.isClean_classify, hnone]
    exact and_iff_right rfl
  · unfold run
    simp only [hparse, hopen]
    exact code_checkDevice_eq_zero_iff
  · exact Device.exists_check hsize (show config.detectOptions.eraseSize ≠ some 0 from herase)

/-- A whole volume with a newer superblock behind it, all of it scanned, is heavily corrupted, and asking for
a repair does not change that. -/
theorem followed_reports_missed : ∃ d report,
    CompactVolume.followed.check (CompactVolume.options true) = .ok (d, report) ∧
      report.failure = none ∧ d.state = .hasSomeMetadata ∧ report.state = .heavilyCorrupted ∧
      report.findings ≠ [] ∧
      ∀ open?, open? "volume" = .ok CompactVolume.followed →
        (run open? ["-f", "-p", "-B512", "-e2048", "-s2048", "volume"]).code ≠ 0 := by
  obtain ⟨d, report, h, hstate, hnone⟩ :=
    CompactVolume.exists_forcedCheck CompactVolume.forcedCheck_followed
  obtain ⟨hmissed, hexit, -⟩ := check_reports_missed CompactVolume.followed
    { CompactVolume.config true with autoRepair := true }
  obtain ⟨hheavily, hfindings⟩ := (hmissed d report h hnone (.inr hstate)).2.1 hstate
  have hparse : parse? ["-f", "-p", "-B512", "-e2048", "-s2048", "volume"] =
      some (.check "volume" { CompactVolume.config true with autoRepair := true }) := by
    simp [parse?, Progress.read?, Progress.read?.next?, Progress.readShort?, Flag.ofShort?, Flag.takesValue,
      Progress.setFlag?, Progress.setValue?, Progress.note?, number32?, number64?, digits?, Progress.request?,
      Progress.setDevice?, Progress.start, Config.default, CompactVolume.config, UInt32.size, UInt64.size,
      Option.filter_some]
  refine ⟨d, report, h, hnone, hstate, hheavily, hfindings, fun open? hopen hzero => ?_⟩
  obtain ⟨d', report', h', hclean⟩ := (hexit open? _ "volume" hopen hparse).1 hzero
  cases h.symm.trans h'
  rw [hheavily] at hclean
  rcases hclean with e | e <;> cases e

end CommandLine

end FlashVolume
