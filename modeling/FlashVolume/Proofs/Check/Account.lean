/-
What a check accounts for. The report holds one finding for every inspection that rejected its structure, in
the order of the inspections, up to the first inspection that failed; that one is the reason the check failed,
and those behind it are not run. Nothing is inspected where detection found nothing.
-/
import FlashVolume.Proofs.Check
import FlashVolume.Proofs.Detection.Coherence

namespace FlashVolume

/-! ## One inspection -/

namespace Inspector

/-- The inspection comes to a verdict. -/
def Decides (inspector : Inspector) (subject : Subject) : Prop :=
  ∃ verdict, inspector.inspect subject = .ok verdict

/-- What the inspection has to report: a finding, if it rejects its structure. -/
def finding? (inspector : Inspector) (subject : Subject) : Option Finding :=
  match inspector.inspect subject with
  | .ok (.corrupted problem) => some ⟨inspector.target, problem⟩
  | _ => none

/-- An inspection that comes to the same whatever it inspects. -/
def always (target : Structure) (outcome : Except InspectionStop Verdict) : Inspector :=
  ⟨target, fun _ => outcome⟩

theorem finding?_eq_some {inspector : Inspector} {subject : Subject} {finding : Finding} :
    inspector.finding? subject = some finding ↔
      ∃ problem, inspector.inspect subject = .ok (.corrupted problem) ∧
        finding = ⟨inspector.target, problem⟩ := by
  unfold finding?
  rcases inspector.inspect subject with stop | _ | problem <;> simp [eq_comm]

end Inspector

/-! ## A run of inspections -/

namespace Subject

variable {subject : Subject} {failing : Inspector}

/-- Inspections that come to a verdict put what they found in front of what the others come to. -/
theorem inspectAll_append : ∀ {decided : List Inspector} (rest : List Inspector),
    (∀ inspector ∈ decided, inspector.Decides subject) →
    subject.inspectAll (decided ++ rest) = (subject.inspectAll rest).map fun result =>
      { result with findings := decided.filterMap (·.finding? subject) ++ result.findings }
  | [], rest, _ => by
    rcases hrest : subject.inspectAll rest with cause | result <;> exact hrest
  | inspector :: decided, rest, h => by
    obtain ⟨⟨verdict, hverdict⟩, hdecided⟩ := List.forall_mem_cons.1 h
    have ih := inspectAll_append rest hdecided
    rw [List.cons_append, inspectAll, hverdict, List.filterMap_cons]
    rcases verdict with _ | problem <;> simp only [ih, Inspector.finding?, hverdict]
    rcases subject.inspectAll rest with cause | result <;> rfl

theorem inspectAll_of_decided {inspectors : List Inspector}
    (h : ∀ inspector ∈ inspectors, inspector.Decides subject) :
    subject.inspectAll inspectors = .ok ⟨inspectors.filterMap (·.finding? subject), none⟩ := by
  have happend := inspectAll_append [] h
  rw [List.append_nil] at happend
  rw [happend]
  simp only [inspectAll, Except.map, List.append_nil]

/-- The first inspection that fails ends the run, whatever stands behind it. -/
theorem inspectAll_of_failing {decided : List Inspector} {cause : CheckError} (after : List Inspector)
    (h : ∀ inspector ∈ decided, inspector.Decides subject)
    (hfailing : failing.inspect subject = .error (.failure cause)) :
    subject.inspectAll (decided ++ failing :: after) =
      .ok ⟨decided.filterMap (·.finding? subject), some cause.message⟩ := by
  rw [inspectAll_append _ h, inspectAll, hfailing]
  simp only [Except.map, List.append_nil]

theorem inspectAll_of_crashing {decided : List Inspector} {cause : Crash} (after : List Inspector)
    (h : ∀ inspector ∈ decided, inspector.Decides subject)
    (hfailing : failing.inspect subject = .error (.crash cause)) :
    subject.inspectAll (decided ++ failing :: after) = .error cause := by
  rw [inspectAll_append _ h, inspectAll, hfailing]
  rfl

end Subject

/-! ## The report -/

/-- The report says what these inspections found, no more and no less, and that the check failed for this
reason, if for any. -/
structure CheckReport.Accounts (report : CheckReport) (subject : Subject) (inspected : List Inspector)
    (failure : Option String) : Prop where
  findings : report.findings = inspected.filterMap (·.finding? subject)
  damage : ∀ s, report.damage.has s ↔ ∃ inspector ∈ inspected, inspector.target = s ∧
    ∃ problem, inspector.inspect subject = .ok (.corrupted problem)
  failure : report.failure = failure

/-- The structures in the damage are those that were rejected. -/
theorem Finding.has_damage_filterMap {inspected : List Inspector} {subject : Subject} {s : Structure} :
    (damage (inspected.filterMap (·.finding? subject))).has s ↔ ∃ inspector ∈ inspected,
      inspector.target = s ∧ ∃ problem, inspector.inspect subject = .ok (.corrupted problem) := by
  rw [has_damage, List.any_eq_true]
  constructor
  · rintro ⟨finding, hfinding, hs⟩
    obtain ⟨inspector, hmem, hfound⟩ := List.mem_filterMap.1 hfinding
    obtain ⟨problem, hinspect, rfl⟩ := Inspector.finding?_eq_some.1 hfound
    exact ⟨inspector, hmem, beq_iff_eq.1 hs, problem, hinspect⟩
  · rintro ⟨inspector, hmem, rfl, problem, hinspect⟩
    exact ⟨_, List.mem_filterMap.2 ⟨inspector, hmem, Inspector.finding?_eq_some.2 ⟨problem, hinspect, rfl⟩⟩,
      beq_self_eq_true _⟩

theorem CheckState.classify_eq_failed {detection : DetectionState} {damage : Damage}
    {hasFailed mounted : Bool} :
    classify detection damage hasFailed mounted = .failed ↔
      hasFailed ∨ detection = .failed ∨ detection = .unknown := by
  unfold classify
  cases hasFailed with
  | true => exact iff_of_true rfl (.inl rfl)
  | false =>
    cases detection with
    | failed | unknown => simp
    | noFilesystem | hasSomeMetadata => simp
    | hasFilesystem =>
      simp only [Bool.false_eq_true, if_false, reduceCtorEq, or_self, iff_false]
      repeat' split
      all_goals nofun

namespace Detection

variable {d : Detection} {handle : Handle} {subject : Subject}

/-- Without a subject the report repeats what detection said, whatever there is to inspect with. -/
theorem check_of_no_subject (hsubject : d.subject? handle = none) :
    ∃ report, (∀ inspectors, d.check handle inspectors = .ok report) ∧ report.findings = [] ∧
      (∀ s, report.damage.has s = false) ∧ report.failure = d.failure :=
  ⟨_, fun inspectors => by unfold check; rw [hsubject], rfl, fun _ => rfl, rfl⟩

/-- With a subject there is a report that accounts for these inspections and this reason to fail, and it is
that of every run that comes to them. -/
theorem exists_accounts (hsubject : d.subject? handle = some subject) (hfailure : d.failure = none)
    (inspected : List Inspector) (failure : Option String) :
    ∃ report : CheckReport,
      (∀ inspectors,
        subject.inspectAll inspectors = .ok ⟨inspected.filterMap (·.finding? subject), failure⟩ →
          d.check handle inspectors = .ok report) ∧
        report.Accounts subject inspected failure := by
  let findings := inspected.filterMap (·.finding? subject)
  let mounted := subject.state?.any (·.isMounted)
  refine ⟨⟨.classify d.state (Finding.damage findings) failure.isSome mounted, Finding.damage findings,
    findings, failure, mounted, d.summary⟩, fun inspectors h => ?_, rfl,
    fun _ => Finding.has_damage_filterMap, rfl⟩
  unfold check
  simp only [hsubject, h, hfailure, Option.or_none, findings, mounted]

/-- The check has failed if the report gives a reason, provided detection did not fail without one. -/
theorem state_eq_failed_iff {inspectors : List Inspector} {report : CheckReport}
    (h : d.check handle inspectors = .ok report)
    (hd : d.state = .failed ∨ d.state = .unknown → d.failure.isSome) :
    report.state = .failed ↔ report.failure.isSome := by
  unfold check at h
  rcases hsubject : d.subject? handle with _ | subject <;> simp only [hsubject] at h
  · cases h
    rw [CheckState.classify_eq_failed]
    exact ⟨fun h => h.elim id hd, .inl⟩
  · rcases hall : subject.inspectAll inspectors with cause | inspected <;> simp only [hall] at h
    · cases h
    cases h
    rw [CheckState.classify_eq_failed]
    refine ⟨fun h => h.elim id fun hstate => ?_, .inl⟩
    rw [Option.isSome_or, hd hstate, Bool.or_true]

end Detection

namespace Device

variable {device : Device} {options : DetectOptions} {d : Detection}

/-- Detection always comes to a state. -/
theorem state_ne_unknown_of_detect (h : device.detect options = .ok d) : d.state ≠ .unknown := by
  have hclassify (found : Inventory) : DetectionState.classify found ≠ .unknown := by
    unfold DetectionState.classify
    repeat' split
    all_goals nofun
  rcases detect_cases h with ⟨cause, -, rfl⟩ | ⟨-, rfl⟩ | ⟨_, _, _, -, -, -, hexplore⟩
  · nofun
  · nofun
  · obtain ⟨point, search, -, ⟨-, -, rfl⟩ | ⟨shards, -, -, rfl⟩⟩ := explore_cases hexplore <;>
      exact hclassify _

/-- Where detection found something, there is a subject to inspect, and nothing failed so far. -/
theorem subject?_of_detect (h : device.detect options = .ok d)
    (hstate : d.state = .hasFilesystem ∨ d.state = .hasSomeMetadata) (handle : Handle) :
    d.failure = none ∧ ∃ subject, d.subject? handle = some subject := by
  constructor
  · rw [← Option.not_isSome_iff_eq_none, (detect_coherent h).failure_iff]
    rcases hstate with e | e <;> rw [e] <;> nofun
  · obtain ⟨t, -, hexplore⟩ := explore_of_found h hstate
    unfold Detection.subject? Subject.of?
    rw [if_pos hstate, geometry_of_explore hexplore]
    exact ⟨_, rfl⟩

/-- A check accounts for every verdict. Inspections run only where detection found at least some metadata.
If all of them come to a verdict, the report holds what they found, and has no failure; otherwise it holds
what those before the first failing one found, whatever stands behind that one, and its reason. And the check
has failed exactly if a reason is given. -/
theorem check_accounts (h : device.detect options = .ok d) (handle : Handle) :
    (¬ (d.state = .hasFilesystem ∨ d.state = .hasSomeMetadata) →
        ∃ report, (∀ inspectors, d.check handle inspectors = .ok report) ∧ report.findings = [] ∧
          (∀ s, report.damage.has s = false) ∧ report.failure = d.failure) ∧
      (d.state = .hasFilesystem ∨ d.state = .hasSomeMetadata →
        ∃ subject, d.subject? handle = some subject ∧
          (∀ inspectors, (∀ inspector ∈ inspectors, inspector.Decides subject) →
            ∃ report, d.check handle inspectors = .ok report ∧
              report.Accounts subject inspectors none) ∧
          ∀ decided failing, (∀ inspector ∈ decided, inspector.Decides subject) →
            (∀ cause, failing.inspect subject = .error (.failure cause) →
              ∃ report, (∀ after, d.check handle (decided ++ failing :: after) = .ok report) ∧
                report.Accounts subject decided (some cause.message)) ∧
            ∀ cause, failing.inspect subject = .error (.crash cause) →
              ∀ after, d.check handle (decided ++ failing :: after) = .error cause) ∧
      ∀ inspectors report, d.check handle inspectors = .ok report →
        (report.state = .failed ↔ report.failure.isSome) := by
  refine ⟨fun hstate => ?_, fun hstate => ?_, fun inspectors report hcheck => ?_⟩
  · exact Detection.check_of_no_subject (if_neg hstate)
  · obtain ⟨hfailure, subject, hsubject⟩ := subject?_of_detect h hstate handle
    refine ⟨subject, hsubject, fun inspectors hall => ?_, fun decided failing hdecided => ⟨?_, ?_⟩⟩
    · obtain ⟨report, hcheck, hreport⟩ := Detection.exists_accounts hsubject hfailure inspectors none
      exact ⟨report, hcheck _ (Subject.inspectAll_of_decided hall), hreport⟩
    · intro cause hfailing
      obtain ⟨report, hcheck, hreport⟩ :=
        Detection.exists_accounts hsubject hfailure decided (some cause.message)
      exact ⟨report, fun after => hcheck _ (Subject.inspectAll_of_failing after hdecided hfailing), hreport⟩
    · intro cause hfailing after
      unfold Detection.check
      simp only [hsubject, Subject.inspectAll_of_crashing after hdecided hfailing]
  · refine Detection.state_eq_failed_iff hcheck fun hstate => ?_
    refine (detect_coherent h).failure_iff.2 (hstate.resolve_right ?_)
    exact state_ne_unknown_of_detect h

/-- On a whole volume, what is rejected twice is reported twice, and what stands behind a failure is not. -/
theorem whole_accounts : ∃ d report,
    CompactVolume.whole.device.detect Config.default.detectOptions = .ok d ∧
      d.check CompactVolume.whole.device.handle
        [.always .inodesTree (.ok (.corrupted "lost")), .always .superblock (.ok .sound),
          .always .inodesTree (.ok (.corrupted "lost")), .always .mappingTable (.error (.failure (.fault .lzoCache))),
          .always .segmentBitmap (.ok (.corrupted "lost"))] = .ok report ∧
      report.findings = [⟨.inodesTree, "lost"⟩, ⟨.inodesTree, "lost"⟩] ∧
      report.failure = some Fault.lzoCache.message ∧ report.state = .failed := by
  obtain ⟨d, checked, h, hclean, -⟩ := CompactVolume.exists_check CompactVolume.outcome_whole
  obtain ⟨hdetect, hcheck⟩ := detect_of_check h
  have hstate := Detection.state_of_check_clean hcheck (by rw [hclean]; rfl)
  obtain ⟨-, hinspected, hfailed⟩ := check_accounts hdetect CompactVolume.whole.device.handle
  obtain ⟨subject, -, -, hfailing⟩ := hinspected (.inl hstate)
  obtain ⟨report, hreport, haccounts⟩ := (hfailing
    [.always .inodesTree (.ok (.corrupted "lost")), .always .superblock (.ok .sound),
      .always .inodesTree (.ok (.corrupted "lost"))]
    (.always .mappingTable (.error (.failure (.fault .lzoCache))))
    (by simp [Inspector.Decides, Inspector.always])).1 (.fault .lzoCache) rfl
  have hreport := hreport [.always .segmentBitmap (.ok (.corrupted "lost"))]
  refine ⟨d, report, hdetect, hreport, haccounts.findings, haccounts.failure, ?_⟩
  exact (hfailed _ _ hreport).2 (by rw [haccounts.failure]; rfl)

end Device

end FlashVolume
