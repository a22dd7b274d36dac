/-
Checks without a crash. Inspections read only from the superblock log of the newest point, which the trail
found on an erase block of the volume; so on a device of at most 2 ^ 63 bytes a check always ends in a report.
-/
import FlashVolume.Proofs.Arithmetic.Detection

namespace FlashVolume

namespace Trailhead

variable {t : Trailhead} {p q : CreationPoint} {search : Search}

/-! ## Superblock logs -/

/-- The step keeps the superblock logs of the point where words hold their positions. -/
def KeepsFitting (t : Trailhead) (step : Trailhead → CreationPoint → StepResult) : Prop :=
  ∀ p q search, step t p = (q, .ok search) → (∀ log ∈ p.superblock.toList, t.volume.FitsLog log) →
    ∀ log ∈ q.superblock.toList, t.volume.FitsLog log

theorem findSnapshot_keepsFitting : t.KeepsFitting findSnapshot := by
  intro p q search h hp
  rcases findSnapshot_cases h with ⟨rfl, -⟩ | ⟨log, -, -, rfl, -⟩ <;> exact hp

theorem Addressable.findSuperblock_keepsFitting (ht : t.Addressable) :
    t.KeepsFitting Trailhead.findSuperblock := by
  intro p q search h hp
  rcases findSuperblock_cases h with ⟨rfl, -⟩ | ⟨base, pair, -, hpair, -, hcache⟩
  · exact hp
  · rcases findCache_cases hcache with ⟨rfl, -⟩ | ⟨cache, rfl, -⟩ <;>
      exact ht.fitsLog_of_superblocks hpair

theorem findSegmentBitmap_keepsFitting : t.KeepsFitting findSegmentBitmap := by
  intro p q search h hp
  rw [findSegmentBitmap_frame h]
  exact hp

theorem findMappingTable_keepsFitting : t.KeepsFitting findMappingTable := by
  intro p q search h hp
  rw [findMappingTable_frame h]
  exact hp

theorem followSteps_keepsFitting {steps : List (String × (Trailhead → CreationPoint → StepResult))}
    (hsteps : ∀ step ∈ steps, t.KeepsFitting step.2) (h : t.followSteps p steps = (q, .ok search))
    (hp : ∀ log ∈ p.superblock.toList, t.volume.FitsLog log) :
    ∀ log ∈ q.superblock.toList, t.volume.FitsLog log := by
  induction steps generalizing p with
  | nil =>
    cases h
    exact hp
  | cons step rest ih =>
    obtain ⟨hstep, hrest⟩ := List.forall_mem_cons.1 hsteps
    rcases followSteps_cons.1 h with ⟨hlast, -⟩ | ⟨next, hnext, h⟩
    · exact hstep _ _ _ hlast hp
    · exact ih hrest h (hstep _ _ _ hnext hp)

theorem Addressable.fitsLog_of_follow (ht : t.Addressable) (h : t.follow t.origin = (q, .ok search)) :
    ∀ log ∈ q.superblock.toList, t.volume.FitsLog log := by
  refine followSteps_keepsFitting ?_ h (List.forall_mem_nil _)
  unfold Trailhead.steps
  simp only [List.forall_mem_cons]
  exact ⟨findSnapshot_keepsFitting, ht.findSuperblock_keepsFitting, findSegmentBitmap_keepsFitting,
    findMappingTable_keepsFitting, List.forall_mem_nil _⟩

end Trailhead

/-! ## Inspections -/

/-- The inspection ends with a verdict or a failure, never in a crash. -/
def Inspector.Completes (inspector : Inspector) (subject : Subject) : Prop :=
  ∀ cause, inspector.inspect subject ≠ .error (.crash cause)

/-- Inspections that never crash come to something together. -/
theorem Subject.exists_inspectAll {subject : Subject} : ∀ {inspectors : List Inspector},
    (∀ inspector ∈ inspectors, inspector.Completes subject) →
    ∃ inspected, subject.inspectAll inspectors = .ok inspected
  | [], _ => ⟨_, rfl⟩
  | inspector :: rest, h => by
    obtain ⟨hfirst, hrest⟩ := List.forall_mem_cons.1 h
    obtain ⟨inspected, hinspected⟩ := exists_inspectAll hrest
    unfold inspectAll
    rcases hinspect : inspector.inspect subject with (cause | cause) | _ | problem <;>
      simp only [hinspected]
    · exact ⟨_, rfl⟩
    · exact absurd hinspect (hfirst cause)
    all_goals exact ⟨_, rfl⟩

/-- The superblock logs of the newest point lie where words hold their positions. -/
def Subject.Fits (subject : Subject) : Prop :=
  ∀ point, subject.point? = some point →
    ∀ log ∈ point.superblock.toList, subject.volume.FitsLog log

theorem Inspector.superblockVerdict_noCrash {subject : Subject} (h : subject.Fits) :
    NoCrash (superblockVerdict subject) := by
  unfold superblockVerdict
  rcases hpoint : subject.point?.filter (·.found.superblock) with _ | point <;> simp only [hpoint]
  · exact .ok _
  rcases hlog : superblockLog point with problem | log <;> simp only
  · exact .ok _
  have hfits : subject.volume.FitsLog log := by
    obtain ⟨copy, hpair, -⟩ := superblockLog_eq_ok hlog
    refine h point (Option.filter_eq_some_iff.1 hpoint).1 log ?_
    rw [hpair]
    exact List.mem_cons_self ..
  refine (hfits.blockBitmapHeader? hfits.page_lt _).bind fun bitmap _ => ?_
  split
  · exact .ok _
  refine (hfits.offsetsTableHeader? hfits.page_lt _).bind fun table _ => ?_
  split
  · exact .ok _
  · split
    · exact .ok _
    · exact .ok _

theorem Inspector.superblock_completes {subject : Subject} (h : subject.Fits) : superblock.Completes subject := by
  intro cause hcrash
  obtain ⟨stop, hstop, hsame⟩ := Outcome.mapError_eq_error.1 hcrash
  rcases superblockVerdict_noCrash h with ⟨verdict, hverdict⟩ | ⟨fault, hfault⟩
  · rw [hverdict] at hstop
    cases hstop
  · rw [hfault] at hstop
    cases hstop
    cases hsame

theorem Inspector.standard_completes {subject : Subject} (h : subject.Fits) :
    ∀ inspector ∈ standard, inspector.Completes subject := by
  unfold standard
  simp only [List.forall_mem_cons]
  exact ⟨nofun, superblock_completes h, nofun, nofun, nofun, nofun, nofun, nofun, List.forall_mem_nil _⟩

namespace Device

variable {device : Device} {options : DetectOptions} {d : Detection} {subject : Subject}

theorem fits_of_detect (hsize : device.handle.size ≤ 2 ^ 63) (h : device.detect options = .ok d)
    (hsubject : d.subject? device.handle = some subject) : subject.Fits := by
  unfold Detection.subject? Subject.of? at hsubject
  split at hsubject
  · rename_i hstate
    obtain ⟨t, ht, hexplore⟩ := explore_of_found h hstate
    obtain rfl : ⟨t.volume, d⟩ = subject := by
      rw [geometry_of_explore hexplore, ← handle_of_trailhead? ht] at hsubject
      exact Option.some.inj hsubject
    intro point hpoint log hlog
    obtain ⟨trail, search, hfollow, hsame⟩ :=
      sameLogs_of_explore hexplore hpoint (Duplex.isPresent_of_mem_toList hlog)
    rw [hsame.superblock] at hlog
    exact (addressable_of_trailhead? hsize ht).fitsLog_of_follow hfollow log hlog
  · cases hsubject

/-- A check of a device of at most 2 ^ 63 bytes always ends in a report. -/
theorem exists_check (hsize : device.handle.size ≤ 2 ^ 63) (herase : options.eraseSize ≠ some 0) :
    ∃ d report, device.check options = .ok (d, report) := by
  obtain ⟨d, hdetect⟩ := exists_detect hsize herase
  obtain ⟨report, hreport⟩ : ∃ report, d.check device.handle Inspector.standard = .ok report := by
    unfold Detection.check
    rcases hsubject : d.subject? device.handle with _ | subject <;> simp only
    · exact ⟨_, rfl⟩
    obtain ⟨inspected, hinspected⟩ :=
      Subject.exists_inspectAll (Inspector.standard_completes (fits_of_detect hsize hdetect hsubject))
    rw [hinspected]
    exact ⟨_, rfl⟩
  refine ⟨d, report, ?_⟩
  unfold check
  simp only [hdetect, hreport]

end Device

end FlashVolume
