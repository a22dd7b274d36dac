/-
The trail leaves a coherent point. Each step looks for one structure and touches no other, so that the
point is coherent after any number of steps.
-/
import FlashVolume.Proofs.Trail.Steps

namespace FlashVolume.Trailhead

variable {t : Trailhead} {p q : CreationPoint} {search : Search}

/-! ## One step -/

/-- The step looks for the structure of a kind: taken on a coherent point on which that structure does
not count as found, it leaves a coherent point and finds no other structure. -/
def Seeks (t : Trailhead) (kind : SegmentKind) (step : Trailhead → CreationPoint → StepResult) : Prop :=
  ∀ p q search, step t p = (q, .ok search) → p.Coherent t.volume.geometry.pagesPerPeb →
    p.found.has kind = false →
    q.Coherent t.volume.geometry.pagesPerPeb ∧
      ∀ other, other ≠ kind → q.found.has other = p.found.has other

/-- What counts as found after a step that found the structure of a metadata kind. -/
theorem has_union_ofKind {kind other : SegmentKind} (hkind : kind.isMetadata = true) :
    (p.found.union (.ofKind kind)).has other = (p.found.has other || other == kind) := by
  rw [Inventory.has_union, Inventory.has_ofKind, hkind, Bool.true_and]

/-- A step that puts logs of a kind on a point, and counts their structure as found only if there are
any, looks for that structure. -/
theorem coherent_of_located {kind : SegmentKind} (hp : p.Coherent t.volume.geometry.pagesPerPeb)
    (hkind : kind.isMetadata = true) (hfree : p.found.has kind = false)
    (htime : q.createTime = p.createTime) (hscanned : q.scanned = p.scanned)
    (hother : ∀ other, other ≠ kind → q.located other = p.located other)
    (hlogs : ∀ log ∈ q.located kind, log.Belongs p.createTime kind t.volume.geometry.pagesPerPeb)
    (hfound : q.found = p.found ∨ q.found = p.found.union (.ofKind kind) ∧ q.located kind ≠ []) :
    q.Coherent t.volume.geometry.pagesPerPeb ∧
      ∀ other, other ≠ kind → q.found.has other = p.found.has other := by
  constructor
  · refine hp.locate htime hscanned hother hlogs fun other h => ?_
    rcases hfound with hsame | ⟨hnew, hlocated⟩
    · rw [hsame] at h
      refine .inl ⟨fun hk => ?_, h⟩
      rw [hk, hfree] at h
      cases h
    · rw [hnew, has_union_ofKind hkind, Bool.or_eq_true, beq_iff_eq] at h
      by_cases hk : other = kind
      · exact .inr ⟨hk, hlocated⟩
      · exact .inl ⟨hk, h.resolve_right hk⟩
  · intro other hk
    rcases hfound with hsame | ⟨hnew, -⟩
    · rw [hsame]
    · rw [hnew, has_union_ofKind hkind, beq_eq_false_iff_ne.2 hk, Bool.or_false]

theorem findSnapshot_seeks (ht : t.Grounded) : t.Seeks .initialSnapshot findSnapshot := by
  intro p q search h hp hfree
  rcases findSnapshot_cases h with ⟨rfl, -⟩ | ⟨log, hlog, htime, rfl, -⟩
  · exact ⟨hp, fun _ _ => rfl⟩
  refine coherent_of_located hp rfl hfree rfl rfl (fun other hk => ?_) (fun found hfound => ?_)
    (.inr ⟨rfl, List.cons_ne_nil log []⟩)
  · cases other <;> first | rfl | exact absurd rfl hk
  · rw [List.mem_singleton.1 hfound, ← htime]
    exact snapshotLog?_spec hlog ht

theorem findSuperblock_seeks : t.Seeks .superblock findSuperblock := by
  intro p q search h hp hfree
  rcases findSuperblock_cases h with ⟨rfl, -⟩ | ⟨base, pair, -, hpair, hpresent, hcache⟩
  · exact ⟨hp, fun _ _ => rfl⟩
  -- The cache is no log, so it makes no difference whether one was found.
  have hlocated := Duplex.toList_ne_nil_of_isPresent hpresent
  rcases findCache_cases hcache with ⟨rfl, -⟩ | ⟨cache, rfl, -⟩ <;>
    refine coherent_of_located hp rfl hfree rfl rfl (fun other hk => ?_) (superblocks_spec hpair)
      (.inr ⟨rfl, hlocated⟩) <;>
    cases other <;> first | rfl | exact absurd rfl hk

/-- Groups of pairs that all have an instance present have a log. -/
theorem logs_of_allPresent {groups : List (List LogPair)} (hne : groups ≠ [])
    (h : allPresent groups = true) : groups.flatten.flatMap (·.toList) ≠ [] := by
  obtain ⟨group, rest, rfl⟩ := List.exists_cons_of_ne_nil hne
  have hgroup := List.all_eq_true.1 h group (List.mem_cons_self ..)
  obtain ⟨pair, hpair, hpresent⟩ := List.any_eq_true.1 hgroup
  obtain ⟨log, hlog⟩ := List.exists_mem_of_ne_nil _ (Duplex.toList_ne_nil_of_isPresent hpresent)
  exact List.ne_nil_of_mem (List.mem_flatMap.2
    ⟨pair, List.mem_flatten.2 ⟨group, List.mem_cons_self .., hpair⟩, hlog⟩)

theorem findSegmentBitmap_seeks : t.Seeks .segmentBitmap findSegmentBitmap := by
  intro p q search h hp hfree
  rcases findSegmentBitmap_cases h with ⟨rfl, -⟩ | ⟨header, cache, groups, -, -, hcount, hgroups, hq⟩
  · exact ⟨hp, fun _ _ => rfl⟩
  obtain ⟨hlength, hlogs⟩ := groupPairs_spec hgroups
  rcases hq with ⟨rfl, -, -⟩ | ⟨rfl, -, hall⟩
  · refine coherent_of_located hp rfl hfree rfl rfl (fun other hk => ?_) hlogs (.inl rfl)
    cases other <;> first | rfl | exact absurd rfl hk
  · have hne : groups ≠ [] := by
      rintro rfl
      have hzero := (length_bitmapLebs hcount).symm.trans hlength.length_eq
      have hone := hcount.1
      rw [hzero] at hone
      cases hone
    refine coherent_of_located hp rfl hfree rfl rfl (fun other hk => ?_) hlogs
      (.inr ⟨rfl, logs_of_allPresent hne hall⟩)
    cases other <;> first | rfl | exact absurd rfl hk

theorem findMappingTable_seeks : t.Seeks .mappingTable findMappingTable := by
  intro p q search h hp hfree
  rcases findMappingTable_cases h with ⟨rfl, -⟩ | ⟨header, cache, pebs, groups, -, -, -, hgroups, hq⟩
  · exact ⟨hp, fun _ _ => rfl⟩
  obtain ⟨-, hlogs⟩ := groupPairs_spec hgroups
  rcases hq with ⟨rfl, -, -⟩ | ⟨rfl, -, hall⟩
  · refine coherent_of_located hp rfl hfree rfl rfl (fun other hk => ?_) hlogs (.inl rfl)
    cases other <;> first | rfl | exact absurd rfl hk
  · rw [Bool.and_eq_true, Bool.not_eq_true', List.isEmpty_eq_false_iff] at hall
    refine coherent_of_located hp rfl hfree rfl rfl (fun other hk => ?_) hlogs
      (.inr ⟨rfl, logs_of_allPresent hall.1 hall.2⟩)
    cases other <;> first | rfl | exact absurd rfl hk

/-! ## The whole trail -/

/-- Steps that look for different structures, none of which counts as found yet, lead from a coherent
point to a coherent one, however far they get. -/
theorem followSteps_coherent {kinds : List SegmentKind}
    {steps : List (String × (Trailhead → CreationPoint → StepResult))}
    (hsteps : List.Forall₂ (fun kind step => t.Seeks kind step.2) kinds steps) (hkinds : kinds.Nodup)
    (hp : p.Coherent t.volume.geometry.pagesPerPeb) (hfree : ∀ kind ∈ kinds, p.found.has kind = false)
    (h : t.followSteps p steps = (q, .ok search)) : q.Coherent t.volume.geometry.pagesPerPeb := by
  induction hsteps generalizing p with
  | nil =>
    cases h
    exact hp
  | @cons kind step kinds steps hstep hrest ih =>
    obtain ⟨hkind, hkinds⟩ := List.nodup_cons.1 hkinds
    have hnone := hfree kind (List.mem_cons_self ..)
    rcases followSteps_cons.1 h with ⟨hlast, -⟩ | ⟨next, hfound, h⟩
    · exact (hstep _ _ _ hlast hp hnone).1
    · obtain ⟨hnext, hkeep⟩ := hstep _ _ _ hfound hp hnone
      refine ih hkinds hnext (fun other hother => ?_) h
      rw [hkeep other (fun hk => hkind (hk ▸ hother))]
      exact hfree other (List.mem_cons_of_mem _ hother)

/-- The trail leaves a coherent point. -/
theorem follow_coherent (ht : t.Grounded) (hp : p.Coherent t.volume.geometry.pagesPerPeb)
    (hfree : p.found = .empty) (h : t.follow p = (q, .ok search)) :
    q.Coherent t.volume.geometry.pagesPerPeb := by
  have hsteps : List.Forall₂ (fun kind step => t.Seeks kind step.2)
      [.initialSnapshot, .superblock, .segmentBitmap, .mappingTable] steps :=
    .cons (findSnapshot_seeks ht) (.cons findSuperblock_seeks
      (.cons findSegmentBitmap_seeks (.cons findMappingTable_seeks .nil)))
  refine followSteps_coherent hsteps (by decide) hp (fun kind _ => ?_) h
  rw [hfree, Inventory.has_empty]

end FlashVolume.Trailhead
