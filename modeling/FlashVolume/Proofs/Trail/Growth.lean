/-
A trail only adds to its point. The creation time, what was scanned and what counts as found before all
stay, and a trail that goes through has found every structure.
-/
import FlashVolume.Proofs.Trail.Steps

namespace FlashVolume

/-- A point later on the same trail. -/
structure CreationPoint.Grows (p q : CreationPoint) : Prop where
  createTime : q.createTime = p.createTime
  scanned : q.scanned = p.scanned
  found : ∀ kind, p.found.has kind = true → q.found.has kind = true

namespace CreationPoint.Grows

variable {p q r : CreationPoint}

theorem refl (p : CreationPoint) : p.Grows p := ⟨rfl, rfl, fun _ h => h⟩

theorem trans (h : p.Grows q) (h' : q.Grows r) : p.Grows r :=
  ⟨h'.createTime.trans h.createTime, h'.scanned.trans h.scanned,
    fun kind hkind => h'.found kind (h.found kind hkind)⟩

/-- Counting one more structure as found keeps all that was found before. -/
theorem of_union {kind : SegmentKind} (htime : q.createTime = p.createTime)
    (hscanned : q.scanned = p.scanned) (hfound : q.found = p.found.union (.ofKind kind)) : p.Grows q := by
  refine ⟨htime, hscanned, fun other hother => ?_⟩
  rw [hfound, Inventory.has_union, hother, Bool.true_or]

end CreationPoint.Grows

namespace Trailhead

variable {t : Trailhead} {p q : CreationPoint} {search : Search}

/-! ## One step -/

/-- The step adds to the point; when it ends well, the structure of a kind counts as found. -/
def Finds (t : Trailhead) (kind : SegmentKind) (step : Trailhead → CreationPoint → StepResult) : Prop :=
  ∀ p q search, step t p = (q, .ok search) →
    p.Grows q ∧ (search = .found → q.found.has kind = true)

theorem has_union_self {i : Inventory} {kind : SegmentKind} (hkind : kind.isMetadata = true) :
    (i.union (.ofKind kind)).has kind = true := by
  rw [Inventory.has_union, Inventory.has_ofKind, hkind, beq_self_eq_true, Bool.and_true, Bool.or_true]

theorem findSnapshot_finds : t.Finds .initialSnapshot findSnapshot := by
  intro p q search h
  rcases findSnapshot_cases h with ⟨rfl, rfl⟩ | ⟨log, -, -, rfl, rfl⟩
  · exact ⟨.refl _, nofun⟩
  · exact ⟨.of_union rfl rfl rfl, fun _ => has_union_self rfl⟩

theorem findSuperblock_finds : t.Finds .superblock findSuperblock := by
  intro p q search h
  rcases findSuperblock_cases h with ⟨rfl, rfl⟩ | ⟨base, pair, -, -, -, hcache⟩
  · exact ⟨.refl _, nofun⟩
  · rcases findCache_cases hcache with ⟨rfl, rfl⟩ | ⟨cache, rfl, rfl⟩
    · exact ⟨.of_union rfl rfl rfl, fun _ => has_union_self rfl⟩
    · exact ⟨.of_union rfl rfl rfl, fun _ => has_union_self rfl⟩

theorem findSegmentBitmap_finds : t.Finds .segmentBitmap findSegmentBitmap := by
  intro p q search h
  rcases findSegmentBitmap_cases h with ⟨rfl, rfl, -⟩ |
    ⟨_, _, groups, -, -, -, -, ⟨rfl, rfl, -⟩ | ⟨rfl, rfl, -⟩⟩
  · exact ⟨.refl _, nofun⟩
  · exact ⟨⟨rfl, rfl, fun _ h => h⟩, nofun⟩
  · exact ⟨.of_union rfl rfl rfl, fun _ => has_union_self rfl⟩

theorem findMappingTable_finds : t.Finds .mappingTable findMappingTable := by
  intro p q search h
  rcases findMappingTable_cases h with ⟨rfl, rfl, -⟩ |
    ⟨_, _, _, groups, -, -, -, -, ⟨rfl, rfl, -⟩ | ⟨rfl, rfl, -⟩⟩
  · exact ⟨.refl _, nofun⟩
  · exact ⟨⟨rfl, rfl, fun _ h => h⟩, nofun⟩
  · exact ⟨.of_union rfl rfl rfl, fun _ => has_union_self rfl⟩

/-! ## The whole trail -/

/-- Steps one after the other add to the point; when all of them end well, all their structures count as
found. -/
theorem followSteps_grows {kinds : List SegmentKind}
    {steps : List (String × (Trailhead → CreationPoint → StepResult))}
    (hsteps : List.Forall₂ (fun kind step => t.Finds kind step.2) kinds steps)
    (h : t.followSteps p steps = (q, .ok search)) :
    p.Grows q ∧ (search = .found → ∀ kind ∈ kinds, q.found.has kind = true) := by
  induction hsteps generalizing p with
  | nil =>
    cases h
    exact ⟨.refl _, fun _ _ hkind => nomatch hkind⟩
  | @cons kind step kinds steps hstep hrest ih =>
    rcases followSteps_cons.1 h with ⟨hlast, rfl⟩ | ⟨next, hnext, h⟩
    · exact ⟨(hstep _ _ _ hlast).1, nofun⟩
    · obtain ⟨hgrows, hfound⟩ := hstep _ _ _ hnext
      obtain ⟨hgrows', hfound'⟩ := ih h
      refine ⟨hgrows.trans hgrows', fun hsearch other hother => ?_⟩
      rcases List.mem_cons.1 hother with rfl | hother
      · exact hgrows'.found _ (hfound rfl)
      · exact hfound' hsearch other hother

/-- The trail adds to its point, and when it goes through nothing is missing. -/
theorem follow_grows (h : t.follow p = (q, .ok search)) :
    p.Grows q ∧ (search = .found → q.found = .complete) := by
  have hsteps : List.Forall₂ (fun kind step => t.Finds kind step.2)
      [.initialSnapshot, .superblock, .segmentBitmap, .mappingTable] steps :=
    .cons findSnapshot_finds (.cons findSuperblock_finds
      (.cons findSegmentBitmap_finds (.cons findMappingTable_finds .nil)))
  obtain ⟨hgrows, hfound⟩ := followSteps_grows hsteps h
  refine ⟨hgrows, fun hsearch => Inventory.eq_complete_iff.2 fun kind hkind => ?_⟩
  refine hfound hsearch kind ?_
  cases kind <;> first | decide | cases hkind

end Trailhead

end FlashVolume
