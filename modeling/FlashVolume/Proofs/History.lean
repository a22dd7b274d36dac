/-
Histories keep their points in strictly ascending order of creation time, so that the last point is
the newest one. Merging scanned segments changes a point only by taking segments in, each under the
creation time it carries.
-/
import FlashVolume.History
import FlashVolume.Proofs.CreationPoint

namespace FlashVolume.History

variable {points : List CreationPoint} {createTime : UInt64}
  {change : CreationPoint → CreationPoint}

/-- No point is as old as, or older than, one before it. -/
def Ordered (h : History) : Prop := (h.points.map (·.createTime)).Pairwise (· < ·)

/-! ## One update -/

/-- An update leaves every other point, and makes at most one new point. -/
theorem mem_updateIn {q : CreationPoint} (h : q ∈ updateIn createTime change points) :
    q ∈ points ∨ (∃ p ∈ points, p.createTime = createTime ∧ q = change p) ∨
      q = change (.fresh createTime) := by
  induction points with
  | nil => exact .inr (.inr (List.mem_singleton.1 h))
  | cons point rest ih =>
    unfold updateIn at h
    split at h
    · rename_i htime
      rcases List.mem_cons.1 h with rfl | h
      · exact .inr (.inl ⟨point, List.mem_cons_self .., htime, rfl⟩)
      · exact .inl (List.mem_cons_of_mem _ h)
    · split at h
      · rcases List.mem_cons.1 h with rfl | h
        · exact .inr (.inr rfl)
        · exact .inl h
      · rcases List.mem_cons.1 h with rfl | h
        · exact .inl (List.mem_cons_self ..)
        rcases ih h with h | ⟨p, hp, htime, hq⟩ | hq
        · exact .inl (List.mem_cons_of_mem _ h)
        · exact .inr (.inl ⟨p, List.mem_cons_of_mem _ hp, htime, hq⟩)
        · exact .inr (.inr hq)

theorem createTime_of_mem_updateIn (hchange : ∀ p, (change p).createTime = p.createTime)
    {q : CreationPoint} (h : q ∈ updateIn createTime change points) :
    q.createTime = createTime ∨ ∃ p ∈ points, p.createTime = q.createTime := by
  rcases mem_updateIn h with h | ⟨p, hp, -, rfl⟩ | rfl
  · exact .inr ⟨q, h, rfl⟩
  · exact .inr ⟨p, hp, (hchange p).symm⟩
  · exact .inl (hchange _)

theorem ordered_cons {point : CreationPoint} {rest : List CreationPoint} :
    Ordered ⟨point :: rest⟩ ↔ (∀ q ∈ rest, point.createTime < q.createTime) ∧ Ordered ⟨rest⟩ := by
  unfold Ordered
  rw [List.map_cons, List.pairwise_cons, List.forall_mem_map]

/-- An update puts its point in place. -/
theorem updateIn_ordered (hchange : ∀ p, (change p).createTime = p.createTime)
    (h : Ordered ⟨points⟩) : Ordered ⟨updateIn createTime change points⟩ := by
  induction points with
  | nil => exact List.pairwise_singleton ..
  | cons point rest ih =>
    obtain ⟨hpoint, hrest⟩ := ordered_cons.1 h
    unfold updateIn
    split
    · refine ordered_cons.2 ⟨?_, hrest⟩
      rw [hchange]
      exact hpoint
    · rename_i hne
      split
      · rename_i hlt
        refine ordered_cons.2 ⟨fun q hq => ?_, h⟩
        rw [hchange]
        rcases List.mem_cons.1 hq with rfl | hq
        · exact hlt
        · exact UInt64.lt_trans hlt (hpoint q hq)
      · rename_i hnlt
        have hlt : point.createTime < createTime :=
          UInt64.lt_of_le_of_ne (UInt64.not_lt.1 hnlt) hne
        refine ordered_cons.2 ⟨fun q hq => ?_, ih hrest⟩
        rcases createTime_of_mem_updateIn hchange hq with htime | ⟨p, hp, htime⟩
        · rw [htime]
          exact hlt
        · rw [← htime]
          exact hpoint p hp

/-! ## One update after the other -/

variable {h : History} {geometry : Geometry} {shards : List (List ScannedSegment)}

/-- A change of the point with one creation time, which it leaves to the point. -/
structure Edit where
  time : UInt64
  change : CreationPoint → CreationPoint
  createTime_change : ∀ p, (change p).createTime = p.createTime

/-- Make a change where it belongs. -/
def edit (h : History) (e : Edit) : History := h.update e.time e.change

theorem edit_ordered (hh : h.Ordered) (e : Edit) : (h.edit e).Ordered := updateIn_ordered e.createTime_change hh

theorem foldl_edit_ordered (hh : h.Ordered) (edits : List Edit) : (edits.foldl edit h).Ordered := by
  induction edits generalizing h with
  | nil => exact hh
  | cons e edits ih => exact ih (edit_ordered hh e)

/-! ## Merging -/

/-- Take in a scanned segment, under the creation time of its volume. -/
def Edit.merge (geometry : Geometry) (item : ScannedSegment) : Edit where
  time := item.volumeCreateTime
  change p := (p.withGeometry geometry).record item
  createTime_change _ := rfl

theorem merge_eq_foldl_edit :
    h.merge geometry shards = (shards.flatten.map (Edit.merge geometry)).foldl edit h := by
  rw [List.foldl_map]
  rfl

theorem merge_cons (item : ScannedSegment) (shard : List ScannedSegment) :
    h.merge geometry ((item :: shard) :: shards) =
      (h.update item.volumeCreateTime fun point =>
        (point.withGeometry geometry).record item).merge geometry (shard :: shards) :=
  rfl

theorem merge_flatten : h.merge geometry shards = h.merge geometry [shards.flatten] := by
  unfold merge
  rw [List.flatten_singleton]

/-- What holds of all points of a history and of fresh ones, and is kept by taking in a segment of the
same volume, holds after merging. -/
theorem merge_induction {P : CreationPoint → Prop} (hfresh : ∀ createTime, P (.fresh createTime))
    (hrecord : ∀ p item, P p → item.volumeCreateTime = p.createTime →
      P ((p.withGeometry geometry).record item))
    (hpoints : ∀ p ∈ h.points, P p) : ∀ p ∈ (h.merge geometry shards).points, P p := by
  rw [merge_flatten]
  induction shards.flatten generalizing h with
  | nil => exact hpoints
  | cons item items ih =>
    rw [merge_cons]
    refine ih fun q hq => ?_
    rcases mem_updateIn hq with hq | ⟨p, hp, htime, rfl⟩ | rfl
    · exact hpoints q hq
    · exact hrecord p item (hpoints p hp) htime.symm
    · exact hrecord _ item (hfresh _) rfl

theorem merge_ordered (hh : h.Ordered) : (h.merge geometry shards).Ordered := by
  rw [merge_eq_foldl_edit]
  exact foldl_edit_ordered hh _

/-- Merging locates nothing: its points hold the logs of a point there was, or none. -/
theorem merge_sameLogs {q : CreationPoint} (hq : q ∈ (h.merge geometry shards).points) :
    (∃ p ∈ h.points, p.SameLogs q) ∨ ∃ createTime, (CreationPoint.fresh createTime).SameLogs q := by
  refine merge_induction
    (P := fun q => (∃ p ∈ h.points, p.SameLogs q) ∨ ∃ time, (CreationPoint.fresh time).SameLogs q)
    (fun time => .inr ⟨time, .refl _⟩) ?_ (fun p hp => .inl ⟨p, hp, .refl p⟩) q hq
  rintro p item (⟨p', hp', h⟩ | ⟨time, h⟩) -
  · exact .inl ⟨p', hp', h.1, h.2, h.3, h.4, h.5, h.6⟩
  · exact .inr ⟨time, h.1, h.2, h.3, h.4, h.5, h.6⟩

/-! ## The newest point -/

/-- The newest point is on the history, and no point is newer. -/
theorem latest?_spec (hh : h.Ordered) {point : CreationPoint} (hp : h.latest? = some point) :
    point ∈ h.points ∧ ∀ q ∈ h.points, q.createTime ≤ point.createTime := by
  obtain ⟨older, hpoints⟩ := List.getLast?_eq_some_iff.1 hp
  unfold Ordered at hh
  rw [hpoints, List.map_append, List.pairwise_append] at hh
  rw [hpoints]
  refine ⟨List.mem_append_right _ (List.mem_singleton.2 rfl), fun q hq => ?_⟩
  rcases List.mem_append.1 hq with hq | hq
  · exact UInt64.le_of_lt (hh.2.2 _ (List.mem_map_of_mem hq) _ (List.mem_singleton.2 rfl))
  · rw [List.mem_singleton.1 hq]
    exact UInt64.le_refl _

theorem exists_latest? (hh : h.points ≠ []) : ∃ point, h.latest? = some point :=
  ⟨_, List.getLast?_eq_some_getLast hh⟩

end FlashVolume.History
