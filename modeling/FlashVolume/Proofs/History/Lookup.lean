/-
What a history answers for a creation time. An update changes the answer for its own creation time
only, and after merging a point is the one there was, or a fresh one, with the segments of its creation
time taken in one after the other.
-/
import FlashVolume.Proofs.History

namespace FlashVolume

namespace CreationPoint

variable {p : CreationPoint} {geometry : Geometry} {items : List ScannedSegment}

/-- Take in scanned segments, in order. -/
def recordAll (p : CreationPoint) (geometry : Geometry) (items : List ScannedSegment) : CreationPoint :=
  items.foldl (fun p item => (p.withGeometry geometry).record item) p

theorem recordAll_cons (item : ScannedSegment) :
    p.recordAll geometry (item :: items) =
      ((p.withGeometry geometry).record item).recordAll geometry items :=
  rfl

theorem scanned_recordAll : (p.recordAll geometry items).scanned = p.scanned ++ items := by
  induction items generalizing p with
  | nil => exact (List.append_nil _).symm
  | cons item items ih =>
    rw [recordAll_cons, ih, record, withGeometry, List.append_assoc, List.singleton_append]

/-- What counts as found after taking segments in did before, or there is a segment to show for it. -/
theorem has_found_recordAll {kind : SegmentKind} :
    (p.recordAll geometry items).found.has kind = true ↔
      p.found.has kind = true ∨ kind.isMetadata = true ∧ ∃ item ∈ items, item.kind = kind := by
  induction items generalizing p with
  | nil =>
    simp only [List.not_mem_nil, false_and, exists_false, and_false, or_false]
    exact Iff.rfl
  | cons item items ih =>
    rw [recordAll_cons, ih, record, withGeometry, Inventory.has_union, Inventory.has_ofKind]
    simp only [Bool.or_eq_true, Bool.and_eq_true, beq_iff_eq, List.exists_mem_cons_iff]
    constructor
    · rintro ((h | ⟨h, rfl⟩) | ⟨h, h'⟩)
      · exact .inl h
      · exact .inr ⟨h, .inl rfl⟩
      · exact .inr ⟨h, .inr h'⟩
    · rintro (h | ⟨h, rfl | h'⟩)
      · exact .inl (.inl h)
      · exact .inl (.inr ⟨h, rfl⟩)
      · exact .inr ⟨h, h'⟩

end CreationPoint

namespace History

variable {h : History} {points : List CreationPoint} {change : CreationPoint → CreationPoint}
  {geometry : Geometry} {shards : List (List ScannedSegment)}

/-! ## One update -/

theorem find?_updateIn (hpoints : Ordered ⟨points⟩)
    (hchange : ∀ p, (change p).createTime = p.createTime) (time time' : UInt64) :
    (updateIn time change points).find? (·.createTime == time') =
      if time' = time then some (change ((points.find? (·.createTime == time)).getD (.fresh time)))
      else points.find? (·.createTime == time') := by
  have hnew : (change (.fresh time)).createTime = time := hchange _
  induction points with
  | nil =>
    by_cases he : time' = time
    · subst he
      simp [updateIn, hnew]
    · have hne : time ≠ time' := Ne.symm he
      simp [updateIn, hnew, he, hne]
  | cons point rest ih =>
    obtain ⟨hpoint, hrest⟩ := ordered_cons.1 hpoints
    have hkeep := hchange point
    unfold updateIn
    split
    · -- The point has this creation time.
      rename_i htime
      subst htime
      by_cases he : time' = point.createTime
      · subst he
        simp [hkeep]
      · have hne : point.createTime ≠ time' := Ne.symm he
        simp [hkeep, he, hne]
    · rename_i htime
      split
      · -- It is older than every point there is.
        rename_i hlt
        have hnone : rest.find? (·.createTime == time) = none := by
          rw [List.find?_eq_none]
          intro q hq
          have hq' : time < q.createTime := UInt64.lt_trans hlt (hpoint q hq)
          have hne : q.createTime ≠ time := fun e => UInt64.lt_irrefl _ (e ▸ hq')
          simpa using hne
        by_cases he : time' = time
        · subst he
          simp [hnew, htime, hnone]
        · have hne : time ≠ time' := Ne.symm he
          simp [hnew, he, hne]
      · by_cases he : point.createTime = time'
        · subst he
          have hne : point.createTime ≠ time := htime
          simp [hne]
        · simp [he, htime, ih hrest]

theorem update_ordered (hchange : ∀ p, (change p).createTime = p.createTime) (hh : h.Ordered)
    {time : UInt64} : (h.update time change).Ordered :=
  updateIn_ordered hchange hh

/-- An update changes what is answered for its creation time, a fresh point standing in for none. -/
theorem get?_update (hh : h.Ordered) (hchange : ∀ p, (change p).createTime = p.createTime)
    (time time' : UInt64) :
    (h.update time change).get? time' =
      if time' = time then some (change ((h.get? time).getD (.fresh time))) else h.get? time' :=
  find?_updateIn hh hchange time time'

/-- A history answers with the point of a creation time exactly if it has it. -/
theorem get?_eq_some_iff (hh : h.Ordered) {time : UInt64} {point : CreationPoint} :
    h.get? time = some point ↔ point ∈ h.points ∧ point.createTime = time := by
  constructor
  · intro hget
    refine ⟨List.mem_of_find?_eq_some hget, ?_⟩
    simpa using List.find?_some hget
  · rintro ⟨hmem, rfl⟩
    obtain ⟨before, after, hsplit⟩ := List.append_of_mem hmem
    unfold Ordered at hh
    rw [hsplit, List.map_append, List.pairwise_append] at hh
    unfold get?
    rw [hsplit, List.find?_append, List.find?_eq_none.2, Option.none_or, List.find?_cons_of_pos]
    · exact beq_self_eq_true _
    · intro q hq
      have hlt := hh.2.2 q.createTime (List.mem_map_of_mem hq) point.createTime
        (by rw [List.map_cons]; exact List.mem_cons_self ..)
      have hne : q.createTime ≠ point.createTime := fun e => UInt64.lt_irrefl _ (e ▸ hlt)
      simpa using hne

theorem get?_eq_none_iff {time : UInt64} : h.get? time = none ↔ ∀ p ∈ h.points, p.createTime ≠ time := by
  unfold get?
  simp [List.find?_eq_none]

/-! ## One update after the other -/

/-- The changes of the point with a creation time, in order. -/
def editsOf (edits : List Edit) (time : UInt64) : List Edit := edits.filter (·.time == time)

/-- Make changes to a point, one after the other. -/
def applyAll (edits : List Edit) (p : CreationPoint) : CreationPoint :=
  edits.foldl (fun p e => e.change p) p

theorem applyAll_cons (e : Edit) (edits : List Edit) (p : CreationPoint) :
    applyAll (e :: edits) p = applyAll edits (e.change p) :=
  rfl

/-- After changes, the answer for a creation time is the former one, or a fresh point, with the changes of that creation
time made to it; it stays as it was if there are none. -/
theorem get?_foldl_edit (hh : h.Ordered) (edits : List Edit) (time : UInt64) :
    (edits.foldl edit h).get? time =
      if editsOf edits time = [] then h.get? time
      else some (applyAll (editsOf edits time) ((h.get? time).getD (.fresh time))) := by
  induction edits generalizing h with
  | nil => rfl
  | cons e edits ih =>
    rw [List.foldl_cons, ih (edit_ordered hh e), edit, get?_update hh e.createTime_change]
    by_cases he : time = e.time
    · subst he
      have hcons : editsOf (e :: edits) e.time = e :: editsOf edits e.time := by simp [editsOf]
      rw [hcons, if_pos rfl, if_neg (List.cons_ne_nil _ _), applyAll_cons, Option.getD_some]
      split
      · rename_i hnil
        rw [hnil]
        rfl
      · rfl
    · have hskip : editsOf (e :: edits) time = editsOf edits time := by simp [editsOf, Ne.symm he]
      rw [hskip, if_neg he]

/-! ## Merging -/

/-- The scanned segments of the volume created at a time, in order. -/
def ofVolume (items : List ScannedSegment) (time : UInt64) : List ScannedSegment :=
  items.filter (·.volumeCreateTime == time)

theorem mem_ofVolume {items : List ScannedSegment} {time : UInt64} {item : ScannedSegment} :
    item ∈ ofVolume items time ↔ item ∈ items ∧ item.volumeCreateTime = time := by
  unfold ofVolume
  rw [List.mem_filter, beq_iff_eq]

/-- After merging, the answer for a creation time is the former one, or a fresh point, with the segments
of that creation time taken in; it stays as it was if there are none. -/
theorem get?_merge (hh : h.Ordered) (time : UInt64) :
    (h.merge geometry shards).get? time =
      if ofVolume shards.flatten time = [] then h.get? time
      else some (((h.get? time).getD (.fresh time)).recordAll geometry (ofVolume shards.flatten time)) := by
  have hedits : editsOf (shards.flatten.map (Edit.merge geometry)) time =
      (ofVolume shards.flatten time).map (Edit.merge geometry) := List.filter_map ..
  rw [merge_eq_foldl_edit, get?_foldl_edit hh, hedits, applyAll, List.foldl_map]
  simp only [List.map_eq_nil_iff]
  rfl

/-- Every point after merging is the one there was, or a fresh one, with the segments of its creation
time taken in. -/
theorem eq_recordAll_of_mem_merge (hh : h.Ordered) {q : CreationPoint}
    (hq : q ∈ (h.merge geometry shards).points) :
    q = ((h.get? q.createTime).getD (.fresh q.createTime)).recordAll geometry
      (ofVolume shards.flatten q.createTime) := by
  have hget := (get?_eq_some_iff (merge_ordered hh)).2 ⟨hq, rfl⟩
  rw [get?_merge hh] at hget
  split at hget
  · rename_i hnil
    rw [hnil, hget]
    rfl
  · exact (Option.some.inj hget).symm

/-- The creation times after merging are those there were and those of the segments. -/
theorem exists_createTime_merge (hh : h.Ordered) {time : UInt64} :
    (∃ q ∈ (h.merge geometry shards).points, q.createTime = time) ↔
      (∃ p ∈ h.points, p.createTime = time) ∨ ∃ item ∈ shards.flatten, item.volumeCreateTime = time := by
  have hget : ∀ h : History, (∃ q ∈ h.points, q.createTime = time) ↔ h.get? time ≠ none := by
    intro h
    rw [Ne, get?_eq_none_iff, not_forall]
    simp only [not_forall, Decidable.not_not, exists_prop]
  have hitems : (∃ item ∈ shards.flatten, item.volumeCreateTime = time) ↔
      ofVolume shards.flatten time ≠ [] := by
    rw [Ne, List.eq_nil_iff_forall_not_mem, not_forall]
    simp only [mem_ofVolume, Decidable.not_not]
  rw [hget, hget, hitems, get?_merge hh]
  by_cases hnil : ofVolume shards.flatten time = []
  · simp [hnil]
  · simp [hnil]

/-- The newest point `q` after merging segments into the history of `p` alone: it is as new as `p` and
every segment, it is of the volume of one of them, and it counts as found what that volume has to show. -/
structure NewestAfter (p : CreationPoint) (items : List ScannedSegment) (q : CreationPoint) : Prop where
  le_point : p.createTime ≤ q.createTime
  le_item : ∀ item ∈ items, item.volumeCreateTime ≤ q.createTime
  createTime : q.createTime = p.createTime ∨ ∃ item ∈ items, item.volumeCreateTime = q.createTime
  found : ∀ kind, q.found.has kind = true ↔
    q.createTime = p.createTime ∧ p.found.has kind = true ∨
      kind.isMetadata = true ∧ ∃ item ∈ items, item.volumeCreateTime = q.createTime ∧ item.kind = kind

theorem exists_latest?_merge (p : CreationPoint) (geometry : Geometry)
    (shards : List (List ScannedSegment)) :
    ∃ q, (merge ⟨[p]⟩ geometry shards).latest? = some q ∧ NewestAfter p shards.flatten q := by
  have hone : Ordered ⟨[p]⟩ := List.pairwise_singleton ..
  have htimes : ∀ time, (∃ q ∈ (merge ⟨[p]⟩ geometry shards).points, q.createTime = time) ↔
      p.createTime = time ∨ ∃ item ∈ shards.flatten, item.volumeCreateTime = time := fun time => by
    rw [exists_createTime_merge hone]
    simp only [List.mem_singleton, exists_eq_left]
  obtain ⟨first, hfirst, hfirsttime⟩ := (htimes p.createTime).2 (.inl rfl)
  obtain ⟨q, hq⟩ := exists_latest? (List.ne_nil_of_mem hfirst)
  obtain ⟨hmem, hmax⟩ := latest?_spec (merge_ordered hone) hq
  refine ⟨q, hq, ?_, fun item hitem => ?_, ?_, fun kind => ?_⟩
  · rw [← hfirsttime]
    exact hmax first hfirst
  · obtain ⟨other, hother, htime⟩ := (htimes item.volumeCreateTime).2 (.inr ⟨item, hitem, rfl⟩)
    rw [← htime]
    exact hmax other hother
  · exact ((htimes q.createTime).1 ⟨q, hmem, rfl⟩).imp_left Eq.symm
  · have hrecorded := eq_recordAll_of_mem_merge hone hmem
    have hbefore : (((get? ⟨[p]⟩ q.createTime).getD (.fresh q.createTime)).found.has kind = true) ↔
        q.createTime = p.createTime ∧ p.found.has kind = true := by
      unfold get?
      by_cases htime : p.createTime = q.createTime
      · simp [htime]
      · have hne : q.createTime ≠ p.createTime := Ne.symm htime
        simp [htime, hne, CreationPoint.fresh]
    rw [hrecorded, CreationPoint.has_found_recordAll, ← hrecorded, hbefore]
    simp only [mem_ofVolume, and_assoc]

end History

end FlashVolume
