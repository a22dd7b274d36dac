/-
Merging loses, doubles and overwrites nothing. A point takes in the scanned segments of its creation time behind those
it has, counts what they are evidence of as found as well, and keeps all that was located for it; the points of other
creation times stay as they are.
-/
import FlashVolume.Proofs.History.Calls

namespace FlashVolume

/-! ## Evidence -/

namespace Inventory

/-- What segments of these kinds are evidence of, taken together. -/
def ofKinds (kinds : List SegmentKind) : Inventory := kinds.foldr (fun kind => (ofKind kind).union) empty

theorem ofKinds_cons (kind : SegmentKind) (kinds : List SegmentKind) :
    ofKinds (kind :: kinds) = (ofKind kind).union (ofKinds kinds) :=
  rfl

theorem union_assoc (a b c : Inventory) : (a.union b).union c = a.union (b.union c) := by
  unfold union
  simp only [Bool.or_assoc]

theorem empty_union (a : Inventory) : empty.union a = a := by
  unfold union empty
  simp only [Bool.false_or]

theorem union_empty (a : Inventory) : a.union empty = a := by
  unfold union empty
  simp only [Bool.or_false]

theorem ofKind_of_not_isMetadata {kind : SegmentKind} (h : ¬ kind.isMetadata = true) : ofKind kind = empty := by
  cases kind <;> first | rfl | exact absurd rfl h

/-- Segments that a volume is not mounted from are evidence of nothing. -/
theorem ofKinds_filter (kinds : List SegmentKind) : ofKinds (kinds.filter (·.isMetadata)) = ofKinds kinds := by
  induction kinds with
  | nil => rfl
  | cons kind kinds ih =>
    rw [List.filter_cons, ofKinds_cons]
    split
    · rw [ofKinds_cons, ih]
    · rename_i h
      rw [ih, ofKind_of_not_isMetadata h, empty_union]

end Inventory

/-! ## Points -/

namespace CreationPoint

variable {p : CreationPoint} {geometry : Geometry}

theorem recordAll_eq (item : ScannedSegment) (items : List ScannedSegment) :
    p.recordAll geometry (item :: items) =
      { p with
        found := p.found.union (.ofKinds ((item :: items).map (·.kind)))
        geometry := p.geometry.or (some geometry)
        scanned := p.scanned ++ item :: items } := by
  induction items generalizing p item with
  | nil =>
    have hkinds : Inventory.ofKinds [item.kind] = .ofKind item.kind := Inventory.union_empty _
    rw [List.map_singleton, hkinds]
    rfl
  | cons next items ih =>
    have hfound : (p.found.union (.ofKind item.kind)).union (.ofKinds ((next :: items).map (·.kind))) =
        p.found.union (.ofKinds ((item :: next :: items).map (·.kind))) := Inventory.union_assoc ..
    have hgeometry : (p.geometry.or (some geometry)).or (some geometry) = p.geometry.or (some geometry) := by
      rw [Option.or_assoc, Option.or_self]
    have hscanned : p.scanned ++ [item] ++ next :: items = p.scanned ++ item :: next :: items :=
      List.append_assoc ..
    rw [recordAll_cons, ih]
    simp only [record, withGeometry, hfound, hgeometry, hscanned]

/-- What becomes of a point that takes in scanned segments. What was located for it stays; each kind of segments stands
in order behind what there was of it; what the segments are evidence of counts as found as well, those of kinds that a
volume is not mounted from being evidence of nothing; and a geometry is taken only if none is known. -/
structure TakesIn (p : CreationPoint) (geometry : Geometry) (items : List ScannedSegment) (q : CreationPoint) :
    Prop where
  sameLogs : p.SameLogs q
  bucket : ∀ kind, q.bucket kind = p.bucket kind ++ items.filter (·.kind == kind)
  found : q.found = p.found.union (.ofKinds (items.map (·.kind)))
  found_metadata : q.found = p.found.union (.ofKinds ((items.map (·.kind)).filter (·.isMetadata)))
  geometry : q.geometry = p.geometry.or (some geometry)

theorem recordAll_takesIn {items : List ScannedSegment} (hitems : items ≠ []) :
    p.TakesIn geometry items (p.recordAll geometry items) := by
  obtain ⟨item, rest, rfl⟩ := List.exists_cons_of_ne_nil hitems
  rw [recordAll_eq]
  refine ⟨⟨rfl, rfl, rfl, rfl, rfl, rfl⟩, fun kind => List.filter_append .., rfl, ?_, rfl⟩
  rw [Inventory.ofKinds_filter]

end CreationPoint

/-! ## Histories -/

namespace History

theorem merge_append (h : History) (geometry : Geometry) (shards shards' : List (List ScannedSegment)) :
    (h.merge geometry shards).merge geometry shards' = h.merge geometry (shards ++ shards') := by
  unfold merge
  rw [List.flatten_append, List.foldl_append]

/-- Whatever calls a history has come from, merging has the point of each creation time take in the scanned segments of
that creation time, in order, and leaves it as it is if there are none. Merging twice comes to merging all at once. -/
theorem merge_exact (calls : List Call) (geometry : Geometry) (shards : List (List ScannedSegment)) :
    ((run calls).merge geometry shards).Ordered ∧
    (∀ time, ofVolume shards.flatten time = [] →
      ((run calls).merge geometry shards).get? time = (run calls).get? time) ∧
    (∀ time, ofVolume shards.flatten time ≠ [] → ∃ q, ((run calls).merge geometry shards).get? time = some q ∧
      (((run calls).get? time).getD (.fresh time)).TakesIn geometry (ofVolume shards.flatten time) q) ∧
    ∀ shards', ((run calls).merge geometry shards).merge geometry shards' =
      (run calls).merge geometry (shards ++ shards') := by
  have hordered := run_ordered calls
  refine ⟨merge_ordered hordered, fun time hnone => ?_, fun time hsome => ?_, merge_append _ geometry shards⟩
  · rw [get?_merge hordered, if_pos hnone]
  · exact ⟨_, (get?_merge hordered time).trans (if_neg hsome), CreationPoint.recordAll_takesIn hsome⟩

end History

end FlashVolume
