/-
Histories as ordered maps. Whatever calls a history has come from, starting with the empty one, its points stand in
strictly ascending order of creation time, and the point of a creation time is what the calls have made of a fresh one.
Since the order is never lost, a search by bisection would have done for every call.
-/
import FlashVolume.Proofs.History.Bisection
import Mathlib.Data.List.Sort

namespace FlashVolume.History

variable {h : History} {change : CreationPoint → CreationPoint}

/-! ## Order -/

/-- Ordered histories that answer alike are the same. -/
theorem eq_of_get?_eq {h' : History} (hh : h.Ordered) (hh' : h'.Ordered)
    (heq : ∀ time, h.get? time = h'.get? time) : h = h' := by
  have hirrefl : Std.Irrefl fun p q : CreationPoint => p.createTime < q.createTime :=
    ⟨fun _ => UInt64.lt_irrefl _⟩
  have hantisymm : Std.Antisymm fun p q : CreationPoint => p.createTime < q.createTime :=
    ⟨fun _ _ hlt hgt => absurd hgt (UInt64.lt_asymm hlt)⟩
  have hmem : ∀ p, p ∈ h.points ↔ p ∈ h'.points := fun p => by
    have hp : h.get? p.createTime = some p ↔ p ∈ h.points ∧ p.createTime = p.createTime := get?_eq_some_iff hh
    have hp' : h'.get? p.createTime = some p ↔ p ∈ h'.points ∧ p.createTime = p.createTime := get?_eq_some_iff hh'
    rw [heq, hp'] at hp
    simpa using hp.symm
  cases h
  cases h'
  exact congrArg mk ((List.pairwise_map.1 hh).eq_of_mem_iff (List.pairwise_map.1 hh') hmem)

/-- A point that is there need not be put in. -/
theorem insert_of_get? (hh : h.Ordered) {time : UInt64} {p : CreationPoint} (hp : h.get? time = some p) :
    h.insert time = h := by
  have hid : ∀ p : CreationPoint, (id p).createTime = p.createTime := fun _ => rfl
  refine eq_of_get?_eq (update_ordered hid hh) hh fun time' => ?_
  rw [insert, get?_update hh hid]
  split
  · rename_i htime
    rw [htime, hp]
    rfl
  · rfl

/-- An update leaves the points with other creation times, and their order, as they are. -/
theorem filter_updateIn (hchange : ∀ p, (change p).createTime = p.createTime) (time : UInt64)
    (points : List CreationPoint) :
    (updateIn time change points).filter (·.createTime != time) = points.filter (·.createTime != time) := by
  have hnew : (change (.fresh time)).createTime = time := hchange _
  induction points with
  | nil => simp [updateIn, hnew]
  | cons point rest ih =>
    unfold updateIn
    split
    · rename_i htime
      simp [hchange, htime]
    · split
      · simp [hnew]
      · rw [List.filter_cons, List.filter_cons, ih]

/-- The newest point is the one that no other is newer than. -/
theorem latest?_eq_some_iff (hh : h.Ordered) {p : CreationPoint} :
    h.latest? = some p ↔ p ∈ h.points ∧ ∀ q ∈ h.points, q.createTime ≤ p.createTime := by
  refine ⟨latest?_spec hh, fun ⟨hp, hmax⟩ => ?_⟩
  obtain ⟨q, hq⟩ := exists_latest? (List.ne_nil_of_mem hp)
  obtain ⟨hmem, hmaxq⟩ := latest?_spec hh hq
  have htime : q.createTime = p.createTime := UInt64.le_antisymm (hmax q hmem) (hmaxq p hp)
  have hgetq := (get?_eq_some_iff hh).2 ⟨hmem, htime⟩
  have hgetp := (get?_eq_some_iff hh).2 ⟨hp, rfl⟩
  rw [hq, ← hgetq, hgetp]

/-! ## Calls -/

/-- What a history is asked for: to have a point, to have one and change it, to have one and take a segment in there,
and to take in scanned segments where they belong. -/
inductive Call
  | insert (time : UInt64)
  | change (e : Edit)
  | record (time : UInt64) (item : ScannedSegment)
  | merge (geometry : Geometry) (shards : List (List ScannedSegment))

namespace Call

/-- What the call makes of a history. -/
def apply (h : History) : Call → History
  | .insert time => h.insert time
  | .change e => h.update e.time e.change
  | .record time item => h.update time (·.record item)
  | .merge geometry shards => h.merge geometry shards

/-- What the call does to single points, in order. -/
def edits : Call → List Edit
  | .insert time => [⟨time, id, fun _ => rfl⟩]
  | .change e => [e]
  | .record time item => [⟨time, (·.record item), fun _ => rfl⟩]
  | .merge geometry shards => shards.flatten.map (.merge geometry)

theorem apply_eq_foldl_edit (h : History) (call : Call) : call.apply h = call.edits.foldl edit h := by
  cases call with
  | insert time => rfl
  | change e => rfl
  | record time item => rfl
  | merge geometry shards => exact merge_eq_foldl_edit

end Call

/-- The history that calls lead to. -/
def run (calls : List Call) : History := calls.foldl (fun h call => call.apply h) .empty

/-- The same with every point looked for by bisection. -/
def bisectRun (calls : List Call) : History :=
  (calls.flatMap (·.edits)).foldl (fun h e => h.bisectUpdate e.time e.change) .empty

theorem run_eq_foldl_edit (calls : List Call) : run calls = (calls.flatMap (·.edits)).foldl edit .empty := by
  unfold run
  simp only [List.foldl_flatMap, Call.apply_eq_foldl_edit]

theorem empty_ordered : empty.Ordered := List.Pairwise.nil

theorem run_ordered (calls : List Call) : (run calls).Ordered := by
  rw [run_eq_foldl_edit]
  exact foldl_edit_ordered empty_ordered _

theorem foldl_bisectUpdate_eq (hh : h.Ordered) (edits : List Edit) :
    edits.foldl (fun h e => h.bisectUpdate e.time e.change) h = edits.foldl edit h := by
  induction edits generalizing h with
  | nil => rfl
  | cons e edits ih =>
    rw [List.foldl_cons, List.foldl_cons, bisectUpdate_eq hh]
    exact ih (edit_ordered hh e)

/-! ## The map -/

/-- What changes make of the point with a creation time: there is none before the first of them, and then it is what
they make of a fresh one. -/
def pointOf (edits : List Edit) (time : UInt64) : Option CreationPoint :=
  if editsOf edits time = [] then none else some (applyAll (editsOf edits time) (.fresh time))

theorem isSome_pointOf {edits : List Edit} {time : UInt64} :
    (pointOf edits time).isSome = true ↔ ∃ e ∈ edits, e.time = time := by
  unfold pointOf editsOf
  split
  · rename_i hnil
    simpa using hnil
  · rename_i hne
    simpa using hne

/-- The history is an ordered map from creation times to points, filled by these changes. -/
structure IsOrderedMap (h : History) (edits : List Edit) : Prop where
  ascending : (h.points.map (·.createTime)).Pairwise (· < ·)
  mem_times : ∀ time, time ∈ h.points.map (·.createTime) ↔ ∃ e ∈ edits, e.time = time
  get?_eq : ∀ time, h.get? time = pointOf edits time
  isSome_get? : ∀ time, (h.get? time).isSome = true ↔ ∃ e ∈ edits, e.time = time
  insert_eq : ∀ e ∈ edits, h.insert e.time = h
  others_eq : ∀ e : Edit, (h.edit e).points.filter (·.createTime != e.time) = h.points.filter (·.createTime != e.time)
  latest?_eq_some : ∀ p, h.latest? = some p ↔ p ∈ h.points ∧ ∀ q ∈ h.points, q.createTime ≤ p.createTime
  latest?_eq_none : h.latest? = none ↔ h.points = []

theorem isOrderedMap_foldl_edit (edits : List Edit) : IsOrderedMap (edits.foldl edit .empty) edits := by
  have hordered := foldl_edit_ordered empty_ordered edits
  have hget : ∀ time, (edits.foldl edit .empty).get? time = pointOf edits time := get?_foldl_edit empty_ordered edits
  have hsome : ∀ time, ((edits.foldl edit .empty).get? time).isSome = true ↔ ∃ e ∈ edits, e.time = time :=
    fun time => by rw [hget, isSome_pointOf]
  refine ⟨hordered, fun time => ?_, hget, hsome, fun e he => ?_, fun e => ?_, fun p => ?_, ?_⟩
  · rw [← hsome, List.mem_map, Option.isSome_iff_exists]
    exact exists_congr fun p => (get?_eq_some_iff hordered).symm
  · obtain ⟨p, hp⟩ := Option.isSome_iff_exists.1 ((hsome e.time).2 ⟨e, he, rfl⟩)
    exact insert_of_get? hordered hp
  · exact filter_updateIn e.createTime_change e.time _
  · exact latest?_eq_some_iff hordered
  · exact List.getLast?_eq_none_iff

/-- Whatever the calls, the history they lead to is an ordered map of what they did to the points, and it is the one
that bisection leads to and answers from. -/
theorem run_isOrderedMap (calls : List Call) :
    IsOrderedMap (run calls) (calls.flatMap (·.edits)) ∧ bisectRun calls = run calls ∧
      ∀ time, (run calls).bisectGet? time = (run calls).get? time := by
  refine ⟨?_, ?_, bisectGet?_eq (run_ordered calls)⟩
  · rw [run_eq_foldl_edit]
    exact isOrderedMap_foldl_edit _
  · rw [run_eq_foldl_edit]
    exact foldl_bisectUpdate_eq empty_ordered _

end FlashVolume.History
