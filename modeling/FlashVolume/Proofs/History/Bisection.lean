/-
Creation times found by bisection. In an ordered history the place of a creation time need not be searched from the
front: halving the stretch it can lie in leads to the point that has it or to the place where one would belong, and
what is answered, changed and inserted there is what a search from the front comes to.
-/
import FlashVolume.Proofs.History.Lookup

namespace FlashVolume.History

variable {times : List UInt64} {time : UInt64}

/-! ## Search -/

/-- The number of the place that a creation time has in a list, or of the one that it would have. -/
inductive Place
  | found (index : Nat)
  | missing (index : Nat)
deriving DecidableEq

/-- Halve the stretch of `size` creation times from the one with number `base` on, until it is down to one. Each time
the half behind is kept if the first one of it is not newer than `time`. -/
def halve (times : List UInt64) (time : UInt64) (base size : Nat) : Nat :=
  if 1 < size then
    let mid := base + size / 2
    halve times time (if times[mid]?.any (time < ·) then base else mid) (size - size / 2)
  else base
termination_by size
decreasing_by omega

/-- Look for a creation time by bisection. -/
def place (times : List UInt64) (time : UInt64) : Place :=
  let base := halve times time 0 times.length
  match times[base]? with
  | none => .missing base
  | some other =>
    if other = time then .found base
    else .missing (if other < time then base + 1 else base)

/-- The point with this creation time, looked for by bisection. -/
def bisectGet? (h : History) (time : UInt64) : Option CreationPoint :=
  match place (h.points.map (·.createTime)) time with
  | .found index => h.points[index]?
  | .missing _ => none

/-- Change the point with this creation time where bisection finds it, or put a fresh one where it belongs and change
that. -/
def bisectUpdate (h : History) (time : UInt64) (change : CreationPoint → CreationPoint) : History :=
  match place (h.points.map (·.createTime)) time with
  | .found index => ⟨h.points.modify index change⟩
  | .missing index => ⟨(h.points.insertIdx index (.fresh time)).modify index change⟩

/-! ## What is found -/

/-- The creation time stands at the place, or belongs there: those before it are older and those behind are newer. -/
def Place.Fits (times : List UInt64) (time : UInt64) : Place → Prop
  | .found index => times[index]? = some time
  | .missing index =>
    index ≤ times.length ∧ (∀ other ∈ times.take index, other < time) ∧ ∀ other ∈ times.drop index, time < other

/-- What the search has found out: creation times before the stretch are older, those behind it newer. -/
structure Stretch (times : List UInt64) (time : UInt64) (base size : Nat) : Prop where
  stop_le : base + size ≤ times.length
  older : ∀ other ∈ times.take base, other < time
  newer : ∀ other ∈ times.drop (base + size), time < other

theorem lt_of_mem_take (htimes : times.Pairwise (· < ·)) {i : Nat} (hi : i < times.length) {other : UInt64}
    (hother : other ∈ times.take i) : other < times[i] := by
  rw [← List.take_append_drop i times, List.pairwise_append] at htimes
  refine htimes.2.2 other hother _ ?_
  rw [List.drop_eq_getElem_cons hi]
  exact List.mem_cons_self ..

theorem le_of_mem_drop (htimes : times.Pairwise (· < ·)) {i : Nat} (hi : i < times.length) {other : UInt64}
    (hother : other ∈ times.drop i) : times[i] ≤ other := by
  have hdrop : (times.drop i).Pairwise (· < ·) := htimes.sublist (List.drop_sublist i times)
  rw [List.drop_eq_getElem_cons hi] at hdrop hother
  rcases List.mem_cons.1 hother with rfl | hother
  · exact UInt64.le_refl _
  · exact UInt64.le_of_lt ((List.pairwise_cons.1 hdrop).1 other hother)

/-- Halving keeps what has been found out. -/
theorem stretch_halve (htimes : times.Pairwise (· < ·)) {base size : Nat} (h : Stretch times time base size)
    (hsize : 0 < size) : Stretch times time (halve times time base size) 1 := by
  fun_induction halve times time base size with
  | case1 base size hlong mid ih =>
    have hstop := h.stop_le
    have hmid : mid < times.length := by omega
    refine ih ?_ (by omega)
    rw [List.getElem?_eq_getElem hmid, Option.any_some]
    split
    · rename_i hlt
      refine ⟨by omega, h.older, fun other hother => ?_⟩
      have hmem : other ∈ times.drop mid := List.drop_subset_drop_left _ (by omega) hother
      exact UInt64.lt_of_lt_of_le (of_decide_eq_true hlt) (le_of_mem_drop htimes hmid hmem)
    · rename_i hle
      have hle : times[mid] ≤ time := UInt64.not_lt.1 fun hlt => hle (decide_eq_true hlt)
      have hsum : mid + (size - size / 2) = base + size := by omega
      refine ⟨by omega, fun other hother => ?_, by rw [hsum]; exact h.newer⟩
      exact UInt64.lt_of_lt_of_le (lt_of_mem_take htimes hmid hother) hle
  | case2 base size hshort =>
    obtain rfl : size = 1 := by omega
    exact h

theorem place_nil (time : UInt64) : place [] time = .missing 0 := by
  unfold place halve
  rfl

/-- In ascending creation times the search comes to the right place. -/
theorem place_fits (htimes : times.Pairwise (· < ·)) (time : UInt64) : (place times time).Fits times time := by
  rcases Nat.eq_zero_or_pos times.length with hzero | hlength
  · obtain rfl := List.eq_nil_of_length_eq_zero hzero
    rw [place_nil]
    exact ⟨Nat.zero_le _, List.forall_mem_nil _, List.forall_mem_nil _⟩
  have hwhole : Stretch times time 0 times.length := ⟨by omega, nofun, by simp⟩
  have hlast := stretch_halve htimes hwhole hlength
  unfold place
  generalize halve times time 0 times.length = base at hlast
  have hbase : base < times.length := hlast.stop_le
  have hdrop := hlast.newer
  simp only [List.getElem?_eq_getElem hbase]
  split
  · rename_i htime
    exact (List.getElem?_eq_getElem hbase).trans (congrArg some htime)
  rename_i hne
  split
  · rename_i hlt
    refine ⟨hlast.stop_le, ?_, hdrop⟩
    rw [← List.take_append_getElem hbase, List.forall_mem_append, List.forall_mem_singleton]
    exact ⟨hlast.older, hlt⟩
  · rename_i hnlt
    refine ⟨Nat.le_of_lt hbase, hlast.older, ?_⟩
    rw [List.drop_eq_getElem_cons hbase, List.forall_mem_cons]
    exact ⟨UInt64.lt_of_le_of_ne (UInt64.not_lt.1 hnlt) (Ne.symm hne), hdrop⟩

/-! ## What is done there -/

variable {h : History} {points : List CreationPoint} {change : CreationPoint → CreationPoint}

/-- Where a creation time belongs, the points before are older and those behind are newer. -/
theorem Place.fits_missing {index : Nat} :
    (Place.missing index).Fits (points.map (·.createTime)) time ↔
      index ≤ points.length ∧ (∀ p ∈ points.take index, p.createTime < time) ∧
        ∀ p ∈ points.drop index, time < p.createTime := by
  unfold Fits
  simp only [List.length_map, ← List.map_take, ← List.map_drop, List.forall_mem_map]

theorem modify_eq_updateIn (hpoints : Ordered ⟨points⟩) {index : Nat}
    (hindex : (points.map (·.createTime))[index]? = some time) :
    points.modify index change = updateIn time change points := by
  induction points generalizing index with
  | nil => cases hindex
  | cons point rest ih =>
    obtain ⟨hpoint, hrest⟩ := ordered_cons.1 hpoints
    unfold updateIn
    rcases index with _ | index
    · rw [if_pos (Option.some.inj hindex)]
      rfl
    · have hmem : time ∈ rest.map (·.createTime) := List.mem_of_getElem? hindex
      obtain ⟨q, hq, rfl⟩ := List.mem_map.1 hmem
      have hlt := hpoint q hq
      rw [if_neg (UInt64.ne_of_lt hlt), if_neg (UInt64.lt_asymm hlt), List.modify_succ_cons, ih hrest hindex]

theorem insertIdx_eq_updateIn {index : Nat} (hindex : index ≤ points.length)
    (holder : ∀ p ∈ points.take index, p.createTime < time)
    (hnewer : ∀ p ∈ points.drop index, time < p.createTime) :
    (points.insertIdx index (.fresh time)).modify index change = updateIn time change points := by
  induction points generalizing index with
  | nil =>
    obtain rfl : index = 0 := Nat.le_zero.1 hindex
    rfl
  | cons point rest ih =>
    unfold updateIn
    rcases index with _ | index
    · have hlt : time < point.createTime := hnewer point (List.mem_cons_self ..)
      rw [if_neg (UInt64.ne_of_lt hlt).symm, if_pos hlt]
      rfl
    · rw [List.take_succ_cons, List.forall_mem_cons] at holder
      rw [if_neg (UInt64.ne_of_lt holder.1), if_neg (UInt64.lt_asymm holder.1), List.insertIdx_succ_cons,
        List.modify_succ_cons, ih (Nat.le_of_succ_le_succ hindex) holder.2 hnewer]

theorem getElem?_eq_find? (hpoints : Ordered ⟨points⟩) {index : Nat}
    (hindex : (points.map (·.createTime))[index]? = some time) :
    points[index]? = points.find? (·.createTime == time) := by
  rw [List.getElem?_map, Option.map_eq_some_iff] at hindex
  obtain ⟨point, hpoint, htime⟩ := hindex
  exact hpoint.trans ((get?_eq_some_iff hpoints).2 ⟨List.mem_of_getElem? hpoint, htime⟩).symm

/-- Looked for by bisection or from the front, the answer is the same. -/
theorem bisectGet?_eq (hh : h.Ordered) (time : UInt64) : h.bisectGet? time = h.get? time := by
  have hfits := place_fits hh time
  unfold bisectGet?
  generalize place _ time = found at hfits ⊢
  rcases found with index | index
  · exact getElem?_eq_find? hh hfits
  · obtain ⟨-, holder, hnewer⟩ := Place.fits_missing.1 hfits
    refine (get?_eq_none_iff.2 fun p hp htime => ?_).symm
    rw [← List.take_append_drop index h.points] at hp
    rcases List.mem_append.1 hp with hp | hp
    · exact UInt64.ne_of_lt (holder p hp) htime
    · exact UInt64.ne_of_lt (hnewer p hp) htime.symm

/-- Updated by bisection or from the front, the history is the same. -/
theorem bisectUpdate_eq (hh : h.Ordered) (time : UInt64) (change : CreationPoint → CreationPoint) :
    h.bisectUpdate time change = h.update time change := by
  have hfits := place_fits hh time
  unfold bisectUpdate update
  generalize place _ time = found at hfits ⊢
  rcases found with index | index
  · exact congrArg History.mk (modify_eq_updateIn hh hfits)
  · obtain ⟨hindex, holder, hnewer⟩ := Place.fits_missing.1 hfits
    exact congrArg History.mk (insertIdx_eq_updateIn hindex holder hnewer)

end FlashVolume.History
