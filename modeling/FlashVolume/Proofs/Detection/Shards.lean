/-
Sharing the erase blocks out among workers. The shards are cut at places that have a closed form, so that they cover
the erase blocks in order and differ in size by one erase block at most, the larger ones first; no other shards do.
The sums that lead from one cut to the next stay within words of 64 bits.
-/
import FlashVolume.Detection.Census
import FlashVolume.Proofs.Outcome
import Mathlib.Data.List.Chain
import Mathlib.Data.List.Count
import Mathlib.Data.List.Range

namespace FlashVolume.Shard

/-- The erase blocks of a shard, in order. -/
def pebs (s : Shard) : List Nat := List.range' s.start (s.stop - s.start)

/-- The number of erase blocks in a shard. -/
def size (s : Shard) : Nat := s.stop - s.start

variable {width wide count start pebs workers : Nat} {shard : Shard} {shards : List Shard}

/-! ## Cuts -/

/-- How far behind the first of consecutive shards the one with an index begins. -/
def cut (width wide index : Nat) : Nat := index * width + min index wide

theorem cut_zero (width wide : Nat) : cut width wide 0 = 0 := by
  unfold cut
  rw [Nat.zero_mul, Nat.zero_min]

theorem cut_succ (width wide index : Nat) :
    cut width wide (index + 1) = cut width wide index + width + if index < wide then 1 else 0 := by
  unfold cut
  rw [Nat.succ_mul]
  split <;> omega

theorem cut_one (width wide : Nat) : cut width wide 1 = width + if 0 < wide then 1 else 0 := by
  rw [cut_succ, cut_zero, Nat.zero_add]

/-- Behind the first shard, one less is wider. -/
theorem cut_one_add (width wide index : Nat) :
    cut width wide 1 + cut width (wide - 1) index = cut width wide (index + 1) := by
  unfold cut
  rw [Nat.one_mul, Nat.succ_mul]
  omega

theorem cut_mono {index index' : Nat} (h : index ≤ index') : cut width wide index ≤ cut width wide index' := by
  have := Nat.mul_le_mul_right width h
  unfold cut
  omega

/-- The last cut is where the erase blocks end. -/
theorem cut_count (pebs : Nat) (hcount : 0 < count) : cut (pebs / count) (pebs % count) count = pebs := by
  unfold cut
  rw [Nat.min_eq_right (Nat.le_of_lt (Nat.mod_lt _ hcount))]
  exact Nat.div_add_mod pebs count

/-! ## Consecutive shards -/

theorem consecutive_succ (width wide count start : Nat) :
    consecutive width wide (count + 1) start =
      ⟨start, start + cut width wide 1⟩ :: consecutive width (wide - 1) count (start + cut width wide 1) := by
  rw [cut_one, ← Nat.add_assoc]
  rfl

/-- Consecutive shards cover the erase blocks from where the first one starts. -/
theorem consecutive_cover (width wide count start : Nat) :
    (consecutive width wide count start).flatMap Shard.pebs = List.range' start (cut width wide count) := by
  induction count generalizing wide start with
  | zero =>
    rw [cut_zero]
    rfl
  | succ count ih =>
    rw [consecutive_succ, List.flatMap_cons, ih, Shard.pebs, Nat.add_sub_cancel_left, List.range'_append_1,
      cut_one_add]

theorem consecutive_eq (width wide count start : Nat) :
    consecutive width wide count start = (List.range count).map fun index =>
      ⟨start + cut width wide index, start + cut width wide (index + 1)⟩ := by
  induction count generalizing wide start with
  | zero => rfl
  | succ count ih =>
    simp only [consecutive_succ, ih, List.range_succ_eq_map, List.map_cons, List.map_map, Nat.add_assoc,
      cut_one_add, cut_zero, Nat.add_zero]
    rfl

/-- The last of consecutive shards stops at the last cut. -/
theorem stop_of_getLast?_consecutive (h : (consecutive width wide count start).getLast? = some shard) :
    0 < count ∧ shard.stop = start + cut width wide count := by
  rw [consecutive_eq, List.getLast?_map, List.getLast?_range] at h
  split at h
  · cases h
  · rename_i hcount
    cases h
    refine ⟨Nat.pos_of_ne_zero hcount, ?_⟩
    simp only [Nat.sub_add_cancel (Nat.one_le_iff_ne_zero.2 hcount)]

/-! ## The partition -/

/-- The shards of any number of workers cover all erase blocks in order. -/
theorem partition_cover (hworkers : 0 < workers) (pebs : Nat) :
    (partition pebs workers).flatMap Shard.pebs = List.range' 0 pebs := by
  unfold partition
  rw [consecutive_cover]
  rcases Nat.eq_zero_or_pos pebs with rfl | hpebs
  · rw [Nat.min_zero, cut_zero]
  · rw [cut_count pebs (Nat.lt_min.2 ⟨hworkers, hpebs⟩)]

theorem partition_eq (pebs workers : Nat) :
    partition pebs workers = (List.range (min workers pebs)).map fun index =>
      ⟨cut (pebs / min workers pebs) (pebs % min workers pebs) index,
        cut (pebs / min workers pebs) (pebs % min workers pebs) (index + 1)⟩ := by
  unfold partition
  simp only [consecutive_eq, Nat.zero_add]

theorem mem_partition : shard ∈ partition pebs workers ↔
    ∃ index < min workers pebs, shard.start = cut (pebs / min workers pebs) (pebs % min workers pebs) index ∧
      shard.stop = cut (pebs / min workers pebs) (pebs % min workers pebs) (index + 1) := by
  rw [partition_eq, List.mem_map]
  refine exists_congr fun index => and_congr List.mem_range ?_
  rw [Shard.mk.injEq]
  exact and_congr eq_comm eq_comm

/-- Each shard has an erase block, and its bounds are erase blocks of the volume, or the number of them. -/
theorem stop_le_of_mem_partition (h : shard ∈ partition pebs workers) :
    shard.start < shard.stop ∧ shard.stop ≤ pebs := by
  obtain ⟨index, hlt, hstart, hstop⟩ := mem_partition.1 h
  have hcount : 0 < min workers pebs := Nat.zero_lt_of_lt hlt
  have hwidth : 0 < pebs / min workers pebs := Nat.div_pos (Nat.min_le_right ..) hcount
  rw [hstart, hstop]
  constructor
  · rw [cut_succ]
    omega
  · calc cut _ _ (index + 1)
      _ ≤ cut _ _ (min workers pebs) := cut_mono hlt
      _ = pebs := cut_count pebs hcount

/-- Every shard stays below the erase blocks there are. -/
theorem lt_of_mem_partition {peb : Nat} (hshard : shard ∈ partition pebs workers) (hpeb : peb ∈ shard.pebs) :
    peb < pebs := by
  obtain ⟨-, hstop⟩ := stop_le_of_mem_partition hshard
  unfold Shard.pebs at hpeb
  rw [List.mem_range'_1] at hpeb
  omega

/-! ## Balance -/

/-- The erase blocks below `pebs` in as many shards as there are workers, or erase blocks if these are fewer. None of
the shards is empty, each begins where the one before it stops, and the larger ones, by one erase block, come first. -/
structure Balanced (pebs workers : Nat) (shards : List Shard) : Prop where
  length_eq : shards.length = min workers pebs
  nonempty : ∀ shard ∈ shards, shard.start < shard.stop
  joined : shards.IsChain fun a b => a.stop = b.start
  first : ∀ shard ∈ shards.head?, shard.start = 0
  last : ∀ shard ∈ shards.getLast?, shard.stop = pebs
  largerFirst : shards.Pairwise fun a b => b.size ≤ a.size
  even : ∀ a ∈ shards, ∀ b ∈ shards, a.size ≤ b.size + 1

theorem size_of_cuts {index : Nat} (hstart : shard.start = cut width wide index)
    (hstop : shard.stop = cut width wide (index + 1)) :
    shard.size = width + if index < wide then 1 else 0 := by
  unfold size
  rw [hstart, hstop, cut_succ]
  omega

theorem isBalanced_partition (pebs workers : Nat) : Balanced pebs workers (partition pebs workers) where
  length_eq := by rw [partition_eq, List.length_map, List.length_range]
  nonempty shard h := (stop_le_of_mem_partition h).1
  joined := by
    rw [partition_eq, List.isChain_map, List.isChain_range]
    exact fun _ _ => rfl
  first shard h := by
    rw [partition_eq, List.head?_map, List.head?_range] at h
    split at h <;> cases h
    exact cut_zero ..
  last shard h := by
    obtain ⟨hcount, hstop⟩ := stop_of_getLast?_consecutive h
    rw [hstop, Nat.zero_add, cut_count pebs hcount]
  largerFirst := by
    rw [partition_eq, List.pairwise_map]
    refine List.pairwise_lt_range.imp fun hlt => ?_
    rw [size_of_cuts rfl rfl, size_of_cuts rfl rfl]
    split <;> split <;> omega
  even a ha b hb := by
    obtain ⟨_, -, hstart, hstop⟩ := mem_partition.1 ha
    obtain ⟨_, -, hstart', hstop'⟩ := mem_partition.1 hb
    rw [size_of_cuts hstart hstop, size_of_cuts hstart' hstop']
    split <;> split <;> omega

/-- Shards that follow each other from `start` on, in two sizes and the larger ones first, are consecutive ones. -/
theorem eq_consecutive (width : Nat) (hjoined : shards.IsChain fun a b => a.stop = b.start)
    (hfirst : ∀ shard ∈ shards.head?, shard.start = start) (hnonempty : ∀ shard ∈ shards, shard.start < shard.stop)
    (hlarger : shards.Pairwise fun a b => b.size ≤ a.size)
    (hsize : ∀ shard ∈ shards, width ≤ shard.size ∧ shard.size ≤ width + 1) :
    shards = consecutive width (shards.countP (width < ·.size)) shards.length start := by
  induction shards generalizing start with
  | nil => rfl
  | cons a rest ih =>
    -- The rest starts where `a` stops, and `a` is a larger one exactly if there are larger ones at all.
    obtain ⟨hnext, hjoined⟩ := List.isChain_cons.1 hjoined
    obtain ⟨hle, hlarger⟩ := List.pairwise_cons.1 hlarger
    obtain ⟨hpos, hnonempty⟩ := List.forall_mem_cons.1 hnonempty
    obtain ⟨ha, hsize⟩ := List.forall_mem_cons.1 hsize
    have hrest := ih hjoined (fun b hb => (hnext b hb).symm) hnonempty hlarger hsize
    have hstart : a.start = start := hfirst a rfl
    have hstop : a.stop = a.start + a.size := (Nat.add_sub_cancel' (Nat.le_of_lt hpos)).symm
    have hcount : a.size = cut width ((a :: rest).countP (width < ·.size)) 1 ∧
        (a :: rest).countP (width < ·.size) - 1 = rest.countP (width < ·.size) := by
      rw [List.countP_cons, cut_one]
      by_cases hlarge : width < a.size
      · rw [if_pos (decide_eq_true hlarge), if_pos (Nat.succ_pos _)]
        exact ⟨by omega, rfl⟩
      -- Behind a shard of the smaller size, there are no larger ones.
      · have hnone : rest.countP (width < ·.size) = 0 := List.countP_eq_zero.2 fun b hb =>
          mt of_decide_eq_true (Nat.not_lt.2 (Nat.le_trans (hle b hb) (Nat.le_of_not_lt hlarge)))
        rw [hnone, if_neg (mt of_decide_eq_true hlarge), if_neg (Nat.lt_irrefl 0)]
        exact ⟨by omega, rfl⟩
    rw [List.length_cons, consecutive_succ, hcount.2, ← hcount.1, ← hstart, ← hstop, ← hrest]

namespace Balanced

variable (h : Balanced pebs workers shards)

include h

theorem size_getLast_le {final : Shard} (hfinal : shards.getLast? = some final) (hshard : shard ∈ shards) :
    final.size ≤ shard.size := by
  obtain ⟨init, rfl⟩ := List.getLast?_eq_some_iff.1 hfinal
  rcases List.mem_append.1 hshard with hinit | hlast
  · exact (List.pairwise_append.1 h.largerFirst).2.2 shard hinit final (List.mem_singleton_self _)
  · rw [List.mem_singleton.1 hlast]

/-- No other shards are balanced. -/
theorem eq_partition : shards = partition pebs workers := by
  unfold partition
  rw [← h.length_eq]
  rcases hfinal : shards.getLast? with _ | final
  · cases List.getLast?_eq_none_iff.1 hfinal
    rfl
  -- The last shard is one of the smallest, so its size is the quotient.
  · have hmem : final ∈ shards := List.mem_of_getLast? hfinal
    have heq := eq_consecutive final.size h.joined h.first h.nonempty h.largerFirst fun shard hshard =>
      ⟨h.size_getLast_le hfinal hshard, h.even shard hshard final hmem⟩
    have hlt : shards.countP (final.size < ·.size) < shards.length :=
      List.countP_lt_length_iff.2 ⟨final, hmem, decide_eq_false (Nat.lt_irrefl _)⟩
    generalize shards.countP (final.size < ·.size) = wide at heq hlt
    have hstop := h.last final hfinal
    rw [heq] at hfinal
    obtain ⟨hcount, hcut⟩ := stop_of_getLast?_consecutive hfinal
    have hdiv : pebs / shards.length = final.size ∧ pebs % shards.length = wide := by
      refine (Nat.div_mod_unique hcount).2 ⟨?_, hlt⟩
      unfold cut at hcut
      omega
    simp only [hdiv.1, hdiv.2]
    exact heq

end Balanced

/-! ## Words -/

/-- Consecutive shards for `count` workers from the one with an index on, calculated in words. Only sums can leave
them. -/
def consecutiveInWords (width wide : Nat) : (count index start : Nat) → Outcome (List Shard)
  | 0, _, _ => return []
  | count + 1, index, start => do
    let size ← word64 (width + if index < wide then 1 else 0)
    let stop ← word64 (start + size)
    let next ← word64 (index + 1)
    let rest ← consecutiveInWords width wide count next stop
    return ⟨start, stop⟩ :: rest

/-- The shards calculated in words. A number of workers that does not fit in a word is taken for the largest word. -/
def partitionInWords (pebs workers : Nat) : Outcome (List Shard) := do
  if pebs = 0 ∨ workers = 0 then
    return []
  let count := min (min workers (UInt64.size - 1)) pebs
  let width ← quotient pebs count
  consecutiveInWords width (pebs % count) count 0 0

theorem consecutiveInWords_eq {index : Nat} (hindex : index + count < UInt64.size)
    (hstop : start + cut width (wide - index) count < UInt64.size) :
    consecutiveInWords width wide count index start = .ok (consecutive width (wide - index) count start) := by
  induction count generalizing index start with
  | zero => rfl
  | succ count ih =>
    have hone : cut width (wide - index) 1 = width + if index < wide then 1 else 0 := by
      rw [cut_one, if_congr Nat.sub_pos_iff_lt rfl rfl]
    rw [← cut_one_add, Nat.sub_sub, hone, ← Nat.add_assoc] at hstop
    -- The sums are the size of the shard, where it stops, and the index of the next one.
    refine Outcome.bind_eq_ok.2 ⟨_, word64_eq_ok.2 ⟨by omega, rfl⟩, ?_⟩
    refine Outcome.bind_eq_ok.2 ⟨_, word64_eq_ok.2 ⟨by omega, rfl⟩, ?_⟩
    refine Outcome.bind_eq_ok.2 ⟨_, word64_eq_ok.2 ⟨by omega, rfl⟩, ?_⟩
    refine Outcome.bind_eq_ok.2 ⟨_, ih (by omega) hstop, ?_⟩
    rw [consecutive_succ, hone, Nat.sub_sub]
    rfl

/-- No sum that leads from one cut to the next leaves the words, and nothing is divided by zero. -/
theorem partitionInWords_eq (hpebs : pebs < UInt64.size) (workers : Nat) :
    partitionInWords pebs workers = .ok (partition pebs workers) := by
  have hcount : min (min workers (UInt64.size - 1)) pebs = min workers pebs := by omega
  unfold partitionInWords
  rw [hcount]
  split
  · rename_i hnone
    have hzero : min workers pebs = 0 := by omega
    unfold partition
    rw [hzero]
    rfl
  · have hcount : 0 < min workers pebs := by omega
    refine Outcome.bind_eq_ok.2 ⟨_, quotient_eq_ok.2 ⟨Nat.ne_of_gt hcount, rfl⟩, ?_⟩
    refine consecutiveInWords_eq (by omega) ?_
    rw [Nat.zero_add, Nat.sub_zero, cut_count pebs hcount]
    exact hpebs

/-- The erase blocks are shared out evenly. The partition is balanced, and the only one that is. It has no shards
exactly if there are no erase blocks or no workers. In words it comes out the same: nothing on the way to it takes more
than 64 bits. -/
theorem partition_balanced (pebs : UInt64) (workers : Nat) :
    (∀ shards, Balanced pebs.toNat workers shards ↔ shards = partition pebs.toNat workers) ∧
      (partition pebs.toNat workers = [] ↔ pebs = 0 ∨ workers = 0) ∧
      partitionInWords pebs.toNat workers = .ok (partition pebs.toNat workers) := by
  refine ⟨fun shards => ⟨Balanced.eq_partition, fun h => h ▸ isBalanced_partition pebs.toNat workers⟩, ?_,
    partitionInWords_eq pebs.toNat_lt workers⟩
  have hlength := (isBalanced_partition pebs.toNat workers).length_eq
  have hzero : pebs = 0 ↔ pebs.toNat = 0 := UInt64.toNat_inj.symm
  rw [← List.length_eq_zero_iff, hlength, hzero]
  omega

example : partition 10 3 = [⟨0, 4⟩, ⟨4, 7⟩, ⟨7, 10⟩] := by decide

end FlashVolume.Shard
