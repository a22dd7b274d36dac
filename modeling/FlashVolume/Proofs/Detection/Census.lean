/-
The census does not depend on how many workers take it. Shards cover the erase blocks in order, so the
shards put together are one scan of all blocks, and the first worker that fails does so at the first
erase block that cannot be scanned.
-/
import FlashVolume.Proofs.Detection.Shards
import FlashVolume.Proofs.History
import FlashVolume.Proofs.Image.Compact

namespace FlashVolume

/-! ## Scans -/

namespace Outcome

variable {α β : Type} {f : α → Outcome (Option β)}

theorem filterMapM_append (as bs : List α) :
    (as ++ bs).filterMapM f =
      as.filterMapM f >>= fun xs => bs.filterMapM f >>= fun ys => pure (xs ++ ys) := by
  induction as with
  | nil => exact (bind_pure _).symm
  | cons a as ih =>
    rw [List.cons_append, List.filterMapM_cons, List.filterMapM_cons, ih]
    rcases f a with stop | _ | b
    · rfl
    · rfl
    · rcases as.filterMapM f with stop | xs
      · rfl
      · rcases bs.filterMapM f with stop | ys <;> rfl

/-- Filtering groups one by one comes to filtering all of them. -/
theorem mapM_filterMapM (groups : List (List α)) :
    (groups.mapM (List.filterMapM f)).map List.flatten = groups.flatten.filterMapM f := by
  induction groups with
  | nil => rfl
  | cons group groups ih =>
    rw [List.mapM_cons, List.flatten_cons, filterMapM_append, ← ih]
    rcases group.filterMapM f with stop | xs
    · rfl
    · rcases groups.mapM (List.filterMapM f) with stop | ys <;> rfl

theorem filterMapM_cons_eq_error {a : α} {as : List α} {stop : Stop} :
    (a :: as).filterMapM f = .error stop ↔
      f a = .error stop ∨ (∃ found, f a = .ok found) ∧ as.filterMapM f = .error stop := by
  rw [List.filterMapM_cons]
  rcases f a with stop' | found
  · constructor
    · rintro h
      cases h
      exact .inl rfl
    · rintro (h | ⟨⟨_, h⟩, -⟩) <;> cases h
      rfl
  -- What an element comes to does not decide whether a later one fails.
  · rcases found with _ | b
    · constructor
      · intro h
        exact .inr ⟨⟨_, rfl⟩, h⟩
      · rintro (h | ⟨-, h⟩)
        · cases h
        · exact h
    · rcases as.filterMapM f with stop' | bs
      · constructor
        · intro h
          exact .inr ⟨⟨_, rfl⟩, h⟩
        · rintro (h | ⟨-, h⟩) <;> cases h
          rfl
      · exact iff_of_false nofun (by rintro (h | ⟨-, h⟩) <;> cases h)

/-- Filtering fails with the first element that fails. -/
theorem filterMapM_eq_error {as : List α} {stop : Stop} :
    as.filterMapM f = .error stop ↔
      ∃ before a after, as = before ++ a :: after ∧ f a = .error stop ∧
        ∀ b ∈ before, ∃ found, f b = .ok found := by
  induction as with
  | nil => exact iff_of_false nofun fun ⟨before, a, after, h, _⟩ => by cases before <;> cases h
  | cons a as ih =>
    rw [filterMapM_cons_eq_error, ih]
    constructor
    · rintro (h | ⟨ha, before, b, after, rfl, hb, hbefore⟩)
      · exact ⟨[], a, as, rfl, h, fun _ h => nomatch h⟩
      · exact ⟨a :: before, b, after, rfl, hb, List.forall_mem_cons.2 ⟨ha, hbefore⟩⟩
    · rintro ⟨_ | ⟨c, before⟩, b, after, h, hb, hbefore⟩ <;> cases h
      · exact .inl hb
      · obtain ⟨ha, hbefore⟩ := List.forall_mem_cons.1 hbefore
        exact .inr ⟨ha, before, b, after, rfl, hb, hbefore⟩

end Outcome

namespace Volume

variable {v : Volume}

/-- Scanning shard by shard comes to one scan, if the shards cover the volume. -/
theorem scanShards_eq (shards : List Shard) {pebs : Nat}
    (hcover : shards.flatMap Shard.pebs = List.range' 0 pebs) :
    (shards.mapM v.scanShard).map List.flatten = v.scanShard ⟨0, pebs⟩ := by
  have hshards : shards.mapM v.scanShard = (shards.map Shard.pebs).mapM (List.filterMapM v.scanPeb) := by
    rw [List.mapM_map]
    rfl
  rw [hshards, Outcome.mapM_filterMapM, ← List.flatMap_def, hcover]
  rfl

/-- Whatever the number of workers, the census of a device whose further handles read like the first
one comes to one scan of all erase blocks. -/
theorem scan_eq (workers : Nat) :
    (v.scan (.ok v.handle) workers).map List.flatten =
      v.pebsCount.bind fun pebs => v.scanShard ⟨0, pebs⟩ := by
  unfold scan
  rcases hn : v.pebsCount with stop | pebs
  · rfl
  have hcover := Shard.partition_cover (Nat.lt_of_lt_of_le Nat.one_pos (Nat.le_max_right workers 1)) pebs
  simp only
  split
  · exact scanShards_eq _ hcover
  · exact scanShards_eq _ hcover

theorem scan_eq_error {workers : Nat} {stop : Stop} :
    v.scan (.ok v.handle) workers = .error stop ↔
      (v.pebsCount.bind fun pebs => v.scanShard ⟨0, pebs⟩) = .error stop := by
  rw [← scan_eq workers]
  rcases v.scan (.ok v.handle) workers with stop' | shards
  · constructor <;> intro h <;> cases h <;> rfl
  · exact iff_of_false nofun nofun

/-- A census fails with the first erase block that cannot be scanned. -/
theorem scan_eq_error_iff {workers pebs : Nat} {stop : Stop} (hn : v.pebsCount = .ok pebs) :
    v.scan (.ok v.handle) workers = .error stop ↔
      ∃ peb, peb < pebs ∧ v.scanPeb peb = .error stop ∧
        ∀ earlier, earlier < peb → ∃ item, v.scanPeb earlier = .ok item := by
  have hscan : (v.pebsCount.bind fun pebs => v.scanShard ⟨0, pebs⟩) =
      (List.range' 0 pebs).filterMapM v.scanPeb := by
    rw [hn]
    rfl
  rw [scan_eq_error, hscan, Outcome.filterMapM_eq_error]
  constructor
  · rintro ⟨before, peb, after, hsplit, hfail, hbefore⟩
    obtain ⟨count, hcount, rfl, hrest⟩ := List.range'_eq_append_iff.1 hsplit
    obtain ⟨rfl, hpos, -⟩ := List.range'_eq_cons_iff.1 hrest.symm
    refine ⟨_, by omega, hfail, fun earlier hearlier => hbefore earlier ?_⟩
    rw [List.mem_range'_1]
    omega
  · rintro ⟨peb, hlt, hfail, hbefore⟩
    refine ⟨List.range' 0 peb, peb, List.range' (peb + 1) (pebs - peb - 1), ?_, hfail, fun b hb => ?_⟩
    · refine List.range'_eq_append_iff.2 ⟨peb, by omega, rfl, ?_⟩
      exact (List.range'_eq_cons_iff.2 ⟨by omega, by omega, rfl⟩).symm
    · rw [List.mem_range'_1] at hb
      exact hbefore b (by omega)

end Volume

/-! ## Detection -/

namespace Device

/-- Handles opened later read like the first one, failures included. -/
def ReopensAlike (device : Device) : Prop :=
  ∃ handle, device.reopened = .ok handle ∧ handle.size = device.handle.size ∧
    ∀ offset length, handle.read offset length = device.handle.read offset length

variable {device : Device}

theorem ReopensAlike.reopened_eq (h : device.ReopensAlike) : device.reopened = .ok device.handle := by
  obtain ⟨⟨size, read⟩, hopen, hsize, hread⟩ := h
  rw [hopen]
  congr 1
  rcases hd : device.handle with ⟨size', read'⟩
  rw [hd] at hsize hread
  cases hsize
  congr 1
  funext offset length
  exact hread offset length

/-- An exploration only depends on what the shards of its census hold together. -/
theorem explore_workers {t : Trailhead} (ht : t.volume.handle = device.handle) (h : device.ReopensAlike)
    (options : DetectOptions) (m n : Nat) :
    device.explore { options with workers := m } t = device.explore { options with workers := n } t := by
  have hscan : (t.volume.scan device.reopened m).map List.flatten =
      (t.volume.scan device.reopened n).map List.flatten := by
    rw [h.reopened_eq, ← ht, Volume.scan_eq, Volume.scan_eq]
  unfold explore
  simp only
  split
  · rfl
  split
  · rcases hm : t.volume.scan device.reopened m with stop | shards <;>
      rcases hn : t.volume.scan device.reopened n with stop' | shards' <;> rw [hm, hn] at hscan
    · cases hscan
      rfl
    · cases hscan
    · cases hscan
    · have hflat : shards.flatten = shards'.flatten := Except.ok.inj hscan
      simp only
      rw [History.merge_flatten, hflat, ← History.merge_flatten]
  · rfl

theorem tryDetect_workers (h : device.ReopensAlike) (options : DetectOptions) (m n : Nat) :
    device.tryDetect { options with workers := m } = device.tryDetect { options with workers := n } := by
  -- Neither the search for a header nor the geometry asks for the workers.
  have hsize : ∀ workers, { options with workers : DetectOptions }.scanEraseSize = options.scanEraseSize :=
    fun _ => rfl
  have hresolve : ∀ workers declared,
      { options with workers : DetectOptions }.resolveGeometry declared = options.resolveGeometry declared :=
    fun _ _ => rfl
  unfold tryDetect
  simp only [hsize, hresolve]
  rcases Bootstrap.find? device.handle options.scanEraseSize with stop | _ | bootstrap
  · rfl
  · rfl
  simp only
  rcases options.resolveGeometry bootstrap.header.volume.geometry? with cause | geometry
  · rfl
  simp only
  rcases bootstrap.relocate geometry with stop | located
  · rfl
  exact explore_workers rfl h options m n

/-- The number of workers cannot be observed: the census finds the same in the same order as one scan of
all erase blocks, or fails with the first of them that cannot be scanned, and detection reports the same. -/
theorem workers_unobservable (h : device.ReopensAlike) (geometry : Geometry) (m n : Nat) :
    let v : Volume := ⟨device.handle, geometry⟩
    (v.scan device.reopened m).map List.flatten = (v.scan device.reopened n).map List.flatten ∧
      (v.scan device.reopened m).map List.flatten =
        (v.pebsCount.bind fun pebs => v.scanShard ⟨0, pebs⟩) ∧
      (∀ pebs stop, v.pebsCount = .ok pebs → (v.scan device.reopened m = .error stop ↔
        ∃ peb, peb < pebs ∧ v.scanPeb peb = .error stop ∧
          ∀ earlier, earlier < peb → ∃ item, v.scanPeb earlier = .ok item)) ∧
      ∀ options : DetectOptions, device.detect { options with workers := m } =
        device.detect { options with workers := n } := by
  intro v
  have heq : ∀ workers, (v.scan device.reopened workers).map List.flatten =
      v.pebsCount.bind fun pebs => v.scanShard ⟨0, pebs⟩ := fun workers => by
    rw [h.reopened_eq]
    exact Volume.scan_eq (v := v) workers
  refine ⟨(heq m).trans (heq n).symm, heq m, fun pebs stop hn => ?_, fun options => ?_⟩
  · rw [h.reopened_eq]
    exact Volume.scan_eq_error_iff (v := v) hn
  · unfold detect
    rw [tryDetect_workers h options m n]

/-- The census and the report of a whole volume do not depend on the number of workers. -/
theorem whole_workers :
    let device := CompactVolume.whole.device
    let v : Volume := ⟨device.handle, CompactVolume.geometry⟩
    device.ReopensAlike ∧
      (v.scan device.reopened 1).map List.flatten = (v.scan device.reopened 4).map List.flatten ∧
      ∀ options : DetectOptions, device.detect { options with workers := 1 } =
        device.detect { options with workers := 4 } := by
  have halike : CompactVolume.whole.device.ReopensAlike := ⟨_, rfl, rfl, fun _ _ => rfl⟩
  obtain ⟨hscan, -, -, hdetect⟩ := workers_unobservable halike CompactVolume.geometry 1 4
  exact ⟨halike, hscan, hdetect⟩

end Device

end FlashVolume
