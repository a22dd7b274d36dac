/-
Where a bootstrap header is looked for. Behind the boot record, at the very start of the device, and then at distances
of one, three, seven, … erase blocks from it: these are the probes, as long as they lie on the device, and words of
64 bits are wide enough for all of them. On a device that can be read, the search comes to the first probe that a
header holds up at, or to the first one that the device has no room for a header at.
-/
import FlashVolume.Proofs.Arithmetic.Detection
import FlashVolume.Proofs.Bootstrap

namespace FlashVolume.Bootstrap

variable {eraseSize deviceSize : Nat}

/-! ## Offsets -/

/-- The offset of the probe with a number, whatever the device. -/
def probeOffset (eraseSize : Nat) : (number : Nat) → Nat
  | 0 => bootRecordSize
  | doublings + 1 => (2 ^ doublings - 1) * eraseSize

/-- A probe lies a power of two of erase blocks behind the one before it. -/
theorem probeOffset_succ_succ (eraseSize doublings : Nat) :
    probeOffset eraseSize (doublings + 2) =
      probeOffset eraseSize (doublings + 1) + eraseSize <<< doublings := by
  have hpos : 1 ≤ 2 ^ doublings := Nat.one_le_two_pow
  have hdouble : 2 ^ (doublings + 1) - 1 = 2 ^ doublings - 1 + 2 ^ doublings := by omega
  show (2 ^ (doublings + 1) - 1) * eraseSize = (2 ^ doublings - 1) * eraseSize + eraseSize <<< doublings
  rw [Nat.shiftLeft_eq, Nat.mul_comm eraseSize, ← Nat.add_mul, hdouble]

/-- Behind the first two, every probe lies further on than the ones before. -/
theorem probeOffset_lt (herase : 0 < eraseSize) {number number' : Nat} (hpos : 0 < number) (hlt : number < number') :
    probeOffset eraseSize number < probeOffset eraseSize number' := by
  obtain ⟨doublings, rfl⟩ := Nat.exists_eq_add_one.2 hpos
  obtain ⟨doublings', rfl⟩ := Nat.exists_eq_add_one.2 (Nat.lt_trans hpos hlt)
  have hpow : 2 ^ doublings < 2 ^ doublings' := Nat.pow_lt_pow_right (by omega) (by omega)
  have hone : 1 ≤ 2 ^ doublings := Nat.one_le_two_pow
  exact Nat.mul_lt_mul_of_pos_right (by omega) herase

/-- Only so many probes have offsets that fit in 64 bits. -/
theorem number_le_of_probeOffset_lt (herase : 0 < eraseSize) {number : Nat}
    (h : probeOffset eraseSize number < UInt64.size - 1) : number ≤ 64 := by
  by_contra hnumber
  obtain ⟨doublings, rfl⟩ := Nat.exists_eq_add_one.2 (show 0 < number by omega)
  have hpow : 2 ^ 64 ≤ 2 ^ doublings := Nat.pow_le_pow_right Nat.two_pos (by omega)
  have hmul : 2 ^ doublings - 1 ≤ probeOffset eraseSize (doublings + 1) := Nat.le_mul_of_pos_right _ herase
  simp only [UInt64.size] at h
  omega

/-- The next probe is given up exactly if its offset does not fit in 64 bits. -/
theorem nextProbe?_probeOffset (herase : 0 < eraseSize) (number : Nat) :
    nextProbe? eraseSize number (probeOffset eraseSize number) =
      if probeOffset eraseSize (number + 1) < UInt64.size then some (probeOffset eraseSize (number + 1))
      else none := by
  unfold nextProbe?
  rcases number with _ | doublings
  · have hzero : probeOffset eraseSize 1 = 0 := Nat.zero_mul _
    rw [if_pos rfl, hzero, if_pos (by decide)]
  · rw [if_neg (Nat.succ_ne_zero _)]
    simp only [Nat.add_sub_cancel, ← probeOffset_succ_succ]
    refine if_congr ⟨fun h => h.2.2, fun h => ⟨?_, ?_, h⟩⟩ rfl rfl
    · have hlt := probeOffset_lt herase (Nat.succ_pos doublings) (Nat.lt_succ_self (doublings + 1))
      exact number_le_of_probeOffset_lt herase (Nat.lt_of_lt_of_le hlt (Nat.le_sub_one_of_lt h))
    · rw [probeOffset_succ_succ] at h
      omega

/-! ## Probes -/

/-- The values of `f` from the first one on, up to the first one that is not below the limit. -/
structure IsLongestPrefix (f : Nat → Nat) (limit : Nat) (values : List Nat) : Prop where
  eq : values = (List.range values.length).map f
  lt : ∀ value ∈ values, value < limit
  le : limit ≤ f values.length

theorem probesFrom_eq (herase : 0 < eraseSize) (hsize : deviceSize < UInt64.size) {number offset : Nat}
    (hoffset : offset = probeOffset eraseSize number) :
    ∃ count, probesFrom eraseSize deviceSize number offset = (List.range' number count).map (probeOffset eraseSize) ∧
      deviceSize ≤ probeOffset eraseSize (number + count) := by
  fun_induction probesFrom eraseSize deviceSize number offset with
  | case1 number offset hlt next hnext ih =>
    rw [hoffset, nextProbe?_probeOffset herase] at hnext
    obtain ⟨-, hnext⟩ := Option.ite_none_right_eq_some.1 hnext
    obtain ⟨count, hprobes, hstop⟩ := ih (Option.some.inj hnext).symm
    refine ⟨count + 1, ?_, ?_⟩
    · rw [hprobes, List.range'_succ, List.map_cons, hoffset]
    · rw [Nat.add_comm count, ← Nat.add_assoc]
      exact hstop
  | case2 number offset hlt hnext =>
    rw [hoffset, nextProbe?_probeOffset herase] at hnext
    refine ⟨1, by rw [List.range'_one, List.map_singleton, hoffset], ?_⟩
    by_contra hstop
    rw [if_pos (by omega)] at hnext
    cases hnext
  | case3 number offset hlt =>
    rw [hoffset] at hlt
    exact ⟨0, rfl, Nat.le_of_not_lt hlt⟩

theorem probes_isLongestPrefix (herase : 0 < eraseSize) (hsize : deviceSize < UInt64.size) :
    IsLongestPrefix (probeOffset eraseSize) deviceSize (probes eraseSize deviceSize) := by
  have hoffset : bootRecordSize = probeOffset eraseSize 0 := rfl
  obtain ⟨count, hprobes, hstop⟩ := probesFrom_eq herase hsize hoffset
  have hlength : (probes eraseSize deviceSize).length = count := by
    show (probesFrom eraseSize deviceSize 0 bootRecordSize).length = count
    rw [hprobes, List.length_map, List.length_range']
  refine ⟨?_, lt_of_mem_probes, ?_⟩
  · rw [hlength, List.range_eq_range']
    exact hprobes
  · rw [hlength, ← Nat.zero_add count]
    exact hstop

namespace IsLongestPrefix

variable {f : Nat → Nat} {limit : Nat} {values : List Nat}

theorem getElem_eq (h : IsLongestPrefix f limit values) {i : Nat} (hi : i < values.length) : values[i] = f i := by
  have heq := List.getElem_of_eq h.eq hi
  rwa [List.getElem_map, List.getElem_range] at heq

/-- A value is that of `f` at the number of values before it. -/
theorem eq_of_append {before after : List Nat} {value : Nat} (h : IsLongestPrefix f limit (before ++ value :: after)) :
    value = f before.length := by
  have hlength : before.length < (before ++ value :: after).length := by simp
  rw [← h.getElem_eq hlength, List.getElem_append_right (Nat.le_refl _)]
  simp only [Nat.sub_self, List.getElem_cons_zero]

theorem lt_of_lt_length (h : IsLongestPrefix f limit values) {i : Nat} (hi : i < values.length) : f i < limit := by
  rw [← h.getElem_eq hi]
  exact h.lt _ (List.getElem_mem hi)

theorem length_eq (h : IsLongestPrefix f limit values) {count : Nat} (hlt : ∀ i < count, f i < limit)
    (hle : limit ≤ f count) : values.length = count := by
  rcases Nat.lt_trichotomy values.length count with hshort | heq | hlong
  · exact absurd h.le (Nat.not_le.2 (hlt _ hshort))
  · exact heq
  · exact absurd hle (Nat.not_le.2 (h.lt_of_lt_length hlong))

theorem length_le_of_probeOffset (h : IsLongestPrefix (probeOffset eraseSize) limit values) (herase : 0 < eraseSize)
    (hlimit : limit < UInt64.size) : values.length ≤ 65 := by
  by_contra hlength
  have hlt := h.lt_of_lt_length (show 65 < values.length by omega)
  have hnumber := number_le_of_probeOffset_lt herase (show probeOffset eraseSize 65 < UInt64.size - 1 by omega)
  omega

/-- Behind the first probe, offsets only grow. -/
theorem pairwise_tail (h : IsLongestPrefix (probeOffset eraseSize) limit values) (herase : 0 < eraseSize) :
    values.tail.Pairwise (· < ·) := by
  rw [List.pairwise_iff_getElem]
  intro i j hi hj hij
  rw [List.length_tail] at hi hj
  rw [List.getElem_tail, List.getElem_tail, h.getElem_eq (by omega), h.getElem_eq (by omega)]
  exact probeOffset_lt herase (Nat.succ_pos i) (Nat.succ_lt_succ hij)

end IsLongestPrefix

/-! ## Search -/

/-- On a device that can be read, the search goes by the probes that hold no header, and ends with a header at the
next one or because the device has no room for one there. -/
theorem search_eq {handle : Handle} (herase : 0 < eraseSize) (hsize : handle.size ≤ 2 ^ 63)
    (hread : ∀ offset length, offset + length ≤ handle.size → ∃ bytes, handle.read offset length = .ok bytes) :
    ∀ {probes : List Nat}, (∀ probe ∈ probes, probe < handle.size) →
      ∃ before after, probes = before ++ after ∧ (∀ probe ∈ before, handle.Holds probe none) ∧
        ((∃ header offset rest, after = offset :: rest ∧ handle.Holds offset (some header) ∧
            search handle eraseSize probes = .ok (some ⟨offset, offset / eraseSize, 0, header⟩)) ∨
          (∀ offset ∈ after.head?, handle.size < offset + SegmentHeader.format.size) ∧
            search handle eraseSize probes = .ok none)
  | [], _ => ⟨[], [], rfl, List.forall_mem_nil _, .inr ⟨nofun, rfl⟩⟩
  | offset :: rest, hprobes => by
    obtain ⟨hoffset, hrest⟩ := List.forall_mem_cons.1 hprobes
    have hfits : offset + SegmentHeader.format.size < UInt64.size := by
      rw [SegmentHeader.size_format]
      simp only [UInt64.size]
      omega
    have hword : word64 (offset + SegmentHeader.format.size) = .ok (offset + SegmentHeader.format.size) :=
      word64_eq_ok.2 ⟨hfits, rfl⟩
    have hpeb : quotient offset eraseSize = .ok (offset / eraseSize) :=
      quotient_eq_ok.2 ⟨Nat.ne_of_gt herase, rfl⟩
    unfold search
    simp only [hword]
    by_cases hroom : handle.size < offset + SegmentHeader.format.size
    · rw [if_pos hroom]
      refine ⟨[], offset :: rest, rfl, List.forall_mem_nil _, .inr ⟨fun probe hprobe => ?_, rfl⟩⟩
      rwa [← Option.some.inj hprobe]
    obtain ⟨bytes, hbytes⟩ := hread offset SegmentHeader.format.size (Nat.le_of_not_lt hroom)
    simp only [if_neg hroom, hpeb, hbytes]
    rcases hparse : (Sealed.parse? bytes : Option SegmentHeader) with _ | header
    · obtain ⟨before, after, heq, hbefore, hfound⟩ := search_eq herase hsize hread hrest
      refine ⟨offset :: before, after, congrArg (offset :: ·) heq, List.forall_mem_cons.2 ⟨?_, hbefore⟩, hfound⟩
      exact ⟨Nat.le_of_not_lt hroom, hfits, bytes, hbytes, hparse⟩
    · exact ⟨[], offset :: rest, rfl, List.forall_mem_nil _, .inl ⟨header, offset, rest, rfl,
        ⟨Nat.le_of_not_lt hroom, hfits, bytes, hbytes, hparse⟩, rfl⟩⟩

/-- The probes are the offsets that double their distance, as far as these lie on the device, and no more than 65. On
a device that can be read, the header at the first of them that holds one is found, if the device has room for a
header at it and at those before; otherwise none is. -/
theorem find?_first_probe (herase : 0 < eraseSize) :
    (∀ deviceSize, deviceSize < UInt64.size →
      IsLongestPrefix (probeOffset eraseSize) deviceSize (probes eraseSize deviceSize) ∧
        (probes eraseSize deviceSize).length ≤ 65 ∧ (probes eraseSize deviceSize).tail.Pairwise (· < ·)) ∧
    ∀ handle : Handle, handle.size ≤ 2 ^ 63 →
      (∀ offset length, offset + length ≤ handle.size → ∃ bytes, handle.read offset length = .ok bytes) →
      ∃ number, (∀ earlier < number, handle.Holds (probeOffset eraseSize earlier) none) ∧
        ((∃ header, handle.Holds (probeOffset eraseSize number) (some header) ∧ find? handle eraseSize =
            .ok (some ⟨probeOffset eraseSize number, probeOffset eraseSize number / eraseSize, 0, header⟩)) ∨
          handle.size < probeOffset eraseSize number + SegmentHeader.format.size ∧
            find? handle eraseSize = .ok none) := by
  constructor
  · intro deviceSize hsize
    have hprobes := probes_isLongestPrefix herase hsize
    exact ⟨hprobes, hprobes.length_le_of_probeOffset herase hsize, hprobes.pairwise_tail herase⟩
  · intro handle hsize hread
    have hword : handle.size < UInt64.size := by simp only [UInt64.size]; omega
    have hprobes := probes_isLongestPrefix herase hword
    obtain ⟨before, after, heq, hbefore, hfound⟩ := search_eq herase hsize hread hprobes.lt
    rw [heq] at hprobes
    -- The probes before the one that ends the search are the first ones, so their count is its number.
    refine ⟨before.length, fun earlier hearlier => ?_, ?_⟩
    · have hlength : earlier < (before ++ after).length := by rw [List.length_append]; omega
      rw [← hprobes.getElem_eq hlength, List.getElem_append_left hearlier]
      exact hbefore _ (List.getElem_mem hearlier)
    · rcases hfound with ⟨header, offset, rest, rfl, hholds, hsearch⟩ | ⟨hstop, hsearch⟩
      · obtain rfl := hprobes.eq_of_append
        exact .inl ⟨header, hholds, hsearch⟩
      · refine .inr ⟨?_, hsearch⟩
        rcases after with _ | ⟨offset, rest⟩
        · have hle := hprobes.le
          rw [List.append_nil] at hle
          rw [SegmentHeader.size_format]
          omega
        · rw [← hprobes.eq_of_append]
          exact hstop offset rfl

open EdgeVolume (wide)

/-- On a device whose only header lies 8 MiB into it, a search that assumes erase blocks of 8 MiB finds it at the third
and last probe. -/
theorem wide_first_probe : 0 < 8388608 ∧ wide.size < UInt64.size ∧ wide.size ≤ 2 ^ 63 ∧
    probes 8388608 wide.size = [1024, 0, 8388608] ∧
    ∃ header, wide.Holds 1024 none ∧ wide.Holds 0 none ∧ wide.Holds 8388608 (some header) ∧
      find? wide 8388608 = .ok (some ⟨8388608, 1, 0, header⟩) := by
  have herase : 0 < 8388608 := by decide
  obtain ⟨hoffsets, hfind⟩ := find?_first_probe herase
  have hsize : wide.size < UInt64.size := by decide
  refine ⟨herase, hsize, by decide, ?_, ?_⟩
  · obtain ⟨hprobes, -, -⟩ := hoffsets wide.size hsize
    have hlength : (probes 8388608 wide.size).length = 3 := hprobes.length_eq (by decide) (by decide)
    rw [hprobes.eq, hlength]
    rfl
  · obtain ⟨number, hbefore, hend⟩ := hfind wide (by decide) fun offset length h => ⟨_, if_pos h⟩
    obtain ⟨-, -, -, -, hfound⟩ := EdgeVolume.outcomes
    obtain ⟨b, hb, hoffset, -⟩ := EdgeVolume.exists_bootstrap hfound
    rcases hend with ⟨header, hholds, hsome⟩ | ⟨-, hnone⟩
    · cases hb.symm.trans hsome
      obtain rfl : number = 2 := by
        rcases number with _ | _ | _ | number
        · cases hoffset
        · cases hoffset
        · rfl
        · have hlt : probeOffset 8388608 2 < probeOffset 8388608 (number + 3) :=
            probeOffset_lt (by decide) (by decide) (by omega)
          exact absurd hoffset (Nat.ne_of_gt hlt)
      exact ⟨header, hbefore 0 (by decide), hbefore 1 (by decide), hholds, hsome⟩
    · cases hb.symm.trans hnone

end FlashVolume.Bootstrap
