/-
Where the bootstrap header is found, and which log it is said to open. Apart from the first probe, behind the boot
record, probes lie at multiples of the assumed erase size, so a page of any accepted geometry begins there. The log
on that page has its header where the bootstrap was found, except at the very start of the device, which is probed
though no log has its header there.
-/
import FlashVolume.Proofs.Geometry.Positions
import FlashVolume.Proofs.Geometry.Resolution
import FlashVolume.Proofs.Image.Edge

namespace FlashVolume

/-! ## Probes -/

/-- What a header read at this offset comes to, on a device with room for it. -/
structure Handle.Holds (handle : Handle) (offset : Nat) (header : Option SegmentHeader) : Prop where
  room : offset + SegmentHeader.format.size ≤ handle.size
  fits : offset + SegmentHeader.format.size < UInt64.size
  reads : ∃ bytes, handle.read offset SegmentHeader.format.size = .ok bytes ∧ Sealed.parse? bytes = header

/-- A log whose header lies at the offset has that header. -/
theorem Volume.segmentHeader?_of_holds {v : Volume} {peb page : Nat} {header : Option SegmentHeader}
    (h : v.handle.Holds (v.geometry.headerOffset peb page) header) : v.segmentHeader? peb page = .ok header := by
  obtain ⟨hroom, hfits, bytes, hread, hparse⟩ := h
  have hword : word64 (v.geometry.headerOffset peb page) = .ok (v.geometry.headerOffset peb page) :=
    word64_eq_ok.2 ⟨by omega, rfl⟩
  have hguard : ¬ v.handle.size <
      min (v.geometry.headerOffset peb page + SegmentHeader.format.size) (UInt64.size - 1) :=
    Nat.not_lt.2 (Nat.le_trans (Nat.min_le_left ..) hroom)
  unfold segmentHeader? readHeaderBytes readBytes
  simp only [hword, hread, bind, Except.bind, if_neg hguard, pure, Except.pure, Option.bind_some, hparse]

namespace Bootstrap

variable {handle : Handle} {eraseSize : Nat}

/-- Every probe but the first is at a multiple of the assumed erase size. -/
theorem dvd_of_mem_probesFrom {deviceSize probed offset : Nat} (h : probed ≠ 0 → eraseSize ∣ offset) :
    ∀ probe ∈ probesFrom eraseSize deviceSize probed offset, probe = offset ∨ eraseSize ∣ probe := by
  fun_induction probesFrom eraseSize deviceSize probed offset with
  | case1 probed offset hlt next hnext ih =>
    have hdvd : eraseSize ∣ next := by
      unfold nextProbe? at hnext
      split at hnext
      · cases hnext
        exact Nat.dvd_zero _
      · rename_i hprobed
        simp only at hnext
        split at hnext <;> cases hnext
        rw [Nat.shiftLeft_eq]
        exact Nat.dvd_add (h hprobed) (Nat.dvd_mul_right ..)
    refine List.forall_mem_cons.2 ⟨.inl rfl, fun probe hprobe => .inr ?_⟩
    rcases ih (fun _ => hdvd) probe hprobe with rfl | hmem
    · exact hdvd
    · exact hmem
  | case2 probed offset hlt hnext => exact List.forall_mem_cons.2 ⟨.inl rfl, List.forall_mem_nil _⟩
  | case3 => exact List.forall_mem_nil _

theorem dvd_of_mem_probes {deviceSize : Nat} :
    ∀ probe ∈ probes eraseSize deviceSize, probe = bootRecordSize ∨ eraseSize ∣ probe :=
  dvd_of_mem_probesFrom fun h => absurd rfl h

/-- The first probe is behind the boot record. -/
theorem head_probes {deviceSize probe : Nat} {rest : List Nat}
    (h : probes eraseSize deviceSize = probe :: rest) : probe = bootRecordSize := by
  unfold probes at h
  rw [probesFrom] at h
  split at h
  · split at h <;> cases h <;> rfl
  · cases h

/-- The header that is found is the first one among the probes. -/
theorem search_eq_some {b : Bootstrap} : ∀ {probes : List Nat},
    search handle eraseSize probes = .ok (some b) →
      ∃ before after, probes = before ++ b.offset :: after ∧ (∀ probe ∈ before, handle.Holds probe none) ∧
        handle.Holds b.offset (some b.header)
  | [], h => nomatch h
  | offset :: rest, h => by
    unfold search at h
    rcases hstop : word64 (offset + SegmentHeader.format.size) with stop | stop <;> simp only [hstop] at h
    · cases h
    obtain ⟨hfits, rfl⟩ := word64_eq_ok.1 hstop
    split at h
    · cases h
    rename_i hroom
    rcases hpeb : quotient offset eraseSize with stop | peb <;> simp only [hpeb] at h
    · cases h
    rcases hread : handle.read offset SegmentHeader.format.size with cause | bytes <;> simp only [hread] at h
    · cases h
    rcases hparse : (Sealed.parse? bytes : Option SegmentHeader) with _ | header <;> simp only [hparse] at h
    · obtain ⟨before, after, rfl, hbefore, hheader⟩ := search_eq_some h
      exact ⟨offset :: before, after, rfl, List.forall_mem_cons.2
        ⟨⟨Nat.le_of_not_lt hroom, hfits, bytes, hread, hparse⟩, hbefore⟩, hheader⟩
    · cases h
      exact ⟨[], rest, rfl, List.forall_mem_nil _, Nat.le_of_not_lt hroom, hfits, bytes, hread, hparse⟩

/-- A header is found at one of the probes. -/
theorem offset_mem_of_search {b : Bootstrap} {probes : List Nat}
    (h : search handle eraseSize probes = .ok (some b)) : b.offset ∈ probes := by
  obtain ⟨before, after, rfl, -⟩ := search_eq_some h
  exact List.mem_append_right _ (List.mem_cons_self ..)

/-- Whatever was found further on, behind the boot record there is nothing. -/
theorem holds_bootRecordSize {b : Bootstrap} (h : find? handle eraseSize = .ok (some b))
    (hne : b.offset ≠ bootRecordSize) : handle.Holds bootRecordSize none := by
  obtain ⟨before, after, hprobes, hbefore, -⟩ := search_eq_some h
  rcases before with _ | ⟨probe, before⟩
  · exact absurd (head_probes hprobes) hne
  · obtain rfl := head_probes hprobes
    exact hbefore _ (List.mem_cons_self ..)

end Bootstrap

/-! ## Geometries -/

namespace DetectOptions

variable {o : DetectOptions} {declared : Option Geometry} {g : Geometry}

/-- The erase size of an accepted geometry is the one that was asked for, if any was. -/
theorem eraseSize_of_resolveGeometry {erase : Nat} (h : o.resolveGeometry declared = .ok g)
    (herase : o.eraseSize = some erase) : g.eraseSize = erase := by
  obtain ⟨-, rfl⟩ := resolveGeometry_eq_ok_iff.1 h
  show Sizes.pick o.eraseSize _ _ = erase
  rw [herase, Sizes.pick]

/-- Whole pages of an accepted geometry make up the erase size that the search for a bootstrap goes by. -/
theorem pageSize_dvd_scanEraseSize (h : o.resolveGeometry declared = .ok g) : g.pageSize ∣ o.scanEraseSize := by
  unfold scanEraseSize
  rcases herase : o.eraseSize with _ | erase
  · obtain ⟨_, _, _, _, hlogs⟩ := ofLogs?_of_resolveGeometry h
    obtain ⟨⟨-, hpage, -⟩, rfl⟩ := Geometry.ofLogs?_eq_some_iff.1 hlogs
    simp only [Nat.one_shiftLeft]
    exact Nat.pow_dvd_pow 2 (show _ ≤ 23 by omega)
  · rw [Option.getD_some, ← eraseSize_of_resolveGeometry h herase]
    exact (resolveGeometry_wellFormed h).wholePages

end DetectOptions

/-! ## Relocation -/

namespace Bootstrap

variable {handle : Handle} {options : DetectOptions} {b : Bootstrap} {g : Geometry}

/-- The page of an erase block that a header belongs to which lies at this offset of the device. -/
def pageOf (g : Geometry) (offset : Nat) : Nat :=
  if offset / g.eraseSize = 0 ∧ offset % g.eraseSize = bootRecordSize then 0
  else offset % g.eraseSize / g.pageSize

theorem relocate_eq (hg : g.WellFormed) (b : Bootstrap) :
    b.relocate g = .ok { b with peb := b.offset / g.eraseSize, page := pageOf g b.offset } := by
  have hpeb : quotient b.offset g.eraseSize = .ok (b.offset / g.eraseSize) :=
    quotient_eq_ok.2 ⟨Nat.ne_of_gt hg.eraseSize_pos, rfl⟩
  have hpage : quotient (b.offset % g.eraseSize) g.pageSize = .ok (b.offset % g.eraseSize / g.pageSize) :=
    quotient_eq_ok.2 ⟨Nat.ne_of_gt hg.pageSize_pos, rfl⟩
  unfold relocate pageOf
  simp only [hpeb, hpage]
  split <;> rfl

/-- Relocation keeps the header, and puts it on a page of its erase block. -/
theorem relocate_spec {b' : Bootstrap} (h : b.relocate g = .ok b') (hg : g.WellFormed) :
    b'.header = b.header ∧ b'.page < g.pagesPerPeb := by
  obtain rfl := Except.ok.inj ((relocate_eq hg b).symm.trans h)
  refine ⟨rfl, ?_⟩
  show pageOf g b.offset < g.pagesPerPeb
  unfold pageOf
  split
  · exact hg.pagesPerPeb_pos
  · exact Nat.div_lt_div_of_lt_of_dvd hg.wholePages (Nat.mod_lt _ hg.eraseSize_pos)

/-- A multiple of the page size is where the log that it is relocated to has its header, unless it is the very
start of the device. -/
theorem headerOffset_relocated (hg : g.WellFormed) {offset : Nat} (hne : offset ≠ 0)
    (h : offset = bootRecordSize ∧ bootRecordSize < g.eraseSize ∨ g.pageSize ∣ offset) :
    g.headerOffset (offset / g.eraseSize) (pageOf g offset) = offset := by
  unfold pageOf
  split
  · rename_i hfirst
    have hoffset := Nat.div_add_mod offset g.eraseSize
    rw [hfirst.1, Nat.mul_zero, Nat.zero_add, hfirst.2] at hoffset
    rw [hfirst.1, Geometry.headerOffset_zero, hoffset]
  · rename_i hfirst
    rcases h with ⟨rfl, hlt⟩ | hdvd
    · exact absurd ⟨Nat.div_eq_of_lt hlt, Nat.mod_eq_of_lt hlt⟩ hfirst
    · have hoffset := (Geometry.logOffset_div_mod hg hdvd).2
      rw [Geometry.headerOffset_of_ne, hoffset]
      rintro ⟨hpeb, hpage⟩
      rw [hpeb, hpage] at hoffset
      unfold Geometry.logOffset at hoffset
      omega

/-- Wherever a header is found, a log of any accepted geometry has its header there, or would have if that were
not the start of the device. -/
theorem bootRecordSize_or_dvd (hfind : find? handle options.scanEraseSize = .ok (some b))
    {declared : Option Geometry} (hgeometry : options.resolveGeometry declared = .ok g) :
    b.offset = bootRecordSize ∧ bootRecordSize < g.eraseSize ∨ g.pageSize ∣ b.offset := by
  obtain ⟨_, _, _, _, hlogs⟩ := DetectOptions.ofLogs?_of_resolveGeometry hgeometry
  rcases dvd_of_mem_probes _ (offset_mem_of_search hfind) with hoffset | hdvd
  · rw [hoffset]
    by_cases herase : bootRecordSize < g.eraseSize
    · exact .inl ⟨rfl, herase⟩
    · have hg := Geometry.wellFormed_of_ofLogs? hlogs
      have hpage := Nat.le_of_dvd hg.eraseSize_pos hg.wholePages
      exact .inr (Geometry.dvd_bootRecordSize hlogs (by omega))
  · exact .inr (Nat.dvd_trans (DetectOptions.pageSize_dvd_scanEraseSize hgeometry) hdvd)

theorem headerOffset_ne_zero (hg : g.WellFormed) (peb page : Nat) : g.headerOffset peb page ≠ 0 := by
  have herase := hg.eraseSize_pos
  have hpage := hg.pageSize_pos
  unfold Geometry.headerOffset Geometry.logOffset bootRecordSize
  split
  · omega
  · rename_i hfirst
    intro hzero
    obtain ⟨hblock, hwithin⟩ := Nat.add_eq_zero_iff.1 hzero
    rw [Nat.mul_eq_zero] at hblock hwithin
    omega

/-- The bootstrap header opens the log it is relocated to, whatever geometry is accepted: the log has its header
where the bootstrap was found, and that is the one it is read with. Only at the very start of the device no log has
its header. A bootstrap that was found there is relocated to the first log, and none is read for it. -/
theorem relocate_designates (hfind : find? handle options.scanEraseSize = .ok (some b))
    (hgeometry : options.resolveGeometry b.header.volume.geometry? = .ok g) :
    ∃ located, b.relocate g = .ok located ∧ located.header = b.header ∧ located.offset = b.offset ∧
      located.page < g.pagesPerPeb ∧
      (b.offset ≠ 0 → g.headerOffset located.peb located.page = b.offset ∧
        (Volume.mk handle g).segmentHeader? located.peb located.page = .ok (some b.header)) ∧
      (b.offset = 0 → (∀ peb page, g.headerOffset peb page ≠ b.offset) ∧ located.peb = 0 ∧ located.page = 0 ∧
        (Volume.mk handle g).segmentHeader? 0 0 = .ok none) := by
  have hg := DetectOptions.resolveGeometry_wellFormed hgeometry
  have hlocated := relocate_eq hg b
  obtain ⟨hheader, hpage⟩ := relocate_spec hlocated hg
  refine ⟨_, hlocated, hheader, rfl, hpage, fun hne => ?_, fun hzero => ?_⟩
  · have hoffset := headerOffset_relocated hg hne (bootRecordSize_or_dvd hfind hgeometry)
    obtain ⟨-, -, -, -, hholds⟩ := search_eq_some hfind
    rw [← hoffset] at hholds
    exact ⟨hoffset, Volume.segmentHeader?_of_holds (v := ⟨handle, g⟩) hholds⟩
  · have hholds := holds_bootRecordSize hfind (by rw [hzero]; exact nofun)
    rw [← Geometry.headerOffset_zero g] at hholds
    rw [hzero]
    refine ⟨headerOffset_ne_zero hg, Nat.zero_div _, ?_, Volume.segmentHeader?_of_holds (v := ⟨handle, g⟩) hholds⟩
    show pageOf g 0 = 0
    unfold pageOf
    rw [Nat.zero_mod, Nat.zero_div, if_neg (by unfold bootRecordSize; omega), Nat.zero_div]

/-- A header 8 MiB into a device whose erase blocks are twice as large opens a log in the middle of the first
one. -/
theorem wide_designates : ∃ b located, find? EdgeVolume.wide EdgeVolume.options.scanEraseSize = .ok (some b) ∧
    EdgeVolume.options.resolveGeometry b.header.volume.geometry? = .ok EdgeVolume.wideGeometry ∧
    b.relocate EdgeVolume.wideGeometry = .ok located ∧
    EdgeVolume.wideGeometry.headerOffset located.peb located.page = 8388608 ∧
    (Volume.mk EdgeVolume.wide EdgeVolume.wideGeometry).segmentHeader? located.peb located.page =
      .ok (some b.header) := by
  obtain ⟨-, -, -, -, hfound⟩ := EdgeVolume.outcomes
  obtain ⟨b, hfind, hoffset, hdeclared⟩ := EdgeVolume.exists_bootstrap hfound
  have hgeometry : EdgeVolume.options.resolveGeometry b.header.volume.geometry? =
      .ok EdgeVolume.wideGeometry := by
    rw [hdeclared]
    rfl
  obtain ⟨located, hlocated, -, -, -, hdesignates, -⟩ := relocate_designates hfind hgeometry
  obtain ⟨hheader, hread⟩ := hdesignates (by rw [hoffset]; exact nofun)
  exact ⟨b, located, hfind, hgeometry, hlocated, hheader.trans hoffset, hread⟩

/-- A header at the very start of a device is found, but the log it is relocated to has none. -/
theorem leading_not_designated : ∃ b located,
    find? EdgeVolume.leading.handle EdgeVolume.options.scanEraseSize = .ok (some b) ∧
    EdgeVolume.options.resolveGeometry b.header.volume.geometry? = .ok EdgeVolume.leading.geometry ∧
    b.relocate EdgeVolume.leading.geometry = .ok located ∧
    EdgeVolume.leading.geometry.headerOffset located.peb located.page ≠ b.offset ∧
    EdgeVolume.leading.segmentHeader? located.peb located.page ≠ .ok (some b.header) := by
  obtain ⟨-, -, -, hfound, -⟩ := EdgeVolume.outcomes
  obtain ⟨b, hfind, hoffset, hdeclared⟩ := EdgeVolume.exists_bootstrap hfound
  have hg : EdgeVolume.geometry.WellFormed :=
    Geometry.wellFormed_of_ofLogs? (show Geometry.ofLogs? 9 12 12 0 = some EdgeVolume.geometry by decide)
  have hzero := headerOffset_ne_zero hg 0 0
  have hholds := holds_bootRecordSize hfind (by rw [hoffset]; exact nofun)
  rw [← Geometry.headerOffset_zero EdgeVolume.geometry] at hholds
  have hread := Volume.segmentHeader?_of_holds (v := EdgeVolume.leading) hholds
  refine ⟨b, { b with peb := 0, page := 0 }, hfind, ?_, ?_, ?_, ?_⟩
  · rw [hdeclared]
    rfl
  · show b.relocate EdgeVolume.geometry = _
    rw [relocate_eq hg, hoffset]
    rfl
  · rw [hoffset]
    exact hzero
  · rw [hread]
    exact nofun

end Bootstrap

end FlashVolume
