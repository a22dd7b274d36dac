/-
Detection calculates exactly. On a device of at most 2 ^ 63 bytes, whatever it holds, no step of a detection
run divides by zero or leaves the words of the machine: the run always ends in a report, and what it
calculates comes out in wrapping words as it does in unbounded numbers.
-/
import FlashVolume.Proofs.Arithmetic.Volume
import FlashVolume.Proofs.Check
import FlashVolume.Proofs.Log.Chain

namespace FlashVolume

/-! ## Bootstrap -/

namespace Bootstrap

variable {handle : Handle} {eraseSize : Nat}

theorem lt_of_mem_probesFrom {deviceSize probed offset : Nat} :
    ∀ probe ∈ probesFrom eraseSize deviceSize probed offset, probe < deviceSize := by
  fun_induction probesFrom eraseSize deviceSize probed offset with
  | case1 probed offset hlt next hnext ih => exact List.forall_mem_cons.2 ⟨hlt, ih⟩
  | case2 probed offset hlt hnext => exact List.forall_mem_cons.2 ⟨hlt, List.forall_mem_nil _⟩
  | case3 => exact List.forall_mem_nil _

theorem lt_of_mem_probes {deviceSize : Nat} : ∀ probe ∈ probes eraseSize deviceSize, probe < deviceSize :=
  lt_of_mem_probesFrom

theorem search_noCrash (hsize : handle.size ≤ 2 ^ 63) (herase : eraseSize ≠ 0) {probes : List Nat}
    (h : ∀ probe ∈ probes, probe < handle.size) : NoCrash (search handle eraseSize probes) := by
  refine NoCrash.iff_failsOnly.2 (search_failsOnly fun probe hprobe =>
    ⟨NoCrash.iff_failsOnly.1 (.word64 ?_), NoCrash.iff_failsOnly.1 (.quotient herase), fun _ _ _ _ => ⟨_, rfl⟩⟩)
  have hlt := h probe hprobe
  rw [SegmentHeader.size_format]
  simp only [UInt64.size]
  omega

theorem find?_noCrash (hsize : handle.size ≤ 2 ^ 63) (herase : eraseSize ≠ 0) :
    NoCrash (find? handle eraseSize) :=
  search_noCrash hsize herase lt_of_mem_probes

end Bootstrap

/-! ## Trail -/

/-- The log lies on a page of an erase block whose positions fit in words. -/
structure Volume.FitsLog (v : Volume) (log : FoundLog) : Prop extends v.Fits log.peb where
  page_lt : log.page < v.geometry.pagesPerPeb

namespace Trailhead

/-- Words hold every position on the device, and the bootstrap header lies on it, on a page of the erase
block its offset is in. That block need not be a whole one. -/
structure Addressable (t : Trailhead) : Prop where
  volume : t.volume.Addressable
  offset_lt : t.bootstrap.offset < t.volume.handle.size
  peb_eq : t.bootstrap.peb = t.bootstrap.offset / t.volume.geometry.eraseSize
  grounded : t.Grounded

namespace Addressable

variable {t : Trailhead} (h : t.Addressable)

include h

/-- The bootstrap header was read from the device, so its erase block starts there, if it does not end
there. -/
theorem fits_bootstrap : t.volume.Fits t.bootstrap.peb := by
  refine ⟨h.volume.geometry, ?_⟩
  unfold Geometry.Reaches
  rw [h.peb_eq]
  exact Nat.le_trans (Nat.div_mul_le_self ..) (Nat.le_trans (Nat.le_of_lt h.offset_lt) h.volume.size_le)

theorem fitsLog_of_superblocks {header : VolumeHeader} {createTime : UInt64} {pair : LogPair}
    (hpair : t.superblocks header createTime = .ok pair) : ∀ log ∈ pair.toList, t.volume.FitsLog log := by
  intro log hlog
  obtain ⟨i, hfollow⟩ := exists_of_mem_superblocks hpair log hlog
  obtain ⟨pebs, hpebs, hlt⟩ := Volume.lt_pebsCount_of_followSuperblocks? hfollow
  exact ⟨h.volume.fits hpebs hlt, (Volume.followSuperblocks?_spec hfollow).page_lt⟩

/-- Nothing that the trail looks up crashes. -/
theorem lookupsFailOnly : t.LookupsFailOnly Stop.IsFault where
  blocks := h.volume.blocksFailOnly
  snapshotLog? := by
    unfold Trailhead.snapshotLog?
    split
    · exact (NoCrash.iff_failsOnly.1 (h.fits_bootstrap.walk h.grounded _)).map _
    · exact h.volume.blocksFailOnly.findLast? ..
  mappingCache? hpair log hlog := by
    have hfits := h.fitsLog_of_superblocks hpair log hlog
    unfold Trailhead.mappingCache?
    refine (NoCrash.iff_failsOnly.1 (hfits.cacheArea? hfits.page_lt _)).bind fun area _ => ?_
    split
    · exact .ok _
    · split
      · exact .of_error ⟨_, rfl⟩
      · exact .ok _

theorem steps : ∀ step ∈ Trailhead.steps, ∀ p, NoCrash (step.2 t p).2 := fun step hstep p =>
  NoCrash.iff_failsOnly.2 (h.lookupsFailOnly.steps step hstep p)

end Addressable

end Trailhead

namespace Device

variable {device : Device} {options : DetectOptions} {t : Trailhead}

/-- A run that starts on a device of at most 2 ^ 63 bytes stays where words hold every position. -/
theorem addressable_of_trailhead? (hsize : device.handle.size ≤ 2 ^ 63)
    (h : device.trailhead? options = .ok (some t)) : t.Addressable := by
  obtain ⟨bootstrap, geometry, located, hfind, hgeometry, hlocated, rfl⟩ := trailhead?_eq_some h
  obtain ⟨_, _, _, _, hlogs⟩ := DetectOptions.ofLogs?_of_resolveGeometry hgeometry
  have hg := Geometry.bounded_of_ofLogs? hlogs
  have hpage := (Bootstrap.relocate_spec hlocated hg.toWellFormed).2
  obtain rfl := Except.ok.inj ((Bootstrap.relocate_eq hg.toWellFormed bootstrap).symm.trans hlocated)
  have hoffset : bootstrap.offset < device.handle.size :=
    Bootstrap.lt_of_mem_probes _ (Bootstrap.offset_mem_of_search hfind)
  exact ⟨⟨hg, hsize⟩, hoffset, rfl, hpage⟩

theorem explore_noCrash (h : t.Addressable) : NoCrash (device.explore options t) :=
  NoCrash.iff_failsOnly.2 (explore_failsOnly (h.lookupsFailOnly.follow t.origin)
    (NoCrash.iff_failsOnly.1 h.volume.scan))

theorem tryDetect_noCrash (hsize : device.handle.size ≤ 2 ^ 63) (herase : options.eraseSize ≠ some 0) :
    NoCrash (device.tryDetect options) := by
  have hscan : options.scanEraseSize ≠ 0 := by
    unfold DetectOptions.scanEraseSize
    rcases herased : options.eraseSize with _ | erase
    · exact Nat.succ_ne_zero _
    · rintro rfl
      exact herase herased
  refine NoCrash.iff_failsOnly.2 (tryDetect_failsOnly
    (NoCrash.iff_failsOnly.1 (Bootstrap.find?_noCrash hsize hscan)) (fun _ _ _ => ⟨_, rfl⟩) fun ht => ?_)
  exact NoCrash.iff_failsOnly.1 (explore_noCrash (addressable_of_trailhead? hsize ht))

/-- A run on a device of at most 2 ^ 63 bytes always ends in a report. -/
theorem exists_detect (hsize : device.handle.size ≤ 2 ^ 63) (herase : options.eraseSize ≠ some 0) :
    ∃ d, device.detect options = .ok d := by
  unfold detect
  rcases tryDetect_noCrash hsize herase with ⟨d, h⟩ | ⟨cause, h⟩ <;> rw [h]
  · exact ⟨d, rfl⟩
  · exact ⟨_, rfl⟩

end Device

/-! ## Words -/

namespace Trailhead

/-- Whatever a run calculates behind its trailhead comes out in machine words as it does in unbounded
numbers, or is checked: the place of the bootstrap header, every position on an erase block of the volume or
on that of the bootstrap header, the numbers of logical blocks and the bounds of shards. A number of a
logical block that does not fit in a word is not looked up. -/
structure Exact (t : Trailhead) (pebs workers : Nat) : Prop where
  geometry : t.volume.geometry.Bounded
  bootstrapPeb : (t.bootstrap.offset.toUInt64 / t.volume.geometry.eraseSize.toUInt64).toNat =
    t.bootstrap.peb
  bootstrapWithin : (t.bootstrap.offset.toUInt64 % t.volume.geometry.eraseSize.toUInt64).toNat =
    t.bootstrap.offset % t.volume.geometry.eraseSize
  position : ∀ peb page, peb < pebs ∨ peb = t.bootstrap.peb → page < t.volume.geometry.pagesPerPeb →
    t.volume.geometry.Exact peb page
  segmentLeb : ∀ index segment leb,
    segmentLeb? t.volume.geometry.pebsPerSegment index segment = some leb → leb < UInt64.size →
      (segment * t.volume.geometry.pebsPerSegment.toUInt64 + index.toUInt64).toNat = leb
  extentLeb : ∀ offset extent leb, extentLeb? offset extent = some leb → leb < UInt64.size →
    (extent.start + offset.toUInt64).toNat = leb
  skipped : ∀ point cache kind leb, UInt64.size ≤ leb →
    t.optionalLog? point cache kind (some leb) = .ok none
  shard : ∀ shard ∈ Shard.partition pebs (max workers 1), shard.start < shard.stop ∧ shard.stop ≤ pebs

theorem Addressable.exact {t : Trailhead} (h : t.Addressable) {pebs : Nat}
    (hpebs : t.volume.pebsCount = .ok pebs) (workers : Nat) : t.Exact pebs workers := by
  have hg := h.volume.geometry
  have hoffset : t.bootstrap.offset.toUInt64.toNat = t.bootstrap.offset :=
    UInt64.toNat_ofNat_of_lt (Nat.lt_of_lt_of_le h.offset_lt (Nat.le_trans h.volume.size_le (by decide)))
  have herase : t.volume.geometry.eraseSize.toUInt64.toNat = t.volume.geometry.eraseSize :=
    UInt64.toNat_ofNat_of_lt (Nat.lt_of_le_of_lt hg.eraseSize_le (by decide))
  refine ⟨hg, ?_, ?_, fun peb page hpeb hpage => ?_, fun index segment leb hleb hlt => ?_,
    fun offset extent leb hleb hlt => ?_, fun point cache kind leb hle => if_neg (Nat.not_lt.2 hle),
    fun _ => Shard.stop_le_of_mem_partition⟩
  · rw [UInt64.toNat_div, hoffset, herase, h.peb_eq]
  · rw [UInt64.toNat_mod, hoffset, herase]
  · have hfits : t.volume.Fits peb := by
      rcases hpeb with hlt | rfl
      · exact h.volume.fits hpebs hlt
      · exact h.fits_bootstrap
    exact hg.exact hfits.reaches hpage
  · unfold segmentLeb? at hleb
    split at hleb <;> cases hleb
    rw [← UInt64.toNat_ofNat_of_lt' hlt, UInt64.ofNat_add, UInt64.ofNat_mul, UInt64.ofNat_toNat]
  · unfold extentLeb? at hleb
    split at hleb <;> cases hleb
    rw [← UInt64.toNat_ofNat_of_lt' hlt, UInt64.ofNat_add, UInt64.ofNat_toNat]

end Trailhead

namespace Device

variable {device : Device} {options : DetectOptions} {d : Detection}

/-- Detection calculates exactly on every device of at most 2 ^ 63 bytes. The run ends in a report, so none of
its operations divides by zero or leaves the words. -/
theorem detect_exact (hsize : device.handle.size ≤ 2 ^ 63) (herase : options.eraseSize ≠ some 0) :
    (∃ d, device.detect options = .ok d) ∧
      (∀ offset ∈ Bootstrap.probes options.scanEraseSize device.handle.size,
        (offset.toUInt64 + SegmentHeader.format.size.toUInt64).toNat =
          offset + SegmentHeader.format.size) ∧
      ∀ t, device.trailhead? options = .ok (some t) →
        ∃ pebs, t.volume.pebsCount = .ok pebs ∧ t.Exact pebs options.workers ∧
          (∀ step ∈ Trailhead.steps, ∀ point, NoCrash (step.2 t point).2) ∧
          ∀ w, t.volume.forCensus device.reopened options.workers = .ok w →
            ∀ peb < pebs, NoCrash (w.scanPeb peb) := by
  refine ⟨exists_detect hsize herase, fun offset hoffset => ?_, fun t ht => ?_⟩
  · have := Bootstrap.lt_of_mem_probes offset hoffset
    rw [SegmentHeader.size_format]
    simp only [Nat.toUInt64_eq, ← UInt64.ofNat_add]
    refine UInt64.toNat_ofNat_of_lt ?_
    simp only [UInt64.size]
    omega
  · have h := addressable_of_trailhead? hsize ht
    have hpebs : t.volume.pebsCount = .ok (t.volume.handle.size / t.volume.geometry.eraseSize) :=
      Volume.pebsCount_eq_ok.2 ⟨Nat.ne_of_gt h.volume.geometry.eraseSize_pos, rfl⟩
    exact ⟨_, hpebs, h.exact hpebs options.workers, h.steps, fun w hw peb hlt =>
      (h.volume.fits_forCensus hw hpebs hlt).scanPeb⟩

/-- On a whole volume the run has a trailhead, and calculates exactly behind it. -/
theorem whole_exact : CompactVolume.whole.device.handle.size ≤ 2 ^ 63 ∧
    Config.default.detectOptions.eraseSize ≠ some 0 ∧
    ∃ t pebs, CompactVolume.whole.device.trailhead? Config.default.detectOptions = .ok (some t) ∧
      t.volume.pebsCount = .ok pebs ∧ t.Exact pebs Config.default.detectOptions.workers := by
  have hsize : CompactVolume.whole.device.handle.size ≤ 2 ^ 63 := by
    rw [CompactVolume.device_eq]
    exact (show 7 * 2048 ≤ 2 ^ 63 by decide)
  have herase : Config.default.detectOptions.eraseSize ≠ some 0 := nofun
  refine ⟨hsize, herase, ?_⟩
  obtain ⟨d, report, h, hclean, -⟩ := CompactVolume.exists_check CompactVolume.outcome_whole
  obtain ⟨hdetect, hcheck⟩ := detect_of_check h
  have hstate := Detection.state_of_check_clean hcheck (by rw [hclean]; rfl)
  obtain ⟨t, ht, -⟩ := explore_of_found hdetect (.inl hstate)
  obtain ⟨pebs, hpebs, hexact, -⟩ := (detect_exact hsize herase).2.2 t ht
  exact ⟨t, pebs, ht, hpebs, hexact⟩

end Device

end FlashVolume
