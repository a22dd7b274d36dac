/-
Detection on images that end too soon. The search for a header and the census only read what the image has room for,
and every segment that the trail looks up lies in an erase block that is all there; only the erase block in which the
search found a header need not be. So a run fails at a read just where that header is one of an initial snapshot, and
the image ends before the footer of a log in that erase block does.
-/
import FlashVolume.Proofs.Arithmetic.Detection
import FlashVolume.Proofs.Image.Edge
import FlashVolume.Proofs.MappingCache.Untrusted
import FlashVolume.Proofs.Volume.Delivery

namespace FlashVolume

variable {bytes : ByteArray}

/-! ## Operations that do not read past the end -/

namespace MappingCache

variable {area : List UInt8} {offset index : Nat} {header : CacheHeader} {fault : Fault}

/-- What is wrong with a fragment is not that it cannot be read. -/
theorem Defect.Shows.not_isRead {defect : Defect} (h : defect.Shows area offset index header fault) :
    ¬ (Stop.fault fault).IsRead := by
  rintro ⟨peb, at', cause, hread⟩
  cases hread
  cases defect with
  | surplus | misnumbered | reversed | overrun | lzo => cases h.2
  | undecodable =>
    obtain ⟨_, -, -, hfault⟩ := h
    cases hfault
  | missized =>
    obtain ⟨_, -, -, -, hfault⟩ := h
    cases hfault

theorem FirstDefect.exists_shows {defects : List Defect} (h : FirstDefect area offset index header fault defects) :
    ∃ defect : Defect, defect.Shows area offset index header fault := by
  induction h with
  | here hshows => exact ⟨_, hshows⟩
  | later _ _ ih => exact ih

theorem not_isRead_of_parse (h : parse area = .error fault) : ¬ (Stop.fault fault).IsRead := by
  obtain ⟨found, rest, hfinds⟩ := exists_finds area 0 0 (Nat.zero_le 16)
  unfold parse at h
  rcases hparse : parseFrom area 0 0 with cause | fragments <;> rw [hparse] at h
  · cases h
    have hends := hfinds.ends
    rw [hparse] at hends
    obtain ⟨_, _, -, -, hfirst⟩ := hends
    obtain ⟨defect, hshows⟩ := hfirst.exists_shows
    exact hshows.not_isRead
  · cases h

end MappingCache

namespace DetectOptions

theorem not_isRead_of_exactLog {what : String} {value : Nat} {cause : Fault} (h : exactLog what value = .error cause) :
    ¬ (Stop.fault cause).IsRead := by
  unfold exactLog at h
  split at h <;> cases h
  nofun

theorem not_isRead_of_resolveGeometry {o : DetectOptions} {declared : Option Geometry} {cause : Fault}
    (h : o.resolveGeometry declared = .error cause) : ¬ (Stop.fault cause).IsRead := by
  unfold resolveGeometry at h
  rcases Outcome.bind_eq_error.1 h with h | ⟨logPage, -, h⟩
  · exact not_isRead_of_exactLog h
  rcases Outcome.bind_eq_error.1 h with h | ⟨logErase, -, h⟩
  · exact not_isRead_of_exactLog h
  rcases Outcome.bind_eq_error.1 h with h | ⟨logSegment, -, h⟩
  · exact not_isRead_of_exactLog h
  simp only at h
  split at h
  · split at h <;> cases h
    nofun
  · cases h
    nofun

end DetectOptions

namespace Bootstrap

/-- A header is only looked for where the device has room for it. -/
theorem search_delivers (eraseSize : Nat) (probes : List Nat) : Delivers (search (.ofBytes bytes) eraseSize probes) :=
  search_failsOnly fun probe _ => ⟨Delivers.word64 _, Delivers.quotient _ _, fun peb cause hroom hread => by
    have hdelivered : (Handle.ofBytes bytes).read probe SegmentHeader.format.size = .ok _ := if_pos hroom
    cases hread.symm.trans hdelivered⟩

end Bootstrap

/-! ## The trail -/

namespace Trailhead

/-- The trail is followed in memory, from a header that lies there. -/
structure InMemory (t : Trailhead) (bytes : ByteArray) : Prop extends t.Addressable where
  handle : t.volume.handle = .ofBytes bytes

namespace InMemory

variable {t : Trailhead} {peb offset : Nat} {cause : ReadError} (h : t.InMemory bytes)

include h

theorem inMemory : t.volume.InMemory bytes := { h.volume with handle := h.handle }

/-- The mapping cache of a superblock that was found can be read. -/
theorem mappingCache? {header : VolumeHeader} {createTime : UInt64} {pair : LogPair}
    (hpair : t.superblocks header createTime = .ok pair) : ∀ log ∈ pair.toList, Delivers (t.mappingCache? log) := by
  intro log hlog
  obtain ⟨i, hfollow⟩ := exists_of_mem_superblocks hpair log hlog
  obtain ⟨pebs, hpebs, hlt⟩ := Volume.lt_pebsCount_of_followSuperblocks? hfollow
  have hpage := (Volume.followSuperblocks?_spec hfollow).page_lt
  unfold Trailhead.mappingCache?
  refine (h.inMemory.cacheArea? (Volume.hasWhole_of_lt hpebs hlt) hpage _).bind fun found _ => ?_
  rcases found with _ | area <;> simp only
  · exact .ok _
  rcases hparse : MappingCache.parse area with fault | cache <;> simp only
  · exact .of_error (MappingCache.not_isRead_of_parse hparse)
  · exact .ok _

theorem lookupsFailOnly (hsnapshot : Delivers t.snapshotLog?) : t.LookupsFailOnly (¬ ·.IsRead) where
  blocks := h.inMemory.blocksFailOnly
  snapshotLog? := hsnapshot
  mappingCache? := h.mappingCache?

/-- The initial snapshot is looked for in an erase block of the volume, unless the trail starts from it. -/
theorem snapshotLog?_eq_read_iff : t.snapshotLog? = .error (.fault (.read peb offset cause)) ↔
    t.bootstrap.header.kind? = some .initialSnapshot ∧
      (peb = t.bootstrap.peb ∧ cause = .pastEnd offset LogFooter.format.size bytes.size) ∧
      t.volume.WalkCut t.bootstrap.peb t.bootstrap.page t.bootstrap.header offset := by
  rw [← h.inMemory.walk_eq_read_iff h.fits_bootstrap h.grounded]
  unfold Trailhead.snapshotLog?
  split
  · rename_i hkind
    rw [and_iff_right hkind, Outcome.map_eq_error]
  · rename_i hkind
    refine iff_of_false (fun hread => ?_) fun hwalk => hkind hwalk.1
    exact (h.inMemory.blocksFailOnly.findLast? ..).of_eq_error _ hread ⟨_, _, _, rfl⟩

/-- The trail fails at a read only on the way to the initial snapshot. -/
theorem follow_eq_read_iff (p : CreationPoint) : (t.follow p).2 = .error (.fault (.read peb offset cause)) ↔
    t.snapshotLog? = .error (.fault (.read peb offset cause)) := by
  rcases hsnapshot : t.snapshotLog? with stop | log
  · have hfollow : t.follow p = (p, .error stop) := by
      unfold Trailhead.follow Trailhead.steps Trailhead.followSteps Trailhead.findSnapshot
      simp only [hsnapshot]
    rw [hfollow, Except.error.injEq, Except.error.injEq]
  · have hdelivers := h.lookupsFailOnly (by rw [hsnapshot]; exact .ok _)
    refine iff_of_false (fun hread => ?_) (fun hread => ?_)
    · exact (hdelivers.follow p).of_eq_error _ hread ⟨_, _, _, rfl⟩
    · cases hread

end InMemory

end Trailhead

/-! ## The whole run -/

namespace Device

variable {device : Device} {options : DetectOptions} {t : Trailhead}

/-- A run explores the volume from its trailhead. -/
theorem tryDetect_of_trailhead? (h : device.trailhead? options = .ok (some t)) :
    device.tryDetect options = device.explore options t := by
  obtain ⟨bootstrap, geometry, located, hfind, hgeometry, hlocated, rfl⟩ := trailhead?_eq_some h
  unfold tryDetect
  simp only [hfind, hgeometry, hlocated]

/-- A fault becomes a report. -/
theorem detect_of_fault {cause : Fault} (h : device.tryDetect options = .error (.fault cause)) :
    device.detect options = .ok (.ofFault cause) := by
  unfold detect
  rw [h]

/-- An exploration stops where its trail does. -/
theorem explore_of_follow_error {stop : Stop} (h : (t.follow t.origin).2 = .error stop) :
    device.explore options t = .error stop := by
  unfold Trailhead.origin at h
  unfold explore
  simp only
  split
  · rename_i stop' htrail
    rw [htrail] at h
    exact congrArg _ (Except.error.inj h)
  · rename_i htrail
    rw [htrail] at h
    cases h

theorem inMemory_of_trailhead? (hsize : bytes.size ≤ 2 ^ 63)
    (h : (Device.ofBytes bytes).trailhead? options = .ok (some t)) : t.InMemory bytes :=
  { addressable_of_trailhead? hsize h with handle := handle_of_trailhead? h }

/-- Every census reads what the run reads. -/
theorem scan_delivers (h : t.volume.InMemory bytes) :
    Delivers (t.volume.scan (Device.ofBytes bytes).reopened options.workers) := by
  refine Volume.scan_failsOnly h.blocksFailOnly.pebsCount nofun fun hw hpebs hlt => ?_
  have halike : (Device.ofBytes bytes).ReopensAlike := ⟨_, rfl, rfl, fun _ _ => rfl⟩
  rw [Volume.forCensus_alike halike h.handle hw]
  exact h.blocksFailOnly.header hpebs hlt

/-- A run fails at a read only on the way to the initial snapshot. -/
theorem tryDetect_eq_read_iff_snapshotLog? (hsize : bytes.size ≤ 2 ^ 63) {peb offset : Nat} {cause : ReadError} :
    (Device.ofBytes bytes).tryDetect options = .error (.fault (.read peb offset cause)) ↔
      ∃ t, (Device.ofBytes bytes).trailhead? options = .ok (some t) ∧
        t.snapshotLog? = .error (.fault (.read peb offset cause)) := by
  constructor
  · -- A read that stops the run stops the search for the snapshot: all else delivers.
    let Snapshot (stop : Stop) : Prop := stop.IsRead →
      ∃ t, (Device.ofBytes bytes).trailhead? options = .ok (some t) ∧ t.snapshotLog? = .error stop
    have hdelivers {α : Type} {x : Outcome α} (hx : Delivers x) : Outcome.FailsOnly Snapshot x :=
      hx.mono fun stop hstop hread => absurd hread hstop
    have hexplore {t : Trailhead} (ht : (Device.ofBytes bytes).trailhead? options = .ok (some t)) :
        Outcome.FailsOnly Snapshot ((Device.ofBytes bytes).explore options t) := by
      have h := inMemory_of_trailhead? hsize ht
      refine explore_failsOnly ⟨fun stop hstop => ?_⟩ (hdelivers (scan_delivers h.inMemory))
      rintro ⟨peb, offset, cause, rfl⟩
      exact ⟨t, ht, (h.follow_eq_read_iff _).1 hstop⟩
    have hrun : Outcome.FailsOnly Snapshot ((Device.ofBytes bytes).tryDetect options) :=
      tryDetect_failsOnly (hdelivers (Bootstrap.search_delivers ..))
        (fun _ _ h hread => absurd hread (DetectOptions.not_isRead_of_resolveGeometry h)) hexplore
    exact fun h => hrun.of_eq_error _ h ⟨_, _, _, rfl⟩
  · rintro ⟨t, ht, hsnapshot⟩
    have hfollow := ((inMemory_of_trailhead? hsize ht).follow_eq_read_iff t.origin).2 hsnapshot
    rw [tryDetect_of_trailhead? ht]
    exact explore_of_follow_error hfollow

/-- A run over an image in memory fails at a read exactly if its trail starts from a header of an initial snapshot, and
the walk over the logs behind that header comes to a footer that the image does not hold to its end. So it never does
where that erase block is all there. (More than 2 ^ 63 bytes do not lie in memory.) -/
theorem tryDetect_eq_read_iff (hsize : bytes.size ≤ 2 ^ 63) (options : DetectOptions) :
    (∀ peb offset cause, (Device.ofBytes bytes).tryDetect options = .error (.fault (.read peb offset cause)) ↔
      ∃ t, (Device.ofBytes bytes).trailhead? options = .ok (some t) ∧
        t.bootstrap.header.kind? = some .initialSnapshot ∧
        (peb = t.bootstrap.peb ∧ cause = .pastEnd offset LogFooter.format.size bytes.size) ∧
        t.volume.WalkCut t.bootstrap.peb t.bootstrap.page t.bootstrap.header offset) ∧
      ∀ t, (Device.ofBytes bytes).trailhead? options = .ok (some t) →
        (t.bootstrap.header.kind? = some .initialSnapshot → t.volume.HasWhole t.bootstrap.peb) →
        Delivers ((Device.ofBytes bytes).tryDetect options) := by
  refine ⟨fun peb offset cause => ?_, fun t ht hwhole => ⟨fun stop hstop => ?_⟩⟩
  · rw [tryDetect_eq_read_iff_snapshotLog? hsize]
    refine exists_congr fun t => and_congr_right fun ht => ?_
    exact (inMemory_of_trailhead? hsize ht).snapshotLog?_eq_read_iff
  · rintro ⟨peb, offset, cause, rfl⟩
    obtain ⟨t', ht', hsnapshot⟩ := (tryDetect_eq_read_iff_snapshotLog? hsize).1 hstop
    obtain rfl : t = t' := Option.some.inj (Except.ok.inj (ht.symm.trans ht'))
    have h := inMemory_of_trailhead? hsize ht
    obtain ⟨hkind, hcut⟩ := h.snapshotLog?_eq_read_iff.1 hsnapshot
    have hwalk := (h.inMemory.walk_eq_read_iff h.fits_bootstrap h.grounded).2 hcut
    exact (h.inMemory.walk (hwhole hkind) h.grounded _).of_eq_error _ hwalk ⟨_, _, _, rfl⟩

open EdgeVolume (cut)

/-- On an image that ends within the erase block of its snapshot, the footer is what cannot be read. -/
theorem cut_footer : cut.handle.size ≤ 2 ^ 63 ∧ ∃ t, cut.trailhead? EdgeVolume.options = .ok (some t) ∧
    t.bootstrap.header.kind? = some .initialSnapshot ∧
    t.volume.WalkCut t.bootstrap.peb t.bootstrap.page t.bootstrap.header 2048 := by
  obtain ⟨-, -, hfailure, -⟩ := EdgeVolume.outcomes
  have hsize : (ByteArray.mk EdgeVolume.cutBytes.toArray).size ≤ 2 ^ 63 := by
    show EdgeVolume.cutBytes.toArray.size ≤ _
    rw [List.size_toArray, EdgeVolume.length_cutBytes]
    decide
  obtain ⟨t, ht, hkind, -, hcut⟩ :=
    ((tryDetect_eq_read_iff hsize EdgeVolume.options).1 0 2048 _).1 (EdgeVolume.tryDetect_of_failure hfailure)
  exact ⟨hsize, t, ht, hkind, hcut⟩

/-- Detection fails at a read on an image that ends too soon. -/
theorem cut_unread : cut.tryDetect EdgeVolume.options = .error (.fault (.read 0 2048 (.pastEnd 2048 768 2048))) ∧
    cut.detect EdgeVolume.options = .ok (.ofFault (.read 0 2048 (.pastEnd 2048 768 2048))) := by
  obtain ⟨-, -, hfailure, -⟩ := EdgeVolume.outcomes
  have hfault := EdgeVolume.tryDetect_of_failure hfailure
  exact ⟨hfault, detect_of_fault hfault⟩

end Device

end FlashVolume
