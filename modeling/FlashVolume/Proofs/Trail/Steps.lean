/-
What each step of the trail does to a creation point. A step keeps the point or puts logs on it, and
the logs belong to the volume of the point.
-/
import FlashVolume.Proofs.CreationPoint
import FlashVolume.Proofs.Trail.Located

namespace FlashVolume

/-! ## Where the trail starts -/

/-- The volume header declares a number of bitmap segments a volume may have. -/
def VolumeHeader.DeclaresBitmap (header : VolumeHeader) : Prop :=
  1 ≤ header.segmentBitmap.segmentsCount.toNat ∧ header.segmentBitmap.segmentsCount.toNat ≤ 4

/-- The volume header declares an extent of the mapping table that is not empty. -/
def VolumeHeader.DeclaresTable (header : VolumeHeader) : Prop :=
  ∃ extents ∈ header.mappingTable.extents.toList, extents.main.length ≠ 0

namespace Trailhead

variable {t : Trailhead} {p q : CreationPoint} {search : Search}

/-- The bootstrap header is on a page of its erase block. -/
def Grounded (t : Trailhead) : Prop := t.bootstrap.page < t.volume.geometry.pagesPerPeb

/-! ## Logs the steps look for -/

theorem snapshotLog?_spec {log : FoundLog} (h : t.snapshotLog? = .ok (some log)) (ht : t.Grounded) :
    log.Belongs log.createTime .initialSnapshot t.volume.geometry.pagesPerPeb := by
  unfold snapshotLog? at h
  split at h
  · rename_i hkind
    obtain ⟨last, hw, hlast⟩ := Outcome.map_eq_ok.1 h
    cases hlast
    have hb := Volume.belongs_of_walk hw ht hkind
    rw [hb.header]
    exact hb
  · exact Volume.findLast?_spec h

theorem superblocks_eq_ok {header : VolumeHeader} {createTime : UInt64} {pair : LogPair} :
    t.superblocks header createTime = .ok pair ↔
      t.volume.followSuperblocks? header .main createTime = .ok pair.main ∧
        t.volume.followSuperblocks? header .copy createTime = .ok pair.copy :=
  Duplex.bind_eq_ok

/-- Each log of the pair is the end of a chain of superblocks. -/
theorem exists_of_mem_superblocks {header : VolumeHeader} {createTime : UInt64} {pair : LogPair}
    (h : t.superblocks header createTime = .ok pair) :
    ∀ log ∈ pair.toList, ∃ i, t.volume.followSuperblocks? header i createTime = .ok (some log) := by
  obtain ⟨hmain, hcopy⟩ := superblocks_eq_ok.1 h
  apply Duplex.forall_mem_toList
  · intro log hlog
    exact ⟨_, hmain.trans (congrArg _ hlog)⟩
  · intro log hlog
    exact ⟨_, hcopy.trans (congrArg _ hlog)⟩

theorem superblocks_spec {header : VolumeHeader} {createTime : UInt64} {pair : LogPair}
    (h : t.superblocks header createTime = .ok pair) :
    ∀ log ∈ pair.toList, log.Belongs createTime .superblock t.volume.geometry.pagesPerPeb := by
  intro log hlog
  obtain ⟨i, hfollow⟩ := exists_of_mem_superblocks h log hlog
  exact Volume.followSuperblocks?_spec hfollow

theorem length_bitmapLebs {header : VolumeHeader} {pebsPerSegment : Nat} (h : header.DeclaresBitmap) :
    (bitmapLebs header.segmentBitmap pebsPerSegment).length =
      header.segmentBitmap.segmentsCount.toNat := by
  unfold bitmapLebs
  rw [List.length_map, List.length_take, Vector.length_toList]
  exact Nat.min_eq_left h.2

/-! ## What a step does -/

theorem findSnapshot_cases (h : t.findSnapshot p = (q, .ok search)) :
    q = p ∧ search = .notFound ∨
      ∃ log, t.snapshotLog? = .ok (some log) ∧ log.createTime = p.createTime ∧
        q = { p with
          found := p.found.union (.ofKind .initialSnapshot)
          baseSnapshot := some log } ∧
        search = .found := by
  unfold findSnapshot at h
  rcases hlog : t.snapshotLog? with stop | found <;> simp only [hlog] at h
  · cases h
  rcases hsame : sameVolume found p with _ | log <;> rw [hsame] at h <;> cases h
  · exact .inl ⟨rfl, rfl⟩
  · obtain ⟨rfl, htime⟩ := sameVolume_eq_some.1 hsame
    exact .inr ⟨log, rfl, htime, rfl, rfl⟩

theorem findCache_cases (h : t.findCache p = (q, .ok search)) :
    q = p ∧ search = .notFound ∨
      ∃ cache, q = { p with cache := some cache } ∧ search = .found := by
  unfold findCache at h
  rcases hlog : p.latestSuperblock? with _ | log <;> simp only [hlog] at h
  · cases h
    exact .inl ⟨rfl, rfl⟩
  rcases hcache : t.mappingCache? log with stop | _ | cache <;> rw [hcache] at h <;> cases h
  · exact .inl ⟨rfl, rfl⟩
  · exact .inr ⟨cache, rfl, rfl⟩

theorem findSuperblock_cases (h : t.findSuperblock p = (q, .ok search)) :
    q = p ∧ search = .notFound ∨
      ∃ base pair, p.baseSnapshot = some base ∧
        t.superblocks base.segment.volume p.createTime = .ok pair ∧ pair.isPresent ∧
        t.findCache { p with
          found := p.found.union (.ofKind .superblock)
          superblock := pair } = (q, .ok search) := by
  unfold findSuperblock at h
  rcases hbase : p.baseSnapshot with _ | base <;> simp only [hbase] at h
  · cases h
    exact .inl ⟨rfl, rfl⟩
  rcases hpair : t.superblocks base.segment.volume p.createTime with stop | pair <;>
    simp only [hpair] at h
  · cases h
  split at h
  · rename_i hpresent
    exact .inr ⟨base, pair, rfl, hpair, hpresent, h⟩
  · cases h
    exact .inl ⟨rfl, rfl⟩

/-- A superblock step finds its structure exactly if it finds a mapping cache. -/
theorem findSuperblock_cached (h : t.findSuperblock p = (q, .ok search)) (hnone : p.cache = none) :
    search = .notFound ∧ q.cache = none ∨
      search = .found ∧ ∃ base pair cache, p.baseSnapshot = some base ∧
        t.superblocks base.segment.volume p.createTime = .ok pair ∧ pair.isPresent ∧
        q = { p with
          found := p.found.union (.ofKind .superblock)
          superblock := pair
          cache := some cache } := by
  rcases findSuperblock_cases h with ⟨rfl, rfl⟩ | ⟨base, pair, hbase, hpair, hpresent, hfind⟩
  · exact .inl ⟨rfl, hnone⟩
  rcases findCache_cases hfind with ⟨rfl, rfl⟩ | ⟨cache, rfl, rfl⟩
  · exact .inl ⟨rfl, hnone⟩
  · exact .inr ⟨rfl, base, pair, cache, hbase, hpair, hpresent, rfl⟩

theorem findSegmentBitmap_cases (h : t.findSegmentBitmap p = (q, .ok search)) :
    (q = p ∧ search = .notFound ∧
        ∀ header, p.volumeHeader? = some header → p.cache.isSome → ¬ header.DeclaresBitmap) ∨
      ∃ header cache groups, p.volumeHeader? = some header ∧ p.cache = some cache ∧
        header.DeclaresBitmap ∧
        t.groupPairs p cache .segmentBitmap header.segmentBitmap.hasCopy
          (bitmapLebs header.segmentBitmap t.volume.geometry.pebsPerSegment) = .ok groups ∧
        (q = { p with segmentBitmap := groups.flatten } ∧ search = .notFound ∧
            allPresent groups = false ∨
          q = { p with
            found := p.found.union (.ofKind .segmentBitmap)
            segmentBitmap := groups.flatten } ∧
            search = .found ∧ allPresent groups = true) := by
  unfold findSegmentBitmap at h
  rcases hheader : p.volumeHeader? with _ | header <;> simp only [hheader] at h
  · cases h
    exact .inl ⟨rfl, rfl, fun _ h => by cases h⟩
  rcases hcache : p.cache with _ | cache <;> simp only [hcache] at h
  · cases h
    exact .inl ⟨rfl, rfl, fun _ _ h => by cases h⟩
  split at h
  · rename_i hcount
    rcases hgroups : t.groupPairs p cache .segmentBitmap header.segmentBitmap.hasCopy
      (bitmapLebs header.segmentBitmap t.volume.geometry.pebsPerSegment) with stop | groups <;>
      simp only [hgroups] at h
    · cases h
    refine .inr ⟨header, cache, groups, rfl, rfl, hcount, hgroups, ?_⟩
    rcases hall : allPresent groups with _ | _ <;> rw [hall] at h <;> cases h
    · exact .inl ⟨rfl, rfl, rfl⟩
    · exact .inr ⟨rfl, rfl, rfl⟩
  · rename_i hcount
    cases h
    exact .inl ⟨rfl, rfl, fun _ h _ => by cases h; exact hcount⟩

theorem findSegmentBitmap_frame (h : t.findSegmentBitmap p = (q, .ok search)) :
    q = { p with found := q.found, segmentBitmap := q.segmentBitmap } := by
  rcases findSegmentBitmap_cases h with ⟨rfl, -⟩ | ⟨_, _, _, -, -, -, -, ⟨rfl, -⟩ | ⟨rfl, -⟩⟩ <;> rfl

theorem findMappingTable_cases (h : t.findMappingTable p = (q, .ok search)) :
    (q = p ∧ search = .notFound ∧ (p.volumeHeader? = none ∨ p.cache = none)) ∨
      ∃ header cache pebs groups, p.volumeHeader? = some header ∧ p.cache = some cache ∧
        t.volume.pebsCount = .ok pebs ∧
        t.groupPairs p cache .mappingTable header.mappingTable.hasCopy
          (tableLebs header.mappingTable pebs) = .ok groups ∧
        (q = { p with mappingTable := groups.flatten } ∧ search = .notFound ∧
            (!groups.isEmpty && allPresent groups) = false ∨
          q = { p with
            found := p.found.union (.ofKind .mappingTable)
            mappingTable := groups.flatten } ∧
            search = .found ∧ (!groups.isEmpty && allPresent groups) = true) := by
  unfold findMappingTable at h
  rcases hheader : p.volumeHeader? with _ | header <;> simp only [hheader] at h
  · cases h
    exact .inl ⟨rfl, rfl, .inl rfl⟩
  rcases hcache : p.cache with _ | cache <;> simp only [hcache] at h
  · cases h
    exact .inl ⟨rfl, rfl, .inr rfl⟩
  rcases hpairs : t.volume.pebsCount.bind fun pebs =>
      t.groupPairs p cache .mappingTable header.mappingTable.hasCopy
        (tableLebs header.mappingTable pebs) with stop | groups <;> simp only [hpairs] at h
  · cases h
  obtain ⟨pebs, hpebs, hgroups⟩ := Outcome.bind_eq_ok.1 hpairs
  refine .inr ⟨header, cache, pebs, groups, rfl, rfl, hpebs, hgroups, ?_⟩
  rcases hall : !groups.isEmpty && allPresent groups with _ | _ <;> rw [hall] at h <;> cases h
  · exact .inl ⟨rfl, rfl, rfl⟩
  · exact .inr ⟨rfl, rfl, rfl⟩

theorem findMappingTable_frame (h : t.findMappingTable p = (q, .ok search)) :
    q = { p with found := q.found, mappingTable := q.mappingTable } := by
  rcases findMappingTable_cases h with ⟨rfl, -⟩ | ⟨_, _, _, _, -, -, -, -, ⟨rfl, -⟩ | ⟨rfl, -⟩⟩ <;> rfl

/-! ## Several steps -/

theorem followSteps_cons {name : String} {step : Trailhead → CreationPoint → StepResult}
    {rest : List (String × (Trailhead → CreationPoint → StepResult))} :
    t.followSteps p ((name, step) :: rest) = (q, .ok search) ↔
      step t p = (q, .ok .notFound) ∧ search = .notFound ∨
        ∃ next, step t p = (next, .ok .found) ∧ t.followSteps next rest = (q, .ok search) := by
  rcases hstep : step t p with ⟨next, stop | _ | _⟩ <;> simp [followSteps, hstep, eq_comm]

end Trailhead

end FlashVolume
