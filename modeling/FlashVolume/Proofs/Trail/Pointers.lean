/-
Following the pointers of a volume header. It declares the segment bitmap and the mapping table as logical blocks,
and the mapping cache takes these to physical ones. A step records one pair for each logical block that is
declared, and an instance is in its pair exactly if it is located. The structure is found if it is declared and
every part of it has an instance somewhere. Nothing the header says of copies matters unless it says that there
are copies.
-/
import FlashVolume.Proofs.Image.Compact
import FlashVolume.Proofs.Trail.Declared

namespace FlashVolume

/-! ## What is declared -/

namespace BitmapInfo

/-- The ids of the segments of the segment bitmap. -/
def declared (info : BitmapInfo) : List (Duplex UInt64) := info.segments.toList.take info.segmentsCount.toNat

/-- The erase blocks of the segments, segment by segment: the ids of the segment, and the index in it. -/
def places (info : BitmapInfo) (pebsPerSegment : Nat) : List (Duplex UInt64 × Nat) :=
  info.declared.flatMap fun segments => (List.range pebsPerSegment).map (segments, ·)

/-- An instance of an erase block of a segment is this logical block: the segment has an id, and a copy of its own
if it is the copy. -/
def Names (info : BitmapInfo) (pebsPerSegment : Nat) (place : Duplex UInt64 × Nat) (i : Instance) (leb : Nat) :
    Prop :=
  (i = .copy → info.hasCopy) ∧ place.1.get i ≠ unusedId ∧
    leb = (place.1.get i).toNat * pebsPerSegment + place.2

/-- Two that have no copies and declare the same, whatever they say of copies. -/
structure MainAlike (info other : BitmapInfo) : Prop where
  noCopy : info.hasCopy = false
  otherNoCopy : other.hasCopy = false
  segmentsCount : other.segmentsCount = info.segmentsCount
  main : other.segments.toList.map (·.main) = info.segments.toList.map (·.main)

theorem length_places {header : VolumeHeader} (h : header.DeclaresBitmap) (pebsPerSegment : Nat) :
    (header.segmentBitmap.places pebsPerSegment).length =
      header.segmentBitmap.segmentsCount.toNat * pebsPerSegment := by
  have hlength := @Trailhead.length_bitmapLebs header pebsPerSegment h
  rw [Trailhead.bitmapLebs, List.length_map] at hlength
  unfold places declared
  simp only [List.length_flatMap, List.length_map, List.length_range, List.map_const', List.sum_replicate_nat,
    hlength]

end BitmapInfo

namespace MappingInfo

/-- The logical blocks of the mapping table, extent by extent: the extent and the offset in it. The main extent
decides how many there are, but never more than there are erase blocks. -/
def places (info : MappingInfo) (pebs : Nat) : List (Duplex MappingExtent × Nat) :=
  info.extents.toList.flatMap fun extents =>
    (List.range (min extents.main.length.toNat pebs)).map (extents, ·)

/-- An instance at an offset of an extent is this logical block: the extent of that instance is long enough, and
there is a copy if it is the copy. -/
def Names (info : MappingInfo) (place : Duplex MappingExtent × Nat) (i : Instance) (leb : Nat) : Prop :=
  (i = .copy → info.hasCopy) ∧ place.2 < (place.1.get i).length.toNat ∧
    leb = (place.1.get i).start.toNat + place.2

/-- Two that have no copies and declare the same, whatever they say of copies. -/
structure MainAlike (info other : MappingInfo) : Prop where
  noCopy : info.hasCopy = false
  otherNoCopy : other.hasCopy = false
  main : other.extents.toList.map (·.main) = info.extents.toList.map (·.main)

end MappingInfo

/-- The point with another superblock. -/
def CreationPoint.withSuperblock (p : CreationPoint) (pair : LogPair) : CreationPoint :=
  { p with superblock := pair }

namespace Trailhead

variable {t : Trailhead} {p q : CreationPoint} {cache : MappingCache} {kind : SegmentKind} {search : Search}

/-! ## The segment bitmap -/

/-- The logical blocks of both instances of an erase block of the segment bitmap. -/
def segmentLebs (pebsPerSegment : Nat) (place : Duplex UInt64 × Nat) : Duplex (Option Nat) :=
  ⟨segmentLeb? pebsPerSegment place.2 place.1.main, segmentLeb? pebsPerSegment place.2 place.1.copy⟩

theorem segmentLeb?_eq_some {pebsPerSegment index leb : Nat} {segment : UInt64} :
    segmentLeb? pebsPerSegment index segment = some leb ↔
      segment ≠ unusedId ∧ leb = segment.toNat * pebsPerSegment + index := by
  unfold segmentLeb?
  split
  · rename_i hunused
    exact iff_of_false nofun fun h => h.1 hunused
  · rename_i hused
    rw [Option.some.injEq, eq_comm, and_iff_right hused]

theorem asked_segmentLebs (info : BitmapInfo) (pebsPerSegment : Nat) (place : Duplex UInt64 × Nat) :
    (fun i leb => (asked info.hasCopy (segmentLebs pebsPerSegment place)).get i = some leb) =
      info.Names pebsPerSegment place := by
  funext i leb
  unfold BitmapInfo.Names
  rw [← segmentLeb?_eq_some]
  cases i <;> cases info.hasCopy <;> simp [asked, segmentLebs, Duplex.get]

theorem flatten_bitmapLebs (info : BitmapInfo) (pebsPerSegment : Nat) :
    (bitmapLebs info pebsPerSegment).flatten = (info.places pebsPerSegment).map (segmentLebs pebsPerSegment) := by
  unfold bitmapLebs BitmapInfo.places BitmapInfo.declared
  rw [← List.flatMap_def, List.map_flatMap]
  simp only [List.map_map, Function.comp_def, segmentLebs]

theorem exists_mem_bitmapLebs {info : BitmapInfo} {pebsPerSegment : Nat} :
    (∀ group ∈ bitmapLebs info pebsPerSegment, ∃ lebs ∈ group,
        t.HasInstance p cache kind fun i leb => (asked info.hasCopy lebs).get i = some leb) ↔
      ∀ segments ∈ info.declared, ∃ index < pebsPerSegment,
        t.HasInstance p cache kind (info.Names pebsPerSegment (segments, index)) := by
  unfold bitmapLebs
  rw [List.forall_mem_map]
  simp only [List.mem_map, List.mem_range, exists_exists_and_eq_and, ← asked_segmentLebs]
  rfl

/-- What the step that looks for the segment bitmap makes of a point with a mapping cache: it finds the bitmap if
the header declares it and every segment has an instance of one of its erase blocks, and it records a pair for each
of them, which holds what is located. -/
structure FollowsBitmap (t : Trailhead) (header : VolumeHeader) (cache : MappingCache) (p q : CreationPoint)
    (search : Search) : Prop where
  found_iff : search = .found ↔ header.DeclaresBitmap ∧
    ∀ segments ∈ header.segmentBitmap.declared, ∃ index < t.volume.geometry.pebsPerSegment,
      t.HasInstance p cache .segmentBitmap
        (header.segmentBitmap.Names t.volume.geometry.pebsPerSegment (segments, index))
  inventory : q.found = if search = .found then p.found.union (.ofKind .segmentBitmap) else p.found
  pairs : header.DeclaresBitmap → List.Forall₂
    (fun place pair =>
      t.Records p cache .segmentBitmap (header.segmentBitmap.Names t.volume.geometry.pebsPerSegment place) pair)
    (header.segmentBitmap.places t.volume.geometry.pebsPerSegment) q.segmentBitmap
  length : header.DeclaresBitmap →
    q.segmentBitmap.length = header.segmentBitmap.segmentsCount.toNat * t.volume.geometry.pebsPerSegment
  undeclared : ¬ header.DeclaresBitmap → q.segmentBitmap = p.segmentBitmap
  frame : q = { p with found := q.found, segmentBitmap := q.segmentBitmap }

theorem findSegmentBitmap_follows {header : VolumeHeader} (hheader : p.volumeHeader? = some header)
    (hcache : p.cache = some cache) (h : t.findSegmentBitmap p = (q, .ok search)) :
    t.FollowsBitmap header cache p q search := by
  rcases findSegmentBitmap_cases h with ⟨rfl, rfl, hnone⟩ |
    ⟨header', cache', groups, hheader', hcache', hdeclared, hgroups, hq⟩
  · have hnot : ¬ header.DeclaresBitmap := hnone header hheader (by rw [hcache]; rfl)
    have hsearch : ¬ Search.notFound = .found := by decide
    exact ⟨iff_of_false hsearch fun h => hnot h.1, rfl, fun h => absurd h hnot, fun h => absurd h hnot,
      fun _ => rfl, rfl⟩
  cases hheader.symm.trans hheader'
  cases hcache.symm.trans hcache'
  have hpresent := (allPresent_iff hgroups).trans exists_mem_bitmapLebs
  have hpairs := List.rel_flatten (groupPairs_records hgroups)
  rw [flatten_bitmapLebs, List.forall₂_map_left_iff] at hpairs
  simp only [asked_segmentLebs] at hpairs
  have hlength := hpairs.length_eq.symm.trans (BitmapInfo.length_places hdeclared _)
  rcases hq with ⟨rfl, rfl, hall⟩ | ⟨rfl, rfl, hall⟩
  · rw [hall] at hpresent
    have hsearch : ¬ Search.notFound = .found := by decide
    exact ⟨iff_of_false hsearch fun h => Bool.false_ne_true (hpresent.2 h.2), rfl, fun _ => hpairs,
      fun _ => hlength, fun h => absurd hdeclared h, rfl⟩
  · exact ⟨iff_of_true rfl ⟨hdeclared, hpresent.1 hall⟩, rfl, fun _ => hpairs, fun _ => hlength,
      fun h => absurd hdeclared h, rfl⟩

/-- The step only fails where an erase block of the bitmap cannot be looked up, and leaves the point as it is. -/
theorem findSegmentBitmap_unread {header : VolumeHeader} {stop : Stop} (hheader : p.volumeHeader? = some header)
    (hcache : p.cache = some cache) (h : t.findSegmentBitmap p = (q, .error stop)) :
    q = p ∧ ∃ place ∈ header.segmentBitmap.places t.volume.geometry.pebsPerSegment, ∃ i, t.Unread cache
      .segmentBitmap (header.segmentBitmap.Names t.volume.geometry.pebsPerSegment place i) stop := by
  unfold findSegmentBitmap at h
  simp only [hheader, hcache] at h
  split at h
  · rcases hgroups : t.groupPairs p cache .segmentBitmap header.segmentBitmap.hasCopy
      (bitmapLebs header.segmentBitmap t.volume.geometry.pebsPerSegment) with cause | groups <;>
      simp only [hgroups] at h
    · cases h
      obtain ⟨pair, hpair, i, hunread⟩ := unread_of_groupPairs hgroups
      rw [flatten_bitmapLebs] at hpair
      obtain ⟨place, hplace, rfl⟩ := List.mem_map.1 hpair
      refine ⟨rfl, place, hplace, i, ?_⟩
      rw [← asked_segmentLebs]
      exact hunread
    · split at h <;> cases h
  · cases h

/-! ## The mapping table -/

theorem extentLeb?_eq_some {offset leb : Nat} {extent : MappingExtent} :
    extentLeb? offset extent = some leb ↔ offset < extent.length.toNat ∧ leb = extent.start.toNat + offset := by
  unfold extentLeb?
  split
  · rename_i hlt
    rw [Option.some.injEq, eq_comm, and_iff_right hlt]
  · rename_i hle
    exact iff_of_false nofun fun h => hle h.1

theorem asked_extentLebs (info : MappingInfo) (place : Duplex MappingExtent × Nat) :
    (fun i leb => (asked info.hasCopy (extentLebs place)).get i = some leb) = info.Names place := by
  funext i leb
  unfold MappingInfo.Names
  rw [← extentLeb?_eq_some]
  cases i <;> cases info.hasCopy <;> simp [asked, extentLebs, Duplex.get]

theorem flatten_tableLebs (info : MappingInfo) (pebs : Nat) :
    (tableLebs info pebs).flatten = (info.places pebs).map extentLebs := by
  unfold tableLebs MappingInfo.places
  rw [List.flatten_filter_not_isEmpty, ← List.flatMap_def, List.map_flatMap]
  simp only [List.map_map, Function.comp_def, extentLebs]

/-- The groups of logical blocks are those of the extents that are not empty. A volume without erase blocks has no
group, and no instance either. -/
theorem exists_mem_tableLebs {header : VolumeHeader} {pebs : Nat} :
    (tableLebs header.mappingTable pebs ≠ [] ∧
        ∀ group ∈ tableLebs header.mappingTable pebs, ∃ lebs ∈ group,
          t.HasInstance p cache kind fun i leb => (asked header.mappingTable.hasCopy lebs).get i = some leb) ↔
      header.DeclaresTable ∧ ∀ extents ∈ header.mappingTable.extents.toList, extents.main.length ≠ 0 →
        ∃ offset < min extents.main.length.toNat pebs,
          t.HasInstance p cache kind (header.mappingTable.Names (extents, offset)) := by
  have hinstance (extents : Duplex MappingExtent) (length : Nat) :
      (∃ lebs ∈ (List.range length).map fun offset => extentLebs (extents, offset),
          t.HasInstance p cache kind fun i leb => (asked header.mappingTable.hasCopy lebs).get i = some leb) ↔
        ∃ offset < length, t.HasInstance p cache kind (header.mappingTable.Names (extents, offset)) := by
    simp only [List.mem_map, List.mem_range, exists_exists_and_eq_and, ← asked_extentLebs]
  constructor
  · rintro ⟨hne, hall⟩
    obtain ⟨group, hgroup⟩ := List.exists_mem_of_ne_nil _ hne
    obtain ⟨some, hsome, hpos, -⟩ := mem_tableLebs.1 hgroup
    obtain ⟨hmain, hpebs⟩ := Nat.lt_min.1 hpos
    refine ⟨⟨some, hsome, toNat_pos_iff.1 hmain⟩, fun extents hextents hmain => ?_⟩
    have hpos : 0 < min extents.main.length.toNat pebs := Nat.lt_min.2 ⟨toNat_pos_iff.2 hmain, hpebs⟩
    exact (hinstance ..).1 (hall _ (mem_tableLebs.2 ⟨extents, hextents, hpos, rfl⟩))
  · rintro ⟨⟨some, hsome, hmain⟩, hall⟩
    obtain ⟨offset, hlt, -⟩ := hall some hsome hmain
    have hpos := Nat.lt_of_le_of_lt (Nat.zero_le _) hlt
    refine ⟨List.ne_nil_of_mem (mem_tableLebs.2 ⟨some, hsome, hpos, rfl⟩), fun group hgroup => ?_⟩
    obtain ⟨extents, hextents, hpos, rfl⟩ := mem_tableLebs.1 hgroup
    exact (hinstance ..).2 (hall extents hextents (toNat_pos_iff.1 (Nat.lt_min.1 hpos).1))

/-- What the step that looks for the mapping table makes of a point with a mapping cache, on a volume of `pebs`
erase blocks: it finds the table if the header declares an extent and every extent that is not empty has an instance
of one of its logical blocks, and it records a pair for each of them, which holds what is located. -/
structure FollowsTable (t : Trailhead) (header : VolumeHeader) (cache : MappingCache) (pebs : Nat)
    (p q : CreationPoint) (search : Search) : Prop where
  found_iff : search = .found ↔ header.DeclaresTable ∧
    ∀ extents ∈ header.mappingTable.extents.toList, extents.main.length ≠ 0 →
      ∃ offset < min extents.main.length.toNat pebs,
        t.HasInstance p cache .mappingTable (header.mappingTable.Names (extents, offset))
  inventory : q.found = if search = .found then p.found.union (.ofKind .mappingTable) else p.found
  pairs : List.Forall₂ (fun place pair => t.Records p cache .mappingTable (header.mappingTable.Names place) pair)
    (header.mappingTable.places pebs) q.mappingTable
  frame : q = { p with found := q.found, mappingTable := q.mappingTable }

theorem findMappingTable_follows {header : VolumeHeader} (hheader : p.volumeHeader? = some header)
    (hcache : p.cache = some cache) (h : t.findMappingTable p = (q, .ok search)) :
    ∃ pebs, t.volume.pebsCount = .ok pebs ∧ t.FollowsTable header cache pebs p q search := by
  rcases findMappingTable_cases h with ⟨-, -, hnone | hnone⟩ |
    ⟨header', cache', pebs, groups, hheader', hcache', hpebs, hgroups, hq⟩
  · cases hheader.symm.trans hnone
  · cases hcache.symm.trans hnone
  cases hheader.symm.trans hheader'
  cases hcache.symm.trans hcache'
  have hpresent := (isEmpty_allPresent_iff hgroups).trans exists_mem_tableLebs
  have hpairs := List.rel_flatten (groupPairs_records hgroups)
  rw [flatten_tableLebs, List.forall₂_map_left_iff] at hpairs
  simp only [asked_extentLebs] at hpairs
  refine ⟨pebs, hpebs, ?_⟩
  rcases hq with ⟨rfl, rfl, hall⟩ | ⟨rfl, rfl, hall⟩
  · rw [hall] at hpresent
    have hsearch : ¬ Search.notFound = .found := by decide
    exact ⟨iff_of_false hsearch fun h => Bool.false_ne_true (hpresent.2 h), rfl, hpairs, rfl⟩
  · exact ⟨iff_of_true rfl (hpresent.1 hall), rfl, hpairs, rfl⟩

/-- The step only fails where a logical block of the table cannot be looked up, or where erase blocks cannot be
counted, and leaves the point as it is. -/
theorem findMappingTable_unread {header : VolumeHeader} {stop : Stop} (hheader : p.volumeHeader? = some header)
    (hcache : p.cache = some cache) (h : t.findMappingTable p = (q, .error stop)) :
    q = p ∧ (t.volume.pebsCount = .error stop ∨ ∃ pebs, t.volume.pebsCount = .ok pebs ∧
      ∃ place ∈ header.mappingTable.places pebs, ∃ i,
        t.Unread cache .mappingTable (header.mappingTable.Names place i) stop) := by
  unfold findMappingTable at h
  simp only [hheader, hcache] at h
  rcases hpairs : t.volume.pebsCount.bind fun pebs =>
      t.groupPairs p cache .mappingTable header.mappingTable.hasCopy
        (tableLebs header.mappingTable pebs) with cause | groups <;> simp only [hpairs] at h
  · cases h
    rcases Outcome.bind_eq_error.1 hpairs with hpebs | ⟨pebs, hpebs, hgroups⟩
    · exact ⟨rfl, .inl hpebs⟩
    obtain ⟨pair, hpair, i, hunread⟩ := unread_of_groupPairs hgroups
    rw [flatten_tableLebs] at hpair
    obtain ⟨place, hplace, rfl⟩ := List.mem_map.1 hpair
    refine ⟨rfl, .inr ⟨pebs, hpebs, place, hplace, i, ?_⟩⟩
    rw [← asked_extentLebs]
    exact hunread
  · split at h <;> cases h

/-! ## Copies -/

section Copies

variable {header other : VolumeHeader} {pair : LogPair}

/-- Where there are no copies the pairs depend on the logical blocks of the main instances only. -/
theorem groupPairs_noCopy {lebs others : List (List (Duplex (Option Nat)))}
    (h : others.map (·.map (·.main)) = lebs.map (·.map (·.main))) :
    t.groupPairs p cache kind false others = t.groupPairs p cache kind false lebs := by
  have hmain (lebs : List (List (Duplex (Option Nat)))) : t.groupPairs p cache kind false lebs =
      (lebs.map (·.map (·.main))).mapM (·.mapM fun leb => t.lebPair p cache kind false ⟨leb, none⟩) := by
    unfold groupPairs
    rw [List.mapM_map]
    simp only [Function.comp_def, List.mapM_map]
    rfl
  rw [hmain, hmain, h]

theorem main_bitmapLebs (h : header.segmentBitmap.MainAlike other.segmentBitmap) (pebsPerSegment : Nat) :
    (bitmapLebs other.segmentBitmap pebsPerSegment).map (·.map (·.main)) =
      (bitmapLebs header.segmentBitmap pebsPerSegment).map (·.map (·.main)) := by
  have hmain (info : BitmapInfo) : (bitmapLebs info pebsPerSegment).map (·.map (·.main)) =
      ((info.segments.toList.map (·.main)).take info.segmentsCount.toNat).map fun segment =>
        (List.range pebsPerSegment).map (segmentLeb? pebsPerSegment · segment) := by
    simp only [bitmapLebs, ← List.map_take, List.map_map, Function.comp_def]
  rw [hmain, hmain, h.main, h.segmentsCount]

theorem main_tableLebs (h : header.mappingTable.MainAlike other.mappingTable) (pebs : Nat) :
    (tableLebs other.mappingTable pebs).map (·.map (·.main)) =
      (tableLebs header.mappingTable pebs).map (·.map (·.main)) := by
  have hmain (info : MappingInfo) : (tableLebs info pebs).map (·.map (·.main)) =
      ((info.extents.toList.map (·.main)).map fun extent =>
        (List.range (min extent.length.toNat pebs)).map (extentLeb? · extent)).filter (!·.isEmpty) := by
    simp only [tableLebs, List.filter_map, List.map_map, Function.comp_def, List.isEmpty_map]
  rw [hmain, hmain, h.main]

/-- The steps look at a superblock for its volume header only. -/
theorem groupPairs_withSuperblock (lebs : List (List (Duplex (Option Nat)))) :
    t.groupPairs (p.withSuperblock pair) cache kind hasCopy lebs = t.groupPairs p cache kind hasCopy lebs := rfl

theorem findSegmentBitmap_mainAlike (hheader : p.volumeHeader? = some header)
    (hother : (p.withSuperblock pair).volumeHeader? = some other) (hcache : p.cache = some cache)
    (h : header.segmentBitmap.MainAlike other.segmentBitmap) :
    t.findSegmentBitmap (p.withSuperblock pair) =
      ((t.findSegmentBitmap p).1.withSuperblock pair, (t.findSegmentBitmap p).2) := by
  unfold findSegmentBitmap
  rw [hheader, hother, hcache, show (p.withSuperblock pair).cache = some cache from hcache]
  simp only [h.noCopy, h.otherNoCopy, h.segmentsCount, groupPairs_withSuperblock,
    groupPairs_noCopy (main_bitmapLebs h t.volume.geometry.pebsPerSegment)]
  split
  · rcases t.groupPairs p cache .segmentBitmap false
      (bitmapLebs header.segmentBitmap t.volume.geometry.pebsPerSegment) with stop | pairs
    · rfl
    · simp only
      split <;> rfl
  · rfl

theorem findMappingTable_mainAlike (hheader : p.volumeHeader? = some header)
    (hother : (p.withSuperblock pair).volumeHeader? = some other) (hcache : p.cache = some cache)
    (h : header.mappingTable.MainAlike other.mappingTable) :
    t.findMappingTable (p.withSuperblock pair) =
      ((t.findMappingTable p).1.withSuperblock pair, (t.findMappingTable p).2) := by
  have hsame : (fun pebs => t.groupPairs p cache .mappingTable false (tableLebs other.mappingTable pebs)) =
      fun pebs => t.groupPairs p cache .mappingTable false (tableLebs header.mappingTable pebs) :=
    funext fun pebs => groupPairs_noCopy (main_tableLebs h pebs)
  unfold findMappingTable
  rw [hheader, hother, hcache, show (p.withSuperblock pair).cache = some cache from hcache]
  simp only [h.noCopy, h.otherNoCopy, groupPairs_withSuperblock, hsame]
  rcases t.volume.pebsCount.bind fun pebs =>
      t.groupPairs p cache .mappingTable false (tableLebs header.mappingTable pebs) with stop | pairs
  · rfl
  · simp only
    split <;> rfl

end Copies

/-! ## Both steps -/

/-- The steps that follow the pointers of the volume header through the mapping cache find exactly what is declared:
each of them finds its structure and marks it as found just if every declared part of it is located, and records
what is located in the order of the declaration. A step fails only where a declared logical block leads to an erase
block that cannot be read. And without copies, it goes the same way whatever the header says of copies. -/
theorem pointers_followed (t : Trailhead) {p : CreationPoint} {header : VolumeHeader} {cache : MappingCache}
    (hheader : p.volumeHeader? = some header) (hcache : p.cache = some cache) :
    (∀ q search, t.findSegmentBitmap p = (q, .ok search) → t.FollowsBitmap header cache p q search) ∧
      (∀ q search, t.findMappingTable p = (q, .ok search) →
        ∃ pebs, t.volume.pebsCount = .ok pebs ∧ t.FollowsTable header cache pebs p q search) ∧
      (∀ q stop, t.findSegmentBitmap p = (q, .error stop) →
        q = p ∧ ∃ place ∈ header.segmentBitmap.places t.volume.geometry.pebsPerSegment, ∃ i, t.Unread cache
          .segmentBitmap (header.segmentBitmap.Names t.volume.geometry.pebsPerSegment place i) stop) ∧
      (∀ q stop, t.findMappingTable p = (q, .error stop) →
        q = p ∧ (t.volume.pebsCount = .error stop ∨ ∃ pebs, t.volume.pebsCount = .ok pebs ∧
          ∃ place ∈ header.mappingTable.places pebs, ∃ i,
            t.Unread cache .mappingTable (header.mappingTable.Names place i) stop)) ∧
      ∀ pair other, (p.withSuperblock pair).volumeHeader? = some other →
        (header.segmentBitmap.MainAlike other.segmentBitmap →
            t.findSegmentBitmap (p.withSuperblock pair) =
              ((t.findSegmentBitmap p).1.withSuperblock pair, (t.findSegmentBitmap p).2)) ∧
          (header.mappingTable.MainAlike other.mappingTable →
            t.findMappingTable (p.withSuperblock pair) =
              ((t.findMappingTable p).1.withSuperblock pair, (t.findMappingTable p).2)) :=
  ⟨fun _ _ => findSegmentBitmap_follows hheader hcache, fun _ _ => findMappingTable_follows hheader hcache,
    fun _ _ => findSegmentBitmap_unread hheader hcache, fun _ _ => findMappingTable_unread hheader hcache,
    fun _ _ hother => ⟨findSegmentBitmap_mainAlike hheader hother hcache,
      findMappingTable_mainAlike hheader hother hcache⟩⟩

end Trailhead

namespace CompactVolume

/-- The trail on the whole volume. -/
def trailhead : Trailhead :=
  ⟨⟨whole.device.handle, geometry⟩, ⟨1024, 0, 0, whole.segment .initialSnapshot⟩⟩

/-- What is cached: each logical block is in the physical one of the same number. -/
def cache : MappingCache := ⟨[⟨0, 3, 6, [⟨3, 3⟩, ⟨4, 4⟩, ⟨5, 5⟩, ⟨6, 6⟩]⟩]⟩

/-- The point that the trail has come to once the superblock in block 1 is found. -/
def cached : CreationPoint :=
  { CreationPoint.fresh 7 with
    superblock := ⟨some ⟨1, 0, .ofSegment whole.superblock, none, whole.superblock⟩, none⟩
    cache := some cache }

/-- How both steps end from there. -/
def searches : Option (Search × Search) := do
  let bitmap ← (trailhead.findSegmentBitmap cached).2.toOption
  let table ← (trailhead.findMappingTable cached).2.toOption
  return (bitmap, table)

set_option maxRecDepth 100000 in
theorem searches_eq : searches = some (.found, .found) := by
  unfold searches trailhead
  rw [device_eq]
  decide +kernel

/-- Both structures are found, and the pair of the only erase block of the bitmap is recorded. -/
theorem cached_followed : ∃ q q',
    cached.volumeHeader? = some whole.superblock.volume ∧ cached.cache = some cache ∧
      trailhead.findSegmentBitmap cached = (q, .ok .found) ∧
      q.found = cached.found.union (.ofKind .segmentBitmap) ∧ q.segmentBitmap.length = 1 ∧
      trailhead.FollowsBitmap whole.superblock.volume cache cached q .found ∧
      trailhead.findMappingTable cached = (q', .ok .found) ∧
      q'.found = cached.found.union (.ofKind .mappingTable) ∧
      ∃ pebs, trailhead.FollowsTable whole.superblock.volume cache pebs cached q' .found := by
  have hheader : cached.volumeHeader? = some whole.superblock.volume := rfl
  have hcache : cached.cache = some cache := rfl
  have hsearches := searches_eq
  simp only [searches, Option.bind_eq_bind, Option.bind_eq_some_iff, Option.pure_def, Option.some.injEq,
    Prod.mk.injEq, Outcome.toOption_eq_some] at hsearches
  obtain ⟨_, hbitmap, _, htable, rfl, rfl⟩ := hsearches
  have hends (result : StepResult) (h : result.2 = .ok .found) : ∃ q, result = (q, .ok .found) :=
    ⟨result.1, Prod.ext rfl h⟩
  obtain ⟨q, hbitmap⟩ := hends _ hbitmap
  obtain ⟨q', htable⟩ := hends _ htable
  obtain ⟨hfollows, hfollows', -⟩ := trailhead.pointers_followed hheader hcache
  have hfirst := hfollows _ _ hbitmap
  obtain ⟨pebs, -, hsecond⟩ := hfollows' _ _ htable
  have hdeclared : whole.superblock.volume.DeclaresBitmap := by
    refine ⟨?_, ?_⟩ <;> decide
  have hlength := (hfirst.length hdeclared).trans (show _ = 1 by decide)
  have hmarked := hfirst.inventory
  have hmarked' := hsecond.inventory
  rw [if_pos rfl] at hmarked hmarked'
  exact ⟨q, q', hheader, hcache, hbitmap, hmarked, hlength, hfirst, htable, hmarked', pebs, hsecond⟩

end CompactVolume

end FlashVolume
