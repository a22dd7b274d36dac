/-
How far the trail gets. Once a mapping cache is found, what the volume header declares decides whether
there are pairs of logs for the segment bitmap and for the mapping table.
-/
import FlashVolume.Proofs.Trail.Steps

namespace FlashVolume.Trailhead

variable {t : Trailhead} {p q : CreationPoint} {search : Search}

/-! ## Logical blocks and pairs -/

section Groups

variable {lebs : List (List (Duplex (Option Nat)))} {groups : List (List LogPair)}

/-- Groups with a pair for each pair of logical blocks have a pair if there is a logical block. -/
theorem flatten_ne_nil_iff (h : Paired lebs groups)
    (hlebs : ∀ group ∈ lebs, group ≠ []) : groups.flatten ≠ [] ↔ lebs ≠ [] := by
  cases h with
  | nil => exact iff_of_false (fun h => h rfl) (fun h => h rfl)
  | @cons group pairs lebs groups hlength hrest =>
    refine iff_of_true ?_ (List.cons_ne_nil _ _)
    have hpos := List.length_pos_iff.2 (hlebs group (List.mem_cons_self ..))
    rw [hlength, List.length_pos_iff] at hpos
    rw [List.flatten_cons]
    exact List.append_ne_nil_of_left_ne_nil hpos _

theorem allPresent_of_forall
    (h : Paired lebs groups)
    (hlebs : ∀ group ∈ lebs, group ≠ []) (hall : ∀ pair ∈ groups.flatten, pair.isPresent) :
    allPresent groups = true := by
  induction h with
  | nil => rfl
  | @cons group pairs lebs groups hlength hrest ih =>
    have hpos := List.length_pos_iff.2 (hlebs group (List.mem_cons_self ..))
    rw [hlength, List.length_pos_iff] at hpos
    obtain ⟨pair, hpair⟩ := List.exists_mem_of_ne_nil _ hpos
    rw [List.flatten_cons] at hall
    unfold allPresent
    rw [List.all_cons, Bool.and_eq_true]
    exact ⟨List.any_eq_true.2 ⟨pair, hpair, hall pair (List.mem_append_left _ hpair)⟩,
      ih (fun group hgroup => hlebs group (List.mem_cons_of_mem _ hgroup))
        (fun pair hpair => hall pair (List.mem_append_right _ hpair))⟩

end Groups

theorem bitmapLebs_group_ne_nil {info : BitmapInfo} {pebsPerSegment : Nat} (hpos : 0 < pebsPerSegment) :
    ∀ group ∈ bitmapLebs info pebsPerSegment, group ≠ [] := by
  intro group hgroup
  obtain ⟨segments, -, rfl⟩ := List.mem_map.1 hgroup
  rw [← List.length_pos_iff, List.length_map, List.length_range]
  exact hpos

/-- The logical blocks of both instances at an offset of an extent. -/
def extentLebs (place : Duplex MappingExtent × Nat) : Duplex (Option Nat) :=
  ⟨extentLeb? place.2 place.1.main, extentLeb? place.2 place.1.copy⟩

theorem toNat_pos_iff {n : UInt16} : 0 < n.toNat ↔ n ≠ 0 :=
  UInt16.lt_iff_toNat_lt.symm.trans UInt16.pos_iff_ne_zero

/-- There is a group for each extent that is not empty. -/
theorem mem_tableLebs {info : MappingInfo} {pebs : Nat} {group : List (Duplex (Option Nat))} :
    group ∈ tableLebs info pebs ↔ ∃ extents ∈ info.extents.toList, 0 < min extents.main.length.toNat pebs ∧
      (List.range (min extents.main.length.toNat pebs)).map (fun offset => extentLebs (extents, offset)) =
        group := by
  unfold tableLebs
  rw [List.mem_filter, List.mem_map]
  constructor
  · rintro ⟨⟨extents, hextents, rfl⟩, hne⟩
    rw [Bool.not_eq_true', List.isEmpty_eq_false_iff, ← List.length_pos_iff, List.length_map,
      List.length_range] at hne
    exact ⟨extents, hextents, hne, rfl⟩
  · rintro ⟨extents, hextents, hpos, rfl⟩
    refine ⟨⟨extents, hextents, rfl⟩, ?_⟩
    rw [Bool.not_eq_true', List.isEmpty_eq_false_iff, ← List.length_pos_iff, List.length_map, List.length_range]
    exact hpos

theorem tableLebs_group_ne_nil {info : MappingInfo} {pebs : Nat} :
    ∀ group ∈ tableLebs info pebs, group ≠ [] := by
  intro group hgroup
  obtain ⟨extents, -, hpos, rfl⟩ := mem_tableLebs.1 hgroup
  rw [← List.length_pos_iff, List.length_map, List.length_range]
  exact hpos

/-- There are logical blocks of the mapping table if some extent is not empty. -/
theorem tableLebs_ne_nil_iff {header : VolumeHeader} {pebs : Nat} (hpebs : 0 < pebs) :
    tableLebs header.mappingTable pebs ≠ [] ↔ header.DeclaresTable := by
  constructor
  · intro h
    obtain ⟨group, hgroup⟩ := List.exists_mem_of_ne_nil _ h
    obtain ⟨extents, hextents, hpos, -⟩ := mem_tableLebs.1 hgroup
    exact ⟨extents, hextents, toNat_pos_iff.1 (Nat.lt_min.1 hpos).1⟩
  · rintro ⟨extents, hextents, hne⟩
    have hpos := Nat.lt_min.2 ⟨toNat_pos_iff.2 hne, hpebs⟩
    exact List.ne_nil_of_mem (mem_tableLebs.2 ⟨extents, hextents, hpos, rfl⟩)

theorem findSegmentBitmap_declared {header : VolumeHeader}
    (h : t.findSegmentBitmap p = (q, .ok search)) (hheader : p.volumeHeader? = some header)
    (hcache : p.cache.isSome) (hnil : p.segmentBitmap = [])
    (hpos : 0 < t.volume.geometry.pebsPerSegment) :
    (q.segmentBitmap ≠ [] ↔ header.DeclaresBitmap) ∧
      ((∀ pair ∈ q.segmentBitmap, pair.isPresent) → (search = .found ↔ header.DeclaresBitmap)) := by
  rcases findSegmentBitmap_cases h with ⟨rfl, rfl, hnone⟩ | ⟨header', cache, groups, hheader', -, hcount, hgroups, hq⟩
  · have hnone := hnone header hheader hcache
    rw [hnil]
    exact ⟨iff_of_false (fun h => h rfl) hnone, fun _ => iff_of_false nofun hnone⟩
  · cases hheader.symm.trans hheader'
    have hlength := (groupPairs_spec hgroups).1
    have hne : bitmapLebs header.segmentBitmap t.volume.geometry.pebsPerSegment ≠ [] := by
      rw [← List.length_pos_iff, length_bitmapLebs hcount]
      exact hcount.1
    have hflat := (flatten_ne_nil_iff hlength (bitmapLebs_group_ne_nil hpos)).2 hne
    have hpresent := allPresent_of_forall hlength (bitmapLebs_group_ne_nil hpos)
    rcases hq with ⟨rfl, rfl, hall⟩ | ⟨rfl, rfl, -⟩
    · refine ⟨iff_of_true hflat hcount, fun h => ?_⟩
      rw [hpresent h] at hall
      cases hall
    · exact ⟨iff_of_true hflat hcount, fun _ => iff_of_true rfl hcount⟩

theorem findMappingTable_declared {header : VolumeHeader} {pebs : Nat}
    (h : t.findMappingTable p = (q, .ok search)) (hheader : p.volumeHeader? = some header)
    (hcache : p.cache.isSome) (hpebs : t.volume.pebsCount = .ok pebs) (hpos : 0 < pebs) :
    q.mappingTable ≠ [] ↔ header.DeclaresTable := by
  rcases findMappingTable_cases h with ⟨-, -, hnone | hnone⟩ |
    ⟨header', cache, pebs', groups, hheader', -, hpebs', hgroups, hq⟩
  · cases hheader.symm.trans hnone
  · rw [hnone] at hcache
    cases hcache
  · cases hheader.symm.trans hheader'
    cases hpebs.symm.trans hpebs'
    have hflat := flatten_ne_nil_iff (groupPairs_spec hgroups).1 tableLebs_group_ne_nil
    rw [tableLebs_ne_nil_iff hpos] at hflat
    rcases hq with ⟨rfl, -⟩ | ⟨rfl, -⟩ <;> exact hflat

/-- A superblock is only found on a volume that has an erase block. -/
theorem pebsCount_pos_of_superblocks {header : VolumeHeader} {createTime : UInt64} {pair : LogPair}
    (h : t.superblocks header createTime = .ok pair) (hpresent : pair.isPresent) :
    ∃ pebs, t.volume.pebsCount = .ok pebs ∧ 0 < pebs := by
  have hfound : ∃ i log, t.volume.followSuperblocks? header i createTime = .ok (some log) := by
    obtain ⟨hmain, hcopy⟩ := superblocks_eq_ok.1 h
    rcases Bool.or_eq_true _ _ |>.mp hpresent with hp | hp
    · obtain ⟨log, hlog⟩ := Option.isSome_iff_exists.1 hp
      exact ⟨.main, log, hlog ▸ hmain⟩
    · obtain ⟨log, hlog⟩ := Option.isSome_iff_exists.1 hp
      exact ⟨.copy, log, hlog ▸ hcopy⟩
  obtain ⟨i, log, hlog⟩ := hfound
  obtain ⟨peb, start, pebs, -, hstart, -⟩ := Volume.followSuperblocks?_eq_some hlog
  obtain ⟨pebs, hpebs, hlt⟩ := Volume.lt_pebsCount_of_findLast? hstart
  exact ⟨pebs, hpebs, by omega⟩

/-- The steps behind the mapping cache leave pairs for the segment bitmap and for the mapping table
exactly if the volume header declares them, provided that no pair of the bitmap is without instance. -/
theorem followSteps_declared {header : VolumeHeader} {pebs : Nat}
    (h : t.followSteps p [("segment bitmap", findSegmentBitmap), ("mapping table", findMappingTable)] =
      (q, .ok search))
    (hheader : p.volumeHeader? = some header) (hcache : p.cache.isSome) (hbitmap : p.segmentBitmap = [])
    (htable : p.mappingTable = []) (hseg : 0 < t.volume.geometry.pebsPerSegment)
    (hpebs : t.volume.pebsCount = .ok pebs) (hpos : 0 < pebs)
    (hall : ∀ pair ∈ q.segmentBitmap, pair.isPresent) :
    q = { p with found := q.found, segmentBitmap := q.segmentBitmap, mappingTable := q.mappingTable } ∧
      (q.segmentBitmap ≠ [] ↔ header.DeclaresBitmap) ∧
      (q.mappingTable ≠ [] ↔ header.DeclaresBitmap ∧ header.DeclaresTable) := by
  rcases followSteps_cons.1 h with ⟨hstep, -⟩ | ⟨next, hstep, h⟩
  · obtain ⟨hlisted, hsearch⟩ := findSegmentBitmap_declared hstep hheader hcache hbitmap hseg
    have hnot : ¬ header.DeclaresBitmap := fun hd => nomatch (hsearch hall).2 hd
    have hq := findSegmentBitmap_frame hstep
    have hkeep : q.mappingTable = [] := by
      rw [hq]
      exact htable
    refine ⟨?_, hlisted, iff_of_false (fun h => h hkeep) (fun h => hnot h.1)⟩
    rw [hkeep, ← htable]
    exact hq
  · obtain ⟨hlisted, hsearch⟩ := findSegmentBitmap_declared hstep hheader hcache hbitmap hseg
    have hnext := findSegmentBitmap_frame hstep
    obtain ⟨last, hlast⟩ : ∃ last, t.findMappingTable next = (q, .ok last) := by
      rcases followSteps_cons.1 h with ⟨hlast, -⟩ | ⟨_, hlast, hnil⟩
      · exact ⟨_, hlast⟩
      · cases hnil
        exact ⟨_, hlast⟩
    have hq := findMappingTable_frame hlast
    have hsame : q.segmentBitmap = next.segmentBitmap := by rw [hq]
    rw [hsame] at hall ⊢
    have hdeclared := (hsearch hall).1 rfl
    have hrest := findMappingTable_declared hlast (by rw [hnext]; exact hheader)
      (by rw [hnext]; exact hcache) hpebs hpos
    refine ⟨?_, hlisted, hrest.trans (and_iff_right hdeclared).symm⟩
    rw [hnext] at hq
    exact hq

/-- What lies behind a mapping cache: the trail has pairs for the segment bitmap and for the mapping
table exactly if the volume header declares them, provided that no pair of the bitmap is without
instance. -/
theorem follow_declared (hnone : p.cache = none) (hbitmap : p.segmentBitmap = [])
    (htable : p.mappingTable = []) (hseg : 0 < t.volume.geometry.pebsPerSegment)
    (h : t.follow p = (q, .ok search)) (hcache : q.cache.isSome)
    (hall : ∀ pair ∈ q.segmentBitmap, pair.isPresent) :
    q.baseSnapshot.isSome ∧ ∃ header, q.volumeHeader? = some header ∧
      (q.segmentBitmap ≠ [] ↔ header.DeclaresBitmap) ∧
      (q.mappingTable ≠ [] ↔ header.DeclaresBitmap ∧ header.DeclaresTable) := by
  -- A trail that ends before the cache is found leaves a point without one.
  rcases followSteps_cons.1 h with ⟨hstep, -⟩ | ⟨p₁, hstep, h⟩
  · rcases findSnapshot_cases hstep with ⟨rfl, -⟩ | ⟨_, _, _, _, hs⟩
    · rw [hnone] at hcache
      cases hcache
    · cases hs
  rcases findSnapshot_cases hstep with ⟨-, hs⟩ | ⟨log, -, -, rfl, -⟩
  · cases hs
  rcases followSteps_cons.1 h with ⟨hstep, -⟩ | ⟨p₂, hstep, h⟩
  · rcases findSuperblock_cached hstep hnone with ⟨-, hq⟩ | ⟨hs, -⟩
    · rw [hq] at hcache
      cases hcache
    · cases hs
  rcases findSuperblock_cached hstep hnone with ⟨hs, -⟩ | ⟨-, base, pair, cache, -, hpair, hpresent, rfl⟩
  · cases hs
  obtain ⟨pebs, hpebs, hpos⟩ := pebsCount_pos_of_superblocks hpair hpresent
  obtain ⟨preferred, hpreferred⟩ : ∃ log, pair.preferred = some log := by
    rw [Duplex.isPresent_eq_isSome] at hpresent
    exact Option.isSome_iff_exists.1 hpresent
  have hheader : (pair.preferred.map (·.segment.volume)) = some preferred.segment.volume := by
    rw [hpreferred]
    rfl
  obtain ⟨hq, hsb, hmt⟩ := followSteps_declared h hheader rfl hbitmap htable hseg hpebs hpos hall
  rw [hq]
  exact ⟨rfl, preferred.segment.volume, hheader, hsb, hmt⟩

end FlashVolume.Trailhead
