/-
How detection fails. The search for a header reads at its probes; a lookup reads the first headers of erase blocks of
the volume, and walks those in which it finds what it looks for; a step of the trail makes lookups, and one of them
parses a mapping cache; a census reads the first headers again. So detection fails in the ways in which these fail,
and in no other.
-/
import FlashVolume.Proofs.Bootstrap
import FlashVolume.Proofs.Detection.Run
import FlashVolume.Proofs.Detection.Sighting

namespace FlashVolume

open Outcome (FailsOnly)

variable {P : Stop → Prop}

/-! ## The bootstrap -/

namespace Bootstrap

variable {handle : Handle} {eraseSize : Nat}

/-- The search fails as calculating where a header ends and which erase block it is in does, and as the reads do that
end on the device. -/
theorem search_failsOnly :
    ∀ {probes : List Nat}, (∀ probe ∈ probes, FailsOnly P (word64 (probe + SegmentHeader.format.size)) ∧
      FailsOnly P (quotient probe eraseSize) ∧
      ∀ peb cause, probe + SegmentHeader.format.size ≤ handle.size →
        handle.read probe SegmentHeader.format.size = .error cause → P (.fault (.read peb probe cause))) →
      FailsOnly P (search handle eraseSize probes)
  | [], _ => .ok none
  | probe :: rest, h => by
    obtain ⟨⟨hword, hquotient, hcause⟩, hrest⟩ := List.forall_mem_cons.1 h
    unfold search
    rcases hstop : word64 (probe + SegmentHeader.format.size) with cause | stop <;> simp only
    · exact hword.error hstop
    obtain ⟨-, rfl⟩ := word64_eq_ok.1 hstop
    split
    · exact .ok _
    rename_i hroom
    rcases hpeb : quotient probe eraseSize with cause | peb <;> simp only
    · exact hquotient.error hpeb
    split
    · rename_i cause hread
      exact .of_error (hcause peb cause (Nat.le_of_not_lt hroom) hread)
    split
    · exact .ok _
    · exact search_failsOnly hrest

end Bootstrap

/-! ## Lookups -/

namespace Volume

/-- Counting the erase blocks of the volume, reading the first header of one and walking one fail in no other way
than `P` allows. -/
structure BlocksFailOnly (v : Volume) (P : Stop → Prop) : Prop where
  pebsCount : FailsOnly P v.pebsCount
  header : ∀ {pebs peb : Nat}, v.pebsCount = .ok pebs → peb < pebs → FailsOnly P (v.segmentHeader? peb 0)
  walk : ∀ {pebs peb : Nat}, v.pebsCount = .ok pebs → peb < pebs → ∀ first, FailsOnly P (v.walk peb 0 first)

namespace BlocksFailOnly

variable {v : Volume} {P : Stop → Prop} (h : v.BlocksFailOnly P)

include h

theorem findSegment? (peb : Nat) (kind : SegmentKind) : FailsOnly P (v.findSegment? peb kind 0) := by
  unfold Volume.findSegment?
  rcases hpebs : v.pebsCount with stop | pebs <;> simp only
  · exact h.pebsCount.error hpebs
  split
  · rename_i hlt
    rcases hs : v.segmentHeader? peb 0 with stop | header <;> simp only
    · exact (h.header hpebs hlt).error hs
    · exact .ok _
  · exact .ok _

/-- A segment is only found in an erase block of the volume. -/
theorem walk_of_findSegment? {peb : Nat} {kind : SegmentKind} {header : SegmentHeader}
    (hfound : v.findSegment? peb kind 0 = .ok (some header)) : FailsOnly P (v.walk peb 0 header) := by
  obtain ⟨pebs, hpebs, hlt, -⟩ := findSegment?_eq_some.1 hfound
  exact h.walk hpebs hlt header

theorem findLast? (peb : Nat) (kind : SegmentKind) : FailsOnly P (v.findLast? peb kind) := by
  unfold Volume.findLast?
  rcases hs : v.findSegment? peb kind 0 with stop | _ | header <;> simp only
  · exact (h.findSegment? peb kind).error hs
  · exact .ok _
  rcases hw : v.walk peb 0 header with stop | log <;> simp only
  · exact (h.walk_of_findSegment? hs).error hw
  · exact .ok _

theorem followFrom (i : Instance) (createTime : UInt64) :
    ∀ (hops : Nat) (log : FoundLog), FailsOnly P (v.followFrom i createTime hops log)
  | 0, log => .ok log
  | hops + 1, log => by
    unfold Volume.followFrom
    rcases nextSuperblock? log i with _ | next <;> simp only
    · exact .ok _
    rcases hs : v.findSegment? next .superblock 0 with stop | _ | header <;> simp only
    · exact (h.findSegment? next .superblock).error hs
    · exact .ok _
    split
    · rcases hw : v.walk next 0 header with stop | reached <;> simp only
      · exact (h.walk_of_findSegment? hs).error hw
      · exact followFrom i createTime hops reached
    · exact .ok _

theorem followSuperblocks? (header : VolumeHeader) (i : Instance) (createTime : UInt64) :
    FailsOnly P (v.followSuperblocks? header i createTime) := by
  unfold Volume.followSuperblocks?
  rcases header.superblocks.peb? .current i with _ | peb <;> simp only
  · exact .ok _
  rcases hl : v.findLast? peb .superblock with stop | _ | log <;> simp only
  · exact (h.findLast? peb .superblock).error hl
  · exact .ok _
  split
  · rcases hpebs : v.pebsCount with stop | pebs <;> simp only
    · exact h.pebsCount.error hpebs
    rcases hf : v.followFrom i createTime pebs log with stop | last <;> simp only
    · exact (h.followFrom i createTime pebs log).error hf
    · exact .ok _
  · exact .ok _

end BlocksFailOnly

end Volume

/-! ## The trail -/

namespace Trailhead

/-- Looking a log up on the volume, looking for the initial snapshot, and parsing the mapping cache of a superblock
log fail in no other way than `P` allows. -/
structure LookupsFailOnly (t : Trailhead) (P : Stop → Prop) : Prop where
  blocks : t.volume.BlocksFailOnly P
  snapshotLog? : FailsOnly P t.snapshotLog?
  mappingCache? : ∀ {header : VolumeHeader} {createTime : UInt64} {pair : LogPair},
    t.superblocks header createTime = .ok pair → ∀ log ∈ pair.toList, FailsOnly P (t.mappingCache? log)

namespace LookupsFailOnly

variable {t : Trailhead} {P : Stop → Prop} (h : t.LookupsFailOnly P)

include h

theorem superblocks (header : VolumeHeader) (createTime : UInt64) :
    FailsOnly P (t.superblocks header createTime) :=
  (h.blocks.followSuperblocks? ..).bind fun _ _ => (h.blocks.followSuperblocks? ..).bind fun _ _ => .ok _

theorem optionalLog? (p : CreationPoint) (cache : MappingCache) (kind : SegmentKind) (leb : Option Nat) :
    FailsOnly P (t.optionalLog? p cache kind leb) := by
  unfold Trailhead.optionalLog?
  split
  · split
    · unfold lebLog?
      split
      · exact .ok _
      · exact (h.blocks.findLast? ..).map _
    · exact .ok _
  · exact .ok _

theorem groupPairs (p : CreationPoint) (cache : MappingCache) (kind : SegmentKind) (hasCopy : Bool)
    (groups : List (List (Duplex (Option Nat)))) :
    FailsOnly P (t.groupPairs p cache kind hasCopy groups) := by
  refine .mapM fun group _ => .mapM fun lebs _ => ?_
  unfold lebPair
  refine (h.optionalLog? p cache kind lebs.main).bind fun main _ => ?_
  split
  · exact (h.optionalLog? ..).bind fun copy _ => .ok _
  · exact .ok _

/-! ### Steps -/

theorem findSnapshot (p : CreationPoint) : FailsOnly P (t.findSnapshot p).2 := by
  unfold Trailhead.findSnapshot
  rcases hlog : t.snapshotLog? with stop | log <;> simp only
  · exact h.snapshotLog?.error hlog
  · split
    · exact .ok _
    · exact .ok _

omit h in
theorem findCache {p : CreationPoint} (hlogs : ∀ log ∈ p.superblock.toList, FailsOnly P (t.mappingCache? log)) :
    FailsOnly P (t.findCache p).2 := by
  unfold Trailhead.findCache
  rcases hlog : p.latestSuperblock? with _ | log <;> simp only
  · exact .ok _
  rcases hcache : t.mappingCache? log with stop | _ | cache <;> simp only
  · exact (hlogs log (Duplex.mem_toList_of_preferred hlog)).error hcache
  · exact .ok _
  · exact .ok _

theorem findSuperblock (p : CreationPoint) : FailsOnly P (t.findSuperblock p).2 := by
  unfold Trailhead.findSuperblock
  split
  · exact .ok _
  rename_i base _
  rcases hpair : t.superblocks base.segment.volume p.createTime with stop | pair <;> simp only
  · exact (h.superblocks ..).error hpair
  split
  · exact findCache (h.mappingCache? hpair)
  · exact .ok _

theorem findSegmentBitmap (p : CreationPoint) : FailsOnly P (t.findSegmentBitmap p).2 := by
  unfold Trailhead.findSegmentBitmap
  split
  · rename_i header cache _ _
    simp only
    split
    · rcases hpairs : t.groupPairs p cache .segmentBitmap header.segmentBitmap.hasCopy
        (bitmapLebs header.segmentBitmap t.volume.geometry.pebsPerSegment) with stop | pairs <;> simp only
      · exact (h.groupPairs ..).error hpairs
      · split
        · exact .ok _
        · exact .ok _
    · exact .ok _
  · exact .ok _

theorem findMappingTable (p : CreationPoint) : FailsOnly P (t.findMappingTable p).2 := by
  unfold Trailhead.findMappingTable
  split
  · rename_i header cache _ _
    have hpairs : FailsOnly P (t.volume.pebsCount.bind fun pebs =>
        t.groupPairs p cache .mappingTable header.mappingTable.hasCopy
          (tableLebs header.mappingTable pebs)) :=
      h.blocks.pebsCount.bind fun pebs _ => h.groupPairs ..
    simp only
    split
    · rename_i stop hstop
      exact hpairs.error hstop
    · split
      · exact .ok _
      · exact .ok _
  · exact .ok _

theorem steps : ∀ step ∈ Trailhead.steps, ∀ p, FailsOnly P (step.2 t p).2 := by
  unfold Trailhead.steps
  simp only [List.forall_mem_cons]
  exact ⟨h.findSnapshot, h.findSuperblock, h.findSegmentBitmap, h.findMappingTable, List.forall_mem_nil _⟩

omit h in
/-- The trail fails as its steps do. -/
theorem followSteps {steps : List (String × (Trailhead → CreationPoint → StepResult))}
    (hsteps : ∀ step ∈ steps, ∀ p, FailsOnly P (step.2 t p).2) (p : CreationPoint) :
    FailsOnly P (t.followSteps p steps).2 := by
  induction steps generalizing p with
  | nil => exact .ok _
  | cons step rest ih =>
    obtain ⟨hstep, hrest⟩ := List.forall_mem_cons.1 hsteps
    unfold Trailhead.followSteps
    split
    · exact ih hrest _
    · exact hstep p

theorem follow (p : CreationPoint) : FailsOnly P (t.follow p).2 := followSteps h.steps p

end LookupsFailOnly

end Trailhead

/-! ## The census -/

namespace Volume

variable {v : Volume} {workers : Nat} {reopened : Except ReadError Handle}

theorem scanPeb_failsOnly {peb : Nat} (h : FailsOnly P (v.segmentHeader? peb 0)) : FailsOnly P (v.scanPeb peb) := by
  unfold scanPeb
  refine h.bind fun header _ => ?_
  split
  · split
    · split
      · exact .ok _
      · exact .ok _
    · exact .ok _
  · exact .ok _

/-- A census fails as reading the first headers does on the volume that it reads, or because no such volume can be
opened. -/
theorem scan_failsOnly (hpebs : FailsOnly P v.pebsCount)
    (hopen : ∀ cause, reopened = .error cause → P (.fault (.device cause)))
    (hheader : ∀ {w : Volume} {pebs peb : Nat}, v.forCensus reopened workers = .ok w → v.pebsCount = .ok pebs →
      peb < pebs → FailsOnly P (w.segmentHeader? peb 0)) :
    FailsOnly P (v.scan reopened workers) := by
  have hshards {w : Volume} {pebs : Nat} (hw : v.forCensus reopened workers = .ok w) (hn : v.pebsCount = .ok pebs) :
      FailsOnly P ((Shard.partition pebs (max workers 1)).mapM w.scanShard) :=
    .mapM fun shard hshard => .filterMapM fun peb hpeb =>
      scanPeb_failsOnly (hheader hw hn (Shard.lt_of_mem_partition hshard hpeb))
  unfold forCensus at hshards
  unfold scan
  rcases hn : v.pebsCount with stop | pebs <;> simp only [hn] at hshards ⊢
  · exact hpebs.error hn
  split
  · rename_i hone
    exact hshards (if_pos hone) rfl
  · rename_i hmany
    rcases reopened with cause | handle <;> simp only at hshards ⊢
    · exact .of_error (hopen cause rfl)
    · exact hshards (if_neg hmany) rfl

end Volume

/-! ## The whole run -/

namespace Device

variable {device : Device} {options : DetectOptions} {t : Trailhead}

theorem explore_failsOnly (hfollow : FailsOnly P (t.follow t.origin).2)
    (hscan : FailsOnly P (t.volume.scan device.reopened options.workers)) :
    FailsOnly P (device.explore options t) := by
  unfold Trailhead.origin at hfollow
  unfold explore
  simp only
  split
  · rename_i stop htrail
    rw [htrail] at hfollow
    exact hfollow.error rfl
  split
  · rcases hshards : t.volume.scan device.reopened options.workers with stop | shards <;> simp only
    · exact hscan.error hshards
    · exact .ok _
  · exact .ok _

/-- A run fails as the search for a bootstrap header does, as settling on a geometry does, or as the exploration of the
volume that it starts from there. -/
theorem tryDetect_failsOnly (hfind : FailsOnly P (Bootstrap.find? device.handle options.scanEraseSize))
    (hgeometry : ∀ declared cause, options.resolveGeometry declared = .error cause → P (.fault cause))
    (hexplore : ∀ {t : Trailhead}, device.trailhead? options = .ok (some t) →
      FailsOnly P (device.explore options t)) :
    FailsOnly P (device.tryDetect options) := by
  unfold tryDetect
  rcases hbootstrap : Bootstrap.find? device.handle options.scanEraseSize with stop | _ | bootstrap <;> simp only
  · exact hfind.error hbootstrap
  · exact .ok _
  rcases hresolved : options.resolveGeometry bootstrap.header.volume.geometry? with cause | geometry <;> simp only
  · exact .of_error (hgeometry _ cause hresolved)
  rcases hlocated : bootstrap.relocate geometry with stop | located <;> simp only
  · rw [Bootstrap.relocate_eq (DetectOptions.resolveGeometry_wellFormed hresolved)] at hlocated
    cases hlocated
  · refine hexplore ?_
    unfold trailhead?
    simp only [hbootstrap, hresolved, hlocated]

end Device

end FlashVolume
