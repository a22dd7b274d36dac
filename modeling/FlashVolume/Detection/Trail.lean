/-
The trail: finding each bootstrap structure from the one before. The initial snapshot names the
superblocks, the newest superblock log carries the mapping cache, and the cache resolves the logical
blocks of the segment bitmap and of the mapping table. A step that fails or finds nothing keeps what
it had already put on the creation point.
-/
import FlashVolume.Bootstrap
import FlashVolume.CreationPoint
import FlashVolume.Log.Chain

namespace FlashVolume

/-- Where the trail starts: a volume, and a header of it. -/
structure Trailhead where
  volume : Volume
  bootstrap : Bootstrap

/-- Whether a step found its structure. -/
inductive Search
  | found
  | notFound
deriving DecidableEq

/-- The point after a step, and how the step ended. -/
abbrev StepResult := CreationPoint × Outcome Search

namespace Trailhead

/-- Keep a log only if it was written for the volume of the point. -/
def sameVolume (log : Option FoundLog) (point : CreationPoint) : Option FoundLog :=
  log.filter (·.createTime == point.createTime)

/-! ## Initial snapshot -/

/-- The newest log of the initial snapshot: that of the bootstrap if it is one, else that in erase
block 0. -/
def snapshotLog? (t : Trailhead) : Outcome (Option FoundLog) :=
  if t.bootstrap.header.kind? = some .initialSnapshot then
    (t.volume.walk t.bootstrap.peb t.bootstrap.page t.bootstrap.header).map some
  else
    t.volume.findLast? 0 .initialSnapshot

/-- Find the initial snapshot. -/
def findSnapshot (t : Trailhead) (point : CreationPoint) : StepResult :=
  match t.snapshotLog? with
  | .error stop => (point, .error stop)
  | .ok log =>
    match sameVolume log point with
    | none => (point, .ok .notFound)
    | some log =>
      ({ point with
          found := point.found.union { Inventory.empty with baseSnapshot := true }
          baseSnapshot := some log },
        .ok .found)

/-! ## Superblock and mapping cache -/

/-- Both copies of the superblock a volume header leads to. -/
def superblocks (t : Trailhead) (header : VolumeHeader) (createTime : UInt64) : Outcome LogPair := do
  let main ← t.volume.followSuperblocks? header .main createTime
  let copy ← t.volume.followSuperblocks? header .copy createTime
  return ⟨main, copy⟩

/-- The mapping cache of a superblock log, if it has one with fragments. -/
def mappingCache? (t : Trailhead) (log : FoundLog) : Outcome (Option MappingCache) := do
  match ← t.volume.cacheArea? log.peb log.page log.header with
  | none => return none
  | some area =>
    match MappingCache.parse area with
    | .error cause => throw (.fault cause)
    | .ok cache => return if cache.isEmpty then none else some cache

/-- Find the mapping cache of the superblock log that counts. -/
def findCache (t : Trailhead) (point : CreationPoint) : StepResult :=
  match point.latestSuperblock? with
  | none => (point, .ok .notFound)
  | some log =>
    match t.mappingCache? log with
    | .error stop => (point, .error stop)
    | .ok none => (point, .ok .notFound)
    | .ok (some cache) => ({ point with cache := some cache }, .ok .found)

/-- Find the superblock and its mapping cache. -/
def findSuperblock (t : Trailhead) (point : CreationPoint) : StepResult :=
  match point.baseSnapshot with
  | none => (point, .ok .notFound)
  | some base =>
    match t.superblocks base.segment.volume point.createTime with
    | .error stop => (point, .error stop)
    | .ok pair =>
      if pair.isPresent then
        t.findCache
          { point with
            found := point.found.union { Inventory.empty with superblock := true }
            superblock := pair }
      else
        (point, .ok .notFound)

/-! ## Segment bitmap and mapping table -/

/-- The newest log of a kind in the erase block that holds a logical one. -/
def lebLog? (t : Trailhead) (point : CreationPoint) (cache : MappingCache) (kind : SegmentKind)
    (leb : Nat) : Outcome (Option FoundLog) :=
  match cache.peb? leb.toUInt64 with
  | none => .ok none
  | some peb => (t.volume.findLast? peb kind).map (sameVolume · point)

/-- The log of a logical block that may have no number: one that does not fit in 64 bits is not
there. -/
def optionalLog? (t : Trailhead) (point : CreationPoint) (cache : MappingCache) (kind : SegmentKind)
    (leb : Option Nat) : Outcome (Option FoundLog) :=
  match leb with
  | some leb => if leb < UInt64.size then t.lebLog? point cache kind leb else .ok none
  | none => .ok none

/-- The pair of logs of a pair of logical blocks; the copy is looked for only where there is one. -/
def lebPair (t : Trailhead) (point : CreationPoint) (cache : MappingCache) (kind : SegmentKind)
    (hasCopy : Bool) (lebs : Duplex (Option Nat)) : Outcome LogPair := do
  let main ← t.optionalLog? point cache kind lebs.main
  let copy ← if hasCopy then t.optionalLog? point cache kind lebs.copy else .ok none
  return ⟨main, copy⟩

/-- The logical block at an index of a segment; an unused segment has none. -/
def segmentLeb? (pebsPerSegment index : Nat) (segment : UInt64) : Option Nat :=
  if segment = unusedId then none else some (segment.toNat * pebsPerSegment + index)

/-- The logical blocks of every segment of the segment bitmap, segment by segment. -/
def bitmapLebs (info : BitmapInfo) (pebsPerSegment : Nat) : List (List (Duplex (Option Nat))) :=
  (info.segments.toList.take info.segmentsCount.toNat).map fun segments =>
    (List.range pebsPerSegment).map fun index =>
      ⟨segmentLeb? pebsPerSegment index segments.main, segmentLeb? pebsPerSegment index segments.copy⟩

/-- The logical block at an offset of an extent, if it is that long. -/
def extentLeb? (offset : Nat) (extent : MappingExtent) : Option Nat :=
  if offset < extent.length.toNat then some (extent.start.toNat + offset) else none

/-- The logical blocks of every extent of the mapping table. The main extent decides how many there
are, but never more than the volume has erase blocks; an extent without any does not count. -/
def tableLebs (info : MappingInfo) (pebsCount : Nat) : List (List (Duplex (Option Nat))) :=
  (info.extents.toList.map fun extents =>
    (List.range (min extents.main.length.toNat pebsCount)).map fun offset =>
      (⟨extentLeb? offset extents.main, extentLeb? offset extents.copy⟩ : Duplex (Option Nat))).filter
    (!·.isEmpty)

/-- The pairs of logs of groups of logical blocks, in order. -/
def groupPairs (t : Trailhead) (point : CreationPoint) (cache : MappingCache) (kind : SegmentKind)
    (hasCopy : Bool) (groups : List (List (Duplex (Option Nat)))) : Outcome (List (List LogPair)) :=
  groups.mapM fun group => group.mapM (t.lebPair point cache kind hasCopy)

/-- Every group has a pair with an instance present. -/
def allPresent (groups : List (List LogPair)) : Bool := groups.all fun group => group.any (·.isPresent)

/-- Find every erase block of the segment bitmap. -/
def findSegmentBitmap (t : Trailhead) (point : CreationPoint) : StepResult :=
  match point.volumeHeader?, point.cache with
  | some header, some cache =>
    let info := header.segmentBitmap
    if 1 ≤ info.segmentsCount.toNat ∧ info.segmentsCount.toNat ≤ 4 then
      let groups := bitmapLebs info t.volume.geometry.pebsPerSegment
      match t.groupPairs point cache .segmentBitmap info.hasCopy groups with
      | .error stop => (point, .error stop)
      | .ok pairs =>
        let point := { point with segmentBitmap := pairs.flatten }
        if allPresent pairs then
          ({ point with
              found := point.found.union { Inventory.empty with segmentBitmap := true } },
            .ok .found)
        else
          (point, .ok .notFound)
    else
      (point, .ok .notFound)
  | _, _ => (point, .ok .notFound)

/-- Find every logical block of the mapping table. -/
def findMappingTable (t : Trailhead) (point : CreationPoint) : StepResult :=
  match point.volumeHeader?, point.cache with
  | some header, some cache =>
    let info := header.mappingTable
    let pairs :=
      t.volume.pebsCount.bind fun pebs =>
        t.groupPairs point cache .mappingTable info.hasCopy (tableLebs info pebs)
    match pairs with
    | .error stop => (point, .error stop)
    | .ok pairs =>
      let point := { point with mappingTable := pairs.flatten }
      if !pairs.isEmpty && allPresent pairs then
        ({ point with
            found := point.found.union { Inventory.empty with mappingTable := true } },
          .ok .found)
      else
        (point, .ok .notFound)
  | _, _ => (point, .ok .notFound)

/-! ## The whole trail -/

/-- The steps by name, in the order they depend on each other. -/
def steps : List (String × (Trailhead → CreationPoint → StepResult)) :=
  [("initial snapshot", findSnapshot), ("superblock", findSuperblock),
    ("segment bitmap", findSegmentBitmap), ("mapping table", findMappingTable)]

/-- Take steps until one does not find its structure. -/
def followSteps (t : Trailhead) (point : CreationPoint) :
    List (String × (Trailhead → CreationPoint → StepResult)) → StepResult
  | [] => (point, .ok .found)
  | (_, step) :: rest =>
    match step t point with
    | (point, .ok .found) => t.followSteps point rest
    | result => result

/-- Take every step. -/
def follow (t : Trailhead) (point : CreationPoint) : StepResult := t.followSteps point steps

end Trailhead

end FlashVolume
