/-
Creation points. All metadata carries the creation time of the volume it was written for. Formatting
a device again gives a new creation time, and what is left of the older volume must not be mixed with
the new one; so everything found is kept under the creation time it carries.
-/
import FlashVolume.Log
import FlashVolume.MappingCache

namespace FlashVolume

/-! ## What was found -/

/-- Which of the structures a volume is mounted from were found. -/
structure Inventory where
  baseSnapshot : Bool
  superblock : Bool
  segmentBitmap : Bool
  mappingTable : Bool
deriving DecidableEq

namespace Inventory

def empty : Inventory := ⟨false, false, false, false⟩

def complete : Inventory := ⟨true, true, true, true⟩

/-- What either of the two holds. -/
def union (a b : Inventory) : Inventory :=
  ⟨a.baseSnapshot || b.baseSnapshot, a.superblock || b.superblock,
    a.segmentBitmap || b.segmentBitmap, a.mappingTable || b.mappingTable⟩

/-- What a segment of this kind is evidence of. -/
def ofKind : SegmentKind → Inventory
  | .initialSnapshot => { empty with baseSnapshot := true }
  | .superblock => { empty with superblock := true }
  | .segmentBitmap => { empty with segmentBitmap := true }
  | .mappingTable => { empty with mappingTable := true }
  | _ => empty

/-- The inventory whose members are the bits of a number, from the lowest on. -/
def ofBits (bits : Nat) : Inventory :=
  ⟨bits.testBit 0, bits.testBit 1, bits.testBit 2, bits.testBit 3⟩

/-- The identifiers of the structures found. -/
def names (i : Inventory) : List String :=
  (if i.baseSnapshot then ["BASE_SNAPSHOT"] else []) ++
    (if i.superblock then ["SUPERBLOCK"] else []) ++
    (if i.segmentBitmap then ["SEGBMAP"] else []) ++
    (if i.mappingTable then ["MAPTBL"] else [])

/-- The structures found as one text. -/
def text (i : Inventory) : String := " | ".intercalate i.names

end Inventory

/-- A metadata segment seen by the census. -/
structure ScannedSegment where
  segmentId : UInt64
  lebId : UInt64
  peb : Nat
  kind : SegmentKind
  pebCreateTime : UInt64
  volumeCreateTime : UInt64
deriving DecidableEq

/-! ## The point -/

/-- All that was found of the volume created at one time. The segment bitmap has a pair for each of
its erase blocks, the mapping table one for each of its logical blocks. -/
structure CreationPoint where
  createTime : UInt64
  found : Inventory
  geometry : Option Geometry
  baseSnapshot : Option FoundLog
  superblock : LogPair
  cache : Option MappingCache
  segmentBitmap : List LogPair
  mappingTable : List LogPair
  scanned : List ScannedSegment
deriving DecidableEq

/-- What a report says about a creation point. -/
structure PointSummary where
  createTime : UInt64
  found : Inventory
  geometry : Option Geometry
  uuid : Option String
  label : Option String
  baseSnapshot : Option LogLocation
  superblock : List LogLocation
  cachedItems : Option Nat
  segmentBitmap : List LogLocation
  mappingTable : List LogLocation
  scanned : List (SegmentKind × Nat)
deriving DecidableEq

namespace CreationPoint

/-- A point nothing was found for yet. -/
def fresh (createTime : UInt64) : CreationPoint where
  createTime
  found := .empty
  geometry := none
  baseSnapshot := none
  superblock := .none
  cache := none
  segmentBitmap := []
  mappingTable := []
  scanned := []

/-- Take a scanned segment in and count its structure as found. -/
def record (p : CreationPoint) (item : ScannedSegment) : CreationPoint :=
  { p with
    found := p.found.union (.ofKind item.kind)
    scanned := p.scanned ++ [item] }

/-- Keep a geometry already known, else take this one. -/
def withGeometry (p : CreationPoint) (geometry : Geometry) : CreationPoint :=
  { p with geometry := p.geometry.or (some geometry) }

/-- The scanned segments of a kind, in the order they were taken in. -/
def bucket (p : CreationPoint) (kind : SegmentKind) : List ScannedSegment :=
  p.scanned.filter (·.kind == kind)

/-- The kinds with scanned segments, and these segments. -/
def buckets (p : CreationPoint) : List (SegmentKind × List ScannedSegment) :=
  (SegmentKind.all.map fun kind => (kind, p.bucket kind)).filter (!·.2.isEmpty)

/-- The superblock log that counts. -/
def latestSuperblock? (p : CreationPoint) : Option FoundLog := p.superblock.preferred

/-- The volume header of that log. -/
def volumeHeader? (p : CreationPoint) : Option VolumeHeader :=
  p.latestSuperblock?.map (·.segment.volume)

/-- The footer of that log. -/
def footer? (p : CreationPoint) : Option LogFooter := p.latestSuperblock?.bind (·.footer)

def summary (p : CreationPoint) : PointSummary :=
  let state := p.footer?.map (·.volume)
  let locations (pairs : List LogPair) := pairs.flatMap fun pair => pair.toList.map (·.location)
  { createTime := p.createTime
    found := p.found
    geometry := p.geometry
    uuid := state.map (·.uuidText)
    label := (state.map (·.labelText)).filter (!·.isEmpty)
    baseSnapshot := p.baseSnapshot.map (·.location)
    superblock := p.superblock.toList.map (·.location)
    cachedItems := p.cache.map (·.itemsCount)
    segmentBitmap := locations p.segmentBitmap
    mappingTable := locations p.mappingTable
    scanned := p.buckets.map fun (kind, items) => (kind, items.length) }

end CreationPoint

end FlashVolume
