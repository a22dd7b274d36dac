/-
The census: reading the first header of every erase block and noting the metadata segments. The
blocks are split into contiguous shards, one for each worker, and every worker reads through a handle
of its own; what they find is put together in the order of the shards.
-/
import FlashVolume.CreationPoint
import FlashVolume.Volume.Record

namespace FlashVolume

/-! ## Shards -/

/-- The erase blocks `start ≤ i < stop`. -/
structure Shard where
  start : Nat
  stop : Nat
deriving DecidableEq

namespace Shard

/-- Consecutive shards from `start` on, `wide` of them one block wider than `width`. -/
def consecutive (width : Nat) : (wide count start : Nat) → List Shard
  | _, 0, _ => []
  | wide, count + 1, start =>
    let stop := start + width + if 0 < wide then 1 else 0
    ⟨start, stop⟩ :: consecutive width (wide - 1) count stop

/-- The erase blocks below `pebs` in at most `workers` shards that differ in width by one block at
most, the wider ones first. -/
def partition (pebs workers : Nat) : List Shard :=
  let count := min workers pebs
  consecutive (pebs / count) (pebs % count) count 0

end Shard

/-! ## Scan -/

namespace Volume

/-- The metadata segment that begins at `peb`. -/
def scanPeb (v : Volume) (peb : Nat) : Outcome (Option ScannedSegment) := do
  let some header ← v.segmentHeader? peb 0 | return none
  match header.kind? with
  | some kind =>
    if kind.isMetadata then
      return some
        { segmentId := header.segmentId
          lebId := header.lebId
          peb
          kind
          pebCreateTime := header.pebCreateTime
          volumeCreateTime := header.createTime }
    else
      return none
  | none => return none

/-- The metadata segments that begin in a shard, in order. -/
def scanShard (v : Volume) (shard : Shard) : Outcome (List ScannedSegment) :=
  (List.range' shard.start (shard.stop - shard.start)).filterMapM v.scanPeb

/-- The metadata segments of the whole volume, by shard. With more than one shard, every one is read
through a handle opened for it beforehand. -/
def scan (v : Volume) (reopened : Except ReadError Handle) (workers : Nat) :
    Outcome (List (List ScannedSegment)) :=
  match v.pebsCount with
  | .error stop => .error stop
  | .ok pebs =>
    let shards := Shard.partition pebs (max workers 1)
    if shards.length ≤ 1 then
      shards.mapM v.scanShard
    else
      match reopened with
      | .error cause => .error (.fault (.device cause))
      | .ok handle => shards.mapM (v.withHandle handle).scanShard

end Volume

end FlashVolume
