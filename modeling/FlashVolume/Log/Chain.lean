/-
The chain of superblock segments. A superblock that has moved on names its successor in its volume
header; the successor counts only if it is a superblock of the same volume with a newer checkpoint.
Following stops where there is none, and never hops more often than the volume has erase blocks.
-/
import FlashVolume.Log.Locate

namespace FlashVolume.Volume

/-- The erase block a superblock log names as the next one, unless it is its own. -/
def nextSuperblock? (log : FoundLog) (i : Instance) : Option Nat :=
  (log.segment.volume.superblocks.peb? .next i).filter (· != log.peb)

/-- A header takes over from a superblock log: same volume, newer checkpoint. -/
def succeeds (header : SegmentHeader) (log : FoundLog) (createTime : UInt64) : Bool :=
  header.createTime == createTime && log.checkpoint < header.checkpoint

/-- The last superblock log reached from `log` in at most `hops` hops. -/
def followFrom (v : Volume) (i : Instance) (createTime : UInt64) :
    (hops : Nat) → FoundLog → Outcome FoundLog
  | 0, log => .ok log
  | hops + 1, log =>
    match nextSuperblock? log i with
    | none => .ok log
    | some next =>
      match v.findSegment? next .superblock 0 with
      | .error stop => .error stop
      | .ok none => .ok log
      | .ok (some header) =>
        if succeeds header log createTime then
          match v.walk next 0 header with
          | .error stop => .error stop
          | .ok log => followFrom v i createTime hops log
        else
          .ok log

/-- The newest superblock log of one copy, starting from the erase block the volume header names as
the current one. -/
def followSuperblocks? (v : Volume) (header : VolumeHeader) (i : Instance) (createTime : UInt64) :
    Outcome (Option FoundLog) :=
  match header.superblocks.peb? .current i with
  | none => .ok none
  | some peb =>
    match v.findLast? peb .superblock with
    | .error stop => .error stop
    | .ok none => .ok none
    | .ok (some log) =>
      if log.createTime = createTime then
        match v.pebsCount with
        | .error stop => .error stop
        | .ok pebs =>
          match v.followFrom i createTime pebs log with
          | .error stop => .error stop
          | .ok log => .ok (some log)
      else
        .ok none

end FlashVolume.Volume
