/-
Locating metadata by erase block. A block past the end of the volume, one without a header to trust,
and one that holds something else all mean that nothing is there.
-/
import FlashVolume.Log.Walk

namespace FlashVolume.Volume

/-- The segment header of this kind at `page` of `peb`. -/
def findSegment? (v : Volume) (peb : Nat) (kind : SegmentKind) (page : Nat) :
    Outcome (Option SegmentHeader) :=
  match v.pebsCount with
  | .error stop => .error stop
  | .ok pebs =>
    if peb < pebs then
      match v.segmentHeader? peb page with
      | .error stop => .error stop
      | .ok header => .ok (header.filter (·.kind? == some kind))
    else
      .ok none

/-- The newest log of the segment of this kind in `peb`. -/
def findLast? (v : Volume) (peb : Nat) (kind : SegmentKind) : Outcome (Option FoundLog) :=
  match v.findSegment? peb kind 0 with
  | .error stop => .error stop
  | .ok none => .ok none
  | .ok (some header) =>
    match v.walk peb 0 header with
    | .error stop => .error stop
    | .ok log => .ok (some log)

end FlashVolume.Volume
