/-
Segment headers. One opens every full log of an erase block, repeats the volume header, and says how
many pages the log spans, what its segment holds and where its areas are.
-/
import FlashVolume.Record.Area
import FlashVolume.Record.VolumeHeader
import FlashVolume.SegmentKind

namespace FlashVolume

/-- The header of a full log. -/
structure SegmentHeader where
  volume : VolumeHeader
  timestamp : UInt64
  checkpoint : UInt64
  logPages : UInt16
  kindTag : UInt16
  flags : UInt32
  areas : AreaTable
  pebCreateTime : UInt64
  segmentId : UInt64
  lebId : UInt64
  pebId : UInt64
  relatedPebId : UInt64
  reserved : Vector UInt8 48
deriving DecidableEq

namespace SegmentHeader

def format : Format SegmentHeader :=
  (Format.pair VolumeHeader.format <| .pair .u64 <| .pair .u64 <| .pair .u16 <| .pair .u16 <|
    .pair .u32 <| .pair AreaTable.format <| .pair .u64 <| .pair .u64 <| .pair .u64 <| .pair .u64 <|
    .pair .u64 (.bytes 48)).map
    (fun (a, b, c, d, e, f, g, h, i, j, k, l, m) => ⟨a, b, c, d, e, f, g, h, i, j, k, l, m⟩)
    (fun s => (s.volume, s.timestamp, s.checkpoint, s.logPages, s.kindTag, s.flags, s.areas,
      s.pebCreateTime, s.segmentId, s.lebId, s.pebId, s.relatedPebId, s.reserved))

theorem exact_format : format.Exact :=
  have w := Format.exact_u16
  have q := Format.exact_u64
  (VolumeHeader.exact_format.pair <| q.pair <| q.pair <| w.pair <| w.pair <| Format.exact_u32.pair <|
    AreaTable.exact_format.pair <| q.pair <| q.pair <| q.pair <| q.pair <| q.pair
      (Format.exact_bytes 48)).map (fun _ => rfl) (fun _ => rfl)

theorem size_format : format.size = 768 := by decide

instance : Sealed SegmentHeader where
  title := "segment header"
  key := Key.segmentHeader
  format := format
  signature h := h.volume.signature
  check h := h.volume.check
  withCheck h check := { h with volume := { h.volume with check } }

/-- The header of a log of `logPages` pages without areas. -/
def fresh (geometry : Geometry) (kind : SegmentKind) (logPages : UInt16) (createTime : UInt64) :
    SegmentHeader where
  volume := .fresh geometry createTime
  timestamp := createTime
  checkpoint := 0
  logPages
  kindTag := kind.tag
  flags := 0
  areas := Vector.replicate 9 default
  pebCreateTime := createTime
  segmentId := 0
  lebId := 0
  pebId := 0
  relatedPebId := 0
  reserved := Vector.replicate 48 0

/-- What the segment holds, if the tag names a kind. -/
def kind? (h : SegmentHeader) : Option SegmentKind := SegmentKind.ofTag? h.kindTag

/-- When the volume of this segment was created. -/
def createTime (h : SegmentHeader) : UInt64 := h.volume.createTime

def hasFlag (h : SegmentHeader) (flag : UInt32) : Bool := h.flags &&& flag != 0

end SegmentHeader

end FlashVolume
