/-
Partial log headers. A full log that is not filled in one go continues in partial logs; each has a
header of its own that says how many bytes it wrote.
-/
import FlashVolume.Record.Area
import FlashVolume.Record.VolumeHeader
import FlashVolume.SegmentKind

namespace FlashVolume

/-- The header of a partial log; `logPages` is the size of the full log it belongs to. -/
structure PartialHeader where
  signature : Signature
  check : Check
  timestamp : UInt64
  checkpoint : UInt64
  logPages : UInt16
  kindTag : UInt16
  flags : UInt32
  logBytes : UInt32
  reserved1 : UInt32
  areas : AreaTable
  segmentsCount : UInt64
  freePages : UInt64
  createTime : UInt64
  pebCreateTime : UInt64
  segmentId : UInt64
  lebId : UInt64
  pebId : UInt64
  relatedPebId : UInt64
  logPageSize : UInt8
  logEraseSize : UInt8
  logSegmentSize : UInt8
  logPebsPerSegment : UInt8
  lebsPerPebIndex : UInt32
  reserved : Vector UInt8 248
deriving DecidableEq

namespace PartialHeader

def format : Format PartialHeader :=
  (Format.pair Signature.format <| .pair Check.format <| .pair .u64 <| .pair .u64 <| .pair .u16 <|
    .pair .u16 <| .pair .u32 <| .pair .u32 <| .pair .u32 <| .pair AreaTable.format <| .pair .u64 <|
    .pair .u64 <| .pair .u64 <| .pair .u64 <| .pair .u64 <| .pair .u64 <| .pair .u64 <| .pair .u64 <|
    .pair .u8 <| .pair .u8 <| .pair .u8 <| .pair .u8 <| .pair .u32 (.bytes 248)).map
    (fun (a, b, c, d, e, f, g, h, i, j, k, l, m, n, o, p, q, r, s, t, u, v, w, x) =>
      ⟨a, b, c, d, e, f, g, h, i, j, k, l, m, n, o, p, q, r, s, t, u, v, w, x⟩)
    (fun h => (h.signature, h.check, h.timestamp, h.checkpoint, h.logPages, h.kindTag, h.flags,
      h.logBytes, h.reserved1, h.areas, h.segmentsCount, h.freePages, h.createTime, h.pebCreateTime,
      h.segmentId, h.lebId, h.pebId, h.relatedPebId, h.logPageSize, h.logEraseSize, h.logSegmentSize,
      h.logPebsPerSegment, h.lebsPerPebIndex, h.reserved))

theorem exact_format : format.Exact :=
  have b := Format.exact_u8
  have w := Format.exact_u16
  have d := Format.exact_u32
  have q := Format.exact_u64
  (Signature.exact_format.pair <| Check.exact_format.pair <| q.pair <| q.pair <| w.pair <| w.pair <|
    d.pair <| d.pair <| d.pair <| AreaTable.exact_format.pair <| q.pair <| q.pair <| q.pair <|
    q.pair <| q.pair <| q.pair <| q.pair <| q.pair <| b.pair <| b.pair <| b.pair <| b.pair <| d.pair
      (Format.exact_bytes 248)).map (fun _ => rfl) (fun _ => rfl)

theorem size_format : format.size = 512 := by decide

instance : Sealed PartialHeader where
  title := "partial log header"
  key := Key.partialHeader
  format := format
  signature h := h.signature
  check h := h.check
  withCheck h check := { h with check }

/-- The header of a partial log of `logBytes` bytes without areas. -/
def fresh (geometry : Geometry) (kind : SegmentKind) (logPages : UInt16) (logBytes : UInt32)
    (createTime : UInt64) : PartialHeader :=
  let (page, erase, segment, pebs) := geometry.logs
  { signature := .ofKey Key.partialHeader
    check := default
    timestamp := createTime
    checkpoint := 0
    logPages
    kindTag := kind.tag
    flags := LogFlag.isPartial
    logBytes
    reserved1 := 0
    areas := Vector.replicate 9 default
    segmentsCount := 0
    freePages := 0
    createTime
    pebCreateTime := createTime
    segmentId := 0
    lebId := 0
    pebId := 0
    relatedPebId := 0
    logPageSize := page.toUInt8
    logEraseSize := erase.toUInt8
    logSegmentSize := segment.toUInt8
    logPebsPerSegment := pebs.toUInt8
    lebsPerPebIndex := 0
    reserved := Vector.replicate 248 0 }

/-- What the segment holds, if the tag names a kind. -/
def kind? (h : PartialHeader) : Option SegmentKind := SegmentKind.ofTag? h.kindTag

def hasFlag (h : PartialHeader) (flag : UInt32) : Bool := h.flags &&& flag != 0

end PartialHeader

end FlashVolume
