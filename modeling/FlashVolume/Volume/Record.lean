/-
Records of a volume. A header or footer that does not hold up, or that the device has no room for,
is absent: an erased or stale page is how a walk ends and no failure. A failed read is one, and names
the erase block and the offset it happened at.
-/
import FlashVolume.Record.Block
import FlashVolume.Record.Footer
import FlashVolume.Record.LogHeader
import FlashVolume.Volume

namespace FlashVolume.Volume

/-! ## Headers -/

/-- The first `length` bytes of the header at `page` of `peb`, if the device reaches that far. An end
that does not fit in 64 bits counts as the last position that does. -/
def readHeaderBytes (v : Volume) (peb page length : Nat) : Outcome (Option (List UInt8)) := do
  let offset ← word64 (v.geometry.headerOffset peb page)
  if v.handle.size < min (offset + length) (UInt64.size - 1) then return none
  return some (← v.readBytes peb offset length)

/-- The trusted segment header of the log at `page` of `peb`. -/
def segmentHeader? (v : Volume) (peb page : Nat) : Outcome (Option SegmentHeader) := do
  let bytes ← v.readHeaderBytes peb page SegmentHeader.format.size
  return bytes.bind Sealed.parse?

/-- The trusted partial log header of the log at `page` of `peb`. -/
def partialHeader? (v : Volume) (peb page : Nat) : Outcome (Option PartialHeader) := do
  let bytes ← v.readHeaderBytes peb page PartialHeader.format.size
  return bytes.bind Sealed.parse?

/-- The trusted header of the log at `page` of `peb`, of either kind. -/
def logHeader? (v : Volume) (peb page : Nat) : Outcome (Option LogHeader) := do
  let bytes ←
    v.readHeaderBytes peb page (max SegmentHeader.format.size PartialHeader.format.size)
  return bytes.bind LogHeader.parse?

/-! ## Areas -/

/-- The range of an area within the log at `page`. -/
def areaRegion (v : Volume) (page : Nat) (area : AreaDescriptor) : Except Region.Error Region :=
  area.region (v.geometry.logSpan page)

/-- All bytes of an area of the log at `page` of `peb`. -/
def readArea (v : Volume) (peb page : Nat) (area : AreaDescriptor) : Outcome (List UInt8) := do
  match v.areaRegion page area with
  | .error cause => throw (.fault (.region cause))
  | .ok region =>
    let start ← word64 (v.geometry.logOffset peb page + region.start)
    let _ ← word64 (v.geometry.logOffset peb page + region.stop)
    v.readBytes peb start region.size

/-- The first `length` bytes of an area; none if it does not lie within the log or is shorter. -/
def readAreaStart (v : Volume) (peb page : Nat) (area : AreaDescriptor) (length : Nat) :
    Outcome (Option (List UInt8)) := do
  match v.areaRegion page area with
  | .error _ => return none
  | .ok region =>
    if region.size < length then return none
    let start ← word64 (v.geometry.logOffset peb page + region.start)
    return some (← v.readBytes peb start length)

/-- The trusted footer in an area of the log at `page` of `peb`. -/
def footer? (v : Volume) (peb page : Nat) (area : AreaDescriptor) : Outcome (Option LogFooter) := do
  let bytes ← v.readAreaStart peb page area LogFooter.format.size
  return bytes.bind Sealed.parse?

/-- The footer the header of a log points to. -/
def footerOf? (v : Volume) (peb page : Nat) (header : LogHeader) : Outcome (Option LogFooter) :=
  match header.area? .footer with
  | some area => v.footer? peb page area
  | none => .ok none

/-- The header of the block bitmap of a log, signed or not. -/
def blockBitmapHeader? (v : Volume) (peb page : Nat) (header : LogHeader) :
    Outcome (Option BlockBitmapHeader) := do
  match header.area? .blockBitmap with
  | none => return none
  | some area =>
    let bytes ← v.readAreaStart peb page area BlockBitmapHeader.format.size
    return bytes.bind BlockBitmapHeader.format.read?

/-- The header of the offsets table of a log, signed or not. -/
def offsetsTableHeader? (v : Volume) (peb page : Nat) (header : LogHeader) :
    Outcome (Option OffsetsTableHeader) := do
  match header.area? .offsetsTable with
  | none => return none
  | some area =>
    let bytes ← v.readAreaStart peb page area OffsetsTableHeader.format.size
    return bytes.bind OffsetsTableHeader.format.read?

/-- Every block descriptor of a log. -/
def blockDescriptors (v : Volume) (peb page : Nat) (header : LogHeader) :
    Outcome (List BlockDescriptor) := do
  match header.area? .blockDescriptors with
  | none => return []
  | some area => return BlockDescriptor.parseArea (← v.readArea peb page area)

/-- The bytes of the mapping cache of a log. -/
def cacheArea? (v : Volume) (peb page : Nat) (header : LogHeader) :
    Outcome (Option (List UInt8)) := do
  match header.area? .mappingCache with
  | none => return none
  | some area => return some (← v.readArea peb page area)

end FlashVolume.Volume
