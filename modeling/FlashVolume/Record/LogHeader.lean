/-
The header of a log, whichever of the two kinds it is. The key of the signature decides how the bytes
are read; the record of that kind must then hold up on its own.
-/
import FlashVolume.Record.PartialHeader
import FlashVolume.Record.SegmentHeader

namespace FlashVolume

/-- The header of a full log or of a partial one. -/
inductive LogHeader
  | ofSegment (header : SegmentHeader)
  | ofPartial (header : PartialHeader)
deriving DecidableEq

namespace LogHeader

/-- The trusted header at the front of `bytes`. -/
def parse? (bytes : List UInt8) : Option LogHeader :=
  match Signature.format.read? bytes with
  | none => none
  | some signature =>
    if signature.key = Key.segmentHeader then (Sealed.parse? bytes).map ofSegment
    else if signature.key = Key.partialHeader then (Sealed.parse? bytes).map ofPartial
    else none

def isPartial : LogHeader → Bool
  | ofSegment _ => false
  | ofPartial _ => true

def logPages : LogHeader → UInt16
  | ofSegment h => h.logPages
  | ofPartial h => h.logPages

def kind? : LogHeader → Option SegmentKind
  | ofSegment h => h.kind?
  | ofPartial h => h.kind?

def timestamp : LogHeader → UInt64
  | ofSegment h => h.timestamp
  | ofPartial h => h.timestamp

def checkpoint : LogHeader → UInt64
  | ofSegment h => h.checkpoint
  | ofPartial h => h.checkpoint

def flags : LogHeader → UInt32
  | ofSegment h => h.flags
  | ofPartial h => h.flags

/-- When the volume of this log was created. -/
def createTime : LogHeader → UInt64
  | ofSegment h => h.createTime
  | ofPartial h => h.createTime

def areas : LogHeader → AreaTable
  | ofSegment h => h.areas
  | ofPartial h => h.areas

/-- The descriptor of an area the log has. -/
def area? (h : LogHeader) (area : Area) : Option AreaDescriptor := h.areas.present? area.index

end LogHeader

end FlashVolume
