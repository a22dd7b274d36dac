/-
The volume header that every segment header starts with: geometry, creation time, where the
superblock segments are, and where the segment bitmap and the mapping table are described. Detection
learns the whole volume from any single one of them.
-/
import FlashVolume.Geometry
import FlashVolume.Duplex
import FlashVolume.Record.Seal

namespace FlashVolume

/-- All ones, the value of an unused identifier. -/
def unusedId : UInt64 := 0xFFFFFFFFFFFFFFFF

/-- A logical erase block and the physical one it is mapped to. -/
structure LebPeb where
  leb : UInt64
  peb : UInt64
deriving DecidableEq, Inhabited

namespace LebPeb

def format : Format LebPeb :=
  (Format.pair .u64 .u64).map (fun (leb, peb) => ⟨leb, peb⟩) (fun p => (p.leb, p.peb))

theorem exact_format : format.Exact :=
  (Format.exact_u64.pair Format.exact_u64).map (fun _ => rfl) (fun _ => rfl)

/-- A physical block of all ones marks an unused slot. -/
def isSet (p : LebPeb) : Bool := p.peb != unusedId

/-- The slot nothing uses. -/
def unused : LebPeb := ⟨unusedId, unusedId⟩

/-- The physical block of a used slot. -/
def peb? (p : LebPeb) : Option Nat := if p.isSet then some p.peb.toNat else none

end LebPeb

/-! ## Superblock segments -/

/-- The part an erase block plays in the chain of superblock segments. -/
inductive ChainRole
  | current
  | next
  | reserved
  | previous
deriving DecidableEq

/-- Where both copies of the superblock are, were and will be. -/
structure SuperblockChain where
  current : Duplex LebPeb
  next : Duplex LebPeb
  reserved : Duplex LebPeb
  previous : Duplex LebPeb
deriving DecidableEq, Inhabited

namespace SuperblockChain

def format : Format SuperblockChain :=
  let slot := Duplex.format LebPeb.format
  (Format.pair slot <| .pair slot <| .pair slot slot).map
    (fun (current, next, reserved, previous) => ⟨current, next, reserved, previous⟩)
    (fun c => (c.current, c.next, c.reserved, c.previous))

theorem exact_format : format.Exact :=
  have slot := Duplex.exact_format LebPeb.exact_format
  (slot.pair <| slot.pair <| slot.pair slot).map (fun _ => rfl) (fun _ => rfl)

/-- A chain that leads nowhere. -/
def unused : SuperblockChain :=
  let slot := Duplex.both LebPeb.unused
  ⟨slot, slot, slot, slot⟩

/-- The slots of a role. -/
def slots (c : SuperblockChain) : ChainRole → Duplex LebPeb
  | .current => c.current
  | .next => c.next
  | .reserved => c.reserved
  | .previous => c.previous

/-- The erase block that plays a role for one of the two copies. -/
def peb? (c : SuperblockChain) (role : ChainRole) (i : Instance) : Option Nat :=
  ((c.slots role).get i).peb?

end SuperblockChain

/-! ## Segment bitmap and mapping table -/

/-- The flag by which a structure declares that it has a copy. -/
def hasCopyFlag : UInt16 := 1

/-- Where the segment bitmap is kept: up to four segments, each with a copy. -/
structure BitmapInfo where
  fragmentsCount : UInt16
  fragmentSize : UInt16
  fragmentsPerSegment : UInt16
  fragmentsPerPeb : UInt16
  flags : UInt16
  segmentsCount : UInt16
  bytesCount : UInt32
  segments : Vector (Duplex UInt64) 4
deriving DecidableEq

namespace BitmapInfo

def format : Format BitmapInfo :=
  (Format.pair .u16 <| .pair .u16 <| .pair .u16 <| .pair .u16 <| .pair .u16 <| .pair .u16 <|
    .pair .u32 ((Duplex.format .u64).vector 4)).map
    (fun (a, b, c, d, e, f, g, h) => ⟨a, b, c, d, e, f, g, h⟩)
    (fun s => (s.fragmentsCount, s.fragmentSize, s.fragmentsPerSegment, s.fragmentsPerPeb, s.flags,
      s.segmentsCount, s.bytesCount, s.segments))

theorem exact_format : format.Exact :=
  have w := Format.exact_u16
  (w.pair <| w.pair <| w.pair <| w.pair <| w.pair <| w.pair <| Format.exact_u32.pair
    ((Duplex.exact_format Format.exact_u64).vector 4)).map (fun _ => rfl) (fun _ => rfl)

/-- No segments at all. -/
def unused : BitmapInfo := ⟨0, 0, 0, 0, 0, 0, 0, Vector.replicate 4 (.both unusedId)⟩

def hasCopy (s : BitmapInfo) : Bool := s.flags &&& hasCopyFlag != 0

end BitmapInfo

/-- A run of logical erase blocks that hold mapping table fragments. -/
structure MappingExtent where
  start : UInt64
  length : UInt16
  kind : UInt16
  flags : UInt32
deriving DecidableEq, Inhabited

namespace MappingExtent

def format : Format MappingExtent :=
  (Format.pair .u64 <| .pair .u16 <| .pair .u16 .u32).map
    (fun (start, length, kind, flags) => ⟨start, length, kind, flags⟩)
    (fun e => (e.start, e.length, e.kind, e.flags))

theorem exact_format : format.Exact :=
  (Format.exact_u64.pair <| Format.exact_u16.pair <| Format.exact_u16.pair Format.exact_u32).map
    (fun _ => rfl) (fun _ => rfl)

end MappingExtent

/-- Where the mapping table is kept: up to three extents, each with a copy. -/
structure MappingInfo where
  fragmentsCount : UInt32
  fragmentBytes : UInt32
  lastRecoveryCheckpoint : UInt64
  lebsCount : UInt64
  pebsCount : UInt64
  fragmentsPerSegment : UInt16
  fragmentsPerPeb : UInt16
  flags : UInt16
  preErasePebs : UInt16
  extents : Vector (Duplex MappingExtent) 3
deriving DecidableEq

namespace MappingInfo

def format : Format MappingInfo :=
  (Format.pair .u32 <| .pair .u32 <| .pair .u64 <| .pair .u64 <| .pair .u64 <| .pair .u16 <|
    .pair .u16 <| .pair .u16 <| .pair .u16 ((Duplex.format MappingExtent.format).vector 3)).map
    (fun (a, b, c, d, e, f, g, h, i, j) => ⟨a, b, c, d, e, f, g, h, i, j⟩)
    (fun t => (t.fragmentsCount, t.fragmentBytes, t.lastRecoveryCheckpoint, t.lebsCount, t.pebsCount,
      t.fragmentsPerSegment, t.fragmentsPerPeb, t.flags, t.preErasePebs, t.extents))

theorem exact_format : format.Exact :=
  have w := Format.exact_u16
  have d := Format.exact_u32
  have q := Format.exact_u64
  (d.pair <| d.pair <| q.pair <| q.pair <| q.pair <| w.pair <| w.pair <| w.pair <| w.pair
    ((Duplex.exact_format MappingExtent.exact_format).vector 3)).map (fun _ => rfl) (fun _ => rfl)

/-- No extents at all. -/
def empty : MappingInfo := ⟨0, 0, 0, 0, 0, 0, 0, 0, 0, Vector.replicate 3 default⟩

def hasCopy (t : MappingInfo) : Bool := t.flags &&& hasCopyFlag != 0

end MappingInfo

/-! ## The header -/

/-- What every segment of a volume repeats about the whole of it. The creation time is the identity
of a volume among those a device has carried. -/
structure VolumeHeader where
  signature : Signature
  check : Check
  logPageSize : UInt8
  logEraseSize : UInt8
  logSegmentSize : UInt8
  logPebsPerSegment : UInt8
  megabytesPerPeb : UInt16
  pebsPerSegment : UInt16
  createTime : UInt64
  createCheckpoint : UInt64
  flags : UInt32
  lebsPerPebIndex : UInt32
  superblocks : SuperblockChain
  segmentBitmap : BitmapInfo
  mappingTable : MappingInfo
  reserved : Vector UInt8 120
deriving DecidableEq

namespace VolumeHeader

def format : Format VolumeHeader :=
  (Format.pair Signature.format <| .pair Check.format <| .pair .u8 <| .pair .u8 <| .pair .u8 <|
    .pair .u8 <| .pair .u16 <| .pair .u16 <| .pair .u64 <| .pair .u64 <| .pair .u32 <| .pair .u32 <|
    .pair SuperblockChain.format <| .pair BitmapInfo.format <| .pair MappingInfo.format
      (.bytes 120)).map
    (fun (a, b, c, d, e, f, g, h, i, j, k, l, m, n, o, p) =>
      ⟨a, b, c, d, e, f, g, h, i, j, k, l, m, n, o, p⟩)
    (fun v => (v.signature, v.check, v.logPageSize, v.logEraseSize, v.logSegmentSize,
      v.logPebsPerSegment, v.megabytesPerPeb, v.pebsPerSegment, v.createTime, v.createCheckpoint,
      v.flags, v.lebsPerPebIndex, v.superblocks, v.segmentBitmap, v.mappingTable, v.reserved))

theorem exact_format : format.Exact :=
  have b := Format.exact_u8
  have w := Format.exact_u16
  have d := Format.exact_u32
  have q := Format.exact_u64
  (Signature.exact_format.pair <| Check.exact_format.pair <| b.pair <| b.pair <| b.pair <| b.pair <|
    w.pair <| w.pair <| q.pair <| q.pair <| d.pair <| d.pair <| SuperblockChain.exact_format.pair <|
    BitmapInfo.exact_format.pair <| MappingInfo.exact_format.pair (Format.exact_bytes 120)).map
    (fun _ => rfl) (fun _ => rfl)

/-- The header of a volume of this geometry before anything is written to it. -/
def fresh (geometry : Geometry) (createTime : UInt64) : VolumeHeader :=
  let (page, erase, segment, pebs) := geometry.logs
  { signature := .ofKey Key.segmentHeader
    check := default
    logPageSize := page.toUInt8
    logEraseSize := erase.toUInt8
    logSegmentSize := segment.toUInt8
    logPebsPerSegment := pebs.toUInt8
    megabytesPerPeb := (geometry.eraseSize / 1048576).toUInt16
    pebsPerSegment := geometry.pebsPerSegment.toUInt16
    createTime
    createCheckpoint := 0
    flags := 0
    lebsPerPebIndex := 0
    superblocks := .unused
    segmentBitmap := .unused
    mappingTable := .empty
    reserved := Vector.replicate 120 0 }

/-- The geometry the header declares, if it makes sense. -/
def geometry? (v : VolumeHeader) : Option Geometry :=
  Geometry.ofLogs? v.logPageSize.toNat v.logEraseSize.toNat v.logSegmentSize.toNat
    v.logPebsPerSegment.toNat

end VolumeHeader

end FlashVolume
