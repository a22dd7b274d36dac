/-
Records of single blocks: the headers of the block bitmap and of the offsets table, and block
descriptors, which stand in an area one after the other. Their signatures are not backed by a
checksum that anything verifies.
-/
import FlashVolume.Record.Seal

namespace FlashVolume

/-- The header of a block bitmap area. -/
structure BlockBitmapHeader where
  signature : Signature
  fragmentsCount : UInt16
  bytesCount : UInt32
  flags : UInt8
  kind : UInt8
deriving DecidableEq

namespace BlockBitmapHeader

def format : Format BlockBitmapHeader :=
  (Format.pair Signature.format <| .pair .u16 <| .pair .u32 <| .pair .u8 .u8).map
    (fun (a, b, c, d, e) => ⟨a, b, c, d, e⟩)
    (fun h => (h.signature, h.fragmentsCount, h.bytesCount, h.flags, h.kind))

theorem exact_format : format.Exact :=
  (Signature.exact_format.pair <| Format.exact_u16.pair <| Format.exact_u32.pair <|
    Format.exact_u8.pair Format.exact_u8).map (fun _ => rfl) (fun _ => rfl)

def fresh (fragmentsCount : UInt16) (bytesCount : UInt32) : BlockBitmapHeader :=
  ⟨.ofKey Key.blockBitmap, fragmentsCount, bytesCount, 0, 0⟩

def isValid (h : BlockBitmapHeader) : Bool := h.signature.isValid Key.blockBitmap

end BlockBitmapHeader

/-- The header of an offsets table area. -/
structure OffsetsTableHeader where
  signature : Signature
  check : Check
  extentsOffset : UInt16
  extentsCount : UInt16
  tableOffset : UInt16
  fragmentsCount : UInt16
  flags : UInt32
  reserved : Vector UInt8 4
deriving DecidableEq

namespace OffsetsTableHeader

def format : Format OffsetsTableHeader :=
  (Format.pair Signature.format <| .pair Check.format <| .pair .u16 <| .pair .u16 <| .pair .u16 <|
    .pair .u16 <| .pair .u32 (.bytes 4)).map
    (fun (a, b, c, d, e, f, g, h) => ⟨a, b, c, d, e, f, g, h⟩)
    (fun h => (h.signature, h.check, h.extentsOffset, h.extentsCount, h.tableOffset,
      h.fragmentsCount, h.flags, h.reserved))

theorem exact_format : format.Exact :=
  have w := Format.exact_u16
  (Signature.exact_format.pair <| Check.exact_format.pair <| w.pair <| w.pair <| w.pair <| w.pair <|
    Format.exact_u32.pair (Format.exact_bytes 4)).map (fun _ => rfl) (fun _ => rfl)

def fresh (extentsCount fragmentsCount : UInt16) : OffsetsTableHeader :=
  ⟨.ofKey Key.offsetsTable, default, 0, extentsCount, 0, fragmentsCount, 0, Vector.replicate 4 0⟩

def isValid (h : OffsetsTableHeader) : Bool := h.signature.isValid Key.offsetsTable

end OffsetsTableHeader

/-- Where a state of a block is stored. -/
structure BlockState where
  logStartPage : UInt16
  logArea : UInt8
  migrationId : UInt8
  byteOffset : UInt32
deriving DecidableEq, Inhabited

namespace BlockState

def format : Format BlockState :=
  (Format.pair .u16 <| .pair .u8 <| .pair .u8 .u32).map
    (fun (a, b, c, d) => ⟨a, b, c, d⟩)
    (fun s => (s.logStartPage, s.logArea, s.migrationId, s.byteOffset))

theorem exact_format : format.Exact :=
  (Format.exact_u16.pair <| Format.exact_u8.pair <| Format.exact_u8.pair Format.exact_u32).map
    (fun _ => rfl) (fun _ => rfl)

end BlockState

/-- A logical block of a file and the places of its two latest states. -/
structure BlockDescriptor where
  inode : UInt64
  logicalOffset : UInt32
  pebIndex : UInt16
  pebPage : UInt16
  states : Vector BlockState 2
deriving DecidableEq

namespace BlockDescriptor

def format : Format BlockDescriptor :=
  (Format.pair .u64 <| .pair .u32 <| .pair .u16 <| .pair .u16 (BlockState.format.vector 2)).map
    (fun (a, b, c, d, e) => ⟨a, b, c, d, e⟩)
    (fun d => (d.inode, d.logicalOffset, d.pebIndex, d.pebPage, d.states))

theorem exact_format : format.Exact :=
  (Format.exact_u64.pair <| Format.exact_u32.pair <| Format.exact_u16.pair <|
    Format.exact_u16.pair (BlockState.exact_format.vector 2)).map (fun _ => rfl) (fun _ => rfl)

/-- The descriptor of all zeros. -/
def zero : BlockDescriptor := ⟨0, 0, 0, 0, Vector.replicate 2 default⟩

/-- Every whole descriptor of an area. -/
def parseArea (area : List UInt8) : List BlockDescriptor :=
  format.readAll (area.length / format.size) area

end BlockDescriptor

end FlashVolume
