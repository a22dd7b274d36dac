/-
Areas of a log. A header describes nine areas by offset and size, counted from the start of its log;
an offset or size that is zero or all ones marks an area the log does not have.
-/
import FlashVolume.Record.Seal
import FlashVolume.Region

namespace FlashVolume

/-- The byte range of an area, and a check nothing reads. -/
structure AreaDescriptor where
  offset : UInt32
  size : UInt32
  check : Check
deriving DecidableEq, Inhabited

/-- The areas of a log in the order of their descriptors. -/
inductive Area
  | blockBitmap
  | snapshotRules
  | offsetsTable
  | coldPayload
  | warmPayload
  | hotPayload
  | blockDescriptors
  | mappingCache
  | footer
deriving DecidableEq

/-- The place of the area's descriptor. -/
def Area.index : Area → Fin 9
  | blockBitmap => 0
  | snapshotRules => 1
  | offsetsTable => 2
  | coldPayload => 3
  | warmPayload => 4
  | hotPayload => 5
  | blockDescriptors => 6
  | mappingCache => 7
  | footer => 8

namespace AreaDescriptor

def format : Format AreaDescriptor :=
  (Format.pair .u32 <| .pair .u32 Check.format).map
    (fun (offset, size, check) => ⟨offset, size, check⟩)
    (fun d => (d.offset, d.size, d.check))

theorem exact_format : format.Exact :=
  (Format.exact_u32.pair <| Format.exact_u32.pair Check.exact_format).map
    (fun _ => rfl) (fun _ => rfl)

/-- A descriptor of `size` bytes at `offset`. -/
def ofRange (offset size : UInt32) : AreaDescriptor := ⟨offset, size, ⟨0, 0, 0⟩⟩

/-- Neither offset nor size is zero or all ones. -/
def isPresent (d : AreaDescriptor) : Bool :=
  0 < d.offset && d.offset < 0xFFFFFFFF && 0 < d.size && d.size < 0xFFFFFFFF

/-- The described range within a log of `span` bytes. -/
def region (d : AreaDescriptor) (span : Nat) : Except Region.Error Region :=
  Region.within span d.offset.toNat d.size.toNat

/-- The byte just past the described range. -/
def stop (d : AreaDescriptor) : Nat := d.offset.toNat + d.size.toNat

end AreaDescriptor

/-- The nine descriptors of a header. -/
abbrev AreaTable := Vector AreaDescriptor 9

namespace AreaTable

def format : Format AreaTable := AreaDescriptor.format.vector 9

theorem exact_format : format.Exact := AreaDescriptor.exact_format.vector 9

/-- The descriptor at an index, if the log has that area. -/
def present? (t : AreaTable) (index : Nat) : Option AreaDescriptor :=
  t[index]?.filter (·.isPresent)

/-- The furthest byte covered by an area the log has. -/
def stop (t : AreaTable) : Nat :=
  ((t.toList.filter (·.isPresent)).map (·.stop)).foldl max 0

end AreaTable

/-! ## Flags of a log -/

namespace LogFlag

def hasBlockBitmap : UInt32 := 0x1
def hasOffsetsTable : UInt32 := 0x2
def hasMappingCache : UInt32 := 0x80
def isPartial : UInt32 := 0x100
def hasFooter : UInt32 := 0x400

end LogFlag

end FlashVolume
