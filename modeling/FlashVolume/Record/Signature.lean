/-
The signature that opens every record: a tag common to the whole filesystem, a key for the kind of
record, and a format revision that is written but never checked.
-/
import FlashVolume.Format

namespace FlashVolume

/-- The first eight bytes of a record. -/
structure Signature where
  common : UInt32
  key : UInt16
  major : UInt8
  minor : UInt8
deriving DecidableEq, Inhabited

namespace Signature

/-- The tag shared by every record ("SsDf"). -/
def commonTag : UInt32 := 0x53734466

/-- The signature of a fresh record with this key. -/
def ofKey (key : UInt16) : Signature := ⟨commonTag, key, 1, 20⟩

/-- Both the common tag and the key match; the revision may be any. -/
def isValid (s : Signature) (key : UInt16) : Bool := s.common == commonTag && s.key == key

def format : Format Signature :=
  (Format.pair .u32 <| .pair .u16 <| .pair .u8 .u8).map
    (fun (common, key, major, minor) => ⟨common, key, major, minor⟩)
    (fun s => (s.common, s.key, s.major, s.minor))

theorem exact_format : format.Exact :=
  (Format.exact_u32.pair <| Format.exact_u16.pair <| Format.exact_u8.pair Format.exact_u8).map
    (fun _ => rfl) (fun _ => rfl)

theorem isValid_ofKey (key : UInt16) : (ofKey key).isValid key = true := by
  simp [ofKey, isValid]

end Signature

/-! ## Keys, one per kind of record -/

namespace Key

def segmentHeader : UInt16 := 0x5348
def partialHeader : UInt16 := 0x504C
def footer : UInt16 := 0x4C46
def blockBitmap : UInt16 := 0x424D
def offsetsTable : UInt16 := 0x4F54
def mappingCache : UInt16 := 0x4D43
def inodesTree : UInt16 := 0x4942
def snapshotsTree : UInt16 := 0x5342
def invalidExtentsTree : UInt16 := 0x4945
def sharedExtentsTree : UInt16 := 0x5842
def sharedDictionaryTree : UInt16 := 0x4442

end Key

end FlashVolume
