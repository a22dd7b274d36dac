/-
Images of volumes, built record by record. Headers, footers and areas are put where detection reads
them; a put that does not fit in the image is refused, and one that fits leaves every byte outside
its range as it was.
-/
import FlashVolume.Record.Footer
import FlashVolume.Record.PartialHeader
import FlashVolume.Record.SegmentHeader

namespace FlashVolume

/-- The bytes of a volume and the geometry its records are placed by. -/
structure Image where
  geometry : Geometry
  bytes : ByteArray

namespace Image

/-- A zeroed image of `pebs` erase blocks. -/
def zero (geometry : Geometry) (pebs : Nat) : Image :=
  ⟨geometry, ⟨Array.replicate (pebs * geometry.eraseSize) 0⟩⟩

/-- Write bytes at an absolute offset. -/
def put? (image : Image) (offset : Nat) (data : List UInt8) : Option Image :=
  let data : ByteArray := ⟨data.toArray⟩
  if offset + data.size ≤ image.bytes.size then
    some { image with bytes := data.copySlice 0 image.bytes offset data.size }
  else
    none

/-- The bytes at an absolute offset, as far as the image goes. -/
def read (image : Image) (offset length : Nat) : List UInt8 :=
  (image.bytes.extract offset (offset + length)).data.toList

/-- Write bytes into the log at `page` of `peb`, `start` bytes behind its start. -/
def putArea? (image : Image) (peb page start : Nat) (data : List UInt8) : Option Image :=
  image.put? (image.geometry.logOffset peb page + start) data

/-- Write the header of the log at `page` of `peb`. -/
def putHeader? (image : Image) (peb page : Nat) (data : List UInt8) : Option Image :=
  image.put? (image.geometry.headerOffset peb page) data

/-- Seal and write a segment header. -/
def putSegment? (image : Image) (peb page : Nat) (header : SegmentHeader) : Option Image :=
  image.putHeader? peb page (Sealed.encode (Sealed.sealWhole header))

/-- Seal and write a partial log header. -/
def putPartial? (image : Image) (peb page : Nat) (header : PartialHeader) : Option Image :=
  image.putHeader? peb page (Sealed.encode (Sealed.sealWhole header))

/-- Seal and write a footer `start` bytes behind the start of a log. -/
def putFooter? (image : Image) (peb page start : Nat) (footer : LogFooter) : Option Image :=
  image.putArea? peb page start (Sealed.encode (Sealed.sealWhole footer))

/-- Zero a whole erase block. -/
def erase? (image : Image) (peb : Nat) : Option Image :=
  image.put? (peb * image.geometry.eraseSize) (List.replicate image.geometry.eraseSize 0)

/-- Copy the erase block `source` over another one. -/
def copyPeb? (image : Image) (source target : Nat) : Option Image :=
  let size := image.geometry.eraseSize
  if (source + 1) * size ≤ image.bytes.size then
    image.put? (target * size) (image.read (source * size) size)
  else
    none

/-- Flip the bits of `mask` in the byte at an absolute offset. -/
def flip? (image : Image) (offset : Nat) (mask : UInt8) : Option Image :=
  match image.read offset 1 with
  | [byte] => image.put? offset [byte ^^^ mask]
  | _ => none

/-- Cut the image off, or extend it with zeros. -/
def resize (image : Image) (size : Nat) : Image :=
  { image with
    bytes := image.bytes.extract 0 size ++ ⟨Array.replicate (size - image.bytes.size) 0⟩ }

end Image

end FlashVolume
