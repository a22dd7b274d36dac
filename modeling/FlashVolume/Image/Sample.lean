/-
A small but complete volume: sixteen erase blocks of 128 KiB with every bootstrap structure and its
copy. The initial snapshot is in block 0, the superblock in 1 and 2, the segment bitmap in 9 and 10,
the mapping table in 11 to 14, and user data in 15.
-/
import FlashVolume.Image
import FlashVolume.Record.Block
import FlashVolume.Record.CacheHeader

namespace FlashVolume

/-- What sample volumes differ in: their creation time, the state their footers record, and whether
the copy of the superblock was written. -/
structure SampleVolume where
  createTime : UInt64
  state : UInt16
  superblockCopy : Bool

namespace SampleVolume

/-- A healthy sample. -/
def healthy : SampleVolume := ⟨1700000000, MountState.unmounted, true⟩

def geometry : Geometry := ⟨4096, 131072, 131072, 1⟩

def pebs : Nat := 16

/-- Pages of every log. -/
def logPages : UInt16 := 4

/-- The pairs of the mapping cache. -/
def mappings : List LebPeb := [⟨3, 9⟩, ⟨4, 10⟩, ⟨5, 11⟩, ⟨6, 12⟩, ⟨7, 13⟩, ⟨8, 14⟩]

/-- The volume header every segment repeats. -/
def volumeHeader (sample : SampleVolume) : VolumeHeader :=
  let header := VolumeHeader.fresh geometry sample.createTime
  { header with
    superblocks := { header.superblocks with current := ⟨⟨1, 1⟩, ⟨2, 2⟩⟩ }
    segmentBitmap :=
      { header.segmentBitmap with
        segmentsCount := 1
        flags := hasCopyFlag
        segments := header.segmentBitmap.segments.set 0 ⟨3, 4⟩ }
    mappingTable :=
      { header.mappingTable with
        flags := hasCopyFlag
        extents := header.mappingTable.extents.set 0 ⟨⟨5, 2, 0, 0⟩, ⟨7, 2, 0, 0⟩⟩ } }

/-- The header of the only full log in an erase block. -/
def segment (sample : SampleVolume) (kind : SegmentKind) (peb : UInt64) : SegmentHeader :=
  { SegmentHeader.fresh geometry kind logPages sample.createTime with
    volume := sample.volumeHeader
    checkpoint := 1
    segmentId := peb
    lebId := peb
    pebId := peb }

/-- The mapping cache area: one plain fragment. -/
def cacheArea : List UInt8 :=
  let payload := mappings.flatMap LebPeb.format.encode
  CacheHeader.format.encode
      (.fresh 0 0 mappings.length.toUInt16 payload.length.toUInt16 3 8) ++ payload

/-- The footer of a superblock log. -/
def footer (sample : SampleVolume) : LogFooter :=
  let footer := LogFooter.fresh 16384 sample.createTime
  { footer with
    checkpoint := 1
    volume :=
      { footer.volume with
        state := sample.state
        uuid := #v[0x5d, 0x0c, 0x4f, 0x6e, 0x2b, 0x61, 0x4a, 0x3c, 0x9d, 0x11, 0x7e, 0x02, 0xa4, 0x58,
          0x33, 0xc1]
        label := #v[0x73, 0x61, 0x6d, 0x70, 0x6c, 0x65, 0, 0, 0, 0, 0, 0, 0, 0, 0, 0] } }

/-- Write a superblock log with its areas and footer. -/
def putSuperblock? (sample : SampleVolume) (image : Image) (peb : Nat) : Option Image := do
  let header := sample.segment .superblock peb.toUInt64
  let area (start : UInt32) (size : Nat) := AreaDescriptor.ofRange start size.toUInt32
  let header :=
    { header with
      flags := LogFlag.hasBlockBitmap ||| LogFlag.hasOffsetsTable ||| LogFlag.hasMappingCache |||
        LogFlag.hasFooter
      areas := (((header.areas.set 0 (area 4096 BlockBitmapHeader.format.size)).set 2
        (area 4608 OffsetsTableHeader.format.size)).set 7 (area 8192 cacheArea.length)).set 8
        (area 12288 LogFooter.format.size) }
  let image ← image.putSegment? peb 0 header
  let image ← image.putArea? peb 0 4096 (BlockBitmapHeader.format.encode (.fresh 1 64))
  let image ← image.putArea? peb 0 4608 (OffsetsTableHeader.format.encode (.fresh 1 1))
  let image ← image.putArea? peb 0 8192 cacheArea
  image.putFooter? peb 0 12288 sample.footer

/-- Write segments of one kind to some erase blocks. -/
def putSegments? (sample : SampleVolume) (kind : SegmentKind) (image : Image) (pebs : List Nat) :
    Option Image :=
  pebs.foldlM (fun image peb => image.putSegment? peb 0 (sample.segment kind peb.toUInt64)) image

/-- The image of the volume. -/
def image? (sample : SampleVolume) : Option Image := do
  let image ← sample.putSegments? .initialSnapshot (.zero geometry pebs) [0]
  let image ← sample.putSuperblock? image 1
  let image ← if sample.superblockCopy then sample.putSuperblock? image 2 else some image
  let image ← sample.putSegments? .segmentBitmap image [9, 10]
  let image ← sample.putSegments? .mappingTable image [11, 12, 13, 14]
  sample.putSegments? .userData image [15]

end SampleVolume

end FlashVolume
