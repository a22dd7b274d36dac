/-
A volume of seven erase blocks of 2 KiB, small enough to be checked by evaluation. The initial
snapshot is in block 0, the superblock with the mapping cache in 1 and 2, the segment bitmap in 3 and 4
and the mapping table in 5 and 6. Its bytes are laid out one after the other, and read as a list of
blocks, so that a read only has to walk through the block it starts in.
-/
import FlashVolume.Check.Config
import FlashVolume.Check.Report

namespace FlashVolume

/-! ## Reading from a list -/

/-- Read from a list of `size` bytes; a range that crosses its end is refused. -/
def Handle.ofList (size : Nat) (bytes : List UInt8) : Handle where
  size
  read offset length :=
    if offset + length ≤ size then .ok ((bytes.drop offset).take length)
    else .error (.pastEnd offset length size)

/-- A byte string reads like the list of its bytes. -/
theorem Handle.ofBytes_toArray (bytes : List UInt8) :
    Handle.ofBytes ⟨bytes.toArray⟩ = .ofList bytes.length bytes := by
  unfold ofBytes ofList
  congr 1
  funext offset length
  rw [ByteArray.data_extract, Array.toList_extract, List.extract_eq_take_drop, Nat.add_sub_cancel_left]
  rfl

/-- Read from blocks of `width` bytes each that lie one after the other. -/
def Handle.ofBlocks (width : Nat) (blocks : List (List UInt8)) : Handle where
  size := blocks.length * width
  read offset length :=
    if offset + length ≤ blocks.length * width then
      .ok (((blocks.drop (offset / width)).flatten.drop (offset % width)).take length)
    else .error (.pastEnd offset length (blocks.length * width))

/-- What lies behind an offset starts in the block the offset is in. -/
theorem drop_flatten {α : Type} {width : Nat} (hwidth : 0 < width) {blocks : List (List α)}
    (hblocks : ∀ block ∈ blocks, block.length = width) (offset : Nat) :
    blocks.flatten.drop offset = (blocks.drop (offset / width)).flatten.drop (offset % width) := by
  induction blocks generalizing offset with
  | nil => rw [List.drop_nil, List.flatten_nil, List.drop_nil, List.drop_nil]
  | cons block blocks ih =>
    obtain ⟨hblock, hblocks⟩ := List.forall_mem_cons.1 hblocks
    by_cases hlt : offset < width
    · rw [Nat.div_eq_of_lt hlt, Nat.mod_eq_of_lt hlt, List.drop_zero]
    · have hle : width ≤ offset := Nat.le_of_not_lt hlt
      rw [List.flatten_cons, List.drop_append, List.drop_eq_nil_of_le (hblock ▸ hle), List.nil_append,
        hblock, ih hblocks, Nat.div_eq_sub_div hwidth hle, List.drop_succ_cons, Nat.mod_eq_sub_mod hle]

theorem Handle.ofList_flatten {width : Nat} (hwidth : 0 < width) {blocks : List (List UInt8)}
    (hblocks : ∀ block ∈ blocks, block.length = width) :
    Handle.ofList (blocks.length * width) blocks.flatten = .ofBlocks width blocks := by
  unfold ofList ofBlocks
  congr 1
  funext offset length
  rw [drop_flatten hwidth hblocks]

theorem length_flatten_blocks {α : Type} {width : Nat} {blocks : List (List α)}
    (hblocks : ∀ block ∈ blocks, block.length = width) : blocks.flatten.length = blocks.length * width := by
  rw [List.length_flatten, List.map_congr_left hblocks, List.map_const', List.sum_replicate_nat]

/-- A byte string made of blocks reads like these blocks. -/
theorem Device.ofBytes_flatten {width : Nat} (hwidth : 0 < width) {blocks : List (List UInt8)}
    (hblocks : ∀ block ∈ blocks, block.length = width) :
    Device.ofBytes ⟨blocks.flatten.toArray⟩ = .ofHandle (.ofBlocks width blocks) := by
  unfold ofBytes
  rw [Handle.ofBytes_toArray, length_flatten_blocks hblocks, Handle.ofList_flatten hwidth hblocks]

/-! ## The volume -/

/-- Compact volumes differ in how many segments of the segment bitmap their headers declare. -/
structure CompactVolume where
  bitmapSegments : UInt16

namespace CompactVolume

/-- A volume that declares all it has. -/
def whole : CompactVolume := ⟨1⟩

/-- A volume that declares no segment bitmap, though there is one. -/
def undeclared : CompactVolume := ⟨0⟩

def geometry : Geometry := ⟨512, 2048, 2048, 1⟩

/-- The volume header every segment repeats. -/
def volumeHeader (v : CompactVolume) : VolumeHeader :=
  let header := VolumeHeader.fresh geometry 7
  { header with
    superblocks := { header.superblocks with current := ⟨⟨1, 1⟩, ⟨2, 2⟩⟩ }
    segmentBitmap :=
      { header.segmentBitmap with
        segmentsCount := v.bitmapSegments
        flags := hasCopyFlag
        segments := header.segmentBitmap.segments.setIfInBounds 0 ⟨3, 4⟩ }
    mappingTable :=
      { header.mappingTable with
        flags := hasCopyFlag
        extents := header.mappingTable.extents.setIfInBounds 0 ⟨⟨5, 1, 0, 0⟩, ⟨6, 1, 0, 0⟩⟩ } }

/-- The header of the only log in an erase block. -/
def segment (v : CompactVolume) (kind : SegmentKind) : SegmentHeader :=
  { SegmentHeader.fresh geometry kind 4 7 with volume := v.volumeHeader }

/-- The header of a superblock log, which has a mapping cache and a footer. -/
def superblock (v : CompactVolume) : SegmentHeader :=
  let header := v.segment .superblock
  { header with
    areas :=
      (header.areas.setIfInBounds 7 (.ofRange 1024 96)).setIfInBounds 8 (.ofRange 1280 768) }

/-- The mapping cache: each logical block is in the physical one of the same number. -/
def cacheArea : List UInt8 :=
  CacheHeader.format.encode (.fresh 0 0 4 64 3 6) ++
    [(⟨3, 3⟩ : LebPeb), ⟨4, 4⟩, ⟨5, 5⟩, ⟨6, 6⟩].flatMap LebPeb.format.encode

/-- The bytes of a record whose check covers no more than itself. -/
def sealed {α : Type} [Sealed α] (record : α) : List UInt8 :=
  Sealed.encode (Sealed.sealRange record 16 1)

def zeros (count : Nat) : List UInt8 := List.replicate count 0

/-- The bytes of the erase block of a superblock. -/
def superblockPeb (v : CompactVolume) : List (List UInt8) :=
  [sealed v.superblock, zeros 256, cacheArea, zeros 160, sealed (LogFooter.fresh 2048 7)]

/-- The bytes of the erase block of any other segment, of which `boot` come before the header. -/
def segmentPeb (v : CompactVolume) (kind : SegmentKind) (boot : Nat) : List (List UInt8) :=
  [zeros boot, sealed (v.segment kind), zeros (1280 - boot)]

def bytes (v : CompactVolume) : List UInt8 :=
  (v.segmentPeb .initialSnapshot 1024 ++ v.superblockPeb ++ v.superblockPeb ++
    v.segmentPeb .segmentBitmap 0 ++ v.segmentPeb .segmentBitmap 0 ++
    v.segmentPeb .mappingTable 0 ++ v.segmentPeb .mappingTable 0).flatten

def device (v : CompactVolume) : Device := .ofBytes ⟨v.bytes.toArray⟩

theorem length_sealed {α : Type} [Sealed α] (h : (Sealed.format : Format α).Exact) (record : α) :
    (sealed record).length = (Sealed.format : Format α).size := h.length_encode _

theorem length_segment_block (header : SegmentHeader) {boot : Nat} (hboot : boot ≤ 1280) :
    [zeros boot, sealed header, zeros (1280 - boot)].flatten.length = 2048 := by
  have hheader : (sealed header).length = 768 :=
    (length_sealed SegmentHeader.exact_format header).trans SegmentHeader.size_format
  simp only [List.flatten_cons, List.flatten_nil, List.length_append, List.length_nil, hheader, zeros,
    List.length_replicate]
  omega

theorem length_superblockPeb (v : CompactVolume) : v.superblockPeb.flatten.length = 2048 := by
  have hheader : (sealed v.superblock).length = 768 :=
    (length_sealed SegmentHeader.exact_format _).trans SegmentHeader.size_format
  have hfooter : (sealed (LogFooter.fresh 2048 7)).length = 768 :=
    (length_sealed LogFooter.exact_format _).trans LogFooter.size_format
  have hcache : cacheArea.length = 96 := by decide
  simp only [superblockPeb, List.flatten_cons, List.flatten_nil, List.length_append, List.length_nil,
    hheader, hfooter, hcache, zeros, List.length_replicate]

/-- The erase blocks. -/
def blocks (v : CompactVolume) : List (List UInt8) :=
  [(v.segmentPeb .initialSnapshot 1024).flatten, v.superblockPeb.flatten, v.superblockPeb.flatten,
    (v.segmentPeb .segmentBitmap 0).flatten, (v.segmentPeb .segmentBitmap 0).flatten,
    (v.segmentPeb .mappingTable 0).flatten, (v.segmentPeb .mappingTable 0).flatten]

theorem bytes_eq (v : CompactVolume) : v.bytes = v.blocks.flatten := by
  simp only [bytes, blocks, List.flatten_append, List.flatten_cons, List.flatten_nil, List.append_nil,
    List.append_assoc]

theorem length_of_mem_blocks (v : CompactVolume) : ∀ block ∈ v.blocks, block.length = 2048 := by
  simp only [blocks, List.forall_mem_cons]
  refine ⟨length_segment_block _ (by decide), v.length_superblockPeb, v.length_superblockPeb,
    length_segment_block _ (by decide), length_segment_block _ (by decide),
    length_segment_block _ (by decide), length_segment_block _ (by decide), List.forall_mem_nil _⟩

/-- The device reads like its erase blocks. -/
theorem device_eq (v : CompactVolume) : v.device = .ofHandle (.ofBlocks 2048 v.blocks) := by
  unfold device
  rw [bytes_eq, Device.ofBytes_flatten (by decide) v.length_of_mem_blocks]

/-! ## The check -/

/-- What a check of the volume by default options comes to: the verdict, and how many pairs of the
segment bitmap and of the mapping table its newest point has. -/
def outcome (device : Device) : Option (CheckState × Option (Nat × Nat)) :=
  match device.check Config.default.detectOptions with
  | .ok (d, report) =>
    some (report.state, d.history.latest?.map fun p => (p.segmentBitmap.length, p.mappingTable.length))
  | .error _ => none

theorem exists_check {device : Device} {state : CheckState} {pairs : Option (Nat × Nat)}
    (h : outcome device = some (state, pairs)) :
    ∃ d report, device.check Config.default.detectOptions = .ok (d, report) ∧ report.state = state ∧
      (d.history.latest?.map fun p => (p.segmentBitmap.length, p.mappingTable.length)) = pairs := by
  unfold outcome at h
  rcases hcheck : device.check Config.default.detectOptions with cause | ⟨d, report⟩ <;> rw [hcheck] at h
  · cases h
  · cases h
    exact ⟨d, report, rfl, rfl, rfl⟩

-- One evaluation for both: separate ones would wait for one another.
set_option maxRecDepth 100000 in
theorem outcomes : outcome whole.device = some (.healthy, some (1, 1)) ∧
    outcome undeclared.device = some (.healthy, some (0, 0)) := by
  rw [device_eq, device_eq]
  decide +kernel

theorem outcome_whole : outcome whole.device = some (.healthy, some (1, 1)) := outcomes.1

theorem outcome_undeclared : outcome undeclared.device = some (.healthy, some (0, 0)) := outcomes.2

end CompactVolume

end FlashVolume
