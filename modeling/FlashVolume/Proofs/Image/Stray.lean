/-
A device with logs that are out of line, in an erase block each. In block 1 a partial log ends inside a page and
another one begins behind it. The partial log in block 2 is of another kind than its segment. The superblock in
block 3 has moved on to block 4, where a partial log has an older checkpoint than the header of its segment.
-/
import FlashVolume.Log.Chain
import FlashVolume.Proofs.Image.Stacked

namespace FlashVolume.StrayVolume

open CompactVolume (sealed zeros length_sealed)
open StackedVolume (geometry)

/-- The header of a superblock segment of one full log, whose first part takes two pages. -/
def opening : SegmentHeader :=
  let header := SegmentHeader.fresh geometry .superblock 8 7
  { header with areas := header.areas.setIfInBounds 6 (.ofRange 768 256) }

/-- A partial log of this kind and of so many bytes. -/
def partialLog (kind : SegmentKind) (logBytes : UInt32) (checkpoint : UInt64) : PartialHeader :=
  { PartialHeader.fresh geometry kind 8 logBytes 7 with checkpoint }

/-- The header of a superblock that names block 4 as the next one. -/
def moving : SegmentHeader :=
  { opening with
    checkpoint := 5
    volume :=
      { opening.volume with
        superblocks := { opening.volume.superblocks with next := ⟨⟨4, 4⟩, .unused⟩ } } }

/-- The volume header that names block 3 as the current one. -/
def volumeHeader : VolumeHeader :=
  { opening.volume with
    superblocks := { opening.volume.superblocks with current := ⟨⟨3, 3⟩, .unused⟩ } }

/-- An erase block with a full log and, two pages on, one partial log. -/
def block (header : SegmentHeader) (partialLog : PartialHeader) : List (List UInt8) :=
  [sealed header, zeros 256, sealed partialLog, zeros 2560]

def unevenBlock : List (List UInt8) :=
  [sealed opening, zeros 256, sealed (partialLog .superblock 768 2), zeros 512,
    sealed (partialLog .superblock 512 3), zeros 1536]

def blocks : List (List UInt8) :=
  [zeros 4096, unevenBlock.flatten, (block opening (partialLog .mappingTable 512 0)).flatten,
    [sealed moving, zeros 3328].flatten,
    (block { opening with checkpoint := 6 } (partialLog .superblock 512 3)).flatten]

def stray : Volume := ⟨(Device.ofBytes ⟨blocks.flatten.toArray⟩).handle, geometry⟩

theorem length_of_mem_blocks : ∀ block ∈ blocks, block.length = 4096 := by
  have hsegment (header : SegmentHeader) : (sealed header).length = 768 :=
    (length_sealed SegmentHeader.exact_format header).trans SegmentHeader.size_format
  have hpartial (header : PartialHeader) : (sealed header).length = 512 :=
    (length_sealed PartialHeader.exact_format header).trans PartialHeader.size_format
  simp only [blocks, block, unevenBlock, List.forall_mem_cons, List.flatten_cons, List.flatten_nil,
    List.length_append, List.length_nil, hsegment, hpartial, zeros, List.length_replicate]
  exact ⟨trivial, trivial, trivial, trivial, trivial, List.forall_mem_nil _⟩

theorem stray_eq : stray = ⟨.ofBlocks 4096 blocks, geometry⟩ := by
  unfold stray
  rw [Device.ofBytes_flatten (by decide) length_of_mem_blocks]
  rfl

/-- The page that the walk over the partial logs of block 1 comes to. -/
def lastUneven : Option Nat := (stray.walkPartial 1 0 opening).toOption.map (·.page)

/-- The kinds that the newest log of an erase block declares: in its own header, and in that of its full log. -/
def kinds (peb : Nat) : Option (Option SegmentKind × Option SegmentKind) :=
  (stray.walk peb 0 opening).toOption.map fun log => (log.header.kind?, log.segment.kind?)

/-- The checkpoint of the newest log in the block that is named as the current one, and of the log that following
the superblock comes to. -/
def checkpoints : Option (Option (UInt64 × UInt64)) := do
  let current ← (stray.findLast? 3 .superblock).toOption
  let last ← (stray.followSuperblocks? volumeHeader .main 7).toOption
  return do return ((← current).checkpoint, (← last).checkpoint)

-- One evaluation for all: separate ones would wait for one another.
set_option maxRecDepth 100000 in
theorem outcomes : [stray.partialAt 1 2, stray.partialAt 1 4] = [some (768, 7, false), some (512, 7, false)] ∧
    (stray.partialHeader? 1 5).toOption = some none ∧ lastUneven = some 2 ∧
    kinds 1 = some (some .superblock, some .superblock) ∧ kinds 2 = some (some .mappingTable, some .superblock) ∧
    checkpoints = some (some (5, 3)) := by
  unfold lastUneven kinds checkpoints
  rw [stray_eq]
  decide +kernel

end FlashVolume.StrayVolume
