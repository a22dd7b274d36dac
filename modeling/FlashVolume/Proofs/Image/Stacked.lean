/-
An erase block with logs on top of one another. Two full logs follow each other in it; the second one has a
footer, and goes on in two partial logs without one.
-/
import FlashVolume.Log.Walk
import FlashVolume.Proofs.Image.Compact

namespace FlashVolume

/-- Bytes and creation time of the partial log on a page, and whether it has a footer. -/
def Volume.partialAt (v : Volume) (peb page : Nat) : Option (UInt32 × UInt64 × Bool) :=
  (v.partialHeader? peb page).toOption.join.map fun header =>
    (header.logBytes, header.createTime, header.hasFlag LogFlag.hasFooter)

namespace StackedVolume

open CompactVolume (sealed zeros length_sealed)

def geometry : Geometry := ⟨512, 4096, 4096, 1⟩

/-- The header of the first full log, which takes two pages. -/
def opening : SegmentHeader := .fresh geometry .superblock 2 7

/-- The header of the second full log, which takes the rest of the erase block. -/
def continued : SegmentHeader :=
  let header := SegmentHeader.fresh geometry .superblock 6 7
  { header with areas := header.areas.setIfInBounds 8 (.ofRange 768 768) }

/-- A partial log that wrote a page. -/
def partialLog (checkpoint : UInt64) : PartialHeader :=
  { PartialHeader.fresh geometry .superblock 6 512 7 with checkpoint }

def logs : List (List UInt8) :=
  [sealed opening, zeros 256, sealed continued, sealed (LogFooter.fresh 1536 7), sealed (partialLog 1),
    sealed (partialLog 2), zeros 512]

/-- An erased block, and one full of logs. -/
def blocks : List (List UInt8) := [zeros 4096, logs.flatten]

def stacked : Volume := ⟨(Device.ofBytes ⟨blocks.flatten.toArray⟩).handle, geometry⟩

theorem length_logs : logs.flatten.length = 4096 := by
  have hsegment (header : SegmentHeader) : (sealed header).length = 768 :=
    (length_sealed SegmentHeader.exact_format header).trans SegmentHeader.size_format
  have hpartial (header : PartialHeader) : (sealed header).length = 512 :=
    (length_sealed PartialHeader.exact_format header).trans PartialHeader.size_format
  have hfooter (footer : LogFooter) : (sealed footer).length = 768 :=
    (length_sealed LogFooter.exact_format footer).trans LogFooter.size_format
  simp only [logs, List.flatten_cons, List.flatten_nil, List.length_append, List.length_nil, hsegment,
    hpartial, hfooter, zeros, List.length_replicate]

theorem length_of_mem_blocks : ∀ block ∈ blocks, block.length = 4096 := by
  simp only [blocks, List.forall_mem_cons, zeros, List.length_replicate, true_and]
  exact ⟨length_logs, List.forall_mem_nil _⟩

theorem stacked_eq : stacked = ⟨.ofBlocks 4096 blocks, geometry⟩ := by
  unfold stacked
  rw [Device.ofBytes_flatten (by decide) length_of_mem_blocks]
  rfl

/-- The page that the walk over the full logs comes to. -/
def lastFull : Option Nat := (stacked.walkFull 1 0 opening).toOption.map (·.1)

/-- The page that the walk over the partial logs of the second full log comes to, the checkpoint there, and
whether the log has a footer. -/
def lastPartial : Option (Nat × UInt64 × Bool) :=
  (stacked.walkPartial 1 2 continued).toOption.map fun log => (log.page, log.checkpoint, log.footer.isSome)

set_option maxRecDepth 100000 in
theorem last_eq : lastFull = some 2 ∧ lastPartial = some (6, 2, false) := by
  unfold lastFull lastPartial
  rw [stacked_eq]
  decide +kernel

/-- The second full log wrote three pages to begin with, and a page with each of two partial logs. -/
def writtenPages : Option UInt32 × List (Option (UInt32 × UInt64 × Bool)) :=
  ((stacked.footerOf? 1 2 (.ofSegment continued)).toOption.join.map (·.logBytes),
    [stacked.partialAt 1 5, stacked.partialAt 1 6])

set_option maxRecDepth 100000 in
theorem written_eq : writtenPages = (some 1536, [some (512, 7, false), some (512, 7, false)]) ∧
    (stacked.partialHeader? 1 7).toOption = some none := by
  unfold writtenPages
  rw [stacked_eq]
  decide +kernel

end StackedVolume

end FlashVolume
