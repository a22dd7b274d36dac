/-
A device on which the superblock has moved on. Erase blocks 1 and 2 hold superblocks that name each other as
the next one, and that in block 2 has the newer checkpoint.
-/
import FlashVolume.Log.Chain
import FlashVolume.Proofs.Image.Compact

namespace FlashVolume.CompactVolume

/-- A superblock segment that names a successor. -/
def movingSuperblock (next : UInt64) (checkpoint : UInt64) : SegmentHeader :=
  let header := whole.segment .superblock
  { header with
    checkpoint
    volume :=
      { header.volume with
        superblocks := { header.volume.superblocks with next := ⟨⟨next, next⟩, .unused⟩ } } }

/-- An erased block, and the two superblocks. -/
def movedBlocks : List (List UInt8) :=
  [zeros 2048, [zeros 0, sealed (movingSuperblock 2 1), zeros 1280].flatten,
    [zeros 0, sealed (movingSuperblock 1 2), zeros 1280].flatten]

def moved : Volume := ⟨(Device.ofBytes ⟨movedBlocks.flatten.toArray⟩).handle, geometry⟩

theorem length_of_mem_movedBlocks : ∀ block ∈ movedBlocks, block.length = 2048 := by
  simp only [movedBlocks, List.forall_mem_cons, zeros, List.length_replicate, true_and]
  exact ⟨length_segment_block _ (by decide), length_segment_block _ (by decide), List.forall_mem_nil _⟩

theorem moved_eq : moved = ⟨.ofBlocks 2048 movedBlocks, geometry⟩ := by
  unfold moved
  rw [Device.ofBytes_flatten (by decide) length_of_mem_movedBlocks]
  rfl

/-- The erase block that following the superblock of the moved volume comes to. -/
def lastMoved : Option Nat :=
  (moved.followSuperblocks? whole.volumeHeader .main 7).toOption.join.map (·.peb)

set_option maxRecDepth 100000 in
theorem lastMoved_eq : lastMoved = some 2 := by
  unfold lastMoved
  rw [moved_eq]
  decide +kernel

end FlashVolume.CompactVolume
