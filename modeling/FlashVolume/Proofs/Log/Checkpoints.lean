/-
Checkpoints along the superblock chain. A hop is made because the superblock that opens the next erase block has a
newer checkpoint than the log before it; what is kept is the log that comes last in that erase block. So the chain
goes back in time only where a log is older than the header that opens its erase block.
-/
import FlashVolume.Proofs.Image.Stray
import FlashVolume.Proofs.Log.Chain

namespace FlashVolume.Volume

variable {v : Volume} {header : VolumeHeader} {i : Instance} {createTime : UInt64} {peb : Nat}
  {start log : FoundLog} {hops : List FoundLog}

/-- The erase block of the second log opens with a newer checkpoint than that of the first one. -/
def OpensNewer (v : Volume) (log next : FoundLog) : Prop :=
  ∃ header, v.segmentHeader? next.peb 0 = .ok (some header) ∧ log.checkpoint < header.checkpoint

/-- Every hop leads to an erase block that opens with a newer checkpoint, whatever the logs in it have. -/
theorem Visits.opensNewer (h : v.Visits header i createTime start hops) :
    (start :: hops).IsChain v.OpensNewer :=
  h.chain.imp fun _ _ hhop =>
    have ⟨opening, hopening, hlt, _⟩ := hhop.admitted
    ⟨opening, hopening, hlt⟩

/-- Hops through erase blocks in checkpoint order lead to a newer checkpoint. -/
theorem Visits.checkpoint_lt_of_mem (h : v.Visits header i createTime start hops)
    (horder : ∀ next ∈ hops, v.inCheckpointOrder next.peb) :
    ∀ next ∈ hops, start.checkpoint < next.checkpoint :=
  (List.pairwise_cons.1 (h.pairwise_checkpoint_lt horder)).1

theorem exists_visits (hcurrent : header.superblocks.peb? .current i = some peb)
    (hstart : v.findLast? peb .superblock = .ok (some start))
    (h : v.followSuperblocks? header i createTime = .ok (some log)) :
    ∃ hops, v.Visits header i createTime start hops ∧ hops.getLastD start = log := by
  obtain ⟨pebs, first, hops, -, hvisits, rfl, -⟩ := visits_of_followSuperblocks? h
  cases hcurrent.symm.trans hvisits.current
  cases hstart.symm.trans hvisits.newest
  exact ⟨hops, hvisits, rfl⟩

/-- Following a copy of the superblock returns the last log of a run of hops from the newest one in the erase block
that is named as the current one. Each hop of such a run leads to an erase block that opens with a newer
checkpoint. If the newest log in each of those erase blocks has no older checkpoint than the header in front, then
the log that is returned has no older one than the log the run started from, and a newer one if any hop was made. -/
theorem followSuperblocks?_climbs (v : Volume) {header : VolumeHeader} {i : Instance} {createTime : UInt64}
    {peb : Nat} {start log : FoundLog} (hcurrent : header.superblocks.peb? .current i = some peb)
    (hstart : v.findLast? peb .superblock = .ok (some start))
    (h : v.followSuperblocks? header i createTime = .ok (some log)) :
    (∃ hops, v.Visits header i createTime start hops ∧ hops.getLastD start = log) ∧
      ∀ hops, v.Visits header i createTime start hops → hops.getLastD start = log →
        (start :: hops).IsChain v.OpensNewer ∧
          ((∀ next ∈ hops, v.inCheckpointOrder next.peb) →
            start.checkpoint ≤ log.checkpoint ∧ (hops ≠ [] → start.checkpoint < log.checkpoint)) := by
  refine ⟨exists_visits hcurrent hstart h, fun hops hvisits hlast => ?_⟩
  refine ⟨hvisits.opensNewer, fun horder => ?_⟩
  have hnewer := hvisits.checkpoint_lt_of_mem horder
  subst hlast
  rcases hops with _ | ⟨next, hops⟩
  · exact ⟨UInt64.le_refl _, fun hne => absurd rfl hne⟩
  · rw [List.getLastD_cons]
    have hlt := hnewer (hops.getLastD next) List.getLastD_mem_cons
    exact ⟨UInt64.le_of_lt hlt, fun _ => hlt⟩

/-- The superblock that has moved on from block 1 to block 2 is newer there. -/
theorem moved_climbs : ∃ start log,
    CompactVolume.whole.volumeHeader.superblocks.peb? .current .main = some 1 ∧
      CompactVolume.moved.findLast? 1 .superblock = .ok (some start) ∧
      CompactVolume.moved.followSuperblocks? CompactVolume.whole.volumeHeader .main 7 = .ok (some log) ∧
      log.peb = 2 ∧ start.checkpoint < log.checkpoint := by
  have hcurrent : CompactVolume.whole.volumeHeader.superblocks.peb? .current .main = some 1 := by decide
  obtain ⟨log, hlog, hpeb⟩ := Option.map_eq_some_iff.1 CompactVolume.lastMoved_eq
  rw [Option.join_eq_some_iff, Outcome.toOption_eq_some] at hlog
  obtain ⟨-, start, -, -, ⟨hsame, hstart, -⟩, -⟩ := visits_of_followSuperblocks? hlog
  have hone : 1 = start.peb := Option.some.inj (hcurrent.symm.trans hsame)
  rw [← hone] at hstart
  obtain ⟨⟨hops, hvisits, hlast⟩, hclimbs⟩ :=
    followSuperblocks?_climbs CompactVolume.moved hcurrent hstart hlog
  have horder : ∀ next ∈ hops, CompactVolume.moved.inCheckpointOrder next.peb := fun next hnext =>
    moved_checkpointOrdered.inCheckpointOrder (hvisits.newest_of_mem next (List.mem_cons_of_mem _ hnext))
  refine ⟨start, log, hcurrent, hstart, hlog, hpeb, ((hclimbs hops hvisits hlast).2 horder).2 ?_⟩
  rintro rfl
  rw [← hlast, List.getLastD_nil, ← hone] at hpeb
  cases hpeb

/-- The chain goes back in time: block 3 is named as the current one, and block 4, which opens with a newer
checkpoint, ends with an older one. -/
theorem stray_goes_back : ∃ start log,
    StrayVolume.volumeHeader.superblocks.peb? .current .main = some 3 ∧
      StrayVolume.stray.findLast? 3 .superblock = .ok (some start) ∧
      StrayVolume.stray.followSuperblocks? StrayVolume.volumeHeader .main 7 = .ok (some log) ∧
      log.checkpoint < start.checkpoint := by
  obtain ⟨-, -, -, -, -, hcheckpoints⟩ := StrayVolume.outcomes
  simp only [StrayVolume.checkpoints, Option.bind_eq_bind, Option.bind_eq_some_iff, Option.pure_def,
    Option.some.injEq, Prod.mk.injEq, Outcome.toOption_eq_some] at hcheckpoints
  obtain ⟨_, hcurrent, _, hlast, start, rfl, log, rfl, hstart, hlog⟩ := hcheckpoints
  refine ⟨start, log, by decide, hcurrent, hlast, ?_⟩
  rw [hstart, hlog]
  decide

end FlashVolume.Volume
