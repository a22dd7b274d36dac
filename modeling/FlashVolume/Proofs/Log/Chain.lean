/-
Following the superblock chain to its end. Each hop leads to the newest log of another erase block of the
volume, and there are no more hops than erase blocks. Where the logs of an erase block are written in
checkpoint order, checkpoints increase from hop to hop; so no erase block is visited twice, the hops never
run out, and the log that is returned has no successor.
-/
import FlashVolume.Proofs.Image.Moved
import FlashVolume.Proofs.Log.Belongs
import Mathlib.Data.List.Chain
import Mathlib.Data.List.Nodup
import Mathlib.Data.List.Perm.Subperm

namespace FlashVolume.Volume

variable {v : Volume} {i : Instance} {createTime : UInt64}

/-! ## Hops -/

/-- One hop in the chain of a copy: the log names another erase block, a superblock that takes over opens
it, and the newest log there is the next one. -/
def Hop (v : Volume) (i : Instance) (createTime : UInt64) (log next : FoundLog) : Prop :=
  ∃ header, nextSuperblock? log i = some next.peb ∧
    v.findSegment? next.peb .superblock 0 = .ok (some header) ∧ succeeds header log createTime ∧
    v.walk next.peb 0 header = .ok next

/-- The hop that is due from the log stops the run: its erase block cannot be read. -/
def HopStops (v : Volume) (i : Instance) (createTime : UInt64) (log : FoundLog) (stop : Stop) : Prop :=
  ∃ peb, nextSuperblock? log i = some peb ∧
    (v.findSegment? peb .superblock 0 = .error stop ∨
      ∃ header, v.findSegment? peb .superblock 0 = .ok (some header) ∧
        succeeds header log createTime ∧ v.walk peb 0 header = .error stop)

/-- The log has no successor: it names no next erase block, or its own, or one that does not open with a
superblock segment of the volume with a newer checkpoint. -/
def EndsChain (v : Volume) (i : Instance) (createTime : UInt64) (log : FoundLog) : Prop :=
  log.segment.volume.superblocks.peb? .next i = none ∨
    log.segment.volume.superblocks.peb? .next i = some log.peb ∨
    ∃ peb found, log.segment.volume.superblocks.peb? .next i = some peb ∧
      v.findSegment? peb .superblock 0 = .ok found ∧
      ∀ header, found = some header → header.createTime = createTime →
        header.checkpoint ≤ log.checkpoint

theorem nextSuperblock?_eq_some {log : FoundLog} {peb : Nat} :
    nextSuperblock? log i = some peb ↔
      log.segment.volume.superblocks.peb? .next i = some peb ∧ peb ≠ log.peb := by
  unfold nextSuperblock?
  rw [Option.filter_eq_some_iff, bne_iff_ne]

theorem nextSuperblock?_eq_none {log : FoundLog} :
    nextSuperblock? log i = none ↔ log.segment.volume.superblocks.peb? .next i = none ∨
      log.segment.volume.superblocks.peb? .next i = some log.peb := by
  unfold nextSuperblock?
  rcases log.segment.volume.superblocks.peb? .next i with _ | peb <;> simp

theorem succeeds_iff {header : SegmentHeader} {log : FoundLog} :
    succeeds header log createTime ↔
      header.createTime = createTime ∧ log.checkpoint < header.checkpoint := by
  unfold succeeds
  rw [Bool.and_eq_true, beq_iff_eq, decide_eq_true_iff]

/-- A segment that does not take over has another creation time or no newer checkpoint. -/
theorem endsChain_of_not_succeeds {log : FoundLog} {peb : Nat} {found : Option SegmentHeader}
    (hnext : nextSuperblock? log i = some peb) (hfound : v.findSegment? peb .superblock 0 = .ok found)
    (hnot : ∀ header, found = some header → ¬ succeeds header log createTime) :
    v.EndsChain i createTime log := by
  refine .inr (.inr ⟨peb, found, (nextSuperblock?_eq_some.1 hnext).1, hfound, ?_⟩)
  intro header hheader htime
  have hle := hnot header hheader
  rw [succeeds_iff, not_and] at hle
  exact UInt64.not_lt.1 (hle htime)

/-- Each log after a hop is the newest one of its erase block. -/
theorem Hop.findLast? {log next : FoundLog} (h : v.Hop i createTime log next) :
    v.findLast? next.peb .superblock = .ok (some next) := by
  obtain ⟨header, -, hfind, -, hwalk⟩ := h
  exact findLast?_eq_some.2 ⟨header, hfind, hwalk⟩

/-! ## The run -/

/-- Following from a log hops to ever further logs, until one ends the chain, the next hop stops the run, or
no hop is left. -/
theorem followFrom_run (v : Volume) (i : Instance) (createTime : UInt64) :
    ∀ (hops : Nat) (log : FoundLog), ∃ logs : List FoundLog,
      logs.length ≤ hops ∧ (log :: logs).IsChain (v.Hop i createTime) ∧
      ((∃ stop, v.followFrom i createTime hops log = .error stop ∧
          v.HopStops i createTime (logs.getLastD log) stop) ∨
        v.followFrom i createTime hops log = .ok (logs.getLastD log) ∧
          (v.EndsChain i createTime (logs.getLastD log) ∨ logs.length = hops))
  | 0, log => ⟨[], Nat.le_refl _, .singleton _, .inr ⟨rfl, .inr rfl⟩⟩
  | hops + 1, log => by
    unfold followFrom
    rcases hnext : nextSuperblock? log i with _ | peb <;> simp only
    · exact ⟨[], Nat.zero_le _, .singleton _,
        .inr ⟨rfl, .inl ((nextSuperblock?_eq_none.1 hnext).imp_right .inl)⟩⟩
    rcases hfound : v.findSegment? peb .superblock 0 with stop | _ | header <;> simp only
    · exact ⟨[], Nat.zero_le _, .singleton _, .inl ⟨stop, rfl, peb, hnext, .inl hfound⟩⟩
    · exact ⟨[], Nat.zero_le _, .singleton _,
        .inr ⟨rfl, .inl (endsChain_of_not_succeeds hnext hfound fun _ h => by cases h)⟩⟩
    split
    · rename_i hsucc
      rcases hwalk : v.walk peb 0 header with stop | next <;> simp only
      · exact ⟨[], Nat.zero_le _, .singleton _,
          .inl ⟨stop, rfl, peb, hnext, .inr ⟨header, hfound, hsucc, hwalk⟩⟩⟩
      -- The hop is made, and the rest of the run starts from where it leads.
      obtain ⟨logs, hlength, hchain, hends⟩ := followFrom_run v i createTime hops next
      obtain rfl : next.peb = peb := (walk_spec hwalk (pagesPerPeb_pos_of_walk hwalk)).1
      have hhop : v.Hop i createTime log next := ⟨header, hnext, hfound, hsucc, hwalk⟩
      refine ⟨next :: logs, Nat.succ_le_succ hlength, .cons_cons hhop hchain, ?_⟩
      rw [List.getLastD_cons, List.length_cons, Nat.add_right_cancel_iff]
      exact hends
    · rename_i hsucc
      exact ⟨[], Nat.zero_le _, .singleton _, .inr ⟨rfl, .inl (endsChain_of_not_succeeds hnext hfound
        fun other hother => by cases hother; exact hsucc)⟩⟩

/-! ## What a run visits -/

/-- What following a copy of the superblock visits: the newest log of the erase block that a volume header
names as the current one, and from there one more log for every hop. -/
structure Visits (v : Volume) (header : VolumeHeader) (i : Instance) (createTime : UInt64)
    (start : FoundLog) (hops : List FoundLog) : Prop where
  current : header.superblocks.peb? .current i = some start.peb
  newest : v.findLast? start.peb .superblock = .ok (some start)
  sameVolume : start.createTime = createTime
  chain : (start :: hops).IsChain (v.Hop i createTime)

/-- Each log along a chain that starts with the newest log of its erase block is such a log. -/
theorem newest_of_mem_chain : ∀ {logs : List FoundLog} {start : FoundLog},
    v.findLast? start.peb .superblock = .ok (some start) →
    (start :: logs).IsChain (v.Hop i createTime) →
    ∀ log ∈ start :: logs, v.findLast? log.peb .superblock = .ok (some log)
  | [], start, hstart, _, log, hlog => by
    rw [List.mem_singleton.1 hlog]
    exact hstart
  | next :: logs, start, hstart, hchain, log, hlog => by
    obtain ⟨hhop, hrest⟩ := List.isChain_cons_cons.1 hchain
    rcases List.mem_cons.1 hlog with rfl | hlog
    · exact hstart
    · exact newest_of_mem_chain hhop.findLast? hrest log hlog

/-- The logs of every erase block are written in checkpoint order: the newest one has no lower checkpoint
than the header the block opens with. -/
def CheckpointOrdered (v : Volume) : Prop :=
  ∀ (pebs peb : Nat) (header : SegmentHeader) (log : FoundLog), v.pebsCount = .ok pebs → peb < pebs →
    v.segmentHeader? peb 0 = .ok (some header) → v.walk peb 0 header = .ok log →
    header.checkpoint ≤ log.checkpoint

/-- The newest log of an erase block has no lower checkpoint than the header the block opens with. -/
def inCheckpointOrder (v : Volume) (peb : Nat) : Bool :=
  match v.segmentHeader? peb 0 with
  | .ok (some header) => (v.walk peb 0 header).toOption.all (header.checkpoint ≤ ·.checkpoint)
  | _ => true

theorem inCheckpointOrder_iff {peb : Nat} : v.inCheckpointOrder peb ↔
    ∀ header log, v.segmentHeader? peb 0 = .ok (some header) → v.walk peb 0 header = .ok log →
      header.checkpoint ≤ log.checkpoint := by
  unfold inCheckpointOrder
  rcases hheader : v.segmentHeader? peb 0 with stop | _ | header <;> simp only
  · exact iff_of_true trivial fun _ _ h => by cases h
  · exact iff_of_true trivial fun _ _ h => by cases h
  · rcases hwalk : v.walk peb 0 header with stop | log
    · exact iff_of_true rfl fun _ _ h h' => by cases h; cases hwalk.symm.trans h'
    · refine decide_eq_true_iff.trans ⟨fun hle _ _ h h' => ?_, fun h => h header log rfl hwalk⟩
      cases h
      cases hwalk.symm.trans h'
      exact hle

theorem checkpointOrdered_iff {pebs : Nat} (hpebs : v.pebsCount = .ok pebs) :
    v.CheckpointOrdered ↔ ∀ peb < pebs, v.inCheckpointOrder peb := by
  constructor
  · exact fun hv peb hlt => inCheckpointOrder_iff.2 fun header log => hv pebs peb header log hpebs hlt
  · intro h pebs' peb header log hpebs' hlt
    cases hpebs.symm.trans hpebs'
    exact inCheckpointOrder_iff.1 (h peb hlt) header log

/-- The log that is found in an erase block of a volume in checkpoint order is as new as the header there. -/
theorem CheckpointOrdered.inCheckpointOrder {peb : Nat} {kind : SegmentKind} {log : FoundLog}
    (hv : v.CheckpointOrdered) (hlog : v.findLast? peb kind = .ok (some log)) : v.inCheckpointOrder peb := by
  obtain ⟨pebs, hpebs, hlt⟩ := lt_pebsCount_of_findLast? hlog
  exact (checkpointOrdered_iff hpebs).1 hv peb hlt

/-- A hop is made because the header that opens the next erase block has a newer checkpoint. -/
theorem Hop.admitted {log next : FoundLog} (h : v.Hop i createTime log next) :
    ∃ header, v.segmentHeader? next.peb 0 = .ok (some header) ∧ log.checkpoint < header.checkpoint ∧
      v.walk next.peb 0 header = .ok next := by
  obtain ⟨header, -, hfind, hsucc, hwalk⟩ := h
  obtain ⟨-, -, -, hheader, -⟩ := findSegment?_eq_some.1 hfind
  exact ⟨header, hheader, (succeeds_iff.1 hsucc).2, hwalk⟩

/-- It leads to a newer checkpoint where the logs of that erase block are in order. -/
theorem Hop.checkpoint_lt {log next : FoundLog} (h : v.Hop i createTime log next)
    (horder : v.inCheckpointOrder next.peb) : log.checkpoint < next.checkpoint := by
  obtain ⟨header, hheader, hlt, hwalk⟩ := h.admitted
  exact UInt64.lt_of_lt_of_le hlt (inCheckpointOrder_iff.1 horder header next hheader hwalk)

namespace Visits

variable {header : VolumeHeader} {start : FoundLog} {hops : List FoundLog}

theorem newest_of_mem (h : v.Visits header i createTime start hops) :
    ∀ log ∈ start :: hops, v.findLast? log.peb .superblock = .ok (some log) :=
  newest_of_mem_chain h.newest h.chain

theorem pairwise_checkpoint_lt (h : v.Visits header i createTime start hops)
    (horder : ∀ next ∈ hops, v.inCheckpointOrder next.peb) :
    (start :: hops).Pairwise fun log later => log.checkpoint < later.checkpoint := by
  have hchain : (start :: hops).IsChain fun log later => log.checkpoint < later.checkpoint :=
    h.chain.imp_of_mem_tail_imp fun _ next _ hnext hhop => hhop.checkpoint_lt (horder next hnext)
  have : IsTrans FoundLog fun log later => log.checkpoint < later.checkpoint :=
    ⟨fun _ _ _ => UInt64.lt_trans⟩
  exact List.isChain_iff_pairwise.1 hchain

theorem checkpoints_lt (h : v.Visits header i createTime start hops) (hv : v.CheckpointOrdered) :
    (start :: hops).Pairwise fun log later => log.checkpoint < later.checkpoint :=
  h.pairwise_checkpoint_lt fun next hnext =>
    hv.inCheckpointOrder (h.newest_of_mem next (List.mem_cons_of_mem _ hnext))

/-- No erase block is visited twice: it has one newest log, and that has one checkpoint. -/
theorem pebs_nodup (h : v.Visits header i createTime start hops) (hv : v.CheckpointOrdered) :
    ((start :: hops).map (·.peb)).Nodup := by
  refine List.pairwise_map.2 ((h.checkpoints_lt hv).imp_of_mem fun {log later} hlog hlater hlt hpeb => ?_)
  have hsame := h.newest_of_mem log hlog
  rw [hpeb, h.newest_of_mem later hlater] at hsame
  cases hsame
  exact UInt64.lt_irrefl _ hlt

/-- A chain of hops is shorter than the volume has erase blocks. -/
theorem length_lt (h : v.Visits header i createTime start hops) (hv : v.CheckpointOrdered) {pebs : Nat}
    (hpebs : v.pebsCount = .ok pebs) : hops.length < pebs := by
  have hsub : (start :: hops).map (·.peb) ⊆ List.range pebs := by
    intro peb hpeb
    obtain ⟨log, hlog, rfl⟩ := List.mem_map.1 hpeb
    obtain ⟨pebs', hpebs', hlt⟩ := lt_pebsCount_of_findLast? (h.newest_of_mem log hlog)
    cases hpebs.symm.trans hpebs'
    exact List.mem_range.2 hlt
  have hle := ((h.pebs_nodup hv).subperm hsub).length_le
  rw [List.length_map, List.length_cons, List.length_range] at hle
  exact hle

end Visits

/-! ## Following a copy -/

/-- Following a copy fails before its first hop, finds no chain to follow, or visits logs in at most as many
hops as there are erase blocks, until one ends the chain, the next hop stops the run, or no hop is left. -/
theorem followSuperblocks?_cases (v : Volume) (header : VolumeHeader) (i : Instance)
    (createTime : UInt64) :
    (∃ peb stop, header.superblocks.peb? .current i = some peb ∧
        v.findLast? peb .superblock = .error stop ∧
        v.followSuperblocks? header i createTime = .error stop) ∨
      v.followSuperblocks? header i createTime = .ok none ∨
      ∃ pebs start hops, v.pebsCount = .ok pebs ∧ v.Visits header i createTime start hops ∧
        hops.length ≤ pebs ∧
        ((∃ stop, v.followSuperblocks? header i createTime = .error stop ∧
            v.HopStops i createTime (hops.getLastD start) stop) ∨
          v.followSuperblocks? header i createTime = .ok (some (hops.getLastD start)) ∧
            (v.EndsChain i createTime (hops.getLastD start) ∨ hops.length = pebs)) := by
  unfold followSuperblocks?
  rcases hcurrent : header.superblocks.peb? .current i with _ | peb <;> simp only
  · exact .inr (.inl trivial)
  rcases hlast : v.findLast? peb .superblock with stop | _ | start <;> simp only
  · exact .inl ⟨peb, stop, rfl, hlast, rfl⟩
  · exact .inr (.inl trivial)
  split
  · rename_i htime
    obtain ⟨first, hfirst, hwalk⟩ := findLast?_eq_some.1 hlast
    obtain rfl : start.peb = peb := (walk_spec hwalk (pagesPerPeb_pos_of_walk hwalk)).1
    obtain ⟨pebs, hpebs, -⟩ := lt_pebsCount_of_findLast? hlast
    obtain ⟨hops, hlength, hchain, hends⟩ := v.followFrom_run i createTime pebs start
    refine .inr (.inr ⟨pebs, start, hops, hpebs, ⟨hcurrent, hlast, htime, hchain⟩, hlength, ?_⟩)
    rcases hends with ⟨stop, hrun, hstops⟩ | ⟨hrun, hends⟩ <;> simp only [hpebs, hrun]
    · exact .inl ⟨stop, rfl, hstops⟩
    · exact .inr ⟨trivial, hends⟩
  · exact .inr (.inl rfl)

/-- A log that is returned is the last one visited. -/
theorem visits_of_followSuperblocks? {header : VolumeHeader} {log : FoundLog}
    (h : v.followSuperblocks? header i createTime = .ok (some log)) :
    ∃ pebs start hops, v.pebsCount = .ok pebs ∧ v.Visits header i createTime start hops ∧
      log = hops.getLastD start ∧ (v.EndsChain i createTime log ∨ hops.length = pebs) := by
  rcases v.followSuperblocks?_cases header i createTime with ⟨_, _, -, -, h'⟩ | h' |
    ⟨pebs, start, hops, hpebs, hvisits, -, ⟨_, h', -⟩ | ⟨h', hends⟩⟩ <;> rw [h'] at h <;> cases h
  exact ⟨pebs, start, hops, hpebs, hvisits, rfl, hends⟩

/-- A log that is returned lies in an erase block of the volume. -/
theorem lt_pebsCount_of_followSuperblocks? {header : VolumeHeader} {log : FoundLog}
    (h : v.followSuperblocks? header i createTime = .ok (some log)) :
    ∃ pebs, v.pebsCount = .ok pebs ∧ log.peb < pebs := by
  obtain ⟨pebs, start, hops, -, hvisits, rfl, -⟩ := visits_of_followSuperblocks? h
  exact lt_pebsCount_of_findLast? (hvisits.newest_of_mem _ List.getLastD_mem_cons)

/-- Following a copy of the superblock reaches the end of its chain. It makes no more hops than there are
erase blocks, and what it returns is a superblock log of the volume in one of them. Where logs are written
in checkpoint order, checkpoints increase along the chain, no erase block is visited twice, the hops never
run out, and the log that is returned has no successor. -/
theorem followSuperblocks?_reaches_end (v : Volume) (header : VolumeHeader) (i : Instance)
    (createTime : UInt64) :
    ((∃ peb stop, header.superblocks.peb? .current i = some peb ∧
          v.findLast? peb .superblock = .error stop ∧
          v.followSuperblocks? header i createTime = .error stop) ∨
        v.followSuperblocks? header i createTime = .ok none ∨
        ∃ pebs start hops, v.pebsCount = .ok pebs ∧ v.Visits header i createTime start hops ∧
          hops.length ≤ pebs ∧
          (v.followSuperblocks? header i createTime = .ok (some (hops.getLastD start)) ∨
            ∃ stop, v.followSuperblocks? header i createTime = .error stop ∧
              v.HopStops i createTime (hops.getLastD start) stop)) ∧
      (∀ log, v.followSuperblocks? header i createTime = .ok (some log) →
        (∃ pebs, v.pebsCount = .ok pebs ∧ log.peb < pebs) ∧
          log.Belongs createTime .superblock v.geometry.pagesPerPeb) ∧
      (v.CheckpointOrdered →
        (∀ start hops, v.Visits header i createTime start hops →
          (start :: hops).Pairwise (fun log later => log.checkpoint < later.checkpoint) ∧
            ((start :: hops).map (·.peb)).Nodup ∧
            ∀ pebs, v.pebsCount = .ok pebs → hops.length < pebs) ∧
        ∀ log, v.followSuperblocks? header i createTime = .ok (some log) →
          v.EndsChain i createTime log) := by
  refine ⟨?_, fun log h => ⟨lt_pebsCount_of_followSuperblocks? h, followSuperblocks?_spec h⟩,
    fun hv => ⟨fun start hops hvisits => ?_, fun log h => ?_⟩⟩
  · rcases v.followSuperblocks?_cases header i createTime with h | h |
      ⟨pebs, start, hops, hpebs, hvisits, hlength, hstops | ⟨hlast, -⟩⟩
    · exact .inl h
    · exact .inr (.inl h)
    · exact .inr (.inr ⟨pebs, start, hops, hpebs, hvisits, hlength, .inr hstops⟩)
    · exact .inr (.inr ⟨pebs, start, hops, hpebs, hvisits, hlength, .inl hlast⟩)
  · exact ⟨hvisits.checkpoints_lt hv, hvisits.pebs_nodup hv, fun pebs => hvisits.length_lt hv⟩
  · obtain ⟨pebs, start, hops, hpebs, hvisits, -, hends | hlength⟩ := visits_of_followSuperblocks? h
    · exact hends
    · exact absurd hlength (Nat.ne_of_lt (hvisits.length_lt hv hpebs))

set_option maxRecDepth 100000 in
theorem moved_checkpointOrdered : CompactVolume.moved.CheckpointOrdered := by
  rw [CompactVolume.moved_eq]
  exact (checkpointOrdered_iff (show _ = Except.ok 3 by decide)).2 (by decide +kernel)

/-- The superblock that has moved on is followed to its last erase block, though that names the first one as
the next. -/
theorem moved_reaches_end : CompactVolume.moved.CheckpointOrdered ∧
    ∃ log, CompactVolume.moved.followSuperblocks? CompactVolume.whole.volumeHeader .main 7 =
        .ok (some log) ∧
      log.peb = 2 ∧ CompactVolume.moved.EndsChain .main 7 log := by
  have hordered := moved_checkpointOrdered
  obtain ⟨log, hlog, hpeb⟩ := Option.map_eq_some_iff.1 CompactVolume.lastMoved_eq
  rcases hrun : CompactVolume.moved.followSuperblocks? CompactVolume.whole.volumeHeader .main 7 with
    stop | found <;> rw [hrun] at hlog
  · cases hlog
  · obtain rfl : found = some log := hlog
    exact ⟨hordered, log, rfl, hpeb, ((followSuperblocks?_reaches_end _ _ _ _).2.2 hordered).2 log hrun⟩

end FlashVolume.Volume
