/-
Logs that belong to a volume: they carry its creation time, hold the kind of segment they were looked
for as, and start on a page of their erase block. Walking from a header, looking an erase block up and
following the superblock chain all end at such logs.
-/
import FlashVolume.Log.Chain
import FlashVolume.Proofs.Log.Walk

namespace FlashVolume

/-- A log of a segment of this kind on the volume created at this time, whose erase blocks have
`pagesPerPeb` pages: both its own header and that of its full log carry the creation time. -/
structure FoundLog.Belongs (log : FoundLog) (createTime : UInt64) (kind : SegmentKind)
    (pagesPerPeb : Nat) : Prop where
  page_lt : log.page < pagesPerPeb
  header : log.createTime = createTime
  segment : log.segment.createTime = createTime
  kind : log.segment.kind? = some kind

namespace Volume

variable {v : Volume}

/-! ## Lookup by erase block -/

/-- A walk from a header of a kind ends at a log that belongs to the volume of that header. -/
theorem belongs_of_walk {peb page : Nat} {first : SegmentHeader} {kind : SegmentKind} {log : FoundLog}
    (h : v.walk peb page first = .ok log) (hpage : page < v.geometry.pagesPerPeb)
    (hkind : first.kind? = some kind) :
    log.Belongs first.createTime kind v.geometry.pagesPerPeb := by
  obtain ⟨-, hlt, htime, hsegment, htag⟩ := walk_spec h hpage
  refine ⟨hlt, htime, hsegment, ?_⟩
  unfold SegmentHeader.kind? at hkind ⊢
  rw [htag, hkind]

theorem findSegment?_eq_some {peb page : Nat} {kind : SegmentKind} {header : SegmentHeader} :
    v.findSegment? peb kind page = .ok (some header) ↔
      ∃ pebs, v.pebsCount = .ok pebs ∧ peb < pebs ∧ v.segmentHeader? peb page = .ok (some header) ∧
        header.kind? = some kind := by
  unfold findSegment?
  rcases hn : v.pebsCount with stop | pebs
  · exact iff_of_false nofun fun ⟨_, h, _⟩ => nomatch h
  simp only
  split
  · rename_i hlt
    rcases hs : v.segmentHeader? peb page with stop | found
    · exact iff_of_false nofun fun ⟨_, _, _, h, _⟩ => nomatch h
    simp only [Except.ok.injEq, Option.filter_eq_some_iff, beq_iff_eq, exists_eq_left', hlt, true_and]
  · rename_i hlt
    exact iff_of_false nofun fun ⟨_, h, h', _⟩ => by cases h; exact hlt h'

theorem findLast?_eq_some {peb : Nat} {kind : SegmentKind} {log : FoundLog} :
    v.findLast? peb kind = .ok (some log) ↔
      ∃ header, v.findSegment? peb kind 0 = .ok (some header) ∧ v.walk peb 0 header = .ok log := by
  unfold findLast?
  rcases hs : v.findSegment? peb kind 0 with stop | _ | header
  · exact iff_of_false nofun fun ⟨_, h, _⟩ => nomatch h
  · exact iff_of_false nofun fun ⟨_, h, _⟩ => nomatch h
  rcases hw : v.walk peb 0 header with stop | last <;> simp [hw]

/-- The log found in an erase block belongs to the volume whose creation time it carries. -/
theorem findLast?_spec {peb : Nat} {kind : SegmentKind} {log : FoundLog}
    (h : v.findLast? peb kind = .ok (some log)) :
    log.Belongs log.createTime kind v.geometry.pagesPerPeb := by
  obtain ⟨header, hs, hw⟩ := findLast?_eq_some.1 h
  obtain ⟨-, -, -, -, hkind⟩ := findSegment?_eq_some.1 hs
  have hb := belongs_of_walk hw (pagesPerPeb_pos_of_walk hw) hkind
  rw [hb.header]
  exact hb

/-- A log is only found in an erase block of the volume. -/
theorem lt_pebsCount_of_findLast? {peb : Nat} {kind : SegmentKind} {log : FoundLog}
    (h : v.findLast? peb kind = .ok (some log)) : ∃ pebs, v.pebsCount = .ok pebs ∧ peb < pebs := by
  obtain ⟨header, hs, -⟩ := findLast?_eq_some.1 h
  obtain ⟨pebs, hpebs, hlt, -⟩ := findSegment?_eq_some.1 hs
  exact ⟨pebs, hpebs, hlt⟩

/-! ## Superblock chain -/

/-- Every hop of the chain stays with the superblocks of the volume it started in. -/
theorem followFrom_spec {i : Instance} {createTime : UInt64} :
    ∀ {hops : Nat} {log last : FoundLog}, v.followFrom i createTime hops log = .ok last →
      log.Belongs createTime .superblock v.geometry.pagesPerPeb →
      last.Belongs createTime .superblock v.geometry.pagesPerPeb
  | 0, log, last, h, hlog => by
    cases h
    exact hlog
  | hops + 1, log, last, h, hlog => by
    unfold followFrom at h
    rcases hn : nextSuperblock? log i with _ | next <;> simp only [hn] at h
    · cases h; exact hlog
    rcases hs : v.findSegment? next .superblock 0 with stop | _ | header <;> simp only [hs] at h
    · cases h
    · cases h; exact hlog
    split at h
    · rename_i hsucc
      rcases hw : v.walk next 0 header with stop | reached <;> simp only [hw] at h
      · cases h
      -- The header was only followed because it carries the creation time looked for.
      have htime : header.createTime = createTime := by
        unfold succeeds at hsucc
        rw [Bool.and_eq_true, beq_iff_eq] at hsucc
        exact hsucc.1
      obtain ⟨-, -, -, -, hkind⟩ := findSegment?_eq_some.1 hs
      have hreached := belongs_of_walk hw (pagesPerPeb_pos_of_walk hw) hkind
      rw [htime] at hreached
      exact followFrom_spec h hreached
    · cases h; exact hlog

/-- The newest superblock log of a copy is the end of the chain that starts where the volume header says
the current one is. -/
theorem followSuperblocks?_eq_some {header : VolumeHeader} {i : Instance} {createTime : UInt64}
    {log : FoundLog} (h : v.followSuperblocks? header i createTime = .ok (some log)) :
    ∃ peb start pebs, header.superblocks.peb? .current i = some peb ∧
      v.findLast? peb .superblock = .ok (some start) ∧ start.createTime = createTime ∧
      v.pebsCount = .ok pebs ∧ v.followFrom i createTime pebs start = .ok log := by
  unfold followSuperblocks? at h
  rcases hp : header.superblocks.peb? .current i with _ | peb <;> simp only [hp] at h
  · cases h
  rcases hl : v.findLast? peb .superblock with stop | _ | start <;> simp only [hl] at h
  · cases h
  · cases h
  split at h
  · rename_i htime
    rcases hn : v.pebsCount with stop | pebs <;> simp only [hn] at h
    · cases h
    rcases hf : v.followFrom i createTime pebs start with stop | last <;> simp only [hf] at h
    · cases h
    cases h
    exact ⟨peb, start, pebs, rfl, hl, htime, rfl, hf⟩
  · cases h

/-- That log belongs to the volume it was looked for. -/
theorem followSuperblocks?_spec {header : VolumeHeader} {i : Instance} {createTime : UInt64}
    {log : FoundLog} (h : v.followSuperblocks? header i createTime = .ok (some log)) :
    log.Belongs createTime .superblock v.geometry.pagesPerPeb := by
  obtain ⟨peb, start, pebs, -, hl, htime, -, hf⟩ := followSuperblocks?_eq_some h
  have hstart := findLast?_spec hl
  rw [htime] at hstart
  exact followFrom_spec hf hstart

end Volume

end FlashVolume
