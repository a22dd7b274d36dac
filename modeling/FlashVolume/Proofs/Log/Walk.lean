/-
Walks stay within their erase block and within their volume: the newest log of an erase block starts
on one of its pages, and the segment header of its full log carries the creation time and the kind of
the header the walk started from. The header of the newest log carries the same creation time.
-/
import FlashVolume.Log.Walk
import FlashVolume.Proofs.Outcome

namespace FlashVolume.Volume

variable {v : Volume}

/-! ## Sizes of full logs -/

theorem validLogPages_eq_ok {logPages : UInt16} {pagesPerPeb pages : Nat} :
    validLogPages logPages pagesPerPeb = .ok pages ↔
      (logPages ≠ 0 ∧ logPages ≠ 0xFFFF ∧ logPages.toNat ≤ pagesPerPeb) ∧ logPages.toNat = pages := by
  unfold validLogPages
  split
  · rename_i h
    simp only [reduceCtorEq, false_iff]
    rintro ⟨⟨h0, h1, h2⟩, -⟩
    rcases h with h | h | h
    · exact h0 h
    · exact h1 h
    · omega
  · rename_i h
    simp only [not_or, Nat.not_lt] at h
    rw [Except.ok.injEq, and_iff_right h]

theorem pages_le_of_validLogPages {logPages : UInt16} {pagesPerPeb pages : Nat}
    (h : validLogPages logPages pagesPerPeb = .ok pages) : pages ≤ pagesPerPeb := by
  obtain ⟨⟨-, -, hle⟩, rfl⟩ := validLogPages_eq_ok.1 h
  exact hle

/-! ## Full logs -/

theorem continues_iff {header current : SegmentHeader} :
    continues header current = true ↔
      header.createTime = current.createTime ∧ header.kindTag = current.kindTag := by
  unfold continues
  rw [Bool.and_eq_true, beq_iff_eq, beq_iff_eq]

/-- Hops over full logs stay in the erase block. -/
theorem walkFullFrom_lt {pagesPerPeb peb page : Nat} {current : SegmentHeader} {res : Nat × SegmentHeader}
    (h : v.walkFullFrom pagesPerPeb peb page current = .ok res) (hpage : page < pagesPerPeb) :
    res.1 < pagesPerPeb := by
  -- Every case but the hop ends the walk, with an error or where it stands.
  fun_induction walkFullFrom v pagesPerPeb peb page current with
  | case1 | case2 | case3 => cases h
  | case4 | case6 | case7 => cases h; exact hpage
  | case5 page current pages hpages next hnext hlt header hheader hcont ih => exact ih h hlt

/-- They go on in the erase block and keep creation time and kind. -/
theorem walkFullFrom_continues {pagesPerPeb peb page : Nat} {current : SegmentHeader}
    {res : Nat × SegmentHeader} (h : v.walkFullFrom pagesPerPeb peb page current = .ok res) :
    page ≤ res.1 ∧ res.2.createTime = current.createTime ∧ res.2.kindTag = current.kindTag := by
  fun_induction walkFullFrom v pagesPerPeb peb page current with
  | case1 | case2 | case3 => cases h
  | case4 | case6 | case7 => cases h; exact ⟨Nat.le_refl _, rfl, rfl⟩
  | case5 page current pages hpages next hnext hlt header hheader hcont ih =>
    obtain ⟨htime, hkind⟩ := continues_iff.1 hcont
    obtain ⟨-, rfl⟩ := word32_eq_ok.1 hnext
    obtain ⟨h1, h2, h3⟩ := ih h
    exact ⟨Nat.le_of_add_right_le h1, h2.trans htime, h3.trans hkind⟩

theorem walkFull_continues {peb page : Nat} {first : SegmentHeader} {res : Nat × SegmentHeader}
    (h : v.walkFull peb page first = .ok res) :
    page ≤ res.1 ∧ res.2.createTime = first.createTime ∧ res.2.kindTag = first.kindTag := by
  unfold walkFull at h
  rcases hn : v.pagesPerPeb with stop | pagesPerPeb <;> rw [hn] at h
  · cases h
  · exact walkFullFrom_continues h

theorem walkFull_spec {peb page : Nat} {first : SegmentHeader} {res : Nat × SegmentHeader}
    (h : v.walkFull peb page first = .ok res) (hpage : page < v.geometry.pagesPerPeb) :
    res.1 < v.geometry.pagesPerPeb ∧ res.2.createTime = first.createTime ∧
      res.2.kindTag = first.kindTag := by
  refine ⟨?_, (walkFull_continues h).2⟩
  unfold walkFull at h
  rcases hn : v.pagesPerPeb with stop | pagesPerPeb <;> rw [hn] at h
  · cases h
  · obtain ⟨-, rfl⟩ := pagesPerPeb_eq_ok.1 hn
    exact walkFullFrom_lt h hpage

/-! ## Partial logs -/

/-- A partial log of the volume created at this time begins on the page. -/
structure HasPartial (v : Volume) (peb page : Nat) (createTime : UInt64) (header : PartialHeader) : Prop where
  page_lt : page < v.geometry.pagesPerPeb
  read : v.partialHeader? peb page = .ok (some header)
  createTime : header.createTime = createTime

/-- The log is of the full log that `segment` opens at `page`: either it begins there, with that header, or its
header is that of a partial log behind. -/
structure Follows (v : Volume) (peb page : Nat) (segment : SegmentHeader) (log : FoundLog) : Prop where
  header : log.page = page ∧ log.header = .ofSegment segment ∨
    ∃ header, log.header = .ofPartial header ∧ page < log.page ∧
      v.HasPartial peb log.page segment.createTime header
  peb : log.peb = peb
  segment : log.segment = segment

theorem Follows.page_le {peb page : Nat} {segment : SegmentHeader} {log : FoundLog}
    (h : v.Follows peb page segment log) : page ≤ log.page := by
  rcases h.header with ⟨hpage, -⟩ | ⟨header, -, hlt, -⟩
  · exact Nat.le_of_eq hpage.symm
  · exact Nat.le_of_lt hlt

theorem Follows.page_lt {peb page : Nat} {segment : SegmentHeader} {log : FoundLog}
    (h : v.Follows peb page segment log) (hpage : page < v.geometry.pagesPerPeb) :
    log.page < v.geometry.pagesPerPeb := by
  rcases h.header with ⟨hsame, -⟩ | ⟨header, -, -, hpartial⟩
  · rwa [hsame]
  · exact hpartial.page_lt

theorem Follows.createTime {peb page : Nat} {segment : SegmentHeader} {log : FoundLog}
    (h : v.Follows peb page segment log) : log.createTime = segment.createTime := by
  unfold FoundLog.createTime
  rcases h.header with ⟨-, hheader⟩ | ⟨header, hheader, -, hpartial⟩ <;> rw [hheader]
  · rfl
  · exact hpartial.createTime

theorem lt_pageAfter (v : Volume) (page logBytes : Nat) : page < v.pageAfter page logBytes := by
  unfold pageAfter
  omega

/-- Hops over partial logs stay with the full log. -/
theorem walkPartialFrom_follows {peb page upper fullBytes logBytes : Nat} {segment : SegmentHeader}
    {log res : FoundLog} (h : v.walkPartialFrom page upper fullBytes log logBytes = .ok res)
    (hupper : upper ≤ v.geometry.pagesPerPeb) (hlog : v.Follows peb page segment log) :
    v.Follows peb page segment res := by
  fun_induction walkPartialFrom v page upper fullBytes log logBytes with
  | case1 | case2 | case4 => cases h
  | case3 | case6 | case7 => cases h; exact hlog
  | case5 log logBytes used hused next hnext header hheader htime footer hfooter ih =>
    have hclimb : page < next := Nat.lt_of_le_of_lt hlog.page_le (v.lt_pageAfter ..)
    rw [hlog.peb] at hheader
    rw [hlog.segment] at htime
    have hpartial : v.HasPartial peb next segment.createTime header :=
      ⟨Nat.lt_of_lt_of_le hnext.2 hupper, hheader, htime⟩
    exact ih h ⟨.inr ⟨header, rfl, hclimb, hpartial⟩, hlog.peb, hlog.segment⟩

theorem walkPartial_follows {peb page : Nat} {segment : SegmentHeader} {log : FoundLog}
    (h : v.walkPartial peb page segment = .ok log) : v.Follows peb page segment log := by
  unfold walkPartial at h
  rcases hn : v.pagesPerPeb with stop | pagesPerPeb <;> rw [hn] at h
  · cases h
  obtain ⟨-, rfl⟩ := pagesPerPeb_eq_ok.1 hn
  rcases hp : validLogPages segment.logPages v.geometry.pagesPerPeb with cause | pages <;> simp only [hp] at h
  · cases h
  rcases hs : word32 (page + pages) with stop | stop <;> simp only [hs] at h
  · cases h
  rcases hf : v.footerOf? peb page (.ofSegment segment) with stop' | footer <;> simp only [hf] at h
  · cases h
  exact walkPartialFrom_follows h (Nat.min_le_right ..) ⟨.inl ⟨rfl, rfl⟩, rfl, rfl⟩

/-! ## The whole walk -/

/-- A walk ends at a log of the full log that it came to, which has the creation time and the kind of the header
it started from. -/
theorem walk_follows {peb page : Nat} {first : SegmentHeader} {log : FoundLog}
    (h : v.walk peb page first = .ok log) :
    ∃ last, page ≤ last ∧ (page < v.geometry.pagesPerPeb → last < v.geometry.pagesPerPeb) ∧
      v.Follows peb last log.segment log ∧ log.segment.createTime = first.createTime ∧
      log.segment.kindTag = first.kindTag := by
  unfold walk at h
  rcases hw : v.walkFull peb page first with stop | ⟨last, segment⟩ <;> rw [hw] at h
  · cases h
  obtain ⟨hle, htime, hkind⟩ := walkFull_continues hw
  have hfollows := walkPartial_follows h
  obtain rfl := hfollows.segment
  exact ⟨last, hle, fun hpage => (walkFull_spec hw hpage).1, hfollows, htime, hkind⟩

/-- The newest log of an erase block lies in it, on one of its pages; it and its full log carry the
creation time of the header the walk started from, and the full log carries its kind. -/
theorem walk_spec {peb page : Nat} {first : SegmentHeader} {log : FoundLog}
    (h : v.walk peb page first = .ok log) (hpage : page < v.geometry.pagesPerPeb) :
    log.peb = peb ∧ log.page < v.geometry.pagesPerPeb ∧ log.createTime = first.createTime ∧
      log.segment.createTime = first.createTime ∧ log.segment.kindTag = first.kindTag := by
  obtain ⟨last, -, hlast, hfollows, htime, hkind⟩ := walk_follows h
  exact ⟨hfollows.peb, hfollows.page_lt (hlast hpage), hfollows.createTime.trans htime, htime, hkind⟩

/-- A walk gets nowhere in an erase block without pages. -/
theorem pagesPerPeb_pos_of_walk {peb page : Nat} {first : SegmentHeader} {log : FoundLog}
    (h : v.walk peb page first = .ok log) : 0 < v.geometry.pagesPerPeb := by
  unfold walk walkFull at h
  rcases hn : v.pagesPerPeb with stop | pagesPerPeb <;> simp only [hn] at h
  · cases h
  obtain ⟨-, rfl⟩ := pagesPerPeb_eq_ok.1 hn
  unfold walkFullFrom at h
  rcases hp : validLogPages first.logPages v.geometry.pagesPerPeb with cause | pages
  · rw [hp] at h; cases h
  · have := pos_of_validLogPages hp
    have := pages_le_of_validLogPages hp
    omega

end FlashVolume.Volume
