/-
Partial logs written one behind the other. Each begins at the first page behind the bytes of the log before it.
The walk goes on by the whole pages a log took, so it comes to the next log from one that ends where a page does,
or on its first page; behind any other log it looks a page too early, inside that log. The last of the logs is
returned if all of them end so, and where nothing inside a log reads as a partial header, only if all but the
last one do.
-/
import FlashVolume.Proofs.Image.Stray
import FlashVolume.Proofs.Log.PartialLogs
import Mathlib.Order.Bounds.Basic

namespace FlashVolume

/-- A log writes no more bytes than two 32-bit numbers add up to. -/
theorem FoundLog.written_le (log : FoundLog) : log.written ≤ 2 ^ 33 := by
  rcases log with ⟨peb, page, header | header, footer, segment⟩
  · exact Volume.segmentLogBytes_le header footer
  · have hbytes := header.logBytes.toNat_lt
    unfold written
    simp only
    omega

namespace Volume

variable {v : Volume} {peb page start : Nat} {segment : SegmentHeader} {log next : FoundLog}

/-! ## Where a log ends -/

/-- The first page behind the bytes of the log, which takes at least the page it begins on. -/
def PageBehind (v : Volume) (log : FoundLog) (page : Nat) : Prop :=
  ∃ bytes, log.Wrote bytes ∧
    IsLeast {page | log.page < page ∧
      log.page * v.geometry.pageSize + bytes ≤ page * v.geometry.pageSize} page

/-- The page begins inside the bytes of the log. -/
def PageInside (v : Volume) (log : FoundLog) (page : Nat) : Prop :=
  ∃ bytes, log.Wrote bytes ∧ log.page < page ∧
    page * v.geometry.pageSize < log.page * v.geometry.pageSize + bytes

/-- The bytes of the log end on its first page, or where a page does. -/
def EndsPage (v : Volume) (log : FoundLog) : Prop :=
  ∃ bytes, log.Wrote bytes ∧ (bytes ≤ v.geometry.pageSize ∨ v.geometry.pageSize ∣ bytes)

theorem endsPage_iff : v.EndsPage log ↔
    log.written ≤ v.geometry.pageSize ∨ v.geometry.pageSize ∣ log.written := by
  unfold EndsPage
  simp only [FoundLog.wrote_iff, exists_eq_left]

theorem pageBehind_iff : v.PageBehind log page ↔
    log.page < page ∧ log.page * v.geometry.pageSize + log.written ≤ page * v.geometry.pageSize ∧
      ∀ other, log.page < other →
        log.page * v.geometry.pageSize + log.written ≤ other * v.geometry.pageSize → page ≤ other := by
  unfold PageBehind
  simp only [FoundLog.wrote_iff, exists_eq_left, IsLeast, lowerBounds, Set.mem_ofPred_eq, and_assoc, and_imp]

theorem pageInside_iff : v.PageInside log page ↔
    log.page < page ∧ page * v.geometry.pageSize < log.page * v.geometry.pageSize + log.written := by
  unfold PageInside
  simp only [FoundLog.wrote_iff, exists_eq_left]

theorem pageSize_pos_of_lt (h : page < v.geometry.pagesPerPeb) : 0 < v.geometry.pageSize :=
  Nat.pos_of_ne_zero (pagesPerPeb_eq_ok.1 (pagesPerPeb_of_lt h)).1

theorem PageBehind.unique {other : Nat} (h : v.PageBehind log page) (hother : v.PageBehind log other) :
    page = other := by
  obtain ⟨hlt, hle, hleast⟩ := pageBehind_iff.1 h
  obtain ⟨hlt', hle', hleast'⟩ := pageBehind_iff.1 hother
  exact Nat.le_antisymm (hleast other hlt' hle') (hleast' page hlt hle)

/-- The walk goes on at the first page behind the log if that ends where a page does. -/
theorem EndsPage.pageBehind (h : v.EndsPage log) :
    v.PageBehind log (v.pageAfter log.page log.written) := by
  rw [endsPage_iff] at h
  rw [pageBehind_iff]
  unfold pageAfter
  refine ⟨by omega, ?_, fun other hlt hle => ?_⟩
  · rw [Nat.add_mul]
    refine Nat.add_le_add_left ?_ _
    rcases h with hfirst | hwhole
    · calc log.written ≤ 1 * v.geometry.pageSize := by rwa [Nat.one_mul]
        _ ≤ max 1 (log.written / v.geometry.pageSize) * v.geometry.pageSize :=
          Nat.mul_le_mul_right _ (Nat.le_max_left ..)
    · calc log.written = log.written / v.geometry.pageSize * v.geometry.pageSize :=
            (Nat.div_mul_cancel hwhole).symm
        _ ≤ max 1 (log.written / v.geometry.pageSize) * v.geometry.pageSize :=
          Nat.mul_le_mul_right _ (Nat.le_max_right ..)
  · obtain ⟨pages, rfl⟩ := Nat.exists_eq_add_of_lt hlt
    have hbytes : log.written ≤ v.geometry.pageSize * (pages + 1) := by
      rw [Nat.add_assoc, Nat.add_mul, Nat.mul_comm (pages + 1)] at hle
      exact Nat.le_of_add_le_add_left hle
    have hpages := Nat.div_le_of_le_mul hbytes
    omega

/-- Behind any other log it goes on inside that log. -/
theorem pageInside_of_not_endsPage (h : ¬ v.EndsPage log) (hsize : 0 < v.geometry.pageSize) :
    v.PageInside log (v.pageAfter log.page log.written) := by
  rw [endsPage_iff, not_or, Nat.not_le] at h
  obtain ⟨hlong, hpart⟩ := h
  rw [pageInside_iff]
  unfold pageAfter
  rw [Nat.max_eq_right (Nat.div_pos hlong.le hsize)]
  have hpages := Nat.div_pos hlong.le hsize
  refine ⟨by omega, ?_⟩
  rw [Nat.add_mul]
  refine Nat.add_lt_add_left (lt_of_le_of_ne (Nat.div_mul_le_self ..) fun heq => hpart ?_) _
  exact ⟨_, heq.symm.trans (Nat.mul_comm ..)⟩

/-! ## Logs behind one another -/

/-- A partial log is written behind a log of the full log at page `start`: it begins on the first page behind the
bytes of that one, which is a page of the full log, with a header of the same creation time. -/
structure Adjoins (v : Volume) (start : Nat) (log next : FoundLog) : Prop where
  behind : v.PageBehind log next.page
  page_lt : next.page < min (start + log.segment.logPages.toNat) v.geometry.pagesPerPeb
  header : ∃ header, v.partialHeader? log.peb next.page = .ok (some header) ∧
    header.createTime = log.segment.createTime ∧ next.header = .ofPartial header
  footer : v.OwnFooter next
  peb : next.peb = log.peb
  segment : next.segment = log.segment

/-- No partial log of the volume of the segment begins on the page. -/
def Blank (v : Volume) (peb : Nat) (segment : SegmentHeader) (page : Nat) : Prop :=
  ∃ found, v.partialHeader? peb page = .ok found ∧
    ∀ header, found = some header → header.createTime ≠ segment.createTime

/-- The pages of the full log at page `start` where a partial log could be found by mistake are blank: those inside
a log that does not end where a page does. -/
def NothingInside (v : Volume) (start : Nat) (log : FoundLog) : Prop :=
  ¬ v.EndsPage log → ∀ page, v.PageInside log page →
    page < min (start + log.segment.logPages.toNat) v.geometry.pagesPerPeb →
    v.Blank log.peb log.segment page

/-- No partial log is written behind the log. -/
def NothingBehind (v : Volume) (start : Nat) (log : FoundLog) : Prop :=
  ∀ page, v.PageBehind log page →
    page < min (start + log.segment.logPages.toNat) v.geometry.pagesPerPeb →
    v.Blank log.peb log.segment page

theorem Adjoins.climbs (v : Volume) (start : Nat) : Climbs (v.Adjoins start) FoundLog.page
    fun log => min (start + log.segment.logPages.toNat) v.geometry.pagesPerPeb where
  rank_lt_rank _ _ h := (pageBehind_iff.1 h.behind).1
  rank_lt_bound _ _ h := by
    have hlt := h.page_lt
    rw [← h.segment] at hlt
    exact hlt
  bound_eq _ _ h := by rw [h.segment]

/-- A log that is written behind one of the full log is one of it, too. -/
theorem PartOf.adjoins (hlog : v.PartOf peb page segment log) (h : v.Adjoins page log next) :
    v.PartOf peb page segment next := by
  have hclimb := (Adjoins.climbs v page).rank_lt_rank _ _ h
  have hlt := h.page_lt
  rw [hlog.segment] at hlt
  exact ⟨Nat.le_trans hlog.page_le (Nat.le_of_lt hclimb), hlt, h.peb.trans hlog.peb,
    h.segment.trans hlog.segment, h.footer⟩

/-! ## The walk over them -/

section Words

variable (hwords : v.geometry.eraseSize < UInt32.size)

include hwords

theorem consumed_eq_ok (hlog : v.PartOf peb page segment log) :
    v.consumed page log.page log.written = .ok ((log.page - page) * v.geometry.pageSize + log.written) := by
  have hpage := Geometry.page_mul_le (Nat.le_of_lt (Nat.lt_min.1 hlog.page_lt).2)
  have hused : (log.page - page) * v.geometry.pageSize ≤ log.page * v.geometry.pageSize :=
    Nat.mul_le_mul_right _ (Nat.sub_le ..)
  have hwritten := log.written_le
  rw [consumed_eq hlog.page_le]
  refine word64_eq_ok.2 ⟨?_, rfl⟩
  simp only [UInt32.size, UInt64.size] at hwords ⊢
  omega

theorem Adjoins.hop (h : v.Adjoins page log next) (hlog : v.PartOf peb page segment log)
    (hends : v.EndsPage log) : v.PartialHop page log next := by
  obtain ⟨hclimb, hbehind, -⟩ := pageBehind_iff.1 h.behind
  have hstart := hlog.page_le
  have hnext : next.page = v.pageAfter log.page log.written := h.behind.unique hends.pageBehind
  have hlt := h.page_lt
  have hsize := pageSize_pos_of_lt (Nat.lt_min.1 hlt).2
  have hused : (log.page - page) * v.geometry.pageSize + log.written ≤
      (next.page - page) * v.geometry.pageSize := by
    have hmul : page * v.geometry.pageSize ≤ log.page * v.geometry.pageSize :=
      Nat.mul_le_mul_right _ hstart
    rw [Nat.sub_mul, Nat.sub_mul]
    omega
  have hroom : (next.page - page) * v.geometry.pageSize <
      log.segment.logPages.toNat * v.geometry.pageSize :=
    Nat.mul_lt_mul_of_pos_right (by omega) hsize
  refine ⟨partialDue_iff.2 ⟨hstart, hnext, _, consumed_eq_ok hwords hlog, by omega, ?_⟩,
    h.header, h.footer, h.peb, h.segment⟩
  rw [← hnext]
  exact hlt

/-- A log is the last if the page where the walk would go on is blank. -/
theorem walkPartialAt_of_blank (hlog : v.PartOf peb page segment log)
    (hblank : v.pageAfter log.page log.written <
        min (page + log.segment.logPages.toNat) v.geometry.pagesPerPeb →
      v.Blank log.peb log.segment (v.pageAfter log.page log.written)) :
    v.walkPartialAt page log = .ok log := by
  have hprobe {next : Nat} (hdue : v.PartialDue page log next) :
      ∃ found, v.partialHeader? log.peb next = .ok found ∧
        ∀ header, found = some header → header.createTime ≠ log.segment.createTime := by
    obtain ⟨-, rfl, -, -, -, hlt⟩ := partialDue_iff.1 hdue
    exact hblank hlt
  refine walkPartialAt_of_last hlog.page_le (fun next hhop => ?_) fun stop hstop => ?_
  · obtain ⟨found, hfound, hforeign⟩ := hprobe hhop.due
    obtain ⟨header, hheader, htime, -⟩ := hhop.header
    cases hfound.symm.trans hheader
    exact hforeign header rfl htime
  · rcases hstop with ⟨bytes, hstart, hwrote, hused⟩ | ⟨next, hdue, hread⟩
    · obtain rfl := FoundLog.wrote_iff.1 hwrote
      rw [← consumed_eq hstart, consumed_eq_ok hwords hlog] at hused
      cases hused
    · obtain ⟨found, hfound, hforeign⟩ := hprobe hdue
      rcases hread with hread | ⟨header, hheader, htime, -⟩
      · cases hfound.symm.trans hread
      · cases hfound.symm.trans hheader
        exact hforeign header rfl htime

/-- The walk comes to the last of several logs behind one another exactly if all but the last one end where a page
does, provided that no page inside one of the others shows a partial log. -/
theorem walkPartialAt_adjoining : ∀ {first : FoundLog} {logs : List FoundLog},
    v.PartOf peb page segment first → (first :: logs).IsChain (v.Adjoins page) →
    (∀ log ∈ first :: logs, v.NothingInside page log) → v.NothingBehind page (logs.getLastD first) →
    (v.walkPartialAt page first = .ok (logs.getLastD first) ↔
      ∀ log ∈ (first :: logs).dropLast, v.EndsPage log)
  | first, logs, hfirst, hchain, hinside, hbehind => by
    by_cases hends : v.EndsPage first
    · rcases logs with _ | ⟨next, logs⟩
      · have hlast := walkPartialAt_of_blank hwords hfirst (hbehind _ hends.pageBehind)
        exact iff_of_true hlast (List.forall_mem_nil _)
      obtain ⟨hnext, hrest⟩ := List.isChain_cons_cons.1 hchain
      rw [List.getLastD_cons] at hbehind
      rw [walkPartialAt_of_hop (hnext.hop hwords hfirst hends), List.getLastD_cons,
        walkPartialAt_adjoining (hfirst.adjoins hnext) hrest (List.forall_mem_cons.1 hinside).2 hbehind,
        List.dropLast_cons_cons, List.forall_mem_cons, and_iff_right hends]
    -- The walk goes on inside the first log, and so no further than that one.
    · have hsize := pageSize_pos_of_lt (Nat.lt_min.1 hfirst.page_lt).2
      have hstays := walkPartialAt_of_blank hwords hfirst
        (hinside first (List.mem_cons_self ..) hends _ (pageInside_of_not_endsPage hends hsize))
      rcases logs with _ | ⟨next, logs⟩
      · exact iff_of_true hstays (List.forall_mem_nil _)
      refine iff_of_false (fun h => ?_) fun h => hends (h first (List.mem_cons_self ..))
      have hsame := Except.ok.inj (hstays.symm.trans h)
      have hle := (Adjoins.climbs v page).rank_add_length_le hchain
      rw [← hsame, List.length_cons] at hle
      omega

end Words

/-! ## What the walk comes to -/

/-- Where partial logs are written one behind the other and nothing is written behind the last of them, in an
erase block whose size has 32 bits, the walk returns the last one, provided that each of the logs ends where a
page does, or on its first page. Where nothing inside the logs reads as a partial header it does so only if all
logs but the last one end like that. -/
theorem walkPartial_reaches_adjoining (v : Volume) (peb : Nat) {page : Nat}
    (hpage : page < v.geometry.pagesPerPeb) (hwords : v.geometry.eraseSize < UInt32.size)
    {segment : SegmentHeader} (hvalid : ValidSize v.geometry.pagesPerPeb segment) {opening : FoundLog}
    {logs : List FoundLog} (hopening : v.Opening peb page segment opening)
    (hchain : (opening :: logs).IsChain (v.Adjoins page))
    (hbehind : v.NothingBehind page (logs.getLastD opening)) :
    ((∀ log ∈ opening :: logs, v.EndsPage log) →
        v.walkPartial peb page segment = .ok (logs.getLastD opening)) ∧
      ((∀ log ∈ opening :: logs, v.NothingInside page log) →
        (v.walkPartial peb page segment = .ok (logs.getLastD opening) ↔
          ∀ log ∈ (opening :: logs).dropLast, v.EndsPage log)) := by
  rw [walkPartial_of_opening hpage hvalid hopening]
  have hpart := hopening.partOf hpage hvalid
  constructor
  · intro hends
    have hinside : ∀ log ∈ opening :: logs, v.NothingInside page log := fun log hlog hnot =>
      absurd (hends log hlog) hnot
    refine (walkPartialAt_adjoining hwords hpart hchain hinside hbehind).2 fun log hlog => ?_
    exact hends log (List.dropLast_subset _ hlog)
  · intro hinside
    exact walkPartialAt_adjoining hwords hpart hchain hinside hbehind

/-! ## Logs on a device -/

/-- The page behind a log, by what it wrote. -/
theorem pageBehind_of_written {first bytes : Nat} (hfirst : log.page = first) (hbytes : log.written = bytes)
    (hlt : first < page) (hle : first * v.geometry.pageSize + bytes ≤ page * v.geometry.pageSize)
    (hleast : page ≤ first + 1 ∨ (page - 1) * v.geometry.pageSize < first * v.geometry.pageSize + bytes) :
    v.PageBehind log page := by
  rw [pageBehind_iff, hfirst, hbytes]
  refine ⟨hlt, hle, fun other hother hend => ?_⟩
  rcases hleast with hnext | hinside
  · omega
  · have hlt' : page - 1 < other := Nat.lt_of_mul_lt_mul_right (Nat.lt_of_lt_of_le hinside hend)
    omega

/-- A partial log without a footer that is read behind another log. -/
theorem exists_adjoins (start : Nat) {bytes : UInt32} (hpeb : log.peb = peb) (hsegment : log.segment = segment)
    (hread : v.partialAt peb page = some (bytes, segment.createTime, false)) (hbehind : v.PageBehind log page)
    (hlt : page < min (start + segment.logPages.toNat) v.geometry.pagesPerPeb) :
    ∃ next, v.Adjoins start log next ∧ next.page = page ∧ next.written = bytes.toNat ∧ next.peb = peb ∧
      next.segment = segment := by
  obtain ⟨header, hheader, hsummary⟩ := Option.map_eq_some_iff.1 hread
  simp only [Prod.mk.injEq] at hsummary
  obtain ⟨rfl, htime, hflag⟩ := hsummary
  rw [Option.join_eq_some_iff, Outcome.toOption_eq_some] at hheader
  subst hpeb hsegment
  refine ⟨⟨log.peb, page, .ofPartial header, none, log.segment⟩,
    ⟨hbehind, hlt, ⟨header, hheader, htime, rfl⟩, ?_, rfl, rfl⟩, rfl, rfl, rfl, rfl⟩
  unfold OwnFooter
  simp only [hflag, Bool.false_eq_true, if_false]

/-- Nothing is written behind a log if no partial header is read on the page behind it. -/
theorem nothingBehind_of_read (hpeb : log.peb = peb) (hread : (v.partialHeader? peb page).toOption = some none)
    (hbehind : v.PageBehind log page) : v.NothingBehind start log := by
  intro other hother _
  obtain rfl := hbehind.unique hother
  subst hpeb
  exact ⟨none, Outcome.toOption_eq_some.1 hread, nofun⟩

open StackedVolume (stacked continued)

/-- Both partial logs behind a full log with a footer are walked over: it takes three pages, they take one each. -/
theorem stacked_reaches_adjoining : ∃ opening logs,
    2 < stacked.geometry.pagesPerPeb ∧ stacked.geometry.eraseSize < UInt32.size ∧
      ValidSize stacked.geometry.pagesPerPeb continued ∧ stacked.Opening 1 2 continued opening ∧
      (opening :: logs).IsChain (stacked.Adjoins 2) ∧ stacked.NothingBehind 2 (logs.getLastD opening) ∧
      (∀ log ∈ opening :: logs, stacked.EndsPage log) ∧
      stacked.walkPartial 1 2 continued = .ok (logs.getLastD opening) ∧
      (logs.getLastD opening).page = 6 := by
  have hpages : 2 < stacked.geometry.pagesPerPeb := by decide
  have hwords : stacked.geometry.eraseSize < UInt32.size := by decide
  have hvalid : ValidSize stacked.geometry.pagesPerPeb continued := by refine ⟨?_, ?_, ?_⟩ <;> decide
  obtain ⟨hread, hblank⟩ := StackedVolume.written_eq
  simp only [StackedVolume.writtenPages, Prod.mk.injEq, List.cons.injEq, and_true] at hread
  obtain ⟨hfooter, hfirst, hsecond⟩ := hread
  obtain ⟨footer, hfooter, hbytes⟩ := Option.map_eq_some_iff.1 hfooter
  rw [Option.join_eq_some_iff, Outcome.toOption_eq_some] at hfooter
  obtain ⟨opening, hopening, hpage, hwritten, hpeb, hsegment⟩ :
      ∃ opening, stacked.Opening 1 2 continued opening ∧ opening.page = 2 ∧ opening.written = 1536 ∧
        opening.peb = 1 ∧ opening.segment = continued :=
    ⟨_, ⟨by decide, footer, hfooter, rfl⟩, rfl, congrArg UInt32.toNat hbytes, rfl, rfl⟩
  obtain ⟨first, hadjoins, hpage', hwritten', hpeb', hsegment'⟩ := exists_adjoins 2 hpeb hsegment hfirst
    (pageBehind_of_written hpage hwritten (by decide) (by decide) (by decide)) (by decide)
  obtain ⟨second, hadjoins', hpage'', hwritten'', hpeb'', -⟩ := exists_adjoins 2 hpeb' hsegment' hsecond
    (pageBehind_of_written hpage' hwritten' (by decide) (by decide) (by decide)) (by decide)
  have hchain : [opening, first, second].IsChain (stacked.Adjoins 2) :=
    .cons_cons hadjoins (.cons_cons hadjoins' (.singleton _))
  have hbehind : stacked.NothingBehind 2 second := nothingBehind_of_read hpeb'' hblank
    (pageBehind_of_written hpage'' hwritten'' (by decide) (by decide) (by decide))
  have hends : ∀ log ∈ [opening, first, second], stacked.EndsPage log := by
    simp only [List.forall_mem_cons, endsPage_iff, hwritten, hwritten', hwritten'']
    decide
  exact ⟨opening, [first, second], hpages, hwords, hvalid, hopening, hchain, hbehind, hends,
    (walkPartial_reaches_adjoining stacked 1 hpages hwords hvalid hopening hchain hbehind).1 hends, hpage''⟩

open StrayVolume (stray)

/-- A partial log of a page and a half keeps the walk from the one behind it, though the bytes of all the logs lie
one behind the other within the full log, and no partial header is read behind the last of them. -/
theorem uneven_missed : ∃ opening logs,
    0 < stray.geometry.pagesPerPeb ∧ ValidSize stray.geometry.pagesPerPeb StrayVolume.opening ∧
      stray.Opening 1 0 StrayVolume.opening opening ∧ (opening :: logs).IsChain (stray.Adjoins 0) ∧
      (∀ log ∈ opening :: logs, log.page * stray.geometry.pageSize + log.written ≤
        StrayVolume.opening.logPages.toNat * stray.geometry.pageSize) ∧
      (∃ page, stray.PageBehind (logs.getLastD opening) page ∧ stray.partialHeader? 1 page = .ok none) ∧
      ∃ log, stray.walkPartial 1 0 StrayVolume.opening = .ok log ∧ log ≠ logs.getLastD opening := by
  have hpages : 0 < stray.geometry.pagesPerPeb := by decide
  have hvalid : ValidSize stray.geometry.pagesPerPeb StrayVolume.opening := by refine ⟨?_, ?_, ?_⟩ <;> decide
  obtain ⟨hread, hblank, hlast, -⟩ := StrayVolume.outcomes
  simp only [List.cons.injEq, and_true] at hread
  obtain ⟨hfirst, hsecond⟩ := hread
  obtain ⟨last, hwalk, hlast⟩ := Option.map_eq_some_iff.1 hlast
  obtain ⟨opening, hopening, hpage, hwritten, hpeb, hsegment⟩ :
      ∃ opening, stray.Opening 1 0 StrayVolume.opening opening ∧ opening.page = 0 ∧ opening.written = 1024 ∧
        opening.peb = 1 ∧ opening.segment = StrayVolume.opening :=
    ⟨_, ⟨by decide, none, rfl, rfl⟩, rfl, by decide, rfl, rfl⟩
  obtain ⟨first, hadjoins, hpage', hwritten', hpeb', hsegment'⟩ := exists_adjoins 0 hpeb hsegment hfirst
    (pageBehind_of_written hpage hwritten (by decide) (by decide) (by decide)) (by decide)
  obtain ⟨second, hadjoins', hpage'', hwritten'', -⟩ := exists_adjoins 0 hpeb' hsegment' hsecond
    (pageBehind_of_written hpage' hwritten' (by decide) (by decide) (by decide)) (by decide)
  refine ⟨opening, [first, second], hpages, hvalid, hopening,
    .cons_cons hadjoins (.cons_cons hadjoins' (.singleton _)), ?_, ⟨5, ?_, ?_⟩, last, ?_, ?_⟩
  · simp only [List.forall_mem_cons, hpage, hwritten, hpage', hwritten', hpage'', hwritten'']
    decide
  · exact pageBehind_of_written hpage'' hwritten'' (by decide) (by decide) (by decide)
  · exact Outcome.toOption_eq_some.1 hblank
  · exact Outcome.toOption_eq_some.1 hwalk
  · rintro rfl
    cases hlast.symm.trans hpage''

end Volume

end FlashVolume
