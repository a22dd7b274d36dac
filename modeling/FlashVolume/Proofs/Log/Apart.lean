/-
Headers that are kept apart. A walk goes on from page to page, and a census from erase block to erase block. As long
as the header of the first log lies on the page of that log, no header is taken for those of two logs. With pages no
larger than the boot record it is: the walk comes to the same header again, and takes it for that of another log.
-/
import FlashVolume.Proofs.Geometry.Positions
import FlashVolume.Proofs.Image.Edge
import FlashVolume.Proofs.Image.Stray
import FlashVolume.Proofs.Log.PartialLogs

namespace FlashVolume

/-- Ranks only grow along a run. -/
theorem Climbs.isChain_map {α : Type} {hop : α → α → Prop} {rank bound : α → Nat} (h : Climbs hop rank bound)
    {hops : List α} (hchain : hops.IsChain hop) : (hops.map rank).IsChain (· < ·) :=
  List.isChain_map_of_isChain rank h.rank_lt_rank hchain

namespace Geometry

variable {g : Geometry} {peb page : Nat}

/-- If the first of several pages of an erase block holds its own header, so do those behind. -/
theorem HeaderInPage.of_le (hg : g.WellFormed) {page' : Nat} (h : g.HeaderInPage peb page) (hle : page ≤ page') :
    g.HeaderInPage peb page' := by
  rw [headerInPage_iff hg] at h ⊢
  omega

/-- The headers of the logs on ascending pages of an erase block have ascending positions. -/
theorem headerOffset_ascending (hg : g.WellFormed) (hfirst : g.HeaderInPage peb page) {pages : List Nat}
    (hpages : (page :: pages).IsChain (· < ·)) (hlt : ∀ other ∈ page :: pages, other < g.pagesPerPeb) :
    ((page :: pages).map (g.headerOffset peb)).Pairwise (· < ·) := by
  have hpairwise := List.isChain_iff_pairwise.1 hpages
  rw [List.pairwise_map]
  refine hpairwise.imp_of_mem fun {a b} ha _ hab => ?_
  have hle : page ≤ a := by
    rcases List.mem_cons.1 ha with rfl | ha
    · exact Nat.le_refl _
    · exact Nat.le_of_lt ((List.pairwise_cons.1 hpairwise).1 a ha)
  exact (hfirst.of_le hg hle).lt (hlt a ha) (.inr ⟨rfl, hab⟩)

end Geometry

namespace Volume

variable {v : Volume} {peb page : Nat} {first : SegmentHeader} {log : Nat × SegmentHeader}
  {hops : List (Nat × SegmentHeader)} {opening : FoundLog} {parts : List FoundLog}

/-! ## Walks -/

/-- A run of a walk: over full logs from `log` on, and over the partial logs of the last one, which `opening`
opens. -/
structure WalkRun (v : Volume) (peb : Nat) (log : Nat × SegmentHeader) (hops : List (Nat × SegmentHeader))
    (opening : FoundLog) (parts : List FoundLog) : Prop where
  full : (log :: hops).IsChain (v.FullStep peb)
  opens : v.Opening peb (hops.getLastD log).1 (hops.getLastD log).2 opening
  partials : (opening :: parts).IsChain (v.PartialHop (hops.getLastD log).1)

/-- The walk to the newest log is such a run. -/
theorem exists_walkRun (hpage : page < v.geometry.pagesPerPeb) {last : FoundLog}
    (h : v.walk peb page first = .ok last) :
    ∃ hops opening parts, v.WalkRun peb (page, first) hops opening parts ∧ parts.getLastD opening = last := by
  unfold walk at h
  rcases hfull : v.walkFull peb page first with stop | ⟨start, segment⟩ <;> rw [hfull] at h
  · cases h
  have hstart := (walkFull_spec hfull hpage).1
  rw [walkFull_eq hpage] at hfull
  obtain ⟨hops, hexhausts, hvalid, -, hend⟩ := walkFullAt_eq_ok.1 hfull
  have hsize := hvalid _ List.getLastD_mem_cons
  rw [hend] at hsize
  obtain ⟨opening, parts, hopening, hparts, -, hlast⟩ := (walkPartial_eq_ok hstart hsize).1 h
  refine ⟨hops, opening, parts, ⟨isChain_fullStep hexhausts.chain hvalid, ?_, ?_⟩, hlast⟩
  · rw [hend]
    exact hopening
  · rw [hend]
    exact hparts.chain

/-- The pages a run comes to. -/
def runPages (hops : List (Nat × SegmentHeader)) (parts : List FoundLog) : List Nat :=
  hops.map Prod.fst ++ parts.map FoundLog.page

namespace WalkRun

variable (h : v.WalkRun peb log hops opening parts)

include h

theorem page_opening : opening.page = (hops.getLastD log).1 := by
  obtain ⟨-, footer, -, rfl⟩ := h.opens
  rfl

/-- A run goes on from page to page. -/
theorem isChain_pages : (log.1 :: runPages hops parts).IsChain (· < ·) := by
  have hfull := (FullStep.climbs v peb).isChain_map h.full
  have hpartial := (PartialHop.climbs v _).isChain_map h.partials
  rw [List.map_cons] at hfull hpartial
  unfold runPages
  rw [← List.cons_append]
  refine List.isChain_append.2 ⟨hfull, hpartial.tail, fun page hpage next hnext => ?_⟩
  -- The first partial log lies behind the log that opens the last full one.
  rw [← List.map_cons, List.getLast?_map, List.getLast?_cons] at hpage
  rcases parts with _ | ⟨part, parts⟩
  · cases hnext
  obtain rfl := Option.some.inj hnext
  obtain rfl := Option.some.inj hpage
  have hlt := (List.isChain_cons_cons.1 hpartial).1
  rw [h.page_opening] at hlt
  simpa using hlt

theorem page_lt (hlog : log.1 < v.geometry.pagesPerPeb) :
    ∀ page ∈ log.1 :: runPages hops parts, page < v.geometry.pagesPerPeb := by
  have hfull : ∀ other ∈ log :: hops, other.1 < v.geometry.pagesPerPeb :=
    h.full.induction (·.1 < v.geometry.pagesPerPeb) _ (fun _ _ hstep _ => hstep.2.page_lt) fun _ => hlog
  have hpartial : ∀ other ∈ opening :: parts, other.page < v.geometry.pagesPerPeb := by
    refine h.partials.induction (·.page < v.geometry.pagesPerPeb) _
      (fun _ _ hhop _ => (Nat.lt_min.1 hhop.due.next_lt).2) fun _ => ?_
    rw [List.head_cons, h.page_opening]
    exact hfull _ List.getLastD_mem_cons
  intro page hpage
  rcases List.mem_cons.1 hpage with rfl | hpage
  · exact hlog
  rcases List.mem_append.1 hpage with hmem | hmem
  · obtain ⟨other, hother, rfl⟩ := List.mem_map.1 hmem
    exact hfull other (List.mem_cons_of_mem _ hother)
  · obtain ⟨other, hother, rfl⟩ := List.mem_map.1 hmem
    exact hpartial other (List.mem_cons_of_mem _ hother)

end WalkRun

/-! ## The census -/

/-- The headers of the segments that are noted have ascending positions. -/
theorem Surveyed.ascending_headers {pebs : Nat} {items : List ScannedSegment} (hg : v.geometry.WellFormed)
    (herase : bootRecordSize < v.geometry.eraseSize) (h : v.Surveyed pebs items) :
    (items.map fun item => v.geometry.headerOffset item.peb 0).Pairwise (· < ·) := by
  have hzero := hg.pagesPerPeb_pos
  rw [List.pairwise_map]
  refine h.ascending.imp fun {a b} hlt => ?_
  have hblock : a.peb * v.geometry.eraseSize ≤ v.geometry.headerOffset a.peb 0 ∧
      v.geometry.headerOffset a.peb 0 < (a.peb + 1) * v.geometry.eraseSize :=
    (Geometry.headerOffset_mem_block_iff hg hzero).2 (by omega)
  have hbehind : (a.peb + 1) * v.geometry.eraseSize ≤ b.peb * v.geometry.eraseSize := Nat.mul_le_mul_right _ hlt
  have hoffset := v.geometry.logOffset_le_headerOffset b.peb 0
  unfold Geometry.logOffset at hoffset
  omega

/-! ## Both -/

/-- Two logs have their headers at the same position only if they are the same, or if one of them is the first log
of the volume and the other one begins right behind the boot record; there is such a log exactly if pages are no
larger than the boot record. Headers lie in the erase block of their log, but for the first one where erase blocks
are that small, too. Where the header a walk starts from lies on its page, the walk never comes to a position again,
and where erase blocks are larger than the boot record, neither does a census. -/
theorem headers_apart {logPage logErase logSegment logPebs : Nat} (v : Volume)
    (hg : Geometry.ofLogs? logPage logErase logSegment logPebs = some v.geometry) :
    (∀ peb page peb' page', page < v.geometry.pagesPerPeb → page' < v.geometry.pagesPerPeb →
        (v.geometry.headerOffset peb page = v.geometry.headerOffset peb' page' ↔
          (peb = peb' ∧ page = page') ∨ v.geometry.Shadows peb page peb' page' ∨
            v.geometry.Shadows peb' page' peb page)) ∧
      ((∃ peb page, page < v.geometry.pagesPerPeb ∧ v.geometry.Shadows 0 0 peb page) ↔
        v.geometry.pageSize ≤ bootRecordSize) ∧
      (∀ peb page, page < v.geometry.pagesPerPeb →
        ((peb * v.geometry.eraseSize ≤ v.geometry.headerOffset peb page ∧
            v.geometry.headerOffset peb page < (peb + 1) * v.geometry.eraseSize) ↔
          ¬ ((peb = 0 ∧ page = 0) ∧ v.geometry.eraseSize ≤ bootRecordSize))) ∧
      (∀ peb page first log, page < v.geometry.pagesPerPeb →
        bootRecordSize < v.geometry.pageSize ∨ ¬ (peb = 0 ∧ page = 0) → v.walk peb page first = .ok log →
          ∃ hops opening parts, v.WalkRun peb (page, first) hops opening parts ∧
            parts.getLastD opening = log ∧
            ((page :: runPages hops parts).map (v.geometry.headerOffset peb)).Pairwise (· < ·)) ∧
      (∀ pebs items, bootRecordSize < v.geometry.eraseSize → v.Surveyed pebs items →
        (items.map fun item => v.geometry.headerOffset item.peb 0).Pairwise (· < ·)) := by
  have hwell := Geometry.wellFormed_of_ofLogs? hg
  refine ⟨fun peb page peb' page' => Geometry.headerOffset_eq_iff hwell, Geometry.exists_shadows_iff hg,
    fun peb page => Geometry.headerOffset_mem_block_iff hwell, fun peb page first log hpage hfirst hwalk => ?_,
    fun pebs items herase hsurvey => hsurvey.ascending_headers hwell herase⟩
  obtain ⟨hops, opening, parts, hrun, hlast⟩ := exists_walkRun hpage hwalk
  exact ⟨hops, opening, parts, hrun, hlast, Geometry.headerOffset_ascending hwell
    ((Geometry.headerInPage_iff hwell).2 hfirst) hrun.isChain_pages (hrun.page_lt hpage)⟩

/-- The walk over a full log and its partial logs, in the second erase block. -/
theorem stray_headers_apart : ∃ log hops opening parts,
    StrayVolume.stray.walk 1 0 StrayVolume.opening = .ok log ∧
      StrayVolume.stray.WalkRun 1 (0, StrayVolume.opening) hops opening parts ∧
      ((0 :: runPages hops parts).map (StrayVolume.stray.geometry.headerOffset 1)).Pairwise (· < ·) := by
  obtain ⟨-, -, -, hkinds, -⟩ := StrayVolume.outcomes
  obtain ⟨log, hwalk, -⟩ := Option.map_eq_some_iff.1 hkinds
  rw [Outcome.toOption_eq_some] at hwalk
  obtain ⟨-, -, -, hwalks, -⟩ :=
    headers_apart StrayVolume.stray (show Geometry.ofLogs? 9 12 12 0 = some StrayVolume.stray.geometry by decide)
  obtain ⟨hops, opening, parts, hrun, -, hpairwise⟩ :=
    hwalks 1 0 StrayVolume.opening log (by decide) (.inr (by omega)) hwalk
  exact ⟨log, hops, opening, parts, hwalk, hrun, hpairwise⟩

/-- With pages of half a kilobyte, the log that begins right behind the boot record has the header of the first
one, and the walk takes it for that of a second log. -/
theorem narrow_not_apart : Geometry.ofLogs? 9 12 12 0 = some EdgeVolume.narrow.geometry ∧
    EdgeVolume.narrow.geometry.headerOffset 0 0 = EdgeVolume.narrow.geometry.headerOffset 0 2 ∧
    ∃ header, EdgeVolume.narrow.segmentHeader? 0 0 = .ok (some header) ∧
      EdgeVolume.narrow.walkFull 0 0 header = .ok (2, header) := by
  refine ⟨by decide, by decide, ?_⟩
  obtain ⟨-, hlast, -⟩ := EdgeVolume.outcomes
  exact EdgeVolume.exists_lastFull hlast

end Volume

end FlashVolume
