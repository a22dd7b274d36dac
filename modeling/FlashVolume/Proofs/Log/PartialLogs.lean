/-
The partial logs of a full log. Each one begins where the bytes of the log before it end, a page further on
at least, as long as the full log is not used up. The walk over them comes to the last one, in fewer hops than
the full log has pages, and returns it with its own footer; only a read that fails keeps it from that.
-/
import FlashVolume.Proofs.Log.FullLogs

namespace FlashVolume

/-! ## What a log wrote -/

/-- The areas a log has reach this far, and no further. -/
def AreaTable.EndsAt (areas : AreaTable) (bytes : Nat) : Prop :=
  (∀ area ∈ areas.toList, area.isPresent → area.stop ≤ bytes) ∧
    (bytes = 0 ∨ ∃ area ∈ areas.toList, area.isPresent ∧ area.stop = bytes)

theorem AreaTable.endsAt_stop (areas : AreaTable) : areas.EndsAt areas.stop := by
  unfold EndsAt stop
  rw [List.foldl_max]
  rcases hmax : ((areas.toList.filter (·.isPresent)).map (·.stop)).max? with _ | furthest <;> rw [hmax]
  · have hnone := List.max?_eq_none_iff.1 hmax
    rw [List.map_eq_nil_iff, List.filter_eq_nil_iff] at hnone
    exact ⟨fun area harea hpresent => absurd hpresent (hnone area harea), .inl rfl⟩
  · obtain ⟨hmem, hle⟩ := List.max?_eq_some_iff.1 hmax
    obtain ⟨area, harea, rfl⟩ := List.mem_map.1 hmem
    obtain ⟨harea, hpresent⟩ := List.mem_filter.1 harea
    rw [Option.getD_some, Nat.zero_max]
    refine ⟨fun other hother hpresent => hle _ ?_, .inr ⟨area, harea, hpresent, rfl⟩⟩
    exact List.mem_map_of_mem (List.mem_filter.2 ⟨hother, hpresent⟩)

theorem AreaTable.EndsAt.le {areas : AreaTable} {bytes other : Nat} (h : areas.EndsAt bytes)
    (hother : areas.EndsAt other) : bytes ≤ other := by
  rcases h.2 with rfl | ⟨area, harea, hpresent, rfl⟩
  · exact Nat.zero_le _
  · exact hother.1 area harea hpresent

namespace FoundLog

/-- The log wrote this many bytes: a partial log those its header says, a full log those its footer says, or
those its areas take if it has no footer. -/
def Wrote (log : FoundLog) (bytes : Nat) : Prop :=
  match log.header, log.footer with
  | .ofPartial header, _ => bytes = header.logBytes.toNat
  | .ofSegment _, some footer => bytes = footer.logBytes.toNat
  | .ofSegment header, none => header.areas.EndsAt bytes

/-- The bytes the log wrote. -/
def written (log : FoundLog) : Nat :=
  match log.header with
  | .ofPartial header => header.logBytes.toNat
  | .ofSegment header => Volume.segmentLogBytes header log.footer

theorem wrote_iff {log : FoundLog} {bytes : Nat} : log.Wrote bytes ↔ bytes = log.written := by
  rcases log with ⟨peb, page, header | header, _ | footer, segment⟩
  · have hstop := header.areas.endsAt_stop
    exact ⟨fun h => Nat.le_antisymm (h.le hstop) (hstop.le h), fun h => h ▸ hstop⟩
  · exact .rfl
  · exact .rfl
  · exact .rfl

end FoundLog

namespace Volume

variable {v : Volume} {peb page start : Nat} {segment : SegmentHeader} {log next : FoundLog} {stop : Stop}

/-! ## Hops -/

/-- The footer of the log is its own: the one its header points to, if that holds up. A partial log has none
unless its header says so. -/
def OwnFooter (v : Volume) (log : FoundLog) : Prop :=
  match log.header with
  | .ofSegment _ => v.footerOf? log.peb log.page log.header = .ok log.footer
  | .ofPartial header =>
    if header.hasFlag LogFlag.hasFooter then v.footerOf? log.peb log.page log.header = .ok log.footer
    else log.footer = none

/-- The log that opens the full log at `page`, with the footer its header points to. The pages of the full log
have numbers of 32 bits. -/
def Opening (v : Volume) (peb page : Nat) (segment : SegmentHeader) (log : FoundLog) : Prop :=
  page + segment.logPages.toNat < UInt32.size ∧
    ∃ footer, v.footerOf? peb page (.ofSegment segment) = .ok footer ∧
      log = ⟨peb, page, .ofSegment segment, footer, segment⟩

/-- A partial log is due at page `next`, where the bytes of this log end: the full log at page `start` is not
used up by then, and the page is one of its own. -/
structure PartialDue (v : Volume) (start : Nat) (log : FoundLog) (next : Nat) : Prop where
  start_le : start ≤ log.page
  room : ∃ bytes used, log.Wrote bytes ∧
    word64 ((log.page - start) * v.geometry.pageSize + bytes) = .ok used ∧
    used < log.segment.logPages.toNat * v.geometry.pageSize ∧
    next = log.page + max 1 (bytes / v.geometry.pageSize)
  next_lt : next < min (start + log.segment.logPages.toNat) v.geometry.pagesPerPeb

/-- One hop over a partial log: where one is due there is a header of the same creation time. -/
structure PartialHop (v : Volume) (start : Nat) (log next : FoundLog) : Prop where
  due : v.PartialDue start log next.page
  header : ∃ header, v.partialHeader? log.peb next.page = .ok (some header) ∧
    header.createTime = log.segment.createTime ∧ next.header = .ofPartial header
  footer : v.OwnFooter next
  peb : next.peb = log.peb
  segment : next.segment = log.segment

/-- What is due behind the log cannot be read: the header of a partial log, or its footer. -/
def PartialStops (v : Volume) (start : Nat) (log : FoundLog) (stop : Stop) : Prop :=
  (∃ bytes, start ≤ log.page ∧ log.Wrote bytes ∧
      word64 ((log.page - start) * v.geometry.pageSize + bytes) = .error stop) ∨
    ∃ next, v.PartialDue start log next ∧
      (v.partialHeader? log.peb next = .error stop ∨
        ∃ header, v.partialHeader? log.peb next = .ok (some header) ∧
          header.createTime = log.segment.createTime ∧ header.hasFlag LogFlag.hasFooter ∧
          v.footerOf? log.peb next (.ofPartial header) = .error stop)

/-- The log that opens the full log cannot be read: its footer, or the number of the page behind it. -/
def OpeningStops (v : Volume) (peb page : Nat) (segment : SegmentHeader) (stop : Stop) : Prop :=
  word32 (page + segment.logPages.toNat) = .error stop ∨
    page + segment.logPages.toNat < UInt32.size ∧
      v.footerOf? peb page (.ofSegment segment) = .error stop

theorem readStops_of_partialHeader? (h : v.partialHeader? peb page = .error stop) : ReadStops peb stop := by
  rcases Outcome.bind_eq_error.1 h with h | ⟨bytes, -, h⟩
  · exact readStops_of_readHeaderBytes h
  · cases h

theorem readStops_of_footerOf? {header : LogHeader} (h : v.footerOf? peb page header = .error stop) :
    ReadStops peb stop := by
  unfold footerOf? at h
  split at h
  · unfold footer? readAreaStart at h
    rcases Outcome.bind_eq_error.1 h with h | ⟨bytes, -, h⟩
    · split at h
      · cases h
      split at h
      · cases h
      rcases Outcome.bind_eq_error.1 h with h | ⟨offset, -, h⟩
      · exact .inr (word64_eq_error.1 h).2
      rcases Outcome.bind_eq_error.1 h with h | ⟨bytes, -, h⟩
      · exact readStops_of_readBytes h
      · cases h
    · cases h
  · cases h

theorem PartialStops.readStops (h : v.PartialStops start log stop) : ReadStops log.peb stop := by
  rcases h with ⟨bytes, -, -, h⟩ | ⟨next, -, h | ⟨header, -, -, -, h⟩⟩
  · exact .inr (word64_eq_error.1 h).2
  · exact readStops_of_partialHeader? h
  · exact readStops_of_footerOf? h

theorem OpeningStops.readStops (h : v.OpeningStops peb page segment stop) : ReadStops peb stop := by
  rcases h with h | ⟨-, h⟩
  · exact .inr (word32_eq_error.1 h).2
  · exact readStops_of_footerOf? h

/-! ## One step of the walk -/

theorem partialFooter?_eq_ok {header : PartialHeader} (hheader : log.header = .ofPartial header) :
    v.partialFooter? log.peb log.page header = .ok log.footer ↔ v.OwnFooter log := by
  unfold partialFooter? OwnFooter
  rw [hheader]
  simp only
  split
  · exact .rfl
  · rw [Except.ok.injEq, eq_comm]

/-- What the walk does with a log, whatever shows that it ends. -/
theorem walkPartialFrom_eq (v : Volume) (start upper fullBytes : Nat) (log : FoundLog) (logBytes : Nat) :
    v.walkPartialFrom start upper fullBytes log logBytes =
      match v.consumed start log.page logBytes with
      | .error stop => .error stop
      | .ok used =>
        if used < fullBytes ∧ v.pageAfter log.page logBytes < upper then
          match v.partialHeader? log.peb (v.pageAfter log.page logBytes) with
          | .error stop => .error stop
          | .ok none => .ok log
          | .ok (some header) =>
            if header.createTime = log.segment.createTime then
              match v.partialFooter? log.peb (v.pageAfter log.page logBytes) header with
              | .error stop => .error stop
              | .ok footer =>
                v.walkPartialFrom start upper fullBytes
                  { log with page := v.pageAfter log.page logBytes, header := .ofPartial header, footer }
                  header.logBytes.toNat
            else
              .ok log
        else
          .ok log := by
  rw [walkPartialFrom]
  rcases v.consumed start log.page logBytes with stop | used
  · rfl
  · dsimp only
    split <;> rfl

/-- The walk over the partial logs of the full log at page `start`, from one of its logs on. -/
def walkPartialAt (v : Volume) (start : Nat) (log : FoundLog) : Outcome FoundLog :=
  v.walkPartialFrom start (min (start + log.segment.logPages.toNat) v.geometry.pagesPerPeb)
    (log.segment.logPages.toNat * v.geometry.pageSize) log log.written

theorem consumed_eq (hstart : start ≤ page) (bytes : Nat) :
    v.consumed start page bytes = word64 ((page - start) * v.geometry.pageSize + bytes) :=
  if_neg (Nat.not_lt.2 hstart)

theorem partialDue_iff {page : Nat} : v.PartialDue start log page ↔
    start ≤ log.page ∧ page = v.pageAfter log.page log.written ∧
      ∃ used, v.consumed start log.page log.written = .ok used ∧
        (used < log.segment.logPages.toNat * v.geometry.pageSize ∧
          v.pageAfter log.page log.written <
            min (start + log.segment.logPages.toNat) v.geometry.pagesPerPeb) := by
  constructor
  · rintro ⟨hstart, ⟨bytes, used, hwrote, hused, hlt, rfl⟩, hnext⟩
    obtain rfl := FoundLog.wrote_iff.1 hwrote
    exact ⟨hstart, rfl, used, (consumed_eq hstart _).trans hused, hlt, hnext⟩
  · rintro ⟨hstart, rfl, used, hused, hlt, hnext⟩
    rw [consumed_eq hstart] at hused
    exact ⟨hstart, ⟨_, used, FoundLog.wrote_iff.2 rfl, hused, hlt, rfl⟩, hnext⟩

theorem walkPartialAt_of_hop (h : v.PartialHop start log next) :
    v.walkPartialAt start log = v.walkPartialAt start next := by
  obtain ⟨hdue, ⟨header, hprobe, htime, hheader⟩, hfooter, hpeb, hsegment⟩ := h
  obtain ⟨-, hpage, used, hused, hroom⟩ := partialDue_iff.1 hdue
  rw [← partialFooter?_eq_ok hheader] at hfooter
  rcases next with ⟨nextPeb, nextPage, nextHeader, footer, nextSegment⟩
  subst hpage hheader hpeb hsegment
  unfold walkPartialAt
  rw [walkPartialFrom_eq, hused]
  simp only [if_pos hroom, hprobe, if_pos htime, hfooter]
  rfl

theorem walkPartialAt_of_stops (h : v.PartialStops start log stop) :
    v.walkPartialAt start log = .error stop := by
  unfold walkPartialAt
  rw [walkPartialFrom_eq]
  rcases h with ⟨bytes, hstart, hwrote, hused⟩ | ⟨page, hdue, h⟩
  · obtain rfl := FoundLog.wrote_iff.1 hwrote
    rw [consumed_eq hstart, hused]
  · obtain ⟨-, rfl, used, hused, hroom⟩ := partialDue_iff.1 hdue
    rw [hused]
    rcases h with hprobe | ⟨header, hprobe, htime, hflag, hfooter⟩
    · simp only [if_pos hroom, hprobe]
    · simp only [if_pos hroom, hprobe, if_pos htime, partialFooter?, if_pos hflag, hfooter]

/-- A log behind which no other one is found is the last. -/
theorem walkPartialAt_of_last (hstart : start ≤ log.page) (hlast : ∀ next, ¬ v.PartialHop start log next)
    (hread : ∀ stop, ¬ v.PartialStops start log stop) : v.walkPartialAt start log = .ok log := by
  unfold walkPartialAt
  rw [walkPartialFrom_eq]
  rcases hused : v.consumed start log.page log.written with stop | used <;> simp only
  · rw [consumed_eq hstart] at hused
    exact absurd (.inl ⟨_, hstart, FoundLog.wrote_iff.2 rfl, hused⟩) (hread stop)
  split
  · rename_i hroom
    have hdue := partialDue_iff.2 ⟨hstart, rfl, used, hused, hroom⟩
    rcases hprobe : v.partialHeader? log.peb (v.pageAfter log.page log.written) with stop | _ | header <;>
      simp only
    · exact absurd (.inr ⟨_, hdue, .inl hprobe⟩) (hread stop)
    split
    · rename_i htime
      rcases hfooter : v.partialFooter? log.peb (v.pageAfter log.page log.written) header with
        stop | footer <;> simp only
      · unfold partialFooter? at hfooter
        split at hfooter
        · rename_i hflag
          exact absurd (.inr ⟨_, hdue, .inr ⟨header, hprobe, htime, hflag, hfooter⟩⟩) (hread stop)
        · cases hfooter
      · refine absurd ⟨hdue, ⟨header, hprobe, htime, rfl⟩, ?_, rfl, rfl⟩
          (hlast ⟨log.peb, v.pageAfter log.page log.written, .ofPartial header, footer, log.segment⟩)
        exact (partialFooter?_eq_ok rfl).1 hfooter
    · rfl
  · rfl

/-! ## Runs of hops -/

theorem PartialHop.climbs (v : Volume) (start : Nat) : Climbs (v.PartialHop start) FoundLog.page
    fun log => min (start + log.segment.logPages.toNat) v.geometry.pagesPerPeb where
  rank_lt_rank log next h := by
    have hpage := (partialDue_iff.1 h.due).2.1
    unfold pageAfter at hpage
    omega
  rank_lt_bound log next h := by
    have hlt := h.due.next_lt
    rw [← h.segment] at hlt
    exact hlt
  bound_eq log next h := by rw [h.segment]

theorem OwnFooter.unique {other : FoundLog} (h : v.OwnFooter log) (hother : v.OwnFooter other)
    (hpeb : log.peb = other.peb) (hpage : log.page = other.page) (hheader : log.header = other.header) :
    log.footer = other.footer := by
  unfold OwnFooter at h hother
  rw [hpeb, hpage, hheader] at h
  rcases hkind : other.header with header | header <;> simp only [hkind] at h hother
  · exact Except.ok.inj (h.symm.trans hother)
  · split at h <;> rename_i hflag
    · rw [if_pos hflag] at hother
      exact Except.ok.inj (h.symm.trans hother)
    · rw [if_neg hflag] at hother
      exact h.trans hother.symm

theorem PartialHop.rightUnique (v : Volume) (start : Nat) : Relator.RightUnique (v.PartialHop start) := by
  rintro log next other ⟨hdue, ⟨header, hprobe, -, hheader⟩, hfooter, hpeb, hsegment⟩
    ⟨hdue', ⟨header', hprobe', -, hheader'⟩, hfooter', hpeb', hsegment'⟩
  have hpage : next.page = other.page := (partialDue_iff.1 hdue).2.1.trans (partialDue_iff.1 hdue').2.1.symm
  rw [hpage] at hprobe
  cases hprobe.symm.trans hprobe'
  have hsame := hfooter.unique hfooter' (hpeb.trans hpeb'.symm) hpage (hheader.trans hheader'.symm)
  rcases next with ⟨nextPeb, nextPage, nextHeader, nextFooter, nextSegment⟩
  simp only at hpeb hpage hheader hsame hsegment
  rw [hpeb, hpage, hheader, hsame, hsegment, ← hpeb', ← hheader', ← hsegment']

theorem Opening.unique {other : FoundLog} (h : v.Opening peb page segment log)
    (hother : v.Opening peb page segment other) : log = other := by
  obtain ⟨-, footer, hfooter, rfl⟩ := h
  obtain ⟨-, footer', hfooter', rfl⟩ := hother
  cases hfooter.symm.trans hfooter'
  rfl

/-- The log is one of those of the full log that `segment` opens at `page`, with its own footer. -/
structure PartOf (v : Volume) (peb page : Nat) (segment : SegmentHeader) (log : FoundLog) : Prop where
  page_le : page ≤ log.page
  page_lt : log.page < min (page + segment.logPages.toNat) v.geometry.pagesPerPeb
  peb : log.peb = peb
  segment : log.segment = segment
  footer : v.OwnFooter log

theorem Opening.partOf (h : v.Opening peb page segment log) (hpage : page < v.geometry.pagesPerPeb)
    (hvalid : ValidSize v.geometry.pagesPerPeb segment) : v.PartOf peb page segment log := by
  obtain ⟨-, footer, hfooter, rfl⟩ := h
  have hpos := pos_of_validLogPages (validLogPages_of_validSize hvalid)
  exact ⟨Nat.le_refl _, Nat.lt_min.2 ⟨Nat.lt_add_of_pos_right hpos, hpage⟩, rfl, rfl, hfooter⟩

/-- A hop stays with the full log. -/
theorem PartOf.hop (hlog : v.PartOf peb page segment log) (h : v.PartialHop page log next) :
    v.PartOf peb page segment next := by
  have hclimb := (PartialHop.climbs v page).rank_lt_rank _ _ h
  have hlt := h.due.next_lt
  rw [hlog.segment] at hlt
  exact ⟨Nat.le_trans hlog.page_le (Nat.le_of_lt hclimb), hlt, h.peb.trans hlog.peb,
    h.segment.trans hlog.segment, h.footer⟩

/-- All logs on the way are of the full log. -/
theorem PartOf.of_mem_chain {hops : List FoundLog} (hlog : v.PartOf peb page segment log)
    (hchain : (log :: hops).IsChain (v.PartialHop page)) :
    ∀ other ∈ log :: hops, v.PartOf peb page segment other :=
  hchain.induction (v.PartOf peb page segment) _ (fun _ _ hhop hpart => hpart.hop hhop) fun _ => hlog

/-- There are fewer hops than the full log has pages. -/
theorem PartOf.length_lt {hops : List FoundLog} (hlog : v.PartOf peb page segment log)
    (hchain : (log :: hops).IsChain (v.PartialHop page)) : hops.length < segment.logPages.toNat := by
  have hle := (PartialHop.climbs v page).rank_add_length_le hchain
  have hlt := (hlog.of_mem_chain hchain _ List.getLastD_mem_cons).page_lt
  have := hlog.page_le
  omega

/-! ## What the walk comes to -/

/-- The walk gets as far as any run of hops. -/
theorem walkPartialAt_of_chain {hops : List FoundLog} (hchain : (log :: hops).IsChain (v.PartialHop start)) :
    v.walkPartialAt start log = v.walkPartialAt start (hops.getLastD log) :=
  run_of_chain (fun _ _ hhop => walkPartialAt_of_hop hhop) hchain

/-- The walk hops on from log to log until what is due cannot be read, or until no log follows. -/
theorem walkPartialAt_cases (hlog : v.PartOf peb page segment log) :
    ∃ hops, Exhausts (v.PartialHop page) log hops ∧
      ((∃ stop, v.PartialStops page (hops.getLastD log) stop ∧ v.walkPartialAt page log = .error stop) ∨
        (∀ stop, ¬ v.PartialStops page (hops.getLastD log) stop) ∧
          v.walkPartialAt page log = .ok (hops.getLastD log)) := by
  obtain ⟨hops, hexhausts⟩ := (PartialHop.climbs v page).exists_exhausts log
  refine ⟨hops, hexhausts, ?_⟩
  rw [walkPartialAt_of_chain hexhausts.chain]
  by_cases hstops : ∃ stop, v.PartialStops page (hops.getLastD log) stop
  · obtain ⟨stop, hstop⟩ := hstops
    exact .inl ⟨stop, hstop, walkPartialAt_of_stops hstop⟩
  · have hread := not_exists.1 hstops
    have hlast := hlog.of_mem_chain hexhausts.chain _ List.getLastD_mem_cons
    exact .inr ⟨hread, walkPartialAt_of_last hlast.page_le hexhausts.last hread⟩

section Whole

variable (hpage : page < v.geometry.pagesPerPeb) (hvalid : ValidSize v.geometry.pagesPerPeb segment)

include hpage hvalid

theorem walkPartial_of_opening (h : v.Opening peb page segment log) :
    v.walkPartial peb page segment = v.walkPartialAt page log := by
  obtain ⟨hfits, footer, hfooter, rfl⟩ := h
  unfold walkPartial
  simp only [pagesPerPeb_of_lt hpage, validLogPages_of_validSize hvalid, word32_eq_ok.2 ⟨hfits, rfl⟩, hfooter]
  rfl

theorem walkPartial_of_openingStops (h : v.OpeningStops peb page segment stop) :
    v.walkPartial peb page segment = .error stop := by
  unfold walkPartial
  simp only [pagesPerPeb_of_lt hpage, validLogPages_of_validSize hvalid]
  rcases h with hpages | ⟨hfits, hfooter⟩
  · simp only [hpages]
  · simp only [word32_eq_ok.2 ⟨hfits, rfl⟩, hfooter]

omit hpage hvalid in
theorem opening_or_stops (v : Volume) (peb page : Nat) (segment : SegmentHeader) :
    (∃ log, v.Opening peb page segment log) ∨ ∃ stop, v.OpeningStops peb page segment stop := by
  rcases hpages : word32 (page + segment.logPages.toNat) with stop | behind
  · exact .inr ⟨stop, .inl hpages⟩
  have hfits := (word32_eq_ok.1 hpages).1
  rcases hfooter : v.footerOf? peb page (.ofSegment segment) with stop | footer
  · exact .inr ⟨stop, .inr ⟨hfits, hfooter⟩⟩
  · exact .inl ⟨_, hfits, footer, hfooter, rfl⟩

/-- A log is returned if hops from the opening log lead to it, and what is due there can be read and is no
log of the same full log. -/
theorem walkPartial_eq_ok : v.walkPartial peb page segment = .ok log ↔
    ∃ opening hops, v.Opening peb page segment opening ∧ Exhausts (v.PartialHop page) opening hops ∧
      (∀ stop, ¬ v.PartialStops page log stop) ∧ hops.getLastD opening = log := by
  constructor
  · intro h
    rcases v.opening_or_stops peb page segment with ⟨opening, hopening⟩ | ⟨stop, hstop⟩
    · rw [walkPartial_of_opening hpage hvalid hopening] at h
      obtain ⟨hops, hexhausts, ⟨stop, -, herror⟩ | ⟨hread, hok⟩⟩ :=
        walkPartialAt_cases (hopening.partOf hpage hvalid)
      · cases h.symm.trans herror
      · cases h.symm.trans hok
        exact ⟨opening, hops, hopening, hexhausts, hread, rfl⟩
    · cases h.symm.trans (walkPartial_of_openingStops hpage hvalid hstop)
  · rintro ⟨opening, hops, hopening, hexhausts, hread, rfl⟩
    have hlast := (hopening.partOf hpage hvalid).of_mem_chain hexhausts.chain _ List.getLastD_mem_cons
    rw [walkPartial_of_opening hpage hvalid hopening, walkPartialAt_of_chain hexhausts.chain]
    exact walkPartialAt_of_last hlast.page_le hexhausts.last hread

/-- The walk fails if the opening log cannot be read, or what is due behind a log it gets to. -/
theorem walkPartial_eq_error : v.walkPartial peb page segment = .error stop ↔
    v.OpeningStops peb page segment stop ∨
      ∃ opening hops, v.Opening peb page segment opening ∧ (opening :: hops).IsChain (v.PartialHop page) ∧
        v.PartialStops page (hops.getLastD opening) stop := by
  constructor
  · intro h
    rcases v.opening_or_stops peb page segment with ⟨opening, hopening⟩ | ⟨stop', hstop⟩
    · rw [walkPartial_of_opening hpage hvalid hopening] at h
      obtain ⟨hops, hexhausts, ⟨stop', hstops, herror⟩ | ⟨-, hok⟩⟩ :=
        walkPartialAt_cases (hopening.partOf hpage hvalid)
      · cases h.symm.trans herror
        exact .inr ⟨opening, hops, hopening, hexhausts.chain, hstops⟩
      · cases h.symm.trans hok
    · cases h.symm.trans (walkPartial_of_openingStops hpage hvalid hstop)
      exact .inl hstop
  · rintro (hstop | ⟨opening, hops, hopening, hchain, hstops⟩)
    · exact walkPartial_of_openingStops hpage hvalid hstop
    · rw [walkPartial_of_opening hpage hvalid hopening, walkPartialAt_of_chain hchain]
      exact walkPartialAt_of_stops hstops

/-- What keeps the walk from returning a log is a read that fails. -/
theorem readStops_of_walkPartial (h : v.walkPartial peb page segment = .error stop) : ReadStops peb stop := by
  rcases (walkPartial_eq_error hpage hvalid).1 h with hstop | ⟨opening, hops, hopening, hchain, hstops⟩
  · exact hstop.readStops
  · have hread := hstops.readStops
    rw [((hopening.partOf hpage hvalid).of_mem_chain hchain _ List.getLastD_mem_cons).peb] at hread
    exact hread

end Whole

/-- The walk over the partial logs of a full log comes to the last of them. It returns a log exactly if hops
from the log that opens the full log lead to it, and the reads that are due there tell that no log follows; and
only one run of hops comes to an end. On any run there are fewer hops than the full log has pages, and every
log is one of that full log, has its segment header, and comes with its own footer. The walk fails exactly at
what cannot be read, and words that hold the positions of the erase block leave nothing else to go wrong. -/
theorem walkPartial_reaches_end (v : Volume) (peb : Nat) {page : Nat}
    (hpage : page < v.geometry.pagesPerPeb) {segment : SegmentHeader}
    (hvalid : ValidSize v.geometry.pagesPerPeb segment) :
    (∀ log, v.walkPartial peb page segment = .ok log ↔
        ∃ opening hops, v.Opening peb page segment opening ∧ Exhausts (v.PartialHop page) opening hops ∧
          (∀ stop, ¬ v.PartialStops page log stop) ∧ hops.getLastD opening = log) ∧
      (∀ log, v.walkPartial peb page segment = .ok log → ∀ opening hops,
        v.Opening peb page segment opening → Exhausts (v.PartialHop page) opening hops →
          hops.getLastD opening = log) ∧
      (∀ opening hops, v.Opening peb page segment opening → (opening :: hops).IsChain (v.PartialHop page) →
        hops.length < segment.logPages.toNat ∧ ∀ log ∈ opening :: hops, v.PartOf peb page segment log) ∧
      (∀ stop, v.walkPartial peb page segment = .error stop ↔
        v.OpeningStops peb page segment stop ∨
          ∃ opening hops, v.Opening peb page segment opening ∧
            (opening :: hops).IsChain (v.PartialHop page) ∧
            v.PartialStops page (hops.getLastD opening) stop) ∧
      (∀ stop, v.walkPartial peb page segment = .error stop → ReadStops peb stop) ∧
      (v.Fits peb → NoCrash (v.walkPartial peb page segment)) := by
  refine ⟨fun log => walkPartial_eq_ok hpage hvalid, fun log h opening hops hopening hexhausts => ?_,
    fun opening hops hopening hchain => ?_, fun stop => walkPartial_eq_error hpage hvalid,
    fun stop => readStops_of_walkPartial hpage hvalid, fun hfits => hfits.walkPartial hpage segment⟩
  · obtain ⟨opening', made, hopening', hmade, -, rfl⟩ := (walkPartial_eq_ok hpage hvalid).1 h
    obtain rfl := hopening.unique hopening'
    rw [hmade.unique (PartialHop.rightUnique v page) hexhausts]
  · have hpart := hopening.partOf hpage hvalid
    exact ⟨hpart.length_lt hchain, hpart.of_mem_chain hchain⟩

/-- Of two partial logs that follow a full log with a footer the second one is returned, which has none. -/
theorem stacked_reaches_last_partial : ∃ log hops opening,
    2 < StackedVolume.stacked.geometry.pagesPerPeb ∧
      ValidSize StackedVolume.stacked.geometry.pagesPerPeb StackedVolume.continued ∧
      StackedVolume.stacked.walkPartial 1 2 StackedVolume.continued = .ok log ∧
      log.page = 6 ∧ log.footer = none ∧
      StackedVolume.stacked.Opening 1 2 StackedVolume.continued opening ∧
      Exhausts (StackedVolume.stacked.PartialHop 2) opening hops ∧ hops.length < 6 ∧
      hops.getLastD opening = log := by
  have hpages : 2 < StackedVolume.stacked.geometry.pagesPerPeb := by decide
  have hvalid : ValidSize StackedVolume.stacked.geometry.pagesPerPeb StackedVolume.continued := by
    refine ⟨?_, ?_, ?_⟩ <;> decide
  obtain ⟨log, hlog, hlast⟩ := Option.map_eq_some_iff.1 StackedVolume.last_eq.2
  rcases hwalk : StackedVolume.stacked.walkPartial 1 2 StackedVolume.continued with stop | found <;>
    rw [hwalk] at hlog <;> cases hlog
  obtain ⟨hok, -, hchains, -⟩ := walkPartial_reaches_end StackedVolume.stacked 1 hpages hvalid
  simp only [Prod.mk.injEq] at hlast
  obtain ⟨hpage, -, hfooter⟩ := hlast
  obtain ⟨opening, hops, hopening, hexhausts, -, hend⟩ := (hok log).1 hwalk
  have hlength := (hchains opening hops hopening hexhausts.chain).1
  rw [Option.isSome_eq_false_iff, Option.isNone_iff_eq_none] at hfooter
  exact ⟨log, hops, opening, hpages, hvalid, rfl, hpage, hfooter, hopening, hexhausts, hlength, hend⟩

end Volume

end FlashVolume
