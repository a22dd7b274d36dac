/-
What a volume in memory does not deliver. Headers are looked for only where the device has room for them, and areas
lie in the erase block of their log: so from an erase block that is all there, everything can be read. Of one that
the device cuts off, a walk cannot read the footer of a log that lies beyond the end, and that is all.
-/
import FlashVolume.Proofs.Log.PartialLogs
import FlashVolume.Proofs.Volume.InMemory

namespace FlashVolume

/-- A read failed. -/
def Stop.IsRead (stop : Stop) : Prop := ∃ peb offset cause, stop = .fault (.read peb offset cause)

/-- If the operation fails, then not at a read. -/
abbrev Delivers {α : Type} (x : Outcome α) : Prop := Outcome.FailsOnly (¬ ·.IsRead) x

theorem Delivers.crash {α : Type} (cause : Crash) : Delivers (.error (.crash cause) : Outcome α) :=
  .of_error nofun

theorem Delivers.word64 (n : Nat) : Delivers (word64 n) := by
  rcases h : FlashVolume.word64 n with stop | m
  · rw [(word64_eq_error.1 h).2]
    exact .crash _
  · exact .ok m

theorem Delivers.quotient (n d : Nat) : Delivers (quotient n d) := by
  unfold FlashVolume.quotient
  split
  · exact .crash _
  · exact .ok _

namespace Volume

/-- The volume lies in memory, and words hold every position on it. -/
structure InMemory (v : Volume) (bytes : ByteArray) : Prop extends v.Addressable where
  handle : v.handle = .ofBytes bytes

/-- The device goes on to the end of the erase block. -/
def HasWhole (v : Volume) (peb : Nat) : Prop := (peb + 1) * v.geometry.eraseSize ≤ v.handle.size

/-- The footer the header of a log points to lies in the erase block of the log, at this offset of the device, but
goes on beyond the end of the device. -/
def FooterCut (v : Volume) (peb page : Nat) (header : LogHeader) (offset : Nat) : Prop :=
  ∃ area region, header.area? .footer = some area ∧ v.areaRegion page area = .ok region ∧
    LogFooter.format.size ≤ region.size ∧ offset = v.geometry.logOffset peb page + region.start ∧
    v.handle.size < offset + LogFooter.format.size

variable {v : Volume} {bytes : ByteArray} {peb page : Nat}

theorem hasWhole_of_lt {pebs : Nat} (hpebs : v.pebsCount = .ok pebs) (hlt : peb < pebs) : v.HasWhole peb := by
  obtain ⟨-, rfl⟩ := pebsCount_eq_ok.1 hpebs
  exact Nat.le_trans (Nat.mul_le_mul_right _ hlt) (Nat.div_mul_le_self ..)

/-- An area of a log ends where its erase block does, at the latest. -/
theorem region_stop_le (peb : Nat) (hpage : page < v.geometry.pagesPerPeb) {area : AreaDescriptor} {region : Region}
    (hregion : v.areaRegion page area = .ok region) :
    region.start + region.size = region.stop ∧
      v.geometry.logOffset peb page + region.stop ≤ (peb + 1) * v.geometry.eraseSize := by
  obtain ⟨-, hstop, rfl⟩ := Region.within_eq_ok_iff.1 hregion
  have hspan := v.geometry.logOffset_add_logSpan peb (Nat.le_of_lt hpage)
  unfold Region.size
  rw [Nat.succ_mul]
  simp only at hstop ⊢
  omega

/-- No footer of an erase block that is all there is cut off. -/
theorem HasWhole.not_footerCut (h : v.HasWhole peb) (hpage : page < v.geometry.pagesPerPeb) {header : LogHeader}
    {offset : Nat} : ¬ v.FooterCut peb page header offset := by
  rintro ⟨area, region, -, hregion, hsize, rfl, hcut⟩
  obtain ⟨hregionSize, hstop⟩ := region_stop_le peb hpage hregion
  unfold HasWhole at h
  omega

namespace InMemory

variable (h : v.InMemory bytes)

include h

theorem readBytes (peb offset length : Nat) : v.readBytes peb offset length =
    if offset + length ≤ bytes.size then .ok ((bytesFrom bytes offset).take length)
    else .error (.fault (.read peb offset (.pastEnd offset length bytes.size))) := by
  rw [← readBytes_ofBytes bytes v.geometry, ← h.handle]

theorem size_eq : v.handle.size = bytes.size := by
  rw [h.handle]
  rfl

theorem fits_of_hasWhole (hwhole : v.HasWhole peb) : v.Fits peb :=
  ⟨h.geometry, Nat.le_trans (Nat.mul_le_mul_right _ (Nat.le_succ peb)) (Nat.le_trans hwhole h.size_le)⟩

/-! ## Headers -/

omit h in
theorem headerOffset_lt (hfits : v.Fits peb) (hpage : page < v.geometry.pagesPerPeb) {length : Nat}
    (hlength : length ≤ 768) : v.geometry.headerOffset peb page + length < UInt64.size - 1 := by
  have hheader := v.geometry.headerOffset_le peb page
  have hoffset := hfits.geometry.position_le hfits.reaches (Nat.le_of_lt hpage) (Nat.zero_le _)
  simp only [UInt64.size, bootRecordSize] at hheader ⊢
  omega

theorem exists_segmentHeader? (hfits : v.Fits peb) (hpage : page < v.geometry.pagesPerPeb) :
    ∃ header, v.segmentHeader? peb page = .ok header := by
  have hread := segmentHeader?_ofBytes bytes (headerOffset_lt hfits hpage (Nat.le_of_eq SegmentHeader.size_format))
  rw [← h.handle] at hread
  exact ⟨_, hread⟩

theorem exists_partialHeader? (hfits : v.Fits peb) (hpage : page < v.geometry.pagesPerPeb) :
    ∃ header, v.partialHeader? peb page = .ok header := by
  have hread := partialHeader?_ofBytes bytes
    (headerOffset_lt hfits hpage (Nat.le_trans (Nat.le_of_eq PartialHeader.size_format) (by decide)))
  rw [← h.handle] at hread
  exact ⟨_, hread⟩

/-! ## Areas -/

omit h in
theorem word64_start (hfits : v.Fits peb) (hpage : page < v.geometry.pagesPerPeb) {area : AreaDescriptor}
    {region : Region} (hregion : v.areaRegion page area = .ok region) :
    word64 (v.geometry.logOffset peb page + region.start) = .ok (v.geometry.logOffset peb page + region.start) := by
  obtain ⟨-, hstop, rfl⟩ := Region.within_eq_ok_iff.1 hregion
  have hle := hfits.geometry.position_le hfits.reaches (Nat.le_of_lt hpage)
    (Nat.le_trans (Nat.le_add_right ..) hstop)
  refine word64_eq_ok.2 ⟨?_, rfl⟩
  simp only [UInt64.size]
  omega

/-- Reading a footer that is cut off fails. -/
theorem footerOf?_of_cut (hfits : v.Fits peb) (hpage : page < v.geometry.pagesPerPeb) {header : LogHeader}
    {offset : Nat} (hcut : v.FooterCut peb page header offset) : v.footerOf? peb page header =
      .error (.fault (.read peb offset (.pastEnd offset LogFooter.format.size bytes.size))) := by
  obtain ⟨area, region, harea, hregion, hsize, rfl, hcut⟩ := hcut
  rw [h.size_eq] at hcut
  have hread := h.readBytes peb (v.geometry.logOffset peb page + region.start) LogFooter.format.size
  rw [if_neg (Nat.not_le.2 hcut)] at hread
  unfold footerOf? footer? readAreaStart
  simp only [harea, hregion, if_neg (Nat.not_lt.2 hsize), word64_start hfits hpage hregion, bind, Except.bind,
    hread]

/-- Reading any other footer does not. -/
theorem exists_footerOf? (hfits : v.Fits peb) (hpage : page < v.geometry.pagesPerPeb) {header : LogHeader}
    (hcut : ∀ offset, ¬ v.FooterCut peb page header offset) :
    ∃ footer, v.footerOf? peb page header = .ok footer := by
  unfold footerOf? footer? readAreaStart
  rcases harea : header.area? .footer with _ | area <;> simp only
  · exact ⟨none, rfl⟩
  rcases hregion : v.areaRegion page area with cause | region <;> simp only
  · exact ⟨_, rfl⟩
  split
  · exact ⟨_, rfl⟩
  rename_i hsize
  have hread := h.readBytes peb (v.geometry.logOffset peb page + region.start) LogFooter.format.size
  rw [← h.size_eq] at hread
  split at hread
  · simp only [word64_start hfits hpage hregion, bind, Except.bind, hread]
    exact ⟨_, rfl⟩
  · rename_i hroom
    exact absurd ⟨area, region, harea, hregion, Nat.le_of_not_lt hsize, rfl, Nat.lt_of_not_le hroom⟩ (hcut _)

theorem footerOf?_eq_error_iff (hfits : v.Fits peb) (hpage : page < v.geometry.pagesPerPeb) {header : LogHeader}
    {stop : Stop} :
    v.footerOf? peb page header = .error stop ↔ ∃ offset, v.FooterCut peb page header offset ∧
      stop = .fault (.read peb offset (.pastEnd offset LogFooter.format.size bytes.size)) := by
  constructor
  · intro hstop
    by_cases hcut : ∃ offset, v.FooterCut peb page header offset
    · obtain ⟨offset, hcut⟩ := hcut
      exact ⟨offset, hcut, Except.error.inj (hstop.symm.trans (h.footerOf?_of_cut hfits hpage hcut))⟩
    · obtain ⟨footer, hfooter⟩ := h.exists_footerOf? hfits hpage (not_exists.1 hcut)
      cases hstop.symm.trans hfooter
  · rintro ⟨offset, hcut, rfl⟩
    exact h.footerOf?_of_cut hfits hpage hcut

/-- Any area can be read from an erase block that is all there. -/
theorem readArea (hwhole : v.HasWhole peb) (hpage : page < v.geometry.pagesPerPeb) (area : AreaDescriptor) :
    Delivers (v.readArea peb page area) := by
  unfold Volume.readArea
  rcases hregion : v.areaRegion page area with cause | region <;> simp only
  · exact .of_error nofun
  refine (Delivers.word64 _).bind fun start hstart => (Delivers.word64 _).bind fun _ _ => ?_
  obtain ⟨-, rfl⟩ := word64_eq_ok.1 hstart
  obtain ⟨hsize, hstop⟩ := region_stop_le peb hpage hregion
  unfold HasWhole at hwhole
  rw [h.size_eq] at hwhole
  rw [h.readBytes, if_pos (by omega)]
  exact .ok _

theorem cacheArea? (hwhole : v.HasWhole peb) (hpage : page < v.geometry.pagesPerPeb) (header : LogHeader) :
    Delivers (v.cacheArea? peb page header) := by
  unfold Volume.cacheArea?
  split
  · exact .ok _
  · exact (h.readArea hwhole hpage _).bind fun _ _ => .ok _

end InMemory

/-! ## Walks -/

/-- The walk over the logs of the full log that `segment` opens reads the footer of the log with this header: its own,
or that of a partial log which is due and says it has one. -/
def ReadsFooter (v : Volume) (peb start : Nat) (segment : SegmentHeader) (last : Nat) (header : LogHeader) : Prop :=
  last = start ∧ header = .ofSegment segment ∨
    ∃ opening hops part, v.Opening peb start segment opening ∧ (opening :: hops).IsChain (v.PartialHop start) ∧
      v.PartialDue start (hops.getLastD opening) last ∧ v.partialHeader? peb last = .ok (some part) ∧
      part.createTime = segment.createTime ∧ part.hasFlag LogFlag.hasFooter ∧ header = .ofPartial part

/-- The walk comes to a log whose footer is cut off at this offset. -/
def WalkCut (v : Volume) (peb page : Nat) (first : SegmentHeader) (offset : Nat) : Prop :=
  ∃ start segment last header, v.walkFull peb page first = .ok (start, segment) ∧
    v.ReadsFooter peb start segment last header ∧ v.FooterCut peb last header offset

theorem ReadsFooter.page_lt {start last : Nat} {segment : SegmentHeader} {header : LogHeader}
    (h : v.ReadsFooter peb start segment last header) (hstart : start < v.geometry.pagesPerPeb) :
    last < v.geometry.pagesPerPeb := by
  rcases h with ⟨rfl, -⟩ | ⟨_, _, _, -, -, hdue, -⟩
  · exact hstart
  · exact (Nat.lt_min.1 hdue.next_lt).2

namespace InMemory

variable (h : v.InMemory bytes)

include h

/-- The walk over full logs never fails at a read. -/
theorem walkFull (hfits : v.Fits peb) (hpage : page < v.geometry.pagesPerPeb) (first : SegmentHeader) :
    Delivers (v.walkFull peb page first) := by
  rw [walkFull_eq hpage]
  refine ⟨fun stop hstop => ?_⟩
  rintro ⟨peb', offset, cause, rfl⟩
  obtain ⟨hops, -, ⟨-, size, herror⟩ | ⟨-, ⟨stop, hstops, herror⟩ | ⟨-, -, hok⟩⟩⟩ :=
    v.walkFullAt_cases peb (page, first)
  · cases hstop.symm.trans herror
  · cases hstop.symm.trans herror
    rcases hstops with hnext | ⟨next, -, hlt, hread⟩
    · cases (word32_eq_error.1 hnext).2
    · obtain ⟨header, hheader⟩ := h.exists_segmentHeader? hfits hlt
      cases hread.symm.trans hheader
  · cases hstop.symm.trans hok

/-- The walk over the logs of a full log fails at a read exactly if that is a footer which is cut off. -/
theorem walkPartial_eq_read_iff (hfits : v.Fits peb) (hpage : page < v.geometry.pagesPerPeb)
    {segment : SegmentHeader} (hvalid : ValidSize v.geometry.pagesPerPeb segment) {peb' offset : Nat}
    {cause : ReadError} :
    v.walkPartial peb page segment = .error (.fault (.read peb' offset cause)) ↔
      (peb' = peb ∧ cause = .pastEnd offset LogFooter.format.size bytes.size) ∧
        ∃ last header, v.ReadsFooter peb page segment last header ∧ v.FooterCut peb last header offset := by
  rw [walkPartial_eq_error hpage hvalid]
  constructor
  · rintro ((hpages | ⟨-, hfooter⟩) | ⟨opening, hops, hopening, hchain, hstops⟩)
    · cases (word32_eq_error.1 hpages).2
    · obtain ⟨offset', hcut, heq⟩ := (h.footerOf?_eq_error_iff hfits hpage).1 hfooter
      cases heq
      exact ⟨⟨rfl, rfl⟩, _, _, .inl ⟨rfl, rfl⟩, hcut⟩
    have hlast := (hopening.partOf hpage hvalid).of_mem_chain hchain _ List.getLastD_mem_cons
    rcases hstops with ⟨written, -, -, hused⟩ | ⟨next, hdue, hread⟩
    · cases (word64_eq_error.1 hused).2
    rw [hlast.peb, hlast.segment] at hread
    have hnext := (Nat.lt_min.1 hdue.next_lt).2
    rcases hread with hread | ⟨part, hread, htime, hflag, hfooter⟩
    · obtain ⟨header, hheader⟩ := h.exists_partialHeader? hfits hnext
      cases hread.symm.trans hheader
    · obtain ⟨offset', hcut, heq⟩ := (h.footerOf?_eq_error_iff hfits hnext).1 hfooter
      cases heq
      exact ⟨⟨rfl, rfl⟩, _, _, .inr ⟨opening, hops, part, hopening, hchain, hdue, hread, htime, hflag, rfl⟩, hcut⟩
  · rintro ⟨⟨rfl, rfl⟩, last, header, hreads, hcut⟩
    have hfooter := h.footerOf?_of_cut hfits (hreads.page_lt hpage) hcut
    rcases hreads with ⟨rfl, rfl⟩ | ⟨opening, hops, part, hopening, hchain, hdue, hread, htime, hflag, rfl⟩
    · have hpages := Nat.le_trans v.geometry.pagesPerPeb_le hfits.geometry.eraseSize_le
      have hsize := hvalid.2.2
      refine .inl (.inr ⟨?_, hfooter⟩)
      simp only [UInt32.size]
      omega
    · have hlast := (hopening.partOf hpage hvalid).of_mem_chain hchain _ List.getLastD_mem_cons
      refine .inr ⟨opening, hops, hopening, hchain, .inr ⟨last, hdue, .inr ⟨part, ?_⟩⟩⟩
      rw [hlast.peb, hlast.segment]
      exact ⟨hread, htime, hflag, hfooter⟩

/-- The walk fails at a read exactly if it comes to a log whose footer is cut off. -/
theorem walk_eq_read_iff (hfits : v.Fits peb) (hpage : page < v.geometry.pagesPerPeb) {first : SegmentHeader}
    {peb' offset : Nat} {cause : ReadError} :
    v.walk peb page first = .error (.fault (.read peb' offset cause)) ↔
      (peb' = peb ∧ cause = .pastEnd offset LogFooter.format.size bytes.size) ∧ v.WalkCut peb page first offset := by
  unfold walk WalkCut
  rcases hfull : v.walkFull peb page first with stop | ⟨start, segment⟩ <;> simp only
  · refine iff_of_false (fun hstop => ?_) ?_
    · cases hstop
      exact (h.walkFull hfits hpage first).of_eq_error _ hfull ⟨_, _, _, rfl⟩
    · rintro ⟨-, _, _, _, _, hok, -⟩
      cases hok
  · have hstart := (walkFull_spec hfull hpage).1
    rw [walkFull_eq hpage] at hfull
    obtain ⟨hops, -, hvalid, -, hend⟩ := walkFullAt_eq_ok.1 hfull
    have hsize := hvalid _ List.getLastD_mem_cons
    rw [hend] at hsize
    rw [h.walkPartial_eq_read_iff hfits hstart hsize]
    constructor
    · rintro ⟨hcause, last, header, hreads, hcut⟩
      exact ⟨hcause, start, segment, last, header, rfl, hreads, hcut⟩
    · rintro ⟨hcause, _, _, last, header, hok, hreads, hcut⟩
      cases hok
      exact ⟨hcause, last, header, hreads, hcut⟩

/-- The walk over an erase block that is all there never fails at a read. -/
theorem walk (hwhole : v.HasWhole peb) (hpage : page < v.geometry.pagesPerPeb) (first : SegmentHeader) :
    Delivers (v.walk peb page first) := by
  refine ⟨fun stop hstop => ?_⟩
  rintro ⟨peb', offset, cause, rfl⟩
  obtain ⟨-, start, segment, last, header, hfull, hreads, hcut⟩ :=
    (h.walk_eq_read_iff (h.fits_of_hasWhole hwhole) hpage).1 hstop
  exact hwhole.not_footerCut (hreads.page_lt (walkFull_spec hfull hpage).1) hcut

/-- Nothing that is looked up on the volume fails at a read. -/
theorem blocksFailOnly : v.BlocksFailOnly (¬ ·.IsRead) where
  pebsCount := Delivers.quotient _ _
  header hpebs hlt := by
    obtain ⟨header, hheader⟩ := h.exists_segmentHeader? (h.fits hpebs hlt) h.geometry.pagesPerPeb_pos
    rw [hheader]
    exact .ok _
  walk hpebs hlt first := h.walk (hasWhole_of_lt hpebs hlt) h.geometry.pagesPerPeb_pos first

end InMemory

end Volume

end FlashVolume
