/-
Reading an erase block without a crash. Where the block starts within 2 ^ 63 bytes and the geometry is one a
volume may have, reading its records, walking its logs and looking logs up there end with a result or a
fault, whatever the headers say.
-/
import FlashVolume.Proofs.Arithmetic.Geometry
import FlashVolume.Proofs.Arithmetic.NoCrash
import FlashVolume.Proofs.Detection.Failures

namespace FlashVolume

/-- No area of a log ends further on than two 32-bit numbers add up to. -/
theorem AreaTable.stop_le (areas : AreaTable) : areas.stop ≤ 2 ^ 33 := by
  unfold stop
  refine List.foldlRecOn (motive := (· ≤ 2 ^ 33)) _ max (Nat.zero_le _) fun stop hstop area harea =>
    Nat.max_le.2 ⟨hstop, ?_⟩
  obtain ⟨descriptor, -, rfl⟩ := List.mem_map.1 harea
  have hoffset := descriptor.offset.toNat_lt
  have hsize := descriptor.size.toNat_lt
  unfold AreaDescriptor.stop
  omega

namespace Volume

/-! ## Records -/

/-- Words hold every position on the erase block. -/
structure Fits (v : Volume) (peb : Nat) : Prop where
  geometry : v.geometry.Bounded
  reaches : v.geometry.Reaches peb

theorem readBytes_noCrash (v : Volume) (peb offset length : Nat) :
    NoCrash (v.readBytes peb offset length) := by
  unfold readBytes
  split
  · exact .ok _
  · exact .fault _

theorem segmentLogBytes_le (segment : SegmentHeader) (footer : Option LogFooter) :
    segmentLogBytes segment footer ≤ 2 ^ 33 := by
  unfold segmentLogBytes
  rcases footer with _ | footer
  · exact segment.areas.stop_le
  · have := footer.logBytes.toNat_lt
    simp only
    omega

namespace Fits

variable {v : Volume} {peb page : Nat} (h : v.Fits peb)

include h

theorem word64_position (hpage : page < v.geometry.pagesPerPeb) {position : Nat}
    (hle : position ≤ v.geometry.logSpan page) :
    NoCrash (word64 (v.geometry.logOffset peb page + position)) := by
  have := h.geometry.position_le h.reaches (Nat.le_of_lt hpage) hle
  refine .word64 ?_
  simp only [UInt64.size]
  omega

theorem readHeaderBytes (hpage : page < v.geometry.pagesPerPeb) (length : Nat) :
    NoCrash (v.readHeaderBytes peb page length) := by
  unfold Volume.readHeaderBytes
  refine .bind (.word64 ?_) fun offset _ => ?_
  · have hheader := v.geometry.headerOffset_le peb page
    have hoffset := h.geometry.position_le h.reaches (Nat.le_of_lt hpage) (Nat.zero_le _)
    simp only [UInt64.size, bootRecordSize] at hheader ⊢
    omega
  · split
    · exact .ok _
    · exact (v.readBytes_noCrash ..).bind fun _ _ => .ok _

theorem segmentHeader? (hpage : page < v.geometry.pagesPerPeb) : NoCrash (v.segmentHeader? peb page) :=
  (h.readHeaderBytes hpage _).bind fun _ _ => .ok _

theorem partialHeader? (hpage : page < v.geometry.pagesPerPeb) : NoCrash (v.partialHeader? peb page) :=
  (h.readHeaderBytes hpage _).bind fun _ _ => .ok _

theorem readArea (hpage : page < v.geometry.pagesPerPeb) (area : AreaDescriptor) :
    NoCrash (v.readArea peb page area) := by
  unfold Volume.readArea
  split
  · exact .fault _
  · rename_i region hregion
    obtain ⟨-, hstop, rfl⟩ := Region.within_eq_ok_iff.1 hregion
    refine (h.word64_position hpage (by simp only; omega)).bind fun start _ => ?_
    refine (h.word64_position hpage hstop).bind fun _ _ => ?_
    exact v.readBytes_noCrash ..

theorem readAreaStart (hpage : page < v.geometry.pagesPerPeb) (area : AreaDescriptor) (length : Nat) :
    NoCrash (v.readAreaStart peb page area length) := by
  unfold Volume.readAreaStart
  split
  · exact .ok _
  · rename_i region hregion
    obtain ⟨-, hstop, rfl⟩ := Region.within_eq_ok_iff.1 hregion
    split
    · exact .ok _
    · refine (h.word64_position hpage (by simp only; omega)).bind fun start _ => ?_
      exact (v.readBytes_noCrash ..).bind fun _ _ => .ok _

theorem footerOf? (hpage : page < v.geometry.pagesPerPeb) (header : LogHeader) :
    NoCrash (v.footerOf? peb page header) := by
  unfold Volume.footerOf?
  split
  · exact (h.readAreaStart hpage ..).bind fun _ _ => .ok _
  · exact .ok _

theorem blockBitmapHeader? (hpage : page < v.geometry.pagesPerPeb) (header : LogHeader) :
    NoCrash (v.blockBitmapHeader? peb page header) := by
  unfold Volume.blockBitmapHeader?
  split
  · exact .ok _
  · exact (h.readAreaStart hpage ..).bind fun _ _ => .ok _

theorem offsetsTableHeader? (hpage : page < v.geometry.pagesPerPeb) (header : LogHeader) :
    NoCrash (v.offsetsTableHeader? peb page header) := by
  unfold Volume.offsetsTableHeader?
  split
  · exact .ok _
  · exact (h.readAreaStart hpage ..).bind fun _ _ => .ok _

theorem cacheArea? (hpage : page < v.geometry.pagesPerPeb) (header : LogHeader) :
    NoCrash (v.cacheArea? peb page header) := by
  unfold Volume.cacheArea?
  split
  · exact .ok _
  · exact (h.readArea hpage _).bind fun _ _ => .ok _

theorem pagesPerPeb : NoCrash v.pagesPerPeb := .quotient (Nat.ne_of_gt h.geometry.pageSize_pos)

/-! ## Walks -/

/-- A full log ends at a page number that has 32 bits. -/
theorem word32_page (hpage : page < v.geometry.pagesPerPeb) {pages : Nat}
    (hpages : pages ≤ v.geometry.pagesPerPeb) : NoCrash (word32 (page + pages)) := by
  have := Nat.le_trans v.geometry.pagesPerPeb_le h.geometry.eraseSize_le
  refine .word32 ?_
  simp only [UInt32.size]
  omega

theorem walkFullFrom {current : SegmentHeader} (hpage : page < v.geometry.pagesPerPeb) :
    NoCrash (v.walkFullFrom v.geometry.pagesPerPeb peb page current) := by
  generalize hpages : v.geometry.pagesPerPeb = pagesPerPeb at hpage
  fun_induction Volume.walkFullFrom v pagesPerPeb peb page current with
  | case1 => exact .fault _
  | case2 page current pages hvalid stop hstop =>
    subst hpages
    exact (h.word32_page hpage (pages_le_of_validLogPages hvalid)).error hstop
  | case3 page current pages hvalid next hnext hlt stop hstop =>
    subst hpages
    exact (h.segmentHeader? hlt).error hstop
  | case4 | case6 | case7 => exact .ok _
  | case5 page current pages hvalid next hnext hlt header hheader hcont ih => exact ih hlt

theorem walkFull {first : SegmentHeader} (hpage : page < v.geometry.pagesPerPeb) :
    NoCrash (v.walkFull peb page first) := by
  unfold Volume.walkFull
  split
  · rename_i stop hstop
    exact h.pagesPerPeb.error hstop
  · rename_i pagesPerPeb hpages
    obtain ⟨-, rfl⟩ := pagesPerPeb_eq_ok.1 hpages
    exact h.walkFullFrom hpage

theorem partialFooter? (hpage : page < v.geometry.pagesPerPeb) (header : PartialHeader) :
    NoCrash (v.partialFooter? peb page header) := by
  unfold Volume.partialFooter?
  split
  · exact h.footerOf? hpage _
  · exact .ok _

theorem consumed {start logBytes : Nat} (hstart : start ≤ page) (hpage : page < v.geometry.pagesPerPeb)
    (hbytes : logBytes ≤ 2 ^ 33) : NoCrash (v.consumed start page logBytes) := by
  have := h.geometry.consumed_le (Nat.le_of_lt hpage) start hbytes
  unfold Volume.consumed
  rw [if_neg (Nat.not_lt.2 hstart)]
  refine .word64 ?_
  simp only [UInt64.size]
  omega

omit h in
/-- Hops over partial logs stay between the start of the full log and its end. -/
theorem walkPartialFrom {start upper fullBytes : Nat} {log : FoundLog} {logBytes : Nat}
    (h : v.Fits log.peb) (hstart : start ≤ log.page) (hpage : log.page < upper)
    (hupper : upper ≤ v.geometry.pagesPerPeb) (hbytes : logBytes ≤ 2 ^ 33) :
    NoCrash (v.walkPartialFrom start upper fullBytes log logBytes) := by
  fun_induction Volume.walkPartialFrom v start upper fullBytes log logBytes with
  | case1 log logBytes stop hstop =>
    exact (h.consumed hstart (Nat.lt_of_lt_of_le hpage hupper) hbytes).error hstop
  | case2 log logBytes used hused next hnext stop hstop =>
    exact (h.partialHeader? (Nat.lt_of_lt_of_le hnext.2 hupper)).error hstop
  | case3 | case6 | case7 => exact .ok _
  | case4 log logBytes used hused next hnext header hheader htime stop hstop =>
    exact (h.partialFooter? (Nat.lt_of_lt_of_le hnext.2 hupper) header).error hstop
  | case5 log logBytes used hused next hnext header hheader htime footer hfooter ih =>
    have hlt := header.logBytes.toNat_lt
    refine ih h ?_ hnext.2 (by omega)
    simp only [next, pageAfter]
    omega

theorem walkPartial (hpage : page < v.geometry.pagesPerPeb) (segment : SegmentHeader) :
    NoCrash (v.walkPartial peb page segment) := by
  unfold Volume.walkPartial
  rcases hn : v.pagesPerPeb with stop | pagesPerPeb <;> simp only
  · exact h.pagesPerPeb.error hn
  obtain ⟨-, rfl⟩ := pagesPerPeb_eq_ok.1 hn
  rcases hp : validLogPages segment.logPages v.geometry.pagesPerPeb with cause | pages <;> simp only
  · exact .fault cause
  have hpos := pos_of_validLogPages hp
  rcases hs : word32 (page + pages) with stop | stop <;> simp only
  · exact (h.word32_page hpage (pages_le_of_validLogPages hp)).error hs
  obtain ⟨-, rfl⟩ := word32_eq_ok.1 hs
  rcases hf : v.footerOf? peb page (.ofSegment segment) with stop | footer <;> simp only
  · exact (h.footerOf? hpage _).error hf
  refine walkPartialFrom h (Nat.le_refl _) ?_ (Nat.min_le_right ..) (segmentLogBytes_le segment footer)
  exact Nat.lt_min.2 ⟨by simp only; omega, hpage⟩

theorem walk (hpage : page < v.geometry.pagesPerPeb) (first : SegmentHeader) :
    NoCrash (v.walk peb page first) := by
  unfold Volume.walk
  rcases hw : v.walkFull peb page first with stop | ⟨last, segment⟩ <;> simp only
  · exact (h.walkFull hpage).error hw
  · exact h.walkPartial (walkFull_spec hw hpage).1 segment

theorem scanPeb : NoCrash (v.scanPeb peb) :=
  NoCrash.iff_failsOnly.2 (scanPeb_failsOnly
    (NoCrash.iff_failsOnly.1 (h.segmentHeader? h.geometry.pagesPerPeb_pos)))

end Fits

/-! ## Lookups -/

/-- Words hold every position on the device: it has at most 2 ^ 63 bytes. -/
structure Addressable (v : Volume) : Prop where
  geometry : v.geometry.Bounded
  size_le : v.handle.size ≤ 2 ^ 63

namespace Addressable

variable {v : Volume} (h : v.Addressable)

include h

theorem pebsCount : NoCrash v.pebsCount := .quotient (Nat.ne_of_gt h.geometry.eraseSize_pos)

theorem fits {peb pebs : Nat} (hpebs : v.pebsCount = .ok pebs) (hlt : peb < pebs) : v.Fits peb := by
  obtain ⟨-, rfl⟩ := pebsCount_eq_ok.1 hpebs
  refine ⟨h.geometry, Nat.le_trans ?_ h.size_le⟩
  exact Nat.le_trans (Nat.mul_le_mul_right _ (Nat.le_of_lt hlt)) (Nat.div_mul_le_self ..)

/-- On the erase blocks of the volume nothing crashes. -/
theorem blocksFailOnly : v.BlocksFailOnly Stop.IsFault where
  pebsCount := NoCrash.iff_failsOnly.1 h.pebsCount
  header hpebs hlt :=
    NoCrash.iff_failsOnly.1 ((h.fits hpebs hlt).segmentHeader? h.geometry.pagesPerPeb_pos)
  walk hpebs hlt first := NoCrash.iff_failsOnly.1 ((h.fits hpebs hlt).walk h.geometry.pagesPerPeb_pos first)

end Addressable

/-! ## Census -/

variable {v w : Volume} {workers : Nat} {reopened : Except ReadError Handle}

/-- Whatever handle a census reads through, positions are those of the volume. -/
theorem Addressable.fits_forCensus (h : v.Addressable) (hw : v.forCensus reopened workers = .ok w)
    {peb pebs : Nat} (hpebs : v.pebsCount = .ok pebs) (hlt : peb < pebs) : w.Fits peb := by
  have hfits := h.fits hpebs hlt
  unfold forCensus at hw
  simp only [hpebs] at hw
  split at hw
  · cases hw
    exact hfits
  · rcases reopened with cause | handle <;> cases hw
    exact ⟨hfits.geometry, hfits.reaches⟩

theorem Addressable.scan (h : v.Addressable) : NoCrash (v.scan reopened workers) := by
  refine NoCrash.iff_failsOnly.2 (scan_failsOnly (NoCrash.iff_failsOnly.1 h.pebsCount) (fun _ _ => ⟨_, rfl⟩)
    fun hw hpebs hlt => ?_)
  have hfits := h.fits_forCensus hw hpebs hlt
  exact NoCrash.iff_failsOnly.1 (hfits.segmentHeader? hfits.geometry.pagesPerPeb_pos)

end Volume

end FlashVolume
