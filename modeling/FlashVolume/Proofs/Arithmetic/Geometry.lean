/-
Positions in machine words. On an erase block that starts within 2 ^ 63 bytes, a geometry that a volume may
have leaves so much room that every position, page number and byte count comes out in wrapping words as it
does in unbounded numbers.
-/
import FlashVolume.Proofs.Geometry
import Mathlib.Algebra.Group.Nat.Defs

namespace FlashVolume.Geometry

variable {g : Geometry} {peb page : Nat}

/-! ## Bounds -/

/-- Sizes as a volume may have them: whole pages, erase blocks of 2 GiB at most, and segments of 1 TiB at
most. -/
structure Bounded (g : Geometry) : Prop extends WellFormed g where
  eraseSize_le : g.eraseSize ≤ 2 ^ 31
  segmentSize_le : g.segmentSize ≤ 2 ^ 40
  pebsPerSegment_le : g.pebsPerSegment ≤ 2 ^ 31

theorem bounded_of_ofLogs? {page erase segment pebs : Nat} (h : ofLogs? page erase segment pebs = some g) :
    g.Bounded := by
  have hg := wellFormed_of_ofLogs? h
  obtain ⟨⟨hpage, -, hpages, herase, -, hsegment, rfl⟩, rfl⟩ := ofLogs?_eq_some_iff.1 h
  simp only [Nat.one_shiftLeft] at hg ⊢
  exact ⟨hg, Nat.pow_le_pow_right Nat.two_pos herase, Nat.pow_le_pow_right Nat.two_pos hsegment,
    Nat.pow_le_pow_right Nat.two_pos (by omega)⟩

theorem pagesPerPeb_le (g : Geometry) : g.pagesPerPeb ≤ g.eraseSize := Nat.div_le_self ..

/-- The pages of an erase block lie within it. -/
theorem page_mul_le (h : page ≤ g.pagesPerPeb) : page * g.pageSize ≤ g.eraseSize :=
  Nat.le_trans (Nat.mul_le_mul_right _ h) (Nat.div_mul_le_self ..)

theorem logOffset_add_logSpan (peb : Nat) (h : page ≤ g.pagesPerPeb) :
    g.logOffset peb page + g.logSpan page = peb * g.eraseSize + g.eraseSize := by
  have := page_mul_le h
  unfold logOffset logSpan
  omega

theorem headerOffset_le (g : Geometry) (peb page : Nat) :
    g.headerOffset peb page ≤ g.logOffset peb page + bootRecordSize := by
  unfold headerOffset
  split <;> omega

/-- The erase block starts no more than 2 ^ 63 bytes into the device. -/
def Reaches (g : Geometry) (peb : Nat) : Prop := peb * g.eraseSize ≤ 2 ^ 63

/-- No position of an erase block comes near the end of the 64-bit words. -/
theorem Bounded.position_le (hg : g.Bounded) (hpeb : g.Reaches peb) (hpage : page ≤ g.pagesPerPeb)
    {position : Nat} (h : position ≤ g.logSpan page) :
    g.logOffset peb page + position ≤ 2 ^ 63 + 2 ^ 31 := by
  have hspan := logOffset_add_logSpan peb hpage
  have hle := hg.eraseSize_le
  unfold Reaches at hpeb
  omega

/-! ## Words -/

/-- The position of a log as the 64-bit words give it, which wrap around. -/
def logOffset64 (g : Geometry) (peb page : Nat) : UInt64 :=
  peb.toUInt64 * g.eraseSize.toUInt64 + page.toUInt64 * g.pageSize.toUInt64

/-- The position of the header of a log as the 64-bit words give it. -/
def headerOffset64 (g : Geometry) (peb page : Nat) : UInt64 :=
  if peb = 0 ∧ page = 0 then g.logOffset64 peb page + bootRecordSize.toUInt64
  else g.logOffset64 peb page

/-- The bytes used of a full log as the words give them, page numbers having 32 bits. -/
def consumed64 (g : Geometry) (start page logBytes : Nat) : UInt64 :=
  (page.toUInt32 - start.toUInt32).toUInt64 * g.pageSize.toUInt64 + logBytes.toUInt64

/-- Whatever is calculated for the log at `page` of `peb` comes out in machine words as it does in
unbounded numbers. -/
structure Exact (g : Geometry) (peb page : Nat) : Prop where
  peb_lt : peb < UInt64.size
  page_lt : page < UInt32.size
  logOffset : (g.logOffset64 peb page).toNat = g.logOffset peb page
  headerOffset : (g.headerOffset64 peb page).toNat = g.headerOffset peb page
  position : ∀ position ≤ g.logSpan page,
    (g.logOffset64 peb page + position.toUInt64).toNat = g.logOffset peb page + position
  nextPage : ∀ pages ≤ g.pagesPerPeb, (page.toUInt32 + pages.toUInt32).toNat = page + pages
  fullBytes : ∀ pages ≤ g.pagesPerPeb, (pages.toUInt64 * g.pageSize.toUInt64).toNat = pages * g.pageSize
  consumed : ∀ start ≤ page, ∀ logBytes ≤ 2 ^ 33,
    (g.consumed64 start page logBytes).toNat = (page - start) * g.pageSize + logBytes

theorem logOffset64_eq (g : Geometry) (peb page : Nat) :
    g.logOffset64 peb page = (g.logOffset peb page).toUInt64 := by
  unfold logOffset64 logOffset
  simp only [Nat.toUInt64_eq, UInt64.ofNat_add, UInt64.ofNat_mul]

theorem headerOffset64_eq (g : Geometry) (peb page : Nat) :
    g.headerOffset64 peb page = (g.headerOffset peb page).toUInt64 := by
  unfold headerOffset64 headerOffset
  rw [logOffset64_eq]
  split
  · simp only [Nat.toUInt64_eq, UInt64.ofNat_add]
  · rfl

theorem consumed64_eq {start : Nat} (hstart : start ≤ page) (hpage : page < UInt32.size)
    (logBytes : Nat) :
    g.consumed64 start page logBytes = ((page - start) * g.pageSize + logBytes).toUInt64 := by
  unfold consumed64
  simp only [Nat.toUInt64_eq, Nat.toUInt32_eq, ← UInt32.ofNat_sub hstart, UInt64.ofNat_add,
    UInt64.ofNat_mul]
  rw [UInt32.toUInt64_ofNat' (by omega)]

/-- Bytes used of a full log are few, wherever in it they end. -/
theorem Bounded.consumed_le (hg : g.Bounded) (hpage : page ≤ g.pagesPerPeb) (start : Nat) {logBytes : Nat}
    (hbytes : logBytes ≤ 2 ^ 33) : (page - start) * g.pageSize + logBytes ≤ 2 ^ 34 := by
  have hmul : (page - start) * g.pageSize ≤ g.eraseSize := page_mul_le (by omega)
  have := hg.eraseSize_le
  omega

/-- Words are exact on every page of an erase block in reach. -/
theorem Bounded.exact (hg : g.Bounded) (hpeb : g.Reaches peb) (hpage : page < g.pagesPerPeb) :
    g.Exact peb page := by
  have hpages : g.pagesPerPeb ≤ 2 ^ 31 := Nat.le_trans g.pagesPerPeb_le hg.eraseSize_le
  have hposition {position : Nat} (h : position ≤ g.logSpan page) :=
    hg.position_le hpeb (Nat.le_of_lt hpage) h
  have hoffset := hposition (Nat.zero_le _)
  have hheader := g.headerOffset_le peb page
  unfold bootRecordSize at hheader
  have hpeb64 : peb ≤ peb * g.eraseSize := Nat.le_mul_of_pos_right _ hg.eraseSize_pos
  unfold Reaches at hpeb
  have hsize64 : UInt64.size = 2 ^ 64 := rfl
  have hsize32 : UInt32.size = 2 ^ 32 := rfl
  refine ⟨by omega, by omega, ?_, ?_, fun position hle => ?_, fun pages hle => ?_, fun pages hle => ?_,
    fun start hstart logBytes hbytes => ?_⟩
  · rw [logOffset64_eq]
    exact UInt64.toNat_ofNat_of_lt (by omega)
  · rw [headerOffset64_eq]
    exact UInt64.toNat_ofNat_of_lt (by omega)
  · have := hposition hle
    rw [logOffset64_eq]
    simp only [Nat.toUInt64_eq, ← UInt64.ofNat_add]
    exact UInt64.toNat_ofNat_of_lt (by omega)
  · simp only [Nat.toUInt32_eq, ← UInt32.ofNat_add]
    exact UInt32.toNat_ofNat_of_lt (by omega)
  · have hmul := page_mul_le hle
    have hle := hg.eraseSize_le
    simp only [Nat.toUInt64_eq, ← UInt64.ofNat_mul]
    exact UInt64.toNat_ofNat_of_lt (by omega)
  · have hused := hg.consumed_le (Nat.le_of_lt hpage) start hbytes
    rw [consumed64_eq hstart (by omega)]
    exact UInt64.toNat_ofNat_of_lt (by omega)

end FlashVolume.Geometry
