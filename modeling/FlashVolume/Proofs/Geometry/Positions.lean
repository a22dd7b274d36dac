/-
Positions of logs. Every log begins on a page of its own, and logs further on begin behind that page. The header
of the very first log is moved behind the boot record: where that leaves it on its page, no two logs have their
headers at the same position. But pages of half a kilobyte or of one are no larger than the boot record, and then
the first header lies where the header of another log does.
-/
import FlashVolume.Proofs.Arithmetic.Geometry

namespace FlashVolume.Geometry

variable {g : Geometry} {peb page peb' page' : Nat}

/-! ## Pages -/

/-- A page lies within its erase block. -/
theorem page_add_pageSize_le (hpage : page < g.pagesPerPeb) :
    page * g.pageSize + g.pageSize ≤ g.eraseSize := by
  rw [← Nat.succ_mul]
  exact page_mul_le hpage

/-- A page further on in the same erase block, or any page of an erase block further on, begins behind the page. -/
theorem logOffset_add_pageSize_le (peb' page' : Nat) (hpage : page < g.pagesPerPeb)
    (h : peb < peb' ∨ peb = peb' ∧ page < page') :
    g.logOffset peb page + g.pageSize ≤ g.logOffset peb' page' := by
  unfold logOffset
  rcases h with hlt | ⟨rfl, hlt⟩
  · have hblock : (peb + 1) * g.eraseSize ≤ peb' * g.eraseSize := Nat.mul_le_mul_right _ hlt
    have hwithin := page_add_pageSize_le hpage
    rw [Nat.succ_mul] at hblock
    omega
  · have hbehind : (page + 1) * g.pageSize ≤ page' * g.pageSize := Nat.mul_le_mul_right _ hlt
    rw [Nat.succ_mul] at hbehind
    omega

/-- Two logs begin at the same position only if they are the same. -/
theorem logOffset_inj (hg : g.WellFormed) (hpage : page < g.pagesPerPeb) (hpage' : page' < g.pagesPerPeb)
    (h : g.logOffset peb page = g.logOffset peb' page') : peb = peb' ∧ page = page' := by
  have hpos := hg.pageSize_pos
  -- Of two logs one behind the other, the second one begins a page further on at least.
  rcases Nat.lt_trichotomy peb peb' with hlt | rfl | hlt
  · have hup := logOffset_add_pageSize_le peb' page' hpage (.inl hlt)
    omega
  · rcases Nat.lt_trichotomy page page' with hlt | rfl | hlt
    · have hup := logOffset_add_pageSize_le peb page' hpage (.inr ⟨rfl, hlt⟩)
      omega
    · exact ⟨rfl, rfl⟩
    · have hdown := logOffset_add_pageSize_le peb page hpage' (.inr ⟨rfl, hlt⟩)
      omega
  · have hdown := logOffset_add_pageSize_le peb page hpage' (.inl hlt)
    omega

/-- A multiple of the page size is where a page of some erase block begins. -/
theorem logOffset_div_mod (hg : g.WellFormed) {offset : Nat} (h : g.pageSize ∣ offset) :
    offset % g.eraseSize / g.pageSize < g.pagesPerPeb ∧
      g.logOffset (offset / g.eraseSize) (offset % g.eraseSize / g.pageSize) = offset := by
  refine ⟨Nat.div_lt_div_of_lt_of_dvd hg.wholePages (Nat.mod_lt _ hg.eraseSize_pos), ?_⟩
  unfold logOffset
  rw [Nat.div_mul_cancel ((Nat.dvd_mod_iff hg.wholePages).2 h), Nat.div_add_mod']

/-! ## Headers -/

theorem headerOffset_of_ne (h : ¬ (peb = 0 ∧ page = 0)) : g.headerOffset peb page = g.logOffset peb page :=
  if_neg h

theorem headerOffset_zero (g : Geometry) : g.headerOffset 0 0 = bootRecordSize := by
  unfold headerOffset logOffset
  rw [if_pos ⟨rfl, rfl⟩]
  omega

theorem logOffset_le_headerOffset (g : Geometry) (peb page : Nat) :
    g.logOffset peb page ≤ g.headerOffset peb page := by
  unfold headerOffset
  split <;> omega

/-- The header lies on the page its log begins on. -/
def HeaderInPage (g : Geometry) (peb page : Nat) : Prop :=
  g.headerOffset peb page < g.logOffset peb page + g.pageSize

theorem headerInPage_iff (hg : g.WellFormed) :
    g.HeaderInPage peb page ↔ bootRecordSize < g.pageSize ∨ ¬ (peb = 0 ∧ page = 0) := by
  have hpos := hg.pageSize_pos
  unfold HeaderInPage headerOffset
  split <;> omega

/-- A header that lies on its page comes before those of the logs further on. -/
theorem HeaderInPage.lt (h : g.HeaderInPage peb page) (hpage : page < g.pagesPerPeb)
    (hbehind : peb < peb' ∨ peb = peb' ∧ page < page') : g.headerOffset peb page < g.headerOffset peb' page' :=
  Nat.lt_of_lt_of_le h
    (Nat.le_trans (logOffset_add_pageSize_le peb' page' hpage hbehind) (g.logOffset_le_headerOffset peb' page'))

/-- The first log of the volume has its header where another log begins. -/
def Shadows (g : Geometry) (peb page peb' page' : Nat) : Prop :=
  (peb = 0 ∧ page = 0) ∧ ¬ (peb' = 0 ∧ page' = 0) ∧ g.logOffset peb' page' = bootRecordSize

theorem Shadows.headerOffset_eq (h : g.Shadows peb page peb' page') :
    g.headerOffset peb page = g.headerOffset peb' page' := by
  obtain ⟨⟨rfl, rfl⟩, hne, hoffset⟩ := h
  rw [headerOffset_zero, headerOffset_of_ne hne, hoffset]

/-- Two logs have their headers at the same position only if they are the same, or if one of them is the first
log of the volume and the other one begins right behind the boot record. -/
theorem headerOffset_eq_iff (hg : g.WellFormed) (hpage : page < g.pagesPerPeb) (hpage' : page' < g.pagesPerPeb) :
    g.headerOffset peb page = g.headerOffset peb' page' ↔
      (peb = peb' ∧ page = page') ∨ g.Shadows peb page peb' page' ∨ g.Shadows peb' page' peb page := by
  constructor
  · intro h
    by_cases hfirst : peb = 0 ∧ page = 0 <;> by_cases hfirst' : peb' = 0 ∧ page' = 0
    · exact .inl ⟨hfirst.1.trans hfirst'.1.symm, hfirst.2.trans hfirst'.2.symm⟩
    · refine .inr (.inl ⟨hfirst, hfirst', ?_⟩)
      rw [hfirst.1, hfirst.2, headerOffset_zero, headerOffset_of_ne hfirst'] at h
      exact h.symm
    · refine .inr (.inr ⟨hfirst', hfirst, ?_⟩)
      rw [hfirst'.1, hfirst'.2, headerOffset_zero, headerOffset_of_ne hfirst] at h
      exact h
    · rw [headerOffset_of_ne hfirst, headerOffset_of_ne hfirst'] at h
      exact .inl (logOffset_inj hg hpage hpage' h)
  · rintro (⟨rfl, rfl⟩ | h | h)
    · rfl
    · exact h.headerOffset_eq
    · exact h.headerOffset_eq.symm

/-- A header lies in the erase block of its log, unless that is the first one and no larger than the boot
record. -/
theorem headerOffset_mem_block_iff (hg : g.WellFormed) (hpage : page < g.pagesPerPeb) :
    (peb * g.eraseSize ≤ g.headerOffset peb page ∧ g.headerOffset peb page < (peb + 1) * g.eraseSize) ↔
      ¬ ((peb = 0 ∧ page = 0) ∧ g.eraseSize ≤ bootRecordSize) := by
  have hpos := hg.pageSize_pos
  have hwithin := page_add_pageSize_le hpage
  rw [Nat.succ_mul]
  by_cases hfirst : peb = 0 ∧ page = 0
  · obtain ⟨rfl, rfl⟩ := hfirst
    rw [headerOffset_zero]
    omega
  · rw [headerOffset_of_ne hfirst]
    unfold logOffset
    omega

/-- Powers of two are multiples of the smaller ones. -/
theorem dvd_bootRecordSize {logPage logErase logSegment logPebs : Nat}
    (hg : ofLogs? logPage logErase logSegment logPebs = some g) (h : g.pageSize ≤ bootRecordSize) :
    g.pageSize ∣ bootRecordSize := by
  obtain ⟨-, rfl⟩ := ofLogs?_eq_some_iff.1 hg
  simp only [Nat.one_shiftLeft] at h ⊢
  exact Nat.pow_dvd_pow 2 ((Nat.pow_le_pow_iff_right Nat.one_lt_two).1 (Nat.le_trans h (show _ ≤ 2 ^ 10 from Nat.le_refl _)))

/-- Some log begins right behind the boot record exactly if pages are no larger than it. -/
theorem exists_shadows_iff {logPage logErase logSegment logPebs : Nat}
    (hg : ofLogs? logPage logErase logSegment logPebs = some g) :
    (∃ peb page, page < g.pagesPerPeb ∧ g.Shadows 0 0 peb page) ↔ g.pageSize ≤ bootRecordSize := by
  have hwell := wellFormed_of_ofLogs? hg
  constructor
  · rintro ⟨peb, page, hpage, -, hne, hoffset⟩
    have hle := logOffset_add_pageSize_le peb page hwell.pagesPerPeb_pos
      (show 0 < peb ∨ 0 = peb ∧ 0 < page by omega)
    omega
  · intro h
    obtain ⟨hpage, hoffset⟩ := logOffset_div_mod hwell (dvd_bootRecordSize hg h)
    refine ⟨_, _, hpage, ⟨rfl, rfl⟩, fun hfirst => ?_, hoffset⟩
    rw [hfirst.1, hfirst.2] at hoffset
    unfold logOffset at hoffset
    rw [Nat.zero_mul, Nat.zero_mul] at hoffset
    cases hoffset

end FlashVolume.Geometry
