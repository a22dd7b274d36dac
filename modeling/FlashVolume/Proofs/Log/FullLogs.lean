/-
The full logs of an erase block. Each is as long as its header says, and the next one begins right behind it.
The walk over them comes to the last one, after fewer probes than the erase block has pages; it ends with a
fault exactly if a log on the way cannot be as long as its header says, or if a probe fails.
-/
import FlashVolume.Proofs.Arithmetic.Volume
import FlashVolume.Proofs.Image.Stacked
import FlashVolume.Proofs.Log.Hops

namespace FlashVolume.Volume

variable {v w : Volume} {pagesPerPeb peb page : Nat} {first current : SegmentHeader}
  {log next : Nat × SegmentHeader} {stop : Stop}

/-! ## Probes -/

/-- The device failed to read from the erase block, or a position there does not fit the words. -/
def ReadStops (peb : Nat) (stop : Stop) : Prop :=
  (∃ offset cause, stop = .fault (.read peb offset cause)) ∨ stop = .crash .overflow

theorem ReadStops.not_logSize {size limit : Nat} : ¬ ReadStops peb (.fault (.logSize size limit)) := by
  rintro (⟨offset, cause, h⟩ | h) <;> cases h

theorem readStops_of_readBytes {offset length : Nat} (h : v.readBytes peb offset length = .error stop) :
    ReadStops peb stop := by
  unfold readBytes at h
  split at h <;> cases h
  exact .inl ⟨_, _, rfl⟩

theorem readStops_of_readHeaderBytes {length : Nat} (h : v.readHeaderBytes peb page length = .error stop) :
    ReadStops peb stop := by
  unfold readHeaderBytes at h
  rcases Outcome.bind_eq_error.1 h with h | ⟨offset, -, h⟩
  · exact .inr (word64_eq_error.1 h).2
  split at h
  · cases h
  rcases Outcome.bind_eq_error.1 h with h | ⟨bytes, -, h⟩
  · exact readStops_of_readBytes h
  · cases h

theorem readStops_of_segmentHeader? (h : v.segmentHeader? peb page = .error stop) : ReadStops peb stop := by
  rcases Outcome.bind_eq_error.1 h with h | ⟨bytes, -, h⟩
  · exact readStops_of_readHeaderBytes h
  · cases h

/-! ## Hops -/

/-- A full log can be as long as its header says: not zero pages, not all ones, and no longer than an erase
block. -/
def ValidSize (pagesPerPeb : Nat) (header : SegmentHeader) : Prop :=
  header.logPages ≠ 0 ∧ header.logPages ≠ 0xFFFF ∧ header.logPages.toNat ≤ pagesPerPeb

/-- One full log follows another: it begins right behind it, on a page of the erase block, with a header of
the same creation time and kind. Page numbers have 32 bits. -/
structure FullHop (v : Volume) (peb : Nat) (log next : Nat × SegmentHeader) : Prop where
  page : word32 (log.1 + log.2.logPages.toNat) = .ok next.1
  page_lt : next.1 < v.geometry.pagesPerPeb
  header : v.segmentHeader? peb next.1 = .ok (some next.2)
  createTime : next.2.createTime = log.2.createTime
  kindTag : next.2.kindTag = log.2.kindTag

/-- The probe for the next full log fails, or its page number does not fit. -/
def FullStops (v : Volume) (peb : Nat) (log : Nat × SegmentHeader) (stop : Stop) : Prop :=
  word32 (log.1 + log.2.logPages.toNat) = .error stop ∨
    ∃ next, word32 (log.1 + log.2.logPages.toNat) = .ok next ∧ next < v.geometry.pagesPerPeb ∧
      v.segmentHeader? peb next = .error stop

theorem FullHop.rightUnique (v : Volume) (peb : Nat) : Relator.RightUnique (v.FullHop peb) := by
  rintro log ⟨page, header⟩ ⟨page', header'⟩ h h'
  obtain rfl : page = page' := by cases h.page.symm.trans h'.page; rfl
  obtain rfl : header = header' := by cases h.header.symm.trans h'.header; rfl
  rfl

theorem FullStops.readStops (h : v.FullStops peb log stop) : ReadStops peb stop := by
  rcases h with h | ⟨next, -, -, h⟩
  · exact .inr (word32_eq_error.1 h).2
  · exact readStops_of_segmentHeader? h

/-- A walk only hops on from a log of valid size. -/
def FullStep (v : Volume) (peb : Nat) (log next : Nat × SegmentHeader) : Prop :=
  ValidSize v.geometry.pagesPerPeb log.2 ∧ v.FullHop peb log next

/-! ## One step of the walk -/

theorem validLogPages_of_validSize (h : ValidSize pagesPerPeb current) :
    validLogPages current.logPages pagesPerPeb = .ok current.logPages.toNat :=
  validLogPages_eq_ok.2 ⟨h, rfl⟩

theorem validLogPages_of_invalid (h : ¬ ValidSize pagesPerPeb current) :
    validLogPages current.logPages pagesPerPeb = .error (.logSize current.logPages.toNat pagesPerPeb) := by
  rcases hsize : validLogPages current.logPages pagesPerPeb with cause | pages
  · unfold validLogPages at hsize
    split at hsize <;> cases hsize
    rfl
  · exact absurd (validLogPages_eq_ok.1 hsize).1 h

/-- The next full log begins behind this one. -/
theorem lt_of_word32 {pages next : Nat} (hpages : validLogPages current.logPages pagesPerPeb = .ok pages)
    (hnext : word32 (page + pages) = .ok next) : page < next := by
  have := pos_of_validLogPages hpages
  have := (word32_eq_ok.1 hnext).2
  omega

theorem FullStep.climbs (v : Volume) (peb : Nat) :
    Climbs (v.FullStep peb) Prod.fst fun _ => v.geometry.pagesPerPeb where
  rank_lt_rank _ _ h := lt_of_word32 (validLogPages_of_validSize h.1) h.2.page
  rank_lt_bound _ _ h := h.2.page_lt
  bound_eq _ _ _ := rfl

/-- What the walk does with a log, whatever shows that it ends. -/
theorem walkFullFrom_eq (v : Volume) (pagesPerPeb peb page : Nat) (current : SegmentHeader) :
    v.walkFullFrom pagesPerPeb peb page current =
      match validLogPages current.logPages pagesPerPeb with
      | .error cause => .error (.fault cause)
      | .ok pages =>
        match word32 (page + pages) with
        | .error stop => .error stop
        | .ok next =>
          if next < pagesPerPeb then
            match v.segmentHeader? peb next with
            | .error stop => .error stop
            | .ok none => .ok (page, current)
            | .ok (some header) =>
              if continues header current then v.walkFullFrom pagesPerPeb peb next header
              else .ok (page, current)
          else
            .ok (page, current) := by
  rw [walkFullFrom]
  split <;> rename_i hpages <;> simp only [hpages]
  split <;> rename_i hnext <;> rewrite [hnext]
  · rfl
  · rfl

/-- The walk over the full logs of an erase block, from one of them on. -/
def walkFullAt (v : Volume) (peb : Nat) (log : Nat × SegmentHeader) : Outcome (Nat × SegmentHeader) :=
  v.walkFullFrom v.geometry.pagesPerPeb peb log.1 log.2

theorem walkFullAt_of_invalid (h : ¬ ValidSize v.geometry.pagesPerPeb log.2) :
    v.walkFullAt peb log = .error (.fault (.logSize log.2.logPages.toNat v.geometry.pagesPerPeb)) := by
  unfold walkFullAt
  rw [walkFullFrom_eq, validLogPages_of_invalid h]

theorem walkFullAt_of_hop (hvalid : ValidSize v.geometry.pagesPerPeb log.2) (h : v.FullHop peb log next) :
    v.walkFullAt peb log = v.walkFullAt peb next := by
  unfold walkFullAt
  rw [walkFullFrom_eq]
  have hcontinues := continues_iff.2 ⟨h.createTime, h.kindTag⟩
  simp only [validLogPages_of_validSize hvalid, h.page, if_pos h.page_lt, h.header, if_pos hcontinues]

theorem walkFullAt_of_stops (hvalid : ValidSize v.geometry.pagesPerPeb log.2)
    (h : v.FullStops peb log stop) : v.walkFullAt peb log = .error stop := by
  unfold walkFullAt
  rw [walkFullFrom_eq, validLogPages_of_validSize hvalid]
  rcases h with hpage | ⟨next, hpage, hlt, hprobe⟩
  · simp only [hpage]
  · simp only [hpage, if_pos hlt, hprobe]

/-- A log that no other one follows, as far as the probe tells, is the last. -/
theorem walkFullAt_of_last (hvalid : ValidSize v.geometry.pagesPerPeb log.2)
    (hlast : ∀ next, ¬ v.FullHop peb log next) (hprobed : ∀ stop, ¬ v.FullStops peb log stop) :
    v.walkFullAt peb log = .ok log := by
  unfold walkFullAt
  rw [walkFullFrom_eq, validLogPages_of_validSize hvalid]
  simp only
  rcases hpage : word32 (log.1 + log.2.logPages.toNat) with stop | next <;> simp only
  · exact absurd (.inl hpage) (hprobed stop)
  split
  · rename_i hlt
    rcases hprobe : v.segmentHeader? peb next with stop | _ | header <;> simp only
    · exact absurd (.inr ⟨next, hpage, hlt, hprobe⟩) (hprobed stop)
    split
    · rename_i hcontinues
      obtain ⟨htime, htag⟩ := continues_iff.1 hcontinues
      exact absurd ⟨hpage, hlt, hprobe, htime, htag⟩ (hlast (next, header))
    · rfl
  · rfl

/-! ## The whole walk -/

theorem pagesPerPeb_of_lt (hpage : page < v.geometry.pagesPerPeb) :
    v.pagesPerPeb = .ok v.geometry.pagesPerPeb := by
  refine pagesPerPeb_eq_ok.2 ⟨fun hzero => ?_, rfl⟩
  unfold Geometry.pagesPerPeb at hpage
  rw [hzero, Nat.div_zero] at hpage
  exact Nat.not_lt_zero _ hpage

theorem walkFull_eq (hpage : page < v.geometry.pagesPerPeb) :
    v.walkFull peb page first = v.walkFullAt peb (page, first) := by
  unfold walkFull
  simp only [pagesPerPeb_of_lt hpage]
  rfl

/-- The walk hops on from log to log until it stands on one of invalid size, until the probe that is due stops
it, or until no log follows. -/
theorem walkFullAt_cases (v : Volume) (peb : Nat) (log : Nat × SegmentHeader) :
    ∃ hops, Exhausts (v.FullStep peb) log hops ∧
      (¬ ValidSize v.geometry.pagesPerPeb (hops.getLastD log).2 ∧
          (∃ size, v.walkFullAt peb log = .error (.fault (.logSize size v.geometry.pagesPerPeb))) ∨
        ValidSize v.geometry.pagesPerPeb (hops.getLastD log).2 ∧
          ((∃ stop, v.FullStops peb (hops.getLastD log) stop ∧ v.walkFullAt peb log = .error stop) ∨
            (∀ next, ¬ v.FullHop peb (hops.getLastD log) next) ∧
              (∀ stop, ¬ v.FullStops peb (hops.getLastD log) stop) ∧
              v.walkFullAt peb log = .ok (hops.getLastD log))) := by
  obtain ⟨hops, hexhausts⟩ := (FullStep.climbs v peb).exists_exhausts log
  refine ⟨hops, hexhausts, ?_⟩
  rw [run_of_chain (fun _ _ hstep => walkFullAt_of_hop hstep.1 hstep.2) hexhausts.chain]
  by_cases hvalid : ValidSize v.geometry.pagesPerPeb (hops.getLastD log).2
  · refine .inr ⟨hvalid, ?_⟩
    by_cases hstops : ∃ stop, v.FullStops peb (hops.getLastD log) stop
    · obtain ⟨stop, hstop⟩ := hstops
      exact .inl ⟨stop, hstop, walkFullAt_of_stops hvalid hstop⟩
    · have hlast : ∀ next, ¬ v.FullHop peb (hops.getLastD log) next := fun next hhop =>
        hexhausts.last next ⟨hvalid, hhop⟩
      have hprobed := not_exists.1 hstops
      exact .inr ⟨hlast, hprobed, walkFullAt_of_last hvalid hlast hprobed⟩
  · exact .inl ⟨hvalid, _, walkFullAt_of_invalid hvalid⟩

theorem isChain_fullStep {hops : List (Nat × SegmentHeader)}
    (hchain : (log :: hops).IsChain (v.FullHop peb))
    (hvalid : ∀ other ∈ log :: hops, ValidSize v.geometry.pagesPerPeb other.2) :
    (log :: hops).IsChain (v.FullStep peb) :=
  hchain.imp_of_mem_imp fun _ _ hmem _ hhop => ⟨hvalid _ hmem, hhop⟩

/-- The walk gets as far as any run of hops over logs of valid sizes. -/
theorem walkFullAt_of_chain {hops : List (Nat × SegmentHeader)}
    (hchain : (log :: hops).IsChain (v.FullHop peb))
    (hvalid : ∀ other ∈ log :: hops, ValidSize v.geometry.pagesPerPeb other.2) :
    v.walkFullAt peb log = v.walkFullAt peb (hops.getLastD log) :=
  run_of_chain (fun _ _ hstep => walkFullAt_of_hop hstep.1 hstep.2) (isChain_fullStep hchain hvalid)

/-- All logs on the way have valid sizes if the last one has. -/
theorem validSize_of_chain {hops : List (Nat × SegmentHeader)}
    (hchain : (log :: hops).IsChain (v.FullStep peb))
    (hlast : ValidSize v.geometry.pagesPerPeb (hops.getLastD log).2) :
    ∀ other ∈ log :: hops, ValidSize v.geometry.pagesPerPeb other.2 :=
  hchain.backwards_cons_induction (fun other => ValidSize v.geometry.pagesPerPeb other.2) _
    (List.getLast_eq_getLastD _) (fun _ _ hstep _ => hstep.1) hlast

/-- The walk fails at the first log of invalid size it gets to. -/
theorem walkFullAt_of_invalid_mem :
    ∀ {log : Nat × SegmentHeader} {hops : List (Nat × SegmentHeader)},
      (log :: hops).IsChain (v.FullHop peb) →
      (∃ other ∈ log :: hops, ¬ ValidSize v.geometry.pagesPerPeb other.2) →
      ∃ size, v.walkFullAt peb log = .error (.fault (.logSize size v.geometry.pagesPerPeb))
  | log, hops, hchain, ⟨other, hmem, hinvalid⟩ => by
    by_cases hvalid : ValidSize v.geometry.pagesPerPeb log.2
    · rcases hops with _ | ⟨next, hops⟩
      · rw [List.mem_singleton.1 hmem] at hinvalid
        exact absurd hvalid hinvalid
      obtain ⟨hhop, hrest⟩ := List.isChain_cons_cons.1 hchain
      rcases List.mem_cons.1 hmem with rfl | hmem
      · exact absurd hvalid hinvalid
      · rw [walkFullAt_of_hop hvalid hhop]
        exact walkFullAt_of_invalid_mem hrest ⟨other, hmem, hinvalid⟩
    · exact ⟨_, walkFullAt_of_invalid hvalid⟩

/-- What the walk comes to depends on fewer probes than the erase block has pages. -/
theorem walkFullFrom_probed (v : Volume) (pagesPerPeb peb page : Nat) (current : SegmentHeader)
    (hpage : page < pagesPerPeb) :
    ∃ probed : List Nat, page + probed.length < pagesPerPeb ∧
      ∀ w : Volume, (∀ next ∈ probed, w.segmentHeader? peb next = v.segmentHeader? peb next) →
        w.walkFullFrom pagesPerPeb peb page current = v.walkFullFrom pagesPerPeb peb page current := by
  fun_induction walkFullFrom v pagesPerPeb peb page current with
  | case1 page current cause hcause =>
    refine ⟨[], hpage, fun w _ => ?_⟩
    rw [walkFullFrom_eq, hcause]
  | case2 page current pages hpages stop hstop =>
    refine ⟨[], hpage, fun w _ => ?_⟩
    rw [walkFullFrom_eq]
    simp only [hpages, hstop]
  | case3 page current pages hpages next hnext hlt stop hprobe =>
    refine ⟨[next], Nat.lt_of_le_of_lt (lt_of_word32 hpages hnext) hlt, fun w hw => ?_⟩
    rw [walkFullFrom_eq]
    simp only [hpages, hnext, if_pos hlt, hw next (List.mem_singleton_self _), hprobe]
  | case4 page current pages hpages next hnext hlt hprobe =>
    refine ⟨[next], Nat.lt_of_le_of_lt (lt_of_word32 hpages hnext) hlt, fun w hw => ?_⟩
    rw [walkFullFrom_eq]
    simp only [hpages, hnext, if_pos hlt, hw next (List.mem_singleton_self _), hprobe]
  | case6 page current pages hpages next hnext hlt header hprobe hcont =>
    refine ⟨[next], Nat.lt_of_le_of_lt (lt_of_word32 hpages hnext) hlt, fun w hw => ?_⟩
    rw [walkFullFrom_eq]
    simp only [hpages, hnext, if_pos hlt, hw next (List.mem_singleton_self _), hprobe, if_neg hcont]
  | case7 page current pages hpages next hnext hge =>
    refine ⟨[], hpage, fun w _ => ?_⟩
    rw [walkFullFrom_eq]
    simp only [hpages, hnext, if_neg hge]
  | case5 page current pages hpages next hnext hlt header hheader hcont ih =>
    obtain ⟨probed, hlength, hprobed⟩ := ih hlt
    refine ⟨next :: probed, ?_, fun w hw => ?_⟩
    · have := lt_of_word32 hpages hnext
      rw [List.length_cons]
      omega
    · obtain ⟨hprobe, hrest⟩ := List.forall_mem_cons.1 hw
      rw [walkFullFrom_eq]
      simp only [hpages, hnext, if_pos hlt, hprobe, hheader, if_pos hcont, hprobed w hrest]

/-! ## What the walk comes to -/

/-- A log is returned if hops over logs of valid sizes lead to it, and the probe there tells that none
follows. -/
theorem walkFullAt_eq_ok {last : Nat × SegmentHeader} : v.walkFullAt peb log = .ok last ↔
    ∃ hops, Exhausts (v.FullHop peb) log hops ∧
      (∀ other ∈ log :: hops, ValidSize v.geometry.pagesPerPeb other.2) ∧
      (∀ stop, ¬ v.FullStops peb last stop) ∧ hops.getLastD log = last := by
  constructor
  · intro h
    obtain ⟨hops, hexhausts, ⟨-, size, herror⟩ | ⟨hvalid, ⟨stop, -, herror⟩ | ⟨hlast, hprobed, hok⟩⟩⟩ :=
      v.walkFullAt_cases peb log
    · cases h.symm.trans herror
    · cases h.symm.trans herror
    · cases h.symm.trans hok
      exact ⟨hops, ⟨hexhausts.chain.imp fun _ _ hstep => hstep.2, hlast⟩,
        validSize_of_chain hexhausts.chain hvalid, hprobed, rfl⟩
  · rintro ⟨hops, hexhausts, hvalid, hprobed, rfl⟩
    rw [walkFullAt_of_chain hexhausts.chain hvalid]
    exact walkFullAt_of_last (hvalid _ List.getLastD_mem_cons) hexhausts.last hprobed

/-- The walk fails for a size if a log of invalid size is among those that follow one another. -/
theorem walkFullAt_eq_logSize :
    (∃ size, v.walkFullAt peb log = .error (.fault (.logSize size v.geometry.pagesPerPeb))) ↔
      ∃ hops, (log :: hops).IsChain (v.FullHop peb) ∧
        ∃ other ∈ log :: hops, ¬ ValidSize v.geometry.pagesPerPeb other.2 := by
  constructor
  · rintro ⟨size, h⟩
    obtain ⟨hops, hexhausts, ⟨hinvalid, -⟩ | ⟨-, ⟨stop, hstops, herror⟩ | ⟨-, -, hok⟩⟩⟩ :=
      v.walkFullAt_cases peb log
    · exact ⟨hops, hexhausts.chain.imp fun _ _ hstep => hstep.2, _, List.getLastD_mem_cons, hinvalid⟩
    · cases h.symm.trans herror
      exact absurd hstops.readStops ReadStops.not_logSize
    · cases h.symm.trans hok
  · rintro ⟨hops, hchain, hinvalid⟩
    exact walkFullAt_of_invalid_mem hchain hinvalid

/-- The walk fails at a read if hops over logs of valid sizes lead to a log where the probe fails so. -/
theorem walkFullAt_eq_readStops : v.walkFullAt peb log = .error stop ∧ ReadStops peb stop ↔
    ∃ hops, (log :: hops).IsChain (v.FullHop peb) ∧
      (∀ other ∈ log :: hops, ValidSize v.geometry.pagesPerPeb other.2) ∧
      v.FullStops peb (hops.getLastD log) stop := by
  constructor
  · rintro ⟨h, hread⟩
    obtain ⟨hops, hexhausts, ⟨-, size, herror⟩ | ⟨hvalid, ⟨stop', hstops, herror⟩ | ⟨-, -, hok⟩⟩⟩ :=
      v.walkFullAt_cases peb log
    · cases h.symm.trans herror
      exact absurd hread ReadStops.not_logSize
    · cases h.symm.trans herror
      exact ⟨hops, hexhausts.chain.imp fun _ _ hstep => hstep.2,
        validSize_of_chain hexhausts.chain hvalid, hstops⟩
    · cases h.symm.trans hok
  · rintro ⟨hops, hchain, hvalid, hstops⟩
    rw [walkFullAt_of_chain hchain hvalid]
    exact ⟨walkFullAt_of_stops (hvalid _ List.getLastD_mem_cons) hstops, hstops.readStops⟩

/-- The one run of hops that comes to an end is shorter than the erase block has pages, and leads to the log
that is returned. -/
theorem exhausts_of_walkFullAt {last : Nat × SegmentHeader} {hops : List (Nat × SegmentHeader)}
    (h : v.walkFullAt peb log = .ok last) (hpage : log.1 < v.geometry.pagesPerPeb)
    (hexhausts : Exhausts (v.FullHop peb) log hops) :
    hops.length < v.geometry.pagesPerPeb ∧ hops.getLastD log = last := by
  obtain ⟨made, hmade, hvalid, -, rfl⟩ := walkFullAt_eq_ok.1 h
  obtain rfl := hmade.unique (FullHop.rightUnique v peb) hexhausts
  have hchain := isChain_fullStep hmade.chain hvalid
  have hclimbs := FullStep.climbs v peb
  have hle := hclimbs.rank_add_length_le hchain
  have hlt := hclimbs.rank_lt hpage hchain
  exact ⟨by omega, rfl⟩

/-- The walk over the full logs of an erase block comes to the last of them. Fewer probes than the erase block
has pages settle what it comes to. It returns a log exactly if hops over logs of valid sizes lead to that one,
and the probe there tells that no log follows; and only one run of hops comes to an end, which is shorter than
the erase block has pages. A log of invalid size among those that follow one another makes the walk fail, and
otherwise it is a failed probe that does; words that hold the positions of the erase block leave nothing else
to go wrong. -/
theorem walkFull_reaches_end (v : Volume) (peb : Nat) {page : Nat} (hpage : page < v.geometry.pagesPerPeb)
    (first : SegmentHeader) :
    (∃ probed : List Nat, probed.length < v.geometry.pagesPerPeb ∧
        ∀ w : Volume, w.geometry = v.geometry →
          (∀ next ∈ probed, w.segmentHeader? peb next = v.segmentHeader? peb next) →
          w.walkFull peb page first = v.walkFull peb page first) ∧
      (∀ last, v.walkFull peb page first = .ok last ↔
        ∃ hops, Exhausts (v.FullHop peb) (page, first) hops ∧
          (∀ log ∈ (page, first) :: hops, ValidSize v.geometry.pagesPerPeb log.2) ∧
          (∀ stop, ¬ v.FullStops peb last stop) ∧ hops.getLastD (page, first) = last) ∧
      (∀ last, v.walkFull peb page first = .ok last →
        ∀ hops, Exhausts (v.FullHop peb) (page, first) hops →
          hops.length < v.geometry.pagesPerPeb ∧ hops.getLastD (page, first) = last) ∧
      ((∃ size, v.walkFull peb page first = .error (.fault (.logSize size v.geometry.pagesPerPeb))) ↔
        ∃ hops, ((page, first) :: hops).IsChain (v.FullHop peb) ∧
          ∃ log ∈ (page, first) :: hops, ¬ ValidSize v.geometry.pagesPerPeb log.2) ∧
      (∀ stop, v.walkFull peb page first = .error stop ∧ ReadStops peb stop ↔
        ∃ hops, ((page, first) :: hops).IsChain (v.FullHop peb) ∧
          (∀ log ∈ (page, first) :: hops, ValidSize v.geometry.pagesPerPeb log.2) ∧
          v.FullStops peb (hops.getLastD (page, first)) stop) ∧
      (v.Fits peb → NoCrash (v.walkFull peb page first)) := by
  obtain ⟨probed, hlength, hprobed⟩ := v.walkFullFrom_probed v.geometry.pagesPerPeb peb page first hpage
  refine ⟨⟨probed, by omega, fun w hw hagree => ?_⟩, ?_⟩
  · rw [walkFull_eq hpage, walkFull_eq (hw ▸ hpage)]
    unfold walkFullAt
    rw [hw]
    exact hprobed w hagree
  · rw [walkFull_eq hpage]
    refine ⟨fun last => walkFullAt_eq_ok, fun last h hops => exhausts_of_walkFullAt h hpage,
      walkFullAt_eq_logSize, fun stop => walkFullAt_eq_readStops, fun hfits => hfits.walkFullFrom hpage⟩

/-- Of two full logs that follow each other the second one is returned, and there is no other run of hops. -/
theorem stacked_reaches_second : 0 < StackedVolume.stacked.geometry.pagesPerPeb ∧
    ∃ last, StackedVolume.stacked.walkFull 1 0 StackedVolume.opening = .ok last ∧ last.1 = 2 ∧
      ∃ hops, Exhausts (StackedVolume.stacked.FullHop 1) (0, StackedVolume.opening) hops ∧
        hops.length < 8 ∧ hops.getLastD (0, StackedVolume.opening) = last := by
  have hpages : 0 < StackedVolume.stacked.geometry.pagesPerPeb := by decide
  obtain ⟨last, hlast, hpage⟩ := Option.map_eq_some_iff.1 StackedVolume.last_eq.1
  rcases hwalk : StackedVolume.stacked.walkFull 1 0 StackedVolume.opening with stop | found <;>
    rw [hwalk] at hlast <;> cases hlast
  obtain ⟨-, hok, hunique, -⟩ :=
    walkFull_reaches_end StackedVolume.stacked 1 hpages StackedVolume.opening
  obtain ⟨hops, hexhausts, -⟩ := (hok last).1 hwalk
  exact ⟨hpages, last, rfl, hpage, hops, hexhausts, hunique last hwalk hops hexhausts⟩

end FlashVolume.Volume
