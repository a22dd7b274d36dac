/-
Logs located by the mapping cache. A logical block leads to a log if it can be addressed, the cache knows its
physical block, and that one ends with a log of the kind and of the volume that are asked for. A pair of logical
blocks is looked up instance by instance, the copy only where there are copies, and a pair of logs holds exactly
what is located.
-/
import FlashVolume.Detection.Trail
import FlashVolume.Proofs.Log.Belongs

namespace FlashVolume

/-! ## Pairs -/

namespace Duplex

variable {α : Type} {pair : Duplex (Option α)}

theorem forall_mem_toList {P : α → Prop} (hmain : ∀ a, pair.main = some a → P a)
    (hcopy : ∀ a, pair.copy = some a → P a) : ∀ a ∈ pair.toList, P a := by
  intro a ha
  rcases List.mem_append.1 ha with ha | ha <;> rw [Option.mem_toList] at ha
  · exact hmain a ha
  · exact hcopy a ha

theorem toList_ne_nil_of_isPresent (h : pair.isPresent) : pair.toList ≠ [] := by
  intro hnil
  obtain ⟨hmain, hcopy⟩ := List.append_eq_nil_iff.1 hnil
  unfold isPresent at h
  rw [Option.toList_eq_nil_iff.1 hmain, Option.toList_eq_nil_iff.1 hcopy] at h
  cases h

theorem isPresent_of_mem_toList {a : α} (h : a ∈ pair.toList) : pair.isPresent := by
  rw [isPresent_eq_isSome]
  unfold preferred
  rcases List.mem_append.1 h with h | h <;> rw [Option.mem_toList.1 h]
  · rfl
  · rw [Option.isSome_or, Option.isSome_some, Bool.or_true]

theorem mem_toList_iff {a : α} : a ∈ pair.toList ↔ ∃ i, pair.get i = some a := by
  unfold toList
  rw [List.mem_append, Option.mem_toList, Option.mem_toList]
  constructor
  · rintro (h | h)
    · exact ⟨.main, h⟩
    · exact ⟨.copy, h⟩
  · rintro ⟨_ | _, h⟩
    · exact .inl h
    · exact .inr h

theorem isPresent_iff : pair.isPresent ↔ ∃ i a, pair.get i = some a := by
  constructor
  · intro h
    obtain ⟨a, ha⟩ := List.exists_mem_of_ne_nil _ (toList_ne_nil_of_isPresent h)
    obtain ⟨i, hi⟩ := mem_toList_iff.1 ha
    exact ⟨i, a, hi⟩
  · rintro ⟨i, a, hi⟩
    exact isPresent_of_mem_toList (mem_toList_iff.2 ⟨i, hi⟩)

theorem mem_toList_of_preferred {a : α} (h : pair.preferred = some a) : a ∈ pair.toList := by
  rcases Option.or_eq_some_iff.1 h with hmain | ⟨-, hcopy⟩
  · exact List.mem_append_left _ (Option.mem_toList.2 hmain)
  · exact List.mem_append_right _ (Option.mem_toList.2 hcopy)

/-- A pair is found if each of its instances is looked up without failure. -/
theorem bind_eq_ok {main copy : Outcome (Option α)} :
    (main >>= fun a => copy >>= fun b => pure (⟨a, b⟩ : Duplex (Option α))) = .ok pair ↔
      main = .ok pair.main ∧ copy = .ok pair.copy := by
  constructor
  · intro h
    obtain ⟨a, hmain, h⟩ := Outcome.bind_eq_ok.1 h
    obtain ⟨b, hcopy, h⟩ := Outcome.bind_eq_ok.1 h
    rw [← Outcome.pure_eq_ok.1 h]
    exact ⟨hmain, hcopy⟩
  · rintro ⟨rfl, rfl⟩
    rfl

end Duplex

namespace Trailhead

variable {t : Trailhead} {p : CreationPoint} {cache : MappingCache} {kind : SegmentKind} {hasCopy : Bool}

/-! ## What is located -/

/-- The log is located as one of the logical blocks: the block fits in 64 bits, the cache knows where it is, and the
log is the newest one of the kind in that erase block, of the volume of the point. -/
def Located (t : Trailhead) (p : CreationPoint) (cache : MappingCache) (kind : SegmentKind) (names : Nat → Prop)
    (log : FoundLog) : Prop :=
  ∃ leb peb, names leb ∧ leb < UInt64.size ∧ cache.peb? leb.toUInt64 = some peb ∧
    t.volume.findLast? peb kind = .ok (some log) ∧ log.createTime = p.createTime

/-- One of the logical blocks cannot be looked up: it fits in 64 bits, the cache knows where it is, and the newest
log in that erase block cannot be read. -/
def Unread (t : Trailhead) (cache : MappingCache) (kind : SegmentKind) (names : Nat → Prop) (stop : Stop) : Prop :=
  ∃ leb peb, names leb ∧ leb < UInt64.size ∧ cache.peb? leb.toUInt64 = some peb ∧
    t.volume.findLast? peb kind = .error stop

/-- The pair holds what is located of either instance. -/
def Records (t : Trailhead) (p : CreationPoint) (cache : MappingCache) (kind : SegmentKind)
    (names : Instance → Nat → Prop) (pair : LogPair) : Prop :=
  ∀ i log, pair.get i = some log ↔ t.Located p cache kind (names i) log

/-- One of the two instances is located. -/
def HasInstance (t : Trailhead) (p : CreationPoint) (cache : MappingCache) (kind : SegmentKind)
    (names : Instance → Nat → Prop) : Prop :=
  ∃ i log, t.Located p cache kind (names i) log

theorem sameVolume_eq_some {found : Option FoundLog} {log : FoundLog} :
    sameVolume found p = some log ↔ found = some log ∧ log.createTime = p.createTime := by
  unfold sameVolume
  rw [Option.filter_eq_some_iff, beq_iff_eq]

theorem Located.belongs {names : Nat → Prop} {log : FoundLog} (h : t.Located p cache kind names log) :
    log.Belongs p.createTime kind t.volume.geometry.pagesPerPeb := by
  obtain ⟨-, peb, -, -, -, hfound, htime⟩ := h
  rw [← htime]
  exact Volume.findLast?_spec hfound

theorem optionalLog?_eq_some {leb : Option Nat} {log : FoundLog} :
    t.optionalLog? p cache kind leb = .ok (some log) ↔ t.Located p cache kind (leb = some ·) log := by
  unfold optionalLog? Located lebLog?
  constructor
  · intro h
    rcases leb with _ | leb
    · cases h
    simp only at h
    split at h
    · rename_i hfits
      rcases hpeb : cache.peb? leb.toUInt64 with _ | peb <;> rw [hpeb] at h
      · cases h
      obtain ⟨found, hfound, hsame⟩ := Outcome.map_eq_ok.1 h
      obtain ⟨rfl, htime⟩ := sameVolume_eq_some.1 hsame
      exact ⟨leb, peb, rfl, hfits, hpeb, hfound, htime⟩
    · cases h
  · rintro ⟨leb, peb, rfl, hfits, hpeb, hfound, htime⟩
    simp only [if_pos hfits, hpeb]
    exact Outcome.map_eq_ok.2 ⟨_, hfound, sameVolume_eq_some.2 ⟨rfl, htime⟩⟩

theorem unread_of_optionalLog? {leb : Option Nat} {stop : Stop} (h : t.optionalLog? p cache kind leb = .error stop) :
    t.Unread cache kind (leb = some ·) stop := by
  unfold optionalLog? lebLog? at h
  rcases leb with _ | leb
  · cases h
  simp only at h
  split at h
  · rename_i hfits
    rcases hpeb : cache.peb? leb.toUInt64 with _ | peb <;> simp only [hpeb] at h
    · cases h
    rcases hfound : t.volume.findLast? peb kind with cause | found <;> rw [hfound] at h <;> cases h
    exact ⟨leb, peb, rfl, hfits, hpeb, hfound⟩
  · cases h

theorem lebPair_eq_ok {cache : MappingCache} {kind : SegmentKind} {hasCopy : Bool}
    {lebs : Duplex (Option Nat)} {pair : LogPair} :
    t.lebPair p cache kind hasCopy lebs = .ok pair ↔
      t.optionalLog? p cache kind lebs.main = .ok pair.main ∧
        (if hasCopy then t.optionalLog? p cache kind lebs.copy else .ok none) = .ok pair.copy := by
  rw [← Duplex.bind_eq_ok]
  cases hasCopy <;> exact Iff.rfl

/-- The logical blocks that are asked for: that of the copy only where there is one. -/
def asked (hasCopy : Bool) (lebs : Duplex (Option Nat)) : Duplex (Option Nat) :=
  ⟨lebs.main, if hasCopy then lebs.copy else none⟩

theorem lebPair_asked (t : Trailhead) (p : CreationPoint) (cache : MappingCache) (kind : SegmentKind)
    (hasCopy : Bool) (lebs : Duplex (Option Nat)) :
    t.lebPair p cache kind hasCopy lebs = t.lebPair p cache kind true (asked hasCopy lebs) := by
  cases hasCopy <;> rfl

/-- A pair is looked up instance by instance. -/
theorem lebPair_eq_ok_iff {lebs : Duplex (Option Nat)} {pair : LogPair} :
    t.lebPair p cache kind hasCopy lebs = .ok pair ↔
      ∀ i, t.optionalLog? p cache kind ((asked hasCopy lebs).get i) = .ok (pair.get i) := by
  rw [lebPair_asked, lebPair_eq_ok, if_pos rfl]
  constructor
  · rintro ⟨hmain, hcopy⟩ (_ | _)
    · exact hmain
    · exact hcopy
  · exact fun h => ⟨h .main, h .copy⟩

theorem records_of_lebPair {lebs : Duplex (Option Nat)} {pair : LogPair}
    (h : t.lebPair p cache kind hasCopy lebs = .ok pair) :
    t.Records p cache kind (fun i leb => (asked hasCopy lebs).get i = some leb) pair := by
  intro i log
  rw [← optionalLog?_eq_some, lebPair_eq_ok_iff.1 h i, Except.ok.injEq]

theorem unread_of_lebPair {lebs : Duplex (Option Nat)} {stop : Stop}
    (h : t.lebPair p cache kind hasCopy lebs = .error stop) :
    ∃ i, t.Unread cache kind (fun leb => (asked hasCopy lebs).get i = some leb) stop := by
  rw [lebPair_asked] at h
  rcases Outcome.bind_eq_error.1 h with hmain | ⟨main, -, h⟩
  · exact ⟨.main, unread_of_optionalLog? hmain⟩
  rcases Outcome.bind_eq_error.1 h with hcopy | ⟨copy, -, h⟩
  · exact ⟨.copy, unread_of_optionalLog? hcopy⟩
  · cases h

theorem Records.isPresent_iff {names : Instance → Nat → Prop} {pair : LogPair}
    (h : t.Records p cache kind names pair) : pair.isPresent ↔ t.HasInstance p cache kind names :=
  Duplex.isPresent_iff.trans (exists_congr fun i => exists_congr fun log => h i log)

/-! ## Groups of pairs -/

/-- There is a pair of logs for every pair of logical blocks. -/
def Paired (lebs : List (List (Duplex (Option Nat)))) (groups : List (List LogPair)) : Prop :=
  List.Forall₂ (fun group pairs => group.length = pairs.length) lebs groups

section Groups

variable {lebs : List (List (Duplex (Option Nat)))} {groups : List (List LogPair)}

/-- In a list related to another one an element is as wanted exactly if one there is. -/
theorem any_iff_of_forall₂ {α β : Type} {R : α → β → Prop} {P : α → Prop} {q : β → Bool}
    (hR : ∀ a b, R a b → (q b ↔ P a)) {as : List α} {bs : List β} (h : List.Forall₂ R as bs) :
    bs.any q ↔ ∃ a ∈ as, P a := by
  induction h with
  | nil => simp
  | cons hab _ ih => rw [List.any_cons, Bool.or_eq_true, List.exists_mem_cons_iff, ih, hR _ _ hab]

theorem all_iff_of_forall₂ {α β : Type} {R : α → β → Prop} {P : α → Prop} {q : β → Bool}
    (hR : ∀ a b, R a b → (q b ↔ P a)) {as : List α} {bs : List β} (h : List.Forall₂ R as bs) :
    bs.all q ↔ ∀ a ∈ as, P a := by
  induction h with
  | nil => simp
  | cons hab _ ih => rw [List.all_cons, Bool.and_eq_true, List.forall_mem_cons, ih, hR _ _ hab]

/-- There is a pair for every pair of logical blocks, which holds what is located of them. -/
theorem groupPairs_records (h : t.groupPairs p cache kind hasCopy lebs = .ok groups) :
    List.Forall₂ (List.Forall₂ fun lebs pair =>
      t.Records p cache kind (fun i leb => (asked hasCopy lebs).get i = some leb) pair) lebs groups := by
  refine (Outcome.forall₂_of_mapM h).imp fun group pairs hgroup => ?_
  exact (Outcome.forall₂_of_mapM hgroup).imp fun lebs pair hpair => records_of_lebPair hpair

/-- The logs in the pairs belong to the volume of the point. -/
theorem groupPairs_spec (h : t.groupPairs p cache kind hasCopy lebs = .ok groups) :
    Paired lebs groups ∧
      ∀ log ∈ groups.flatten.flatMap (·.toList),
        log.Belongs p.createTime kind t.volume.geometry.pagesPerPeb := by
  constructor
  · exact (groupPairs_records h).imp fun group pairs hgroup => hgroup.length_eq
  · intro log hlog
    obtain ⟨pair, hpair, hlog⟩ := List.mem_flatMap.1 hlog
    obtain ⟨pairs, hpairs, hpair⟩ := List.mem_flatten.1 hpair
    obtain ⟨group, -, hgroup⟩ := Outcome.mem_of_mapM h hpairs
    obtain ⟨leb, -, hleb⟩ := Outcome.mem_of_mapM hgroup hpair
    obtain ⟨i, hi⟩ := Duplex.mem_toList_iff.1 hlog
    exact ((records_of_lebPair hleb i log).1 hi).belongs

theorem allPresent_iff (h : t.groupPairs p cache kind hasCopy lebs = .ok groups) :
    allPresent groups ↔ ∀ group ∈ lebs, ∃ lebs ∈ group,
      t.HasInstance p cache kind fun i leb => (asked hasCopy lebs).get i = some leb := by
  refine all_iff_of_forall₂ (fun group pairs hgroup => ?_) (groupPairs_records h)
  exact any_iff_of_forall₂ (fun lebs pair hpair => hpair.isPresent_iff) hgroup

theorem isEmpty_allPresent_iff (h : t.groupPairs p cache kind hasCopy lebs = .ok groups) :
    (!groups.isEmpty && allPresent groups) = true ↔ lebs ≠ [] ∧ ∀ group ∈ lebs, ∃ lebs ∈ group,
      t.HasInstance p cache kind fun i leb => (asked hasCopy lebs).get i = some leb := by
  have hlength := (groupPairs_records h).length_eq
  rw [Bool.and_eq_true, Bool.not_eq_true', List.isEmpty_eq_false_iff, allPresent_iff h, ← List.length_pos_iff,
    ← hlength, List.length_pos_iff]

theorem unread_of_groupPairs {stop : Stop} (h : t.groupPairs p cache kind hasCopy lebs = .error stop) :
    ∃ pair ∈ lebs.flatten, ∃ i,
      t.Unread cache kind (fun leb => (asked hasCopy pair).get i = some leb) stop := by
  obtain ⟨group, hgroup, h⟩ := Outcome.exists_of_mapM_error h
  obtain ⟨pair, hpair, h⟩ := Outcome.exists_of_mapM_error h
  exact ⟨pair, List.mem_flatten_of_mem hgroup hpair, unread_of_lebPair h⟩

end Groups

end Trailhead

end FlashVolume
