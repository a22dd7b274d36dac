/-
Lookups where fragments overlap. A fragment answers by the first of its pairs for a logical block. Of several
fragments that cover the block the first one answers that knows it; so it is the first that covers it, unless
this one has no used pair for the block while a later fragment has one.
-/
import FlashVolume.Proofs.MappingCache.Layout

namespace FlashVolume

variable {leb : UInt64} {peb : Nat}

/-! ## In a fragment -/

namespace CacheFragment

/-- The fragment covers the logical block, and the first of its pairs for it is used and gives this physical
one. -/
def Holds (f : CacheFragment) (leb : UInt64) (peb : Nat) : Prop :=
  f.covers leb = true ∧ ∃ before pair after, f.pairs = before ++ pair :: after ∧ (∀ p ∈ before, p.leb ≠ leb) ∧
    pair.leb = leb ∧ pair.peb ≠ unusedId ∧ pair.peb.toNat = peb

variable {f : CacheFragment}

theorem peb?_of_not_covers (h : f.covers leb = false) : f.peb? leb = none := by
  unfold peb?
  rw [h, if_neg Bool.false_ne_true]

theorem peb?_eq_some_iff : f.peb? leb = some peb ↔ f.Holds leb peb := by
  by_cases hcovers : f.covers leb = true
  case neg =>
    rw [peb?_of_not_covers (Bool.not_eq_true _ ▸ hcovers)]
    exact iff_of_false nofun fun h => hcovers h.1
  have hused (pair : LebPeb) : pair.peb? = some peb ↔ pair.peb ≠ unusedId ∧ pair.peb.toNat = peb := by
    rw [LebPeb.peb?, LebPeb.isSet, Option.ite_none_right_eq_some, bne_iff_ne, Option.some_inj]
  unfold peb? Holds
  rw [if_pos hcovers, Option.bind_eq_some_iff]
  constructor
  · rintro ⟨pair, hfind, hpair⟩
    obtain ⟨hleb, before, after, hsplit, hbefore⟩ := List.find?_eq_some_iff_append.1 hfind
    exact ⟨hcovers, before, pair, after, hsplit, by simpa using hbefore, beq_iff_eq.1 hleb, (hused pair).1 hpair⟩
  · rintro ⟨-, before, pair, after, hsplit, hbefore, hleb, hpair⟩
    refine ⟨pair, List.find?_eq_some_iff_append.2 ⟨beq_iff_eq.2 hleb, before, after, hsplit, ?_⟩, (hused pair).2 hpair⟩
    simpa using hbefore

theorem peb?_eq_none_iff : f.peb? leb = none ↔ ∀ peb, ¬ f.Holds leb peb := by
  simp only [Option.eq_none_iff_forall_ne_some, ne_eq, peb?_eq_some_iff]

end CacheFragment

/-! ## In a cache -/

namespace MappingCache

variable {c : MappingCache}

/-- The first fragment that covers a logical block. -/
def firstCovering? (c : MappingCache) (leb : UInt64) : Option CacheFragment := c.fragments.find? (·.covers leb)

/-- A fragment holds the logical block in this physical one, and none before it holds it at all. -/
def FirstHolds (c : MappingCache) (leb : UInt64) (peb : Nat) : Prop :=
  ∃ before f after, c.fragments = before ++ f :: after ∧ f.Holds leb peb ∧ ∀ g ∈ before, ∀ other, ¬ g.Holds leb other

/-- The first fragment that covers the logical block does not hold it, but another one does, which is a later one
then. -/
def Overtaken (c : MappingCache) (leb : UInt64) : Prop :=
  ∃ f, c.firstCovering? leb = some f ∧ (∀ peb, ¬ f.Holds leb peb) ∧ ∃ g ∈ c.fragments, ∃ peb, g.Holds leb peb

/-- Whether a fragment covers the block does not have to be asked twice. -/
theorem peb?_eq_findSome? (c : MappingCache) (leb : UInt64) : c.peb? leb = c.fragments.findSome? (·.peb? leb) := by
  unfold peb?
  induction c.fragments with
  | nil => rfl
  | cons f rest ih =>
    by_cases hcovers : f.covers leb = true
    · rw [List.filter_cons, if_pos hcovers, List.findSome?_cons, List.findSome?_cons, ih]
    · rw [List.filter_cons, if_neg hcovers, List.findSome?_cons,
        CacheFragment.peb?_of_not_covers (Bool.not_eq_true _ ▸ hcovers), ih]

theorem peb?_eq_some_iff : c.peb? leb = some peb ↔ c.FirstHolds leb peb := by
  rw [peb?_eq_findSome?, List.findSome?_eq_some_iff]
  simp only [CacheFragment.peb?_eq_some_iff, CacheFragment.peb?_eq_none_iff]
  constructor
  · rintro ⟨before, f, after, hsplit, hholds, hbefore⟩
    exact ⟨before, f, after, hsplit, hholds, hbefore⟩
  · rintro ⟨before, f, after, hsplit, hholds, hbefore⟩
    exact ⟨before, f, after, hsplit, hholds, hbefore⟩

theorem peb?_eq_none_iff : c.peb? leb = none ↔ ∀ f ∈ c.fragments, ∀ peb, ¬ f.Holds leb peb := by
  simp only [peb?_eq_findSome?, List.findSome?_eq_none_iff, CacheFragment.peb?_eq_none_iff]

/-- Behind fragments that do not cover the block, one that does answers, or those behind it. -/
theorem peb?_of_first {before after : List CacheFragment} {f : CacheFragment}
    (hsplit : c.fragments = before ++ f :: after) (hbefore : ∀ g ∈ before, g.covers leb = false) :
    c.peb? leb = (f.peb? leb).or (peb? ⟨after⟩ leb) := by
  have hnone : before.findSome? (·.peb? leb) = none :=
    List.findSome?_eq_none_iff.2 fun g hg => CacheFragment.peb?_of_not_covers (hbefore g hg)
  rw [peb?_eq_findSome?, hsplit, List.findSome?_append, hnone, Option.none_or, List.findSome?_cons,
    peb?_eq_findSome?]
  cases f.peb? leb <;> rfl

/-- A lookup is answered by the first fragment that holds the logical block, and by no other. That is the answer
of the first fragment that covers the block, exactly unless that one does not hold it and a later one does. -/
theorem peb?_eq_first_iff (c : MappingCache) (leb : UInt64) :
    (∀ peb, c.peb? leb = some peb ↔ c.FirstHolds leb peb) ∧
      (c.peb? leb = none ↔ ∀ f ∈ c.fragments, ∀ peb, ¬ f.Holds leb peb) ∧
      (c.peb? leb = (c.firstCovering? leb).bind (·.peb? leb) ↔ ¬ c.Overtaken leb) := by
  refine ⟨fun peb => peb?_eq_some_iff, peb?_eq_none_iff, ?_⟩
  rcases hfirst : c.firstCovering? leb with _ | f
  · -- No fragment covers the block.
    refine iff_of_true (peb?_of_not_covers (by simpa [firstCovering?] using hfirst)) ?_
    rintro ⟨f, hf, -⟩
    rw [hfirst] at hf
    cases hf
  obtain ⟨-, before, after, hsplit, hbefore⟩ := List.find?_eq_some_iff_append.1 hfirst
  have hanswer := peb?_of_first hsplit (by simpa using hbefore)
  rw [Option.bind_some]
  rcases hf : f.peb? leb with _ | peb
  · -- The first one does not hold it: neither may any other.
    have hnone := CacheFragment.peb?_eq_none_iff.1 hf
    rw [peb?_eq_none_iff]
    constructor
    · rintro hall ⟨-, -, -, g, hg, peb, hholds⟩
      exact hall g hg peb hholds
    · intro hkept g hg peb hholds
      exact hkept ⟨f, hfirst, hnone, g, hg, peb, hholds⟩
  · rw [hf, Option.some_or] at hanswer
    refine iff_of_true hanswer ?_
    rintro ⟨other, hother, hnone, -⟩
    rw [hfirst] at hother
    cases hother
    exact hnone peb (CacheFragment.peb?_eq_some_iff.1 hf)

/-! ## Overlapping fragments -/

/-- Two fragments for the same logical blocks: in the first one the slot of block 5 is unused and block 6 is not
listed. -/
def overlapping : List StoredFragment :=
  let stored (pairs : List LebPeb) : StoredFragment :=
    { signature := .ofKey Key.mappingCache
      flags := 0
      start := 5
      stop := 6
      pairs
      payload := pairs.flatMap LebPeb.format.encode }
  [stored [⟨5, unusedId⟩], stored [⟨5, 9⟩, ⟨6, 8⟩]]

theorem wellFormed_overlapping : ∀ f ∈ overlapping, f.WellFormed := by
  have hplain (pairs : List LebPeb) (hcount : pairs.length ≤ 4095) : StoredFragment.WellFormed
      ⟨.ofKey Key.mappingCache, 0, 5, 6, pairs, pairs.flatMap LebPeb.format.encode⟩ :=
    ⟨Signature.isValid_ofKey _, (by decide : (5 : UInt64) ≤ 6), .inl ⟨rfl, hcount, rfl⟩⟩
  simp only [overlapping, List.forall_mem_cons]
  exact ⟨hplain _ (by decide), hplain _ (by decide), nofun⟩

/-- Both blocks are resolved from the second fragment, though the first one covers them. -/
theorem overlapping_overtaken : ∃ c, parse (StoredFragment.layout overlapping 0) = .ok c ∧
    (c.firstCovering? 5).bind (·.peb? 5) = none ∧ c.peb? 5 = some 9 ∧
    (c.firstCovering? 6).bind (·.peb? 6) = none ∧ c.peb? 6 = some 8 := by
  have hparse : parseFrom (StoredFragment.layout overlapping 0 ++ []) 0 0 =
      .ok (StoredFragment.fragments overlapping 0) :=
    StoredFragment.parseFrom_layout wellFormed_overlapping (.inl (by decide)) (by decide) []
  rw [List.append_nil] at hparse
  refine ⟨⟨StoredFragment.fragments overlapping 0⟩, ?_, by decide, by decide, by decide, by decide⟩
  unfold parse
  rw [hparse]

end MappingCache

end FlashVolume
