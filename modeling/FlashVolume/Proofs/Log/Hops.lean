/-
Walks as runs of hops. Where every hop climbs and stays below a bound, hopping comes to an end, and a run has
no more hops than it climbs; and where a hop leads to one place only, any run is the beginning of the one that
came to its end.
-/
import Mathlib.Data.List.Chain
import Mathlib.Logic.Relator

namespace FlashVolume

variable {α β : Type} {hop : α → α → Prop} {rank bound : α → Nat} {first : α} {hops : List α}

/-- The hops lead from `first` to where no hop is left. -/
structure Exhausts (hop : α → α → Prop) (first : α) (hops : List α) : Prop where
  chain : (first :: hops).IsChain hop
  last : ∀ next, ¬ hop (hops.getLastD first) next

/-- Every hop leads further up, and stays below a bound that no hop moves. -/
structure Climbs (hop : α → α → Prop) (rank bound : α → Nat) : Prop where
  rank_lt_rank : ∀ a b, hop a b → rank a < rank b
  rank_lt_bound : ∀ a b, hop a b → rank b < bound b
  bound_eq : ∀ a b, hop a b → bound a = bound b

/-- What a hop does not change is at the end of a run what it was at its start. -/
theorem run_of_chain {run : α → β} (hrun : ∀ a b, hop a b → run a = run b) (h : (first :: hops).IsChain hop) :
    run first = run (hops.getLastD first) :=
  h.induction (run first = run ·) _ (fun _ _ hhop hsame => hsame.trans (hrun _ _ hhop)) (fun _ => rfl) _
    List.getLastD_mem_cons

namespace Climbs

/-- Every hop of a run gains at least one step. -/
theorem rank_add_length_le (h : Climbs hop rank bound) :
    ∀ {first : α} {hops : List α}, (first :: hops).IsChain hop →
      rank first + hops.length ≤ rank (hops.getLastD first)
  | _, [], _ => Nat.le_refl _
  | first, next :: hops, hchain => by
    obtain ⟨hhop, hrest⟩ := List.isChain_cons_cons.1 hchain
    have hle := h.rank_add_length_le hrest
    have := h.rank_lt_rank _ _ hhop
    rw [List.getLastD_cons, List.length_cons]
    omega

/-- A run never gets to the bound. -/
theorem rank_lt (h : Climbs hop rank bound) (hfirst : rank first < bound first)
    (hchain : (first :: hops).IsChain hop) : rank (hops.getLastD first) < bound (hops.getLastD first) :=
  hchain.induction (fun a => rank a < bound a) _ (fun _ _ hhop _ => h.rank_lt_bound _ _ hhop)
    (fun _ => hfirst) _ List.getLastD_mem_cons

theorem exists_exhausts (h : Climbs hop rank bound) (first : α) : ∃ hops, Exhausts hop first hops := by
  by_cases hnext : ∃ next, hop first next
  · obtain ⟨next, hhop⟩ := hnext
    obtain ⟨hops, hchain, hlast⟩ := h.exists_exhausts next
    refine ⟨next :: hops, .cons_cons hhop hchain, ?_⟩
    rw [List.getLastD_cons]
    exact hlast
  · exact ⟨[], .singleton _, not_exists.1 hnext⟩
termination_by bound first - rank first
decreasing_by
  have := h.rank_lt_rank _ _ hhop
  have := h.rank_lt_bound _ _ hhop
  have := h.bound_eq _ _ hhop
  omega

end Climbs

namespace Exhausts

/-- Any run of hops is the beginning of one that came to its end. -/
theorem isPrefix (hunique : Relator.RightUnique hop) :
    ∀ {first : α} {hops other : List α}, Exhausts hop first hops → (first :: other).IsChain hop →
      other <+: hops
  | _, hops, [], _, _ => List.nil_prefix
  | first, [], next :: other, h, hother => absurd (List.isChain_cons_cons.1 hother).1 (h.last next)
  | first, next :: hops, next' :: other, h, hother => by
    obtain ⟨hhop, hrest⟩ := List.isChain_cons_cons.1 h.chain
    obtain ⟨hhop', hother⟩ := List.isChain_cons_cons.1 hother
    obtain rfl := hunique hhop hhop'
    have hlast := h.last
    rw [List.getLastD_cons] at hlast
    exact List.cons_prefix_cons.2 ⟨rfl, isPrefix hunique ⟨hrest, hlast⟩ hother⟩

/-- There is one run of hops that comes to its end. -/
theorem unique {other : List α} (hunique : Relator.RightUnique hop) (h : Exhausts hop first hops)
    (hother : Exhausts hop first other) : hops = other :=
  (hother.isPrefix hunique h.chain).eq_of_length_le (h.isPrefix hunique hother.chain).length_le

end Exhausts

end FlashVolume
