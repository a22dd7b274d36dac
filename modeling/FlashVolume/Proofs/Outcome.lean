/-
Outcomes of compound operations: a sequence of operations succeeds exactly when each of them does, on
what the ones before it gave, and fails as the first of them that does not.
-/
import FlashVolume.Outcome
import Mathlib.Data.List.Forall2

namespace FlashVolume.Outcome

variable {ε ε' α β : Type}

theorem bind_eq_ok {x : Except ε α} {f : α → Except ε β} {b : β} :
    x >>= f = .ok b ↔ ∃ a, x = .ok a ∧ f a = .ok b := by
  constructor
  · intro h
    rcases x with e | a
    · cases h
    · exact ⟨a, rfl, h⟩
  · rintro ⟨a, rfl, h⟩
    exact h

theorem bind_eq_error {x : Except ε α} {f : α → Except ε β} {e : ε} :
    x >>= f = .error e ↔ x = .error e ∨ ∃ a, x = .ok a ∧ f a = .error e := by
  constructor
  · intro h
    rcases x with e' | a
    · cases h
      exact .inl rfl
    · exact .inr ⟨a, rfl, h⟩
  · rintro (rfl | ⟨a, rfl, h⟩)
    · rfl
    · exact h

theorem pure_eq_ok {a b : α} : (pure a : Except ε α) = .ok b ↔ a = b := by
  show (Except.ok a : Except ε α) = .ok b ↔ a = b
  rw [Except.ok.injEq]

theorem map_eq_ok {x : Outcome α} {f : α → β} {b : β} :
    x.map f = .ok b ↔ ∃ a, x = .ok a ∧ f a = b := by
  constructor
  · intro h
    rcases x with e | a
    · cases h
    · cases h
      exact ⟨a, rfl, rfl⟩
  · rintro ⟨a, rfl, rfl⟩
    rfl

theorem map_eq_error {x : Outcome α} {f : α → β} {stop : Stop} : x.map f = .error stop ↔ x = .error stop := by
  rcases x with e | a
  · show (Except.error e : Outcome β) = .error stop ↔ _
    rw [Except.error.injEq, Except.error.injEq]
  · exact iff_of_false nofun nofun

/-- Naming a failure differently does not change what succeeds. -/
theorem mapError_eq_ok {x : Except ε α} {f : ε → ε'} {a : α} : x.mapError f = .ok a ↔ x = .ok a := by
  rcases x with e | b
  · exact iff_of_false nofun nofun
  · show Except.ok b = .ok a ↔ _
    rw [Except.ok.injEq, Except.ok.injEq]

theorem mapError_eq_error {x : Except ε α} {f : ε → ε'} {e' : ε'} :
    x.mapError f = .error e' ↔ ∃ e, x = .error e ∧ f e = e' := by
  rcases x with e | b
  · show Except.error (f e) = .error e' ↔ _
    simp only [Except.error.injEq, exists_eq_left']
  · exact iff_of_false nofun nofun

theorem toOption_eq_some {x : Except ε α} {a : α} : x.toOption = some a ↔ x = .ok a := by
  rcases x with e | b
  · exact iff_of_false nofun nofun
  · rw [Except.ok.injEq]
    exact Option.some_inj

/-- Mapping over a list succeeds when it does at every element, and keeps their order. -/
theorem forall₂_of_mapM {f : α → Outcome β} :
    ∀ {as : List α} {bs : List β}, as.mapM f = .ok bs →
      List.Forall₂ (fun a b => f a = .ok b) as bs
  | [], bs, h => by
    rw [List.mapM_nil, pure_eq_ok] at h
    rw [← h]
    exact .nil
  | a :: as, bs, h => by
    rw [List.mapM_cons] at h
    obtain ⟨b, hb, h⟩ := bind_eq_ok.1 h
    obtain ⟨rest, hrest, h⟩ := bind_eq_ok.1 h
    rw [← pure_eq_ok.1 h]
    exact .cons hb (forall₂_of_mapM hrest)

theorem mem_of_mapM {f : α → Outcome β} {as : List α} {bs : List β} (h : as.mapM f = .ok bs) {b : β}
    (hb : b ∈ bs) : ∃ a ∈ as, f a = .ok b := by
  have hall := forall₂_of_mapM h
  clear h
  induction hall with
  | nil => cases hb
  | cons hab _ ih =>
    rcases List.mem_cons.1 hb with rfl | hb
    · exact ⟨_, List.mem_cons_self .., hab⟩
    · obtain ⟨a, ha, hf⟩ := ih hb
      exact ⟨a, List.mem_cons_of_mem _ ha, hf⟩

/-- Mapping over a list fails as an element does. -/
theorem exists_of_mapM_error {f : α → Except ε β} {e : ε} :
    ∀ {as : List α}, as.mapM f = .error e → ∃ a ∈ as, f a = .error e
  | [], h => by cases h
  | a :: as, h => by
    rw [List.mapM_cons] at h
    rcases bind_eq_error.1 h with h | ⟨b, -, h⟩
    · exact ⟨a, List.mem_cons_self .., h⟩
    rcases bind_eq_error.1 h with h | ⟨rest, -, h⟩
    · obtain ⟨a', ha', h⟩ := exists_of_mapM_error h
      exact ⟨a', List.mem_cons_of_mem _ ha', h⟩
    · cases h

/-! ## Ways to fail -/

/-- The operation fails in no other way than `P` allows. -/
structure FailsOnly (P : Stop → Prop) (x : Outcome α) : Prop where
  of_eq_error : ∀ stop, x = .error stop → P stop

namespace FailsOnly

variable {P : Stop → Prop} {x : Outcome α}

theorem ok (a : α) : FailsOnly P (.ok a) := ⟨nofun⟩

theorem of_error {stop : Stop} (h : P stop) : FailsOnly P (.error stop : Outcome α) where
  of_eq_error
    | _, rfl => h

theorem mono {Q : Stop → Prop} (hx : FailsOnly P x) (h : ∀ stop, P stop → Q stop) : FailsOnly Q x :=
  ⟨fun stop hstop => h stop (hx.of_eq_error stop hstop)⟩

/-- What stops an operation can stop another one. -/
theorem error {stop : Stop} (hx : FailsOnly P x) (h : x = .error stop) :
    FailsOnly P (.error stop : Outcome β) :=
  of_error (hx.of_eq_error stop h)

theorem bind {f : α → Outcome β} (hx : FailsOnly P x) (hf : ∀ a, x = .ok a → FailsOnly P (f a)) :
    FailsOnly P (x >>= f) := by
  refine ⟨fun stop h => ?_⟩
  rcases bind_eq_error.1 h with h | ⟨a, ha, h⟩
  · exact hx.of_eq_error stop h
  · exact (hf a ha).of_eq_error stop h

theorem map (hx : FailsOnly P x) (f : α → β) : FailsOnly P (x.map f) :=
  ⟨fun stop h => hx.of_eq_error stop (map_eq_error.1 h)⟩

theorem mapM {f : α → Outcome β} {as : List α} (h : ∀ a ∈ as, FailsOnly P (f a)) :
    FailsOnly P (as.mapM f) := by
  refine ⟨fun stop hstop => ?_⟩
  obtain ⟨a, ha, hfail⟩ := exists_of_mapM_error hstop
  exact (h a ha).of_eq_error stop hfail

theorem filterMapM {f : α → Outcome (Option β)} :
    ∀ {as : List α}, (∀ a ∈ as, FailsOnly P (f a)) → FailsOnly P (as.filterMapM f)
  | [], _ => .ok []
  | a :: as, h => by
    obtain ⟨ha, has⟩ := List.forall_mem_cons.1 h
    rw [List.filterMapM_cons]
    refine ha.bind fun found _ => ?_
    rcases found with _ | b
    · exact filterMapM has
    · exact (filterMapM has).bind fun bs _ => .ok _

end FailsOnly

end FlashVolume.Outcome
