/-
Duplex values: a main instance and its copy. A volume keeps its vital metadata twice; readers prefer
the main instance and fall back on the copy.
-/
import FlashVolume.Format

namespace FlashVolume

/-- Which of two instances. -/
inductive Instance
  | main
  | copy
deriving DecidableEq, Repr

/-- A value for the main instance and one for the copy. -/
structure Duplex (α : Type) where
  main : α
  copy : α
deriving DecidableEq

namespace Duplex

variable {α β : Type}

/-- The same value for both instances. -/
def both (a : α) : Duplex α := ⟨a, a⟩

instance [Inhabited α] : Inhabited (Duplex α) := ⟨both default⟩

/-- The value of an instance. -/
def get (m : Duplex α) : Instance → α
  | .main => m.main
  | .copy => m.copy

/-- Replace the value of an instance. -/
def set (m : Duplex α) (i : Instance) (a : α) : Duplex α :=
  match i with
  | .main => { m with main := a }
  | .copy => { m with copy := a }

/-- The main instance directly followed by the copy. -/
def format (f : Format α) : Format (Duplex α) :=
  (f.pair f).map (fun (main, copy) => ⟨main, copy⟩) (fun m => (m.main, m.copy))

theorem exact_format {f : Format α} (h : f.Exact) : (format f).Exact :=
  (h.pair h).map (fun _ => rfl) (fun _ => rfl)

/-! ## Pairs with instances missing -/

/-- The instances present, the main one first. -/
def toList (m : Duplex (Option α)) : List α := m.main.toList ++ m.copy.toList

/-- At least one instance is present. -/
def isPresent (m : Duplex (Option α)) : Bool := m.main.isSome || m.copy.isSome

/-- The main instance, or the copy when the main one is missing. -/
def preferred (m : Duplex (Option α)) : Option α := m.main.or m.copy

theorem isPresent_eq_isSome (m : Duplex (Option α)) : m.isPresent = m.preferred.isSome := by
  cases hm : m.main <;> simp [isPresent, preferred, hm]

end Duplex

end FlashVolume
