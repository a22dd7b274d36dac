/-
Operations without a crash: they end with a result or with a fault that a report can name. A sequence of
such operations is one again, and one may rely on the results before it.
-/
import FlashVolume.Proofs.Outcome

namespace FlashVolume

/-- A report can name what stopped the operation. -/
def Stop.IsFault (stop : Stop) : Prop := ∃ cause, stop = .fault cause

/-- The operation ends with a result or a fault, never in a crash. -/
def NoCrash {α : Type} (x : Outcome α) : Prop := (∃ a, x = .ok a) ∨ ∃ cause, x = .error (.fault cause)

namespace NoCrash

variable {α β : Type} {x : Outcome α}

theorem ok (a : α) : NoCrash (.ok a) := .inl ⟨a, rfl⟩

theorem fault (cause : Fault) : NoCrash (.error (.fault cause) : Outcome α) := .inr ⟨cause, rfl⟩

theorem iff_failsOnly : NoCrash x ↔ Outcome.FailsOnly Stop.IsFault x := by
  constructor
  · rintro (⟨a, rfl⟩ | ⟨cause, rfl⟩)
    · exact .ok a
    · exact .of_error ⟨cause, rfl⟩
  · intro h
    rcases hx : x with stop | a
    · obtain ⟨cause, rfl⟩ := h.of_eq_error stop hx
      exact .fault cause
    · exact .ok a

/-- What stops an operation without a crash can stop another one. -/
theorem error {stop : Stop} (hx : NoCrash x) (h : x = .error stop) :
    NoCrash (.error stop : Outcome β) :=
  iff_failsOnly.2 ((iff_failsOnly.1 hx).error h)

theorem bind {f : α → Outcome β} (hx : NoCrash x) (hf : ∀ a, x = .ok a → NoCrash (f a)) :
    NoCrash (x >>= f) :=
  iff_failsOnly.2 ((iff_failsOnly.1 hx).bind fun a ha => iff_failsOnly.1 (hf a ha))

theorem word64 {n : Nat} (h : n < UInt64.size) : NoCrash (word64 n) := by
  rw [word64_eq_ok.2 ⟨h, rfl⟩]
  exact .ok n

theorem word32 {n : Nat} (h : n < UInt32.size) : NoCrash (word32 n) := by
  rw [word32_eq_ok.2 ⟨h, rfl⟩]
  exact .ok n

theorem quotient {n d : Nat} (h : d ≠ 0) : NoCrash (quotient n d) := by
  rw [quotient_eq_ok.2 ⟨h, rfl⟩]
  exact .ok _

end NoCrash

end FlashVolume
