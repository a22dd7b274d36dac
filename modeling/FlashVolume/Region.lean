/-
Byte ranges bounded by a parent. A region is never empty and never reaches past its parent; an empty
range is refused before its bounds are looked at.
-/

namespace FlashVolume

/-- The bytes `start ≤ i < stop` of some parent. -/
structure Region where
  start : Nat
  stop : Nat
deriving DecidableEq

namespace Region

/-- Why a range is no region. -/
inductive Error
  | empty (offset : Nat)
  | outOfBounds (offset size parent : Nat)
deriving DecidableEq

def Error.message : Error → String
  | empty offset => s!"empty region at offset {offset}"
  | outOfBounds offset size parent =>
    s!"region {offset}+{size} exceeds parent of {parent} bytes"

/-- The `size` bytes at `offset` of a parent of `parent` bytes. -/
def within (parent offset size : Nat) : Except Error Region :=
  if size = 0 then .error (.empty offset)
  else if offset + size ≤ parent then .ok ⟨offset, offset + size⟩
  else .error (.outOfBounds offset size parent)

def size (r : Region) : Nat := r.stop - r.start

/-- The same range counted from a point `base` bytes earlier. -/
def shift (r : Region) (base : Nat) : Region := ⟨base + r.start, base + r.stop⟩

/-- The bytes of the region. -/
def slice (r : Region) (parent : List UInt8) : Except Error (List UInt8) :=
  if r.start ≤ r.stop ∧ r.stop ≤ parent.length then .ok ((parent.drop r.start).take r.size)
  else .error (.outOfBounds r.start r.size parent.length)

theorem within_eq_ok_iff {parent offset size : Nat} {r : Region} :
    within parent offset size = .ok r ↔
      size ≠ 0 ∧ offset + size ≤ parent ∧ r = ⟨offset, offset + size⟩ := by
  unfold within
  split
  · simp [*]
  · split
    · rename_i h0 h1
      simp only [Except.ok.injEq]
      exact ⟨fun h => ⟨h0, h1, h.symm⟩, fun h => h.2.2.symm⟩
    · rename_i h0 h1
      simp only [reduceCtorEq, false_iff]
      exact fun h => h1 h.2.1

end Region

end FlashVolume
