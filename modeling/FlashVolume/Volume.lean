/-
A volume: something to read from, and the geometry its logs are laid out by. The geometry may be
anything; counting pages or erase blocks that have no size is a crash, everything else goes on.
-/
import FlashVolume.Geometry
import FlashVolume.Outcome

namespace FlashVolume

/-- A handle read by a geometry. -/
structure Volume where
  handle : Handle
  geometry : Geometry

namespace Volume

/-- Whole erase blocks on the device. -/
def pebsCount (v : Volume) : Outcome Nat := quotient v.handle.size v.geometry.eraseSize

/-- Whole pages of an erase block. -/
def pagesPerPeb (v : Volume) : Outcome Nat :=
  quotient v.geometry.eraseSize v.geometry.pageSize

theorem pebsCount_eq_ok {v : Volume} {n : Nat} :
    v.pebsCount = .ok n ↔ v.geometry.eraseSize ≠ 0 ∧ v.handle.size / v.geometry.eraseSize = n :=
  quotient_eq_ok

theorem pagesPerPeb_eq_ok {v : Volume} {n : Nat} :
    v.pagesPerPeb = .ok n ↔ v.geometry.pageSize ≠ 0 ∧ v.geometry.pagesPerPeb = n :=
  quotient_eq_ok

/-- The same volume read through another handle. -/
def withHandle (v : Volume) (handle : Handle) : Volume := { v with handle }

/-- The bytes at an absolute offset, a failure being put down to an erase block. -/
def readBytes (v : Volume) (peb offset length : Nat) : Outcome (List UInt8) :=
  match v.handle.read offset length with
  | .ok bytes => .ok bytes
  | .error cause => .error (.fault (.read peb offset cause))

end Volume

end FlashVolume
