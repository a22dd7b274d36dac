/-
Geometries a volume is read by. Whatever a volume declares and an operator asks for, sizes that are
accepted make up whole pages, erase blocks and segments.
-/
import FlashVolume.Detection.Options

namespace FlashVolume

namespace Geometry

/-- Pages and erase blocks have a size, an erase block has whole pages, and a segment has at least one
erase block. -/
structure WellFormed (g : Geometry) : Prop where
  pageSize_pos : 0 < g.pageSize
  eraseSize_pos : 0 < g.eraseSize
  wholePages : g.pageSize ∣ g.eraseSize
  pebsPerSegment_pos : 0 < g.pebsPerSegment

theorem wellFormed_of_ofLogs? {page erase segment pebs : Nat} {g : Geometry}
    (h : ofLogs? page erase segment pebs = some g) : g.WellFormed := by
  obtain ⟨⟨-, -, hle, -⟩, rfl⟩ := ofLogs?_eq_some_iff.1 h
  simp only [Nat.one_shiftLeft]
  exact ⟨Nat.two_pow_pos _, Nat.two_pow_pos _, Nat.pow_dvd_pow 2 hle, Nat.two_pow_pos _⟩

theorem WellFormed.pagesPerPeb_pos {g : Geometry} (hg : g.WellFormed) : 0 < g.pagesPerPeb :=
  Nat.div_pos (Nat.le_of_dvd hg.eraseSize_pos hg.wholePages) hg.pageSize_pos

end Geometry

/-- Just a power of two has a logarithm, which is its exponent. -/
theorem DetectOptions.exactLog_eq_ok_iff {what : String} {value log : Nat} :
    exactLog what value = .ok log ↔ 1 <<< log = value := by
  unfold exactLog
  constructor
  · intro h
    split at h
    · cases h
      assumption
    · cases h
  · rintro rfl
    have hlog : (1 <<< log).log2 = log := by rw [Nat.one_shiftLeft, Nat.log2_two_pow]
    rw [hlog, if_pos rfl]

/-- A geometry that is accepted has logarithms a volume may have, whether it was declared or asked for. -/
theorem DetectOptions.ofLogs?_of_resolveGeometry {o : DetectOptions} {declared : Option Geometry}
    {g : Geometry} (h : o.resolveGeometry declared = .ok g) :
    ∃ page erase segment pebs, Geometry.ofLogs? page erase segment pebs = some g := by
  unfold resolveGeometry at h
  simp only [bind, Except.bind] at h
  -- One branch of all the checks accepts: that of the logarithms a volume may have.
  repeat' split at h
  all_goals first
    | cases h; exact ⟨_, _, _, _, ‹_›⟩
    | cases h

theorem DetectOptions.resolveGeometry_wellFormed {o : DetectOptions} {declared : Option Geometry}
    {g : Geometry} (h : o.resolveGeometry declared = .ok g) : g.WellFormed := by
  obtain ⟨_, _, _, _, hlogs⟩ := ofLogs?_of_resolveGeometry h
  exact Geometry.wellFormed_of_ofLogs? hlogs

end FlashVolume
