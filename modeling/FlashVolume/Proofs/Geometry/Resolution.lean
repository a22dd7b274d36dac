/-
The geometry a volume is read by. Every size is a power of two, so a geometry and its binary logarithms stand for
each other; and the sizes that were asked for, or else declared, or else taken by default, are accepted exactly if
a volume may have them, while anything else is refused for the first thing that is wrong with them.
-/
import FlashVolume.Proofs.Geometry
import FlashVolume.Proofs.Outcome
import Mathlib.Algebra.Group.Nat.Defs

namespace FlashVolume

/-! ## Logarithms -/

/-- A power of two has only its own bit set. -/
theorem trailingZeros_shiftLeft {n limit : Nat} (h : n < limit) : trailingZeros (1 <<< n) limit = n := by
  have hfind : (List.range limit).find? (1 <<< n).testBit = some n := by
    obtain ⟨rest, rfl⟩ := Nat.exists_eq_add_of_lt h
    rw [List.find?_eq_some_iff_append]
    refine ⟨by simp [Nat.one_shiftLeft], List.range n, (List.range rest).map (n + 1 + ·), ?_, ?_⟩
    · rw [Nat.add_right_comm, List.range_add, List.range_succ, List.append_assoc]
      rfl
    · intro i hi
      have := List.mem_range.1 hi
      simp [Nat.one_shiftLeft, Nat.testBit_two_pow]
      omega
  unfold trailingZeros
  rw [hfind, Option.getD_some]

namespace Geometry

variable {g : Geometry}

/-- A geometry gives back the logarithms it was made from. -/
theorem logs_of_ofLogs? {page erase segment pebs : Nat} (h : ofLogs? page erase segment pebs = some g) :
    g.logs = (page, erase, segment, pebs) := by
  obtain ⟨⟨hlow, hpage, hpages, herase, hpebs, hsegment, rfl⟩, rfl⟩ := ofLogs?_eq_some_iff.1 h
  unfold logs
  rw [trailingZeros_shiftLeft (by omega), trailingZeros_shiftLeft (by omega), trailingZeros_shiftLeft (by omega),
    trailingZeros_shiftLeft (by omega)]

end Geometry

/-! ## Sizes -/

/-- The sizes a geometry is to be resolved to. -/
structure Sizes where
  page : Nat
  erase : Nat
  segment : Nat

namespace Sizes

/-- What was asked for wins over what was declared, and the fallback is taken where neither is known. -/
def pick : (asked declared : Option Nat) → (fallback : Nat) → Nat
  | some size, _, _ => size
  | none, some size, _ => size
  | none, none, fallback => fallback

/-- Sizes a volume may have. -/
structure Possible (s : Sizes) : Prop where
  page : s.page.isPowerOfTwo
  erase : s.erase.isPowerOfTwo
  segment : s.segment.isPowerOfTwo
  le_page : 512 ≤ s.page
  page_le : s.page ≤ 65536
  page_le_erase : s.page ≤ s.erase
  erase_le : s.erase ≤ 2 ^ 31
  erase_le_segment : s.erase ≤ s.segment
  segment_le : s.segment ≤ 2 ^ 40

/-- The geometry of these sizes, a segment being made of whole erase blocks. -/
def geometry (s : Sizes) : Geometry := ⟨s.page, s.erase, s.segment, s.segment / s.erase⟩

/-- Sizes are out of range: for the first of them that is no power of two, or else all together. -/
inductive Misfit (s : Sizes) : Fault → Prop
  | page : ¬ s.page.isPowerOfTwo → Misfit s (.notPowerOfTwo "page size" s.page)
  | erase : s.page.isPowerOfTwo → ¬ s.erase.isPowerOfTwo → Misfit s (.notPowerOfTwo "erase size" s.erase)
  | segment : s.page.isPowerOfTwo → s.erase.isPowerOfTwo → ¬ s.segment.isPowerOfTwo →
    Misfit s (.notPowerOfTwo "segment size" s.segment)
  | bounds : s.page.isPowerOfTwo → s.erase.isPowerOfTwo → s.segment.isPowerOfTwo → ¬ s.Possible →
    Misfit s (.impossibleGeometry s.page s.erase s.segment)

/-- Powers of two are sizes a volume may have if their exponents are logarithms it may have. -/
theorem possible_iff {page erase segment : Nat} :
    (Sizes.mk (2 ^ page) (2 ^ erase) (2 ^ segment)).Possible ↔
      9 ≤ page ∧ page ≤ 16 ∧ page ≤ erase ∧ erase ≤ 31 ∧ erase ≤ segment ∧ segment ≤ 40 := by
  have hle {a b : Nat} : 2 ^ a ≤ 2 ^ b ↔ a ≤ b := Nat.pow_le_pow_iff_right (by decide)
  constructor
  · rintro ⟨-, -, -, h1, h2, h3, h4, h5, h6⟩
    exact ⟨hle.1 h1, hle.1 h2, hle.1 h3, hle.1 h4, hle.1 h5, hle.1 h6⟩
  · rintro ⟨h1, h2, h3, h4, h5, h6⟩
    exact ⟨⟨_, rfl⟩, ⟨_, rfl⟩, ⟨_, rfl⟩, hle.2 h1, hle.2 h2, hle.2 h3, hle.2 h4, hle.2 h5, hle.2 h6⟩

theorem ofLogs?_of_possible {page erase segment : Nat}
    (h : (Sizes.mk (2 ^ page) (2 ^ erase) (2 ^ segment)).Possible) :
    Geometry.ofLogs? page erase segment (segment - erase) =
      some (Sizes.mk (2 ^ page) (2 ^ erase) (2 ^ segment)).geometry ∧ erase ≤ segment := by
  obtain ⟨hlow, hpage, hpages, herase, hpebs, hsegment⟩ := possible_iff.1 h
  refine ⟨Geometry.ofLogs?_eq_some_iff.2 ⟨⟨hlow, hpage, hpages, herase, hpebs, hsegment, rfl⟩, ?_⟩, hpebs⟩
  simp only [geometry, Nat.one_shiftLeft, Nat.pow_div hpebs Nat.two_pos]

theorem ofLogs?_of_not_possible {page erase segment pebs : Nat}
    (h : ¬ (Sizes.mk (2 ^ page) (2 ^ erase) (2 ^ segment)).Possible) :
    Geometry.ofLogs? page erase segment pebs = none := by
  rw [Option.eq_none_iff_forall_ne_some]
  intro g hg
  obtain ⟨⟨hlow, hpage, hpages, herase, hpebs, hsegment, -⟩, -⟩ := Geometry.ofLogs?_eq_some_iff.1 hg
  exact h (possible_iff.2 ⟨hlow, hpage, hpages, herase, hpebs, hsegment⟩)

/-- A volume that may have these sizes may have their geometry: it is the one with these logarithms, and whole
pages make up its erase blocks. -/
theorem Possible.geometry {s : Sizes} (h : s.Possible) :
    s.geometry.pagesPerPeb * s.geometry.pageSize = s.geometry.eraseSize ∧
      ∃ page erase segment pebs, Geometry.ofLogs? page erase segment pebs = some s.geometry := by
  obtain ⟨page, erase, segment⟩ := s
  obtain ⟨⟨page, rfl⟩, ⟨erase, rfl⟩, ⟨segment, rfl⟩, -⟩ := id h
  obtain ⟨hlogs, -⟩ := ofLogs?_of_possible h
  exact ⟨Nat.div_mul_cancel (Geometry.wellFormed_of_ofLogs? hlogs).wholePages, _, _, _, _, hlogs⟩

theorem Misfit.not_possible {s : Sizes} {cause : Fault} (h : s.Misfit cause) : ¬ s.Possible := by
  intro hpossible
  cases h with
  | page hpage => exact hpage hpossible.page
  | erase _ herase => exact herase hpossible.erase
  | segment _ _ hsegment => exact hsegment hpossible.segment
  | bounds _ _ _ hbounds => exact hbounds hpossible

end Sizes

/-! ## Resolution -/

namespace DetectOptions

variable {o : DetectOptions} {declared : Option Geometry} {g : Geometry}

/-- The sizes a volume is to be read by. -/
def sizes (o : DetectOptions) (declared : Option Geometry) : Sizes :=
  let erase := Sizes.pick o.eraseSize (declared.map (·.eraseSize)) 8388608
  { page := Sizes.pick o.pageSize (declared.map (·.pageSize)) 4096
    erase
    segment := Sizes.pick o.segmentSize (declared.map (·.segmentSize)) erase }

theorem exactLog_two_pow (what : String) (n : Nat) : exactLog what (2 ^ n) = .ok n :=
  exactLog_eq_ok_iff.2 (Nat.one_shiftLeft n)

theorem exactLog_of_not_isPowerOfTwo (what : String) {n : Nat} (h : ¬ n.isPowerOfTwo) :
    exactLog what n = .error (.notPowerOfTwo what n) := by
  unfold exactLog
  rw [if_neg]
  intro hlog
  exact h ⟨n.log2, by rw [← Nat.one_shiftLeft, hlog]⟩

/-- What a run is resolved to: the geometry of its sizes, or the first thing that is wrong with them. -/
theorem resolveGeometry_cases (o : DetectOptions) (declared : Option Geometry) :
    ((o.sizes declared).Possible ∧ o.resolveGeometry declared = .ok (o.sizes declared).geometry) ∨
      ∃ cause, (o.sizes declared).Misfit cause ∧ o.resolveGeometry declared = .error cause := by
  have hpick (asked declared : Option Nat) (fallback : Nat) :
      (asked.or declared).getD fallback = Sizes.pick asked declared fallback := by
    rcases asked with _ | asked <;> rcases declared with _ | declared <;> rfl
  unfold resolveGeometry sizes defaultPageSize defaultEraseSize
  simp only [hpick, throw, throwThe, MonadExceptOf.throw]
  generalize Sizes.pick o.eraseSize _ _ = erase
  generalize Sizes.pick o.pageSize _ _ = page
  generalize Sizes.pick o.segmentSize _ _ = segment
  by_cases hpage : page.isPowerOfTwo
  case neg =>
    rw [exactLog_of_not_isPowerOfTwo _ hpage]
    exact .inr ⟨_, .page hpage, rfl⟩
  by_cases herase : erase.isPowerOfTwo
  case neg =>
    obtain ⟨logPage, rfl⟩ := hpage
    rw [exactLog_two_pow, exactLog_of_not_isPowerOfTwo _ herase]
    exact .inr ⟨_, .erase ⟨logPage, rfl⟩ herase, rfl⟩
  by_cases hsegment : segment.isPowerOfTwo
  case neg =>
    obtain ⟨logPage, rfl⟩ := hpage
    obtain ⟨logErase, rfl⟩ := herase
    rw [exactLog_two_pow, exactLog_two_pow, exactLog_of_not_isPowerOfTwo _ hsegment]
    exact .inr ⟨_, .segment ⟨logPage, rfl⟩ ⟨logErase, rfl⟩ hsegment, rfl⟩
  -- With all of them powers of two, the bounds decide.
  have hbounds := Sizes.Misfit.bounds (s := ⟨page, erase, segment⟩) hpage herase hsegment
  obtain ⟨logPage, rfl⟩ := hpage
  obtain ⟨logErase, rfl⟩ := herase
  obtain ⟨logSegment, rfl⟩ := hsegment
  simp only [exactLog_two_pow, bind, Except.bind]
  by_cases hpossible : (Sizes.mk (2 ^ logPage) (2 ^ logErase) (2 ^ logSegment)).Possible
  · obtain ⟨hlogs, hle⟩ := Sizes.ofLogs?_of_possible hpossible
    exact .inl ⟨hpossible, by rw [if_pos hle, hlogs]; rfl⟩
  · refine .inr ⟨_, hbounds hpossible, ?_⟩
    split
    · rw [Sizes.ofLogs?_of_not_possible hpossible]
    · rfl

theorem resolveGeometry_eq_ok_iff :
    o.resolveGeometry declared = .ok g ↔ (o.sizes declared).Possible ∧ g = (o.sizes declared).geometry := by
  rcases resolveGeometry_cases o declared with ⟨hpossible, h⟩ | ⟨cause, hmisfit, h⟩ <;> rw [h]
  · rw [Except.ok.injEq, eq_comm, and_iff_right hpossible]
  · exact iff_of_false nofun fun hok => hmisfit.not_possible hok.1

/-- Resolution is exact. A geometry comes out just if a volume may have the sizes, and it is the one of these
sizes, whose pages make up its erase blocks and which its own logarithms declare. Otherwise it is refused, for the
first of the sizes that is no power of two, or because they do not go together. And logarithms that declare a
geometry are those it gives back. -/
theorem resolveGeometry_exact (o : DetectOptions) (declared : Option Geometry) :
    ((∃ g, o.resolveGeometry declared = .ok g) ↔ (o.sizes declared).Possible) ∧
      (∀ g, o.resolveGeometry declared = .ok g →
        g.pageSize = (o.sizes declared).page ∧ g.eraseSize = (o.sizes declared).erase ∧
          g.segmentSize = (o.sizes declared).segment ∧
          g.pebsPerSegment = (o.sizes declared).segment / (o.sizes declared).erase ∧
          g.pagesPerPeb * g.pageSize = g.eraseSize ∧
          Geometry.ofLogs? g.logs.1 g.logs.2.1 g.logs.2.2.1 g.logs.2.2.2 = some g) ∧
      (¬ (o.sizes declared).Possible →
        ∃ cause, o.resolveGeometry declared = .error cause ∧ (o.sizes declared).Misfit cause) ∧
      ∀ page erase segment pebs g, Geometry.ofLogs? page erase segment pebs = some g →
        g.logs = (page, erase, segment, pebs) := by
  refine ⟨⟨?_, fun h => ⟨_, resolveGeometry_eq_ok_iff.2 ⟨h, rfl⟩⟩⟩, fun g hg => ?_, fun hnot => ?_,
    fun page erase segment pebs g h => Geometry.logs_of_ofLogs? h⟩
  · rintro ⟨g, hg⟩
    exact (resolveGeometry_eq_ok_iff.1 hg).1
  · obtain ⟨hpossible, rfl⟩ := resolveGeometry_eq_ok_iff.1 hg
    obtain ⟨hpages, page, erase, segment, pebs, hlogs⟩ := hpossible.geometry
    refine ⟨rfl, rfl, rfl, rfl, hpages, ?_⟩
    rw [Geometry.logs_of_ofLogs? hlogs]
    exact hlogs
  · rcases resolveGeometry_cases o declared with ⟨hpossible, -⟩ | ⟨cause, hmisfit, h⟩
    · exact absurd hpossible hnot
    · exact ⟨cause, h, hmisfit⟩

end DetectOptions

end FlashVolume
