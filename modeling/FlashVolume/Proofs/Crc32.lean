/-
What the CRC-32 tells apart. Shifting the state is linear and injective, and a state shifted out by up to
four bytes is the state they were put into beforehand as one little-endian word, shifted as often. Byte
strings of one length therefore never have the same CRC-32 when they differ in no more than four bytes in a
row.
-/
import FlashVolume.Crc32
import Mathlib.Logic.Function.Iterate

namespace FlashVolume

namespace Crc32

/-! ## One shift -/

theorem and_one_eq_one_iff (c : UInt32) : c &&& 1 = 1 ↔ c.toBitVec.getLsbD 0 = true := by
  rw [← UInt32.toBitVec_inj, UInt32.toBitVec_and]
  show c.toBitVec &&& 1#32 = 1#32 ↔ _
  rw [BitVec.and_one_eq_setWidth_ofBool_getLsbD]
  cases c.toBitVec.getLsbD 0 <;> decide

/-- Every bit moves down a place, and the lowest one is added wherever the polynomial has a bit. -/
theorem getLsbD_shift (c : UInt32) (i : Nat) :
    (shift c).toBitVec.getLsbD i =
      (c.toBitVec.getLsbD (i + 1) ^^ (c.toBitVec.getLsbD 0 && (0xEDB88320#32).getLsbD i)) := by
  unfold shift
  cases h : c.toBitVec.getLsbD 0
  · rw [if_neg (by rw [and_one_eq_one_iff, h]; decide)]
    simp [Nat.add_comm]
  · rw [if_pos ((and_one_eq_one_iff c).2 h)]
    simp [Nat.add_comm]

theorem eq_of_getLsbD_eq {a b : UInt32}
    (h : ∀ i, i < 32 → a.toBitVec.getLsbD i = b.toBitVec.getLsbD i) : a = b :=
  UInt32.toBitVec_inj.1 (BitVec.eq_of_getLsbD_eq h)

theorem shift_xor (a b : UInt32) : shift (a ^^^ b) = shift a ^^^ shift b := by
  apply eq_of_getLsbD_eq
  intro i _
  simp only [UInt32.toBitVec_xor, BitVec.getLsbD_xor, getLsbD_shift]
  generalize a.toBitVec.getLsbD 0 = p, a.toBitVec.getLsbD (i + 1) = p', b.toBitVec.getLsbD 0 = q,
    b.toBitVec.getLsbD (i + 1) = q', (0xEDB88320#32).getLsbD i = r
  revert p p' q q' r
  decide

theorem shift_injective : Function.Injective shift := by
  intro a b h
  have bits : ∀ i, (shift a).toBitVec.getLsbD i = (shift b).toBitVec.getLsbD i := fun i => by rw [h]
  simp only [getLsbD_shift] at bits
  -- Nothing but the lowest bit gets to the top.
  have low : a.toBitVec.getLsbD 0 = b.toBitVec.getLsbD 0 := by
    have top := bits 31
    rw [show (0xEDB88320#32).getLsbD 31 = true by decide] at top
    simpa using top
  apply eq_of_getLsbD_eq
  intro i _
  cases i with
  | zero => exact low
  | succ i =>
    have h := bits i
    rw [low] at h
    exact Bool.xor_left_inj.1 h

/-! ## Several shifts -/

theorem iterate_shift_xor (n : Nat) (a b : UInt32) : shift^[n] (a ^^^ b) = shift^[n] a ^^^ shift^[n] b := by
  induction n generalizing a b with
  | zero => rfl
  | succ n ih => rw [Function.iterate_succ_apply, shift_xor, ih]; rfl

/-- Bits that are all above the ones shifted out only move down. -/
theorem getLsbD_iterate_shift {c : UInt32} {n : Nat} (h : ∀ i, i < n → c.toBitVec.getLsbD i = false)
    (i : Nat) : (shift^[n] c).toBitVec.getLsbD i = c.toBitVec.getLsbD (n + i) := by
  induction n generalizing i with
  | zero => rw [Nat.zero_add]; rfl
  | succ n ih =>
    have ih := ih fun i hi => h i (by omega)
    have low : (shift^[n] c).toBitVec.getLsbD 0 = false := (ih 0).trans (h n (by omega))
    rw [Function.iterate_succ_apply', getLsbD_shift, low, ih, Bool.false_and, Bool.xor_false]
    congr 1
    omega

theorem step_eq (crc : UInt32) (byte : UInt8) : step crc byte = shift^[8] (crc ^^^ byte.toUInt32) := rfl

theorem update_injective (bytes : List UInt8) : Function.Injective (update · bytes) := by
  induction bytes with
  | nil => exact fun _ _ h => h
  | cons byte bytes ih =>
    intro a b h
    have h : step a byte = step b byte := ih h
    rw [step_eq, step_eq] at h
    have := shift_injective.iterate 8 h
    rwa [UInt32.xor_left_inj] at this

/-! ## Words of up to four bytes -/

/-- The bytes as one word, the first byte at its low end. -/
def word : List UInt8 → UInt32
  | [] => 0
  | byte :: bytes => byte.toUInt32 ^^^ (word bytes <<< 8)

theorem getLsbD_word_cons (byte : UInt8) (bytes : List UInt8) {i : Nat} (hi : i < 32) :
    (word (byte :: bytes)).toBitVec.getLsbD i =
      if i < 8 then byte.toBitVec.getLsbD i else (word bytes).toBitVec.getLsbD (i - 8) := by
  have high : ((word bytes) <<< 8).toBitVec.getLsbD i =
      (!decide (i < 8) && (word bytes).toBitVec.getLsbD (i - 8)) := by
    show ((word bytes).toBitVec <<< 8#32).getLsbD i = _
    rw [BitVec.shiftLeft_eq', BitVec.getLsbD_shiftLeft]
    simp [hi]
  have low : byte.toUInt32.toBitVec.getLsbD i = byte.toBitVec.getLsbD i := by simp [hi]
  rw [word, UInt32.toBitVec_xor, BitVec.getLsbD_xor, high, low]
  split
  · simp [*]
  · simp [*, BitVec.getLsbD_of_ge byte.toBitVec i (by omega)]

theorem getLsbD_word_of_le {bytes : List UInt8} {i : Nat} (h : 8 * bytes.length ≤ i) :
    (word bytes).toBitVec.getLsbD i = false := by
  induction bytes generalizing i with
  | nil => exact BitVec.getLsbD_zero
  | cons byte bytes ih =>
    rw [List.length_cons] at h
    by_cases hi : i < 32
    · rw [getLsbD_word_cons byte bytes hi, if_neg (by omega)]
      exact ih (by omega)
    · exact BitVec.getLsbD_of_ge _ _ (by omega)

/-- Eight shifts undo that a word of up to three bytes was moved up by one. -/
theorem iterate_shift_word {bytes : List UInt8} (h : bytes.length ≤ 3) :
    shift^[8] (word bytes <<< 8) = word bytes := by
  have moved : ∀ i, i < 32 → (word bytes <<< 8).toBitVec.getLsbD i =
      (word (0 :: bytes)).toBitVec.getLsbD i := fun i _ => by rw [word]; simp
  have low : ∀ i, i < 8 → (word bytes <<< 8).toBitVec.getLsbD i = false := by
    intro i hi
    rw [moved i (by omega), getLsbD_word_cons _ _ (by omega), if_pos hi]
    exact BitVec.getLsbD_zero
  apply eq_of_getLsbD_eq
  intro i hi
  rw [getLsbD_iterate_shift low]
  by_cases hi' : 8 + i < 32
  · rw [moved _ hi', getLsbD_word_cons _ _ hi', if_neg (by omega), Nat.add_sub_cancel_left]
  · rw [BitVec.getLsbD_of_ge _ _ (by omega), getLsbD_word_of_le (by omega)]

/-- Taking in up to four bytes is taking in their word at once. -/
theorem update_eq_word {bytes : List UInt8} (h : bytes.length ≤ 4) (crc : UInt32) :
    update crc bytes = shift^[8 * bytes.length] (crc ^^^ word bytes) := by
  induction bytes generalizing crc with
  | nil => exact (UInt32.xor_zero).symm
  | cons byte bytes ih =>
    rw [List.length_cons] at h
    calc update crc (byte :: bytes)
        = shift^[8 * bytes.length] (step crc byte ^^^ word bytes) := ih (by omega) _
      _ = shift^[8 * bytes.length] (shift^[8] (crc ^^^ word (byte :: bytes))) := by
        rw [word, ← UInt32.xor_assoc, iterate_shift_xor 8, iterate_shift_word (by omega), step_eq]
      _ = shift^[8 * (byte :: bytes).length] (crc ^^^ word (byte :: bytes)) := by
        rw [← Function.iterate_add_apply, List.length_cons, Nat.mul_add]

theorem eq_of_word_eq {xs ys : List UInt8} (hlength : xs.length = ys.length) (h : xs.length ≤ 4)
    (hword : word xs = word ys) : xs = ys := by
  induction xs generalizing ys with
  | nil => exact (List.eq_nil_of_length_eq_zero hlength.symm).symm
  | cons x xs ih =>
    obtain ⟨y, ys, rfl⟩ := List.exists_cons_of_length_eq_add_one hlength.symm
    simp only [List.length_cons] at h hlength
    have bits : ∀ i, (word (x :: xs)).toBitVec.getLsbD i = (word (y :: ys)).toBitVec.getLsbD i :=
      fun i => by rw [hword]
    have hx : x = y := by
      apply UInt8.toBitVec_inj.1
      apply BitVec.eq_of_getLsbD_eq
      intro i hi
      have := bits i
      rwa [getLsbD_word_cons _ _ (by omega), getLsbD_word_cons _ _ (by omega), if_pos hi, if_pos hi] at this
    have hxs : word xs = word ys := by
      apply eq_of_getLsbD_eq
      intro i hi
      by_cases hi' : i + 8 < 32
      · have := bits (i + 8)
        rwa [getLsbD_word_cons _ _ hi', getLsbD_word_cons _ _ hi', if_neg (by omega), if_neg (by omega),
          Nat.add_sub_cancel] at this
      · rw [getLsbD_word_of_le (by omega), getLsbD_word_of_le (by omega)]
    rw [hx, ih (by omega) (by omega) hxs]

/-- Up to four bytes that differ leave different states. -/
theorem update_ne {xs ys : List UInt8} (hlength : xs.length = ys.length) (h : xs.length ≤ 4) (hne : xs ≠ ys)
    (crc : UInt32) : update crc xs ≠ update crc ys := by
  intro heq
  rw [update_eq_word h, update_eq_word (hlength ▸ h), hlength] at heq
  have hword := shift_injective.iterate _ heq
  exact hne (eq_of_word_eq hlength h (UInt32.xor_right_inj _ |>.1 hword))

/-- Byte strings that differ in up to four bytes in a row have different CRCs. -/
theorem ofBytes_ne {xs ys : List UInt8} (hlength : xs.length = ys.length) (h : xs.length ≤ 4) (hne : xs ≠ ys)
    (before after : List UInt8) : ofBytes (before ++ (xs ++ after)) ≠ ofBytes (before ++ (ys ++ after)) := by
  intro heq
  unfold ofBytes at heq
  rw [UInt32.xor_left_inj, update_append, update_append, update_append, update_append] at heq
  exact update_ne hlength h hne _ (update_injective after heq)

end Crc32

end FlashVolume
