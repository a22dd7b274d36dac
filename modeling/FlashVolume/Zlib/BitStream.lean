/-
Bits of a compressed byte string, the least significant bit of each byte first. A reader is a
position; reading past the last bit is told apart from reading something wrong.
-/

namespace FlashVolume.Zlib

/-- Why a compressed string does not decode. -/
inductive Fault
  | corrupt
  | incomplete
deriving DecidableEq

def Fault.message : Fault → String
  | corrupt => "corrupt deflate stream"
  | incomplete => "incomplete deflate stream"

/-- A position, counted in bits, in a byte string. -/
structure BitStream where
  bytes : ByteArray
  position : Nat

namespace BitStream

/-- The start of a byte string. -/
def ofBytes (bytes : List UInt8) : BitStream := ⟨⟨bytes.toArray⟩, 0⟩

/-- Bits not yet read. -/
def remaining (s : BitStream) : Nat := 8 * s.bytes.size - s.position

/-- The next bit. -/
def bit (s : BitStream) : Except Fault (Bool × BitStream) :=
  if h : s.position / 8 < s.bytes.size then
    .ok (s.bytes[s.position / 8].toNat.testBit (s.position % 8),
      { s with position := s.position + 1 })
  else
    .error .incomplete

/-- The next `count` bits as a number, its low bit first. -/
def bits (s : BitStream) : (count : Nat) → Except Fault (Nat × BitStream)
  | 0 => .ok (0, s)
  | count + 1 =>
    match s.bits count with
    | .error fault => .error fault
    | .ok (value, s) =>
      match s.bit with
      | .error fault => .error fault
      | .ok (bit, s) => .ok (if bit then value + 1 <<< count else value, s)

/-- Skip to the next whole byte. -/
def align (s : BitStream) : BitStream := { s with position := (s.position + 7) / 8 * 8 }

/-- Reading a bit leaves one bit less. -/
theorem remaining_of_bit {s t : BitStream} {b : Bool} (h : s.bit = .ok (b, t)) :
    t.remaining + 1 = s.remaining := by
  unfold bit at h
  split at h
  · cases h
    simp only [remaining]
    omega
  · cases h

/-- Reading `count` bits leaves `count` bits less. -/
theorem remaining_of_bits {s t : BitStream} {count value : Nat}
    (h : s.bits count = .ok (value, t)) : t.remaining + count = s.remaining := by
  induction count generalizing t value with
  | zero => cases h; rfl
  | succ count ih =>
    unfold bits at h
    split at h
    · cases h
    · rename_i v u hu
      split at h
      · cases h
      · rename_i b w hb
        cases h
        have := ih hu
        have := remaining_of_bit hb
        omega

theorem remaining_align_le (s : BitStream) : s.align.remaining ≤ s.remaining := by
  simp only [remaining, align]
  omega

end BitStream

end FlashVolume.Zlib
