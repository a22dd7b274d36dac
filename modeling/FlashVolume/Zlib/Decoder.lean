/-
Decoding step by step. A decoder starts on a byte string; each of its steps takes some bits and may put out
some bytes, until one of them finds a fault or the end of the stream. `Decoder.run` repeats the step.

Input is taken a chunk at a time and output is produced a window at a time: whoever asks for some
bytes has everything decoded up to the end of the chunk or of the window that the last of them lies
in. A fault found on the way fails the request even if enough bytes came before it, while a stream
that merely breaks off fails it only when bytes are missing.
-/
import FlashVolume.Zlib.BitStream

namespace FlashVolume.Zlib

variable {σ : Type}

/-- The outcome of a step that found no fault. -/
inductive Progress (σ : Type)
  | more (state : σ)
  | finished (state : σ)

/-- How streams are decoded: the state to start in, what a step does, and what a state holds, which is
all that was put out so far and a number of bits that are left. -/
structure Decoder (σ : Type) where
  start : List UInt8 → σ
  step : σ → Except Fault (Progress σ)
  output : σ → Array UInt8
  remaining : σ → Nat

/-- How a run that found no fault ended. -/
inductive Ending (σ : Type)
  | finished (state : σ)
  | cut (state : σ)

/-- The state at the end of a run. -/
def Ending.state : Ending σ → σ
  | finished state | cut state => state

namespace Decoder

variable (decoder : Decoder σ)

/-! ## Whole streams -/

/-- Step until the stream ends, a fault is found, or the output exceeds `limit` bytes. -/
def run (limit : Option Nat) : (steps : Nat) → σ → Except Fault (Ending σ)
  | 0, _ => .error .incomplete
  | steps + 1, state =>
    if limit.any (· < (decoder.output state).size) then .ok (.cut state)
    else
      match decoder.step state with
      | .error cause => .error cause
      | .ok (.finished state) => .ok (.finished state)
      | .ok (.more state) => run limit steps state

/-- Decode a stream until there are more than `limit` bytes, or to its end. Every step but the last
takes at least one bit, which bounds their number. -/
def decodeTo (limit : Option Nat) (payload : List UInt8) : Except Fault (Ending σ) :=
  decoder.run limit (8 * payload.length + 1) (decoder.start payload)

/-- All a stream decodes to; what follows its end is ignored. -/
def decode (payload : List UInt8) : Except Fault (List UInt8) :=
  match decoder.decodeTo none payload with
  | .error cause => .error cause
  | .ok ending => .ok (decoder.output ending.state).toList

/-! ## The first bytes of a stream -/

/-- The unit in which output is produced. -/
def windowSize : Nat := 32768

/-- The unit in which input is taken. -/
def chunkSize : Nat := 32768

/-- The most bytes that are asked for at once as the last ones. -/
def lastRequest : Nat := 32

/-- The next multiple of `unit`. -/
def roundUp (unit n : Nat) : Nat := (n + unit - 1) / unit * unit

-- What is looked at ahead of an answer is irreducible, so that unfolding the answer does not go and compute it.

/-- The end of the window that the last of `count` bytes lies in. -/
@[irreducible]
def horizon (count : Nat) : Nat := roundUp windowSize count

/-- The chunks of a stream that have been begun. -/
@[irreducible]
def chunksRead (payload : List UInt8) (state : σ) : List UInt8 :=
  payload.take (roundUp chunkSize (payload.length - decoder.remaining state / 8))

/-- The last of `count` bytes are lost when the input is used up where their window begins: what a
few left-over bits and an unfinished copy still decode to is handed over to one request only, and
more than `lastRequest` bytes take two. The first window begins with the input untouched. -/
@[irreducible]
def losesTail (count : Nat) (payload : List UInt8) : Bool :=
  let start := horizon count - windowSize
  0 < start && lastRequest < count - start &&
    match decoder.decodeTo (some start) payload with
    | .ok ending => decoder.remaining ending.state < 8
    | .error _ => false

/-- The answer to whoever asks for `count` bytes and there are enough, given what is decoded ahead and
whether the last of them are lost. Corruption counts wherever it lies in what is decoded ahead. -/
def answer (count : Nat) (output : Array UInt8) (ahead : Except Fault (Ending σ)) (loses : Bool) :
    Except Fault (List UInt8) :=
  match ahead with
  | .error .corrupt => .error .corrupt
  | _ => if loses then .error .incomplete else .ok (output.toList.take count)

/-- The first `count` bytes a stream decodes to, or all of them if it ends before. -/
def decodeAtMost (count : Nat) (payload : List UInt8) : Except Fault (List UInt8) :=
  if count = 0 then .ok []
  else
    match decoder.decodeTo (some (count - 1)) payload with
    | .error cause => .error cause
    | .ok (.finished state) => .ok (decoder.output state).toList
    | .ok (.cut state) =>
      answer count (decoder.output state)
        (decoder.decodeTo (some (horizon count)) (decoder.chunksRead payload state))
        (decoder.losesTail count payload)

theorem answer_eq_ok_iff {count : Nat} {output : Array UInt8} {ahead : Except Fault (Ending σ)} {loses : Bool}
    {bytes : List UInt8} : answer count output ahead loses = .ok bytes ↔
      ahead ≠ .error .corrupt ∧ loses = false ∧ output.toList.take count = bytes := by
  unfold answer
  rcases ahead with (_ | _) | ending
  · exact iff_of_false nofun fun h => h.1 rfl
  · cases loses <;> simp
  · cases loses <;> simp

theorem decodeAtMost_eq {count : Nat} (hcount : count ≠ 0) (payload : List UInt8) :
    decoder.decodeAtMost count payload =
      match decoder.decodeTo (some (count - 1)) payload with
      | .error cause => .error cause
      | .ok (.finished state) => .ok (decoder.output state).toList
      | .ok (.cut state) =>
        answer count (decoder.output state)
          (decoder.decodeTo (some (horizon count)) (decoder.chunksRead payload state))
          (decoder.losesTail count payload) :=
  if_neg hcount

end Decoder

end FlashVolume.Zlib
