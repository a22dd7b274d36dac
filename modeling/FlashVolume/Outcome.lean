/-
How an operation on a volume can go wrong. A fault is something a report can name: an unreadable
range, a corrupt structure, a value out of range. A crash is not: dividing by a size of zero, or a
position beyond the machine's words, ends the run without a report.
-/
import FlashVolume.Device
import FlashVolume.Region
import FlashVolume.Zlib.BitStream

namespace FlashVolume

/-- What a report gives as the reason why it is not complete. -/
inductive Fault
  | read (peb offset : Nat) (cause : ReadError)
  | device (cause : ReadError)
  | notPowerOfTwo (what : String) (value : Nat)
  | impossibleGeometry (page erase segment : Nat)
  | tooManyFragments (limit : Nat)
  | logSize (logPages pagesPerPeb : Nat)
  | fragmentSequence (index id : Nat)
  | fragmentRange (id start stop : Nat)
  | fragmentLength (id actual expected : Nat)
  | lzoCache
  | region (cause : Region.Error)
  | inflate (cause : Zlib.Fault)
deriving DecidableEq

/-- The text of a fault in a report. -/
def Fault.message : Fault → String
  | read peb offset cause =>
    s!"I/O error reading PEB {peb} at offset {offset}: {cause.message}"
  | device cause => s!"device: {cause.message}"
  | notPowerOfTwo what value => s!"{what} out of range: {value} is not a power of two"
  | impossibleGeometry page erase segment =>
    s!"volume geometry out of range: page {page}, erase block {erase}, segment {segment}"
  | tooManyFragments limit => s!"mapping table cache out of range: more than {limit} fragments"
  | logSize logPages pagesPerPeb =>
    s!"corrupted log size: {logPages} pages in a PEB of {pagesPerPeb} pages"
  | fragmentSequence index id =>
    s!"corrupted mapping table cache: fragment {index} has sequence id {id}"
  | fragmentRange id start stop =>
    s!"corrupted mapping table cache: fragment {id} covers LEBs {start}..={stop}"
  | fragmentLength id actual expected =>
    s!"corrupted mapping table cache: fragment {id} decodes to {actual} bytes instead of {expected}"
  | lzoCache => "unsupported: LZO-compressed mapping table cache"
  | region cause => cause.message
  | inflate cause => s!"decompression failed: {cause.message}"

/-- What ends a run without a report. -/
inductive Crash
  | divisionByZero
  | overflow
deriving DecidableEq

/-- Why an operation has no result. -/
inductive Stop
  | fault (cause : Fault)
  | crash (cause : Crash)
deriving DecidableEq

/-- The result of an operation on a volume. -/
abbrev Outcome (α : Type) := Except Stop α

/-- How many times `d` goes into `n`. -/
def quotient (n d : Nat) : Outcome Nat :=
  if d = 0 then .error (.crash .divisionByZero) else .ok (n / d)

/-- A position that has to fit in 64 bits. -/
-- Irreducible, so that unfolding a caller does not count up to the limit.
@[irreducible]
def word64 (n : Nat) : Outcome Nat :=
  if n < UInt64.size then .ok n else .error (.crash .overflow)

/-- A page number that has to fit in 32 bits. -/
def word32 (n : Nat) : Outcome Nat :=
  if n < UInt32.size then .ok n else .error (.crash .overflow)

theorem quotient_eq_ok {n d q : Nat} : quotient n d = .ok q ↔ d ≠ 0 ∧ n / d = q := by
  unfold quotient; split <;> simp [*]

theorem word64_eq_ok {n m : Nat} : word64 n = .ok m ↔ n < UInt64.size ∧ n = m := by
  unfold word64; split <;> simp <;> omega

theorem word32_eq_ok {n m : Nat} : word32 n = .ok m ↔ n < UInt32.size ∧ n = m := by
  unfold word32; split <;> simp <;> omega

theorem word64_eq_error {n : Nat} {stop : Stop} :
    word64 n = .error stop ↔ UInt64.size ≤ n ∧ stop = .crash .overflow := by
  unfold word64; split <;> simp [eq_comm] <;> omega

theorem word32_eq_error {n : Nat} {stop : Stop} :
    word32 n = .error stop ↔ UInt32.size ≤ n ∧ stop = .crash .overflow := by
  unfold word32; split <;> simp [eq_comm] <;> omega

end FlashVolume
