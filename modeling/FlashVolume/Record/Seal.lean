/-
Checksummed records. A record of one of the sealed kinds carries its signature and, right behind it,
a check: how many of its leading bytes are covered and their CRC-32, the checksum field itself
counting as zero. `isValid` is the trust gate of every header and footer, `sealWhole` makes a record
pass it.
-/
import FlashVolume.Crc32
import FlashVolume.Record.Signature

namespace FlashVolume

/-- How many bytes of a record are covered, by what, and with which result. -/
structure Check where
  bytes : UInt16
  flags : UInt16
  checksum : UInt32
deriving DecidableEq, Inhabited

namespace Check

/-- The flag that announces a CRC-32. -/
def crc32Flag : UInt16 := 1

def format : Format Check :=
  (Format.pair .u16 <| .pair .u16 .u32).map
    (fun (bytes, flags, checksum) => ⟨bytes, flags, checksum⟩)
    (fun c => (c.bytes, c.flags, c.checksum))

theorem exact_format : format.Exact :=
  (Format.exact_u16.pair <| Format.exact_u16.pair Format.exact_u32).map
    (fun _ => rfl) (fun _ => rfl)

/-- Where the checksum field of a record starts, behind signature, length and flags. -/
def checksumOffset : Nat := 12

/-- Where the checksum field ends. -/
def checksumEnd : Nat := 16

/-- The CRC-32 of a record whose checksum field counts as zero; a record that ends before the field
does has none. -/
def checksumOf? (record : List UInt8) : Option UInt32 :=
  if checksumEnd ≤ record.length then
    some (Crc32.ofBytes (record.take checksumOffset ++ [0, 0, 0, 0] ++ record.drop checksumEnd))
  else
    none

/-- The check holds on the bytes of its record. -/
def verify (check : Check) (record : List UInt8) : Bool :=
  check.flags &&& crc32Flag != 0 &&
    check.bytes.toNat ≤ record.length &&
    checksumOf? (record.take check.bytes.toNat) == some check.checksum

end Check

/-- A kind of record that carries its own signature and check. -/
class Sealed (α : Type) where
  /-- The name of the kind in messages. -/
  title : String
  key : UInt16
  format : Format α
  signature : α → Signature
  check : α → Check
  withCheck : α → Check → α

namespace Sealed

variable {α : Type} [Sealed α]

/-- The bytes of the whole record. -/
def encode (record : α) : List UInt8 := format.encode record

/-- The signature is that of the kind. -/
def isSigned (record : α) : Bool := (signature record).isValid (key α)

/-- The record is signed and its checksum holds. -/
def isValid (record : α) : Bool := isSigned record && (check record).verify (encode record)

/-- Cover the first `bytes` bytes with the given flags. The old checksum stays when the range cannot
hold the checksum field or exceeds the record. -/
def sealRange (record : α) (bytes flags : UInt16) : α :=
  let record := withCheck record { check record with bytes, flags }
  if bytes.toNat ≤ (format : Format α).size then
    match Check.checksumOf? ((encode record).take bytes.toNat) with
    | some checksum => withCheck record { check record with checksum }
    | none => record
  else
    record

/-- Cover the whole record with a CRC-32. -/
def sealWhole (record : α) : α :=
  sealRange record (format : Format α).size.toUInt16 ((check record).flags ||| Check.crc32Flag)

/-- Bytes too few to hold a record. -/
structure Truncated where
  title : String
  expected : Nat
  actual : Nat
deriving DecidableEq

def Truncated.message (t : Truncated) : String :=
  s!"truncated {t.title}: need {t.expected} bytes, have {t.actual}"

/-- The record at the front of `bytes`, trusted or not. -/
def decode (bytes : List UInt8) : Except Truncated α :=
  match (format : Format α).read? bytes with
  | some record => .ok record
  | none => .error ⟨title α, (format : Format α).size, bytes.length⟩

/-- The record at the front of `bytes` if it is to be trusted. -/
def parse? (bytes : List UInt8) : Option α :=
  match (format : Format α).read? bytes with
  | some record => if isValid record then some record else none
  | none => none

end Sealed

end FlashVolume
