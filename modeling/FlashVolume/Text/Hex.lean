/-
Bytes in hexadecimal, and the hyphenated form of a 16-byte universal identifier.
-/

namespace FlashVolume.Text.Hex

/-- The lower-case digit of a value below 16. -/
def digit (n : Nat) : Char :=
  if n < 10 then Char.ofNat (48 + n) else Char.ofNat (87 + n)

/-- Two digits for a byte, the high one first. -/
def ofByte (byte : UInt8) : List Char := [digit (byte.toNat / 16), digit (byte.toNat % 16)]

/-- Two digits for every byte. -/
def ofBytes (bytes : List UInt8) : String := String.ofList (bytes.flatMap ofByte)

/-- Eight, four, four, four and twelve digits, hyphens between them. -/
def uuid (bytes : List UInt8) : String :=
  let group (start count : Nat) := ofBytes ((bytes.drop start).take count)
  "-".intercalate [group 0 4, group 4 2, group 6 2, group 8 2, group 10 6]

end FlashVolume.Text.Hex
