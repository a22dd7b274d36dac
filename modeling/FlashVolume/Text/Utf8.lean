/-
UTF-8 read without ever failing. Bytes are taken one at a time; a sequence that cannot be continued
becomes one replacement character and the byte that broke it is read afresh, so every maximal piece
of a broken sequence is replaced once.
-/

namespace FlashVolume.Text.Utf8

/-- The character that stands for broken input. -/
def replacement : Char := '\uFFFD'

/-- A sequence begun and not yet complete: its value so far, how many bytes are missing, and the
range the next of them has to be in. -/
structure Pending where
  value : Nat
  missing : Nat
  low : UInt8
  high : UInt8

/-- Read a byte outside any sequence: the characters it gives and the sequence it begins. -/
def start (byte : UInt8) : List Char × Option Pending :=
  let begins (value missing : Nat) (low high : UInt8) : List Char × Option Pending :=
    ([], some ⟨value, missing, low, high⟩)
  if byte < 0x80 then ([Char.ofNat byte.toNat], none)
  else if byte < 0xC2 then ([replacement], none)
  else if byte < 0xE0 then begins (byte.toNat % 32) 1 0x80 0xBF
  else if byte == 0xE0 then begins 0 2 0xA0 0xBF
  else if byte == 0xED then begins 13 2 0x80 0x9F
  else if byte < 0xF0 then begins (byte.toNat % 16) 2 0x80 0xBF
  else if byte == 0xF0 then begins 0 3 0x90 0xBF
  else if byte < 0xF4 then begins (byte.toNat % 8) 3 0x80 0xBF
  else if byte == 0xF4 then begins 4 3 0x80 0x8F
  else ([replacement], none)

/-- Read a byte, possibly inside a sequence. -/
def feed (pending : Option Pending) (byte : UInt8) : List Char × Option Pending :=
  match pending with
  | none => start byte
  | some p =>
    if p.low ≤ byte && byte ≤ p.high then
      let value := p.value * 64 + byte.toNat % 64
      if p.missing ≤ 1 then ([Char.ofNat value], none)
      else ([], some ⟨value, p.missing - 1, 0x80, 0xBF⟩)
    else
      let (chars, pending) := start byte
      (replacement :: chars, pending)

/-- The characters of the bytes still to come. -/
def decodeFrom (pending : Option Pending) : List UInt8 → List Char
  | [] => if pending.isSome then [replacement] else []
  | byte :: rest =>
    let (chars, pending) := feed pending byte
    chars ++ decodeFrom pending rest

/-- The text of a byte string. -/
def decode (bytes : List UInt8) : String := String.ofList (decodeFrom none bytes)

end FlashVolume.Text.Utf8
