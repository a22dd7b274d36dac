/-
The IEEE CRC-32 of a byte string: reflected polynomial `0xEDB88320`, all-ones start, complemented
end. The state runs over the bytes by a left fold, so the value of a concatenation continues the
value of its first part.
-/

namespace FlashVolume.Crc32

/-- One bit of polynomial division. -/
def shift (crc : UInt32) : UInt32 :=
  if crc &&& 1 = 1 then (crc >>> 1) ^^^ 0xEDB88320 else crc >>> 1

/-- The state after one more byte. -/
def step (crc : UInt32) (byte : UInt8) : UInt32 :=
  let crc := crc ^^^ byte.toUInt32
  shift (shift (shift (shift (shift (shift (shift (shift crc)))))))

/-- The state after more bytes. -/
def update (crc : UInt32) (bytes : List UInt8) : UInt32 := bytes.foldl step crc

/-- The CRC-32 of a byte string. -/
def ofBytes (bytes : List UInt8) : UInt32 := update 0xFFFFFFFF bytes ^^^ 0xFFFFFFFF

theorem update_append (crc : UInt32) (xs ys : List UInt8) :
    update crc (xs ++ ys) = update (update crc xs) ys := by
  simp [update, List.foldl_append]

end FlashVolume.Crc32
