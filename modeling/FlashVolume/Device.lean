/-
Devices, as seen by someone who only reads them. A handle has a size and answers positioned reads;
a device is a handle that further handles can be opened from, one for each worker. Reads are exact: a
range is delivered whole or not at all. Besides plain byte strings there are large devices given by a
few pieces, and devices on which some byte ranges cannot be read.
-/

namespace FlashVolume

/-- Why a device did not deliver. -/
inductive ReadError
  | pastEnd (offset length size : Nat)
  | pastSparseEnd (offset : Nat)
  | media (offset : Nat)
  | reopen
  | missing
deriving DecidableEq

def ReadError.message : ReadError → String
  | pastEnd offset length size =>
    s!"read of {length} bytes at {offset} crosses device end ({size} bytes)"
  | pastSparseEnd offset => s!"sparse read past end at {offset}"
  | media offset => s!"media error at {offset}"
  | reopen => "cannot reopen"
  | missing => "No such file or directory (os error 2)"

/-- Something to read from: its size in bytes, and the `length` bytes at an offset. -/
structure Handle where
  size : Nat
  read : (offset length : Nat) → Except ReadError (List UInt8)

/-- A handle, and what one gets when opening another one onto the same device. -/
structure Device where
  handle : Handle
  reopened : Except ReadError Handle

namespace Handle

/-- Read from a byte string; a range that crosses its end is refused. -/
def ofBytes (bytes : ByteArray) : Handle where
  size := bytes.size
  read offset length :=
    if offset + length ≤ bytes.size then .ok (bytes.extract offset (offset + length)).data.toList
    else .error (.pastEnd offset length bytes.size)

/-- Refuse every read that touches one of the ranges `start ≤ i < stop`. A read beyond the 64-bit
positions counts as ending at the last of them. -/
def failing (ranges : List (Nat × Nat)) (handle : Handle) : Handle where
  size := handle.size
  read offset length :=
    if ranges.any (fun (start, stop) =>
        offset < stop && start < min (offset + length) (UInt64.size - 1)) then
      .error (.media offset)
    else
      handle.read offset length

/-- Bytes that lie at some offset of a sparse device. -/
structure Piece where
  offset : Nat
  bytes : ByteArray

/-- The byte of the last piece that covers a position, zero where none does. -/
def byteAt (pieces : List Piece) (position : Nat) : UInt8 :=
  pieces.foldl
    (fun byte piece =>
      if h : piece.offset ≤ position ∧ position - piece.offset < piece.bytes.size then
        piece.bytes.get (position - piece.offset) h.2
      else
        byte)
    0

/-- Read from `size` zero bytes with pieces laid over them. -/
def sparse (size : Nat) (pieces : List Piece) : Handle where
  size := size
  read offset length :=
    if offset + length ≤ size then
      .ok ((List.range length).map fun i => byteAt pieces (offset + i))
    else
      .error (.pastSparseEnd offset)

end Handle

namespace Device

/-- A device whose further handles read like the first one. -/
def ofHandle (handle : Handle) : Device := ⟨handle, .ok handle⟩

/-- A device onto a byte string. -/
def ofBytes (bytes : ByteArray) : Device := ofHandle (.ofBytes bytes)

/-- Refuse every read that touches one of the ranges, through any handle. -/
def failing (ranges : List (Nat × Nat)) (device : Device) : Device where
  handle := device.handle.failing ranges
  reopened := device.reopened.map (·.failing ranges)

/-- A device that no further handle can be opened from. -/
def single (device : Device) : Device := { device with reopened := .error .reopen }

end Device

end FlashVolume
