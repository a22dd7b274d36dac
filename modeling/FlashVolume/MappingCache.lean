/-
The mapping cache: which physical erase block holds a logical one. Its area is a run of fragments,
each a header and a payload of packed pairs, plain or zlib-compressed; the run ends where no signed
header follows. Fragments are numbered from zero and there are at most sixteen of them.
-/
import FlashVolume.Outcome
import FlashVolume.Record.CacheHeader
import FlashVolume.Zlib.Inflate

namespace FlashVolume

/-- The pairs cached for the logical blocks `start ≤ leb ≤ stop`. -/
structure CacheFragment where
  sequenceId : UInt16
  start : UInt64
  stop : UInt64
  pairs : List LebPeb
deriving DecidableEq

namespace CacheFragment

/-- The fragment answers for this logical block. -/
def covers (f : CacheFragment) (leb : UInt64) : Bool := f.start ≤ leb && leb ≤ f.stop

/-- The physical block of the first pair with this logical block, if that pair is used. -/
def peb? (f : CacheFragment) (leb : UInt64) : Option Nat :=
  if f.covers leb then (f.pairs.find? (·.leb == leb)).bind (·.peb?) else none

end CacheFragment

/-- The fragments in the order of their numbers. -/
structure MappingCache where
  fragments : List CacheFragment
deriving DecidableEq

namespace MappingCache

/-- The most fragments a cache may have. -/
def maxFragments : Nat := 16

def isEmpty (c : MappingCache) : Bool := c.fragments.isEmpty

/-- Pairs of all fragments. -/
def itemsCount (c : MappingCache) : Nat := c.fragments.foldr (·.pairs.length + ·) 0

/-- The physical block of a logical one, from the first fragment covering it that knows one. -/
def peb? (c : MappingCache) (leb : UInt64) : Option Nat :=
  (c.fragments.filter (·.covers leb)).findSome? (·.peb? leb)

/-! ## Parsing -/

/-- A header that can be read lies within the area. -/
theorem size_le_of_read? {area : List UInt8} {offset : Nat} {header : CacheHeader}
    (h : CacheHeader.format.read? (area.drop offset) = some header) :
    offset + CacheHeader.format.size ≤ area.length := by
  have hs : (CacheHeader.format.decode (area.drop offset)).isSome = true := by
    cases hd : CacheHeader.format.decode (area.drop offset) with
    | none => simp [Format.read?, hd] at h
    | some _ => rfl
  have := (CacheHeader.exact_format.decode_isSome _).1 hs
  have := CacheHeader.size_format
  simp only [List.length_drop] at *
  omega

/-- The bytes a payload stands for. One byte more than declared is asked of a compressed payload, so
that one that goes on is noticed. -/
def decodePayload (header : CacheHeader) (payload : List UInt8) : Except Fault (List UInt8) :=
  if header.isLzo then .error .lzoCache
  else if header.isZlib then
    match Zlib.inflateAtMost (header.decodedSize + 1) payload with
    | .ok bytes => .ok bytes
    | .error cause => .error (.inflate cause)
  else .ok payload

/-- The payload of `length` bytes at `offset` of an area; an empty one lies nowhere. -/
def payload (area : List UInt8) (offset length : Nat) : Except Fault (List UInt8) :=
  if length = 0 then .ok []
  else
    match Region.within area.length offset length with
    | .error cause => .error (.region cause)
    | .ok region =>
      match region.slice area with
      | .error cause => .error (.region cause)
      | .ok bytes => .ok bytes

/-- The fragment behind a signed header, which starts `offset` bytes into the area and should have
the number `index`. -/
def parseFragment (area : List UInt8) (offset index : Nat) (header : CacheHeader) :
    Except Fault CacheFragment := do
  if maxFragments ≤ index then throw (.tooManyFragments maxFragments)
  let id := header.sequenceId.toNat
  if id ≠ index then throw (.fragmentSequence index id)
  if header.endLeb < header.startLeb then
    throw (.fragmentRange id header.startLeb.toNat header.endLeb.toNat)
  let stored ← payload area (offset + CacheHeader.format.size) header.bytesCount.toNat
  let bytes ← decodePayload header stored
  if bytes.length ≠ header.decodedSize then
    throw (.fragmentLength id bytes.length header.decodedSize)
  return ⟨header.sequenceId, header.startLeb, header.endLeb,
    LebPeb.format.readAll header.itemsCount.toNat bytes⟩

/-- The fragments from `offset` on, the next one having the number `index`. -/
def parseFrom (area : List UInt8) (offset index : Nat) : Except Fault (List CacheFragment) :=
  match _h : CacheHeader.format.read? (area.drop offset) with
  | none => .ok []
  | some header =>
    if header.isValid then
      match parseFragment area offset index header with
      | .error cause => .error cause
      | .ok fragment =>
        -- The payload was found to lie within the area, so the next header starts behind it.
        let next := offset + CacheHeader.format.size + header.bytesCount.toNat
        match parseFrom area next (index + 1) with
        | .error cause => .error cause
        | .ok fragments => .ok (fragment :: fragments)
    else
      .ok []
termination_by area.length - offset
decreasing_by
  have := size_le_of_read? _h
  have := CacheHeader.size_format
  omega

/-- The cache held by an area. -/
def parse (area : List UInt8) : Except Fault MappingCache :=
  match parseFrom area 0 0 with
  | .ok fragments => .ok ⟨fragments⟩
  | .error cause => .error cause

end MappingCache

end FlashVolume
