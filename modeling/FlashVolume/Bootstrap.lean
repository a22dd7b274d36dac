/-
The bootstrap: any trusted segment header, found before the geometry is known. With nothing but an
assumed erase size to go by, a device is probed behind the boot record, at its very start, and then
at ever larger steps of one, two, four, … erase blocks, so that a large device takes few reads.
-/
import FlashVolume.Geometry
import FlashVolume.Outcome
import FlashVolume.Record.SegmentHeader

namespace FlashVolume

/-- A segment header, where it was found, and which log that is. -/
structure Bootstrap where
  offset : Nat
  peb : Nat
  page : Nat
  header : SegmentHeader
deriving DecidableEq

namespace Bootstrap

/-! ## Probes -/

/-- The offset probed after `offset`, which was the probe with number `probed`. Steps and offsets
that do not fit in 64 bits end the probing. -/
def nextProbe? (eraseSize probed offset : Nat) : Option Nat :=
  if probed = 0 then some 0
  else
    let step := eraseSize <<< (probed - 1)
    if probed ≤ 64 ∧ step < UInt64.size ∧ offset + step < UInt64.size then some (offset + step)
    else none

theorem probed_le_of_nextProbe? {eraseSize probed offset next : Nat}
    (h : nextProbe? eraseSize probed offset = some next) : probed ≤ 64 := by
  unfold nextProbe? at h
  split at h
  · omega
  · simp only at h
    split at h
    · omega
    · cases h

/-- The offsets from `offset`, the probe with number `probed`, on, as long as they lie on the
device. -/
def probesFrom (eraseSize deviceSize probed offset : Nat) : List Nat :=
  if offset < deviceSize then
    match _h : nextProbe? eraseSize probed offset with
    | some next => offset :: probesFrom eraseSize deviceSize (probed + 1) next
    | none => [offset]
  else
    []
termination_by 65 - probed
decreasing_by
  have := probed_le_of_nextProbe? _h
  omega

/-- The offsets probed on a device, in order. -/
def probes (eraseSize deviceSize : Nat) : List Nat :=
  probesFrom eraseSize deviceSize 0 bootRecordSize

/-! ## Search -/

/-- The first trusted header among the probes, up to the first one the device has no room for. -/
def search (handle : Handle) (eraseSize : Nat) : (probes : List Nat) → Outcome (Option Bootstrap)
  | [] => .ok none
  | offset :: rest =>
    match word64 (offset + SegmentHeader.format.size) with
    | .error stop => .error stop
    | .ok stop =>
      -- Offsets only grow, so the first header that does not fit ends the search.
      if handle.size < stop then .ok none
      else
        match quotient offset eraseSize with
        | .error stop => .error stop
        | .ok peb =>
          match handle.read offset SegmentHeader.format.size with
          | .error cause => .error (.fault (.read peb offset cause))
          | .ok bytes =>
            match Sealed.parse? bytes with
            | some header => .ok (some ⟨offset, peb, 0, header⟩)
            | none => search handle eraseSize rest

/-- Any trusted segment header, assuming an erase size. -/
def find? (handle : Handle) (eraseSize : Nat) : Outcome (Option Bootstrap) :=
  search handle eraseSize (probes eraseSize handle.size)

/-- The log the header opens, now that the geometry is known. The erase block it was found in was
counted in units of a guess. -/
def relocate (b : Bootstrap) (geometry : Geometry) : Outcome Bootstrap :=
  match quotient b.offset geometry.eraseSize with
  | .error stop => .error stop
  | .ok peb =>
    let within := b.offset % geometry.eraseSize
    if peb = 0 ∧ within = bootRecordSize then .ok { b with peb, page := 0 }
    else
      match quotient within geometry.pageSize with
      | .error stop => .error stop
      | .ok page => .ok { b with peb, page }

end Bootstrap

end FlashVolume
