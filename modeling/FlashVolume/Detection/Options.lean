/-
Options of a detection run, and the geometry they lead to. A configured size wins over the one a
volume declares; where neither is known, pages have 4 KiB, erase blocks 8 MiB, and a segment is one
erase block. The result has to be a geometry a volume may have.
-/
import FlashVolume.Geometry
import FlashVolume.Outcome

namespace FlashVolume

/-- What a detection run was asked for. -/
structure DetectOptions where
  force : Bool
  workers : Nat
  pageSize : Option Nat
  eraseSize : Option Nat
  segmentSize : Option Nat
deriving DecidableEq

namespace DetectOptions

def defaultPageSize : Nat := 4096

def defaultEraseSize : Nat := 8388608

/-- The erase size the bootstrap search goes by. -/
def scanEraseSize (o : DetectOptions) : Nat := o.eraseSize.getD defaultEraseSize

/-- The binary logarithm of a power of two. -/
def exactLog (what : String) (value : Nat) : Except Fault Nat :=
  if 1 <<< value.log2 = value then .ok value.log2 else .error (.notPowerOfTwo what value)

/-- The geometry to read a volume by that declares this one. -/
def resolveGeometry (o : DetectOptions) (declared : Option Geometry) : Except Fault Geometry := do
  let page := (o.pageSize.or (declared.map (·.pageSize))).getD defaultPageSize
  let erase := (o.eraseSize.or (declared.map (·.eraseSize))).getD defaultEraseSize
  let segment := (o.segmentSize.or (declared.map (·.segmentSize))).getD erase
  let logPage ← exactLog "page size" page
  let logErase ← exactLog "erase size" erase
  let logSegment ← exactLog "segment size" segment
  if logErase ≤ logSegment then
    match Geometry.ofLogs? logPage logErase logSegment (logSegment - logErase) with
    | some geometry => return geometry
    | none => throw (.impossibleGeometry page erase segment)
  throw (.impossibleGeometry page erase segment)

end DetectOptions

end FlashVolume
