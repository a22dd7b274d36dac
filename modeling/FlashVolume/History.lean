/-
The history of a device: the creation points found on it, in ascending order of creation time. The
newest of them decides what a device holds now.
-/
import FlashVolume.CreationPoint

namespace FlashVolume

/-- Creation points ordered by creation time, no two with the same one. -/
structure History where
  points : List CreationPoint
deriving DecidableEq

namespace History

def empty : History := ⟨[]⟩

/-- Change the point with this creation time, which is put in its place first if it is missing. -/
def updateIn (createTime : UInt64) (change : CreationPoint → CreationPoint) :
    List CreationPoint → List CreationPoint
  | [] => [change (.fresh createTime)]
  | point :: rest =>
    if point.createTime = createTime then change point :: rest
    else if createTime < point.createTime then change (.fresh createTime) :: point :: rest
    else point :: updateIn createTime change rest

/-- Change the point with this creation time, a fresh one if there is none. -/
def update (h : History) (createTime : UInt64) (change : CreationPoint → CreationPoint) : History :=
  ⟨updateIn createTime change h.points⟩

/-- Have a point with this creation time. -/
def insert (h : History) (createTime : UInt64) : History := h.update createTime id

/-- The point with this creation time. -/
def get? (h : History) (createTime : UInt64) : Option CreationPoint :=
  h.points.find? (·.createTime == createTime)

/-- The newest point. -/
def latest? (h : History) : Option CreationPoint := h.points.getLast?

/-- Take in scanned segments, each under the creation time of its volume. -/
def merge (h : History) (geometry : Geometry) (shards : List (List ScannedSegment)) : History :=
  shards.flatten.foldl
    (fun h item => h.update item.volumeCreateTime fun point =>
      (point.withGeometry geometry).record item)
    h

end History

end FlashVolume
