/-
Detection: find a bootstrap header, learn the geometry from it, follow the trail, take a census where
the trail ends early or one is asked for, and judge by the newest creation point. A fault becomes a
report of its own; only a crash leaves no report.
-/
import FlashVolume.Detection.Census
import FlashVolume.Detection.Options
import FlashVolume.Detection.Trail
import FlashVolume.History

namespace FlashVolume

/-! ## Report -/

/-- What a device holds. -/
inductive DetectionState
  | unknown
  | noFilesystem
  | hasFilesystem
  | hasSomeMetadata
  | failed
deriving DecidableEq

namespace DetectionState

def all : List DetectionState := [unknown, noFilesystem, hasFilesystem, hasSomeMetadata, failed]

/-- The identifier of the state in reports. -/
def name : DetectionState → String
  | unknown => "Unknown"
  | noFilesystem => "NoFilesystem"
  | hasFilesystem => "HasFilesystem"
  | hasSomeMetadata => "HasSomeMetadata"
  | failed => "FailedDetect"

/-- The state in running text. -/
def text : DetectionState → String
  | unknown => "unknown"
  | noFilesystem => "no filesystem"
  | hasFilesystem => "filesystem found"
  | hasSomeMetadata => "partial metadata found"
  | failed => "detection failed"

/-- The state of a device whose newest volume has these structures. -/
def classify (found : Inventory) : DetectionState :=
  if found = .empty then noFilesystem
  else if found = .complete then hasFilesystem
  else hasSomeMetadata

end DetectionState

/-- The result of a detection run. -/
structure Detection where
  state : DetectionState
  geometry : Option Geometry
  history : History
  failure : Option String
deriving DecidableEq

/-- What a report says about a detection run. -/
structure DetectionSummary where
  state : DetectionState
  geometry : Option Geometry
  failure : Option String
  points : List PointSummary
deriving DecidableEq

namespace Detection

/-- Nothing that looks like a volume. -/
def nothing : Detection := ⟨.noFilesystem, none, .empty, none⟩

/-- Detection could not complete. -/
def ofFault (cause : Fault) : Detection := ⟨.failed, none, .empty, some cause.message⟩

/-- What was found of the newest volume. -/
def found (d : Detection) : Inventory := (d.history.latest?.map (·.found)).getD .empty

def summary (d : Detection) : DetectionSummary :=
  ⟨d.state, d.geometry, d.failure, d.history.points.map (·.summary)⟩

end Detection

/-! ## Run -/

namespace Device

/-- What the trail and, if need be, the census find on a volume. -/
def explore (device : Device) (options : DetectOptions) (trailhead : Trailhead) : Outcome Detection :=
  let geometry := trailhead.volume.geometry
  let fresh := { CreationPoint.fresh trailhead.bootstrap.header.createTime with
    geometry := some geometry }
  match trailhead.follow fresh with
  | (_, .error stop) => .error stop
  | (point, .ok search) =>
    let history : History := ⟨[point]⟩
    let conclude (history : History) : Detection :=
      let found := (history.latest?.map (·.found)).getD .empty
      ⟨.classify found, some geometry, history, none⟩
    -- The trail keeps what it found even when it ends early; the census adds to it.
    if options.force || search == .notFound then
      match trailhead.volume.scan device.reopened options.workers with
      | .error stop => .error stop
      | .ok shards => .ok (conclude (history.merge geometry shards))
    else
      .ok (conclude history)

/-- Detect, faults not yet turned into a report. -/
def tryDetect (device : Device) (options : DetectOptions) : Outcome Detection :=
  match Bootstrap.find? device.handle options.scanEraseSize with
  | .error stop => .error stop
  | .ok none => .ok .nothing
  | .ok (some bootstrap) =>
    match options.resolveGeometry bootstrap.header.volume.geometry? with
    | .error cause => .error (.fault cause)
    | .ok geometry =>
      match bootstrap.relocate geometry with
      | .error stop => .error stop
      | .ok bootstrap => device.explore options ⟨⟨device.handle, geometry⟩, bootstrap⟩

/-- Detect what a device holds. -/
def detect (device : Device) (options : DetectOptions) : Except Crash Detection :=
  match device.tryDetect options with
  | .ok detection => .ok detection
  | .error (.fault cause) => .ok (.ofFault cause)
  | .error (.crash cause) => .error cause

end Device

end FlashVolume
