/-
The check: run inspections one after the other over what detection found, collect the structures they
reject, and classify the health of the volume. The first inspection that fails ends the run; what was
rejected before it stays in the report.
-/
import FlashVolume.Check.Inspection

namespace FlashVolume

/-- The health of a volume. -/
inductive CheckState
  | healthy
  | uncleanUnmount
  | slightlyCorrupted
  | heavilyCorrupted
  | completelyDestroyed
  | failed
deriving DecidableEq

namespace CheckState

/-- The volume can be mounted as it is. -/
def isClean : CheckState → Bool
  | healthy | uncleanUnmount => true
  | _ => false

/-- The identifier of the state in reports. -/
def name : CheckState → String
  | healthy => "Healthy"
  | uncleanUnmount => "UncleanUnmount"
  | slightlyCorrupted => "SlightlyCorrupted"
  | heavilyCorrupted => "HeavilyCorrupted"
  | completelyDestroyed => "CompletelyDestroyed"
  | failed => "CheckFailed"

/-- The state in running text. -/
def text : CheckState → String
  | healthy => "healthy"
  | uncleanUnmount => "unclean unmount"
  | slightlyCorrupted => "slightly corrupted"
  | heavilyCorrupted => "heavily corrupted"
  | completelyDestroyed => "completely destroyed"
  | failed => "check failed"

/-- The health that follows from detection, the corrupted structures, whether something failed, and
whether the volume is still marked as mounted. -/
def classify (detection : DetectionState) (damage : Damage) (hasFailed mounted : Bool) : CheckState :=
  if hasFailed then failed
  else
    match detection with
    | .failed | .unknown => failed
    | .noFilesystem => completelyDestroyed
    | .hasSomeMetadata => heavilyCorrupted
    | .hasFilesystem =>
      if 2 ≤ damage.criticalCount then heavilyCorrupted
      else if !damage.isEmpty then slightlyCorrupted
      else if mounted then uncleanUnmount
      else healthy

end CheckState

/-- A structure an inspection rejected, and why. -/
structure Finding where
  target : Structure
  problem : String
deriving DecidableEq

/-- The result of a check. -/
structure CheckReport where
  state : CheckState
  damage : Damage
  findings : List Finding
  failure : Option String
  mounted : Bool
  detection : DetectionSummary

/-! ## Inspecting -/

/-- What a run of inspections came to. -/
structure Inspected where
  findings : List Finding
  failure : Option String

/-- Inspect in order until an inspection fails. -/
def Subject.inspectAll (subject : Subject) : List Inspector → Except Crash Inspected
  | [] => .ok ⟨[], none⟩
  | inspector :: rest =>
    match inspector.inspect subject with
    | .error (.crash cause) => .error cause
    | .error (.failure cause) => .ok ⟨[], some cause.message⟩
    | .ok .sound => subject.inspectAll rest
    | .ok (.corrupted problem) =>
      match subject.inspectAll rest with
      | .error cause => .error cause
      | .ok result => .ok { result with findings := ⟨inspector.target, problem⟩ :: result.findings }

/-- The structures named by findings. -/
def Finding.damage (findings : List Finding) : Damage :=
  findings.foldl (fun damage finding => damage.union (.ofStructure finding.target)) .none

/-- There is something to inspect: detection found at least some metadata and a geometry. -/
def Detection.subject? (detection : Detection) (handle : Handle) : Option Subject :=
  if detection.state = .hasFilesystem ∨ detection.state = .hasSomeMetadata then
    Subject.of? handle detection
  else
    none

/-- Check what detection found on a device. -/
def Detection.check (detection : Detection) (handle : Handle) (inspectors : List Inspector) :
    Except Crash CheckReport :=
  let report (inspected : Inspected) (mounted : Bool) : CheckReport :=
    let damage := Finding.damage inspected.findings
    { state := .classify detection.state damage inspected.failure.isSome mounted
      damage
      findings := inspected.findings
      failure := inspected.failure
      mounted
      detection := detection.summary }
  match detection.subject? handle with
  -- Without a subject the outcome of detection is all there is to say.
  | none => .ok (report ⟨[], detection.failure⟩ false)
  | some subject =>
    match subject.inspectAll inspectors with
    | .error cause => .error cause
    | .ok inspected =>
      .ok (report { inspected with failure := inspected.failure.or detection.failure }
        (subject.state?.any (·.isMounted)))

/-- Detect and check the volume on a device. -/
def Device.check (device : Device) (options : DetectOptions) :
    Except Crash (Detection × CheckReport) :=
  match device.detect options with
  | .error cause => .error cause
  | .ok detection =>
    match detection.check device.handle Inspector.standard with
    | .error cause => .error cause
    | .ok report => .ok (detection, report)

end FlashVolume
