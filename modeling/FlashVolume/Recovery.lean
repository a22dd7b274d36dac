/-
Recovery. Every corrupted structure goes through its action, in the order of the actions: `recover`
prepares a fix, `explain` and `summarize` describe it, and `write` commits it to the device unless
nothing may be changed. The first failure ends the run. Actions run in any monad, so that what they do
can be observed; nothing can be rebuilt yet, so the standard actions only refuse.
-/
import FlashVolume.Check.Report

namespace FlashVolume

/-- A recovery fails as a check does: an action cannot do what is asked of it, or at reading what it needs. -/
abbrev RecoveryError := CheckError

/-- How a structure is recovered. -/
structure RecoveryAction (m : Type → Type) where
  target : Structure
  recover : Subject → ExceptT RecoveryError m Unit
  explain : m String
  summarize : m String
  write : Subject → ExceptT RecoveryError m Unit

/-- A fix that was prepared, and whether it was committed. -/
structure Fix where
  target : Structure
  explanation : String
  summary : String
  written : Bool
deriving DecidableEq

namespace RecoveryAction

variable {m : Type → Type} [Monad m]

/-- The action of a structure that cannot be rebuilt. -/
def unrepairable (target : Structure) : RecoveryAction m where
  target
  recover _ := throw (.unsupported target.name)
  explain := pure s!"the {target.name} cannot be rebuilt"
  summarize := pure s!"{target.name}: no change"
  write _ := throw (.unsupported target.name)

/-- An action for every structure, in inspection order. -/
def standard : List (RecoveryAction m) := Structure.all.map unrepairable

/-- Take an action through all its stages. -/
def run (action : RecoveryAction m) (subject : Subject) (noChange : Bool) :
    ExceptT RecoveryError m Fix := do
  action.recover subject
  let explanation ← action.explain
  let summary ← action.summarize
  if noChange then
    return ⟨action.target, explanation, summary, false⟩
  else
    action.write subject
    return ⟨action.target, explanation, summary, true⟩

end RecoveryAction

/-- The volume needs nothing: no structure is corrupted, and it is not destroyed altogether. -/
def CheckReport.needsNothing (report : CheckReport) : Bool :=
  report.damage.isEmpty && report.state != .completelyDestroyed

/-- Recover what a check found corrupted. -/
def CheckReport.recover {m : Type → Type} [Monad m] (report : CheckReport) (handle : Handle)
    (detection : Detection) (actions : List (RecoveryAction m)) (noChange : Bool) :
    ExceptT RecoveryError m (List Fix) :=
  if report.needsNothing then
    pure []
  else
    match Subject.of? handle detection with
    | none => throw (.unsupported "volume")
    | some subject =>
      (actions.filter (report.damage.has ·.target)).mapM (·.run subject noChange)

/-! ## Observed actions -/

/-- The stages of an action. -/
inductive RecoveryStage
  | recover
  | explain
  | summarize
  | write
deriving DecidableEq

def RecoveryStage.name : RecoveryStage → String
  | recover => "recover"
  | explain => "explain"
  | summarize => "summarize"
  | write => "write"

/-- A stage of the action of a structure. -/
structure RecoveryCall where
  stage : RecoveryStage
  target : Structure
deriving DecidableEq

def RecoveryCall.text (call : RecoveryCall) : String := s!"{call.stage.name} {call.target.name}"

/-- The calls made so far, in order. -/
abbrev Observed := StateM (List RecoveryCall)

/-- An action that notes every call and fails in one stage at most. -/
def RecoveryAction.observed (target : Structure) (failing : Option RecoveryStage) :
    RecoveryAction Observed :=
  let note (stage : RecoveryStage) : Observed Unit := modify (· ++ [⟨stage, target⟩])
  let attempt (stage : RecoveryStage) : ExceptT RecoveryError Observed Unit := do
    note stage
    if failing = some stage then throw (.unsupported target.name)
  { target
    recover := fun _ => attempt .recover
    explain := do note .explain; return s!"explained {target.name}"
    summarize := do note .summarize; return s!"summarized {target.name}"
    write := fun _ => attempt .write }

end FlashVolume
