/-
The recovery pipeline. Actions may do anything to the world they run in and may fail in any way. To say what
a recovery calls, and when, its actions are traced: each call is noted with the place of the action in the
list and with what came of it. Tracing changes neither the outcome nor the world. The calls are those of the
actions whose structure is corrupted, one action after the other, each prepared, described and then written,
up to the first call that fails; and where nothing may be changed, nothing is written.
-/
import FlashVolume.Proofs.Check
import FlashVolume.Recovery

namespace FlashVolume

/-! ## Traced actions -/

/-- A call of an action, the place of the action in the list, and what came of the call. -/
inductive RecoveryEvent
  | recover (place : Nat) (failure : Option RecoveryError)
  | explain (place : Nat) (text : String)
  | summarize (place : Nat) (text : String)
  | write (place : Nat) (failure : Option RecoveryError)
deriving DecidableEq

def RecoveryEvent.isWrite : RecoveryEvent → Bool
  | write _ _ => true
  | _ => false

/-- A world, and the calls made in it so far. -/
abbrev Traced (σ : Type) := StateM (σ × List RecoveryEvent)

section

variable {σ α β : Type}

/-- Make a call in the world, and note what came of it. -/
def noting (event : α → RecoveryEvent) (call : StateM σ α) : Traced σ α :=
  fun (world, events) =>
    let (answer, next) := call world
    (answer, next, events ++ [event answer])

/-- Why a stage failed, if it did. -/
def failure? : Except RecoveryError Unit → Option RecoveryError
  | .ok _ => none
  | .error cause => some cause

namespace RecoveryAction

/-- The action with every call noted. -/
def traced (action : RecoveryAction (StateM σ)) (place : Nat) : RecoveryAction (Traced σ) where
  target := action.target
  recover subject :=
    ExceptT.mk (noting (fun answer => .recover place (failure? answer)) (action.recover subject))
  explain := noting (.explain place) action.explain
  summarize := noting (.summarize place) action.summarize
  write subject := ExceptT.mk (noting (fun answer => .write place (failure? answer)) (action.write subject))

/-- The actions of a list with every call noted. -/
def tracedAll (actions : List (RecoveryAction (StateM σ))) : List (RecoveryAction (Traced σ)) :=
  actions.zipIdx.map fun (action, place) => action.traced place

end RecoveryAction

/-! ## Programs over traced actions -/

theorem run_bind {ε : Type} (first : ExceptT ε (StateM σ) α) (next : α → ExceptT ε (StateM σ) β) (world : σ) :
    (first >>= next).run world = match first.run world with
      | (.ok a, world) => (next a).run world
      | (.error cause, world) => (.error cause, world) := by
  show ExceptT.bindCont next (first.run world).1 (first.run world).2 = _
  rcases first.run world with ⟨_ | _, _⟩ <;> rfl

/-- On traced actions a program comes to the same outcome and leaves the same world as on the actions
themselves, and its outcome fits the calls it makes. -/
def Traces (plain : ExceptT RecoveryError (StateM σ) α) (traced : ExceptT RecoveryError (Traced σ) α)
    (Fits : Except RecoveryError α → List RecoveryEvent → Prop) : Prop :=
  ∀ world events, ∃ outcome next made,
    plain.run world = (outcome, next) ∧ traced.run (world, events) = (outcome, next, events ++ made) ∧
      Fits outcome made

namespace Traces

variable {plain : ExceptT RecoveryError (StateM σ) α} {traced : ExceptT RecoveryError (Traced σ) α}
  {Fits Fits' : Except RecoveryError α → List RecoveryEvent → Prop}

theorem imp (h : Traces plain traced Fits) (hfits : ∀ outcome made, Fits outcome made → Fits' outcome made) :
    Traces plain traced Fits' := by
  intro world events
  obtain ⟨outcome, next, made, hplain, htraced, hmade⟩ := h world events
  exact ⟨outcome, next, made, hplain, htraced, hfits _ _ hmade⟩

theorem pure (a : α) : Traces (σ := σ) (Pure.pure a) (Pure.pure a) fun outcome made =>
    outcome = .ok a ∧ made = [] := by
  intro world events
  refine ⟨.ok a, world, [], rfl, ?_, rfl, rfl⟩
  rw [List.append_nil]
  rfl

/-- One call, noted as an event. -/
theorem call (event : Except RecoveryError α → RecoveryEvent) (call : ExceptT RecoveryError (StateM σ) α) :
    Traces call (ExceptT.mk (noting event call.run)) fun outcome made => made = [event outcome] := by
  intro world events
  exact ⟨(call.run world).1, (call.run world).2, _, rfl, rfl, rfl⟩

/-- One call that cannot fail, noted as an event. -/
theorem lift (event : α → RecoveryEvent) (call : StateM σ α) :
    Traces (ExceptT.lift call) (ExceptT.lift (noting event call)) fun outcome made =>
      ∃ answer, outcome = .ok answer ∧ made = [event answer] := by
  intro world events
  exact ⟨.ok (call world).1, (call world).2, _, rfl, rfl, _, rfl, rfl⟩

/-- A program that goes on after another one ends with its failure, or makes its calls behind those of the
first one. -/
theorem bind (h : Traces plain traced Fits) {next : α → ExceptT RecoveryError (StateM σ) β}
    {nextTraced : α → ExceptT RecoveryError (Traced σ) β}
    {Goal : Except RecoveryError β → List RecoveryEvent → Prop}
    (herror : ∀ cause made, Fits (.error cause) made → Goal (.error cause) made)
    (hnext : ∀ a first, Fits (.ok a) first →
      Traces (next a) (nextTraced a) fun outcome rest => Goal outcome (first ++ rest)) :
    Traces (plain >>= next) (traced >>= nextTraced) Goal := by
  intro world events
  obtain ⟨cause | a, between, first, hplain, htraced, hfirst⟩ := h world events
  · refine ⟨.error cause, between, first, ?_, ?_, herror _ _ hfirst⟩
    · rw [run_bind, hplain]
    · rw [run_bind, htraced]
  · obtain ⟨outcome, last, rest, hplain', htraced', hrest⟩ := hnext a first hfirst between (events ++ first)
    refine ⟨outcome, last, first ++ rest, ?_, ?_, hrest⟩
    · rw [run_bind, hplain]
      exact hplain'
    · rw [run_bind, htraced, ← List.append_assoc]
      exact htraced'

end Traces

/-! ## One action -/

/-- The calls that come to a fix: it is prepared and described, and committed if it was written. -/
def Fix.events (fix : Fix) (place : Nat) : List RecoveryEvent :=
  [.recover place none, .explain place fix.explanation, .summarize place fix.summary] ++
    if fix.written then [.write place none] else []

theorem Fix.not_isWrite_of_mem_events {fix : Fix} (h : fix.written = false) {place : Nat} :
    ∀ event ∈ fix.events place, event.isWrite = false := by
  unfold events
  rw [h, if_neg Bool.false_ne_true, List.append_nil]
  simp only [List.forall_mem_cons]
  exact ⟨rfl, rfl, rfl, List.forall_mem_nil _⟩

/-- The calls of an action that fails: preparing is the only one, or else committing the last one. -/
inductive FailsAt (noChange : Bool) (place : Nat) (cause : RecoveryError) : List RecoveryEvent → Prop
  | recover : FailsAt noChange place cause [.recover place (some cause)]
  | write (explanation summary : String) (changes : noChange = false) :
    FailsAt noChange place cause [.recover place none, .explain place explanation,
      .summarize place summary, .write place (some cause)]

namespace RecoveryAction

/-- The fix an action came to: one of its structure, written unless nothing may be changed. -/
def Yields (noChange : Bool) (action : RecoveryAction (StateM σ)) (fix : Fix) : Prop :=
  fix.target = action.target ∧ fix.written = !noChange

variable (action : RecoveryAction (StateM σ)) (place : Nat) (subject : Subject)

theorem traces_recover : Traces (action.recover subject) ((action.traced place).recover subject)
    fun outcome made => made = [.recover place (failure? outcome)] :=
  .call (fun answer => .recover place (failure? answer)) _

theorem traces_explain : Traces (σ := σ) (liftM action.explain) (liftM (action.traced place).explain)
    fun outcome made => ∃ text, outcome = .ok text ∧ made = [.explain place text] :=
  .lift _ _

theorem traces_summarize : Traces (σ := σ) (liftM action.summarize) (liftM (action.traced place).summarize)
    fun outcome made => ∃ text, outcome = .ok text ∧ made = [.summarize place text] :=
  .lift _ _

theorem traces_write : Traces (action.write subject) ((action.traced place).write subject)
    fun outcome made => made = [.write place (failure? outcome)] :=
  .call (fun answer => .write place (failure? answer)) _

/-- Taken through its stages, an action yields a fix by the calls that come to it, or fails. -/
theorem traces_run (noChange : Bool) :
    Traces (action.run subject noChange) ((action.traced place).run subject noChange) fun outcome made =>
      (∃ fix, outcome = .ok fix ∧ action.Yields noChange fix ∧ made = fix.events place) ∨
        ∃ cause, outcome = .error cause ∧ FailsAt noChange place cause made := by
  unfold run
  refine (action.traces_recover place subject).bind ?_ ?_
  · rintro cause made rfl
    exact .inr ⟨cause, rfl, .recover⟩
  rintro - _ rfl
  refine (action.traces_explain place).bind nofun ?_
  rintro explanation _ ⟨_, ⟨⟩, rfl⟩
  refine (action.traces_summarize place).bind nofun ?_
  rintro summary _ ⟨_, ⟨⟩, rfl⟩
  cases noChange with
  | true =>
    refine (Traces.pure _).imp ?_
    rintro outcome made ⟨rfl, rfl⟩
    exact .inl ⟨_, rfl, ⟨rfl, rfl⟩, rfl⟩
  | false =>
    refine (action.traces_write place subject).bind ?_ ?_
    · rintro cause made rfl
      exact .inr ⟨cause, rfl, .write explanation summary rfl⟩
    rintro - _ rfl
    refine (Traces.pure _).imp ?_
    rintro outcome made ⟨rfl, rfl⟩
    exact .inl ⟨_, rfl, ⟨rfl, rfl⟩, rfl⟩

/-! ## A list of actions -/

/-- How a run over actions with their places in the list goes: each of them yields a fix by its own calls,
which follow those of the actions before; or one fails, and its calls are the last ones. -/
def Pipelined (noChange : Bool) (selected : List (RecoveryAction (StateM σ) × Nat))
    (outcome : Except RecoveryError (List Fix)) (made : List RecoveryEvent) : Prop :=
  (∃ fixes, outcome = .ok fixes ∧
      List.Forall₂ (fun action fix => action.1.Yields noChange fix) selected fixes ∧
      made = (selected.zip fixes).flatMap fun handled => handled.2.events handled.1.2) ∨
    ∃ done failing after fixes cause failed, selected = done ++ failing :: after ∧
      List.Forall₂ (fun action fix => action.1.Yields noChange fix) done fixes ∧
      FailsAt noChange failing.2 cause failed ∧ outcome = .error cause ∧
      made = ((done.zip fixes).flatMap fun handled => handled.2.events handled.1.2) ++ failed

namespace Pipelined

variable {noChange : Bool} {action : RecoveryAction (StateM σ)} {place : Nat} {cause : RecoveryError}
  {rest : List (RecoveryAction (StateM σ) × Nat)} {made : List RecoveryEvent}

/-- Where the first action fails, nothing is called behind it. -/
theorem fails (h : FailsAt noChange place cause made) :
    Pipelined noChange ((action, place) :: rest) (.error cause) made :=
  .inr ⟨[], (action, place), rest, [], cause, made, rfl, .nil, h, rfl, rfl⟩

theorem cons_ok {fix : Fix} {fixes : List Fix} (hfix : action.Yields noChange fix)
    (h : Pipelined noChange rest (.ok fixes) made) :
    Pipelined noChange ((action, place) :: rest) (.ok (fix :: fixes)) (fix.events place ++ made) := by
  rcases h with ⟨_, ⟨⟩, hfixes, rfl⟩ | ⟨_, _, _, _, _, _, -, -, -, ⟨⟩, -⟩
  exact .inl ⟨fix :: fixes, rfl, .cons hfix hfixes, by rw [List.zip_cons_cons, List.flatMap_cons]⟩

theorem cons_error {fix : Fix} (hfix : action.Yields noChange fix)
    (h : Pipelined noChange rest (.error cause) made) :
    Pipelined noChange ((action, place) :: rest) (.error cause) (fix.events place ++ made) := by
  rcases h with ⟨_, ⟨⟩, -, -⟩ | ⟨done, failing, after, fixes, _, failed, rfl, hfixes, hfailed, ⟨⟩, rfl⟩
  refine .inr ⟨(action, place) :: done, failing, after, fix :: fixes, cause, failed, rfl, .cons hfix hfixes,
    hfailed, rfl, ?_⟩
  rw [List.zip_cons_cons, List.flatMap_cons, List.append_assoc]

theorem not_isWrite_of_forall₂ {done : List (RecoveryAction (StateM σ) × Nat)} {fixes : List Fix}
    (h : List.Forall₂ (fun action fix => action.1.Yields true fix) done fixes) :
    ∀ event ∈ (done.zip fixes).flatMap (fun handled => handled.2.events handled.1.2),
      event.isWrite = false := by
  intro event hevent
  obtain ⟨handled, hmem, hevent⟩ := List.mem_flatMap.1 hevent
  obtain ⟨-, hwritten⟩ := (List.forall₂_iff_zip.1 h).2 hmem
  exact Fix.not_isWrite_of_mem_events hwritten event hevent

/-- Where nothing may be changed, no call writes. -/
theorem not_isWrite {selected : List (RecoveryAction (StateM σ) × Nat)}
    {outcome : Except RecoveryError (List Fix)} (h : Pipelined true selected outcome made) :
    ∀ event ∈ made, event.isWrite = false := by
  rcases h with ⟨fixes, -, hfixes, rfl⟩ | ⟨_, _, _, fixes, cause, failed, -, hfixes, hfailed, -, rfl⟩
  · exact not_isWrite_of_forall₂ hfixes
  · intro event hevent
    rcases List.mem_append.1 hevent with hevent | hevent
    · exact not_isWrite_of_forall₂ hfixes event hevent
    · cases hfailed with
      | recover => rw [List.mem_singleton.1 hevent]; rfl
      | write _ _ changes => cases changes

end Pipelined

/-- Actions run one after the other, until one fails. -/
theorem traces_mapM (subject : Subject) (noChange : Bool) :
    ∀ selected : List (RecoveryAction (StateM σ) × Nat),
      Traces ((selected.map (·.1)).mapM (·.run subject noChange))
        ((selected.map fun (action, place) => action.traced place).mapM (·.run subject noChange))
        (Pipelined noChange selected)
  | [] => by
    refine (Traces.pure _).imp ?_
    rintro outcome made ⟨rfl, rfl⟩
    exact .inl ⟨[], rfl, .nil, rfl⟩
  | (action, place) :: rest => by
    rw [List.map_cons, List.map_cons, List.mapM_cons, List.mapM_cons]
    refine (action.traces_run place subject noChange).bind ?_ ?_
    · rintro cause made (⟨_, ⟨⟩, -⟩ | ⟨_, ⟨⟩, hfails⟩)
      exact .fails hfails
    rintro fix _ (⟨_, ⟨⟩, hfix, rfl⟩ | ⟨_, ⟨⟩, -⟩)
    refine (traces_mapM subject noChange rest).bind (fun cause made hrest => .cons_error hfix hrest) ?_
    intro fixes made hrest
    refine (Traces.pure _).imp ?_
    rintro outcome last ⟨rfl, rfl⟩
    rw [List.append_nil]
    exact .cons_ok hfix hrest

end RecoveryAction

/-! ## The whole run -/

namespace CheckReport

/-- A volume needs nothing if no structure is corrupted and it is not destroyed altogether. -/
theorem needsNothing_iff {report : CheckReport} :
    report.needsNothing ↔ (∀ s, report.damage.has s = false) ∧ report.state ≠ .completelyDestroyed := by
  unfold needsNothing
  rw [Bool.and_eq_true, Damage.isEmpty_iff, bne_iff_ne]

/-- The actions a recovery has to take through their stages, with their places in the list. -/
def selected (report : CheckReport) (actions : List (RecoveryAction (StateM σ))) :
    List (RecoveryAction (StateM σ) × Nat) :=
  actions.zipIdx.filter fun (action, _) => report.damage.has action.target

theorem filter_eq_selected (report : CheckReport) (actions : List (RecoveryAction (StateM σ))) :
    actions.filter (report.damage.has ·.target) = (report.selected actions).map (·.1) := by
  conv_lhs => rw [← List.zipIdx_map_fst 0 actions]
  rw [List.filter_map]
  rfl

theorem filter_tracedAll (report : CheckReport) (actions : List (RecoveryAction (StateM σ))) :
    (RecoveryAction.tracedAll actions).filter (report.damage.has ·.target) =
      (report.selected actions).map fun (action, place) => action.traced place := by
  unfold RecoveryAction.tracedAll
  rw [List.filter_map]
  rfl

/-- A recovery runs a strict pipeline, whatever its actions do. It calls none of them if the volume needs
nothing, or if there is no geometry to read it by. Otherwise it takes exactly the actions of corrupted
structures through their stages, in the order of the list, up to the first that fails, and ends with its
failure; without a failure it reports their fixes in that order. Where nothing may be changed, nothing is
written. Noting the calls changes neither the outcome nor the world. -/
theorem recover_pipelined (report : CheckReport) (handle : Handle) (detection : Detection)
    (actions : List (RecoveryAction (StateM σ))) (noChange : Bool) (world : σ) :
    ∃ outcome next made,
      (report.recover handle detection actions noChange).run world = (outcome, next) ∧
      (report.recover handle detection (RecoveryAction.tracedAll actions) noChange).run (world, []) =
        (outcome, next, made) ∧
      ((∀ s, report.damage.has s = false) ∧ report.state ≠ .completelyDestroyed →
        outcome = .ok [] ∧ next = world ∧ made = []) ∧
      ((∃ s, report.damage.has s) ∨ report.state = .completelyDestroyed →
        (detection.geometry = none →
          outcome = .error (.unsupported "volume") ∧ next = world ∧ made = []) ∧
        (detection.geometry.isSome →
          RecoveryAction.Pipelined noChange (report.selected actions) outcome made)) ∧
      (noChange = true → ∀ event ∈ made, event.isWrite = false) := by
  unfold recover
  split
  · rename_i hnothing
    refine ⟨.ok [], world, [], rfl, rfl, fun _ => ⟨rfl, rfl, rfl⟩, ?_, fun _ => List.forall_mem_nil _⟩
    obtain ⟨hnone, hstate⟩ := needsNothing_iff.1 hnothing
    rintro (⟨s, hs⟩ | hdestroyed)
    · rw [hnone s] at hs
      cases hs
    · exact absurd hdestroyed hstate
  · rename_i hneeds
    have hneeds : ¬ ((∀ s, report.damage.has s = false) ∧ report.state ≠ .completelyDestroyed) :=
      fun h => hneeds (needsNothing_iff.2 h)
    unfold Subject.of?
    rcases detection.geometry with _ | geometry
    · exact ⟨.error (.unsupported "volume"), world, [], rfl, rfl, fun h => absurd h hneeds,
        fun _ => ⟨fun _ => ⟨rfl, rfl, rfl⟩, nofun⟩, fun _ => List.forall_mem_nil _⟩
    · obtain ⟨outcome, next, made, hplain, htraced, hmade⟩ := RecoveryAction.traces_mapM
        ⟨⟨handle, geometry⟩, detection⟩ noChange (report.selected actions) world []
      rw [← filter_eq_selected] at hplain
      rw [← filter_tracedAll] at htraced
      refine ⟨outcome, next, made, hplain, htraced, fun h => absurd h hneeds,
        fun _ => ⟨nofun, fun _ => hmade⟩, ?_⟩
      rintro rfl
      exact hmade.not_isWrite

end CheckReport

end

/-! ## A failing write -/

/-- An action that counts its writes in the world, unless they fail. -/
def RecoveryAction.counting (target : Structure) (failure : Option RecoveryError) :
    RecoveryAction (StateM Nat) where
  target
  recover _ := pure ()
  explain := pure "lost"
  summarize := pure "rewritten"
  write _ :=
    match failure with
    | some cause => throw cause
    | none => modify (· + 1)

/-- A detection that found a geometry. -/
def Detection.located : Detection := { Detection.nothing with geometry := some CompactVolume.geometry }

/-- A report of everything but the initial snapshot as corrupted. -/
def CheckReport.allButSnapshot : CheckReport where
  state := .heavilyCorrupted
  damage := ⟨(· != .baseSnapshot)⟩
  findings := []
  failure := none
  mounted := false
  detection := Detection.located.summary

/-- Four actions, of which the third fails to write. -/
def RecoveryAction.failingThird : List (RecoveryAction (StateM Nat)) :=
  [.counting .baseSnapshot none, .counting .superblock none,
    .counting .segmentBitmap (some (.fault .lzoCache)), .counting .mappingTable none]

/-- The second write fails and is the last call: the action behind it is not touched, and neither is that of
the sound structure in front. -/
theorem CheckReport.recover_pipelined_failingThird : ∃ made,
    (CheckReport.allButSnapshot.recover CompactVolume.whole.device.handle .located
      (RecoveryAction.tracedAll RecoveryAction.failingThird) false).run (0, []) =
        (.error (.fault .lzoCache), 1, made) ∧
      RecoveryAction.Pipelined false (CheckReport.allButSnapshot.selected RecoveryAction.failingThird)
        (.error (.fault .lzoCache)) made ∧
      made = [.recover 1 none, .explain 1 "lost", .summarize 1 "rewritten", .write 1 none, .recover 2 none,
        .explain 2 "lost", .summarize 2 "rewritten", .write 2 (some (.fault .lzoCache))] := by
  obtain ⟨outcome, next, made, -, htraced, -, hneeds, -⟩ := CheckReport.allButSnapshot.recover_pipelined
    CompactVolume.whole.device.handle .located RecoveryAction.failingThird false 0
  have hpipelined := (hneeds (.inl ⟨.superblock, rfl⟩)).2 rfl
  cases htraced
  exact ⟨_, rfl, hpipelined, rfl⟩

end FlashVolume
