import LlmGateway.Activity.Position
import LlmGateway.Planner.StepChecks
import LlmGateway.System.Scenario

/-!
# A step that is handed out can be called

The coordinator checks the current step with placeholder coordinates, the planner calls it with the
real arguments. With a scene catalogue both see the same paths; without one the planner takes the
suggested arguments of the hint, which may differ from the placeholder.
-/

namespace LlmGateway

variable {sha256 : Text → Digest} {context : AgentContext} {schemaVersion reason : String}

/-! ## Calls of other skills -/

/-- The reason of a call does not matter to its check. -/
theorem permittedCall_isSome {skillName reason' : String} {arguments : List (Text × Json)} :
    (permittedCall sha256 context skillName schemaVersion reason arguments).isSome =
      (permittedCall sha256 context skillName schemaVersion reason' arguments).isSome := by
  unfold permittedCall
  cases calledArguments sha256 context skillName schemaVersion arguments with
  | none => rfl
  | some built =>
    simp only [Option.bind_some]
    split_ifs <;> rfl

/-- The reason, the catalogue and the target do not matter to a skill that is no walk. -/
theorem activitySkillAction_isSome {skillName reason' : String} (hskill : skillName ≠ "move_to")
    {sceneCatalog : Option SceneCatalog} {sceneTargetId : Option String} :
    (activitySkillAction sha256 context skillName schemaVersion reason sceneCatalog
      sceneTargetId).isSome =
      (activitySkillAction sha256 context skillName schemaVersion reason' none none).isSome := by
  have harguments : activityArguments context skillName schemaVersion sceneCatalog sceneTargetId =
      activityArguments context skillName schemaVersion none none := by
    unfold activityArguments
    cases sceneCatalog with
    | none => rfl
    | some catalog => exact if_neg hskill
  unfold activitySkillAction
  rw [harguments]
  exact permittedCall_isSome

/-! ## Walks -/

/-- The lease takes walks with this schema. -/
structure AgentContext.OffersMove (context : AgentContext) (schemaVersion : String) : Prop where
  callSkill : .callSkill ∈ context.allowedDecisionActions
  allows : context.AllowsSkill "move_to"
  pairing : LeasePairingIsPermitted context "move_to"
  available : ("move_to", schemaVersion) ∈ context.available

/-- The arguments have a target with coordinates, and their paths fit the hint. -/
def AgentContext.TakesTarget (context : AgentContext) (schemaVersion : String)
    (arguments : List (Text × Json)) : Prop :=
  CallSkillIsValid "move_to" schemaVersion arguments ∧
    ∃ paths ∈ Json.argumentLeafPaths ⟨[]⟩ arguments,
      ArgumentsFit (context.hintFor "move_to" schemaVersion) paths

theorem permittedCall_move_to_isSome_iff {arguments : List (Text × Json)} :
    (permittedCall sha256 context "move_to" schemaVersion reason arguments).isSome ↔
      context.OffersMove schemaVersion ∧ context.TakesTarget schemaVersion arguments := by
  have hspecialized : "move_to" ∉ specializedArgumentSkills := by decide
  have hrequired : requiredActivityArgumentsAreValid "move_to" arguments = true := rfl
  rw [permittedCall, calledArguments, if_neg hspecialized, Option.bind_some]
  simp only [Option.isSome_ite, SkillIsPermitted, AgentContext.TakesTarget, hspecialized,
    hrequired, false_imp_iff, true_and]
  constructor
  · rintro ⟨hvalid, hcall, -, hallows, hpairing, -, havailable, hfit⟩
    exact ⟨⟨hcall, hallows, hpairing, havailable⟩, hvalid, hfit⟩
  · rintro ⟨hoffers, hvalid, hfit⟩
    exact ⟨hvalid, hoffers.callSkill, by decide, hoffers.allows, hoffers.pairing, nofun,
      hoffers.available, hfit⟩

/-- `{"x": x, "y": y, "z": z}`. -/
def coordinateFields (x y z : Json) : List (Text × Json) :=
  [("x", x), ("y", y), ("z", z)]

/-- `{"target": {"x": x, "y": y, "z": z}}`. -/
def targetArguments (x y z : Json) : List (Text × Json) :=
  [("target", .obj (coordinateFields x y z))]

/-- The paths of a target with coordinates. -/
def targetPaths : List Text :=
  ["target.x", "target.y", "target.z"]

/-- The target has the coordinates that `as_arguments` gives. -/
def SceneTarget.HasCoordinates (target : SceneTarget) : Prop :=
  ∃ x y z : Json, target.coordinates = coordinateFields x y z ∧
    x.isCoordinate = true ∧ y.isCoordinate = true ∧ z.isCoordinate = true

theorem leafPathsAt_of_isCoordinate {path : Text} {value : Json} (h : value.isCoordinate = true) :
    Json.leafPathsAt path value = some [path] := by
  cases value with
  | int | float => rfl
  | null | bool | str | arr | obj => cases h

/-- All coordinates have the same paths. -/
theorem argumentLeafPaths_targetArguments {x y z : Json} (hx : x.isCoordinate = true)
    (hy : y.isCoordinate = true) (hz : z.isCoordinate = true) :
    Json.argumentLeafPaths ⟨[]⟩ (targetArguments x y z) =
      some targetPaths := by
  have hsegment : ∀ key ∈ ([("target" : Text), "x", "y", "z"] : List Text), key.IsSegment := by
    decide
  simp only [List.forall_mem_cons] at hsegment
  obtain ⟨htarget, hx', hy', hz', -⟩ := hsegment
  simp only [targetArguments, coordinateFields, Json.argumentLeafPaths, if_pos htarget,
    if_pos hx', if_pos hy', if_pos hz', Json.leafPathsAt, leafPathsAt_of_isCoordinate hx,
    leafPathsAt_of_isCoordinate hy, leafPathsAt_of_isCoordinate hz]
  rfl

theorem callSkillIsValid_targetArguments {x y z : Json} (hschema : IsActionName schemaVersion)
    (hx : x.isCoordinate = true) (hy : y.isCoordinate = true) (hz : z.isCoordinate = true) :
    CallSkillIsValid "move_to" schemaVersion (targetArguments x y z) := by
  refine ⟨by decide, hschema, nofun, fun _ ↦ ⟨_, rfl, ?_⟩⟩
  simp only [List.forall_mem_cons]
  exact ⟨⟨x, rfl, hx⟩, ⟨y, rfl, hy⟩, ⟨z, rfl, hz⟩, List.forall_mem_nil _⟩

/-- The lease takes one target with coordinates as it takes any other. -/
theorem takesTarget_iff {x y z : Json} (hschema : IsActionName schemaVersion)
    (hx : x.isCoordinate = true) (hy : y.isCoordinate = true) (hz : z.isCoordinate = true) :
    context.TakesTarget schemaVersion (targetArguments x y z) ↔
      ArgumentsFit (context.hintFor "move_to" schemaVersion)
        targetPaths := by
  rw [AgentContext.TakesTarget, argumentLeafPaths_targetArguments hx hy hz]
  simp only [callSkillIsValid_targetArguments hschema hx hy hz, true_and, Option.mem_some_iff,
    exists_eq_left']

theorem activitySkillIsPermitted_move_to_iff (hschema : IsActionName schemaVersion) :
    activitySkillIsPermitted sha256 context "move_to" schemaVersion ↔
      context.OffersMove schemaVersion ∧
        ArgumentsFit (context.hintFor "move_to" schemaVersion)
          targetPaths := by
  rw [← takesTarget_iff hschema (x := .float 0 0) (y := .float 0 0) (z := .float 0 0) rfl rfl rfl]
  exact permittedCall_move_to_isSome_iff

/-! ## Agreement -/

/-- The targets of the catalogue have coordinates. -/
def SceneCatalog.HasCoordinates (catalog : SceneCatalog) : Prop :=
  ∀ targetId, ∀ target ∈ catalog.movementTarget targetId, target.HasCoordinates

/-- The arguments that the hint suggests for a walk, none without a hint. -/
def AgentContext.suggestedMove (context : AgentContext) (schemaVersion : String) :
    List (Text × Json) :=
  ((context.firstHint "move_to" schemaVersion).map (·.suggestedArgs)).getD []

/-- Without a catalogue, a lease that takes walks takes the suggested arguments exactly when it
takes coordinates. -/
def MoveAgrees (context : AgentContext) (schemaVersion : String)
    (sceneCatalog : Option SceneCatalog) : Prop :=
  sceneCatalog = none → context.OffersMove schemaVersion →
    (ArgumentsFit (context.hintFor "move_to" schemaVersion) targetPaths ↔
      context.TakesTarget schemaVersion (context.suggestedMove schemaVersion))

theorem moveAgrees_some {catalog : SceneCatalog} :
    MoveAgrees context schemaVersion (some catalog) := by
  intro hnone
  cases hnone

/-- The skill of the step, with its version. -/
def ActivityPlanStep.skill? (step : ActivityPlanStep) : Option (String × String) := do
  return (← step.skillName, ← step.schemaVersion)

/-- The coordinator hands out the step. -/
def StepIsReady (sha256 : Text → Digest) (sceneCatalog : Option SceneCatalog)
    (context : AgentContext) (step : ActivityPlanStep) : Prop :=
  currentStepIsExecutable (activitySkillIsPermitted sha256) context step ∧
    currentStepIsResolvable sceneCatalog context step

/-- The action of the planner calls the skill of the step. -/
def DecisionPlanner.Calls (planner : DecisionPlanner) (sha256 : Text → Digest)
    (context : AgentContext) (activity : ActivityPlanContext) : Prop :=
  ∃ action ∈ planner.plannedActivityAction sha256 context activity,
    action.kind.skill? = activity.current.skill?

/-- The version of a step that calls a skill. -/
theorem ActivityPlanContext.schemaVersion_eq {activity : ActivityPlanContext}
    (hplan : activity.plan.WellFormed) (hskill : activity.current.skillName.isSome) :
    activity.current.schemaVersion = some "v1" :=
  (hplan.steps activity.current
    (ActivityPlan.mem_of_currentStep activity.currentStep_eq)).planned.version hskill

theorem calls_iff {planner : DecisionPlanner} {activity : ActivityPlanContext}
    {skillName : String} (hname : activity.current.skillName = some skillName)
    (hversion : activity.current.schemaVersion = some schemaVersion) :
    planner.Calls sha256 context activity ↔
      (activitySkillAction sha256 context skillName schemaVersion activity.current.intent
        planner.sceneCatalog activity.current.sceneTargetId).isSome := by
  have hplanned : planner.plannedActivityAction sha256 context activity =
      activitySkillAction sha256 context skillName schemaVersion activity.current.intent
        planner.sceneCatalog activity.current.sceneTargetId := by
    simp only [DecisionPlanner.plannedActivityAction, hname, hversion]
  have hstep : activity.current.skill? = some (skillName, schemaVersion) := by
    rw [ActivityPlanStep.skill?, hname, hversion]
    rfl
  rw [DecisionPlanner.Calls, hplanned, hstep, Option.isSome_iff_exists]
  constructor
  · rintro ⟨action, haction, -⟩
    exact ⟨action, haction⟩
  · rintro ⟨action, haction⟩
    exact ⟨action, haction, (activitySkillAction_spec haction).2⟩

theorem stepIsReady_iff {step : ActivityPlanStep} {sceneCatalog : Option SceneCatalog}
    {skillName : String} (hname : step.skillName = some skillName)
    (hversion : step.schemaVersion = some schemaVersion) :
    StepIsReady sha256 sceneCatalog context step ↔
      activitySkillIsPermitted sha256 context skillName schemaVersion ∧
        currentStepIsResolvable sceneCatalog context step := by
  simp only [StepIsReady, currentStepIsExecutable, hname, hversion]

theorem stepIsReady_iff_of_ne {step : ActivityPlanStep} {sceneCatalog : Option SceneCatalog}
    {skillName : String} (hname : step.skillName = some skillName)
    (hversion : step.schemaVersion = some schemaVersion) (hskill : skillName ≠ "move_to") :
    StepIsReady sha256 sceneCatalog context step ↔
      (activitySkillAction sha256 context skillName schemaVersion reason sceneCatalog
        step.sceneTargetId).isSome := by
  have hresolvable : currentStepIsResolvable sceneCatalog context step = true := by
    cases sceneCatalog with
    | none => rfl
    | some catalog =>
      have hother : step.skillName ≠ some "move_to" := by
        rw [hname]
        exact fun h ↦ hskill (Option.some.inj h)
      exact if_pos hother
  rw [stepIsReady_iff hname hversion, hresolvable, activitySkillIsPermitted, if_neg hskill]
  simp only [and_true]
  exact (Bool.coe_iff_coe.2 (activitySkillAction_isSome hskill)).symm

/-- With a catalogue, a walk is handed out exactly when it can be called. -/
theorem stepIsReady_walk_iff {step : ActivityPlanStep} {catalog : SceneCatalog}
    (hcatalog : catalog.HasCoordinates) (hschema : IsActionName schemaVersion)
    (hname : step.skillName = some "move_to") (hversion : step.schemaVersion = some schemaVersion) :
    StepIsReady sha256 (some catalog) context step ↔
      (activitySkillAction sha256 context "move_to" schemaVersion reason (some catalog)
        step.sceneTargetId).isSome := by
  have hwalk : ¬step.skillName ≠ some "move_to" := not_not.2 hname
  rw [stepIsReady_iff hname hversion]
  simp only [currentStepIsResolvable, if_neg hwalk, activitySkillAction, activityArguments,
    if_true]
  cases hscene : catalog.sceneIdFromSnapshot context.sessionSnapshot with
  | none =>
    cases step.sceneTargetId.bind catalog.movementTarget <;> simp
  | some sceneId =>
    cases htarget : step.sceneTargetId.bind catalog.movementTarget with
    | none => simp
    | some target =>
      obtain ⟨targetId, -, hmovement⟩ := Option.bind_eq_some_iff.1 htarget
      obtain ⟨x, y, z, hcoordinates, hx, hy, hz⟩ := hcatalog targetId target hmovement
      have hcalled : (permittedCall sha256 context "move_to" schemaVersion reason
          (targetArguments x y z)).isSome ↔
            activitySkillIsPermitted sha256 context "move_to" schemaVersion := by
        rw [activitySkillIsPermitted_move_to_iff hschema, permittedCall_move_to_isSome_iff,
          takesTarget_iff hschema hx hy hz]
      by_cases hsame : target.sceneId = sceneId
      · simp only [hsame, decide_true, and_true, Option.bind_eq_bind, Option.bind_some, if_true,
          hcoordinates]
        exact hcalled.symm
      · simp [hsame]

/-- Without a catalogue, the coordinator and the planner agree on a walk exactly when the suggested
arguments do. -/
theorem stepIsReady_walk_agrees_iff {step : ActivityPlanStep} {sceneTargetId : Option String}
    (hschema : IsActionName schemaVersion) (hname : step.skillName = some "move_to")
    (hversion : step.schemaVersion = some schemaVersion) :
    (StepIsReady sha256 none context step ↔
      (activitySkillAction sha256 context "move_to" schemaVersion reason none
        sceneTargetId).isSome) ↔ MoveAgrees context schemaVersion none := by
  have hcalled : (activitySkillAction sha256 context "move_to" schemaVersion reason none
      sceneTargetId).isSome ↔ context.OffersMove schemaVersion ∧
        context.TakesTarget schemaVersion (context.suggestedMove schemaVersion) :=
    permittedCall_move_to_isSome_iff
  rw [stepIsReady_iff hname hversion, hcalled, activitySkillIsPermitted_move_to_iff hschema]
  simp only [currentStepIsResolvable, and_true, MoveAgrees, true_imp_iff]
  exact and_congr_right_iff

/-- A step is handed out exactly when it can be called, unless it is a walk for which, without a
catalogue, the suggested arguments and the placeholder are not taken alike. -/
theorem step_agrees_iff {planner : DecisionPlanner} {activity : ActivityPlanContext}
    (hplan : activity.plan.WellFormed)
    (hcatalog : ∀ catalog ∈ planner.sceneCatalog, catalog.HasCoordinates)
    (hskill : activity.current.skillName.isSome) :
    (StepIsReady sha256 planner.sceneCatalog context activity.current ↔
      planner.Calls sha256 context activity) ↔
      (activity.current.skillName = some "move_to" →
        MoveAgrees context "v1" planner.sceneCatalog) := by
  obtain ⟨skillName, hname⟩ := Option.isSome_iff_exists.1 hskill
  have hversion := ActivityPlanContext.schemaVersion_eq hplan hskill
  rw [calls_iff hname hversion]
  by_cases hmove : skillName = "move_to"
  · subst hmove
    simp only [hname, true_imp_iff]
    cases hscene : planner.sceneCatalog with
    | none => exact stepIsReady_walk_agrees_iff (by decide) hname hversion
    | some catalog =>
      simp only [moveAgrees_some, iff_true]
      exact stepIsReady_walk_iff (hcatalog catalog hscene) (by decide) hname hversion
  · have hother : activity.current.skillName ≠ some "move_to" := by
      rw [hname]
      exact fun h ↦ hmove (Option.some.inj h)
    simp only [hother, false_imp_iff, iff_true]
    exact stepIsReady_iff_of_ne hname hversion hmove

/-! ## A walk without coordinates -/

namespace Scenario

/-- A lease to walk, whose hint suggests no arguments. -/
def walkContext : AgentContext where
  eventId := "e1"
  sessionId := "s"
  controlGeneration := 1
  eventSequence := 1
  decisionLeaseId := "L1"
  stateVersion := 1
  leaseKind := "observation"
  allowedDecisionActions := [.callSkill, .wait]
  parentSkillName := none
  allowedSkillName := none
  allowedSkillNames := []
  sessionSnapshot := [("AccountId", .str "role"), ("SceneId", .int 7)]
  availableSkills := [⟨"move_to", "v1", false, 0, none⟩]
  skillArgumentHints := [hint "move_to" ["target.x", "target.y", "target.z"]]
  terminalResult := none

/-- The plan with a walk to no target of a catalogue. -/
def walkPlan : ActivityPlan :=
  { wanderPlan with steps := wanderPlan.steps.map fun step ↦ { step with sceneTargetId := none } }

theorem wanderPlan_wellFormed : wanderPlan.WellFormed :=
  wellFormed_of_materialize materialize_wander

theorem walkPlan_wellFormed : walkPlan.WellFormed := by
  have hwander := wanderPlan_wellFormed
  have hsteps : ∀ step ∈ walkPlan.steps, step.WellFormed := by
    intro step hstep
    obtain ⟨raw, hraw, rfl⟩ := List.mem_map.1 hstep
    have hwell := hwander.steps raw hraw
    exact { hwell with
      sceneTargetId := fun _ htarget ↦ nomatch htarget
      planned := { hwell.planned with }
      targeted := fun htarget ↦ nomatch htarget }
  exact { hwander with
    steps := hsteps
    social := { hwander.social with }
    phase_eq := by decide }

def plainActivity : ActivityPlanContext where
  plan := walkPlan
  current := ⟨"move", "movement", some "move_to", some "v1", none, "Walk to a plaza point", 2,
    .pending, 0⟩
  currentStep_eq := by decide

theorem plain_exclusive : (none : Option ℕ) = none ∨ ([] : List String) = [] := Or.inl rfl

/-- A planner without a catalogue. -/
def plainPlanner : DecisionPlanner := ⟨true, none, [], none, none, plain_exclusive⟩

/-- A catalogue with one point of the plaza. -/
def plazaCatalog : SceneCatalog where
  sceneIdFromSnapshot _ := some 7
  movementTarget targetId := if targetId = "scene:7:navigation:1" then
    some ⟨targetId, 7, coordinateFields (.float 3 0) (.float 0 0) (.float 5 (-1))⟩ else none
  trustedMovementTarget _ _ := none
  selectCandidate _ _ _ := none

theorem plazaCatalog_hasCoordinates : plazaCatalog.HasCoordinates := by
  intro targetId target htarget
  simp only [plazaCatalog, Option.mem_def, Option.ite_none_right_eq_some, Option.some.injEq]
    at htarget
  rw [← htarget.2]
  exact ⟨_, _, _, rfl, rfl, rfl, rfl⟩

def wanderActivity : ActivityPlanContext where
  plan := wanderPlan
  current := { plainActivity.current with sceneTargetId := some "scene:7:navigation:1" }
  currentStep_eq := by decide

def plazaPlanner : DecisionPlanner := { plainPlanner with sceneCatalog := some plazaCatalog }

end Scenario

open Scenario in
/-- The walk is handed out, and the planner has no action for it. -/
theorem ready_walk_deferred :
    plainActivity.plan.WellFormed ∧ plainActivity.plan.status = .active ∧
      StepIsReady Scenario.config.outbox.sha256 plainPlanner.sceneCatalog walkContext
        plainActivity.current ∧
      plainPlanner.plannedActivityAction Scenario.config.outbox.sha256 walkContext plainActivity =
        none :=
  ⟨walkPlan_wellFormed, rfl, ⟨by decide, by decide⟩, by decide⟩

open Scenario in
/-- The walk to a point of the catalogue is called. -/
theorem step_agrees_iff_plaza :
    StepIsReady Scenario.config.outbox.sha256 plazaPlanner.sceneCatalog walkContext
        wanderActivity.current ∧
      plazaPlanner.Calls Scenario.config.outbox.sha256 walkContext wanderActivity := by
  have hcatalog : ∀ catalog ∈ plazaPlanner.sceneCatalog, catalog.HasCoordinates := by
    intro catalog hcatalog
    rw [← Option.some.inj hcatalog]
    exact plazaCatalog_hasCoordinates
  rw [← (step_agrees_iff wanderPlan_wellFormed hcatalog rfl).2 fun _ ↦ moveAgrees_some, and_self]
  exact ⟨by decide, by decide⟩

end LlmGateway
