import LlmGateway.Planner.Candidates
import LlmGateway.System.Dispatch

/-!
# From a lease to a decision

`_plan` of the decision planner (`decision_service.py`): an action is chosen, replaced where the
activity plan or the scene catalogue does not go with it, and passed to `plan_decision`. If the
capacity of its activity is used up, a local activity takes its place, and at last a wait.
-/

namespace LlmGateway

/-- `ActivityPlanContext`: the plan to go on with, which has a current step. -/
structure ActivityPlanContext where
  plan : ActivityPlan
  current : ActivityPlanStep
  currentStep_eq : plan.currentStep = .ok current

/-- `GatewayV2DecisionPlanner`. `forceWaitMs` is the time of the forced action `wait`. -/
structure DecisionPlanner where
  hasCoordinator : Bool
  sceneCatalog : Option SceneCatalog
  forceSkills : List String
  forceWaitMs : Option ℕ
  decisionTargetMs : Option ℕ
  exclusive : forceWaitMs = none ∨ forceSkills = []

/-- How the run of the model ends. -/
inductive ModelAnswer where
  | overloaded
  | timeout
  | raised
  | nodeError
  | missing
  /-- The candidates that `gateway_v2_select_action_node` selects from. -/
  | reasoned (candidates : List AgentAction)

/-- What a planning finds outside the database. -/
structure PlanningScene where
  answer : ModelAnswer
  /-- The snapshot of the capacities after a full reservation. -/
  capacity : Option ActivityCapacitySnapshot
  /-- `allocate`, with this preferred target. -/
  allocate : SceneTarget → Option SceneTarget

/-- The method of the coordinator that a planning calls. -/
inductive CoordinatorCall where
  | prepareDeterministic
  | resume
  | prepare
deriving DecidableEq, Repr

namespace DecisionPlanner

variable (planner : DecisionPlanner) (sha256 : Text → Digest) (now : ℕ) (event : GatewayEvent)
  (context : AgentContext)

/-- `deadline_reached`. -/
def DeadlineReached : Prop :=
  ∃ target ∈ planner.decisionTargetMs, event.occurredAtMs + target ≤ now

instance : Decidable (planner.DeadlineReached now event) :=
  inferInstanceAs (Decidable (∃ _ ∈ _, _))

/-- The transition out of the initial room, unless the event is late. -/
def transition : Option AgentAction :=
  if planner.DeadlineReached now event ∧ planner.forceWaitMs = none then none
  else initialRoomTransitionAction sha256 context

/-- The call of the coordinator, unless the actions are forced. -/
def coordinatorCall : Option CoordinatorCall :=
  if planner.forceSkills ≠ [] ∨ planner.forceWaitMs.isSome ∨ planner.hasCoordinator = false then
    none
  else if (planner.transition sha256 now event context).isSome then some .prepareDeterministic
  else if planner.DeadlineReached now event then some .resume
  else some .prepare

/-- `_planned_activity_action`. -/
def plannedActivityAction (activity : ActivityPlanContext) : Option AgentAction :=
  match activity.current.skillName, activity.current.schemaVersion with
  | some skillName, some schemaVersion =>
    activitySkillAction sha256 context skillName schemaVersion activity.current.intent
      planner.sceneCatalog activity.current.sceneTargetId
  | some _, none => none
  | none, _ =>
    deferAction context "Remain available for the next opportunity in the activity plan" 1000

/-- The action of the current step: a step with a skill that cannot be called is deferred. -/
def activityAction (activity : ActivityPlanContext) :
    Except EventProcessResult (Option AgentAction) :=
  match planner.plannedActivityAction sha256 context activity with
  | some action => .ok (some action)
  | none =>
    if activity.current.skillName = none then .ok none
    else match deferOrStopAction context
        "Current activity step cannot be resolved from trusted scene data" with
      | some action => .ok (some action)
      | none => .error (.retry "agent" "activity_step_unresolvable")

/-- The choice of a late event. -/
def lateAction : Except EventProcessResult AgentAction :=
  match (localActivityAction sha256 context
      "Continue with a lease-authorized local activity after queue delay" none none 1 []).orElse
      fun _ ↦ decisionDeadlineFallback sha256 context with
  | some action => .ok action
  | none => .error (.retry "agent" "deadline_exceeded")

/-- The choice of the activity plan, or of a late event. -/
def chooseByActivity (activity : Option ActivityPlanContext) :
    Except EventProcessResult (Option AgentAction) := do
  match ← activity.elim (.ok none) (planner.activityAction sha256 context) with
  | some action => return some action
  | none =>
    if planner.DeadlineReached now event then return some (← lateAction sha256 context)
    else return none

/-- The choice without the model, if there is one. -/
def chooseWithoutModel (activity : Option ActivityPlanContext) :
    Except EventProcessResult (Option AgentAction) :=
  match planner.transition sha256 now event context with
  | some action => .ok (some action)
  | none =>
    if planner.forceSkills ≠ [] then
      match forcedSkillAction sha256 context event planner.forceSkills with
      | some action => .ok (some action)
      | none => .error (.retry "database" "operation_failed")
    else match planner.forceWaitMs with
      | some waitMs =>
        match forcedWaitAction context waitMs with
        | some action => .ok (some action)
        | none => .error (.giveUp "decision" "forced_action_not_authorized")
      | none => planner.chooseByActivity sha256 now event context activity

end DecisionPlanner

section Choice

variable (sha256 : Text → Digest) (context : AgentContext)

/-- `decide`, where the selected action is that of `gateway_v2_select_action_node`: the category
of its error, or the action. -/
def decideAction : ModelAnswer → Except String AgentAction
  | .overloaded => .error "overloaded"
  | .timeout => .error "timeout"
  | .raised => .error "execution_failed"
  | .nodeError => .error "node_error"
  | .missing => .error "empty_output"
  | .reasoned candidates =>
    match if candidates = [] then none else selectAction sha256 context candidates with
    | none => .error "node_error"
    | some action => .ok (normalizeAction sha256 context action)

/-- A local activity, or a wait, while there is no capacity for the model. -/
def saturatedAction : Option AgentAction :=
  (localActivityAction sha256 context
    "Continue with a lease-authorized local activity while model capacity is saturated"
    none none 1 []).orElse fun _ ↦
      if .wait ∈ context.allowedDecisionActions then
        some ⟨"Agent unavailable; defer decision within the current lease", defaultTtlMs,
          .wait (staggeredWaitMs sha256 context)⟩
      else none

/-- The choice of the model, or in its place. -/
def chooseWithModel (answer : ModelAnswer) : Except EventProcessResult AgentAction :=
  match decideAction sha256 context answer with
  | .ok action => .ok action
  | .error category =>
    if category = "timeout" ∨ category = "overloaded" then
      match saturatedAction sha256 context with
      | some action => .ok action
      | none => .error (.retry "agent" category)
    else .error (.retry "agent" category)

/-- A call of a skill that is not the one of the current step gives way to a wait, if that is
allowed. -/
def alignAction (activity : Option ActivityPlanContext) (action : AgentAction) : AgentAction :=
  match activity, action.kind.skill? with
  | some activity, some (skillName, _) =>
    if activity.current.skillName = some skillName then action
    else (deferAction context "Current activity step is not authorized by this lease"
      1000).getD action
  | _, _ => action

/-- `arguments.get("target")`, if it is an object. -/
def targetArgument (arguments : List (Text × Json)) : Option (List (Text × Json)) :=
  match Json.get? arguments "target" with
  | some (.obj fields) => some fields
  | _ => none

/-- The walk to the target that is allocated for the role. -/
def movedAction (sceneCatalog : Option SceneCatalog)
    (allocate : SceneTarget → Option SceneTarget) (action : AgentAction) : Option AgentAction :=
  match action.kind with
  | .callSkill skillName schemaVersion arguments tracking => do
    let catalog ← sceneCatalog
    let sceneId ← catalog.sceneIdFromSnapshot context.sessionSnapshot
    let target ← targetArgument arguments
    let trusted ← catalog.trustedMovementTarget sceneId target
    let allocated ← allocate trusted
    let arguments := Json.set arguments "target" (.obj allocated.coordinates)
    if SkillIsPermitted sha256 context skillName schemaVersion arguments tracking then
      some { action with kind := .callSkill skillName schemaVersion arguments tracking }
    else none
  | _ => none

/-- `_finalize_move_to_action`; without a result the selection has failed. -/
def finalizeMoveToAction (sceneCatalog : Option SceneCatalog)
    (allocate : SceneTarget → Option SceneTarget) (action : AgentAction) : Option AgentAction :=
  if action.kind.skill?.map (·.1) = some "move_to" then
    (movedAction sha256 context sceneCatalog allocate action).orElse fun _ ↦
      safeUnavailableSkillAction context
  else some action

end Choice

namespace DecisionPlanner

variable (planner : DecisionPlanner) (sha256 : Text → Digest) (now : ℕ) (event : GatewayEvent)
  (context : AgentContext) (scene : PlanningScene) (activity : Option ActivityPlanContext)

/-- The action chosen for the lease. -/
def chooseForLease (fenceCurrent : Bool) : Except EventProcessResult AgentAction := do
  match ← planner.chooseWithoutModel sha256 now event context activity with
  | some action => return action
  | none =>
    if fenceCurrent then chooseWithModel sha256 context scene.answer else .error modelCallSkipped

/-- The action of a planning, with which it calls `plan_decision` first. -/
def chooseAction (fenceCurrent : Bool) : Except EventProcessResult AgentAction :=
  if ¬∃ account ∈ context.accountId, account.isFilledText = true then
    .error (.giveUp "agent" "missing_account_id")
  else if context.leaseKind = "conversation" then
    .error (.giveUp "chat" "conversation_lease_not_supported")
  else do
    let chosen ← planner.chooseForLease sha256 now event context scene activity fenceCurrent
    let aligned := normalizeAction sha256 context (alignAction context activity chosen)
    match finalizeMoveToAction sha256 context planner.sceneCatalog scene.allocate aligned with
    | some action => return action
    | none => .error (.retry "database" "operation_failed")

/-- The skill that the action calls. -/
def skillNameOf (action : AgentAction) : String := (action.kind.skill?.map (·.1)).getD ""

/-- The action in the place of one whose activity is full; without one the error is raised. -/
def fullFallback (full : AgentAction) : Option AgentAction :=
  ((localActivityAction sha256 context
    (skillNameOf full ++ " reached its configured capacity; continue elsewhere") scene.capacity
    planner.sceneCatalog (activity.elim 1 (·.plan.version)) [skillNameOf full]).orElse fun _ ↦
      decisionDeadlineFallback sha256 context).bind
        (finalizeMoveToAction sha256 context planner.sceneCatalog scene.allocate)

end DecisionPlanner

/-- The calls of `plan_decision` in a planning: the first, which binds the decision to the step
of the activity plan, and those after a full activity. -/
inductive PlanAttempt where
  | first
  | fallback
  | wait
deriving DecidableEq, Repr

/-- The action of a call. A call is made after `ActivityCapacityFullError` in the one before. -/
def DecisionPlanner.attemptedAction (planner : DecisionPlanner) (sha256 : Text → Digest) (now : ℕ)
    (event : GatewayEvent) (context : AgentContext) (scene : PlanningScene)
    (activity : Option ActivityPlanContext) (fenceCurrent : Bool) :
    PlanAttempt → Option AgentAction
  | .first => (planner.chooseAction sha256 now event context scene activity fenceCurrent).toOption
  | .fallback =>
    (planner.chooseAction sha256 now event context scene activity fenceCurrent).toOption.bind
      (planner.fullFallback sha256 context scene activity)
  | .wait => decisionDeadlineFallback sha256 context

end LlmGateway
