import LlmGateway.Activity.Repository
import LlmGateway.Planner.Fallback

/-!
# The coordinator of activity plans

`ActivityPlanCoordinator.prepare_deterministic` (`activity_planner.py`), which goes on with the
stored plan if its current step can be handed out, and else proposes a plan without the model.
-/

namespace LlmGateway

open Fallback (Runtime raised safeFallbackPlan)
open Occupancy (Snapshot)

/-- `ActivityPlanCoordinator`. -/
structure ActivityPlanCoordinator where
  runtime : Runtime
  stepAuthorizer : ActivityStepAuthorizer
  sceneCatalog : Option Scene.Catalog

/-- What a call of the coordinator finds: the claim, the state of the cycle with the rows around it
and its history, the capacities, and the id for a new plan. -/
structure CoordinatorCallInput where
  store : ActivityStore
  claim : ClaimedEvent
  activity : ActivityState
  recentActions : List (List (Text × Json))
  capacity : Option Snapshot
  planId : String

/-- `ActivityPlanUnavailableError`. -/
def unavailable {α : Type} (x : Except ActivityPlanUnavailableError α) : Except Fallback.PlanError α :=
  x.mapError fun _ ↦ .raised "ActivityPlanUnavailableError"

/-- `_current_step_has_capacity`. -/
def currentStepHasCapacity (capacity : Option Snapshot) (step : ActivityPlanStep) : Bool :=
  capacity.all fun snapshot ↦ step.skillName.all snapshot.isAvailable

namespace ActivityPlanCoordinator

variable (coordinator : ActivityPlanCoordinator) (context : AgentContext)

/-- `_current_step_is_resolvable`, in the coordinator's catalogue. -/
def stepIsResolvable (step : ActivityPlanStep) : Except String Bool :=
  match coordinator.sceneCatalog with
  | none => .ok true
  | some catalog =>
    if step.skillName ≠ some "move_to" then .ok true
    else do
      match ← Scene.sceneIdFromSnapshot coordinator.runtime.digits context.sessionSnapshot,
          step.sceneTargetId with
      | some sceneId, some targetId =>
        return decide (∃ target ∈ catalog.getMovementTarget targetId, target.sceneId = sceneId)
      | _, _ => return false

/-- The current step is executable, resolvable and has room. -/
def keepsStep (capacity : Option Snapshot) (step : ActivityPlanStep) : Except String Bool :=
  if currentStepIsExecutable coordinator.stepAuthorizer context step then
    (coordinator.stepIsResolvable context step).map (· && currentStepHasCapacity capacity step)
  else .ok false

/-- The stored plan with its current step, if it is gone on with. -/
def keptStep (capacity : Option Snapshot) (stored : Option ActivityPlan) :
    Except String (Option (ActivityPlan × ActivityPlanStep)) :=
  match stored.filter (·.status = .active) with
  | none => .ok none
  | some plan => do
    let step ← plan.currentStep
    let keeps ← coordinator.keepsStep context capacity step
    return if keeps then some (plan, step) else none

/-- The first target of the scene that is not the one of the step. -/
def nextTargetId (catalog : Scene.Catalog) (version : ℤ)
    (recentActions : List (List (Text × Json))) (step : ActivityPlanStep) :
    Except String (Option String) := do
  match ← Scene.sceneIdFromSnapshot coordinator.runtime.digits context.sessionSnapshot with
  | none => return none
  | some sceneId =>
    let roleIdentity ← Scene.roleIdentityFromSnapshot context.sessionSnapshot context.sessionId
    let candidates ← catalog.selectCandidates coordinator.runtime.digits coordinator.runtime.sha256
      sceneId roleIdentity version (max 1 (catalog.movementTargetsForScene sceneId).length)
      recentActions
    return (candidates.find? fun candidate ↦ some candidate.targetId ≠ step.sceneTargetId).map
      (·.targetId)

/-- `_retarget_active_move_step`. -/
def retargetActiveMoveStep (input : CoordinatorCallInput) (plan : ActivityPlan)
    (step : ActivityPlanStep) : Except Fallback.PlanError (Option ActivityPlan) :=
  match coordinator.sceneCatalog with
  | none => .ok none
  | some catalog =>
    if step.skillName ≠ some "move_to" ∨
        input.claim.eventSequence ≤ input.activity.lastEventSequence.getD 0 then .ok none
    else do
      let version := max (input.activity.planVersion.getD 0) plan.version + 1
      let targetId ← raised
        (coordinator.nextTargetId context catalog version input.recentActions step)
      let retargeted ← (replaceMoveTarget plan step.stepId targetId version).mapError
        .activityPlanValidation
      return some retargeted

/-- `prepare_deterministic`: the plan to go on with and the state after it is written; no plan if
none can be proposed. -/
def prepareDeterministic (input : CoordinatorCallInput) :
    Except Fallback.PlanError (Option (ActivityPlan × ActivityState)) := do
  let stored ← unavailable input.activity.loadPlan
  match ← raised (coordinator.keptStep context input.capacity stored) with
  | some (plan, step) =>
    let retargeted ← coordinator.retargetActiveMoveStep context input plan step
    let prepared ← unavailable (preparePlan input.store input.claim retargeted input.activity)
    return some prepared
  | none =>
    let version := max (input.activity.planVersion.getD 0) (stored.elim 0 (·.version)) + 1
    match safeFallbackPlan coordinator.runtime coordinator.stepAuthorizer context input.planId
        version coordinator.sceneCatalog input.recentActions input.capacity with
    | .error (.activityPlanValidation _) => return none
    | .error (.raised error) => .error (.raised error)
    | .ok plan =>
      let prepared ← unavailable (preparePlan input.store input.claim (some plan) input.activity)
      return some prepared

end ActivityPlanCoordinator

end LlmGateway
