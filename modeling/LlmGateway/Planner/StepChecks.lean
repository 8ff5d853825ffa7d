import LlmGateway.Planner.Planning

/-!
# The checks of the current step

`_current_step_is_executable` and `_current_step_is_resolvable` (`activity_planner.py`), by which
the coordinator tells whether the current step of a stored plan may be handed out.
-/

namespace LlmGateway

/-- `ActivityStepAuthorizer`. -/
abbrev ActivityStepAuthorizer := AgentContext → String → String → Bool

/-- `_current_step_is_executable`. -/
def currentStepIsExecutable (stepAuthorizer : ActivityStepAuthorizer) (context : AgentContext)
    (step : ActivityPlanStep) : Bool :=
  match step.skillName, step.schemaVersion with
  | none, _ => true
  | some skillName, some schemaVersion => stepAuthorizer context skillName schemaVersion
  | some _, none => false

/-- `_current_step_is_resolvable`. -/
def currentStepIsResolvable (sceneCatalog : Option SceneCatalog) (context : AgentContext)
    (step : ActivityPlanStep) : Bool :=
  match sceneCatalog with
  | none => true
  | some catalog =>
    if step.skillName ≠ some "move_to" then true
    else match catalog.sceneIdFromSnapshot context.sessionSnapshot,
        step.sceneTargetId.bind catalog.movementTarget with
      | some sceneId, some target => target.sceneId = sceneId
      | _, _ => false

end LlmGateway
