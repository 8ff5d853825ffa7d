import LlmGateway.Relational.Outcome
import Mathlib.Data.List.DropRight
import Mathlib.Data.List.Nodup
import Mathlib.Data.Int.Notation

/-!
# Activity plans

The plan of a control cycle (`activity_plan.py`). A plan is a plain record: the operations
replace its fields with `model_copy`, which checks nothing, so only `validate` says which records
the database gives back. A stored plan is the dump of a plan, whose fields have the types of
the record; validating it strips the texts and checks the values. Where pydantic reports all the
fields at fault, `validate` reports the first.
-/

namespace LlmGateway

open Relational

/-! ## Texts -/

/-- The characters of the Unicode property `White_Space`. -/
def isWhitespace (c : Char) : Bool :=
  c.toNat ∈ [0x9, 0xA, 0xB, 0xC, 0xD, 0x20, 0x85, 0xA0, 0x1680, 0x2028, 0x2029, 0x202F, 0x205F,
    0x3000] || 0x2000 ≤ c.toNat && c.toNat ≤ 0x200A

/-- `strip_whitespace`. -/
def strip (text : String) : String :=
  String.ofList ((text.toList.dropWhile isWhitespace).rdropWhile isWhitespace)

/-- `NonEmptyString`, with the maximal length of the field. -/
def nonEmptyString (maxLength : ℕ) (text : String) : Except String String :=
  if (strip text).length < 1 then .error "String should have at least 1 character"
  else if maxLength < (strip text).length then .error "String is too long"
  else .ok (strip text)

/-- `NonEmptyString | None`. -/
def optionalNonEmptyString (maxLength : ℕ) : Option String → Except String (Option String)
  | none => .ok none
  | some text => (nonEmptyString maxLength text).map some

/-- A check that raises. -/
def raiseIf (condition : Prop) [Decidable condition] (message : String) : Except String Unit :=
  if condition then .error message else .ok ()

/-! ## Steps -/

/-- `CANONICAL_NON_CHAT_SKILLS`. -/
def canonicalNonChatSkills : List String :=
  ["observe_state", "move_to", "stop_move", "jump", "play_action", "scene_tornado", "sign_in",
    "shooting_auto_schedule", "darts_auto_schedule", "dance_auto_schedule",
    "draw_lots_auto_schedule", "wish_board_auto_schedule", "paper_plane_auto_schedule",
    "coffee_auto_schedule", "seat_sit", "seat_get_out", "hot_air_balloon_auto_schedule",
    "hot_air_balloon_exit", "helicopter_auto_schedule", "helicopter_exit",
    "elevator_auto_schedule"]

inductive PlanStatus where
  | active
  | completed
  | paused
  | abandoned
deriving DecidableEq, Repr

inductive StepStatus where
  | pending
  | started
  | succeeded
  | failed
  | skipped
deriving DecidableEq, Repr

structure ActivityPlanStep where
  stepId : String
  phase : String
  skillName : Option String
  schemaVersion : Option String
  sceneTargetId : Option String
  intent : String
  maxAttempts : ℤ
  status : StepStatus
  attemptCount : ℤ
deriving DecidableEq, Repr

namespace ActivityPlanStep

/-- `validate_action_identity`. -/
def validateActionIdentity (step : ActivityPlanStep) : Except String Unit := do
  raiseIf (step.skillName.isNone ≠ step.schemaVersion.isNone)
    "skillName and schemaVersion must be supplied together"
  raiseIf (step.skillName = some "nearby_chat_send")
    "direct chat skill is not an activity plan step"
  raiseIf (step.sceneTargetId.isSome ∧ step.skillName ≠ some "move_to")
    "sceneTargetId is only valid for move_to"
  raiseIf (∃ name ∈ step.skillName, name ∉ canonicalNonChatSkills)
    "skillName is not in the canonical non-chat catalog"
  raiseIf (step.skillName.isSome ∧ step.schemaVersion ≠ some "v1")
    "activity skill schemaVersion must be v1"
  raiseIf (step.skillName = none ∧ step.phase ≠ "social")
    "only a social opportunity step may omit skillName"
  raiseIf (step.maxAttempts < step.attemptCount) "attemptCount must not exceed maxAttempts"

/-- The fields of a step, and then `validate_action_identity`. -/
def validate (raw : ActivityPlanStep) : Except String ActivityPlanStep := do
  let stepId ← nonEmptyString 128 raw.stepId
  let phase ← nonEmptyString 64 raw.phase
  let skillName ← optionalNonEmptyString 128 raw.skillName
  let schemaVersion ← optionalNonEmptyString 128 raw.schemaVersion
  let sceneTargetId ← optionalNonEmptyString 256 raw.sceneTargetId
  let intent ← nonEmptyString 512 raw.intent
  raiseIf (raw.maxAttempts < 1) "maxAttempts should be greater than or equal to 1"
  raiseIf (2 < raw.maxAttempts) "maxAttempts should be less than or equal to 2"
  raiseIf (raw.attemptCount < 0) "attemptCount should be greater than or equal to 0"
  raiseIf (2 < raw.attemptCount) "attemptCount should be less than or equal to 2"
  let step := { raw with stepId, phase, skillName, schemaVersion, sceneTargetId, intent }
  step.validateActionIdentity
  return step

end ActivityPlanStep

/-! ## Plans -/

structure ActivityPlan where
  planId : String
  goalId : String
  goalSummary : String
  phase : String
  status : PlanStatus
  version : ℤ
  currentStepId : Option String
  steps : List ActivityPlanStep
deriving DecidableEq, Repr

/-- `_validate_social_opportunity_layout`. -/
def validateSocialOpportunityLayout (steps : List ActivityPlanStep) : Except String Unit := do
  let socialIndexes := (steps.map (·.skillName)).findIdxs Option.isNone
  raiseIf (1 < socialIndexes.length)
    "activity plan may contain at most one social opportunity step"
  raiseIf (∃ first ∈ socialIndexes.head?, first + 1 ≠ steps.length)
    "social opportunity step must be the final plan step"

namespace ActivityPlan

def step (plan : ActivityPlan) (stepId : String) : Except String ActivityPlanStep :=
  match plan.steps.find? fun step ↦ step.stepId = stepId with
  | some step => .ok step
  | none => .error "activity plan step does not exist"

def currentStep (plan : ActivityPlan) : Except String ActivityPlanStep :=
  match plan.currentStepId with
  | none => .error "activity plan is complete"
  | some stepId => plan.step stepId

/-- The number of steps that call a skill. -/
def executableCount (plan : ActivityPlan) : ℕ :=
  (plan.steps.map (·.skillName)).countP Option.isSome

/-- `validate_plan_state`. -/
def validatePlanState (plan : ActivityPlan) : Except String Unit := do
  raiseIf (¬ (plan.steps.map (·.stepId)).Nodup) "stepId values must be unique"
  validateSocialOpportunityLayout plan.steps
  raiseIf (plan.executableCount < 3) "activity plan requires at least three executable steps"
  raiseIf (6 < plan.executableCount)
    "activity plan cannot contain more than six executable steps"
  raiseIf (7 < plan.steps.length) "activity plan contains too many total steps"
  raiseIf (∃ stepId ∈ plan.currentStepId, stepId ∉ plan.steps.map (·.stepId))
    "currentStepId must reference a plan step"
  raiseIf (plan.status = .completed ∧ plan.currentStepId ≠ none)
    "completed activity plan cannot have a current step"
  raiseIf (plan.status = .active ∧ plan.currentStepId = none)
    "active activity plan requires a current step"
  raiseIf (∃ current ∈ plan.currentStep.toOption, current.phase ≠ plan.phase)
    "phase must match the current step"

/-- `ActivityPlan.model_validate` of a dumped plan. -/
def validate (raw : ActivityPlan) : Except String ActivityPlan := do
  let planId ← nonEmptyString 128 raw.planId
  let goalId ← nonEmptyString 128 raw.goalId
  let goalSummary ← nonEmptyString 512 raw.goalSummary
  let phase ← nonEmptyString 64 raw.phase
  raiseIf (raw.version < 1) "version should be greater than or equal to 1"
  let currentStepId ← optionalNonEmptyString 128 raw.currentStepId
  let steps ← raw.steps.mapM ActivityPlanStep.validate
  let plan := { raw with planId, goalId, goalSummary, phase, currentStepId, steps }
  plan.validatePlanState
  return plan

end ActivityPlan

/-! ## Proposals -/

structure ActivityPlanProposalStep where
  stepId : String
  phase : String
  skillName : Option String
  schemaVersion : Option String
  sceneTargetId : Option String
  intent : String
deriving DecidableEq, Repr

structure ActivityPlanProposal where
  goalId : String
  goalSummary : String
  steps : List ActivityPlanProposalStep
deriving DecidableEq, Repr

/-- The skill of the step is among the available ones. -/
def ActivityPlanProposalStep.isAvailable (step : ActivityPlanProposalStep)
    (availableSkills : List (String × String)) : Bool :=
  match step.skillName, step.schemaVersion with
  | some skillName, some schemaVersion => (skillName, schemaVersion) ∈ availableSkills
  | _, _ => false

/-- The step of a new plan. -/
def ActivityPlanProposalStep.toPlanStep (step : ActivityPlanProposalStep) : ActivityPlanStep where
  stepId := step.stepId
  phase := step.phase
  skillName := step.skillName
  schemaVersion := step.schemaVersion
  sceneTargetId := step.sceneTargetId
  intent := step.intent
  maxAttempts := if step.skillName = none then 1 else 2
  status := .pending
  attemptCount := 0

/-- `materialize_activity_plan`. -/
def materializeActivityPlan (proposal : ActivityPlanProposal) (planId : String) (version : ℤ)
    (availableSkills : List (String × String)) (lobby : Bool) : Except String ActivityPlan := do
  let executable := proposal.steps.filter (·.skillName.isSome)
  raiseIf (∃ step ∈ executable, step.isAvailable availableSkills = false)
    "activity plan contains skills outside availableSkills"
  raiseIf (lobby ∧ executable.head?.map (fun step ↦ (step.skillName, step.schemaVersion)) ≠
      some (some "scene_tornado", some "v1"))
    "Lobby activity plan must start with scene_tornado:v1"
  match proposal.steps.head? with
  | none => .error "tuple index out of range"
  | some first =>
    ActivityPlan.validate
      { planId, goalId := proposal.goalId, goalSummary := proposal.goalSummary
        phase := first.phase, status := .active, version, currentStepId := some first.stepId
        steps := proposal.steps.map (·.toPlanStep) }

/-! ## Operations -/

/-- `_replace_step`. -/
def replaceStep (plan : ActivityPlan) (replacement : ActivityPlanStep) : List ActivityPlanStep :=
  plan.steps.map fun step ↦ if step.stepId = replacement.stepId then replacement else step

/-- `_advance_after_terminal`. -/
def advanceAfterTerminal (plan : ActivityPlan) (completedStep : ActivityPlanStep) :
    ActivityPlan :=
  let currentIndex := plan.steps.findIdx fun step ↦ step.stepId = completedStep.stepId
  let steps := replaceStep plan completedStep
  match steps[currentIndex + 1]? with
  | none => { plan with steps, status := .completed, currentStepId := none }
  | some nextStep =>
    { plan with steps, phase := nextStep.phase, currentStepId := some nextStep.stepId }

/-- The attempts of a step of which a terminal is recorded. -/
def ActivityPlanStep.attempts (step : ActivityPlanStep) : ℤ :=
  if step.status = .started then step.attemptCount else step.attemptCount + 1

def recordStepStarted (plan : ActivityPlan) (stepId : String) : Except String ActivityPlan := do
  let current ← plan.currentStep
  raiseIf (current.stepId ≠ stepId ∨ current.skillName = none)
    "started skill does not match current plan step"
  raiseIf (current.status ≠ .pending ∧ current.status ≠ .started)
    "current plan step cannot be started"
  let replacement := { current with status := .started, attemptCount := current.attempts }
  return { plan with steps := replaceStep plan replacement }

def recordStepTerminal (plan : ActivityPlan) (stepId : String)
    (succeeded retryable correctedDecisionAllowed : Bool) : Except String ActivityPlan := do
  let current ← plan.currentStep
  raiseIf (current.stepId ≠ stepId ∨ current.skillName = none)
    "terminal skill does not match current plan step"
  let attempts := current.attempts
  if succeeded then
    return advanceAfterTerminal plan { current with status := .succeeded, attemptCount := attempts }
  else if (retryable ∨ correctedDecisionAllowed) ∧ attempts < current.maxAttempts then
    let pending := { current with status := .pending, attemptCount := attempts }
    return { plan with steps := replaceStep plan pending }
  else
    return advanceAfterTerminal plan { current with status := .skipped, attemptCount := attempts }

def invalidateMoveTarget (plan : ActivityPlan) (stepId : String) : Except String ActivityPlan := do
  let current ← plan.currentStep
  raiseIf (current.stepId ≠ stepId ∨ current.skillName ≠ some "move_to")
    "only the current move_to step can lose its target"
  let attempts := min (current.attemptCount + 1) current.maxAttempts
  let replacement :=
    { current with sceneTargetId := none, status := .pending, attemptCount := attempts }
  return { plan with steps := replaceStep plan replacement }

def replaceMoveTarget (plan : ActivityPlan) (stepId : String) (targetId : Option String)
    (version : ℤ) : Except String ActivityPlan := do
  let current ← plan.currentStep
  raiseIf (current.stepId ≠ stepId ∨ current.skillName ≠ some "move_to")
    "only the current move_to step can be retargeted"
  let replacement := { current with sceneTargetId := targetId, status := .pending }
  return { plan with steps := replaceStep plan replacement, version }

def completeSocialOpportunity (plan : ActivityPlan) : Except String ActivityPlan := do
  let current ← plan.currentStep
  raiseIf (current.skillName ≠ none ∨ current.phase ≠ "social")
    "current step is not a social opportunity"
  return advanceAfterTerminal plan { current with status := .succeeded }

end LlmGateway
