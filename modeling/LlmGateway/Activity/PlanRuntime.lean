import LlmGateway.Activity.Repository
import LlmGateway.Contract.Canonical

/-!
# The live plan

A plan of three steps (sit down, have coffee, get up) is executed one lease at a time
(`plan_runtime.py`). Its state is kept in a file: the identity of the plan, the current step and
the outcomes of the finished ones. The digest of the plan is a parameter, `none` where its
canonical bytes do not exist.
-/

namespace LlmGateway.PlanRuntime

/-- The exceptions: `PlanValidationError` with its detail, and those of Python itself. -/
inductive PlanFault where
  | planValidation (detail : String)
  | typeError
  | indexError
  | keyError
  | unicodeEncodeError
deriving DecidableEq, Repr

/-! ## Plans -/

/-- `SEAT_COFFEE_SEQUENCE`. -/
def seatCoffeeSequence : List String := ["seat_sit", "coffee_auto_schedule", "seat_get_out"]

/-- `_STEP_ID_SEQUENCE`. -/
def stepIdSequence : List String := ["sit", "coffee", "get-out"]

structure PlanStep where
  stepId : String
  skillName : String
  arguments : List (Text × Json)

/-- `_ExecutionPlanWire`, as parsed. -/
structure ExecutionPlanWire where
  planId : String
  sessionId : String
  gatewayId : String
  sceneId : String
  expectedSkills : List String
  steps : List PlanStep

structure ExecutionPlan extends ExecutionPlanWire where
  digest : String

/-- `wire.model_dump(mode="json", by_alias=True)`. -/
def ExecutionPlanWire.body (wire : ExecutionPlanWire) : Json :=
  .obj [("planId", .str wire.planId), ("sessionId", .str wire.sessionId),
    ("gatewayId", .str wire.gatewayId), ("sceneId", .str wire.sceneId),
    ("expectedSkills", .arr (wire.expectedSkills.map fun skill : String ↦ .str skill)),
    ("steps", .arr (wire.steps.map fun step ↦
      .obj [("stepId", .str step.stepId), ("skillName", .str step.skillName),
        ("arguments", .obj step.arguments)]))]

/-- An argument of the step at a position. -/
def ExecutionPlanWire.argument (wire : ExecutionPlanWire) (index : ℕ) (name : String) :
    Option Json :=
  (wire.steps[index]?).bind fun step ↦ Json.get? step.arguments name

/-- `isinstance(value, str) and value.strip()`. -/
def isFilled : Option Json → Bool
  | some (.str text) => !text.isBlank
  | _ => false

/-- `validate_execution_plan`, of a parsed plan. -/
def validateExecutionPlan (sha256 : Json → Option String) (wire : ExecutionPlanWire) :
    Except PlanFault ExecutionPlan :=
  if wire.expectedSkills ≠ canonicalNonChatSkills then
    .error (.planValidation "expectedSkills must equal the canonical 21-skill catalog")
  else if wire.steps.map (·.skillName) ≠ seatCoffeeSequence then
    .error (.planValidation "steps must implement the seat-coffee-get-out sequence")
  else if wire.steps.map (·.stepId) ≠ stepIdSequence then
    .error (.planValidation "stepId sequence is invalid")
  else if ∃ step ∈ wire.steps, Json.get? step.arguments "sceneId" ≠ some (.str wire.sceneId) then
    .error (.planValidation "step sceneId must match plan sceneId")
  else if ¬(isFilled (wire.argument 0 "chairId") ∧ isFilled (wire.argument 1 "coffeeName") ∧
      isFilled (wire.argument 2 "chairId")) then
    .error (.planValidation "seat and coffee action arguments are incomplete")
  else if wire.argument 0 "chairId" ≠ wire.argument 2 "chairId" then
    .error (.planValidation "seat_sit and seat_get_out must target the same chair")
  else match sha256 wire.body with
    | none => .error .unicodeEncodeError
    | some digest => .ok ⟨wire, digest⟩

/-! ## States -/

inductive Outcome where
  | success
  | failed
deriving DecidableEq, Repr

def Outcome.text : Outcome → String
  | success => "success"
  | failed => "failed"

/-- `PlanState`. What a file holds is compared with the plan before it is used, so its identity
and its current step may be of any type. -/
structure PlanState where
  schemaVersion : Json
  planId : Json
  planDigest : Json
  currentStepId : Json
  stepOutcomes : List (Text × Outcome)

/-- `state.step_outcomes.get(step_id)`. -/
def PlanState.outcome? (state : PlanState) (stepId : String) : Option Outcome :=
  (state.stepOutcomes.find? fun outcome ↦ outcome.1 = Text.ofString stepId).map (·.2)

/-- `_STATE_SCHEMA_VERSION`. -/
def stateSchemaVersion : String := "llm-gateway-live-plan-state-v1"

/-- Looking the value up in a set raises. -/
def isUnhashable : Json → Bool
  | .arr _ | .obj _ => true
  | _ => false

/-- `PlanStateStore._validate_state`. -/
def validateState (plan : ExecutionPlan) (state : PlanState) : Except PlanFault Unit :=
  if state.schemaVersion ≠ .str stateSchemaVersion then
    .error (.planValidation "state schemaVersion")
  else if state.planId ≠ .str plan.planId then .error (.planValidation "state planId")
  else if state.planDigest ≠ .str plan.digest then .error (.planValidation "state plan digest")
  else if isUnhashable state.currentStepId then .error .typeError
  else if state.currentStepId ≠ .null ∧
      ∀ step ∈ plan.steps, state.currentStepId ≠ .str step.stepId then
    .error (.planValidation "state currentStepId")
  else if ∃ outcome ∈ state.stepOutcomes, ∀ step ∈ plan.steps, outcome.1 ≠ step.stepId then
    .error (.planValidation "state stepOutcomes")
  else .ok ()

/-! ## The file -/

/-- The state file, and the JSON value that its text says. -/
inductive StateFile where
  | absent
  | corrupt
  | json (value : Json)

/-- The JSON value of `PlanStateStore._serialize`; its keys are sorted. -/
def serialize (state : PlanState) : Json :=
  .obj [("currentStepId", state.currentStepId), ("planDigest", state.planDigest),
    ("planId", state.planId), ("schemaVersion", state.schemaVersion),
    ("stepOutcomes", .obj ((sortItems state.stepOutcomes).map fun outcome ↦
      (outcome.1, .str outcome.2.text)))]

/-- The fields of a state file. -/
def stateFields : List Text :=
  ["schemaVersion", "planId", "planDigest", "currentStepId", "stepOutcomes"]

/-- The outcomes of a file; the first one that is none decides about the exception. -/
def decodeOutcomes : List (Text × Json) → Except PlanFault (List (Text × Outcome))
  | [] => .ok []
  | (stepId, value) :: rest =>
    if isUnhashable value then .error .typeError
    else if value = .str Outcome.success.text then
      (decodeOutcomes rest).map ((stepId, .success) :: ·)
    else if value = .str Outcome.failed.text then
      (decodeOutcomes rest).map ((stepId, .failed) :: ·)
    else .error (.planValidation "state outcomes")

/-- The state that a file holds, before it is validated. -/
def decodeState (raw : List (Text × Json)) : Except PlanFault PlanState :=
  if ¬((∀ key ∈ stateFields, ∃ field ∈ raw, field.1 = key) ∧
      ∀ field ∈ raw, field.1 ∈ stateFields) then
    .error (.planValidation "state schema")
  else match Json.get? raw "stepOutcomes" with
    | some (.obj outcomes) =>
      (decodeOutcomes outcomes).map fun stepOutcomes ↦
        ⟨(Json.get? raw "schemaVersion").getD .null, (Json.get? raw "planId").getD .null,
          (Json.get? raw "planDigest").getD .null, (Json.get? raw "currentStepId").getD .null,
          stepOutcomes⟩
    | _ => .error (.planValidation "state outcomes")

/-- `PlanStateStore._load`. -/
def load (plan : ExecutionPlan) : StateFile → Except PlanFault PlanState
  | .absent | .corrupt => .error (.planValidation "state file is corrupt")
  | .json (.obj raw) => do
    let state ← decodeState raw
    validateState plan state
    pure state
  | .json _ => .error (.planValidation "state schema")

/-- `PlanStateStore.load_or_initialize`, with no other process at the file. -/
def loadOrInitialize (plan : ExecutionPlan) (file : StateFile) :
    StateFile × Except PlanFault PlanState :=
  match file with
  | .absent =>
    match plan.steps.head? with
    | none => (.absent, .error .indexError)
    | some step =>
      let state : PlanState :=
        ⟨.str stateSchemaVersion, .str plan.planId, .str plan.digest, .str step.stepId, []⟩
      (.json (serialize state), .ok state)
  | file => (file, load plan file)

/-- `PlanStateStore.save`. A state that passes its checks has canonical bytes. -/
def save (plan : ExecutionPlan) (state : PlanState) (file : StateFile) :
    StateFile × Except PlanFault Unit :=
  match load plan file with
  | .error fault => (file, .error fault)
  | .ok current =>
    if current.planId ≠ state.planId ∨ current.planDigest ≠ state.planDigest then
      (file, .error (.planValidation "state identity changed"))
    else match validateState plan state with
      | .error fault => (file, .error fault)
      | .ok () => (.json (serialize state), .ok ())

/-! ## Steps -/

structure PlanExecutionContext where
  sessionId : String
  gatewayId : String
  sceneId : String
  decisionLeaseId : String
  leaseExpiresAtMs : ℤ
  nowMs : ℤ
  seatState : String

structure PreparedPlanAction where
  stepId : String
  skillName : String
  schemaVersion : String
  arguments : List (Text × Json)

/-- `context.seat_state.casefold() == value`. -/
def PlanExecutionContext.seatIs (context : PlanExecutionContext) (value : String) : Prop :=
  context.seatState.toList.flatMap casefoldChar = value.toList

instance (context : PlanExecutionContext) (value : String) : Decidable (context.seatIs value) :=
  inferInstanceAs (Decidable (_ = _))

/-- The checks of one step against the outcomes of the others and the seat. -/
def checkStep (step : PlanStep) (state : PlanState) (context : PlanExecutionContext) :
    Except PlanFault Unit :=
  if step.stepId = "sit" then
    if state.stepOutcomes ≠ [] then .error (.planValidation "seat_sit state is inconsistent")
    else if ¬context.seatIs "standing" then
      .error (.planValidation "seat_sit requires standing SeatState")
    else .ok ()
  else if step.stepId = "coffee" then
    if state.outcome? "sit" ≠ some .success then
      .error (.planValidation "seat_sit must succeed before coffee")
    else if ¬context.seatIs "seated" then
      .error (.planValidation "coffee requires seated SeatState")
    else .ok ()
  else if step.stepId = "get-out" then
    if state.outcome? "sit" ≠ some .success ∨ state.outcome? "coffee" = none then
      .error (.planValidation "seat_get_out requires terminal coffee result")
    else if ¬context.seatIs "seated" then
      .error (.planValidation "seat_get_out requires seated SeatState")
    else .ok ()
  else .ok ()

/-- The checks of the context and the lease. -/
def checkContext (plan : ExecutionPlan) (context : PlanExecutionContext) : Except PlanFault Unit :=
  if context.sessionId ≠ plan.sessionId then .error (.planValidation "session mismatch")
  else if context.gatewayId ≠ plan.gatewayId then .error (.planValidation "gateway mismatch")
  else if context.sceneId ≠ plan.sceneId then .error (.planValidation "scene mismatch")
  else if isBlankString context.decisionLeaseId then .error (.planValidation "lease is missing")
  else if context.nowMs < 0 ∨ context.leaseExpiresAtMs ≤ context.nowMs then
    .error (.planValidation "lease is expired")
  else .ok ()

/-- `steps_by_id[state.current_step_id]`; the last step with an id counts. -/
def currentStep (plan : ExecutionPlan) (state : PlanState) : Except PlanFault PlanStep :=
  if state.currentStepId = .null then .error (.planValidation "plan is complete")
  else match plan.steps.reverse.find? fun step ↦ Json.str step.stepId = state.currentStepId with
    | none => .error .keyError
    | some step => .ok step

/-- `prepare_next_action`. -/
def prepareNextAction (plan : ExecutionPlan) (state : PlanState) (context : PlanExecutionContext) :
    Except PlanFault PreparedPlanAction := do
  validateState plan state
  checkContext plan context
  let step ← currentStep plan state
  checkStep step state context
  .ok ⟨step.stepId, step.skillName, "v1", step.arguments⟩

/-- `outcomes[step_id] = outcome`. -/
def setOutcome (outcomes : List (Text × Outcome)) (stepId : Text) (outcome : Outcome) :
    List (Text × Outcome) :=
  if outcomes.any (fun entry ↦ entry.1 = stepId) then
    outcomes.map fun entry ↦ if entry.1 = stepId then (stepId, outcome) else entry
  else outcomes ++ [(stepId, outcome)]

/-- The outcome of a step. -/
def Outcome.ofSucceeded (succeeded : Bool) : Outcome := if succeeded then success else failed

/-- `next_step_id`. -/
def nextStepId (stepId : String) (succeeded : Bool) : Json :=
  if stepId = "sit" then if succeeded then .str "coffee" else .null
  else if stepId = "coffee" then .str "get-out"
  else .null

/-- `record_step_terminal`. -/
def recordStepTerminal (state : PlanState) (stepId : String) (succeeded : Bool) :
    Except PlanFault PlanState :=
  if state.currentStepId ≠ .str stepId then
    .error (.planValidation "terminal step does not match currentStepId")
  else if stepId ∉ stepIdSequence then .error (.planValidation "unknown terminal step")
  else
    .ok { state with
      currentStepId := nextStepId stepId succeeded
      stepOutcomes := setOutcome state.stepOutcomes stepId (Outcome.ofSucceeded succeeded) }

/-! ## Runs -/

/-- The file, and the state in the memory of the process that executes the plan. -/
structure Runner where
  file : StateFile
  memory : Option PlanState

inductive RunnerStep where
  | load
  | record (stepId : String) (succeeded : Bool)
  | save
  | crash

/-- One step; an exception leaves the memory as it is. A crash falls between two calls: a new
content replaces the file in one step. -/
def Runner.exec (plan : ExecutionPlan) (r : Runner) : RunnerStep → Runner
  | .load =>
    let result := loadOrInitialize plan r.file
    ⟨result.1, result.2.toOption.or r.memory⟩
  | .record stepId succeeded =>
    ⟨r.file, r.memory.map fun state ↦
      ((recordStepTerminal state stepId succeeded).toOption).getD state⟩
  | .save =>
    match r.memory with
    | none => r
    | some state => ⟨(save plan state r.file).1, r.memory⟩
  | .crash => ⟨r.file, none⟩

def Runner.run (plan : ExecutionPlan) : Runner → List RunnerStep → Runner
  | r, [] => r
  | r, step :: steps => Runner.run plan (r.exec plan step) steps

end LlmGateway.PlanRuntime
