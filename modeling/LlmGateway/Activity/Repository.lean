import LlmGateway.Activity.Operation
import LlmGateway.Outbox.Plan

/-!
# The activity plan repository

The plan of a cycle is stored with the id and the sequence of the event that wrote it last
(`activity_plan_repository.py`). Each method is one transaction under the advisory lock of the
cycle: it checks the claim of its event, loads the plan, works on it and writes it back. The
write is guarded by the sequence: an event older than the last one leaves the row as it is and
reports success.
-/

namespace LlmGateway

/-! ## Reasons of a failure -/

/-- `str.isspace`, which `str.strip` uses. -/
def isPythonSpace (c : Char) : Bool := isWhitespace c || 0x1C ≤ c.toNat && c.toNat ≤ 0x1F

/-- `not value.strip()`. -/
def isBlankString (value : String) : Bool := value.toList.all isPythonSpace

/-- The characters with an ASCII text as their case folding; the others fold to something else. -/
def casefoldChar (c : Char) : List Char :=
  if c.isUpper then [c.toLower]
  else match c.toNat with
    | 0x17F => ['s']
    | 0x212A => ['k']
    | 0xDF | 0x1E9E => ['s', 's']
    | 0xFB00 => ['f', 'f']
    | 0xFB01 => ['f', 'i']
    | 0xFB02 => ['f', 'l']
    | 0xFB03 => ['f', 'f', 'i']
    | 0xFB04 => ['f', 'f', 'l']
    | 0xFB05 | 0xFB06 => ['s', 't']
    | _ => [c]

/-- `_ACTIVITY_RETRY_SUPPRESSION_REASONS`. -/
def activityRetrySuppressionReasons : List String :=
  ["no_available_dart_pos", "no_available_seat", "no_available_chair", "no_available_vehicle",
    "ttl_expired", "upstream_timeout"]

/-- `should_retry_activity_failure`. -/
def shouldRetryActivityFailure (reason : String) (retryable : Bool) : Bool :=
  retryable && reason ∉ activityRetrySuppressionReasons

/-- `is_target_rejection_reason`. -/
def isTargetRejectionReason (reason : String) : Bool :=
  let stripped := (reason.toList.dropWhile isPythonSpace).rdropWhile isPythonSpace
  let normalized := stripped.flatMap casefoldChar
  normalized = "target_congested".toList || "target_congested:".toList.isPrefixOf normalized ||
    normalized = "state_not_allowed".toList

/-- `_CORRECTABLE_FAILURE_REASONS`. -/
def correctableFailureReasons : List (String × List String) :=
  [("darts_auto_schedule",
      ["darts_score_invalid", "darts_score_exceeds_limit", "darts_dart_plan_invalid",
        "darts_dart_item_invalid", "darts_dart_count_invalid", "darts_dart_pos_invalid",
        "darts_score_below_limit"]),
    ("dance_auto_schedule",
      ["dance_score_invalid", "dance_score_exceeds_limit", "dance_score_below_limit"]),
    ("shooting_auto_schedule",
      ["shooting_distance_invalid", "shooting_weapon_invalid", "shooting_posture_invalid",
        "shooting_score_invalid", "shooting_score_exceeds_limit", "shooting_project_invalid",
        "shooting_game_mode_invalid", "shooting_table_num_invalid",
        "shooting_score_below_limit"]),
    ("paper_plane_auto_schedule",
      ["paper_plane_plane_name_invalid", "paper_plane_use_time_ms_invalid",
        "paper_plane_use_time_ms_out_of_range"])]

/-- `is_correctable_skill_failure`. -/
def isCorrectableSkillFailure (skillName reason : String) : Bool :=
  reason ∈ (correctableFailureReasons.lookup skillName).getD []

/-! ## The stored state -/

/-- The activity columns of a control cycle that the repository reads. -/
structure ActivityState where
  /-- `activity_plan`. -/
  plan : Option ActivityPlan
  /-- `activity_plan_version`. -/
  planVersion : Option ℤ
  /-- `activity_last_event_id`. -/
  lastEventId : Option Uuid
  /-- `activity_last_event_sequence`. -/
  lastEventSequence : Option ℕ
deriving DecidableEq

/-- The activity columns of a decision that the repository reads. -/
structure ActivityBinding where
  /-- `activity_plan_id`. -/
  planId : Option String
  /-- `activity_step_id`. -/
  stepId : Option String
deriving DecidableEq

/-- What a transaction reads besides the activity columns of its cycle: the gateway tables, and
the activity columns of the decisions by their row ids. -/
structure ActivityStore where
  db : Db
  bindings : Uuid → ActivityBinding

inductive ActivityPlanUnavailableError where
  | unavailable
deriving DecidableEq, Repr

/-- `_validate_claim`. -/
def Joined.HoldsActivityClaim (j : Joined) (c : ClaimedEvent) : Prop :=
  j.event.status = .processing ∧ j.event.claimToken = some c.claimToken ∧
    j.event.claimedFenceVersion = some c.claimedFenceVersion ∧
    j.session.currentGeneration = some c.controlGeneration ∧
    j.session.fenceVersion = c.claimedFenceVersion

instance (c : ClaimedEvent) : DecidablePred fun j : Joined ↦ j.HoldsActivityClaim c := fun _ ↦
  inferInstanceAs (Decidable (_ ∧ _))

namespace ActivityStore

variable (store : ActivityStore)

/-- `_lock_cycle` and `_validate_claim`. -/
def lockCycle (c : ClaimedEvent) : Option Joined :=
  ((store.db.eventById c.rowId).bind store.db.joinEvent).filter fun j ↦
    j.cycle.id = c.cycleId ∧ j.HoldsActivityClaim c

/-- `_SELECT_DECISION_BINDING`. -/
def decisionBinding (c : ClaimedEvent) (decisionId : String) : Option ActivityBinding :=
  (store.db.decisions.find? fun d ↦ d.cycleId = c.cycleId ∧ d.decisionId = decisionId).map
    fun d ↦ store.bindings d.id

end ActivityStore

/-- `_load_plan`. -/
def ActivityState.loadPlan (activity : ActivityState) :
    Except ActivityPlanUnavailableError (Option ActivityPlan) :=
  match activity.plan with
  | none => .ok none
  | some raw =>
    match raw.validate with
    | .ok plan => .ok (some plan)
    | .error _ => .error .unavailable

/-- `status IN ('pending', 'active')`. -/
def CycleRow.IsOpen (cycle : CycleRow) : Prop := cycle.status = .pending ∨ cycle.status = .active

instance : DecidablePred CycleRow.IsOpen := fun _ ↦ inferInstanceAs (Decidable (_ ∨ _))

/-- The event is newer than the last one, or the same. -/
def ActivityState.Precedes (activity : ActivityState) (c : ClaimedEvent) : Prop :=
  ∀ last ∈ activity.lastEventSequence,
    last < c.eventSequence ∨ (last = c.eventSequence ∧ activity.lastEventId = some c.rowId)

instance (c : ClaimedEvent) : DecidablePred fun activity : ActivityState ↦ activity.Precedes c :=
  fun _ ↦ inferInstanceAs (Decidable (∀ last ∈ _, _))

/-- `_write_state`. -/
def writeState (cycle : CycleRow) (c : ClaimedEvent) (plan : ActivityPlan)
    (activity : ActivityState) : Except ActivityPlanUnavailableError ActivityState :=
  if cycle.IsOpen ∧ activity.Precedes c then
    .ok ⟨some plan, some plan.version, some c.rowId, some c.eventSequence⟩
  else if ∀ last ∈ activity.lastEventSequence, last < c.eventSequence then .error .unavailable
  else .ok activity

/-- `_write_hosted_chat_state`. -/
def writeHostedChatState (cycle : CycleRow) (_ : ClaimedEvent) (plan : ActivityPlan)
    (activity : ActivityState) : Except ActivityPlanUnavailableError ActivityState :=
  if cycle.IsOpen then .ok { activity with plan := some plan, planVersion := some plan.version }
  else .error .unavailable

/-! ## Events that work on the current step -/

/-- The arguments of `_record_terminal_event`. -/
structure TerminalRequest where
  decisionId : String
  succeeded : Option Bool
  retryable : Bool
  correctedDecisionAllowed : Bool
  invalidateTarget : Bool

/-- The operation of `_record_terminal_event` on the current step. -/
def TerminalRequest.operationOn (request : TerminalRequest) (plan : ActivityPlan)
    (stepId : String) : PlanOperation :=
  match request.succeeded with
  | none => .recordStepStarted stepId
  | some succeeded =>
    if request.invalidateTarget ∧
        ∃ current ∈ plan.currentStep.toOption, current.skillName = some "move_to" then
      .invalidateMoveTarget stepId
    else .recordStepTerminal stepId succeeded request.retryable request.correctedDecisionAllowed

/-- There is one if the decision of the event is bound to the current step of the plan. -/
def terminalOperation (store : ActivityStore) (c : ClaimedEvent) (request : TerminalRequest)
    (plan : ActivityPlan) : Option PlanOperation :=
  match store.decisionBinding c request.decisionId with
  | none => none
  | some binding =>
    let stepId := binding.stepId.getD ""
    if binding.planId.getD "" ≠ plan.planId ∨ plan.currentStepId ≠ some stepId then none
    else some (request.operationOn plan stepId)

/-- The operation of `_complete_passive_step` on an active plan. -/
def passiveOperation (plan : ActivityPlan) : Option PlanOperation :=
  if ∃ current ∈ plan.currentStep.toOption, current.phase = "social" ∧ current.skillName = none
    then some .completeSocialOpportunity
  else none

/-- What the plan repository is asked to record of an event. -/
inductive PlanRequest where
  | skillStarted (payload : SkillStartedPayload)
  | skillFinished (payload : SkillFinishedPayload)
  | decisionRejected (payload : DecisionRejectedPayload)
  | passiveStep

namespace PlanRequest

/-- `record_skill_started`, `record_skill_finished` and `record_decision_rejected`. -/
def terminal? : PlanRequest → Option TerminalRequest
  | skillStarted payload => some ⟨payload.decisionId, none, false, false, false⟩
  | skillFinished payload =>
    let succeeded : Bool := payload.terminal = .success
    some ⟨payload.decisionId, some succeeded,
      shouldRetryActivityFailure payload.reason payload.retryable,
      !succeeded && payload.offer.isSome &&
        isCorrectableSkillFailure payload.skillName payload.reason, false⟩
  | decisionRejected payload =>
    some ⟨payload.decisionId, some false, false, false, isTargetRejectionReason payload.reason⟩
  | passiveStep => none

/-- A rejection that names no decision, of which nothing is recorded. -/
def isVoid : PlanRequest → Bool
  | decisionRejected payload => payload.decisionId = ""
  | skillStarted _ | skillFinished _ | passiveStep => false

/-- The operation on the loaded plan, if there is something to do. -/
def operation (store : ActivityStore) (c : ClaimedEvent) (request : PlanRequest)
    (plan : ActivityPlan) : Option PlanOperation :=
  if plan.status ≠ .active then none
  else match request with
    | passiveStep => passiveOperation plan
    | _ => request.terminal?.bind fun terminal ↦ terminalOperation store c terminal plan

end PlanRequest

/-- Load the plan, choose an operation on it and write its result. -/
def updatePlan (store : ActivityStore) (c : ClaimedEvent)
    (operation : ActivityPlan → Option PlanOperation)
    (write : CycleRow → ClaimedEvent → ActivityPlan → ActivityState →
      Except ActivityPlanUnavailableError ActivityState) (activity : ActivityState) :
    Except ActivityPlanUnavailableError ActivityState :=
  match store.lockCycle c with
  | none => .error .unavailable
  | some j => do
    match ← activity.loadPlan with
    | none => return activity
    | some plan =>
      match operation plan with
      | none => return activity
      | some operation =>
        match operation.apply plan with
        | .error _ => .error .unavailable
        | .ok updated => write j.cycle c updated activity

/-- `_record_terminal_event` and `_complete_passive_step`. -/
def PlanRequest.record (store : ActivityStore) (c : ClaimedEvent) (request : PlanRequest)
    (activity : ActivityState) : Except ActivityPlanUnavailableError ActivityState :=
  if request.isVoid then .ok activity
  else updatePlan store c (request.operation store c) writeState activity

/-- The requests of the dispatcher for an event, each of them one transaction. -/
def planRequests (c : ClaimedEvent) : List PlanRequest :=
  if c.historicalRecovery then []
  else match c.event.body with
    | .sequenced _ (.skillStarted payload) => [.skillStarted payload]
    | .sequenced _ (.skillFinished payload) => [.skillFinished payload, .passiveStep]
    | .sequenced _ (.decisionRejected payload) => [.decisionRejected payload]
    | .sequenced _ (.observationUpdated ..) => [.passiveStep]
    | .sequenced _ (.sessionStarted ..) | .sequenced _ (.sessionStopped _) | .chat _ => []

/-! ## Other transactions -/

/-- `record_chat_opportunity`. -/
def recordChatOpportunity (store : ActivityStore) (c : ClaimedEvent) (activity : ActivityState) :
    Except ActivityPlanUnavailableError ActivityState :=
  updatePlan store c (PlanRequest.operation store c .passiveStep) writeHostedChatState activity

/-- `close`. -/
def closePlan (store : ActivityStore) (c : ClaimedEvent) (activity : ActivityState) :
    Except ActivityPlanUnavailableError ActivityState :=
  match store.lockCycle c with
  | none => .error .unavailable
  | some j => do
    match ← activity.loadPlan with
    | none => return activity
    | some plan => writeState j.cycle c { plan with status := .paused } activity

/-- The proposal takes the place of the stored plan. -/
def ReplacesPlan (proposal : ActivityPlan) (stored : Option ActivityPlan) : Prop :=
  ∀ plan ∈ stored, proposal.planId ≠ plan.planId ∨ plan.version < proposal.version

instance (proposal : ActivityPlan) (stored : Option ActivityPlan) :
    Decidable (ReplacesPlan proposal stored) :=
  inferInstanceAs (Decidable (∀ plan ∈ stored, _))

/-- The plan that `prepare` goes on with, and the state after its write: the stored plan as long
as it is active and not replaced, else the proposal under the next version. -/
def choosePlan (cycle : CycleRow) (c : ClaimedEvent) (proposed stored : Option ActivityPlan)
    (activity : ActivityState) :
    Except ActivityPlanUnavailableError (ActivityPlan × ActivityState) :=
  match stored.filter fun plan ↦
    plan.status = .active ∧ ¬ ∃ proposal ∈ proposed, ReplacesPlan proposal stored with
  | some plan =>
    if activity.lastEventSequence.getD 0 < c.eventSequence then
      (writeState cycle c plan activity).map fun after ↦ (plan, after)
    else .ok (plan, activity)
  | none =>
    match proposed with
    | none => .error .unavailable
    | some proposal =>
      match ActivityPlan.validate { proposal with version := activity.planVersion.getD 0 + 1 } with
      | .error _ => .error .unavailable
      | .ok plan => (writeState cycle c plan activity).map fun after ↦ (plan, after)

/-- `prepare`: the plan of its result, whose binding needs a current step, and the state. -/
def preparePlan (store : ActivityStore) (c : ClaimedEvent) (proposed : Option ActivityPlan)
    (activity : ActivityState) :
    Except ActivityPlanUnavailableError (ActivityPlan × ActivityState) :=
  match store.lockCycle c with
  | none => .error .unavailable
  | some j => do
    let stored ← activity.loadPlan
    let prepared ← choosePlan j.cycle c proposed stored activity
    match prepared.1.currentStep with
    | .ok _ => return prepared
    | .error _ => .error .unavailable

end LlmGateway
