import LlmGateway.Decision.Authorization
import LlmGateway.Inbox.Completion

/-!
# Planning a decision

`planDecision` stores the decision that a worker made for its claimed event, unless the
claim has been fenced off, the event or the lease has a decision already, or the capacity of
the activity is used up. The body of the decision is frozen on the way, which checks the
action once more.
-/

namespace LlmGateway

open Relational

/-- Settings of the outbox. The lease deadline is the time to live less the safety window. -/
structure OutboxConfig where
  worker : WorkerConfig
  leaseLifetimeMs : Option ℕ
  sha256 : Text → Digest
  capacityKey : String → String → List (Text × Json) → Option String
  capacityLimit : String → List (Text × Json) → Option ℕ
  activityCapacityTtlMs : ℕ
  leaseLifetime_pos : ∀ lifetime ∈ leaseLifetimeMs, 0 < lifetime

/-- The body of the decision to carry out an action. -/
def decisionBody (decisionId traceId : String) (context : AgentContext) (action : AgentAction) :
    DecisionBody where
  traceId := traceId
  sessionId := context.sessionId
  decisionId := decisionId
  decisionLeaseId := context.decisionLeaseId
  stateVersion := context.stateVersion
  controlGeneration := context.controlGeneration
  ttlMs := action.ttlMs
  action := action.kind.action
  skillName := match action.kind with
    | .callSkill skillName _ _ _ => some skillName
    | _ => none
  schemaVersion := match action.kind with
    | .callSkill _ schemaVersion _ _ => some schemaVersion
    | _ => none
  arguments := match action.kind with
    | .callSkill _ _ arguments _ => some arguments
    | _ => none
  waitMs := match action.kind with
    | .wait waitMs => some waitMs
    | _ => none

/-- What `freeze_gateway_v2_decision` raises: the lease permits no decision
(`GatewayV2DecisionSelectionError`), or the arguments have no UTF-8 form. -/
inductive FreezeError where
  | selection
  | encoding
deriving DecidableEq, Repr

/-- The arguments can be written into the bytes of the body. -/
def DecisionBody.Encodable (body : DecisionBody) : Prop :=
  ∀ arguments ∈ body.arguments, (Json.textsOfFields arguments).all Text.isUtf8 = true

instance : DecidablePred DecisionBody.Encodable := fun _ ↦
  inferInstanceAs (Decidable (∀ _ ∈ _, _))

/-- `freeze_gateway_v2_decision`. -/
def freezeDecision (config : OutboxConfig) (decisionId traceId : String)
    (context : AgentContext) (action : AgentAction) : Except FreezeError DecisionBody :=
  match frozenAction config.sha256 context action with
  | none => .error .selection
  | some frozen =>
    let body := decisionBody decisionId traceId context frozen
    if body.Encodable then .ok body else .error .encoding

/-- The exceptions of `plan_decision`. -/
inductive PlanError where
  | fenced
  | conflict (category : String)
  | capacityFull
  | unavailable
  | unfrozen (error : FreezeError)
deriving DecidableEq, Repr

/-- `_plan_fence_matches`. -/
def Joined.PlanFenceMatches (j : Joined) (c : ClaimedEvent) (context : AgentContext) : Prop :=
  j.event.HeldBy c ∧ j.event.controlGeneration = c.controlGeneration ∧
    j.cycle.id = c.cycleId ∧ j.cycle.status = .active ∧
    j.cycle.latestDecisionLeaseId = some context.decisionLeaseId ∧
    j.cycle.latestStateVersion = some context.stateVersion ∧
    j.session.currentGeneration = some c.controlGeneration ∧
    j.session.fenceVersion = c.claimedFenceVersion

instance (c : ClaimedEvent) (context : AgentContext) :
    DecidablePred fun j : Joined ↦ j.PlanFenceMatches c context := fun _ ↦
  inferInstanceAs (Decidable ((_ ∧ _) ∧ _))

/-- `_source_decision_matches`. -/
def DecisionRow.SourceMatches (d : DecisionRow) (c : ClaimedEvent) (context : AgentContext) :
    Prop :=
  d.gatewayId = c.gatewayId ∧ d.cycleId = c.cycleId ∧
    d.decisionLeaseId = context.decisionLeaseId ∧
    d.controlGeneration = c.controlGeneration ∧ d.stateVersion = context.stateVersion

instance (c : ClaimedEvent) (context : AgentContext) :
    DecidablePred fun d : DecisionRow ↦ d.SourceMatches c context := fun _ ↦
  inferInstanceAs (Decidable (_ ∧ _))

namespace Db

variable (db : Db)

/-- `_LOCK_PLAN_SOURCE`. -/
def lockPlanSource (c : ClaimedEvent) : Option Joined :=
  (db.eventById c.rowId).bind db.joinEvent

/-- `_SELECT_DECISION_BY_SOURCE`. -/
def decisionBySource (sourceEventId : Uuid) : Option DecisionRow :=
  db.decisions.find? fun d ↦ d.sourceEventId = sourceEventId

/-- `_SELECT_DECISION_BY_LEASE`. -/
def decisionByLease (gatewayId decisionLeaseId : String) : Option DecisionRow :=
  db.decisions.find? fun d ↦ d.gatewayId = gatewayId ∧ d.decisionLeaseId = decisionLeaseId

/-- `_SELECT_DECISION_BY_ID`. -/
def decisionByName (gatewayId decisionId : String) : Option DecisionRow :=
  db.decisions.find? fun d ↦ d.gatewayId = gatewayId ∧ d.decisionId = decisionId

/-- `_MARK_PLAN_MANUAL`. -/
def markPlanManual (rowId : Uuid) (errorCategory : String) : Db :=
  db.updateDecisions (fun d ↦ d.id = rowId)
    { set d := { d with
        status := .manual
        errorStage := some "plan"
        errorCategory := some errorCategory }
      key_set _ := rfl }

/-- `_COUNT_ACTIVE_CAPACITY_RESERVATIONS`. -/
def countActiveReservations (now : ℕ) (capacityKey : String) : ℕ :=
  (db.decisions.select fun d ↦ d.activityCapacityKey = some capacityKey ∧
    (∃ t ∈ d.activityCapacityExpiresAt, now < t) ∧
    (d.status.isUnsent ∨ (d.status = .accepted ∧
      ∃ k ∈ db.calls, k.decisionRowId = d.id ∧ k.status.isRunning))).length

/-- `_INSERT_ACTION_TRACKING`. -/
def insertActionTracking (c : ClaimedEvent) (action : AgentAction)
    (metadata : GoalTrackingMetadata) : Option Uuid × Db :=
  match db.tracking.insert?
      { id := db.nextUuid
        tenantId := c.tenantId
        actionDesc := action.reason
        metadata := metadata
        status := .tracking } with
  | some tracking => (some db.nextUuid, { db.bumpUuid with tracking := tracking })
  | none => (none, db)

/-- The row of a tracked action is inserted before its decision. -/
def trackAction (c : ClaimedEvent) (action : AgentAction) : Option Uuid × Db :=
  match action.kind.tracking? with
  | some metadata => db.insertActionTracking c action metadata
  | none => (none, db)

end Db

/-- The reservation of an activity that only calls with a capacity key and a limit make. -/
structure Reservation where
  key : Option String
  limit : Option ℕ

def reservationFor (config : OutboxConfig) (c : ClaimedEvent) (context : AgentContext)
    (action : AgentAction) : Reservation :=
  match action.kind with
  | .callSkill skillName _ _ _ =>
    ⟨config.capacityKey c.gatewayId skillName context.sessionSnapshot,
      config.capacityLimit skillName context.sessionSnapshot⟩
  | _ => ⟨none, none⟩

/-- The capacity check, made when the reservation is complete. -/
def CapacityFull (db : Db) (now : ℕ) (reservation : Reservation) : Prop :=
  ∃ key ∈ reservation.key, ∃ limit ∈ reservation.limit,
    limit ≤ db.countActiveReservations now key

instance (db : Db) (now : ℕ) : DecidablePred (CapacityFull db now) := fun _ ↦
  inferInstanceAs (Decidable (∃ _ ∈ _, _))

/-- The row of `_INSERT_PLANNED_DECISION`. -/
def plannedRow (config : OutboxConfig) (now : ℕ) (c : ClaimedEvent) (context : AgentContext)
    (action : AgentAction) (reservation : Reservation) (body : DecisionBody)
    (decisionId : String) (actionTrackingId : Option Uuid) (rowId : Uuid) : DecisionRow :=
  let leaseExpiresAtMs := config.leaseLifetimeMs.map (c.event.occurredAtMs + ·)
  { id := rowId
    tenantId := c.tenantId
    cycleId := c.cycleId
    sourceEventId := c.rowId
    actionTrackingId := actionTrackingId
    gatewayId := c.gatewayId
    sessionId := c.sessionId
    decisionId := decisionId
    decisionLeaseId := context.decisionLeaseId
    controlGeneration := c.controlGeneration
    stateVersion := context.stateVersion
    leaseExpiresAtMs := leaseExpiresAtMs
    action := action.kind.action
    requestBody := body
    activityCapacityKey := reservation.key
    activityCapacityLimit := reservation.limit
    activityCapacityExpiresAt := reservation.key.map fun _ ↦
      leaseExpiresAtMs.elim (now + config.activityCapacityTtlMs)
        (min (now + config.activityCapacityTtlMs))
    createdAt := now
    status := .planned
    attemptCount := 0
    nextAttemptAt := now
    claimToken := none
    claimedFenceVersion := none
    lockUntil := none
    lockedBy := none
    responseHttpStatus := none
    responseStatus := none
    responseReason := none
    responseBodyJson := none
    skillCallId := none
    errorStage := none
    errorCategory := none }

/-- Store a new decision. A reservation with a key but no limit, or the other way round,
breaks a check of the table; so does a deadline beyond `bigint`. -/
def insertPlanned (config : OutboxConfig) (now : ℕ) (c : ClaimedEvent) (context : AgentContext)
    (action : AgentAction) (reservation : Reservation) (body : DecisionBody)
    (decisionId : String) (db : Db) : Except PlanError Unit × Db :=
  let (actionTrackingId, db₁) := db.trackAction c action
  let row := plannedRow config now c context action reservation body decisionId actionTrackingId
    db₁.nextUuid
  if ∃ t ∈ row.leaseExpiresAtMs, bigintMax < t then (.error .unavailable, db)
  else if reservation.key.isSome ≠ reservation.limit.isSome then
    (.error (.conflict "decision_unique_constraint"), db)
  else match db₁.decisions.insert? row with
    | some decisions => (.ok (), { db₁.bumpUuid with decisions := decisions })
    | none => (.error (.conflict "decision_unique_constraint"), db)

/-- `plan_decision` after the fence check: the result and the committed state. A conflict is
committed together with the mark it leaves on the other decision. -/
def planFenced (config : OutboxConfig) (now : ℕ) (c : ClaimedEvent) (context : AgentContext)
    (action : AgentAction) (decisionId : String) (db : Db) : Except PlanError Unit × Db :=
  match db.decisionBySource c.rowId with
  | some existing =>
    if existing.SourceMatches c context then (.ok (), db)
    else (.error (.conflict "source_event_identity_conflict"),
      db.markPlanManual existing.id "source_event_identity_conflict")
  | none =>
    if (db.decisionByLease c.gatewayId context.decisionLeaseId).isSome then
      (.error (.conflict "decision_lease_consumed"), db)
    else
      let reservation := reservationFor config c context action
      if CapacityFull db now reservation then (.error .capacityFull, db)
      else match freezeDecision config decisionId c.traceId context action with
        | .error error => (.error (.unfrozen error), db)
        | .ok body => match db.decisionByName c.gatewayId decisionId with
          | some identity =>
            let category := if identity.requestBody ≠ body then "decision_id_body_conflict"
              else "decision_id_identity_conflict"
            (.error (.conflict category), db.markPlanManual identity.id category)
          | none => insertPlanned config now c context action reservation body decisionId db

/-- `plan_decision`. -/
def planDecision (config : OutboxConfig) (now : ℕ) (c : ClaimedEvent) (context : AgentContext)
    (action : AgentAction) (decisionId : String) (db : Db) : Except PlanError Unit × Db :=
  match (db.lockPlanSource c).filter fun j ↦ j.PlanFenceMatches c context with
  | none => (.error .fenced, db)
  | some _ => planFenced config now c context action decisionId db

/-- `PlannedDecision`. -/
structure PlannedDecision where
  rowId : Uuid
  decisionId : String
  decisionLeaseId : String
  action : DecisionAction
  requestBody : DecisionBody
  actionTrackingId : Option Uuid
  created : Bool
deriving DecidableEq

/-- `_planned_from_row`; a row that was just inserted gives the same record. -/
def plannedFromRow (row : DecisionRow) (created : Bool) : PlannedDecision where
  rowId := row.id
  decisionId := row.decisionId
  decisionLeaseId := row.decisionLeaseId
  action := row.action
  requestBody := row.requestBody
  actionTrackingId := row.actionTrackingId
  created := created

/-- The value that `plan_decision` returns: the decision of the event, found or inserted. -/
def plannedDecision (config : OutboxConfig) (now : ℕ) (c : ClaimedEvent) (context : AgentContext)
    (action : AgentAction) (decisionId : String) (db : Db) : Except PlanError PlannedDecision :=
  match planDecision config now c context action decisionId db with
  | (.error error, _) => .error error
  | (.ok (), db') => match db'.decisionBySource c.rowId with
    | none => .error .unavailable
    | some row => .ok (plannedFromRow row (db.decisionBySource c.rowId).isNone)

/-- `is_event_fence_current`. -/
def isEventFenceCurrent (c : ClaimedEvent) (context : AgentContext) (db : Db) : Bool :=
  ((db.lockPlanSource c).filter fun j ↦ j.PlanFenceMatches c context).isSome

end LlmGateway
