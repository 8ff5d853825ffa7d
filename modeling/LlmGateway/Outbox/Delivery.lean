import LlmGateway.Outbox.Plan
import LlmGateway.Inbox.Maintenance

/-!
# Delivering a decision

The transactions of the decision worker: claim the next decision, renew the claim, record a
failure or a response, and sweep exhausted claims. Each checks the fence of the decision
against its cycle and session before it applies anything.
-/

namespace LlmGateway

open Relational

/-- `ClaimedDecision`. -/
structure ClaimedDecision where
  rowId : Uuid
  tenantId : Uuid
  cycleId : Uuid
  gatewayId : String
  sessionId : String
  decisionId : String
  decisionLeaseId : String
  controlGeneration : ℕ
  stateVersion : ℕ
  action : DecisionAction
  requestBody : DecisionBody
  claimToken : Uuid
  claimedFenceVersion : ℕ
  attemptCount : ℕ
  lockedBy : String
  lockUntil : ℕ
  traceId : String
deriving DecidableEq

/-- A row of `decisions JOIN control_cycles JOIN sessions JOIN events`. -/
structure JoinedDecision where
  decision : DecisionRow
  cycle : CycleRow
  session : SessionRow
  sourceEvent : EventRow

/-- The decision is due, and its attempts are not used up. -/
def DecisionRow.Due (maxAttempts now : ℕ) (d : DecisionRow) : Prop :=
  d.attemptCount < maxAttempts ∧
    (((d.status = .planned ∨ d.status = .retryableFailed) ∧ d.nextAttemptAt ≤ now) ∨
      (d.status = .sending ∧ ∃ t ∈ d.lockUntil, t ≤ now))

instance (maxAttempts now : ℕ) : DecidablePred (DecisionRow.Due maxAttempts now) := fun _ ↦
  inferInstanceAs (Decidable (_ ∧ _))

def DecisionRow.dueKey (d : DecisionRow) : List ℤ :=
  [(d.nextAttemptAt : ℤ), (d.createdAt : ℤ)] ++ d.id.sortKey

/-- The lease of the decision has not expired. -/
def DecisionRow.LeaseCurrent (now : ℕ) (d : DecisionRow) : Prop :=
  ∀ t ∈ d.leaseExpiresAtMs, now < t

instance (now : ℕ) : DecidablePred (DecisionRow.LeaseCurrent now) := fun _ ↦
  inferInstanceAs (Decidable (∀ _ ∈ _, _))

/-- `_decision_fence_error`; the claimed fence is checked only for a claimed decision. -/
def JoinedDecision.fenceError (j : JoinedDecision) (now : ℕ) (claimedFence : Option ℕ) :
    Option String :=
  if j.cycle.status ≠ .active then some "cycle_not_active"
  else if j.session.currentGeneration ≠ some j.decision.controlGeneration then
    some "generation_changed"
  else if ∃ f ∈ claimedFence, j.session.fenceVersion ≠ f then some "session_fence_changed"
  else if j.cycle.latestDecisionLeaseId ≠ some j.decision.decisionLeaseId then
    some "decision_lease_changed"
  else if j.cycle.latestStateVersion ≠ some j.decision.stateVersion then
    some "state_version_changed"
  else if ¬j.decision.LeaseCurrent now then some "decision_lease_expired"
  else none

namespace Db

variable (db : Db)

def decisionById (id : Uuid) : Option DecisionRow := db.decisions.find? fun d ↦ d.id = id

def joinDecision (decision : DecisionRow) : Option JoinedDecision := do
  let cycle ← db.cycleById decision.cycleId
  let session ← db.sessionOf cycle
  let sourceEvent ← db.eventById decision.sourceEventId
  some ⟨decision, cycle, session, sourceEvent⟩

/-- No other decision of the cycle is being sent, and no skill call of it is running. -/
def CycleFree (d : DecisionRow) : Prop :=
  (¬∃ o ∈ db.decisions, o.cycleId = d.cycleId ∧ o.id ≠ d.id ∧ o.status = .sending) ∧
    ¬∃ k ∈ db.calls, k.status.isRunning ∧
      ∃ o ∈ db.decisions, k.decisionRowId = o.id ∧ o.cycleId = d.cycleId

instance : DecidablePred db.CycleFree := fun _ ↦
  inferInstanceAs (Decidable (¬(∃ _ ∈ _, _) ∧ ¬∃ _ ∈ _, _))

/-- The decisions that may be claimed, in the order of the claim query. -/
def claimableDecisions (maxAttempts now : ℕ) : List JoinedDecision :=
  (orderBy DecisionRow.dueKey (db.decisions.select fun d ↦
    d.Due maxAttempts now ∧ db.CycleFree d)).filterMap db.joinDecision

/-- `_CANCEL_LOCKED_DECISION`. -/
def cancelLockedDecision (rowId : Uuid) (errorCategory : String) : Db :=
  db.updateDecisions (fun d ↦ d.id = rowId)
    { set d := { d with
        status := .cancelled
        claimToken := none
        claimedFenceVersion := none
        lockUntil := none
        lockedBy := none
        errorStage := some "fence"
        errorCategory := some errorCategory }
      key_set _ := rfl }

/-- `_CLAIM_DECISION`. -/
def claimDecision (config : WorkerConfig) (now : ℕ) (workerId : String)
    (rowId claimToken : Uuid) (claimedFenceVersion : ℕ) : Db :=
  db.updateDecisions (fun d ↦ d.id = rowId ∧ d.Due config.maxAttempts now)
    { set d := { d with
        status := .sending
        attemptCount := d.attemptCount + 1
        claimToken := some claimToken
        claimedFenceVersion := some claimedFenceVersion
        lockUntil := some (now + config.claimTtlMs)
        lockedBy := some workerId
        errorStage := none
        errorCategory := none }
      key_set _ := rfl }

end Db

/-- `_claimed_decision`. -/
def buildClaimedDecision (config : WorkerConfig) (now : ℕ) (workerId : String)
    (j : JoinedDecision) (claimToken : Uuid) : ClaimedDecision where
  rowId := j.decision.id
  tenantId := j.decision.tenantId
  cycleId := j.decision.cycleId
  gatewayId := j.decision.gatewayId
  sessionId := j.decision.sessionId
  decisionId := j.decision.decisionId
  decisionLeaseId := j.decision.decisionLeaseId
  controlGeneration := j.decision.controlGeneration
  stateVersion := j.decision.stateVersion
  action := j.decision.action
  requestBody := j.decision.requestBody
  claimToken := claimToken
  claimedFenceVersion := j.session.fenceVersion
  attemptCount := j.decision.attemptCount + 1
  lockedBy := workerId
  lockUntil := now + config.claimTtlMs
  traceId := j.sourceEvent.traceId

/-- The candidate of `claim_next_decision`: the first claimable row of the cycle chosen. -/
def Db.decisionCandidate (db : Db) (maxAttempts now : ℕ) : Option JoinedDecision :=
  (db.claimableDecisions maxAttempts now).head?

/-- One turn of the loop of `claim_next_decision` that cancels a fenced candidate. -/
def cancelFencedCandidate (config : WorkerConfig) (now : ℕ) (db : Db) : Option Db := do
  let j ← db.decisionCandidate config.maxAttempts now
  let errorCategory ← j.fenceError now none
  some (db.cancelLockedDecision j.decision.id errorCategory)

/-- The last turn of the loop, on a candidate that is not fenced. -/
def handOutDecision (config : WorkerConfig) (now : ℕ) (workerId : String) (db : Db) :
    Option ClaimedDecision × Db :=
  match db.decisionCandidate config.maxAttempts now with
  | none => (none, db)
  | some j =>
    if (j.fenceError now none).isSome then (none, db)
    else (some (buildClaimedDecision config now workerId j db.nextUuid),
      db.bumpUuid.claimDecision config now workerId j.decision.id db.nextUuid
        j.session.fenceVersion)

/-- `claim_next_decision`. -/
def claimNextDecision (config : WorkerConfig) (now : ℕ) (workerId : String) (db : Db) :
    Option ClaimedDecision × Db :=
  handOutDecision config now workerId
    (iterate (cancelFencedCandidate config now) (db.decisions.rows.length + 1) db)

/-! ## Working on a claimed decision -/

/-- The decision is being sent under this claim. -/
def DecisionRow.HeldBy (d : DecisionRow) (c : ClaimedDecision) : Prop :=
  d.status = .sending ∧ d.claimToken = some c.claimToken ∧
    d.claimedFenceVersion = some c.claimedFenceVersion

instance (c : ClaimedDecision) : DecidablePred fun d : DecisionRow ↦ d.HeldBy c := fun _ ↦
  inferInstanceAs (Decidable (_ ∧ _))

namespace Db

variable (db : Db)

/-- `_lock_claimed_decision`. -/
def lockClaimedDecision (c : ClaimedDecision) : Option JoinedDecision :=
  ((db.decisionById c.rowId).filter fun d ↦ d.HeldBy c).bind db.joinDecision

/-- The update of `_RENEW_DECISION_CLAIM`. -/
def renewDecision (config : WorkerConfig) (now : ℕ) (c : ClaimedDecision) : Db :=
  db.updateDecisions (fun d ↦ d.id = c.rowId ∧ d.HeldBy c)
    { set d := { d with lockUntil := some (now + config.claimTtlMs) }
      key_set _ := rfl }

/-- Release the claim of a decision with a new status and error. -/
def releaseDecision (status : DecisionStatus) (errorStage errorCategory : Option String) :
    Assignment DecisionRow where
  set d := { d with
    status := status
    claimToken := none
    claimedFenceVersion := none
    lockUntil := none
    lockedBy := none
    errorStage := errorStage
    errorCategory := errorCategory }
  key_set _ := rfl

/-- `_COMPLETE_DECISION_RETRYABLE`. -/
def completeDecisionRetryable (c : ClaimedDecision) (nextAttemptAt : ℕ)
    (errorStage errorCategory : String) (responseBodyJson : Option (List (Text × Json))) : Db :=
  db.updateDecisions (fun d ↦ d.id = c.rowId ∧ d.HeldBy c)
    { set d := { (releaseDecision .retryableFailed (some errorStage)
          (some errorCategory)).set d with
        nextAttemptAt := nextAttemptAt
        responseBodyJson := responseBodyJson.or d.responseBodyJson }
      key_set _ := rfl }

/-- `_COMPLETE_DECISION_DEAD_LETTER`. -/
def completeDecisionDeadLetter (c : ClaimedDecision) (errorStage errorCategory : String)
    (responseBodyJson : Option (List (Text × Json))) : Db :=
  db.updateDecisions (fun d ↦ d.id = c.rowId ∧ d.HeldBy c)
    { set d := { (releaseDecision .deadLetter (some errorStage) (some errorCategory)).set d with
        responseBodyJson := responseBodyJson.or d.responseBodyJson }
      key_set _ := rfl }

end Db

/-- `renew_decision_claim`. -/
def renewDecisionClaim (config : WorkerConfig) (now : ℕ) (c : ClaimedDecision) (db : Db) :
    Bool × Db :=
  match db.lockClaimedDecision c with
  | none => (false, db)
  | some j =>
    if (j.fenceError now j.decision.claimedFenceVersion).isNone then
      (true, db.renewDecision config now c)
    else (false, db)

/-- `complete_decision_failure`. -/
def completeDecisionFailure (config : WorkerConfig) (now : ℕ) (c : ClaimedDecision)
    (errorStage errorCategory : String) (responseBodyJson : Option (List (Text × Json)))
    (db : Db) : Bool × Db :=
  match db.lockClaimedDecision c with
  | none => (false, db)
  | some j =>
    match j.fenceError now j.decision.claimedFenceVersion with
    | some fenceError => (true, db.cancelLockedDecision c.rowId fenceError)
    | none =>
      if config.maxAttempts ≤ j.decision.attemptCount then
        (true, db.completeDecisionDeadLetter c errorStage errorCategory responseBodyJson)
      else (true, db.completeDecisionRetryable c
        (now + config.retryDelayMs j.decision.attemptCount) errorStage errorCategory
        responseBodyJson)

/-! ## Responses -/

inductive DecisionResponseStatus where
  | accepted
  | rejected
deriving DecidableEq, Repr

/-- `DecisionClientResult`, as far as it is recorded. -/
structure DecisionClientResult where
  httpStatus : ℕ
  status : DecisionResponseStatus
  reason : String
  skillCallId : Option String
  responseBodyJson : Option (List (Text × Json))

/-- `is_idempotency_conflict`. -/
def DecisionClientResult.isIdempotencyConflict (response : DecisionClientResult) : Bool :=
  response.status = .rejected ∧ response.reason = "idempotency_key_conflict"

/-- `_decision_skill_name` and `_skill_name`. -/
def DecisionRow.skillName (d : DecisionRow) : Option String :=
  match d.action with
  | .stopHosting => some "stop_hosting"
  | .callSkill => d.requestBody.skillName.filter (· ≠ "")
  | _ => none

/-- How a response changes the decision. -/
structure ResponseRecord where
  status : DecisionStatus
  errorStage : Option String
  errorCategory : Option String
  skillCallId : Option String

namespace Db

variable (db : Db)

/-- `_LOCK_RESPONSE_CALL_FOR_DECISION` and `_LOCK_SKILL_CALL_FOR_DECISION`. -/
def callForDecision (decisionRowId : Uuid) : Option CallRow :=
  db.calls.find? fun k ↦ k.decisionRowId = decisionRowId

/-- `_LOCK_RESPONSE_SKILL_CALL` and `_LOCK_SKILL_CALL`. -/
def callByName (gatewayId skillCallId : String) : Option CallRow :=
  db.calls.find? fun k ↦ k.gatewayId = gatewayId ∧ k.skillCallId = skillCallId

/-- Insert a skill call; the unique constraint cannot fail after the lookup. -/
def insertCall (row : CallRow) : Db :=
  match db.calls.insert? row with
  | some calls => { db.bumpUuid with calls := calls }
  | none => db

/-- `_INSERT_PENDING_SKILL_CALL`. -/
def insertPendingSkillCall (now : ℕ) (c : ClaimedDecision) (d : DecisionRow)
    (skillCallId skillName : String) : Db :=
  db.insertCall
    { id := db.nextUuid
      tenantId := c.tenantId
      decisionRowId := c.rowId
      gatewayId := c.gatewayId
      sessionId := c.sessionId
      decisionId := c.decisionId
      skillCallId := skillCallId
      skillName := skillName
      createdAt := now
      status := .pending
      failureCategory := none
      reason := none
      retryable := none
      terminalEventId := none
      effectStatus := if d.actionTrackingId.isSome then .pending else .notApplicable }

/-- `_MARK_RESPONSE_CALL_MANUAL`. -/
def markResponseCallManual (rowId : Uuid) : Db :=
  db.updateCalls (fun k ↦ k.id = rowId)
    { set k := { k with
        status := .manual
        failureCategory := some .protocolFailed
        reason := some "decision_response_identity_conflict"
        retryable := some false }
      key_set _ := rfl }

/-- `_COMPLETE_DECISION_RESPONSE`. -/
def completeDecisionResponse (c : ClaimedDecision) (response : DecisionClientResult)
    (record : ResponseRecord) : Db :=
  db.updateDecisions (fun d ↦ d.id = c.rowId ∧ d.HeldBy c)
    { set d := { (releaseDecision record.status record.errorStage record.errorCategory).set d with
        responseHttpStatus := some response.httpStatus
        responseStatus := some (match response.status with
          | .accepted => "accepted"
          | .rejected => "rejected")
        responseReason := some (String.ofList (response.reason.toList.take 256))
        responseBodyJson := response.responseBodyJson
        skillCallId := record.skillCallId }
      key_set _ := rfl }

end Db

/-- `_response_call_matches`. -/
def CallRow.ResponseMatches (k : CallRow) (c : ClaimedDecision) (skillName : String) : Prop :=
  k.decisionRowId = c.rowId ∧ k.decisionId = c.decisionId ∧ k.skillName = skillName

instance (c : ClaimedDecision) (skillName : String) :
    DecidablePred fun k : CallRow ↦ k.ResponseMatches c skillName := fun _ ↦
  inferInstanceAs (Decidable (_ ∧ _))

/-- An accepted skill action: bind the call that the response names to the decision. -/
def bindResponseCall (now : ℕ) (c : ClaimedDecision) (d : DecisionRow) (skillCallId : String)
    (db : Db) : ResponseRecord × Db :=
  let conflict (callId category : String) : ResponseRecord :=
    ⟨.manual, some "http", some category, some callId⟩
  match d.skillName with
  | none => (conflict skillCallId "decision_action_invalid", db)
  | some skillName =>
    match (db.callForDecision c.rowId).filter fun k ↦ k.skillCallId ≠ skillCallId with
    | some other => (conflict other.skillCallId "skill_call_identity_conflict", db)
    | none =>
      match db.callByName c.gatewayId skillCallId with
      | none => (⟨.accepted, none, none, some skillCallId⟩,
          db.insertPendingSkillCall now c d skillCallId skillName)
      | some call =>
        if ¬call.ResponseMatches c skillName then
          (conflict skillCallId "skill_call_identity_conflict",
            db.markResponseCallManual call.id)
        else if call.status = .manual then
          (conflict skillCallId "skill_call_state_conflict", db)
        else (⟨.accepted, none, none, some skillCallId⟩, db)

/-- `record_decision_response`. -/
def recordDecisionResponse (now : ℕ) (c : ClaimedDecision) (response : DecisionClientResult)
    (db : Db) : Except Failure (Bool × Db) :=
  match db.lockClaimedDecision c with
  | none => .ok (false, db)
  | some j =>
    if (j.fenceError now j.decision.claimedFenceVersion).isSome then .ok (false, db)
    else if response.isIdempotencyConflict then
      .ok (true, db.completeDecisionResponse c response
        ⟨.manual, some "http", some "idempotency_key_conflict", response.skillCallId⟩)
    else if response.status = .accepted ∧ (c.action = .callSkill ∨ c.action = .stopHosting) then
      match response.skillCallId with
      | none => .error .valueError
      | some skillCallId =>
        let (record, db') := bindResponseCall now c j.decision skillCallId db
        .ok (true, db'.completeDecisionResponse c response record)
    else
      let status : DecisionStatus :=
        if response.status = .accepted then .accepted else .rejected
      .ok (true, db.completeDecisionResponse c response
        ⟨status, none, none, response.skillCallId⟩)

/-! ## Expired decision claims -/

/-- The condition of `_LOCK_EXHAUSTED_DECISION_CLAIM`. -/
def DecisionRow.Exhausted (maxAttempts now : ℕ) (d : DecisionRow) : Prop :=
  d.status = .sending ∧ (∃ t ∈ d.lockUntil, t ≤ now) ∧ maxAttempts ≤ d.attemptCount

instance (maxAttempts now : ℕ) : DecidablePred (DecisionRow.Exhausted maxAttempts now) := fun _ ↦
  inferInstanceAs (Decidable (_ ∧ _))

def DecisionRow.expiryKey (d : DecisionRow) : List ℤ :=
  ((d.lockUntil.getD 0 : ℕ) : ℤ) :: d.id.sortKey

/-- One turn of the loop of `sweep_expired_decision_claims`. -/
def sweepDecisionBody (maxAttempts now : ℕ) (db : Db) : Option Db :=
  (orderBy DecisionRow.expiryKey (db.decisions.select fun d ↦
    d.Exhausted maxAttempts now)).head?.map fun d ↦
      db.updateDecisions (fun d' ↦ d'.id = d.id ∧ d'.status = .sending ∧
        d'.claimToken = d.claimToken ∧ d'.claimedFenceVersion = d.claimedFenceVersion)
        (Db.releaseDecision .deadLetter (some "worker") (some "claim_expired"))

/-- `sweep_expired_decision_claims`. -/
def sweepExpiredDecisionClaims (config : WorkerConfig) (now : ℕ) (db : Db) : Db :=
  iterate (sweepDecisionBody config.maxAttempts now) (db.decisions.rows.length + 1) db

end LlmGateway
