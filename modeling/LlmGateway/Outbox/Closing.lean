import LlmGateway.Terminal.SkillCall

/-!
# Events that close decisions

`mergeDecisionRejected` merges the rejection of a decision into it. `closeGeneration` is the
transaction of a `session_stopped` event: it cancels the unsent decisions of the cycle, ends
its open calls, closes its events and stops cycle and session.
-/

namespace LlmGateway

open Relational

/-- `DecisionRejectionResolution`. -/
structure DecisionRejectionResolution where
  disposition : MutationDisposition
  status : DecisionStatus
  reason : Option String
  errorCategory : Option String

/-- `resolve_decision_rejection`. -/
def resolveDecisionRejection (currentStatus : DecisionStatus) (storedReason : Option String)
    (incomingReason : String) : DecisionRejectionResolution :=
  match currentStatus with
  | .planned | .sending | .retryableFailed | .cancelled =>
    ⟨.applied, .rejected, some incomingReason, none⟩
  | .rejected =>
    ⟨.idempotent, .rejected, storedReason,
      if storedReason = some incomingReason then none else some "rejection_reason_mismatch"⟩
  | .accepted => ⟨.conflict, .manual, storedReason, some "rejected_after_accepted"⟩
  | .deadLetter | .manual => ⟨.conflict, .manual, storedReason, some "rejection_invalid_state"⟩

/-- `decision_rejection_identity_matches`. -/
def RejectionIdentityMatches (d : DecisionRow) (c : ClaimedEvent)
    (payload : DecisionRejectedPayload) : Prop :=
  d.sessionId = c.event.sessionId ∧
    (∀ position ∈ c.event.position?, d.controlGeneration = position.controlGeneration) ∧
    (∀ lease ∈ c.event.decisionLeaseId, d.decisionLeaseId = lease) ∧
    d.action = payload.action ∧
    payload.skillName = if payload.action = .callSkill then d.requestBody.skillName else none

instance (c : ClaimedEvent) (payload : DecisionRejectedPayload) :
    DecidablePred fun d : DecisionRow ↦ RejectionIdentityMatches d c payload := fun _ ↦
  inferInstanceAs (Decidable (_ ∧ (∀ _ ∈ _, _) ∧ (∀ _ ∈ _, _) ∧ _))

namespace Db

variable (db : Db)

/-- `_APPLY_REJECTION`. -/
def applyRejection (rowId : Uuid) (resolution : DecisionRejectionResolution)
    (incomingReason : String) : Db :=
  db.updateDecisions (fun d ↦ d.id = rowId)
    { set d := { d with
        status := resolution.status
        responseStatus :=
          if resolution.status = .rejected then some "rejected" else d.responseStatus
        responseReason :=
          if resolution.disposition = .applied then some incomingReason else d.responseReason
        errorStage :=
          if resolution.errorCategory.isSome then some "decision_rejected_event" else none
        errorCategory := resolution.errorCategory }
      key_set _ := rfl }

end Db

/-- `merge_decision_rejected`. -/
def mergeDecisionRejected (c : ClaimedEvent) (payload : DecisionRejectedPayload) (db : Db) :
    MutationResult × Db :=
  match db.decisionByName c.gatewayId payload.decisionId with
  | none => (⟨.missing, some "missing_decision"⟩, db)
  | some decision =>
    if ¬RejectionIdentityMatches decision c payload then
      (⟨.conflict, some "decision_identity_conflict"⟩, db)
    else
      let resolution := resolveDecisionRejection decision.status decision.responseReason
        payload.reason
      (⟨resolution.disposition, resolution.errorCategory⟩,
        db.applyRejection decision.id resolution payload.reason)

/-! ## Closing a generation -/

/-- `session_stop_skill_status`. -/
def sessionStopSkillStatus (action : DecisionAction) (reason : String) : CallStatus :=
  if action = .stopHosting ∧ reason = "stop_hosting_requested" then .succeeded else .cancelled

/-- A row of `_LOCK_OPEN_CALLS`. -/
structure OpenCall where
  call : CallRow
  decision : DecisionRow

def CallRow.creationKey (k : CallRow) : List ℤ := (k.createdAt : ℤ) :: k.id.sortKey

/-- `_is_current_claim`. -/
def Joined.IsCurrentClaim (j : Joined) (c : ClaimedEvent) : Prop :=
  j.event.controlGeneration = c.controlGeneration ∧
    j.session.currentGeneration = some c.controlGeneration ∧
    j.session.fenceVersion = c.claimedFenceVersion

instance (c : ClaimedEvent) : DecidablePred fun j : Joined ↦ j.IsCurrentClaim c := fun _ ↦
  inferInstanceAs (Decidable (_ ∧ _))

namespace Db

variable (db : Db)

/-- `_CANCEL_UNSENT_DECISIONS`. -/
def cancelUnsentDecisions (cycleId : Uuid) : Db :=
  db.updateDecisions (fun d ↦ d.cycleId = cycleId ∧ d.status.isUnsent)
    { set d := { d with
        status := .cancelled
        responseStatus := some "cancelled"
        responseReason := some "session_stopped"
        claimToken := none
        claimedFenceVersion := none
        lockUntil := none
        lockedBy := none }
      key_set _ := rfl }

/-- `_LOCK_OPEN_CALLS`. -/
def lockOpenCalls (cycleId : Uuid) : List OpenCall :=
  (orderBy CallRow.creationKey (db.calls.select fun k ↦ k.status.isRunning)).filterMap fun k ↦
    ((db.decisionById k.decisionRowId).filter fun d ↦ d.cycleId = cycleId).map (⟨k, ·⟩)

/-- `_FINISH_STOP_CALL`. -/
def finishStopCall (rowId : Uuid) (status : CallStatus) (terminalEventId : Option Uuid)
    (reason : String) (effectStatus : EffectStatus) : Db :=
  db.updateCalls (fun k ↦ k.id = rowId ∧ k.status.isRunning)
    { set k := { k with
        status := status
        terminalEventId := terminalEventId.or k.terminalEventId
        reason := some reason
        retryable := some false
        effectStatus := effectStatus }
      key_set _ := rfl }

end Db

/-- What `close_generation` does with one open call. -/
def finishOpenCall (c : ClaimedEvent) (reason : String) (db : Db) (open_ : OpenCall) :
    Except Failure Db :=
  match sessionStopSkillStatus open_.decision.action reason with
  | .succeeded =>
    .ok (db.finishStopCall open_.call.id .succeeded (some c.rowId) "stop_hosting_requested"
      .notApplicable)
  | status =>
    match open_.decision.actionTrackingId with
    | none => .ok (db.finishStopCall open_.call.id status none "session_stopped" .notApplicable)
    | some trackingId => do
      let applied ← applyTerminalEffect trackingId .cancelled db
      .ok (applied.finishStopCall open_.call.id status none "session_stopped" .applied)

/-- The statements of `close_generation` after the calls are finished. -/
def closeRows (j : Joined) (c : ClaimedEvent) (db : Db) : Db :=
  (((db.completeWith c .succeeded none none).supersedeOpenCycleEvents c.cycleId
    c.rowId).stopCycle c.cycleId c.eventSequence).stopRuntime j.session.id c.controlGeneration
    c.claimedFenceVersion

/-- `close_generation`. It fails when the cycle was neither pending nor active. -/
def closeGeneration (c : ClaimedEvent) (payload : SessionStoppedPayload) (db : Db) :
    Except Failure (MutationResult × Db) :=
  match (db.lockClaim c).filter fun j ↦ j.IsCurrentClaim c with
  | none => .ok (⟨.fenced, some "claim_lost"⟩, db)
  | some j =>
    let cancelled := db.cancelUnsentDecisions c.cycleId
    let calls := cancelled.lockOpenCalls c.cycleId
    let successful := calls.filter fun o ↦
      sessionStopSkillStatus o.decision.action payload.reason = .succeeded
    if 1 < successful.length then
      .ok (⟨.conflict, some "ambiguous_stop_hosting_call"⟩, successful.foldl (fun db o ↦
        db.finishStopCall o.call.id .manual none "ambiguous_stop_hosting_call" .manual) cancelled)
    else do
      let finished ← calls.foldlM (finishOpenCall c payload.reason) cancelled
      if ∃ cycle ∈ db.cycles, cycle.id = c.cycleId ∧
          (cycle.status = .pending ∨ cycle.status = .active) then
        .ok (⟨.applied, none⟩, closeRows j c finished)
      else .error .runtimeError

end LlmGateway
