import LlmGateway.Outbox.Delivery

/-!
# Skill calls

The terminal repository: `recordSkillStarted` and `recordSkillFinished` look a decision up by
gateway and decision id, check that the event speaks about the call of that decision, and
move the call. The terminal effect on a tracked action is applied in the same transaction;
when it cannot be applied the transaction is rolled back.
-/

namespace LlmGateway

open Relational

inductive MutationDisposition where
  | applied
  | idempotent
  | conflict
  | missing
  | fenced
deriving DecidableEq, Repr

/-- `MutationResult`. -/
structure MutationResult where
  disposition : MutationDisposition
  errorCategory : Option String
deriving DecidableEq, Repr

/-- `TerminalRecord`. -/
structure TerminalRecord where
  status : CallStatus
  failureCategory : Option FailureCategory
  reason : Option String
  retryable : Option Bool
deriving DecidableEq

/-- `TerminalTransition`. -/
structure TerminalTransition where
  disposition : MutationDisposition
  record : TerminalRecord

/-- `_UNCONFIRMED_COMPLETION_REASONS`. -/
def unconfirmedCompletionReasons : List String :=
  ["completion_unconfirmed", "vehicle_completion_unconfirmed"]

/-- `normalize_skill_terminal`. -/
def normalizeSkillTerminal : SkillTerminal → TerminalRecord
  | .success => ⟨.succeeded, none, none, none⟩
  | .failed failureCategory reason retryable =>
    ⟨.failed, some failureCategory, some reason,
      some (retryable && reason ∉ unconfirmedCompletionReasons)⟩
  | .cancelled reason retryable =>
    ⟨.cancelled, none, some reason, some (retryable && reason ∉ unconfirmedCompletionReasons)⟩
  | .timeout reason retryable =>
    ⟨.timeout, none, some reason, some (retryable && reason ∉ unconfirmedCompletionReasons)⟩

/-- `resolve_terminal_transition`. -/
def resolveTerminalTransition (existing incoming : TerminalRecord) : TerminalTransition :=
  if existing.status.isRunning then ⟨.applied, incoming⟩
  else if existing = incoming then ⟨.idempotent, existing⟩
  else if existing.status = .manual then ⟨.conflict, existing⟩
  else ⟨.conflict,
    ⟨.manual, some .internalFailed, some "terminal_conflict", some false⟩⟩

/-- `tracking_status_for_terminal`. -/
def trackingStatusForTerminal : CallStatus → Option TrackingStatus
  | .succeeded => some .completed
  | .failed | .cancelled => some .abandoned
  | .timeout => some .timeout
  | _ => none

/-- `TerminalEffectService.apply`: fails unless the action is still tracked. -/
def applyTerminalEffect (actionTrackingId : Uuid) (terminalStatus : CallStatus) (db : Db) :
    Except Failure Db :=
  match trackingStatusForTerminal terminalStatus with
  | none => .error .valueError
  | some status =>
    if ∃ a ∈ db.tracking, a.id = actionTrackingId ∧ a.status = .tracking then
      .ok (db.updateTracking (fun a ↦ a.id = actionTrackingId ∧ a.status = .tracking)
        { set a := { a with status := status }
          key_set _ := rfl })
    else .error .runtimeError

namespace Db

variable (db : Db)

/-- `_MARK_STARTED`. -/
def markStarted (rowId : Uuid) : Db :=
  db.updateCalls (fun k ↦ k.id = rowId ∧ k.status = .pending)
    { set k := { k with status := .started }
      key_set _ := rfl }

/-- `_UPDATE_TERMINAL`. -/
def updateTerminal (rowId terminalEventId : Uuid) (record : TerminalRecord)
    (effectStatus : EffectStatus) : Db :=
  db.updateCalls (fun k ↦ k.id = rowId ∧ k.status.isRunning)
    { set k := { k with
        terminalEventId := some terminalEventId
        status := record.status
        failureCategory := record.failureCategory
        reason := record.reason
        retryable := record.retryable
        effectStatus := effectStatus }
      key_set _ := rfl }

/-- `_MARK_TERMINAL_CONFLICT`. -/
def markTerminalConflict (rowId : Uuid) : Db :=
  db.updateCalls (fun k ↦ k.id = rowId)
    { set k := { k with
        status := .manual
        failureCategory := some .internalFailed
        reason := some "terminal_conflict"
        retryable := some false }
      key_set _ := rfl }

/-- `_MARK_EFFECT_APPLIED`. -/
def markEffectApplied (rowId : Uuid) : Db :=
  db.updateCalls (fun k ↦ k.id = rowId ∧ k.effectStatus = .pending)
    { set k := { k with effectStatus := .applied }
      key_set _ := rfl }

/-- The row of `_INSERT_STARTED` and `_INSERT_TERMINAL`. -/
def newCallRow (now : ℕ) (c : ClaimedEvent) (d : DecisionRow) (skillCallId skillName : String)
    (record : TerminalRecord) (terminalEventId : Option Uuid) (effectStatus : EffectStatus) :
    CallRow where
  id := db.nextUuid
  tenantId := c.tenantId
  decisionRowId := d.id
  gatewayId := c.gatewayId
  sessionId := c.sessionId
  decisionId := d.decisionId
  skillCallId := skillCallId
  skillName := skillName
  createdAt := now
  status := record.status
  failureCategory := record.failureCategory
  reason := record.reason
  retryable := record.retryable
  terminalEventId := terminalEventId
  effectStatus := effectStatus

end Db

/-- `_apply_effect`. -/
def applyEffect (callId : Uuid) (actionTrackingId : Option Uuid) (terminalStatus : CallStatus)
    (db : Db) : Except Failure Db :=
  match actionTrackingId with
  | none => .ok db
  | some trackingId => do
    let applied ← applyTerminalEffect trackingId terminalStatus db
    if ∃ k ∈ applied.calls, k.id = callId ∧ k.effectStatus = .pending then
      .ok (applied.markEffectApplied callId)
    else .error .runtimeError

/-- `_call_matches_identity`. -/
def CallRow.MatchesIdentity (k : CallRow) (d : DecisionRow) (sessionId skillName : String) :
    Prop :=
  k.decisionRowId = d.id ∧ k.decisionId = d.decisionId ∧ k.sessionId = sessionId ∧
    k.skillName = skillName

instance (d : DecisionRow) (sessionId skillName : String) :
    DecidablePred fun k : CallRow ↦ k.MatchesIdentity d sessionId skillName := fun _ ↦
  inferInstanceAs (Decidable (_ ∧ _))

/-- The identity of the call that a terminal event speaks about. -/
structure CallReference where
  decisionId : String
  skillCallId : String
  skillName : String

/-- The decision that an event names and its call, or the reason why the event is refused.
The checks are shared by `record_skill_started` and `record_skill_finished`. -/
def lookUpCall (c : ClaimedEvent) (reference : CallReference) (db : Db) :
    Except MutationResult (DecisionRow × Option CallRow) :=
  let identityConflict : MutationResult := ⟨.conflict, some "skill_call_identity_conflict"⟩
  match db.decisionByName c.gatewayId reference.decisionId with
  | none => .error ⟨.missing, some "missing_decision"⟩
  | some decision =>
    match decision.skillName with
    | none => .error ⟨.conflict, some "decision_action_mismatch"⟩
    | some skillName =>
      if decision.sessionId ≠ c.event.sessionId ∨ reference.skillName ≠ skillName then
        .error identityConflict
      else
        let own := db.callForDecision decision.id
        if ∃ k ∈ own, k.skillCallId ≠ reference.skillCallId then .error identityConflict
        else
          let call := own.or (db.callByName c.gatewayId reference.skillCallId)
          if ∃ k ∈ call, ¬k.MatchesIdentity decision c.event.sessionId reference.skillName then
            .error identityConflict
          else .ok (decision, call)

/-- `record_skill_started`. -/
def recordSkillStarted (now : ℕ) (c : ClaimedEvent) (payload : SkillStartedPayload) (db : Db) :
    MutationResult × Db :=
  match lookUpCall c ⟨payload.decisionId, payload.skillCallId, payload.skillName⟩ db with
  | .error refused => (refused, db)
  | .ok (decision, none) =>
    (⟨.applied, none⟩, db.insertCall (db.newCallRow now c decision payload.skillCallId
      payload.skillName ⟨.started, none, none, none⟩ none .notApplicable))
  | .ok (_, some call) =>
    match call.status with
    | .pending => (⟨.applied, none⟩, db.markStarted call.id)
    | .manual => (⟨.conflict, some "skill_call_state_conflict"⟩, db)
    | _ => (⟨.idempotent, none⟩, db)

/-- `_terminal_from_row`, without the event that is not compared. -/
def CallRow.terminal (k : CallRow) : TerminalRecord :=
  ⟨k.status, k.failureCategory, k.reason, k.retryable⟩

/-- `record_skill_finished`. -/
def recordSkillFinished (now : ℕ) (c : ClaimedEvent) (payload : SkillFinishedPayload) (db : Db) :
    Except Failure (MutationResult × Db) :=
  let incoming := normalizeSkillTerminal payload.terminal
  match lookUpCall c ⟨payload.decisionId, payload.skillCallId, payload.skillName⟩ db with
  | .error refused => .ok (refused, db)
  | .ok (decision, call) =>
    let effectStatus : EffectStatus :=
      if decision.actionTrackingId.isSome then .pending else .notApplicable
    match call with
    | none => do
      let inserted := db.insertCall (db.newCallRow now c decision payload.skillCallId
        payload.skillName incoming (some c.rowId) effectStatus)
      let applied ← applyEffect db.nextUuid decision.actionTrackingId incoming.status inserted
      .ok (⟨.applied, none⟩, applied)
    | some call =>
      match (resolveTerminalTransition call.terminal incoming).disposition with
      | .idempotent => .ok (⟨.idempotent, none⟩, db)
      | .conflict => .ok (⟨.conflict, some "terminal_conflict"⟩, db.markTerminalConflict call.id)
      | _ => do
        let applied ← applyEffect call.id decision.actionTrackingId incoming.status
          (db.updateTerminal call.id c.rowId incoming effectStatus)
        .ok (⟨.applied, none⟩, applied)

end LlmGateway
