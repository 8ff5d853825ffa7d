import LlmGateway.Inbox.Claim

/-!
# Working on a claim

The transactions of a worker that holds a claim: the heartbeat `renewEventClaim`, the
persistence of the lease context, and `completeEvent`, which applies the outcome of the
processor or, when the claim has been fenced off, supersedes the event.

A statement that casts an integer of the stored body to `bigint` fails on a larger one.
-/

namespace LlmGateway

open Relational

inductive ProcessOutcome where
  | succeeded
  | retryableFailed
  | manual
deriving DecidableEq, Repr

/-- `EventProcessResult`. -/
structure EventProcessResult where
  outcome : ProcessOutcome
  errorStage : Option String
  errorCategory : Option String
deriving DecidableEq

/-- The event is being processed under this claim. -/
def EventRow.HeldBy (e : EventRow) (c : ClaimedEvent) : Prop :=
  e.claimToken = some c.claimToken ∧ e.claimedFenceVersion = some c.claimedFenceVersion ∧
    e.status = .processing

instance (c : ClaimedEvent) : DecidablePred fun e : EventRow ↦ e.HeldBy c := fun _ ↦
  inferInstanceAs (Decidable (_ ∧ _))

/-! ## The heartbeat -/

/-- The cycle has no lease, the event has none, or they are the same one. -/
def Joined.SameLease (j : Joined) : Prop :=
  j.cycle.latestDecisionLeaseId = none ∨ j.event.eventBody.decisionLeaseId = none ∨
    (j.cycle.latestDecisionLeaseId = j.event.eventBody.decisionLeaseId ∧
      j.cycle.latestStateVersion = some j.event.eventBody.stateVersion)

instance : DecidablePred Joined.SameLease := fun _ ↦ inferInstanceAs (Decidable (_ ∨ _))

/-- The cycle is open and the claim was taken under the current fence of its generation. -/
def Joined.FenceCurrent (j : Joined) : Prop :=
  (j.cycle.status = .pending ∨ j.cycle.status = .active) ∧
    j.session.currentGeneration = some j.event.controlGeneration ∧
    j.event.claimedFenceVersion = some j.session.fenceVersion

instance : DecidablePred Joined.FenceCurrent := fun _ ↦ inferInstanceAs (Decidable (_ ∧ _))

/-- A convergence event of a superseded cycle of an older generation. -/
def Joined.Historical (j : Joined) : Prop :=
  j.cycle.status = .superseded ∧
    (∃ g ∈ j.session.currentGeneration, j.event.controlGeneration < g) ∧
    j.event.eventType.isConvergence

instance : DecidablePred Joined.Historical := fun _ ↦ inferInstanceAs (Decidable (_ ∧ _))

/-- The condition of `_RENEW_EVENT_CLAIM` beyond the claim itself. -/
def Joined.Renewable (j : Joined) : Prop :=
  j.event.eventType.isHostedChat ∨ (j.FenceCurrent ∧ j.SameLease) ∨ j.Historical

instance : DecidablePred Joined.Renewable := fun _ ↦ inferInstanceAs (Decidable (_ ∨ _))

/-- The comparison of the state versions is reached, and the cast in it fails. -/
def Joined.RenewCastFails (j : Joined) : Prop :=
  j.event.eventType.isHostedChat = false ∧ j.FenceCurrent ∧
    j.cycle.latestDecisionLeaseId.isSome ∧
    j.cycle.latestDecisionLeaseId = j.event.eventBody.decisionLeaseId ∧
    bigintMax < j.event.eventBody.stateVersion

instance : DecidablePred Joined.RenewCastFails := fun _ ↦ inferInstanceAs (Decidable (_ ∧ _))

/-- The session stops and its fence rises. -/
def SessionRow.stopFenced : Assignment SessionRow where
  set s := { s with status := .stopped, fenceVersion := s.fenceVersion + 1 }
  key_set _ := rfl

namespace Db

variable (db : Db)

/-- The joined row of a claim that is still held. -/
def lockClaim (c : ClaimedEvent) : Option Joined :=
  ((db.eventById c.rowId).filter fun e ↦ e.HeldBy c).bind db.joinEvent

/-- The `SET` clause of `_RENEW_EVENT_CLAIM`. -/
def extendLock (lockUntil : ℕ) : Assignment EventRow where
  set e := { e with lockUntil := some lockUntil }
  key_set _ := rfl

/-- `_RENEW_EVENT_CLAIM` on the row that meets its condition. -/
def renewClaim (config : WorkerConfig) (now : ℕ) (c : ClaimedEvent) : Db :=
  db.updateEvents (fun e ↦ e.id = c.rowId ∧ e.HeldBy c) (extendLock (now + config.claimTtlMs))

/-! ## Completion statements -/

/-- `_COMPLETE_SUCCEEDED`, `_COMPLETE_DEAD_LETTER` and `_COMPLETE_MANUAL`. -/
def completeWith (c : ClaimedEvent) (status : EventStatus)
    (errorStage errorCategory : Option String) : Db :=
  db.updateEvents (fun e ↦ e.id = c.rowId ∧ e.HeldBy c)
    (closeEvent status errorStage errorCategory)

/-- `_COMPLETE_RETRYABLE`. -/
def completeRetryable (c : ClaimedEvent) (nextAttemptAt : ℕ)
    (errorStage errorCategory : Option String) : Db :=
  db.updateEvents (fun e ↦ e.id = c.rowId ∧ e.HeldBy c)
    { set e := { (closeEvent .retryableFailed errorStage errorCategory).set e with
        nextAttemptAt := nextAttemptAt }
      key_set _ := rfl }

/-- `_ADVANCE_CYCLE`. -/
def advanceCycle (cycleId : Uuid) (eventSequence : ℕ) : Db :=
  db.updateCycles (fun c ↦ c.id = cycleId ∧ c.nextEventSequence = eventSequence)
    { set c := { c with nextEventSequence := c.nextEventSequence + 1 }
      key_set _ := rfl }

/-- The cursor may pass the event. -/
def Skippable (e : EventRow) : Prop :=
  e.status = .superseded ∨ (e.eventType.isConvergence ∧
    (e.status = .succeeded ∨ e.status = .deadLetter ∨ e.status = .manual))

instance : DecidablePred Skippable := fun _ ↦ inferInstanceAs (Decidable (_ ∨ _))

/-- The last of the positions that the recursive query reaches from a given one. Each step
uses up one event of the cycle, so the number of events bounds the recursion. -/
def lastPosition (cycleId : Uuid) : ℕ → ℕ → ℕ
  | 0, position => position
  | fuel + 1, position =>
    if ∃ e ∈ db.events, e.cycleId = cycleId ∧ e.eventSequence = position ∧ Skippable e then
      lastPosition cycleId fuel (position + 1)
    else position

/-- `_SKIP_COMPLETED_CONVERGENCE_EVENTS`. -/
def skipCompletedConvergenceEvents (cycleId : Uuid) : Db :=
  db.updateCycles (fun c ↦ c.id = cycleId)
    { set c := { c with
        nextEventSequence :=
          db.lastPosition cycleId db.events.rows.length c.nextEventSequence }
      key_set _ := rfl }

/-- `_skip_completed_convergence_events`. -/
def skipFrom (j : Joined) : Db :=
  if j.event.eventType.isConvergence ∨ j.cycle.nextEventSequence = j.event.eventSequence then
    db.skipCompletedConvergenceEvents j.event.cycleId
  else db

/-- `_SUPERSEDE_OPEN_CYCLE_EVENTS` and `_SUPERSEDE_STOPPED_CYCLE_EVENTS`. -/
def supersedeOpenCycleEvents (cycleId stopEventId : Uuid) : Db :=
  db.updateEvents (fun e ↦ e.cycleId = cycleId ∧ e.id ≠ stopEventId ∧ e.status.isOpen)
    supersedeKeepingError

/-- `_STOP_CURRENT_CYCLE` and `_CLOSE_CYCLE`. -/
def stopCycle (cycleId : Uuid) (eventSequence : ℕ) : Db :=
  db.updateCycles (fun c ↦ c.id = cycleId ∧ (c.status = .pending ∨ c.status = .active))
    { set c := { c with
        nextEventSequence := max c.nextEventSequence (eventSequence + 1)
        status := .stopped }
      key_set _ := rfl }

/-- `_STOP_CURRENT_RUNTIME` and `_STOP_RUNTIME`. -/
def stopRuntime (runtimeSessionId : Uuid) (controlGeneration claimedFenceVersion : ℕ) : Db :=
  db.updateSessions (fun s ↦ s.id = runtimeSessionId ∧
    s.currentGeneration = some controlGeneration ∧ s.fenceVersion = claimedFenceVersion)
    SessionRow.stopFenced

/-! ## Lease statements -/

/-- The update of `_PERSIST_LEASE_CONTEXT`. -/
def persistContext (cycleId : Uuid) (context : AgentContext) : Db :=
  db.updateCycles (fun c ↦ c.id = cycleId)
    { set c := { c with
        latestStateVersion := some context.stateVersion
        latestDecisionLeaseId := some context.decisionLeaseId
        latestDecisionContext := some context }
      key_set _ := rfl }

/-- `_CANCEL_OLDER_LEASE_DECISIONS`. -/
def cancelOlderLeaseDecisions (cycleId : Uuid) (context : AgentContext) : Db :=
  db.updateDecisions (fun d ↦ d.cycleId = cycleId ∧ d.status.isUnsent ∧
    (d.decisionLeaseId ≠ context.decisionLeaseId ∨ d.stateVersion ≠ context.stateVersion))
    { set d :=
        let reason := if d.decisionLeaseId ≠ context.decisionLeaseId then
          "decision_lease_changed" else "state_version_changed"
        (cancelDecision reason "fence" reason).set d
      key_set _ := rfl }

/-- An open event whose lease the new context replaces, up to the comparison of the lease. -/
def OlderLeaseEvent (c : ClaimedEvent) (e : EventRow) : Prop :=
  e.cycleId = c.cycleId ∧ e.id ≠ c.rowId ∧ e.eventSequence < c.eventSequence ∧
    e.status.isOpen ∧ (e.eventType = .sessionStarted ∨ e.eventType = .observationUpdated) ∧
    e.eventBody.decisionLeaseId.isSome

instance (c : ClaimedEvent) : DecidablePred (OlderLeaseEvent c) := fun _ ↦
  inferInstanceAs (Decidable (_ ∧ _))

/-- The lease of the event is another one. -/
def OtherLease (context : AgentContext) (e : EventRow) : Prop :=
  e.eventBody.decisionLeaseId ≠ some context.decisionLeaseId ∨
    e.eventBody.stateVersion ≠ context.stateVersion

instance (context : AgentContext) : DecidablePred (OtherLease context) := fun _ ↦
  inferInstanceAs (Decidable (_ ∨ _))

/-- `_SUPERSEDE_OLDER_LEASE_EVENTS`. -/
def supersedeOlderLeaseEvents (c : ClaimedEvent) (context : AgentContext) : Db :=
  db.updateEvents (fun e ↦ OlderLeaseEvent c e ∧ OtherLease context e) supersedeKeepingError

/-- The state versions are compared for an event of the same lease, and the cast fails. -/
def supersedeCastFails (c : ClaimedEvent) (context : AgentContext) : Prop :=
  ∃ e ∈ db.events, OlderLeaseEvent c e ∧
    e.eventBody.decisionLeaseId = some context.decisionLeaseId ∧
    bigintMax < e.eventBody.stateVersion

instance (c : ClaimedEvent) (context : AgentContext) :
    Decidable (db.supersedeCastFails c context) := inferInstanceAs (Decidable (∃ _ ∈ _, _))

end Db

/-- `renew_event_claim`. -/
def renewEventClaim (config : WorkerConfig) (now : ℕ) (c : ClaimedEvent) (db : Db) :
    Except Failure (Bool × Db) :=
  match db.lockClaim c with
  | none => .ok (false, db)
  | some j =>
    if ¬∃ t ∈ j.event.lockUntil, now < t then .ok (false, db)
    else if j.RenewCastFails then .error .dataError
    else if j.Renewable then .ok (true, db.renewClaim config now c)
    else .ok (false, db)

/-- The context was built from the claimed event. -/
def AgentContext.Matches (context : AgentContext) (c : ClaimedEvent) : Prop :=
  context.eventId = c.eventId ∧ context.sessionId = c.sessionId ∧
    context.controlGeneration = c.controlGeneration ∧ context.eventSequence = c.eventSequence

instance (context : AgentContext) : DecidablePred context.Matches := fun _ ↦
  inferInstanceAs (Decidable (_ ∧ _))

/-- The rows that `_PERSIST_LEASE_CONTEXT` updates together with the claimed event. -/
def Joined.Persistable (j : Joined) (c : ClaimedEvent) : Prop :=
  j.event.cycleId = c.cycleId ∧ j.session.currentGeneration = some j.event.controlGeneration ∧
    j.event.claimedFenceVersion = some j.session.fenceVersion

instance (c : ClaimedEvent) : DecidablePred fun j : Joined ↦ j.Persistable c := fun _ ↦
  inferInstanceAs (Decidable (_ ∧ _))

/-- `persist_lease_context`. -/
def persistLeaseContext (c : ClaimedEvent) (context : AgentContext) (db : Db) :
    Except Failure (Bool × Db) :=
  if ¬context.Matches c then .error .valueError
  else if bigintMax < context.stateVersion then .error .dataError
  else match (db.lockClaim c).filter fun j ↦ j.Persistable c with
    | none => .ok (false, db)
    | some _ =>
      if db.supersedeCastFails c context then .error .dataError
      else .ok (true, (((db.persistContext c.cycleId context).cancelOlderLeaseDecisions
        c.cycleId context).supersedeOlderLeaseEvents c context).skipCompletedConvergenceEvents
        c.cycleId)

/-- `_complete_cycle_success`. -/
def completeCycleSuccess (j : Joined) (c : ClaimedEvent) (db : Db) : Db :=
  if c.eventType.isHostedChat then db
  else if c.eventType ≠ .sessionStopped then
    (db.advanceCycle c.cycleId c.eventSequence).skipFrom j
  else ((db.supersedeOpenCycleEvents c.cycleId c.rowId).stopCycle c.cycleId
    c.eventSequence).stopRuntime j.session.id c.controlGeneration c.claimedFenceVersion

/-- The fence check of `complete_event` and `sweep_expired_claims`. -/
def Joined.ClaimValid (j : Joined) (claimedFenceVersion : Option ℕ) : Prop :=
  j.event.eventType.isHostedChat ∨ j.disposition = .historicalRecovery ∨
    (j.disposition = .current ∧ claimedFenceVersion = some j.session.fenceVersion)

instance (claimedFenceVersion : Option ℕ) :
    DecidablePred fun j : Joined ↦ j.ClaimValid claimedFenceVersion := fun _ ↦
  inferInstanceAs (Decidable (_ ∨ _))

/-- `complete_event` with outcome `manual` on a valid claim. -/
def completeManual (j : Joined) (c : ClaimedEvent) (result : EventProcessResult) (db : Db) : Db :=
  let closed := db.completeWith c .manual result.errorStage result.errorCategory
  (if j.disposition ≠ .historicalRecovery ∧ c.eventType.isHostedChat = false then
    closed.markCycleManual c.cycleId else closed).skipFrom j

/-- `complete_event` with outcome `retryable_failed` on a valid claim. -/
def completeFailed (config : WorkerConfig) (now : ℕ) (j : Joined) (c : ClaimedEvent)
    (result : EventProcessResult) (db : Db) : Db :=
  if config.maxAttempts ≤ j.event.attemptCount then
    (db.completeWith c .deadLetter result.errorStage result.errorCategory).skipFrom j
  else db.completeRetryable c (now + config.retryDelayMs j.event.attemptCount)
    result.errorStage result.errorCategory

/-- `complete_event`. -/
def completeEvent (config : WorkerConfig) (now : ℕ) (c : ClaimedEvent)
    (result : EventProcessResult) (db : Db) : Bool × Db :=
  match db.lockClaim c with
  | none => (false, db)
  | some j =>
    if ¬j.ClaimValid (some c.claimedFenceVersion) then (false, db.supersedeLocked j)
    else match result.outcome with
      | .succeeded => (true, completeCycleSuccess j c (db.completeWith c .succeeded none none))
      | .retryableFailed => (true, completeFailed config now j c result db)
      | .manual => (true, completeManual j c result db)

end LlmGateway
