import LlmGateway.Inbox.Completion
import LlmGateway.Relational.Transition

/-!
# Maintenance of the inbox

The sweep of exhausted claims, the discarding of stale events and the stopping of idle
sessions. Each is one transaction with a loop; the loops are given as much fuel as there are
event rows, which is more than they can use.
-/

namespace LlmGateway

open Relational

/-! ## Expired claims -/

namespace Db

variable (db : Db)

/-- The rows that `_CLEANUP_CLOSED_CYCLE_EVENTS` closes, for a given cycle. -/
def ClosedCycleEvent (e : EventRow) (c : CycleRow) : Prop :=
  e.cycleId = c.id ∧
    ((c.status = .stopped ∨ c.status = .manual) ∨
      (c.status = .superseded ∧ (e.eventType = .sessionStarted ∨
        e.eventType = .observationUpdated ∨ e.eventType = .sessionStopped))) ∧
    ((e.status = .pending ∨ e.status = .retryableFailed) ∨
      ((c.status = .stopped ∨ c.status = .manual) ∧ e.status = .processing))

instance (e : EventRow) : DecidablePred (ClosedCycleEvent e) := fun _ ↦
  inferInstanceAs (Decidable (_ ∧ _))

/-- `_CLEANUP_CLOSED_CYCLE_EVENTS`. -/
def cleanupClosedCycleEvents : Db :=
  db.updateEvents (fun e ↦ ∃ c ∈ db.cycles, ClosedCycleEvent e c)
    { set e :=
        let manual := ∃ c ∈ db.cycles, e.cycleId = c.id ∧ c.status = .manual
        (closeEvent (if manual then .manual else .superseded) (some "worker")
          (some "closed_cycle_pending")).set e
      key_set _ := rfl }

end Db

/-- The condition of `_LOCK_EXHAUSTED_CLAIM`. -/
def EventRow.Exhausted (maxAttempts now : ℕ) (e : EventRow) : Prop :=
  e.status = .processing ∧ (∃ t ∈ e.lockUntil, t ≤ now) ∧ maxAttempts ≤ e.attemptCount

instance (maxAttempts now : ℕ) : DecidablePred (EventRow.Exhausted maxAttempts now) := fun _ ↦
  inferInstanceAs (Decidable (_ ∧ _))

def EventRow.expiryKey (e : EventRow) : List ℤ := ((e.lockUntil.getD 0 : ℕ) : ℤ) :: e.id.sortKey

namespace Db

variable (db : Db)

/-- `_LOCK_EXHAUSTED_CLAIM`. -/
def lockExhaustedClaim (maxAttempts now : ℕ) : Option Joined :=
  (orderBy (fun j : Joined ↦ j.event.expiryKey)
    (db.joinedEvents.filter fun j ↦ j.event.Exhausted maxAttempts now)).head?

/-- `_COMPLETE_DEAD_LETTER` on the locked row, with the claim it was read with. -/
def deadLetterExpired (j : Joined) : Db :=
  db.updateEvents (fun e ↦ e.id = j.event.id ∧ e.claimToken = j.event.claimToken ∧
      e.claimedFenceVersion = j.event.claimedFenceVersion ∧ e.status = .processing)
    (closeEvent .deadLetter (some "worker") (some "claim_expired"))

end Db

/-- What the sweep does with one exhausted claim. -/
def sweepRow (j : Joined) (db : Db) : Db :=
  if ¬j.ClaimValid j.event.claimedFenceVersion then db.supersedeLocked j
  else (db.deadLetterExpired j).skipFrom j

/-- One turn of the loop of `sweep_expired_claims`. -/
def sweepBody (maxAttempts now : ℕ) (db : Db) : Option Db :=
  (db.lockExhaustedClaim maxAttempts now).map fun j ↦ sweepRow j db

/-- `sweep_expired_claims`. -/
def sweepExpiredClaims (config : WorkerConfig) (now : ℕ) (db : Db) : Db :=
  iterate (sweepBody config.maxAttempts now) (db.events.rows.length + 1)
    db.cleanupClosedCycleEvents

/-! ## Stale events -/

/-- The condition of `_SELECT_STALE_EVENTS`. -/
def EventRow.Stale (maxAgeMs now : ℕ) (e : EventRow) : Prop :=
  e.status.isOpen ∧ e.eventBody.occurredAtMs + maxAgeMs < now

instance (maxAgeMs now : ℕ) : DecidablePred (EventRow.Stale maxAgeMs now) := fun _ ↦
  inferInstanceAs (Decidable (_ ∧ _))

def EventRow.arrivalKey (e : EventRow) : List ℤ := (e.receivedAt : ℤ) :: e.id.sortKey

namespace Db

variable (db : Db)

/-- `_SELECT_STALE_EVENTS`. -/
def selectStaleEvents (maxAgeMs now : ℕ) : List Joined :=
  (orderBy (fun j : Joined ↦ j.event.arrivalKey)
    (db.joinedEvents.filter fun j ↦ j.event.Stale maxAgeMs now)).take 256

/-- The cast of `occurredAtMs` fails on some open event. -/
def StaleCastFails : Prop :=
  ∃ e ∈ db.events, e.status.isOpen ∧ bigintMax < e.eventBody.occurredAtMs

instance : Decidable db.StaleCastFails := inferInstanceAs (Decidable (∃ _ ∈ _, _))

/-- `_MARK_STALE_EVENT`. -/
def markStaleEvent (rowId : Uuid) : Db :=
  db.updateEvents (fun e ↦ e.id = rowId ∧ e.status.isOpen)
    (closeEvent .superseded (some "gateway_session") (some "stale_event_discarded"))

/-- `_CANCEL_STALE_DECISIONS`. -/
def cancelStaleDecisions (rowId : Uuid) : Db :=
  db.updateDecisions (fun d ↦ d.sourceEventId = rowId ∧ d.status.isUnsent)
    (cancelDecision "stale_event_discarded" "gateway_session" "stale_event_discarded")

/-- Cancel a call that is still running. -/
def cancelCall (reason : String) : Assignment CallRow where
  set k := { k with
    status := .cancelled
    failureCategory := none
    reason := some reason
    retryable := some false }
  key_set _ := rfl

/-- `_CANCEL_STALE_SKILL_CALLS`. -/
def cancelStaleSkillCalls (rowId : Uuid) : Db :=
  db.updateCalls (fun k ↦ k.status.isRunning ∧
    ∃ d ∈ db.decisions, k.decisionRowId = d.id ∧ d.sourceEventId = rowId)
    (cancelCall "stale_event_discarded")

/-- `_BUMP_SESSION_FENCE`. -/
def bumpSessionFence (runtimeSessionId : Uuid) (fenceVersion : ℕ) : Db :=
  db.updateSessions (fun s ↦ s.id = runtimeSessionId ∧ s.fenceVersion = fenceVersion)
    { set s := { s with fenceVersion := s.fenceVersion + 1 }
      key_set _ := rfl }

end Db

/-- What `discard_stale_events` does with one selected row. Status and fence are those that
the query read, before any row of its batch was handled. -/
def discardRow (db : Db) (j : Joined) : Db :=
  if ∃ e ∈ db.events, e.id = j.event.id ∧ e.status.isOpen then
    let cancelled := ((db.markStaleEvent j.event.id).cancelStaleDecisions
      j.event.id).cancelStaleSkillCalls j.event.id
    if j.event.status = .processing then
      cancelled.bumpSessionFence j.session.id j.session.fenceVersion
    else cancelled
  else db

/-- One turn of the loop of `discard_stale_events`: a batch of at most 256 rows. -/
def discardBody (maxAgeMs now : ℕ) (db : Db) : Option Db :=
  if (db.selectStaleEvents maxAgeMs now).isEmpty then none
  else some ((db.selectStaleEvents maxAgeMs now).foldl discardRow db)

/-- `discard_stale_events`. -/
def discardStaleEvents (maxAgeMs : Option ℕ) (now : ℕ) (db : Db) : Except Failure Db :=
  match maxAgeMs with
  | none => .ok db
  | some maxAgeMs =>
    if db.StaleCastFails then .error .dataError
    else .ok (iterate (discardBody maxAgeMs now) (db.events.rows.length + 1) db)

/-! ## Idle sessions -/

def SessionRow.livenessKey (s : SessionRow) : List ℤ := (s.lastEventAt : ℤ) :: s.id.sortKey

namespace Db

variable (db : Db)

/-- `_SELECT_IDLE_SESSIONS`. -/
def selectIdleSessions (idleTimeoutMs now : ℕ) : List SessionRow :=
  (orderBy SessionRow.livenessKey (db.sessions.select fun s ↦
    s.status = .active ∧ s.lastEventAt + idleTimeoutMs ≤ now)).take 256

/-- The cycle belongs to the generation of the idle session. -/
def IdleCycle (session : SessionRow) (c : CycleRow) : Prop :=
  c.runtimeSessionId = session.id ∧ some c.controlGeneration = session.currentGeneration

instance (session : SessionRow) : DecidablePred (IdleCycle session) := fun _ ↦
  inferInstanceAs (Decidable (_ ∧ _))

/-- `_STOP_IDLE_CYCLES`. -/
def stopIdleCycles (session : SessionRow) : Db :=
  db.updateCycles (fun c ↦ IdleCycle session c ∧ (c.status = .pending ∨ c.status = .active))
    (setCycleStatus .stopped)

/-- `_SUPERSEDE_IDLE_EVENTS`. -/
def supersedeIdleEvents (session : SessionRow) : Db :=
  db.updateEvents (fun e ↦ e.status.isOpen ∧
    ∃ c ∈ db.cycles, e.cycleId = c.id ∧ IdleCycle session c)
    (closeEvent .superseded (some "gateway_session") (some "gateway_session_inactive"))

/-- `_CANCEL_IDLE_DECISIONS`. -/
def cancelIdleDecisions (session : SessionRow) : Db :=
  db.updateDecisions (fun d ↦ d.status.isUnsent ∧
    ∃ c ∈ db.cycles, d.cycleId = c.id ∧ IdleCycle session c)
    (cancelDecision "gateway_session_inactive" "gateway_session" "gateway_session_inactive")

/-- `_CANCEL_IDLE_SKILL_CALLS`. -/
def cancelIdleSkillCalls (session : SessionRow) : Db :=
  db.updateCalls (fun k ↦ k.status.isRunning ∧ ∃ d ∈ db.decisions, k.decisionRowId = d.id ∧
    ∃ c ∈ db.cycles, d.cycleId = c.id ∧ IdleCycle session c)
    (cancelCall "gateway_session_inactive")

/-- `_STOP_IDLE_SESSION`. -/
def stopIdleSession (session : SessionRow) : Db :=
  db.updateSessions (fun s ↦ s.id = session.id ∧ s.status = .active ∧
    s.currentGeneration.isSome ∧ s.currentGeneration = session.currentGeneration ∧
    s.fenceVersion = session.fenceVersion)
    SessionRow.stopFenced

end Db

/-- What `stop_idle_sessions` does with one selected session. -/
def stopIdleRow (db : Db) (session : SessionRow) : Db :=
  ((((db.stopIdleCycles session).supersedeIdleEvents session).cancelIdleDecisions
    session).cancelIdleSkillCalls session).stopIdleSession session

/-- `stop_idle_sessions`. -/
def stopIdleSessions (idleTimeoutMs : Option ℕ) (now : ℕ) (db : Db) : Db :=
  match idleTimeoutMs with
  | none => db
  | some idleTimeoutMs => (db.selectIdleSessions idleTimeoutMs now).foldl stopIdleRow db

end LlmGateway
