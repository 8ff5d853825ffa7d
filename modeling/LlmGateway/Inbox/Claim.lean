import LlmGateway.Store.Database

/-!
# Claiming an event

`claimPass` is one transaction of the loop of `claim_next_event`: choose a cycle whose
advisory lock is free, lock its first claimable event, classify the generation of the event
and either hand it out, supersede it, or mark it manual. `busy` lists the cycles whose
advisory lock another transaction holds.
-/

namespace LlmGateway

open Relational

/-- Settings of a worker, as its constructor validates them. -/
structure WorkerConfig where
  claimTtlMs : ℕ
  maxAttempts : ℕ
  retryBaseMs : ℕ
  retryMaxMs : ℕ
  claimTtl_pos : 0 < claimTtlMs
  maxAttempts_pos : 0 < maxAttempts
  retryBase_pos : 0 < retryBaseMs
  retryBase_le_retryMax : retryBaseMs ≤ retryMaxMs

/-- The delay before the next attempt. -/
def WorkerConfig.retryDelayMs (config : WorkerConfig) (attemptCount : ℕ) : ℕ :=
  min config.retryMaxMs (config.retryBaseMs * 2 ^ (attemptCount - 1))

inductive GenerationDisposition where
  | activateNew
  | current
  | historicalRecovery
  | stale
  | wait
deriving DecidableEq, Repr

/-- `classify_generation`. -/
def classifyGeneration (currentGeneration : Option ℕ) (incomingGeneration : ℕ)
    (eventType : EventType) (eventSequence : ℕ) : GenerationDisposition :=
  if ∀ g ∈ currentGeneration, g < incomingGeneration then
    if eventType = .sessionStarted ∧ eventSequence = 1 then .activateNew else .wait
  else if currentGeneration = some incomingGeneration then .current
  else if eventType.isConvergence then .historicalRecovery
  else .stale

/-- `ClaimedGatewayEvent`. -/
structure ClaimedEvent where
  rowId : Uuid
  tenantId : Uuid
  cycleId : Uuid
  gatewayId : String
  sessionId : String
  eventId : String
  eventType : EventType
  controlGeneration : ℕ
  eventSequence : ℕ
  event : GatewayEvent
  contentHash : ContentHash
  traceId : String
  claimToken : Uuid
  claimedFenceVersion : ℕ
  attemptCount : ℕ
  lockedBy : String
  lockUntil : ℕ
  historicalRecovery : Bool
deriving DecidableEq

inductive PassOutcome where
  | idle
  | again
  | claimed (claim : ClaimedEvent)

/-- The generation of the event, which hosted chat events bypass. -/
def Joined.disposition (j : Joined) : GenerationDisposition :=
  if j.event.eventType.isHostedChat then .current
  else classifyGeneration j.session.currentGeneration j.event.controlGeneration
    j.event.eventType j.event.eventSequence

/-! ## The claim query -/

/-- The event is due, and its attempts are not used up. -/
def EventRow.Due (maxAttempts now : ℕ) (e : EventRow) : Prop :=
  e.attemptCount < maxAttempts ∧
    (((e.status = .pending ∨ e.status = .retryableFailed) ∧ e.nextAttemptAt ≤ now) ∨
      (e.status = .processing ∧ ∃ t ∈ e.lockUntil, t ≤ now))

instance (maxAttempts now : ℕ) : DecidablePred (EventRow.Due maxAttempts now) := fun _ ↦
  inferInstanceAs (Decidable (_ ∧ _))

/-- The event is at the cursor of its cycle, or of a type that need not wait for it. -/
def Joined.InClaimOrder (j : Joined) : Prop :=
  ((j.cycle.status = .pending ∨ j.cycle.status = .active ∨ j.cycle.status = .superseded) ∧
      j.event.eventSequence = j.cycle.nextEventSequence) ∨
    j.event.eventType.isConvergence ∨ j.event.eventType.isHostedChat ∨
    (j.event.eventType = .sessionStopped ∧ j.cycle.status = .active) ∨
    (j.event.eventType = .observationUpdated ∧ j.cycle.status = .active)

instance : DecidablePred Joined.InClaimOrder := fun _ ↦ inferInstanceAs (Decidable (_ ∨ _))

/-- The `WHERE` clause shared by `_SELECT_CLAIM_CYCLE` and `_LOCK_CLAIM_CANDIDATE`. -/
def Joined.Claimable (maxAttempts now : ℕ) (j : Joined) : Prop :=
  j.InClaimOrder ∧ j.event.Due maxAttempts now

instance (maxAttempts now : ℕ) : DecidablePred (Joined.Claimable maxAttempts now) := fun _ ↦
  inferInstanceAs (Decidable (_ ∧ _))

def Joined.cycleRank (j : Joined) : ℤ :=
  if j.cycle.status = .pending ∧
      (j.event.eventType = .observationUpdated ∨ j.event.eventType = .sessionStopped) then 0
  else if j.cycle.status = .pending ∧ j.event.eventType = .sessionStarted ∧
      j.event.eventSequence = 1 then 1
  else if j.cycle.status = .active then 2
  else if j.cycle.status = .superseded then 3
  else 4

def Joined.typeRank (j : Joined) : ℤ :=
  if j.cycle.status ≠ .active then 10
  else match j.event.eventType with
    | .sessionStopped => 0
    | .skillFinished => 1
    | .decisionRejected => 2
    | .skillStarted => 3
    | .chatReceived | .nearbyFriendChatRequested | .chatSendResult => 4
    | .observationUpdated => 5
    | .sessionStarted => 6

/-- Observations by descending sequence, all other types after them. -/
def Joined.observationRank (j : Joined) : List ℤ :=
  if j.event.eventType = .observationUpdated then [0, -j.event.eventSequence] else [1, 0]

/-- The `ORDER BY` of the two claim queries. -/
def Joined.claimKey (j : Joined) : List ℤ :=
  let atCursor : ℤ := if j.event.eventSequence = j.cycle.nextEventSequence then 0 else 1
  [j.cycleRank, -j.event.controlGeneration, j.typeRank] ++ j.observationRank ++
    [atCursor, (j.event.receivedAt : ℤ)] ++ j.event.id.sortKey

namespace Db

variable (db : Db)

def claimable (maxAttempts now : ℕ) : List Joined :=
  db.joinedEvents.filter fun j ↦ j.Claimable maxAttempts now

/-- `_SELECT_CLAIM_CYCLE`. -/
def selectClaimCycle (maxAttempts now : ℕ) : List Uuid :=
  ((orderBy Joined.claimKey (db.claimable maxAttempts now)).take 256).map (·.event.cycleId)

/-- `_LOCK_CLAIM_CANDIDATE`. -/
def lockClaimCandidate (maxAttempts now : ℕ) (cycleId : Uuid) : Option Joined :=
  (orderBy Joined.claimKey ((db.claimable maxAttempts now).filter
    fun j ↦ j.event.cycleId = cycleId)).head?

/-- The candidate of the first cycle whose advisory lock is free. -/
def claimCandidate (maxAttempts now : ℕ) (busy : List Uuid) : Option Joined :=
  ((db.selectClaimCycle maxAttempts now).find? (· ∉ busy)).bind
    (db.lockClaimCandidate maxAttempts now)

/-! ## Statements -/

/-- Give an event a final status, or back to the queue, and release its claim. -/
def closeEvent (status : EventStatus) (errorStage errorCategory : Option String) :
    Assignment EventRow where
  set e := { e with
    status := status
    claimToken := none
    claimedFenceVersion := none
    lockUntil := none
    lockedBy := none
    errorStage := errorStage
    errorCategory := errorCategory }
  key_set _ := rfl

/-- Supersede an event, keeping its error columns. -/
def supersedeKeepingError : Assignment EventRow where
  set e := { e with
    status := .superseded
    claimToken := none
    claimedFenceVersion := none
    lockUntil := none
    lockedBy := none }
  key_set _ := rfl

def setCycleStatus (status : CycleStatus) : Assignment CycleRow where
  set c := { c with status := status }
  key_set _ := rfl

/-- Cancel a decision, releasing its claim. -/
def cancelDecision (responseReason errorStage errorCategory : String) :
    Assignment DecisionRow where
  set d := { d with
    status := .cancelled
    responseStatus := some "cancelled"
    responseReason := some responseReason
    claimToken := none
    claimedFenceVersion := none
    lockUntil := none
    lockedBy := none
    errorStage := some errorStage
    errorCategory := some errorCategory }
  key_set _ := rfl

/-- `_SUPERSEDE_EVENT`. -/
def supersedeEvent (rowId : Uuid) : Db :=
  db.updateEvents (fun e ↦ e.id = rowId) (closeEvent .superseded none none)

/-- `_ADVANCE_STALE_CYCLE`. -/
def advanceStaleCycle (cycleId : Uuid) (eventSequence : ℕ) (isSessionStopped : Bool) : Db :=
  db.updateCycles (fun c ↦ c.id = cycleId ∧ c.nextEventSequence = eventSequence)
    { set c := { c with
        nextEventSequence := c.nextEventSequence + 1
        status := if isSessionStopped then .stopped else .superseded }
      key_set _ := rfl }

/-- `_supersede_locked_event`. -/
def supersedeLocked (j : Joined) : Db :=
  (db.supersedeEvent j.event.id).advanceStaleCycle j.event.cycleId j.event.eventSequence
    (j.event.eventType = .sessionStopped)

/-- `_MARK_UNCLAIMED_EVENT_MANUAL`. -/
def markUnclaimedEventManual (rowId : Uuid) : Db :=
  db.updateEvents (fun e ↦ e.id = rowId)
    (closeEvent .manual (some "generation") (some "missing_session_started"))

/-- `_MARK_CYCLE_MANUAL`. -/
def markCycleManual (cycleId : Uuid) : Db :=
  db.updateCycles (fun c ↦ c.id = cycleId) (setCycleStatus .manual)

/-- `_ACTIVATE_GENERATION`. -/
def activateGeneration (runtimeSessionId : Uuid) (controlGeneration : ℕ) : Db :=
  db.updateSessions (fun s ↦ s.id = runtimeSessionId)
    { set s := { s with
        currentGeneration := some controlGeneration
        fenceVersion := s.fenceVersion + 1
        status := .active }
      key_set _ := rfl }

/-- `_SUPERSEDE_OLD_CYCLES`. -/
def supersedeOldCycles (runtimeSessionId cycleId : Uuid) (controlGeneration : ℕ) : Db :=
  db.updateCycles (fun c ↦ c.runtimeSessionId = runtimeSessionId ∧ c.id ≠ cycleId ∧
    c.controlGeneration < controlGeneration ∧ (c.status = .pending ∨ c.status = .active))
    (setCycleStatus .superseded)

/-- `_CANCEL_SUPERSEDED_DECISIONS`. -/
def cancelSupersededDecisions (runtimeSessionId cycleId : Uuid) (controlGeneration : ℕ) : Db :=
  db.updateDecisions (fun d ↦ d.status.isUnsent ∧ ∃ c ∈ db.cycles, d.cycleId = c.id ∧
    (c.runtimeSessionId = runtimeSessionId ∧ c.id ≠ cycleId ∧
      c.controlGeneration < controlGeneration ∧ c.status = .superseded))
    (cancelDecision "generation_changed" "fence" "generation_changed")

/-- `_ACTIVATE_CYCLE`. -/
def activateCycle (cycleId : Uuid) : Db :=
  db.updateCycles (fun c ↦ c.id = cycleId) (setCycleStatus .active)

/-- `_MARK_RUNTIME_ACTIVE`. -/
def markRuntimeActive (runtimeSessionId : Uuid) (controlGeneration : ℕ) : Db :=
  db.updateSessions (fun s ↦ s.id = runtimeSessionId ∧
    s.currentGeneration = some controlGeneration)
    { set s := { s with status := .active }
      key_set _ := rfl }

/-- `_CLAIM_EVENT`. -/
def claimEvent (config : WorkerConfig) (now : ℕ) (workerId : String) (rowId claimToken : Uuid)
    (claimedFenceVersion : ℕ) : Db :=
  db.updateEvents (fun e ↦ e.id = rowId ∧ e.Due config.maxAttempts now)
    { set e := { e with
        status := .processing
        attemptCount := e.attemptCount + 1
        claimToken := some claimToken
        claimedFenceVersion := some claimedFenceVersion
        lockUntil := some (now + config.claimTtlMs)
        lockedBy := some workerId
        errorStage := none
        errorCategory := none }
      key_set _ := rfl }

end Db

/-! ## The pass -/

/-- `_build_claimed_event`. -/
def buildClaimedEvent (config : WorkerConfig) (now : ℕ) (workerId : String) (j : Joined)
    (claimToken : Uuid) (claimedFenceVersion : ℕ) (historicalRecovery : Bool) : ClaimedEvent where
  rowId := j.event.id
  tenantId := j.event.tenantId
  cycleId := j.event.cycleId
  gatewayId := j.event.gatewayId
  sessionId := j.event.sessionId
  eventId := j.event.eventId
  eventType := j.event.eventType
  controlGeneration := j.event.controlGeneration
  eventSequence := j.event.eventSequence
  event := j.event.eventBody
  contentHash := j.event.contentHash
  traceId := j.event.traceId
  claimToken := claimToken
  claimedFenceVersion := claimedFenceVersion
  attemptCount := j.event.attemptCount + 1
  lockedBy := workerId
  lockUntil := now + config.claimTtlMs
  historicalRecovery := historicalRecovery

/-- Claim the locked candidate, whose row still meets the condition of the claim query. -/
def handOut (config : WorkerConfig) (now : ℕ) (workerId : String) (j : Joined)
    (fenceVersion : ℕ) (historicalRecovery : Bool) (db : Db) : PassOutcome × Db :=
  (.claimed (buildClaimedEvent config now workerId j db.nextUuid fenceVersion historicalRecovery),
    db.bumpUuid.claimEvent config now workerId j.event.id db.nextUuid fenceVersion)

/-- Make the generation of the candidate the current one. -/
def activateNew (j : Joined) (db : Db) : Db :=
  (((db.activateGeneration j.session.id j.event.controlGeneration).supersedeOldCycles
      j.session.id j.event.cycleId j.event.controlGeneration).cancelSupersededDecisions
      j.session.id j.event.cycleId j.event.controlGeneration).activateCycle j.event.cycleId

/-- Activate the cycle of a candidate that counts as current. -/
def activatePending (j : Joined) (db : Db) : Db :=
  if j.cycle.status = .pending then
    (db.activateCycle j.event.cycleId).markRuntimeActive j.session.id j.event.controlGeneration
  else db

/-- What a pass does with its locked candidate. -/
def claimLocked (config : WorkerConfig) (now : ℕ) (workerId : String) (j : Joined) (db : Db) :
    PassOutcome × Db :=
  match j.disposition with
  | .stale => (.again, db.supersedeLocked j)
  | .wait => (.again, (db.markUnclaimedEventManual j.event.id).markCycleManual j.event.cycleId)
  | .activateNew =>
    handOut config now workerId j (j.session.fenceVersion + 1) false (activateNew j db)
  | .current => handOut config now workerId j j.session.fenceVersion false (activatePending j db)
  | .historicalRecovery => handOut config now workerId j j.session.fenceVersion true db

/-- One transaction of `claim_next_event`. -/
def claimPass (config : WorkerConfig) (now : ℕ) (workerId : String) (busy : List Uuid) (db : Db) :
    PassOutcome × Db :=
  match db.claimCandidate config.maxAttempts now busy with
  | none => (.idle, db)
  | some j => claimLocked config now workerId j db

end LlmGateway
