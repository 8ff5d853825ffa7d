import LlmGateway.Contract.Event
import LlmGateway.Relational.Table

/-!
# Rows of the gateway tables

One structure a table. The parent structure `…Key` holds the columns that no statement of
the repositories assigns: primary key, foreign keys, identity and content. The uniqueness
constraints of the migrations speak about these columns only, with one exception that is
not enforced here: the unique `terminal_event_id` of a skill call.

Times are milliseconds. `created_at`, `updated_at`, `started_at`, `completed_at` and the
like are kept only where a statement reads them.
-/

namespace LlmGateway

open Relational

/-- A random identifier. The serial number makes it new, the random part decides where it
is sorted. -/
structure Uuid where
  random : ℕ
  serial : ℕ
deriving DecidableEq, Repr

namespace Uuid

def sortKey (id : Uuid) : List ℤ := [id.random, id.serial]

end Uuid

/-! ## Sessions -/

inductive SessionStatus where
  | pending
  | active
  | stopped
  | manual
deriving DecidableEq, Repr

structure SessionKey where
  id : Uuid
  tenantId : Uuid
  gatewayId : String
  sessionId : String
deriving DecidableEq

/-- `llm_gateway_sessions`. -/
structure SessionRow extends SessionKey where
  currentGeneration : Option ℕ
  fenceVersion : ℕ
  status : SessionStatus
  lastEventAt : ℕ
deriving DecidableEq

instance : Keyed SessionRow where
  Key := SessionKey
  key := SessionRow.toSessionKey
  Clash k l := k.id = l.id ∨ (k.gatewayId = l.gatewayId ∧ k.sessionId = l.sessionId)
  decidableClash _ _ := inferInstanceAs (Decidable (_ ∨ _))
  clash_self _ := Or.inl rfl
  clash_symm := Or.imp Eq.symm (And.imp Eq.symm Eq.symm)

theorem SessionRow.clashes_of_id {s s' : SessionRow} (h : s.id = s'.id) : Keyed.Clashes s s' := Or.inl h

/-! ## Control cycles -/

inductive CycleStatus where
  | pending
  | active
  | stopped
  | superseded
  | manual
deriving DecidableEq, Repr

structure CycleKey where
  id : Uuid
  tenantId : Uuid
  runtimeSessionId : Uuid
  gatewayId : String
  sessionId : String
  controlGeneration : ℕ
deriving DecidableEq

/-- `llm_gateway_control_cycles`. -/
structure CycleRow extends CycleKey where
  status : CycleStatus
  nextEventSequence : ℕ
  latestStateVersion : Option ℕ
  latestDecisionLeaseId : Option String
  latestDecisionContext : Option AgentContext
deriving DecidableEq

instance : Keyed CycleRow where
  Key := CycleKey
  key := CycleRow.toCycleKey
  Clash k l := k.id = l.id ∨ (k.gatewayId = l.gatewayId ∧ k.sessionId = l.sessionId ∧
    k.controlGeneration = l.controlGeneration)
  decidableClash _ _ := inferInstanceAs (Decidable (_ ∨ _))
  clash_self _ := Or.inl rfl
  clash_symm := Or.imp Eq.symm (And.imp Eq.symm (And.imp Eq.symm Eq.symm))

theorem CycleRow.clashes_of_id {c c' : CycleRow} (h : c.id = c'.id) : Keyed.Clashes c c' := Or.inl h

/-! ## Events -/

inductive EventStatus where
  | pending
  | processing
  | succeeded
  | retryableFailed
  | deadLetter
  | manual
  | superseded
deriving DecidableEq, Repr

namespace EventStatus

/-- `status IN ('pending', 'processing', 'retryable_failed')`. -/
def isOpen : EventStatus → Bool
  | pending | processing | retryableFailed => true
  | _ => false

end EventStatus

/-- The digest of the canonical event. SHA-256 is taken to be injective, so the digest is
represented by what is hashed. -/
structure ContentHash where
  gatewayId : String
  event : GatewayEvent
deriving DecidableEq

/-- `event_content_hash`. -/
def eventContentHash (gatewayId : String) (event : GatewayEvent) : ContentHash :=
  ⟨gatewayId, event⟩

structure EventKey where
  id : Uuid
  tenantId : Uuid
  cycleId : Uuid
  gatewayId : String
  sessionId : String
  eventId : String
  eventType : EventType
  controlGeneration : ℕ
  eventSequence : ℕ
  contentHash : ContentHash
  eventBody : GatewayEvent
  traceId : String
  receivedAt : ℕ
deriving DecidableEq

/-- `llm_gateway_events`. -/
structure EventRow extends EventKey where
  status : EventStatus
  attemptCount : ℕ
  nextAttemptAt : ℕ
  claimToken : Option Uuid
  claimedFenceVersion : Option ℕ
  lockUntil : Option ℕ
  lockedBy : Option String
  errorStage : Option String
  errorCategory : Option String
deriving DecidableEq

instance : Keyed EventRow where
  Key := EventKey
  key := EventRow.toEventKey
  Clash k l := k.id = l.id ∨ (k.gatewayId = l.gatewayId ∧ k.eventId = l.eventId) ∨
    (k.gatewayId = l.gatewayId ∧ k.sessionId = l.sessionId ∧
      k.controlGeneration = l.controlGeneration ∧ k.eventSequence = l.eventSequence)
  decidableClash _ _ := inferInstanceAs (Decidable (_ ∨ _))
  clash_self _ := Or.inl rfl
  clash_symm := Or.imp Eq.symm (Or.imp (And.imp Eq.symm Eq.symm)
    (And.imp Eq.symm (And.imp Eq.symm (And.imp Eq.symm Eq.symm))))

theorem EventRow.clashes_of_id {e e' : EventRow} (h : e.id = e'.id) : Keyed.Clashes e e' := Or.inl h

/-! ## Decisions -/

inductive DecisionStatus where
  | planned
  | sending
  | accepted
  | rejected
  | retryableFailed
  | deadLetter
  | cancelled
  | manual
deriving DecidableEq, Repr

namespace DecisionStatus

/-- `status IN ('planned', 'sending', 'retryable_failed')`. -/
def isUnsent : DecisionStatus → Bool
  | planned | sending | retryableFailed => true
  | _ => false

end DecisionStatus

/-- The frozen request body. Its canonical bytes and its digest are represented by it. -/
structure DecisionBody where
  traceId : String
  sessionId : String
  decisionId : String
  decisionLeaseId : String
  stateVersion : ℕ
  controlGeneration : ℕ
  ttlMs : ℕ
  action : DecisionAction
  skillName : Option String
  schemaVersion : Option String
  arguments : Option (List (Text × Json))
  waitMs : Option ℕ
deriving DecidableEq

structure DecisionKey where
  id : Uuid
  tenantId : Uuid
  cycleId : Uuid
  sourceEventId : Uuid
  actionTrackingId : Option Uuid
  gatewayId : String
  sessionId : String
  decisionId : String
  decisionLeaseId : String
  controlGeneration : ℕ
  stateVersion : ℕ
  leaseExpiresAtMs : Option ℕ
  action : DecisionAction
  requestBody : DecisionBody
  activityCapacityKey : Option String
  activityCapacityLimit : Option ℕ
  activityCapacityExpiresAt : Option ℕ
  createdAt : ℕ
deriving DecidableEq

/-- `llm_gateway_decisions`. -/
structure DecisionRow extends DecisionKey where
  status : DecisionStatus
  attemptCount : ℕ
  nextAttemptAt : ℕ
  claimToken : Option Uuid
  claimedFenceVersion : Option ℕ
  lockUntil : Option ℕ
  lockedBy : Option String
  responseHttpStatus : Option ℕ
  responseStatus : Option String
  responseReason : Option String
  responseBodyJson : Option (List (Text × Json))
  skillCallId : Option String
  errorStage : Option String
  errorCategory : Option String
deriving DecidableEq

instance : Keyed DecisionRow where
  Key := DecisionKey
  key := DecisionRow.toDecisionKey
  Clash k l := k.id = l.id ∨ (k.gatewayId = l.gatewayId ∧ k.decisionId = l.decisionId) ∨
    k.sourceEventId = l.sourceEventId ∨
    (k.gatewayId = l.gatewayId ∧ k.decisionLeaseId = l.decisionLeaseId)
  decidableClash _ _ := inferInstanceAs (Decidable (_ ∨ _))
  clash_self _ := Or.inl rfl
  clash_symm := Or.imp Eq.symm (Or.imp (And.imp Eq.symm Eq.symm)
    (Or.imp Eq.symm (And.imp Eq.symm Eq.symm)))

theorem DecisionRow.clashes_of_id {d d' : DecisionRow} (h : d.id = d'.id) : Keyed.Clashes d d' := Or.inl h

/-! ## Skill calls and tracked actions -/

inductive CallStatus where
  | pending
  | started
  | succeeded
  | failed
  | cancelled
  | timeout
  | manual
deriving DecidableEq, Repr

namespace CallStatus

/-- `status IN ('pending', 'started')`. -/
def isRunning : CallStatus → Bool
  | pending | started => true
  | _ => false

end CallStatus

inductive EffectStatus where
  | notApplicable
  | pending
  | applied
  | manual
deriving DecidableEq, Repr

structure CallKey where
  id : Uuid
  tenantId : Uuid
  decisionRowId : Uuid
  gatewayId : String
  sessionId : String
  decisionId : String
  skillCallId : String
  skillName : String
  createdAt : ℕ
deriving DecidableEq

/-- `llm_gateway_skill_calls`. -/
structure CallRow extends CallKey where
  status : CallStatus
  failureCategory : Option FailureCategory
  reason : Option String
  retryable : Option Bool
  terminalEventId : Option Uuid
  effectStatus : EffectStatus
deriving DecidableEq

instance : Keyed CallRow where
  Key := CallKey
  key := CallRow.toCallKey
  Clash k l := k.id = l.id ∨ (k.gatewayId = l.gatewayId ∧ k.skillCallId = l.skillCallId)
  decidableClash _ _ := inferInstanceAs (Decidable (_ ∨ _))
  clash_self _ := Or.inl rfl
  clash_symm := Or.imp Eq.symm (And.imp Eq.symm Eq.symm)

theorem CallRow.clashes_of_id {k k' : CallRow} (h : k.id = k'.id) : Keyed.Clashes k k' := Or.inl h

inductive TrackingStatus where
  | tracking
  | completed
  | abandoned
  | timeout
deriving DecidableEq, Repr

/-- `GatewayV2GoalTrackingMetadata`; the goal and the baseline are JSON numbers. -/
structure GoalTrackingMetadata where
  userId : String
  actionType : String
  goalMetric : String
  goalValue : Json
  baselineValue : Json
  expectedHours : ℕ
deriving DecidableEq

structure TrackingKey where
  id : Uuid
  tenantId : Uuid
  actionDesc : String
  metadata : GoalTrackingMetadata
deriving DecidableEq

/-- `action_tracking`, as far as the gateway writes it. -/
structure TrackingRow extends TrackingKey where
  status : TrackingStatus
deriving DecidableEq

instance : Keyed TrackingRow where
  Key := TrackingKey
  key := TrackingRow.toTrackingKey
  Clash k l := k.id = l.id
  decidableClash _ _ := inferInstanceAs (Decidable (_ = _))
  clash_self _ := rfl
  clash_symm := Eq.symm

theorem TrackingRow.clashes_of_id {a a' : TrackingRow} (h : a.id = a'.id) : Keyed.Clashes a a' := h

end LlmGateway
