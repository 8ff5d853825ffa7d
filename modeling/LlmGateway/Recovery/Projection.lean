import LlmGateway.Activity.Repository
import LlmGateway.Effect.CallTerminals

/-!
# The recovery projection

`RecoveryProjection.from_rows` (`recovery.py`): the rows of events, decisions and calls are checked
against each other and collected under the gateway and the identifier, joined by a colon. A row of
a call comes with the identifier of its terminal event.
-/

namespace LlmGateway

open Relational

/-- The detail of a `RecoveryConsistencyError`. -/
structure RecoveryConsistencyError where
  detail : String
deriving DecidableEq, Repr

structure RecoveredEvent where
  gatewayId : String
  eventId : String
  contentHash : ContentHash
  eventType : EventType
  sessionId : String
  controlGeneration : ℕ
  status : EventStatus
deriving DecidableEq

structure RecoveredDecision where
  gatewayId : String
  decisionId : String
  sessionId : String
  controlGeneration : ℕ
  status : DecisionStatus
deriving DecidableEq

structure RecoveredTerminal where
  gatewayId : String
  skillCallId : String
  decisionId : String
  sessionId : String
  terminalEventId : Option String
  status : CallStatus
deriving DecidableEq

/-- The maps, as lists of entries in the order of insertion. -/
structure RecoveryProjection where
  fingerprints : List ((String × String) × ContentHash)
  eventsById : List (String × RecoveredEvent)
  decisionsById : List (String × RecoveredDecision)
  terminalBySkillCall : List (String × RecoveredTerminal)
  decisionIds : List String

/-- A row of a call, with the identifier of its terminal event. -/
structure SkillCallRow where
  call : CallRow
  terminalEventId : Option String

namespace RecoveryProjection

/-- `_required_string`. -/
def requiredString (field value : String) : Except RecoveryConsistencyError Unit :=
  if isBlankString value then .error ⟨"invalid " ++ field⟩ else .ok ()

/-- `_required_generation`. -/
def requiredGeneration (value : ℕ) : Except RecoveryConsistencyError Unit :=
  if value = 0 then .error ⟨"invalid control_generation"⟩ else .ok ()

/-- `f"{gateway_id}:{identifier}"`. -/
def projectionKey (gatewayId identifier : String) : String := gatewayId ++ ":" ++ identifier

section Keep

variable {κ α : Type} [DecidableEq κ] [DecidableEq α]

/-- An entry is added unless the key has another value. -/
def keep (entries : List (κ × α)) (key : κ) (value : α) (conflict : String) :
    Except RecoveryConsistencyError (List (κ × α)) :=
  match entries.lookup key with
  | none => .ok (entries ++ [(key, value)])
  | some existing => if existing = value then .ok entries else .error ⟨conflict⟩

end Keep

/-- The loop over the events. -/
def keepEvent (state : List ((String × String) × ContentHash) × List (String × RecoveredEvent))
    (row : EventRow) : Except RecoveryConsistencyError
      (List ((String × String) × ContentHash) × List (String × RecoveredEvent)) := do
  requiredString "gateway_id" row.gatewayId
  requiredString "event_id" row.eventId
  requiredString "session_id" row.sessionId
  requiredGeneration row.controlGeneration
  let fingerprints ← keep state.1 (row.gatewayId, row.eventId) row.contentHash
    ("conflicting event fingerprint " ++ row.eventId)
  let events ← keep state.2 (projectionKey row.gatewayId row.eventId)
    ⟨row.gatewayId, row.eventId, row.contentHash, row.eventType, row.sessionId,
      row.controlGeneration, row.status⟩ ("conflicting event " ++ row.eventId)
  .ok (fingerprints, events)

/-- The loop over the decisions. -/
def keepDecision (decisions : List (String × RecoveredDecision)) (row : DecisionRow) :
    Except RecoveryConsistencyError (List (String × RecoveredDecision)) := do
  requiredString "gateway_id" row.gatewayId
  requiredString "decision_id" row.decisionId
  requiredString "session_id" row.sessionId
  requiredGeneration row.controlGeneration
  keep decisions (projectionKey row.gatewayId row.decisionId)
    ⟨row.gatewayId, row.decisionId, row.sessionId, row.controlGeneration, row.status⟩
    ("conflicting decision " ++ row.decisionId)

/-- An open call has no terminal event, and a closed one has a `skill_finished` event of its
session. -/
def checkTerminal (events : List (String × RecoveredEvent)) (terminal : RecoveredTerminal) :
    Except RecoveryConsistencyError Unit :=
  if terminal.status.isRunning then
    match terminal.terminalEventId with
    | none => .ok ()
    | some eventId => .error ⟨"non-terminal skill call has terminal event " ++ eventId⟩
  else
    match terminal.terminalEventId with
    | none => .error ⟨"missing terminal event for " ++ terminal.skillCallId⟩
    | some eventId =>
      match events.lookup (projectionKey terminal.gatewayId eventId) with
      | none => .error ⟨"missing terminal event " ++ eventId⟩
      | some event =>
        if event.eventType = .skillFinished ∧ event.sessionId = terminal.sessionId then .ok ()
        else .error ⟨"invalid terminal event " ++ eventId⟩

/-- The decision of the call is there, and of the same session. -/
def checkDecision (decisions : List (String × RecoveredDecision)) (terminal : RecoveredTerminal) :
    Except RecoveryConsistencyError Unit :=
  match decisions.lookup (projectionKey terminal.gatewayId terminal.decisionId) with
  | none => .error ⟨"missing decision " ++ terminal.decisionId⟩
  | some decision =>
    if decision.sessionId = terminal.sessionId then .ok ()
    else .error ⟨"terminal decision mismatch " ++ terminal.decisionId⟩

def recoveredTerminal (row : SkillCallRow) : RecoveredTerminal :=
  ⟨row.call.gatewayId, row.call.skillCallId, row.call.decisionId, row.call.sessionId,
    row.terminalEventId, row.call.status⟩

/-- The loop over the calls. -/
def keepTerminal (events : List (String × RecoveredEvent))
    (decisions : List (String × RecoveredDecision)) (terminals : List (String × RecoveredTerminal))
    (row : SkillCallRow) :
    Except RecoveryConsistencyError (List (String × RecoveredTerminal)) := do
  if ∃ eventId ∈ row.terminalEventId, isBlankString eventId then
    .error ⟨"invalid terminal_event_id"⟩
  requiredString "gateway_id" row.call.gatewayId
  requiredString "skill_call_id" row.call.skillCallId
  requiredString "decision_id" row.call.decisionId
  requiredString "session_id" row.call.sessionId
  checkTerminal events (recoveredTerminal row)
  checkDecision decisions (recoveredTerminal row)
  keep terminals (projectionKey row.call.gatewayId row.call.skillCallId) (recoveredTerminal row)
    ("conflicting skill call " ++ row.call.skillCallId)

/-- `from_rows`. -/
def fromRows (eventRows : List EventRow) (decisionRows : List DecisionRow)
    (skillCallRows : List SkillCallRow) : Except RecoveryConsistencyError RecoveryProjection := do
  let (fingerprints, events) ← eventRows.foldlM keepEvent ([], [])
  let decisions ← decisionRows.foldlM keepDecision []
  let terminals ← skillCallRows.foldlM (keepTerminal events decisions) []
  .ok ⟨fingerprints, events, decisions, terminals,
    (decisions.map (·.2.decisionId)).mergeSort fun a b ↦ a ≤ b⟩

end RecoveryProjection

/-- The rows of the calls, with the identifiers of their terminal events. -/
def Db.skillCallRows (db : Db) : List SkillCallRow :=
  db.calls.rows.map fun k ↦ ⟨k, (k.terminalEventId.bind db.eventById).map (·.eventId)⟩

/-- The projection of the stored rows. -/
def Db.recover (db : Db) : Except RecoveryConsistencyError RecoveryProjection :=
  RecoveryProjection.fromRows db.events.rows db.decisions.rows db.skillCallRows

end LlmGateway
