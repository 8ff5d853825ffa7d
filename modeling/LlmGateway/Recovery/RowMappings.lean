import LlmGateway.Contract.Paths
import LlmGateway.Decision.Arguments
import LlmGateway.Relational.Collect
import Mathlib.Data.List.Lex

/-!
# The recovery projection of row mappings

`RecoveryProjection.from_rows` (`recovery.py`) as it is called: a row is a mapping of field names to
any values, of which each loop checks and keeps what it needs. An error is given by its message.
-/

namespace LlmGateway.RowMappings

open Relational

/-- `row.get(field)`. -/
abbrev RowMapping := String → Json

structure RecoveredEvent where
  gatewayId : Text
  eventId : Text
  contentHash : Text
  eventType : Text
  sessionId : Text
  controlGeneration : ℤ
  status : Text
deriving DecidableEq

structure RecoveredDecision where
  gatewayId : Text
  decisionId : Text
  sessionId : Text
  controlGeneration : ℤ
  status : Text
deriving DecidableEq

structure RecoveredTerminal where
  gatewayId : Text
  skillCallId : Text
  decisionId : Text
  sessionId : Text
  terminalEventId : Option Text
  status : Text
deriving DecidableEq

def RecoveredEvent.name (event : RecoveredEvent) : Text × Text := (event.gatewayId, event.eventId)

def RecoveredDecision.name (decision : RecoveredDecision) : Text × Text :=
  (decision.gatewayId, decision.decisionId)

/-- `terminal.status in {"pending", "started"}`. -/
def RecoveredTerminal.isOpen (terminal : RecoveredTerminal) : Bool :=
  terminal.status = "pending" || terminal.status = "started"

def RecoveredTerminal.name (terminal : RecoveredTerminal) : Text × Text :=
  (terminal.gatewayId, terminal.skillCallId)

/-- The maps, as lists of entries in the order of insertion. -/
structure RecoveryProjection where
  fingerprints : List ((Text × Text) × Text)
  eventsById : List (Text × RecoveredEvent)
  decisionsById : List (Text × RecoveredDecision)
  terminalBySkillCall : List (Text × RecoveredTerminal)
  decisionIds : List Text

/-! ## Reading a row -/

/-- `_required_string`. -/
def requiredString (row : RowMapping) (field : String) : Except Text Text :=
  match row field with
  | .str value => if value.isBlank then .error ("invalid " ++ Text.ofString field) else .ok value
  | _ => .error ("invalid " ++ Text.ofString field)

/-- `_required_generation`. -/
def requiredGeneration (row : RowMapping) : Except Text ℤ :=
  match row "control_generation" with
  | .int value => if value ≤ 0 then .error "invalid control_generation" else .ok value
  | _ => .error "invalid control_generation"

/-- The terminal event of a call, if it has one. -/
def terminalEventId (row : RowMapping) : Except Text (Option Text) :=
  match row "terminal_event_id" with
  | .null => .ok none
  | .str value => if value.isBlank then .error "invalid terminal_event_id" else .ok (some value)
  | _ => .error "invalid terminal_event_id"

def recoveredEvent (row : RowMapping) : Except Text RecoveredEvent := do
  let gatewayId ← requiredString row "gateway_id"
  let eventId ← requiredString row "event_id"
  let contentHash ← requiredString row "content_hash"
  let eventType ← requiredString row "event_type"
  let sessionId ← requiredString row "session_id"
  let controlGeneration ← requiredGeneration row
  let status ← requiredString row "status"
  .ok { gatewayId, eventId, contentHash, eventType, sessionId, controlGeneration, status }

def recoveredDecision (row : RowMapping) : Except Text RecoveredDecision := do
  let gatewayId ← requiredString row "gateway_id"
  let decisionId ← requiredString row "decision_id"
  let sessionId ← requiredString row "session_id"
  let controlGeneration ← requiredGeneration row
  let status ← requiredString row "status"
  .ok { gatewayId, decisionId, sessionId, controlGeneration, status }

def recoveredTerminal (row : RowMapping) : Except Text RecoveredTerminal := do
  let terminalEventId ← terminalEventId row
  let gatewayId ← requiredString row "gateway_id"
  let skillCallId ← requiredString row "skill_call_id"
  let decisionId ← requiredString row "decision_id"
  let sessionId ← requiredString row "session_id"
  let status ← requiredString row "status"
  .ok { gatewayId, skillCallId, decisionId, sessionId, terminalEventId, status }

/-! ## Checking and keeping it -/

/-- `f"{gateway_id}:{identifier}"`, of a gateway and an identifier. -/
def projectionKey (name : Text × Text) : Text := name.1 ++ ":" ++ name.2

/-- The loop over the events. -/
def keepEvent (state : List ((Text × Text) × Text) × List (Text × RecoveredEvent))
    (row : RowMapping) :
    Except Text (List ((Text × Text) × Text) × List (Text × RecoveredEvent)) := do
  let event ← recoveredEvent row
  let fingerprints ← enter ("conflicting event fingerprint " ++ event.eventId) state.1
    event.name event.contentHash
  let events ← enter ("conflicting event " ++ event.eventId) state.2 (projectionKey event.name)
    event
  .ok (fingerprints, events)

/-- The loop over the decisions. -/
def keepDecision : List (Text × RecoveredDecision) → RowMapping →
    Except Text (List (Text × RecoveredDecision)) :=
  collect (keyed (fun decision ↦ projectionKey decision.name) recoveredDecision) fun entry ↦
    "conflicting decision " ++ entry.2.decisionId

/-- A call that has not ended has no terminal event, and one that has ended has a `skill_finished`
event of its session. -/
def checkTerminal (events : List (Text × RecoveredEvent)) (terminal : RecoveredTerminal) :
    Except Text Unit :=
  if terminal.isOpen then
    match terminal.terminalEventId with
    | none => .ok ()
    | some eventId => .error ("non-terminal skill call has terminal event " ++ eventId)
  else
    match terminal.terminalEventId with
    | none => .error ("missing terminal event for " ++ terminal.skillCallId)
    | some eventId =>
      match events.lookup (projectionKey (terminal.gatewayId, eventId)) with
      | none => .error ("missing terminal event " ++ eventId)
      | some event =>
        if event.eventType = "skill_finished" ∧ event.sessionId = terminal.sessionId then .ok ()
        else .error ("invalid terminal event " ++ eventId)

/-- The decision of a call is there, and of its session. -/
def checkDecision (decisions : List (Text × RecoveredDecision)) (terminal : RecoveredTerminal) :
    Except Text Unit :=
  match decisions.lookup (projectionKey (terminal.gatewayId, terminal.decisionId)) with
  | none => .error ("missing decision " ++ terminal.decisionId)
  | some decision =>
    if decision.sessionId = terminal.sessionId then .ok ()
    else .error ("terminal decision mismatch " ++ terminal.decisionId)

/-- The row of a call, read and checked. -/
def checkedTerminal (events : List (Text × RecoveredEvent))
    (decisions : List (Text × RecoveredDecision)) (row : RowMapping) :
    Except Text RecoveredTerminal := do
  let terminal ← recoveredTerminal row
  checkTerminal events terminal
  checkDecision decisions terminal
  .ok terminal

/-- The loop over the calls. -/
def keepTerminal (events : List (Text × RecoveredEvent))
    (decisions : List (Text × RecoveredDecision)) : List (Text × RecoveredTerminal) → RowMapping →
    Except Text (List (Text × RecoveredTerminal)) :=
  collect (keyed (fun terminal ↦ projectionKey terminal.name) (checkedTerminal events decisions))
    fun entry ↦ "conflicting skill call " ++ entry.2.skillCallId

/-- `EventFingerprintRegistry(fingerprints)`. -/
def eventFingerprintRegistry (fingerprints : List ((Text × Text) × Text)) :
    Except Text (List ((Text × Text) × Text)) :=
  if fingerprints.any fun entry ↦ entry.1.1.isBlank || entry.1.2.isBlank || entry.2.isBlank then
    .error "invalid event fingerprint"
  else .ok fingerprints

/-- `from_rows`. -/
def fromRows (eventRows decisionRows skillCallRows : List RowMapping) :
    Except Text RecoveryProjection := do
  let (fingerprints, events) ← eventRows.foldlM keepEvent ([], [])
  let decisions ← decisionRows.foldlM keepDecision []
  let terminals ← skillCallRows.foldlM (keepTerminal events decisions) []
  let registry ← eventFingerprintRegistry fingerprints
  .ok ⟨registry, events, decisions, terminals,
    (decisions.map (·.2.decisionId)).mergeSort fun a b ↦ a.codePoints ≤ b.codePoints⟩

end LlmGateway.RowMappings
