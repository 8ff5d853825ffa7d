import LlmGateway.Contract.Json
import Mathlib.Data.List.Count

/-!
# Batches of events

`handle_gateway_event` (`webhooks.py`) checks, hashes and enqueues the events of a batch one after
the other. The script of `enqueue_gateway_event` (`gateway_event_queue.py`) sets the key of an event
and appends it to the stream in one step.
-/

namespace LlmGateway.EventQueue

/-- `GatewayEvent`; the fields that are not checked here are the rest. -/
structure Event where
  eventId : String
  sessionId : String
  decisionLeaseId : String
  payloadSessionId : Option String
  payloadAccountId : Option String
  payloadRoleId : Option String
  rest : List (Text × Json)
deriving DecidableEq

/-- `GatewayEventBatchEnvelope`. -/
structure Batch where
  traceId : String
  gatewayId : String
  sentAtMs : Option ℤ
  events : List Event
deriving DecidableEq

/-- `_gateway_event_record`; the contract version is always the same. -/
structure EventRecord where
  traceId : String
  gatewayId : String
  event : Event
deriving DecidableEq

/-- `_gateway_event_record`. -/
def Batch.record (batch : Batch) (event : Event) : EventRecord :=
  ⟨batch.traceId, batch.gatewayId, event⟩

/-- `_valid_id`. -/
def validId (value : String) : Bool :=
  1 ≤ value.length && value.length ≤ 128 &&
    value.toList.all fun c ↦ c.isAlphanum || c = '.' || c = '_' || c = ':' || c = '-'

/-- `_gateway_event_ids_are_valid`. -/
def Event.idsAreValid (event : Event) : Bool :=
  [some event.eventId, some event.sessionId, some event.decisionLeaseId, event.payloadSessionId,
    event.payloadAccountId, event.payloadRoleId].all fun value ↦ value.all validId

/-- The idempotency keys with the hashes that they are set to, newest first, and the stream, newest
first. -/
structure Store (η : Type) where
  keys : List (String × η)
  stream : List EventRecord

/-- The status of `enqueue_gateway_event`. -/
inductive EnqueueStatus where
  | accepted | duplicate | conflict
deriving DecidableEq, Repr

variable {η : Type} [DecidableEq η]

/-- `_ENQUEUE_SCRIPT`. -/
def Store.enqueue (s : Store η) (bodySha256 : η) (record : EventRecord) :
    EnqueueStatus × Store η :=
  match s.keys.lookup record.event.eventId with
  | some existing => (if existing = bodySha256 then .duplicate else .conflict, s)
  | none =>
    (.accepted, ⟨(record.event.eventId, bodySha256) :: s.keys, record :: s.stream⟩)

/-- The response of `handle_gateway_event`. -/
inductive BatchResponse where
  | error (code : String) (status : ℕ)
  | received (traceId : String) (receivedEventIds duplicateEventIds : List String)
deriving DecidableEq, Repr

/-- One event of the loop of `handle_gateway_event`: the status, or the error that ends the loop.
The hash is missing if the record has no UTF-8 form, and the script may fail. -/
def handleEvent (sha256 : EventRecord → Option η) (batch : Batch) (s : Store η) (event : Event)
    (fails : Bool) : Except BatchResponse EnqueueStatus × Store η :=
  if event.idsAreValid = false then (.error (.error "bad_request" 400), s)
  else
    match sha256 (batch.record event) with
    | none => (.error (.error "internal_error" 500), s)
    | some hash =>
      if fails then (.error (.error "internal_error" 500), s)
      else
        match s.enqueue hash (batch.record event) with
        | (.conflict, s) => (.error (.error "bad_request" 400), s)
        | (status, s) => (.ok status, s)

/-- The loop, with the events that it has received and those that it has found to be duplicates. -/
def handleEvents (sha256 : EventRecord → Option η) (batch : Batch) (s : Store η)
    (received duplicate : List String) : List (Event × Bool) → BatchResponse × Store η
  | [] => (.received batch.traceId received duplicate, s)
  | (event, fails) :: events =>
    match handleEvent sha256 batch s event fails with
    | (.error response, s) => (response, s)
    | (.ok .accepted, s) =>
      handleEvents sha256 batch s (received ++ [event.eventId]) duplicate events
    | (.ok _, s) => handleEvents sha256 batch s received (duplicate ++ [event.eventId]) events

/-- A batch, with whether the script fails for each of its events. -/
structure Delivery where
  batch : Batch
  attempts : List (Event × Bool)
  events_eq : attempts.map (·.1) = batch.events

/-- `handle_gateway_event`, once the batch is parsed. -/
def handleGatewayEvent (sha256 : EventRecord → Option η) (s : Store η) (delivery : Delivery) :
    BatchResponse × Store η :=
  handleEvents sha256 delivery.batch s [] [] delivery.attempts

end LlmGateway.EventQueue
