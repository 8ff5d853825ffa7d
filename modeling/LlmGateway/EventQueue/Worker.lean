import LlmGateway.Contract.Json
import Mathlib.Data.List.Basic

/-!
# The worker of the event stream

`_worker_loop` and `_process_messages` (`gateway_event_queue.py`): messages whose processing fails
stay pending, and a recovery pass claims the first ones that have been idle and processes them
again.
-/

namespace LlmGateway.EventQueue

/-- A message of the stream that has been delivered and not acknowledged. -/
structure PendingMessage where
  id : ℕ
  payload : Option Text
  /-- When it was delivered last, in milliseconds. -/
  deliveredAt : ℕ
deriving DecidableEq

/-- What `json.loads` makes of a payload, if it is an object, and at which times the processing of
a message succeeds. -/
structure Processor where
  record : Text → Option (List (Text × Json))
  succeeds : ℕ → ℕ → Bool

/-- The worker between two turns of its loop, with the messages that it has handed to the processor
and whether that succeeded. -/
structure Worker where
  lastPendingClaim : ℕ
  pending : List PendingMessage
  handed : List (ℕ × Bool)

/-- How many messages a recovery pass claims. -/
def claimCount : ℕ := 10

/-- `xautoclaim`: where the next scan should start, and the messages that are claimed. -/
def xautoclaim (pending : List PendingMessage) (now minIdleTime startId count : ℕ) :
    ℕ × List PendingMessage :=
  let idle := pending.filter fun message ↦
    startId ≤ message.id ∧ message.deliveredAt + minIdleTime ≤ now
  (((idle.drop count).head?.map (·.id)).getD 0, idle.take count)

namespace Worker

variable (processor : Processor) (now : ℕ)

/-- `xack`. -/
def xack (s : Worker) (id : ℕ) : Worker :=
  { s with pending := s.pending.filter (·.id ≠ id) }

/-- One message of `_process_messages`. -/
def processMessage (s : Worker) (message : PendingMessage) : Worker :=
  match message.payload.filter (·.codePoints ≠ []) with
  | none => s.xack message.id
  | some rawPayload =>
    match processor.record rawPayload with
    | none => s
    | some _ =>
      let succeeded := processor.succeeds now message.id
      let s := { s with handed := s.handed ++ [(message.id, succeeded)] }
      if succeeded then s.xack message.id else s

/-- `_process_messages`. -/
def processMessages (s : Worker) (messages : List PendingMessage) : Worker :=
  messages.foldl (processMessage processor now) s

/-- The claimed messages are delivered again. -/
def redeliver (s : Worker) (claimed : List PendingMessage) : Worker :=
  { s with
    pending := s.pending.map fun message ↦
      if message ∈ claimed then { message with deliveredAt := now } else message }

end Worker

/-- The recovery in a turn of `_worker_loop`; no messages are new. -/
def Worker.recover (processor : Processor) (retryIdle : ℕ) (s : Worker) (now : ℕ) : Worker :=
  if s.lastPendingClaim + retryIdle ≤ now then
    let claimed := (xautoclaim s.pending now retryIdle 0 claimCount).2
    processMessages processor now
      (({ s with lastPendingClaim := now }).redeliver now claimed) claimed
  else s


end LlmGateway.EventQueue
