import LlmGateway.Relational.Transition
import Mathlib.Logic.Function.Basic
import Mathlib.Data.List.Count
import Mathlib.Data.List.Nodup
import Mathlib.Data.Int.Notation

/-!
# Hosted chat

The handlers of hosted-chat events (`hosted_chat.py`): tasks of one event loop, which change the
state of the service in turns. A task keeps its turn up to the next `await` that suspends it. The
blocks under the state lock suspend nothing, so that lock is always free and such a block is part
of the step around it. A task can be suspended in the audit of the incoming text, at the semaphore
and at the lock of its target, while its reply is made, in the audit of the reply and while the
reply is sent; there an exception or a cancellation can reach it.

The expiry of the entries by time is left out: everything happens within their time to live.
-/

namespace LlmGateway

/-- `(gateway_id, event_id)`. -/
structure ChatEventKey where
  gatewayId : String
  eventId : String
deriving DecidableEq, Repr

/-- The key of a lock: the gateway, the session and the target of a reply. -/
structure ChatTarget where
  gatewayId : String
  sessionId : String
  targetRoleId : String
deriving DecidableEq, Repr

/-- What an event asks for. A text that is not supported, or is missing, asks for nothing. -/
inductive ChatRequest where
  | chatReceived (target : ChatTarget) (supported : Bool)
  | nearbyFriendRequest (target : ChatTarget)
  | sendResult

/-- The event is to be answered. -/
def ChatRequest.expectsReply : ChatRequest → Bool
  | chatReceived _ supported => supported
  | nearbyFriendRequest _ => true
  | sendResult => false

/-- The limits of the service, and the content of the events. -/
structure HostedChatConfig where
  maxQueueSize : ℕ
  maxStateEntries : ℕ
  content : ChatEventKey → ChatRequest

/-! ## The gate -/

/-- Where the task of a handler is suspended. -/
inductive ChatPhase where
  /-- In the audit of the incoming text. -/
  | auditing
  /-- At the semaphore. -/
  | queued
  /-- At the lock of the target. -/
  | locking (lock : ℕ)
  /-- In `_build_request`. -/
  | building (lock : ℕ)
  /-- In the audit of the reply. -/
  | reporting (lock requestId : ℕ)
  /-- In `_send`. -/
  | sending (lock requestId : ℕ)
deriving DecidableEq, Repr

namespace ChatPhase

/-- The handler is in the queue: in the `try` of `_generate_and_send`. -/
def isQueued : ChatPhase → Bool
  | auditing => false
  | _ => true

/-- The lock that the handler waits for or holds. -/
def lock? : ChatPhase → Option ℕ
  | auditing | queued => none
  | locking lock | building lock | reporting lock _ | sending lock _ => some lock

/-- The lock that the handler holds: it generates and sends. -/
def held? : ChatPhase → Option ℕ
  | auditing | queued | locking _ => none
  | building lock | reporting lock _ | sending lock _ => some lock

end ChatPhase

structure ChatHandler where
  id : ℕ
  event : ChatEventKey
  target : ChatTarget
  phase : ChatPhase
deriving DecidableEq, Repr

/-- The queue, the semaphore and the locks of the targets, with the handlers that use them. A lock
is an object of its own: the entry of a target can be dropped and made anew. -/
structure ChatGate where
  /-- `_queued_count`. -/
  queuedCount : ℤ
  /-- `_key_refcounts`. -/
  keyRefcounts : ChatTarget → Option ℤ
  /-- `_locks`. -/
  locks : ChatTarget → Option ℕ
  /-- The locks that are locked. -/
  lockHeld : ℕ → Bool
  /-- How many locks have been made. -/
  lockCount : ℕ
  /-- The free places of `_semaphore`. -/
  permits : ℕ
  handlers : List ChatHandler
  /-- How many handlers there have been. -/
  handlerCount : ℕ

namespace ChatGate

variable (gate : ChatGate)

def handler? (id : ℕ) : Option ChatHandler := gate.handlers.find? fun h ↦ h.id = id

/-- A task begins. -/
def spawn (event : ChatEventKey) (target : ChatTarget) : ChatGate :=
  { gate with
    handlers := gate.handlers ++ [⟨gate.handlerCount, event, target, .auditing⟩]
    handlerCount := gate.handlerCount + 1 }

/-- The task is suspended somewhere else. -/
def move (h : ChatHandler) (phase : ChatPhase) : ChatGate :=
  { gate with handlers := gate.handlers.erase h ++ [{ h with phase }] }

/-- The task ends. -/
def remove (h : ChatHandler) : ChatGate := { gate with handlers := gate.handlers.erase h }

/-- The queue takes the handler in. -/
def enter (h : ChatHandler) : ChatGate :=
  { gate.move h .queued with
    queuedCount := gate.queuedCount + 1
    keyRefcounts := Function.update gate.keyRefcounts h.target
      (some ((gate.keyRefcounts h.target).getD 0 + 1)) }

/-- The semaphore lets the handler pass, which looks up the lock of its target. -/
def acquireSemaphore (h : ChatHandler) : ChatGate :=
  match gate.locks h.target with
  | some lock => { gate.move h (.locking lock) with permits := gate.permits - 1 }
  | none =>
    { gate.move h (.locking gate.lockCount) with
      permits := gate.permits - 1
      locks := Function.update gate.locks h.target (some gate.lockCount)
      lockCount := gate.lockCount + 1 }

/-- The handler gets the lock. -/
def acquireLock (h : ChatHandler) (lock : ℕ) (phase : ChatPhase) : ChatGate :=
  { gate.move h phase with lockHeld := Function.update gate.lockHeld lock true }

/-- The exits of the lock and of the semaphore. -/
def release (phase : ChatPhase) : ChatGate :=
  match phase with
  | .auditing | .queued => gate
  | .locking _ => { gate with permits := gate.permits + 1 }
  | .building lock | .reporting lock _ | .sending lock _ =>
    { gate with
      permits := gate.permits + 1
      lockHeld := Function.update gate.lockHeld lock false }

/-- The `finally` of `_generate_and_send`. -/
def leave (target : ChatTarget) : ChatGate :=
  let gate := { gate with queuedCount := gate.queuedCount - 1 }
  match gate.keyRefcounts target with
  | none => gate
  | some count =>
    if count - 1 = 0 then
      { gate with
        keyRefcounts := Function.update gate.keyRefcounts target none
        locks := Function.update gate.locks target none }
    else
      { gate with
        keyRefcounts := Function.update gate.keyRefcounts target (some (count - 1)) }

/-- The task ends, in whatever way, and leaves what it has entered. -/
def exit (h : ChatHandler) : ChatGate :=
  if h.phase.isQueued then ((gate.remove h).release h.phase).leave h.target else gate.remove h

end ChatGate

/-! ## The service -/

/-- The state of the service, with a record of what its handlers have done. -/
structure HostedChatService where
  gate : ChatGate
  /-- `_processed_events`. -/
  processedEvents : List ChatEventKey
  /-- `_pending_sends`, with the ids of the requests. -/
  pendingSends : List (ChatEventKey × ℕ)
  /-- How many request ids have been made. -/
  requestCount : ℕ
  /-- The sends that have been made. -/
  sends : List (ChatEventKey × ℕ)
  /-- The events of the sends that the gateway has accepted. -/
  accepted : List ChatEventKey
  /-- The events whose replies have failed permanently. -/
  rejected : List ChatEventKey

/-- How the task of a handler fails: `HostedChatPermanentError`, another exception, or a
cancellation. -/
inductive ChatFailure where
  | permanent
  | retryable
  | cancelled
deriving DecidableEq, Repr

/-- The failures that can reach a suspended task. The audits swallow exceptions, and waiting for
the semaphore or a lock raises none. -/
def ChatPhase.raises : ChatPhase → ChatFailure → Bool
  | _, .cancelled => true
  | building _, _ | sending .., _ => true
  | _, _ => false

namespace HostedChatService

variable (config : HostedChatConfig) (s : HostedChatService)

def initial : HostedChatService where
  gate := ⟨0, fun _ ↦ none, fun _ ↦ none, fun _ ↦ false, 0, config.maxQueueSize, [], 0⟩
  processedEvents := []
  pendingSends := []
  requestCount := 0
  sends := []
  accepted := []
  rejected := []

/-- What `_trim_state` takes out: the oldest entries. -/
def trimmed {α : Type} (state : List α) : List α :=
  state.take (state.length - config.maxStateEntries)

/-- What `_trim_state` leaves. -/
def trimState {α : Type} (state : List α) : List α :=
  state.drop (state.length - config.maxStateEntries)

/-- `_release_event`. -/
def releaseEvent (event : ChatEventKey) : HostedChatService :=
  { s with processedEvents := s.processedEvents.filter (· ≠ event) }

/-- `_discard_pending_send`. -/
def discardPendingSend (event : ChatEventKey) : HostedChatService :=
  { s with pendingSends := s.pendingSends.filter fun pending ↦ pending.1 ≠ event }

/-- `_claim_event` of an event that is not marked. -/
def claimEvent (event : ChatEventKey) : HostedChatService :=
  { s with processedEvents := trimState config (s.processedEvents ++ [event]) }

/-- The handlers catch what `_generate_and_send` raises. -/
def catchFailure (event : ChatEventKey) : ChatFailure → HostedChatService
  | .permanent => { s.discardPendingSend event with rejected := s.rejected ++ [event] }
  | .retryable => s.releaseEvent event
  | .cancelled => s

/-- The entry of `_generate_and_send`. -/
def generateAndSend (h : ChatHandler) : HostedChatService :=
  if config.maxQueueSize ≤ s.gate.queuedCount then
    { s with gate := s.gate.remove h }.catchFailure h.event .retryable
  else { s with gate := s.gate.enter h }

/-- `handle_chat_received`, `handle_nearby_friend_request` and the first line of
`handle_send_result`, up to the first suspension. -/
def receive (event : ChatEventKey) : HostedChatService :=
  if event ∈ s.processedEvents then s
  else
    let s := s.claimEvent config event
    match config.content event with
    | .sendResult => s
    | .chatReceived target supported =>
      if supported then { s with gate := s.gate.spawn event target } else s
    | .nearbyFriendRequest target =>
      { s with gate := s.gate.spawn event target }.generateAndSend config
        ⟨s.gate.handlerCount, event, target, .auditing⟩

/-- The handler holds the lock of its target: it sends what is pending, or makes a reply. -/
def generateAndSendLocked (h : ChatHandler) (lock : ℕ) : HostedChatService :=
  match s.pendingSends.lookup h.event with
  | some requestId =>
    { s with
      gate := s.gate.acquireLock h lock (.sending lock requestId)
      sends := s.sends ++ [(h.event, requestId)] }
  | none => { s with gate := s.gate.acquireLock h lock (.building lock) }

/-- `_build_request` returns, and the reply is pending under a new request id. -/
def keepPending (h : ChatHandler) (lock : ℕ) : HostedChatService :=
  { s.discardPendingSend h.event with
    gate := s.gate.move h (.reporting lock s.requestCount)
    requestCount := s.requestCount + 1
    pendingSends := trimState config
      ((s.discardPendingSend h.event).pendingSends ++ [(h.event, s.requestCount)]) }

def send (h : ChatHandler) (lock requestId : ℕ) : HostedChatService :=
  { s with
    gate := s.gate.move h (.sending lock requestId)
    sends := s.sends ++ [(h.event, requestId)] }

/-- The gateway has accepted the reply; the task returns, or raises a permanent error because a
result of another identity was waiting for this message. -/
def accept (h : ChatHandler) : HostedChatService :=
  { s.discardPendingSend h.event with
    gate := s.gate.exit h
    accepted := s.accepted ++ [h.event] }

def fail (h : ChatHandler) (failure : ChatFailure) : HostedChatService :=
  { s with gate := s.gate.exit h }.catchFailure h.event failure

end HostedChatService

/-! ## Steps -/

/-- What happens between two turns of the event loop: an event is delivered, or a suspended task
goes on. -/
inductive ChatAction where
  | receive (event : ChatEventKey)
  | audited (id : ℕ)
  | acquireSemaphore (id : ℕ)
  | acquireLock (id : ℕ)
  | built (id : ℕ)
  | reported (id : ℕ)
  | accepted (id : ℕ)
  | failed (id : ℕ) (failure : ChatFailure)
deriving DecidableEq, Repr

namespace HostedChatService

variable (config : HostedChatConfig)

/-- A step of a task; one for which it is not suspended there does nothing. -/
def advance (s : HostedChatService) (h : ChatHandler) : ChatAction → HostedChatService
  | .audited _ => if h.phase = .auditing then s.generateAndSend config h else s
  | .acquireSemaphore _ =>
    if h.phase = .queued ∧ 0 < s.gate.permits then { s with gate := s.gate.acquireSemaphore h }
    else s
  | .acquireLock _ =>
    match h.phase with
    | .locking lock => if s.gate.lockHeld lock then s else s.generateAndSendLocked h lock
    | _ => s
  | .built _ =>
    match h.phase with
    | .building lock => s.keepPending config h lock
    | _ => s
  | .reported _ =>
    match h.phase with
    | .reporting lock requestId => s.send h lock requestId
    | _ => s
  | .accepted _ =>
    match h.phase with
    | .sending .. => s.accept h
    | _ => s
  | .failed _ failure => if h.phase.raises failure then s.fail h failure else s
  | .receive _ => s

def exec (s : HostedChatService) (action : ChatAction) : HostedChatService :=
  match action with
  | .receive event => s.receive config event
  | .audited id | .acquireSemaphore id | .acquireLock id | .built id | .reported id
  | .accepted id | .failed id _ =>
    match s.gate.handler? id with
    | none => s
    | some h => s.advance config h action

end HostedChatService

end LlmGateway
