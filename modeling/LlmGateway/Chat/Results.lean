import LlmGateway.Chat.Hosted
import LlmGateway.Chat.Identities
import LlmGateway.Relational.OrderedDict

/-!
# The results of hosted-chat sends

The dictionaries of the service (`hosted_chat.py`) with their times: the markers of events, the
sends that the gateway has accepted, the results that came before their acceptance, and the replies
that are still to be sent. The result of a send comes as an event of its own and can overtake the
acceptance.

Each block under the state lock suspends nothing and is one operation here, and so is
`handle_send_result`, which is suspended only in the audit at its end.
-/

namespace LlmGateway

open Relational

/-- `HostedChatSendResult`. -/
structure HostedChatSendResult where
  chatMessageId : String
  sessionId : String
  targetAvatarId : String
  targetRoleId : String
  chatType : ChatType
  status : String
  reason : Option String
deriving DecidableEq

/-- `_ExpiringOutbound`. -/
structure ExpiringOutbound where
  requestId : String
  request : HostedChatSendRequest
  expiresAt : ℤ
deriving DecidableEq

/-- `_ExpiringResult`. -/
structure ExpiringResult where
  result : HostedChatSendResult
  expiresAt : ℤ
deriving DecidableEq

/-- `_ExpiringPendingSend`. -/
structure ExpiringPendingSend where
  requestId : String
  request : HostedChatSendRequest
  expiresAt : ℤ
deriving DecidableEq

/-- `_result_matches`. -/
def ResultMatches (request : HostedChatSendRequest) (result : HostedChatSendResult) : Prop :=
  request.sessionId = result.sessionId ∧ request.targetAvatarId = result.targetAvatarId ∧
    request.targetRoleId = result.targetRoleId ∧ request.chatType = result.chatType

instance (request : HostedChatSendRequest) (result : HostedChatSendResult) :
    Decidable (ResultMatches request result) := inferInstanceAs (Decidable (_ ∧ _ ∧ _ ∧ _))

/-- An accepted send has met a result: it is resolved, or `result_identity_mismatch` is raised. -/
structure ChatOutcome where
  messageId : String
  requestId : String
  request : HostedChatSendRequest
  result : HostedChatSendResult
  resolved : Bool
deriving DecidableEq

/-- `_state_ttl_seconds` and `_max_state_entries`, which is `none` for a service without a bound. -/
structure ChatLimits where
  stateTtlSeconds : ℤ
  maxStateEntries : Option ℕ

/-- The dictionaries of the service, with the outcomes so far and the results that
`handle_send_result` has recorded for the audit. -/
structure HostedChatState where
  processedEvents : OrderedDict ChatEventKey ℤ
  outbound : OrderedDict String ExpiringOutbound
  messageByRequestId : OrderedDict String String
  pendingResults : OrderedDict String ExpiringResult
  pendingSends : OrderedDict ChatEventKey ExpiringPendingSend
  outcomes : List ChatOutcome
  audits : List HostedChatSendResult
deriving DecidableEq

namespace HostedChatState

def initial : HostedChatState := ⟨∅, ∅, ∅, ∅, ∅, [], []⟩

/-- The request ids of the accepted sends that have expired. -/
def expiredRequestIds (outbound : OrderedDict String ExpiringOutbound) (now : ℤ) : List String :=
  (outbound.entries.filter fun e ↦ e.2.expiresAt ≤ now).map fun e ↦ e.2.requestId

/-- `_expire`. -/
def expire (s : HostedChatState) (now : ℤ) : HostedChatState :=
  { s with
    processedEvents := OrderedDict.filter (fun _ expiresAt ↦ now < expiresAt) s.processedEvents
    outbound := OrderedDict.filter (fun _ outbound ↦ now < outbound.expiresAt) s.outbound
    messageByRequestId := OrderedDict.filter
      (fun requestId _ ↦ requestId ∉ expiredRequestIds s.outbound now) s.messageByRequestId
    pendingResults := OrderedDict.filter (fun _ pending ↦ now < pending.expiresAt) s.pendingResults
    pendingSends := OrderedDict.filter (fun _ pending ↦ now < pending.expiresAt) s.pendingSends }

/-- `_release_event`. -/
def releaseEvent (s : HostedChatState) (event : ChatEventKey) : HostedChatState :=
  { s with processedEvents := s.processedEvents.erase event }

/-- `_discard_pending_send`. -/
def discardPendingSend (s : HostedChatState) (event : ChatEventKey) : HostedChatState :=
  { s with pendingSends := s.pendingSends.erase event }

/-- `_generate_and_send_locked` reads the pending send, which it drops if it has expired. -/
def readPendingSend (s : HostedChatState) (now : ℤ) (event : ChatEventKey) : HostedChatState :=
  if ∃ pending ∈ s.pendingSends.lookup event, pending.expiresAt ≤ now then
    s.discardPendingSend event
  else s

variable (limits : ChatLimits)

/-- `_trim_state`. -/
def trimState {κ ν : Type} (state : OrderedDict κ ν) : OrderedDict κ ν :=
  OrderedDict.trim limits.maxStateEntries state

/-- `_claim_event` marks the event. -/
def markEvent (s : HostedChatState) (now : ℤ) (event : ChatEventKey) : HostedChatState :=
  { s with
    processedEvents := trimState limits
      (s.processedEvents.insert event (now + limits.stateTtlSeconds)) }

/-- `_claim_event`, and what the event does if it is not a duplicate. -/
def claimEvent (s : HostedChatState) (now : ℤ) (event : ChatEventKey)
    (handle : HostedChatState → HostedChatState) : HostedChatState :=
  if event ∈ (s.expire now).processedEvents then s.expire now
  else handle ((s.expire now).markEvent limits now event)

/-- `_generate_and_send_locked` keeps the new reply. -/
def keepPendingSend (s : HostedChatState) (now : ℤ) (event : ChatEventKey) (requestId : String)
    (request : HostedChatSendRequest) : HostedChatState :=
  { s with
    pendingSends := trimState limits
      (s.pendingSends.insert event ⟨requestId, request, now + limits.stateTtlSeconds⟩) }

/-- An accepted send leaves the dictionaries. -/
def consume (s : HostedChatState) (messageId requestId : String) : HostedChatState :=
  { s with
    outbound := s.outbound.erase messageId
    messageByRequestId := s.messageByRequestId.erase requestId }

/-- The block of `_generate_and_send_locked` that records the acceptance of a send. -/
def keepOutbound (s : HostedChatState) (now : ℤ) (event : ChatEventKey)
    (requestId messageId : String) (request : HostedChatSendRequest) : HostedChatState :=
  { s with
    outbound := trimState limits
      (s.outbound.insert messageId ⟨requestId, request, now + limits.stateTtlSeconds⟩)
    messageByRequestId := trimState limits (s.messageByRequestId.insert requestId messageId)
    pendingSends := s.pendingSends.erase event }

/-- The block goes on to the result that is pending. -/
def meetPendingResult (s : HostedChatState) (requestId messageId : String)
    (request : HostedChatSendRequest) : HostedChatState :=
  match s.pendingResults.lookup messageId with
  | none => s
  | some pending =>
    { s.consume messageId requestId with
      pendingResults := s.pendingResults.erase messageId
      outcomes := s.outcomes ++ [⟨messageId, requestId, request, pending.result,
        ResultMatches request pending.result⟩] }

def recordAcceptance (s : HostedChatState) (now : ℤ) (event : ChatEventKey)
    (requestId messageId : String) (request : HostedChatSendRequest) : HostedChatState :=
  ((s.expire now).keepOutbound limits now event requestId messageId request).meetPendingResult
    requestId messageId request

/-- A result waits for its acceptance. -/
def keepResult (s : HostedChatState) (now : ℤ) (result : HostedChatSendResult) : HostedChatState :=
  { s with
    pendingResults := trimState limits
      (s.pendingResults.insert result.chatMessageId ⟨result, now + limits.stateTtlSeconds⟩) }

/-- A result meets the send that it is about. -/
def meetOutbound (s : HostedChatState) (outbound : ExpiringOutbound)
    (result : HostedChatSendResult) : HostedChatState :=
  if ResultMatches outbound.request result then
    { s.consume result.chatMessageId outbound.requestId with
      outcomes := s.outcomes ++
        [⟨result.chatMessageId, outbound.requestId, outbound.request, result, true⟩]
      audits := s.audits ++ [result] }
  else
    { s with
      outcomes := s.outcomes ++
        [⟨result.chatMessageId, outbound.requestId, outbound.request, result, false⟩] }

/-- The block of `handle_send_result`. -/
def recordResult (s : HostedChatState) (now : ℤ) (result : HostedChatSendResult) :
    HostedChatState :=
  match (s.expire now).outbound.lookup result.chatMessageId with
  | none => (s.expire now).keepResult limits now result
  | some outbound => (s.expire now).meetOutbound outbound result

/-- What the tasks of the service do to the dictionaries. -/
inductive Operation where
  /-- `_claim_event` of an event that is to be answered. -/
  | receive (now : ℤ) (event : ChatEventKey)
  | release (event : ChatEventKey)
  | discard (event : ChatEventKey)
  | readPending (now : ℤ) (event : ChatEventKey)
  | keepPending (now : ℤ) (event : ChatEventKey) (requestId : String)
    (request : HostedChatSendRequest)
  | accept (now : ℤ) (event : ChatEventKey) (requestId messageId : String)
    (request : HostedChatSendRequest)
  /-- `handle_send_result`, which reads the clock twice. -/
  | sendResult (claimedAt now : ℤ) (event : ChatEventKey) (result : HostedChatSendResult)

def exec (s : HostedChatState) : Operation → HostedChatState
  | .receive now event => s.claimEvent limits now event id
  | .release event => s.releaseEvent event
  | .discard event => s.discardPendingSend event
  | .readPending now event => s.readPendingSend now event
  | .keepPending now event requestId request =>
    s.keepPendingSend limits now event requestId request
  | .accept now event requestId messageId request =>
    s.recordAcceptance limits now event requestId messageId request
  | .sendResult claimedAt now event result =>
    s.claimEvent limits claimedAt event fun s ↦ s.recordResult limits now result

end HostedChatState

end LlmGateway
