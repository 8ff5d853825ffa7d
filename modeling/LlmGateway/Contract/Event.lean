import LlmGateway.Contract.Json
import Mathlib.Data.List.Nodup

/-!
# Gateway events

The events of the gateway contract, after validation. A value of `GatewayEvent` carries the
facts that the validators establish: a sequenced event has a positive position, a
`session_started` stands at sequence 1, a lease repeats the identity of its event, and a
hosted chat event has state version 0 and no lease. Of the string lengths, those are modelled
that a column of the inbox tables bounds.

`buildAgentContext` is the planning context of an event that carries a lease.
-/

namespace LlmGateway

inductive EventType where
  | sessionStarted
  | observationUpdated
  | skillStarted
  | skillFinished
  | decisionRejected
  | sessionStopped
  | chatReceived
  | nearbyFriendChatRequested
  | chatSendResult
deriving DecidableEq, Repr

namespace EventType

/-- `_HOSTED_CHAT_EVENT_TYPES`. -/
def isHostedChat : EventType → Bool
  | chatReceived | nearbyFriendChatRequested | chatSendResult => true
  | _ => false

/-- The terminal events of a skill call or a decision, processed out of order. -/
def isConvergence : EventType → Bool
  | skillStarted | skillFinished | decisionRejected => true
  | _ => false

theorem isConvergence_of_isHostedChat {t : EventType} (h : t.isHostedChat = true) :
    t.isConvergence = false := by
  cases t <;> simp_all [isHostedChat, isConvergence]

end EventType

inductive DecisionAction where
  | callSkill
  | wait
  | noOp
  | stopHosting
deriving DecidableEq, Repr

structure SkillExposureDescriptor where
  state : String
  reason : Text
  exposeToAdminDefault : Bool
  exposeToDecisionProvider : Bool
  allowExplicitCall : Bool
deriving DecidableEq

structure AvailableSkill where
  skillName : String
  schemaVersion : String
  requireRunning : Bool
  cooldownMs : ℕ
  exposure : Option SkillExposureDescriptor
deriving DecidableEq

structure SkillArgumentField where
  path : String
  argumentType : Option String
  status : Option String
  source : Option String
  statePath : Option String
  reason : Option String
  nextStep : Option String
  /-- `minimum` and `maximum`, which are supplied together. -/
  range : Option (ℤ × ℤ)
deriving DecidableEq

structure SkillArgumentNextStep where
  kind : String
  label : Option String
  skillName : Option String
  reason : Option String
deriving DecidableEq

structure SkillArgumentHint where
  skillName : String
  schemaVersion : String
  argumentStatus : String
  suggestedArgs : List (Text × Json)
  allowedArgs : List SkillArgumentField
  missingArgs : List SkillArgumentField
  warnings : List String
  nextSteps : List SkillArgumentNextStep
deriving DecidableEq

structure DecisionLeaseContext where
  sessionId : String
  controlGeneration : ℕ
  decisionLeaseId : String
  stateVersion : ℕ
  leaseKind : String
  allowedActions : List DecisionAction
  allowedSkillName : Option String
  allowedSkillNames : List String
  parentSkillName : Option String
  actions_ne_nil : allowedActions ≠ []
  actions_nodup : allowedActions.Nodup
  skillNames_nodup : allowedSkillNames.Nodup
  skillName_mem : ∀ name ∈ allowedSkillName, name ∈ allowedSkillNames
deriving DecidableEq

structure DecisionContext where
  session : List (Text × Json)
  availableSkills : List AvailableSkill
  skillArgumentHints : List SkillArgumentHint
  lastSkillResult : Option (List (Text × Json))
  session_ne_nil : session ≠ []
  skills_nodup : (availableSkills.map (·.skillName)).Nodup
  hints_nodup : (skillArgumentHints.map (·.skillName)).Nodup
  hints_mem : ∀ hint ∈ skillArgumentHints,
    (hint.skillName, hint.schemaVersion) ∈ availableSkills.map fun s ↦ (s.skillName, s.schemaVersion)
deriving DecidableEq

/-- A lease together with the context it is decided in. -/
structure LeaseOffer where
  lease : DecisionLeaseContext
  decisionContext : DecisionContext
deriving DecidableEq

inductive FailureCategory where
  | businessRejected
  | transportFailed
  | protocolFailed
  | internalFailed
deriving DecidableEq, Repr

/-- The terminal of a skill call; only a failure has a failure category. -/
inductive SkillTerminal where
  | success
  | failed (failureCategory : FailureCategory) (reason : String) (retryable : Bool)
  | cancelled (reason : String) (retryable : Bool)
  | timeout (reason : String) (retryable : Bool)
deriving DecidableEq

structure SkillStartedPayload where
  decisionId : String
  skillCallId : String
  skillName : String
  startedAtMs : ℕ
deriving DecidableEq

structure SkillFinishedPayload where
  decisionId : String
  skillCallId : String
  skillName : String
  terminal : SkillTerminal
  /-- The reason and the retry flag as sent, which a success does not pass on. -/
  reason : String
  retryable : Bool
  startedAtMs : ℕ
  finishedAtMs : ℕ
  offer : Option LeaseOffer
  started_le_finished : startedAtMs ≤ finishedAtMs
deriving DecidableEq

structure DecisionRejectedPayload where
  decisionId : String
  action : DecisionAction
  skillName : Option String
  reason : String
  rejectedAtMs : ℕ
deriving DecidableEq

structure SessionStoppedPayload where
  reason : String
  stoppedAtMs : ℕ
deriving DecidableEq

/-- The payload of an event that has a place in the sequence of its generation. -/
inductive Payload where
  | sessionStarted (reason : String) (offer : LeaseOffer)
  | observationUpdated (reason : Option String) (offer : LeaseOffer)
  | skillStarted (payload : SkillStartedPayload)
  | skillFinished (payload : SkillFinishedPayload)
  | decisionRejected (payload : DecisionRejectedPayload)
  | sessionStopped (payload : SessionStoppedPayload)
deriving DecidableEq

/-- The payload of a hosted chat event, which no modelled function looks into. -/
inductive ChatPayload where
  | chatReceived (payload : Json)
  | nearbyFriendChatRequested (payload : Json)
  | chatSendResult (payload : Json)
deriving DecidableEq

structure Position where
  controlGeneration : ℕ
  eventSequence : ℕ
  generation_pos : 0 < controlGeneration
  sequence_pos : 0 < eventSequence
deriving DecidableEq

inductive EventBody where
  | sequenced (position : Position) (payload : Payload)
  | chat (payload : ChatPayload)
deriving DecidableEq

namespace Payload

def eventType : Payload → EventType
  | sessionStarted .. => .sessionStarted
  | observationUpdated .. => .observationUpdated
  | skillStarted _ => .skillStarted
  | skillFinished _ => .skillFinished
  | decisionRejected _ => .decisionRejected
  | sessionStopped _ => .sessionStopped

/-- The lease that the event offers for a decision. -/
def offer? : Payload → Option LeaseOffer
  | sessionStarted _ offer | observationUpdated _ offer => some offer
  | skillFinished payload => payload.offer
  | _ => none

end Payload

def ChatPayload.eventType : ChatPayload → EventType
  | chatReceived _ => .chatReceived
  | nearbyFriendChatRequested _ => .nearbyFriendChatRequested
  | chatSendResult _ => .chatSendResult

def EventBody.eventType : EventBody → EventType
  | sequenced _ payload => payload.eventType
  | chat payload => payload.eventType

/-- What the model validators of the contract check across the fields of an event. -/
def EventBody.Valid (sessionId : String) (stateVersion : ℕ) (decisionLeaseId : Option String) :
    EventBody → Prop
  | sequenced position payload =>
    (payload.eventType = .sessionStarted → position.eventSequence = 1) ∧
    (∀ offer ∈ payload.offer?,
      sessionId = offer.lease.sessionId ∧
      position.controlGeneration = offer.lease.controlGeneration ∧
      stateVersion = offer.lease.stateVersion ∧
      decisionLeaseId = some offer.lease.decisionLeaseId) ∧
    (payload.eventType = .skillFinished → payload.offer? = none → decisionLeaseId = none)
  | chat _ => stateVersion = 0 ∧ decisionLeaseId = none

instance (sessionId : String) (stateVersion : ℕ) (decisionLeaseId : Option String)
    (body : EventBody) : Decidable (body.Valid sessionId stateVersion decisionLeaseId) := by
  cases body <;> unfold EventBody.Valid <;> infer_instance

/-- `NonEmptyString128`; the characters of a string are its code points. -/
def NonEmptyString128 (text : String) : Prop := 0 < text.length ∧ text.length ≤ 128

instance : DecidablePred NonEmptyString128 := fun _ ↦ inferInstanceAs (Decidable (_ ∧ _))

structure GatewayEvent where
  eventId : String
  sessionId : String
  stateVersion : ℕ
  decisionLeaseId : Option String
  occurredAtMs : ℕ
  body : EventBody
  valid : body.Valid sessionId stateVersion decisionLeaseId
  eventId_length : NonEmptyString128 eventId
  sessionId_length : NonEmptyString128 sessionId
deriving DecidableEq

/-- `GatewayV2BatchEnvelope`, without the version and the time of sending. -/
structure BatchEnvelope where
  traceId : String
  gatewayId : String
  events : List GatewayEvent
  traceId_length : NonEmptyString128 traceId
  gatewayId_length : NonEmptyString128 gatewayId
  events_ne_nil : events ≠ []

namespace GatewayEvent

def eventType (event : GatewayEvent) : EventType := event.body.eventType

/-- `_is_hosted_chat_event`. -/
def isHostedChat (event : GatewayEvent) : Bool := event.eventType.isHostedChat

def position? (event : GatewayEvent) : Option Position :=
  match event.body with
  | .sequenced position _ => some position
  | .chat _ => none

def offer? (event : GatewayEvent) : Option LeaseOffer :=
  match event.body with
  | .sequenced _ payload => payload.offer?
  | .chat _ => none

theorem position?_isSome (event : GatewayEvent) :
    event.position?.isSome = !event.isHostedChat := by
  rcases event with ⟨_, _, _, _, _, ⟨position, payload⟩ | payload, _⟩ <;> cases payload <;> rfl

theorem eventSequence_of_sessionStarted {event : GatewayEvent} {position : Position}
    (hposition : event.position? = some position) (htype : event.eventType = .sessionStarted) :
    position.eventSequence = 1 := by
  rcases event with ⟨_, _, _, _, _, ⟨p, payload⟩ | payload, hvalid⟩
  · obtain rfl : p = position := Option.some.inj hposition
    exact hvalid.1 htype
  · simp [position?] at hposition

/-- An offered lease has the identity that the event announces. -/
theorem lease_of_offer? {event : GatewayEvent} {offer : LeaseOffer}
    (hoffer : event.offer? = some offer) :
    event.decisionLeaseId = some offer.lease.decisionLeaseId ∧
      event.stateVersion = offer.lease.stateVersion := by
  rcases event with ⟨_, _, _, _, _, ⟨p, payload⟩ | payload, hvalid⟩
  · obtain ⟨-, -, hversion, hlease⟩ := hvalid.2.1 offer hoffer
    exact ⟨hlease, hversion⟩
  · simp [offer?] at hoffer

end GatewayEvent

/-! ## The planning context -/

namespace SkillTerminal

def failureCategoryText : FailureCategory → String
  | .businessRejected => "business_rejected"
  | .transportFailed => "transport_failed"
  | .protocolFailed => "protocol_failed"
  | .internalFailed => "internal_failed"

/-- `terminal.model_dump(mode="json", by_alias=True)`. -/
def dump : SkillTerminal → List (Text × Json)
  | success => [("status", .str "success")]
  | failed category reason retryable =>
    [("status", .str "failed"), ("failureCategory", .str (failureCategoryText category)),
      ("reason", .str reason), ("retryable", .bool retryable)]
  | cancelled reason retryable =>
    [("status", .str "cancelled"), ("reason", .str reason), ("retryable", .bool retryable)]
  | timeout reason retryable =>
    [("status", .str "timeout"), ("reason", .str reason), ("retryable", .bool retryable)]

end SkillTerminal

/-- `GatewayV2AgentContext`, which is also what a cycle keeps as its latest context. -/
structure AgentContext where
  eventId : String
  sessionId : String
  controlGeneration : ℕ
  eventSequence : ℕ
  decisionLeaseId : String
  stateVersion : ℕ
  leaseKind : String
  allowedDecisionActions : List DecisionAction
  parentSkillName : Option String
  allowedSkillName : Option String
  allowedSkillNames : List String
  sessionSnapshot : List (Text × Json)
  availableSkills : List AvailableSkill
  skillArgumentHints : List SkillArgumentHint
  terminalResult : Option (List (Text × Json))
deriving DecidableEq

/-- The result of the last skill: the event's own terminal, or the one its context reports. -/
def Payload.terminalResult (payload : Payload) (offer : LeaseOffer) :
    Option (List (Text × Json)) :=
  match payload with
  | .skillFinished finished => some finished.terminal.dump
  | _ => offer.decisionContext.lastSkillResult

/-- `build_gateway_v2_agent_context`, defined on the events that carry a lease. -/
def buildAgentContext (event : GatewayEvent) : Option AgentContext :=
  match event.body with
  | .sequenced position payload => payload.offer?.map fun offer ↦
    { eventId := event.eventId
      sessionId := event.sessionId
      controlGeneration := position.controlGeneration
      eventSequence := position.eventSequence
      decisionLeaseId := offer.lease.decisionLeaseId
      stateVersion := offer.lease.stateVersion
      leaseKind := offer.lease.leaseKind
      allowedDecisionActions := offer.lease.allowedActions
      parentSkillName := offer.lease.parentSkillName
      allowedSkillName := offer.lease.allowedSkillName
      allowedSkillNames := offer.lease.allowedSkillNames
      sessionSnapshot := offer.decisionContext.session
      availableSkills := offer.decisionContext.availableSkills
      skillArgumentHints := offer.decisionContext.skillArgumentHints
      terminalResult := payload.terminalResult offer }
  | .chat _ => none

theorem buildAgentContext_isSome (event : GatewayEvent) :
    (buildAgentContext event).isSome = event.offer?.isSome := by
  rcases event with ⟨_, _, _, _, _, ⟨p, payload⟩ | payload, _⟩ <;>
    simp [buildAgentContext, GatewayEvent.offer?]

/-- The context has the lease identity that the event announces. -/
theorem lease_of_buildAgentContext {event : GatewayEvent} {context : AgentContext}
    (h : buildAgentContext event = some context) :
    event.decisionLeaseId = some context.decisionLeaseId ∧
      event.stateVersion = context.stateVersion := by
  rcases event with ⟨_, _, _, _, _, ⟨p, payload⟩ | payload, hvalid⟩
  · simp only [buildAgentContext, Option.map_eq_some_iff] at h
    obtain ⟨offer, hoffer, rfl⟩ := h
    obtain ⟨-, -, hversion, hlease⟩ := hvalid.2.1 offer hoffer
    exact ⟨hlease, hversion⟩
  · simp [buildAgentContext] at h

/-! ## What the database can store -/

/-- PostgreSQL stores every string except those with a zero character. -/
def encodable (text : String) : Bool := text.toList.all (· ≠ '\x00')

theorem Text.isStorable_ofString (text : String) :
    (Text.ofString text).isStorable = encodable text := by
  rw [Text.isStorable, Text.isUtf8_ofString, Bool.true_and, Text.ofString, List.all_map, encodable]
  congr 1
  funext c
  have hzero : c.toNat = 0 ↔ c = '\x00' := by
    rw [← Char.toNat_inj]
    rfl
  simp only [Function.comp_apply, ne_eq, hzero]

namespace GatewayEvent

def skillTexts (skill : AvailableSkill) : List Text :=
  [skill.skillName, skill.schemaVersion].map Text.ofString ++
    (skill.exposure.map fun e ↦ [Text.ofString e.state, e.reason]).getD []

def argumentTexts (field : SkillArgumentField) : List Text :=
  [some field.path, field.argumentType, field.status, field.source, field.statePath, field.reason,
    field.nextStep].flatMap fun text ↦ text.toList.map Text.ofString

def hintTexts (hint : SkillArgumentHint) : List Text :=
  [hint.skillName, hint.schemaVersion, hint.argumentStatus].map Text.ofString ++
    Json.textsOfFields hint.suggestedArgs ++
    (hint.allowedArgs ++ hint.missingArgs).flatMap argumentTexts ++
    hint.warnings.map Text.ofString ++
    hint.nextSteps.flatMap fun step ↦
      [some step.kind, step.label, step.skillName, step.reason].flatMap fun text ↦
        text.toList.map Text.ofString

def offerTexts (offer : LeaseOffer) : List Text :=
  let lease := offer.lease
  let context := offer.decisionContext
  ([lease.sessionId, lease.decisionLeaseId, lease.leaseKind] ++ lease.allowedSkillName.toList ++
    lease.allowedSkillNames ++ lease.parentSkillName.toList).map Text.ofString ++
    Json.textsOfFields context.session ++ context.availableSkills.flatMap skillTexts ++
    context.skillArgumentHints.flatMap hintTexts ++
    (context.lastSkillResult.map Json.textsOfFields).getD []

def payloadTexts : EventBody → List Text
  | .sequenced _ (.sessionStarted reason offer) => reason :: offerTexts offer
  | .sequenced _ (.observationUpdated reason offer) =>
    reason.toList.map Text.ofString ++ offerTexts offer
  | .sequenced _ (.skillStarted p) => [p.decisionId, p.skillCallId, p.skillName].map Text.ofString
  | .sequenced _ (.skillFinished p) =>
    [p.decisionId, p.skillCallId, p.skillName, p.reason].map Text.ofString ++ (p.offer.map offerTexts).getD []
  | .sequenced _ (.decisionRejected p) =>
    (p.decisionId :: p.reason :: p.skillName.toList).map Text.ofString
  | .sequenced _ (.sessionStopped p) => [Text.ofString p.reason]
  | .chat (.chatReceived payload) | .chat (.nearbyFriendChatRequested payload)
  | .chat (.chatSendResult payload) => payload.texts

/-- All texts of the event that may vary. -/
def texts (event : GatewayEvent) : List Text :=
  (event.eventId :: event.sessionId :: event.decisionLeaseId.toList).map Text.ofString ++
    payloadTexts event.body

/-- The canonical bytes of the event exist. -/
def isCanonical (event : GatewayEvent) : Bool := event.texts.all Text.isUtf8

/-- The stored body can be written to a JSON column. -/
def isEncodable (event : GatewayEvent) : Bool := event.texts.all Text.isStorable

/-- A body that can be stored has canonical bytes and a storable identifier and session. -/
theorem of_isEncodable {event : GatewayEvent} (h : event.isEncodable = true) :
    event.isCanonical = true ∧ encodable event.eventId = true ∧
      encodable event.sessionId = true := by
  simp only [isEncodable, isCanonical, List.all_eq_true] at h ⊢
  refine ⟨fun text htext ↦ (Bool.and_eq_true_iff.1 (h text htext)).1, ?_, ?_⟩
  · rw [← Text.isStorable_ofString]
    exact h _ (by simp [texts])
  · rw [← Text.isStorable_ofString]
    exact h _ (by simp [texts])

end GatewayEvent

end LlmGateway
