import LlmGateway.Outbox.Delivery
import LlmGateway.Planner.Candidates
import Mathlib.Data.List.DropRight

/-!
# Responses to decisions

`validate_decision_response` (`decision_client.py`) with the two shapes of a response
(`contracts.py`): the body is parsed, compared with the identity of the request, and taken as an
acceptance or a rejection, or it is a protocol error. What `Literal[True]` and `Literal[False]`
take, numbers that are equal to a truth value in particular, is a parameter.
-/

namespace LlmGateway.DecisionClient

/-! ## The shapes of a response -/

/-- The characters of the Unicode property `White_Space`. -/
def isWhitespace (c : Fin 0x110000) : Bool :=
  c.val ∈ [0x20, 0x85, 0xA0, 0x1680, 0x2028, 0x2029, 0x202F, 0x205F, 0x3000] ||
    0x9 ≤ c.val && c.val ≤ 0xD || 0x2000 ≤ c.val && c.val ≤ 0x200A

/-- `strip_whitespace`. -/
def strip (text : Text) : Text :=
  ⟨(text.codePoints.dropWhile isWhitespace).rdropWhile isWhitespace⟩

/-- The length is within the bound, if there is one. -/
def Fits (maxLength : Option ℕ) (text : Text) : Prop :=
  0 < text.codePoints.length ∧ ∀ bound ∈ maxLength, text.codePoints.length ≤ bound

instance (maxLength : Option ℕ) : DecidablePred (Fits maxLength) := fun _ ↦
  inferInstanceAs (Decidable (_ ∧ _))

/-- `NonEmptyString`, with the maximal length of the field. -/
def nonEmptyString (maxLength : Option ℕ) : Json → Option Text
  | .str text => if text.isUtf8 ∧ Fits maxLength (strip text) then some (strip text) else none
  | _ => none

/-- `StrictPositiveInt` and `StrictNonNegativeInt`. -/
def strictInt (least : ℤ) : Json → Option ℤ
  | .int value => if least ≤ value then some value else none
  | _ => none

/-- `Literal[None]`. -/
def literalNone : Json → Option Unit
  | .null => some ()
  | _ => none

/-- `Literal[value]`, of a truth value. -/
def literal (isLiteral : Bool → Json → Bool) (value : Bool) (given : Json) : Option Unit :=
  if isLiteral value given then some () else none

/-- `α | None`. -/
def nullable {α : Type} (parse : Json → Option α) : Json → Option (Option α)
  | .null => some none
  | given => (parse given).map some

/-- A field without a default. -/
def required {α : Type} (fields : List (Text × Json)) (key : Text) (parse : Json → Option α) :
    Option α :=
  (Json.get? fields key).bind parse

/-- A field with the default `None`. -/
def defaulted {α : Type} (fields : List (Text × Json)) (key : Text)
    (parse : Json → Option (Option α)) : Option (Option α) :=
  (Json.get? fields key).elim (some none) parse

structure GatewayV2DecisionAccepted where
  traceId : Text
  sessionId : Text
  decisionId : Text
  decisionLeaseId : Option Text
  controlGeneration : ℤ
  skillCallId : Option Text
  stateVersion : ℤ
  reason : Text
deriving DecidableEq

structure GatewayV2DecisionRejected where
  traceId : Option Text
  sessionId : Option Text
  decisionId : Option Text
  decisionLeaseId : Option Text
  controlGeneration : ℤ
  skillCallId : Option Text
  stateVersion : ℤ
  reason : Text
  blockedByState : Option Text
  blockedByActivity : Option Text
  blockedBySceneId : Option ℤ
  blockedByChairId : Option ℤ
deriving DecidableEq

inductive GatewayV2DecisionResponse where
  | accepted (response : GatewayV2DecisionAccepted)
  | rejected (response : GatewayV2DecisionRejected)
deriving DecidableEq

/-- The aliases of the fields that both shapes have. -/
def commonKeys : List Text :=
  ["accepted", "status", "traceId", "sessionId", "decisionId", "decisionLeaseId",
    "controlGeneration", "skillCallId", "stateVersion", "nextDecisionLeaseId", "reason"]

def blockedKeys : List Text :=
  ["blockedByState", "blockedByActivity", "blockedBySceneId", "blockedByChairId"]

/-- `extra="forbid"`. -/
def HasOnly (keys : List Text) (fields : List (Text × Json)) : Prop :=
  fields.all (fun field ↦ keys.contains field.1) = true

instance (keys : List Text) : DecidablePred (HasOnly keys) := fun _ ↦
  inferInstanceAs (Decidable (_ = _))

section Parse

variable (isLiteral : Bool → Json → Bool)

def parseAccepted (fields : List (Text × Json)) : Option GatewayV2DecisionAccepted := do
  guard (HasOnly commonKeys fields)
  required fields "accepted" (literal isLiteral true)
  let traceId ← required fields "traceId" (nonEmptyString (some 128))
  let sessionId ← required fields "sessionId" (nonEmptyString (some 128))
  let decisionId ← required fields "decisionId" (nonEmptyString (some 128))
  let decisionLeaseId ← defaulted fields "decisionLeaseId" (nullable (nonEmptyString (some 128)))
  let controlGeneration ← required fields "controlGeneration" (strictInt 1)
  let skillCallId ← required fields "skillCallId" (nullable (nonEmptyString (some 128)))
  let stateVersion ← required fields "stateVersion" (strictInt 0)
  required fields "nextDecisionLeaseId" literalNone
  let reason ← required fields "reason" (nonEmptyString (some 256))
  some { traceId, sessionId, decisionId, decisionLeaseId, controlGeneration, skillCallId,
         stateVersion, reason }

def parseRejected (fields : List (Text × Json)) : Option GatewayV2DecisionRejected := do
  guard (HasOnly (commonKeys ++ blockedKeys) fields)
  required fields "accepted" (literal isLiteral false)
  let traceId ← required fields "traceId" (nullable (nonEmptyString (some 128)))
  let sessionId ← required fields "sessionId" (nullable (nonEmptyString (some 128)))
  let decisionId ← required fields "decisionId" (nullable (nonEmptyString (some 128)))
  let decisionLeaseId ← required fields "decisionLeaseId" (nullable (nonEmptyString (some 128)))
  let controlGeneration ← required fields "controlGeneration" (strictInt 0)
  let skillCallId ← required fields "skillCallId" (nullable (nonEmptyString (some 128)))
  let stateVersion ← required fields "stateVersion" (strictInt 0)
  required fields "nextDecisionLeaseId" literalNone
  let reason ← required fields "reason" (nonEmptyString none)
  let blockedByState ← defaulted fields "blockedByState" (nullable (nonEmptyString (some 256)))
  let blockedByActivity ← defaulted fields "blockedByActivity"
    (nullable (nonEmptyString (some 256)))
  let blockedBySceneId ← defaulted fields "blockedBySceneId" (nullable (strictInt 0))
  let blockedByChairId ← defaulted fields "blockedByChairId" (nullable (strictInt 0))
  some { traceId, sessionId, decisionId, decisionLeaseId, controlGeneration, skillCallId,
         stateVersion, reason, blockedByState, blockedByActivity, blockedBySceneId,
         blockedByChairId }

/-- `parse_gateway_v2_decision_response`; the status tells the shape. -/
def parseGatewayV2DecisionResponse : Json → Option GatewayV2DecisionResponse
  | .obj fields =>
    if Json.get? fields "status" = some (.str "accepted") then
      (parseAccepted isLiteral fields).map .accepted
    else if Json.get? fields "status" = some (.str "rejected") then
      (parseRejected isLiteral fields).map .rejected
    else none
  | _ => none

end Parse

/-! ## The identity of a response -/

/-- The attributes of a response that are compared with the request. -/
structure ResponseIdentity where
  traceId : Option Text
  sessionId : Option Text
  decisionId : Option Text
  decisionLeaseId : Option Text
  controlGeneration : Option ℤ
  stateVersion : Option ℤ
deriving DecidableEq

namespace GatewayV2DecisionResponse

def status : GatewayV2DecisionResponse → DecisionResponseStatus
  | accepted _ => .accepted
  | rejected _ => .rejected

def identity : GatewayV2DecisionResponse → ResponseIdentity
  | accepted response =>
    { traceId := some response.traceId
      sessionId := some response.sessionId
      decisionId := some response.decisionId
      decisionLeaseId := response.decisionLeaseId
      controlGeneration := some response.controlGeneration
      stateVersion := some response.stateVersion }
  | rejected response =>
    { traceId := response.traceId
      sessionId := response.sessionId
      decisionId := response.decisionId
      decisionLeaseId := response.decisionLeaseId
      controlGeneration := some response.controlGeneration
      stateVersion := some response.stateVersion }

end GatewayV2DecisionResponse

/-- The keys of the request with the attributes of the response. -/
def ResponseIdentity.fields (identity : ResponseIdentity) : List (Text × Option Json) :=
  [("traceId", identity.traceId.map .str), ("sessionId", identity.sessionId.map .str),
    ("decisionId", identity.decisionId.map .str),
    ("decisionLeaseId", identity.decisionLeaseId.map .str),
    ("controlGeneration", identity.controlGeneration.map .int),
    ("stateVersion", identity.stateVersion.map .int)]

/-- `DecisionClientProtocolError`, without the text of the body. -/
structure DecisionClientProtocolError where
  category : String
  httpStatus : Option ℤ
deriving DecidableEq, Repr

/-- The number of an integer. -/
def intValue : Json → Option ℤ
  | .int value => some value
  | _ => none

/-- `actual_value == expected_value`, for a text or an integer. -/
def Equals (actual expected : Json) : Prop :=
  expected = actual ∨ ∃ number ∈ intValue actual, expected.IsNumber number

instance (actual : Json) : DecidablePred (Equals actual) := fun _ ↦
  inferInstanceAs (Decidable (_ ∨ ∃ _ ∈ _, _))

/-- `_validate_response_identity`, for one key. -/
def validateField (status : DecisionResponseStatus) (expected : List (Text × Json))
    (field : Text × Option Json) : Except DecisionClientProtocolError Unit :=
  match field.2 with
  | none =>
    if status = .accepted ∧ field.1 ≠ "decisionLeaseId" then
      .error ⟨"response_identity_missing", none⟩
    else .ok ()
  | some actual =>
    if Equals actual ((Json.get? expected field.1).getD .null) then .ok ()
    else .error ⟨"response_identity_mismatch", none⟩

/-- `_validate_response_identity`. -/
def validateResponseIdentity (response : GatewayV2DecisionResponse)
    (expected : List (Text × Json)) : Except DecisionClientProtocolError Unit :=
  response.identity.fields.forM (validateField response.status expected)

/-! ## The result -/

structure DecisionClientResult where
  httpStatus : ℤ
  status : DecisionResponseStatus
  reason : Text
  skillCallId : Option Text
  identity : ResponseIdentity
  responseBodyJson : Option (List (Text × Json))
deriving DecidableEq

/-- The value is a text that is not empty. -/
def filledText : Option Json → Option Text
  | some (.str text) => if text.codePoints = [] then none else some text
  | _ => none

/-- The lease of the request, which must be a text that is not empty. -/
def requestLease (requestIdentity : Option (List (Text × Json))) : Option Text :=
  filledText (requestIdentity.bind (Json.get? · "decisionLeaseId"))

/-- The lease of the result: an acceptance without one is for the lease of the request. -/
def resultLease (response : GatewayV2DecisionResponse)
    (requestIdentity : Option (List (Text × Json))) :
    Except DecisionClientProtocolError (Option Text) :=
  if response.status = .accepted ∧ response.identity.decisionLeaseId = none then
    match requestLease requestIdentity with
    | none => .error ⟨"response_identity_missing", none⟩
    | some lease => .ok (some lease)
  else .ok response.identity.decisionLeaseId

/-- The call that an acceptance names, as the action needs it. -/
def validateSkillCallId (requestAction : Text) (httpStatus : ℤ) (skillCallId : Option Text) :
    Except DecisionClientProtocolError Unit :=
  if requestAction ∈ [Text.ofString "call_skill", "stop_hosting"] then
    if skillCallId = none then .error ⟨"accepted_skill_call_id_missing", httpStatus⟩ else .ok ()
  else if requestAction ∈ [Text.ofString "wait", "no_op"] then
    if skillCallId = none then .ok () else .error ⟨"accepted_skill_call_id_unexpected", httpStatus⟩
  else .error ⟨"request_action_invalid", httpStatus⟩

/-- `dict(payload) if isinstance(payload, Mapping) else None`. -/
def bodyOf : Json → Option (List (Text × Json))
  | .obj fields => some fields
  | _ => none

/-- `validate_decision_response`. -/
def validateDecisionResponse (isLiteral : Bool → Json → Bool) (requestAction : Text)
    (httpStatus : ℤ) (payload : Json) (requestIdentity : Option (List (Text × Json))) :
    Except DecisionClientProtocolError DecisionClientResult :=
  match parseGatewayV2DecisionResponse isLiteral payload with
  | none => .error ⟨"response_schema_invalid", some httpStatus⟩
  | some response => do
    requestIdentity.forM (validateResponseIdentity response)
    let decisionLeaseId ← resultLease response requestIdentity
    let identity := { response.identity with decisionLeaseId }
    match response with
    | .rejected rejected =>
      .ok ⟨httpStatus, .rejected, rejected.reason, none, identity, bodyOf payload⟩
    | .accepted accepted =>
      if ¬(200 ≤ httpStatus ∧ httpStatus < 300) then
        .error ⟨"accepted_http_status_invalid", httpStatus⟩
      else do
        validateSkillCallId requestAction httpStatus accepted.skillCallId
        .ok ⟨httpStatus, .accepted, accepted.reason, accepted.skillCallId, identity, bodyOf payload⟩

end LlmGateway.DecisionClient
