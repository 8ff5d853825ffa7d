import LlmGateway.Contract.Canonical
import LlmGateway.Store.Rows

/-!
# The bytes of a frozen decision

A decision is sent and hashed as the canonical form of its wire object. The object has a field
for each attribute that the kind of decision has, under the alias of the attribute.
-/

namespace LlmGateway

/-- The fields of a wire object, without those that are absent. -/
def recordFields {ι : Type} (fields : List ι) (key : ι → Text) (value : ι → Option Json) :
    List (Text × Json) :=
  fields.filterMap fun field ↦ (value field).map fun x ↦ (key field, x)

/-- The attributes of `GatewayV2Decision`. -/
inductive DecisionField where
  | traceId
  | contractVersion
  | sessionId
  | decisionId
  | decisionLeaseId
  | stateVersion
  | controlGeneration
  | ttlMs
  | action
  | skillName
  | schemaVersion
  | arguments
  | waitMs
deriving DecidableEq

namespace DecisionField

/-- In the order of the model. -/
def all : List DecisionField :=
  [traceId, contractVersion, sessionId, decisionId, decisionLeaseId, stateVersion,
    controlGeneration, ttlMs, action, skillName, schemaVersion, arguments, waitMs]

/-- `serialization_alias`. -/
def serializationAlias : DecisionField → String
  | traceId => "traceId"
  | contractVersion => "contractVersion"
  | sessionId => "sessionId"
  | decisionId => "decisionId"
  | decisionLeaseId => "decisionLeaseId"
  | stateVersion => "stateVersion"
  | controlGeneration => "controlGeneration"
  | ttlMs => "ttlMs"
  | action => "action"
  | skillName => "skillName"
  | schemaVersion => "schemaVersion"
  | arguments => "arguments"
  | waitMs => "waitMs"

end DecisionField

def DecisionAction.wireName : DecisionAction → String
  | callSkill => "call_skill"
  | wait => "wait"
  | noOp => "no_op"
  | stopHosting => "stop_hosting"

namespace DecisionBody

variable (body : DecisionBody)

/-- The serialized attribute, if this kind of decision has it. -/
def value : DecisionField → Option Json
  | .traceId => some (.str body.traceId)
  | .contractVersion => some (.str "llm-gateway-http-v2")
  | .sessionId => some (.str body.sessionId)
  | .decisionId => some (.str body.decisionId)
  | .decisionLeaseId => some (.str body.decisionLeaseId)
  | .stateVersion => some (.int body.stateVersion)
  | .controlGeneration => some (.int body.controlGeneration)
  | .ttlMs => some (.int body.ttlMs)
  | .action => some (.str body.action.wireName)
  | .skillName => body.skillName.map fun skillName : String ↦ .str skillName
  | .schemaVersion => body.schemaVersion.map fun schemaVersion : String ↦ .str schemaVersion
  | .arguments => body.arguments.map .obj
  | .waitMs => body.waitMs.map fun waitMs : ℕ ↦ .int waitMs

/-- `decision.model_dump(mode="json", by_alias=True)`. -/
def bodyJson : Json :=
  .obj (recordFields DecisionField.all (fun field ↦ field.serializationAlias) body.value)

/-- `body_bytes`. -/
def bodyBytes (floats : PythonFloats) : Option ByteArray := canonicalJsonBytes floats body.bodyJson

end DecisionBody

end LlmGateway
