import LlmGateway.Contract.Paths
import LlmGateway.Python.Numbers

/-!
# The action that a gateway event is answered with

The actions of the agent (`agents/models.py`), the choice of the first one that the event admits
(`webhooks.py`) and the body of the decision that is made of it (`robotgateway_callback.py`). What
Python raises is an error. How a value that is no text is written, `str(value)`, is a parameter.
-/

namespace LlmGateway.GatewayAction

abbrev Fields := List (Text × Json)

/-! ## What the agent recommends -/

/-- `GatewaySkillName`. -/
inductive SkillName where
  | observeState | moveTo | stopMove | jump | playAction
deriving DecidableEq, Repr

def SkillName.text : SkillName → Text
  | observeState => "observe_state"
  | moveTo => "move_to"
  | stopMove => "stop_move"
  | jump => "jump"
  | playAction => "play_action"

inductive Priority where
  | high | medium | low
deriving DecidableEq, Repr

def Priority.text : Priority → Text
  | high => "high"
  | medium => "medium"
  | low => "low"

/-- `isinstance(value, (int, float)) and not isinstance(value, bool)`. -/
def isNumber : Option Json → Bool
  | some (.int _) | some (.float ..) => true
  | _ => false

/-- `validate_skill_arguments`. -/
def validSkillArguments (arguments : Fields) : SkillName → Bool
  | .moveTo =>
    match Json.get? arguments "target" with
    | some (.obj target) => ["x", "y", "z"].all fun axis ↦ isNumber (Json.get? target axis)
    | _ => false
  | .playAction => (Json.get? arguments "action").isSome
  | .observeState | .stopMove | .jump => true

/-- `RecommendedAction`; the schema version is always the same. -/
structure RecommendedAction where
  skillName : SkillName
  arguments : Fields
  reason : Text
  priority : Priority
  ttlMs : Option ℕ
  goalMetric : Option Text
  goalValue : Option (ℤ × ℤ)
  expectedHours : Option ℤ
  ttlMs_pos : ∀ ttl ∈ ttlMs, 0 < ttl
  validArguments : validSkillArguments arguments skillName = true

/-- `action.model_dump(mode="json", by_alias=True)`. -/
def RecommendedAction.dump (action : RecommendedAction) : Fields :=
  [("skillName", .str action.skillName.text),
    ("schemaVersion", .str "v1"),
    ("arguments", .obj action.arguments),
    ("reason", .str action.reason),
    ("priority", .str action.priority.text),
    ("ttlMs", action.ttlMs.elim .null fun ttl ↦ .int ttl),
    ("goal_metric", action.goalMetric.elim .null .str),
    ("goal_value", action.goalValue.elim .null fun value ↦ .float value.1 value.2),
    ("expected_hours", action.expectedHours.elim .null .int)]

/-! ## What the event admits -/

/-- What is read of `GatewayEventPayload`. -/
structure EventPayload where
  availableSkills : List Fields
  skillArgumentHints : List Fields

/-- `bool(value)`. -/
def truthy : Json → Bool
  | .null => false
  | .bool value => value
  | .int value => value ≠ 0
  | .float mantissa _ => mantissa ≠ 0
  | .str value => value.codePoints ≠ []
  | .arr items => !items.isEmpty
  | .obj fields => !fields.isEmpty

/-- `hash(value)` does not raise. -/
def isHashable : Json → Bool
  | .arr _ | .obj _ => false
  | .null | .bool _ | .int _ | .float .. | .str _ => true

/-- `_mapping_value`, with two keys. -/
def mappingValue (mapping : Fields) (canonical legacy : Text) : Json :=
  (snapshotValue mapping canonical legacy).getD .null

/-- `_skill_name`. -/
def skillName (skill : Fields) : Json := mappingValue skill "skillName" "SkillName"

/-- `_schema_version`. -/
def schemaVersion (skill : Fields) : Json := mappingValue skill "schemaVersion" "SchemaVersion"

mutual

/-- `_flatten_argument_paths`. -/
def flattenArgumentPaths (parent : Text) : Json → List Text
  | .obj fields => flattenFields parent fields
  | .arr items => flattenItems (parent ++ Text.ofString "[]") items
  | .null | .bool _ | .int _ | .float .. | .str _ => if parent.codePoints = [] then [] else [parent]

def flattenFields (parent : Text) : Fields → List Text
  | [] => []
  | (key, child) :: fields =>
    Json.childPath parent key ::
      (flattenArgumentPaths (Json.childPath parent key) child ++ flattenFields parent fields)

def flattenItems (path : Text) : List Json → List Text
  | [] => []
  | child :: items => flattenArgumentPaths path child ++ flattenItems path items

end

section Select

variable (str : Json → Text)

/-- The paths of `allowedArgs`, which raises for a value that cannot be iterated. -/
def allowedPaths : Json → Except String (List Text)
  | .arr items =>
    .ok (items.filterMap fun item ↦
      match item with
      | .obj fields =>
        if truthy (mappingValue fields "path" "Path") then
          some (str (mappingValue fields "path" "Path"))
        else none
      | _ => none)
  | .str _ | .obj _ => .ok []
  | value => if truthy value then .error "TypeError" else .ok []

/-- The path is allowed or below an allowed one. -/
def pathIsAllowed (allowed : List Text) (path : Text) : Bool :=
  allowed.any fun parent ↦
    path = parent || (parent ++ Text.dot).codePoints.isPrefixOf path.codePoints

/-- `_action_matches_hint`. -/
def actionMatchesHint (action : Fields) : Option Fields → Except String Bool
  | none => .ok true
  | some hint =>
    if truthy (mappingValue hint "missingArgs" "MissingArgs") then .ok false
    else
      match (Json.get? action "arguments").getD (.obj []) with
      | .obj arguments =>
        match allowedPaths str (mappingValue hint "allowedArgs" "AllowedArgs") with
        | .error raised => .error raised
        | .ok [] => .ok arguments.isEmpty
        | .ok allowed =>
          .ok ((flattenArgumentPaths ⟨[]⟩ (.obj arguments)).all (pathIsAllowed allowed))
      | _ => .ok false

/-- The items by name and version, the last one first. -/
def skillTable : List Fields → Except String (List ((Json × Json) × Fields))
  | [] => .ok []
  | item :: items =>
    if truthy (skillName item) then
      if isHashable (skillName item) && isHashable (schemaVersion item) then do
        let rest ← skillTable items
        return rest ++ [((skillName item, schemaVersion item), item)]
      else .error "TypeError"
    else skillTable items

/-- `table.get((skill_name, schema_version))`. -/
def lookUp (table : List ((Json × Json) × Fields)) (name version : Json) : Option Fields :=
  (table.find? fun entry ↦ entry.1.1 = name && entry.1.2 = version).map (·.2)

/-- `a or b`. -/
def orElse (a b : Json) : Json := if truthy a then a else b

/-- `mapping[key] = value`. -/
def setField (mapping : Fields) (key : Text) (value : Json) : Fields :=
  if (Json.get? mapping key).isSome then
    mapping.map fun field ↦ if field.1 = key then (key, value) else field
  else mapping ++ [(key, value)]

/-- The value of the key, `None` if there is none. -/
def valueAt (mapping : Fields) (key : Text) : Json := (Json.get? mapping key).getD .null

/-- What is chosen if no action fits. -/
def waitAction : Fields :=
  [("action", .str "wait"),
    ("arguments", .obj [("waitMs", .int 1000)]),
    ("reason", .str "Agent 没有生成当前 Gateway 允许且参数完整的 skill，等待下一次观察"),
    ("confidence", .float 0 0),
    ("ttlMs", .int 1000)]

/-- The loop over the actions. -/
def selectAction (available hints : List ((Json × Json) × Fields)) : List Json →
    Except String Fields
  | [] => .ok waitAction
  | .obj action :: actions =>
    let name := orElse (valueAt action "skillName") (valueAt action "SkillName")
    let version := orElse (orElse (valueAt action "schemaVersion") (valueAt action "SchemaVersion"))
      (.str "v1")
    if !(isHashable name && isHashable version) then .error "TypeError"
    else if (lookUp available name version).isNone then selectAction available hints actions
    else
      match actionMatchesHint str action (lookUp hints name version) with
      | .error raised => .error raised
      | .ok false => selectAction available hints actions
      | .ok true => .ok (setField (setField action "skillName" name) "schemaVersion" version)
  | _ :: actions => selectAction available hints actions

/-- `_select_gateway_action`. -/
def selectGatewayAction (actions : List Json) (payload : EventPayload) : Except String Fields :=
  match skillTable payload.availableSkills, skillTable payload.skillArgumentHints with
  | .ok available, .ok hints => selectAction str available hints actions
  | .error raised, _ | _, .error raised => .error raised

end Select

/-! ## The body of the decision -/

structure Identity where
  traceId : Text
  sessionId : Text
  decisionId : Text
  decisionLeaseId : Text
  stateVersion : ℤ
deriving DecidableEq

inductive DecisionAction where
  | callSkill (skillName schemaVersion : Text) (arguments : Fields)
  | wait (arguments : Option Fields)
  | stopHosting
deriving DecidableEq

/-- The body; the contract version is always the same. -/
structure DecisionPayload where
  identity : Identity
  action : DecisionAction
  reason : Text
  confidence : ℚ
  ttlMs : ℤ
deriving DecidableEq

/-- `_require_non_blank_string`. -/
def requireNonBlankString (field : String) : Json → Except String Text
  | .str value =>
    if value.codePoints = [] ∨ value.strip ≠ value then
      .error (field ++ " must be a non-blank string without surrounding whitespace")
    else .ok value
  | _ => .error (field ++ " must be a non-blank string without surrounding whitespace")

/-- `_require_non_negative_int`. -/
def requireNonNegativeInt (field : String) : Json → Except String ℤ
  | .int value =>
    if value < 0 then .error (field ++ " must be a non-negative integer") else .ok value
  | _ => .error (field ++ " must be a non-negative integer")

/-- `_require_finite_number`. -/
def requireFiniteNumber (field : String) (value : Json) : Except String ℚ := do
  match ← toDouble value with
  | some number => return number
  | none => .error (field ++ " must be a finite JSON number")

/-- The arguments of a wait. -/
def waitArguments : Option Json → Except String (Option Fields)
  | none => .ok none
  | some (.obj arguments) =>
    if arguments.any (fun field ↦ field.1 ≠ "waitMs") then
      .error "wait arguments only allow waitMs"
    else
      match Json.get? arguments "waitMs" with
      | none => .ok (some arguments)
      | some (.int wait) =>
        if wait < 0 then .error "waitMs must be a non-negative integer" else .ok (some arguments)
      | some _ => .error "waitMs must be a non-negative integer"
  | some _ => .error "wait arguments must be a JSON object"

/-- The part of the body that depends on the action. -/
def decisionAction (recommended : Fields) : Json → Except String DecisionAction
  | .str action =>
    if action = "call_skill" then do
      let skillName ← requireNonBlankString "skillName" (valueAt recommended "skillName")
      let schemaVersion ← requireNonBlankString "schemaVersion" (valueAt recommended "schemaVersion")
      match Json.get? recommended "arguments" with
      | some (.obj arguments) => return .callSkill skillName schemaVersion arguments
      | _ => .error "call_skill arguments must be a JSON object"
    else if action = "wait" then do
      let arguments ← waitArguments (Json.get? recommended "arguments")
      return .wait arguments
    else if action = "stop_hosting" then
      if (Json.get? recommended "arguments").isSome then
        .error "stop_hosting must not include arguments"
      else .ok .stopHosting
    else .error "unsupported decision action"
  | _ => .error "unsupported decision action"

/-- `build_llm_gateway_decision_payload`. -/
def buildLlmGatewayDecisionPayload (str : Json → Text) (identity : Identity)
    (recommended : Fields) : Except String DecisionPayload := do
  let traceId ← requireNonBlankString "traceId" (.str identity.traceId)
  let sessionId ← requireNonBlankString "sessionId" (.str identity.sessionId)
  let stateVersion ← requireNonNegativeInt "stateVersion" (.int identity.stateVersion)
  let confidence ← requireFiniteNumber "confidence"
    ((Json.get? recommended "confidence").getD (.float 0 0))
  let ttlMs ← requireNonNegativeInt "ttlMs" ((Json.get? recommended "ttlMs").getD (.int 30000))
  let action ← decisionAction recommended
    ((Json.get? recommended "action").getD (.str "call_skill"))
  let reason := str (orElse (valueAt recommended "reason") (.str "Agent decision"))
  return ⟨⟨traceId, sessionId, identity.decisionId, identity.decisionLeaseId, stateVersion⟩, action,
    reason, confidence, ttlMs⟩

end LlmGateway.GatewayAction
