import LlmGateway.Contract.Event
import LlmGateway.Contract.Paths
import Mathlib.Data.List.OfFn

/-!
# Arguments of activities

Four activities get their arguments from the planner, whatever the agent chose: they are read
off a SHA-256 digest of the identity of the decision, so that a repeated planning chooses the
same ones. Four other skills have arguments that must be present. The hash itself is a parameter.
-/

namespace LlmGateway

namespace Text

/-- `str.isspace` of a character. -/
def isSpace (c : Fin 0x110000) : Bool :=
  c.val ∈ [0x20, 0x85, 0xA0, 0x1680, 0x2028, 0x2029, 0x202F, 0x205F, 0x3000] ||
    0x9 ≤ c.val && c.val ≤ 0xD || 0x1C ≤ c.val && c.val ≤ 0x1F ||
    0x2000 ≤ c.val && c.val ≤ 0x200A

/-- `not text.strip()`. -/
def isBlank (text : Text) : Bool := text.codePoints.all isSpace

/-- `separator.join(values)`. -/
def join (separator : Text) (values : List Text) : Text :=
  ⟨separator.codePoints.intercalate (values.map (·.codePoints))⟩

/-- `str(n)`. -/
def ofNat (n : ℕ) : Text := ofString (toString n)

end Text

namespace Json

/-- `fields.get(key)`. -/
def get? (fields : List (Text × Json)) (key : Text) : Option Json :=
  (fields.find? fun field ↦ field.1 = key).map (·.2)

end Json

/-- `_snapshot_value`. -/
def snapshotValue (snapshot : List (Text × Json)) (canonical legacy : Text) : Option Json :=
  (Json.get? snapshot canonical).orElse fun _ ↦ Json.get? snapshot legacy

/-- `snapshot.get("AccountId", snapshot.get("accountId"))`. -/
def AgentContext.accountId (context : AgentContext) : Option Json :=
  snapshotValue context.sessionSnapshot "AccountId" "accountId"

/-- `account_id or ""`, for an account that is a text. -/
def AgentContext.accountText (context : AgentContext) : Text :=
  match context.accountId with
  | some (.str account) => account
  | _ => ""

/-! ## Seeds -/

/-- The values that identify a decision. -/
def AgentContext.seedValues (context : AgentContext) : List Text :=
  [context.sessionId, context.eventId, context.accountText, .ofNat context.controlGeneration,
    .ofNat context.eventSequence, context.decisionLeaseId, .ofNat context.stateVersion]

/-- `paper_plane_arguments_seed`. -/
def paperPlaneArgumentsSeed (context : AgentContext) : Text :=
  "paper-plane:" ++ Text.join ":" context.seedValues

/-- `competitive_activity_seed`. -/
def competitiveActivitySeed (context : AgentContext) (skillName : String) : Text :=
  "competitive-activity:" ++ Text.join ":" (Text.ofString skillName :: context.seedValues)

/-- The bytes of `hashlib.sha256(seed.encode("utf-8")).digest()`. -/
abbrev Digest := Fin 32 → Fin 256

/-- `int.from_bytes(digest[offset : offset + 8], "big")`. -/
def Digest.toInt (digest : Digest) (offset : ℕ) : ℕ :=
  (((List.ofFn digest).drop offset).take 8).foldl (fun n byte ↦ 256 * n + byte.val) 0

/-- `_stable_int`. -/
def stableInt (digest : Digest) (offset minimum maximum : ℕ) : ℕ :=
  minimum + digest.toInt offset % (maximum - minimum + 1)

/-! ## The four activities with built arguments -/

/-- `_SPECIALIZED_ARGUMENT_SKILLS`. -/
def specializedArgumentSkills : List String :=
  ["paper_plane_auto_schedule", "darts_auto_schedule", "shooting_auto_schedule",
    "dance_auto_schedule"]

/-- `DART_ITEMS`. -/
def dartItems : List Text := ["general", "elementary", "advanced"]

/-- `SHOOTING_PROJECTS`. -/
def shootingProjects : Fin 6 → Text × Text × Text
  | 0 => ("10m", "pistol", "standing")
  | 1 => ("10m", "rifle", "standing")
  | 2 => ("25m", "pistol", "standing")
  | 3 => ("50m", "rifle", "standing")
  | 4 => ("50m", "rifle", "crouching")
  | 5 => ("50m", "rifle", "prone")

/-- `PAPER_PLANE_NAMES`, each with its `PAPER_PLANE_DURATION_RANGES_MS`. -/
def paperPlanes : Fin 3 → Text × ℕ × ℕ
  | 0 => ("初级", 100000, 200000)
  | 1 => ("中级", 90000, 180000)
  | 2 => ("高级", 70000, 130000)

/-- `build_paper_plane_arguments`. -/
def buildPaperPlaneArguments (digest : Digest) : List (Text × Json) :=
  let (name, minimum, maximum) := paperPlanes (Fin.ofNat 3 (digest 0).val)
  [("planeName", .str name), ("useTimeMs", .int (stableInt digest 1 minimum maximum)),
    ("isComplete", .bool true)]

/-- `build_darts_arguments`. -/
def buildDartsArguments (digest : Digest) : List (Text × Json) :=
  let first := (digest 8).val % 10
  let second := first + (digest 9).val % (10 - first)
  let counts := [first, second - first, 9 - second]
  [("score", .int (stableInt digest 0 1 50)),
    ("darts", .arr ((dartItems.zip counts).map fun (dartItem, count) ↦
      .obj [("dartItem", .str dartItem), ("count", .int count)])),
    ("allowPurchaseWhenInsufficient", .bool false)]

/-- `build_shooting_arguments`. -/
def buildShootingArguments (digest : Digest) : List (Text × Json) :=
  let (distance, weapon, posture) := shootingProjects (Fin.ofNat 6 (digest 0).val)
  [("distance", .str distance), ("weapon", .str weapon), ("posture", .str posture),
    ("score", .int (stableInt digest 1 30 80))]

/-- `build_dance_arguments`. -/
def buildDanceArguments (digest : Digest) : List (Text × Json) :=
  [("score", .int (stableInt digest 0 70 120))]

/-- `_specialized_arguments_for_context`. -/
def specializedArgumentsForContext (sha256 : Text → Digest) (context : AgentContext)
    (skillName schemaVersion : String) : Option (List (Text × Json)) :=
  if schemaVersion ≠ "v1" then none
  else if skillName = "paper_plane_auto_schedule" then
    some (buildPaperPlaneArguments (sha256 (paperPlaneArgumentsSeed context)))
  else
    let digest := sha256 (competitiveActivitySeed context skillName)
    if skillName = "darts_auto_schedule" then some (buildDartsArguments digest)
    else if skillName = "shooting_auto_schedule" then some (buildShootingArguments digest)
    else if skillName = "dance_auto_schedule" then some (buildDanceArguments digest)
    else none

/-- Only the first version of the four activities has built arguments. -/
theorem specializedArgumentsForContext_isSome {sha256 : Text → Digest} {context : AgentContext}
    {skillName schemaVersion : String} :
    (specializedArgumentsForContext sha256 context skillName schemaVersion).isSome ↔
      skillName ∈ specializedArgumentSkills ∧ schemaVersion = "v1" := by
  unfold specializedArgumentsForContext
  split_ifs <;> simp_all [specializedArgumentSkills]

/-! ## The skills with required arguments -/

/-- `_REQUIRED_ACTIVITY_ARGUMENTS`. -/
def requiredActivityArguments : List (String × List Text) :=
  [("wish_board_auto_schedule", ["boardName", "wish"]),
    ("coffee_auto_schedule", ["coffeeName"]),
    ("seat_sit", ["sceneId", "chairId"]),
    ("seat_get_out", ["sceneId", "chairId"])]

/-- A text that is not blank. -/
def Json.isFilledText : Json → Bool
  | .str text => !text.isBlank
  | _ => false

/-- A positive number of type `int`. -/
def Json.isPositiveInt : Json → Bool
  | .int value => 0 < value
  | _ => false

/-- `_required_activity_arguments_are_valid`. -/
def requiredActivityArgumentsAreValid (skillName : String) (arguments : List (Text × Json)) :
    Bool :=
  match requiredActivityArguments.lookup skillName with
  | none => true
  | some required => required.all fun argument ↦ (Json.get? arguments argument).any fun value ↦
    if skillName = "wish_board_auto_schedule" ∨ skillName = "coffee_auto_schedule" then
      value.isFilledText
    else value.isPositiveInt

end LlmGateway
