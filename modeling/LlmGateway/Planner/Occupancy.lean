import LlmGateway.Planner.SceneIndex
import LlmGateway.Relational.Distinct
import LlmGateway.Relational.Outcome

/-!
# The occupancy of the activities

How many roles an activity takes, and the order in which the activities are tried that have room
(`activity_capacity.py`): the fuller an activity, the less its weight. The weights are doubles; the
logarithm by which they are turned into priorities is a parameter.
-/

namespace LlmGateway.Occupancy

open Relational

/-- `ActivityCapacityScope`. -/
inductive Scope where
  | gateway | scene | sceneInstance
deriving DecidableEq, Repr

/-- `ActivityCapacityRule`. -/
structure Rule where
  skillName : String
  sceneId : Option ℤ
  scope : Scope
  limit : ℕ
  baseWeight : ℚ
  limit_pos : 0 < limit
  baseWeight_pos : 0 < baseWeight

/-- `ActivityCapacityPolicy`. -/
structure Policy where
  rules : List Rule
  unrestrictedWeights : List (String × ℚ)
  rules_nodup : (rules.map fun rule ↦ (rule.skillName, rule.sceneId)).Nodup
  weights_nodup : (unrestrictedWeights.map (·.1)).Nodup
  weights_pos : ∀ weight ∈ unrestrictedWeights, 0 < weight.2

/-- `rule_for`. -/
def Policy.ruleFor (policy : Policy) (skillName : String) (sceneId : Option ℤ) : Option Rule :=
  (policy.rules.find? fun rule ↦ rule.skillName = skillName ∧ rule.sceneId = sceneId).orElse
    fun _ ↦ policy.rules.find? fun rule ↦ rule.skillName = skillName ∧ rule.sceneId = none

/-- `base_weight_for`. -/
def Policy.baseWeightFor (policy : Policy) (skillName : String) (sceneId : Option ℤ) : ℚ :=
  match policy.ruleFor skillName sceneId with
  | some rule => rule.baseWeight
  | none => (policy.unrestrictedWeights.lookup skillName).getD 1

/-- The first of the values under some pairs of keys that is a text or an integer and not blank. -/
def firstIdentityText (snapshot : List (Text × Json)) :
    List (Text × Text) → Except String (Option Text)
  | [] => .ok none
  | (canonical, legacy) :: pairs => do
    match ← Scene.identityText (snapshotValue snapshot canonical legacy) with
    | some text => return some text
    | none => firstIdentityText snapshot pairs

/-- `scene_instance_id_from_snapshot`. -/
def sceneInstanceIdFromSnapshot (snapshot : List (Text × Json)) : Except String (Option Text) :=
  firstIdentityText snapshot [("SceneInstanceId", "sceneInstanceId"),
    ("SceneInstance", "sceneInstance"), ("InstanceId", "instanceId"), ("LineId", "lineId")]

/-- `scene_scope` of a capacity key. -/
def sceneScope : Option ℤ → Except String Text
  | none => .ok "unknown"
  | some sceneId => writeInt sceneId

/-- `capacity_key`. -/
def Policy.capacityKey (digits : DigitTable) (policy : Policy) (gatewayId : Text)
    (skillName : String) (sessionSnapshot : List (Text × Json)) : Except String (Option Text) := do
  let sceneId ← Scene.sceneIdFromSnapshot digits sessionSnapshot
  match policy.ruleFor skillName sceneId with
  | none => return none
  | some rule =>
    if rule.scope = .gateway then
      return some (Text.join ":" [gatewayId, "skill", skillName])
    else do
      let sceneScope ← sceneScope sceneId
      if rule.scope = .scene then
        return some (Text.join ":" [gatewayId, "scene", sceneScope, "skill", skillName])
      else do
        let instanceScope := (← sceneInstanceIdFromSnapshot sessionSnapshot).getD "default"
        return some (Text.join ":" [gatewayId, "scene", sceneScope, "instance", instanceScope,
          "skill", skillName])

/-- `ActivityCapacitySnapshot`. -/
structure Snapshot where
  sceneId : Option ℤ
  activeBySkill : List (String × ℕ)
  policy : Policy

namespace Snapshot

variable (snapshot : Snapshot)

/-- `active_count`. -/
def activeCount (skillName : String) : ℕ := (snapshot.activeBySkill.lookup skillName).getD 0

/-- The limit of an activity, if it has one. -/
def limitFor (skillName : String) : Option ℕ :=
  (snapshot.policy.ruleFor skillName snapshot.sceneId).map (·.limit)

/-- `is_available`: no limit, or some of it remaining. -/
def isAvailable (skillName : String) : Bool :=
  (snapshot.limitFor skillName).all fun limit ↦ 0 < limit - snapshot.activeCount skillName

/-- `effective_weight`. -/
def effectiveWeight (skillName : String) : ℚ :=
  let baseWeight := snapshot.policy.baseWeightFor skillName snapshot.sceneId
  match snapshot.limitFor skillName with
  | none => baseWeight
  | some limit =>
    let remainingRatio :=
      max (roundDouble (1 - roundDouble (snapshot.activeCount skillName / limit))) 0
    roundDouble (roundDouble (baseWeight * remainingRatio) * remainingRatio)

/-- What is hashed for the priority of an activity. -/
def prioritySeed (identity planVersion : Text) (skillName : String) : Text :=
  Text.join ":" ["activity-capacity", identity, planVersion, skillName]

/-- The priority of an activity, with `-math.log(uniform) / weight` for eight bytes and a
weight. -/
def scored (sha256 : Text → Digest) (priority : ℕ → ℚ → WithTop ℚ) (identity : Text)
    (planVersion : ℤ) (skillName : String) : Except String (WithTop ℚ × String) := do
  let seed := prioritySeed identity (← writeInt planVersion) skillName
  if seed.isUtf8 then
    return (priority ((sha256 seed).toInt 0) (snapshot.effectiveWeight skillName), skillName)
  else throw "UnicodeEncodeError"

/-- `weighted_order`. -/
def weightedOrder (sha256 : Text → Digest) (priority : ℕ → ℚ → WithTop ℚ) (candidates : List String)
    (identity : Text) (planVersion : ℤ) : Except String (List String) := do
  let weighted := (firstSeen candidates).filter (0 < snapshot.effectiveWeight ·)
  let scores ← weighted.mapM (snapshot.scored sha256 priority identity planVersion)
  return (scores.mergeSort fun first second ↦
    first.1 < second.1 ∨ first.1 = second.1 ∧ first.2 ≤ second.2).map (·.2)

section Order

variable {snapshot} {sha256 : Text → Digest} {priority : ℕ → ℚ → WithTop ℚ}
  {candidates ordered : List String} {identity : Text} {planVersion : ℤ}

theorem isUtf8_prioritySeed {versionText : String} {skillName : String}
    (hidentity : identity.isUtf8 = true) :
    (prioritySeed identity versionText skillName).isUtf8 = true := by
  have hpart (part : String) : (Text.ofString part).codePoints.all (fun c ↦
      c.val < 0xD800 ∨ 0xDFFF < c.val) = true := Text.isUtf8_ofString part
  unfold Text.isUtf8 at hidentity
  simp only [Text.isUtf8, prioritySeed, Text.join, List.intercalate, List.map_cons, List.map_nil,
    List.intersperse, List.flatten_cons, List.flatten_nil, List.all_append, List.all_nil, hpart,
    hidentity, Bool.and_self]

/-- The order has the activities that have a weight. -/
theorem perm_of_weightedOrder (hnodup : candidates.Nodup)
    (h : snapshot.weightedOrder sha256 priority candidates identity planVersion = .ok ordered) :
    ordered.Perm (candidates.filter (0 < snapshot.effectiveWeight ·)) := by
  obtain ⟨scores, hscores, hordered⟩ := bind_eq_ok_iff.1 h
  cases hordered
  have hnames : ∀ skillName score, snapshot.scored sha256 priority identity planVersion skillName =
      .ok score → score.2 = skillName := by
    intro skillName score hscore
    obtain ⟨versionText, -, hscore⟩ := bind_eq_ok_iff.1 hscore
    simp only at hscore
    split_ifs at hscore
    cases hscore
    rfl
  have hweighted := map_of_mapM_eq_ok hnames hscores
  have hsorted := (List.mergeSort_perm scores fun first second ↦
    first.1 < second.1 ∨ first.1 = second.1 ∧ first.2 ≤ second.2).map (·.2)
  rw [hweighted] at hsorted
  exact hsorted.trans ((firstSeen_perm hnodup).filter _)

theorem exists_weightedOrder (hidentity : identity.isUtf8 = true)
    (hversion : planVersion.natAbs < 10 ^ maxStrDigits) :
    ∃ ordered, snapshot.weightedOrder sha256 priority candidates identity planVersion =
      .ok ordered := by
  have hscored : ∀ skillName, ∃ score,
      snapshot.scored sha256 priority identity planVersion skillName = .ok score := by
    intro skillName
    rw [scored, writeInt, if_neg (not_le.2 hversion)]
    refine ⟨_, if_pos ?_⟩
    exact isUtf8_prioritySeed hidentity
  obtain ⟨scores, hscores⟩ := exists_mapM_eq_ok fun skillName _ ↦ hscored skillName
  exact ⟨_, bind_eq_ok_iff.2 ⟨scores, hscores, rfl⟩⟩

end Order

end Snapshot

end LlmGateway.Occupancy
