import LlmGateway.Planner.Occupancy
import LlmGateway.Planner.SceneIndex
import LlmGateway.Planner.StepChecks

/-!
# The plan without the model

`_safe_fallback_plan` (`activity_planner.py`): three of the published skills, of which the first one
is authorized, in an order that depends on the role, and a social opportunity behind them. The
error that its callers handle is told from every other one.
-/

namespace LlmGateway

open Relational

/-! ## Proposals -/

namespace ActivityPlanProposalStep

/-- `validate_action_identity` of a proposed step. -/
def validateActionIdentity (step : ActivityPlanProposalStep) : Except String Unit := do
  raiseIf (step.skillName.isNone ≠ step.schemaVersion.isNone)
    "skillName and schemaVersion must be supplied together"
  raiseIf (step.skillName = some "nearby_chat_send")
    "direct chat skill is not an activity plan step"
  raiseIf (step.sceneTargetId.isSome ∧ step.skillName ≠ some "move_to")
    "sceneTargetId is only valid for move_to"
  raiseIf (∃ name ∈ step.skillName, name ∉ canonicalNonChatSkills)
    "skillName is not in the canonical non-chat catalog"
  raiseIf (step.skillName.isSome ∧ step.schemaVersion ≠ some "v1")
    "activity skill schemaVersion must be v1"
  raiseIf (step.skillName = none ∧ step.phase ≠ "social")
    "only a social opportunity step may omit skillName"

/-- The fields of a proposed step, and then `validate_action_identity`. -/
def validate (raw : ActivityPlanProposalStep) : Except String ActivityPlanProposalStep := do
  let stepId ← nonEmptyString 128 raw.stepId
  let phase ← nonEmptyString 64 raw.phase
  let skillName ← optionalNonEmptyString 128 raw.skillName
  let schemaVersion ← optionalNonEmptyString 128 raw.schemaVersion
  let sceneTargetId ← optionalNonEmptyString 256 raw.sceneTargetId
  let intent ← nonEmptyString 512 raw.intent
  let step : ActivityPlanProposalStep :=
    { stepId, phase, skillName, schemaVersion, sceneTargetId, intent }
  step.validateActionIdentity
  return step

end ActivityPlanProposalStep

namespace ActivityPlanProposal

/-- `validate_steps`. -/
def validateSteps (proposal : ActivityPlanProposal) : Except String Unit := do
  let executableCount := (proposal.steps.map (·.skillName)).countP Option.isSome
  raiseIf (¬(proposal.steps.map (·.stepId)).Nodup) "stepId values must be unique"
  validateSocialOpportunityLayout (proposal.steps.map (·.toPlanStep))
  raiseIf (executableCount < 3) "activity plan requires at least three executable steps"
  raiseIf (6 < executableCount) "activity plan cannot contain more than six executable steps"
  raiseIf (7 < proposal.steps.length) "activity plan contains too many total steps"

/-- `ActivityPlanProposal.model_validate`. -/
def validate (raw : ActivityPlanProposal) : Except String ActivityPlanProposal := do
  let goalId ← nonEmptyString 128 raw.goalId
  let goalSummary ← nonEmptyString 512 raw.goalSummary
  let steps ← raw.steps.mapM ActivityPlanProposalStep.validate
  let proposal : ActivityPlanProposal := { goalId, goalSummary, steps }
  proposal.validateSteps
  return proposal

end ActivityPlanProposal

namespace Fallback

open Occupancy (Snapshot)

/-- `ActivityPlanValidationError`, or the name of another exception. -/
inductive PlanError where
  | activityPlanValidation (message : String)
  | raised (error : String)
deriving DecidableEq, Repr

/-- An exception that is not handled. -/
def raised {α : Type} (x : Except String α) : Except PlanError α := x.mapError .raised

/-- What the planner computes with and does not define itself. -/
structure Runtime where
  digits : DigitTable
  sha256 : Text → Digest
  /-- `-math.log(uniform) / weight`, for the bytes of the uniform number. -/
  priority : ℕ → ℚ → WithTop ℚ

/-- `_SAFE_FALLBACK_SKILL_ORDER`. -/
def safeFallbackSkillOrder : List String :=
  ["dance_auto_schedule", "hot_air_balloon_auto_schedule", "coffee_auto_schedule",
    "darts_auto_schedule", "shooting_auto_schedule", "paper_plane_auto_schedule",
    "draw_lots_auto_schedule", "wish_board_auto_schedule", "helicopter_auto_schedule",
    "elevator_auto_schedule", "seat_sit", "sign_in", "jump", "observe_state", "play_action",
    "move_to", "stop_move", "hot_air_balloon_exit", "helicopter_exit", "scene_tornado",
    "seat_get_out"]

/-! ## Values of the snapshot -/

/-- `str(scene_id) == "1"`. -/
def isFirstScene : Option Json → Except String Bool
  | some (.int sceneId) => (writeInt sceneId).map fun text ↦ text = Text.ofString "1"
  | some (.str sceneId) => .ok (sceneId = Text.ofString "1")
  | _ => .ok false

/-- `_is_lobby`. -/
def isLobby (snapshot : List (Text × Json)) : Except String Bool := do
  let isFirst ← isFirstScene (snapshotValue snapshot "SceneId" "sceneId")
  return isFirst ∧
    (∃ sceneName ∈ snapshotValue snapshot "SceneName" "sceneName", sceneName.FoldsTo "lobby") ∧
    ∃ navigationAvailable ∈ snapshotValue snapshot "NavigationAvailable" "navigationAvailable",
      navigationAvailable.MeansFalse

/-- `_stable_role_bucket` of the planner. -/
def stableRoleBucket (digits : DigitTable) (identity : Text) : Except String ℕ :=
  let trailingNumber := identity.strip.trailingDigits digits
  if trailingNumber ≠ [] then readDigits digits trailingNumber
  else .ok (identity.codePoints.zipIdx.map fun (char, index) ↦ (index + 1) * char.val).sum

/-- `_stable_rotation`. -/
def stableRotation (digits : DigitTable) (identity : Text) (size : ℕ) : Except String ℕ :=
  if size = 0 then .ok 0 else (stableRoleBucket digits identity).map (· % size)

/-! ## The skills -/

/-- The skills of the lease that a plan may call; without a target of the catalogue that is given,
there is no walk. -/
def availableSkills (context : AgentContext) (sceneCatalog : Option Scene.Catalog)
    (targetId : Option String) : List (String × String) :=
  let available := context.available.filter (·.1 ∈ canonicalNonChatSkills)
  if sceneCatalog.isSome ∧ targetId = none then available.filter (· ≠ ("move_to", "v1"))
  else available

/-- `ordered`. -/
def orderedSkills (available : List (String × String)) (lobby : Bool)
    (capacity : Option Snapshot) : List String :=
  safeFallbackSkillOrder.filter fun skillName ↦
    available.contains (skillName, "v1") = true ∧ (lobby = true ∨ skillName ≠ "scene_tornado") ∧
      capacity.all (·.isAvailable skillName)

section Arrangement

variable (runtime : Runtime) (identity : Text) (version : ℤ) (capacity : Option Snapshot)

/-- `first`. -/
def firstSkill (authorized : String → Bool) (available : List (String × String)) (lobby : Bool)
    (ordered : List String) : Except PlanError String :=
  if lobby then
    if available.contains ("scene_tornado", "v1") && authorized "scene_tornado" then
      .ok "scene_tornado"
    else .error (.activityPlanValidation
      "Lobby activity fallback requires an authorized scene_tornado:v1")
  else
    match ordered.filter authorized with
    | [] => .error (.activityPlanValidation
        "Gateway lease does not authorize an available activity skill")
    | authorizedFirstSteps =>
      match capacity with
      | none => do
        let rotation ← raised (stableRotation runtime.digits identity authorizedFirstSteps.length)
        match authorizedFirstSteps[rotation]? with
        | some first => return first
        | none => throw (.raised "IndexError")
      | some snapshot => do
        let weighted ← raised (snapshot.weightedOrder runtime.sha256 runtime.priority
          authorizedFirstSteps identity version)
        match weighted with
        | [] => throw (.activityPlanValidation "No activity has remaining capacity")
        | first :: _ => return first

/-- The other skills, by their weights. -/
def remainingSkills (first : String) (ordered : List String) : Except String (List String) :=
  match capacity with
  | none => .ok (ordered.filter (· ≠ first))
  | some snapshot => snapshot.weightedOrder runtime.sha256 runtime.priority
      (ordered.filter (· ≠ first)) identity version

/-- The other skills in the order of the role, unless the template of the lobby is used. -/
def arrangedSkills (template : Bool) (first : String) (remaining : List String) :
    Except String (List String) :=
  if template then .ok remaining
  else if first ≠ "move_to" ∧ "move_to" ∈ remaining then
    let others := remaining.erase "move_to"
    (stableRotation runtime.digits identity (others.length + 1)).map fun rotation ↦
      others.insertIdx rotation "move_to"
  else (stableRotation runtime.digits identity remaining.length).map fun rotation ↦
    remaining.drop rotation ++ remaining.take rotation

end Arrangement

/-- `selected`: a walk is among them if there is one. -/
def selectedSkills (ordered : List String) (first : String) (remaining : List String) :
    List String :=
  let selected := first :: remaining.take 2
  if "move_to" ∈ ordered ∧ "move_to" ∉ selected then selected.dropLast ++ ["move_to"]
  else selected

/-! ## The plan -/

/-- `step_id_for`. -/
def stepIdFor (index : ℕ) (skillName : String) : String :=
  let stableIds := [("scene_tornado", "arrival"), ("dance_auto_schedule", "dance"),
    ("hot_air_balloon_auto_schedule", "balloon")]
  (stableIds.lookup skillName).getD ("fallback-" ++ toString (index + 1) ++ "-" ++ skillName)

/-- `_phase_for_skill`. -/
def phaseForSkill (skillName : String) : String :=
  if skillName = "scene_tornado" then "arrival"
  else if skillName ∈ ["hot_air_balloon_auto_schedule", "helicopter_auto_schedule",
      "elevator_auto_schedule"] then "transport"
  else if skillName ∈ ["jump", "move_to", "stop_move"] then "movement"
  else if skillName ∈ ["hot_air_balloon_exit", "helicopter_exit", "seat_get_out"] then "recovery"
  else "activity"

/-- The proposed step of a selected skill. -/
def fallbackStep (targetId : Option String) (index : ℕ) (skillName : String) :
    ActivityPlanProposalStep where
  stepId := stepIdFor index skillName
  phase := phaseForSkill skillName
  skillName := some skillName
  schemaVersion := some "v1"
  sceneTargetId := if skillName = "move_to" then targetId else none
  intent := if skillName = "move_to" then "Walk to a different authorized scene point"
    else "Continue the hosted activity with " ++ skillName

/-- The last step. -/
def socialOpportunity : ActivityPlanProposalStep where
  stepId := "social-opportunity"
  phase := "social"
  skillName := none
  schemaVersion := none
  sceneTargetId := none
  intent := "Remain available for a nearby friend chat opportunity"

def fallbackProposal (selected : List String) (targetId : Option String) :
    ActivityPlanProposal where
  goalId := "plaza_social"
  goalSummary := "Complete a short sequence using only skills published by the Gateway"
  steps := selected.mapIdx (fallbackStep targetId) ++ [socialOpportunity]

/-- The skills of the plan, in their order. -/
def plannedSkills (runtime : Runtime) (identity : Text) (version : ℤ) (capacity : Option Snapshot)
    (authorized : String → Bool) (available : List (String × String)) (lobby template : Bool)
    (ordered : List String) : Except PlanError (List String) := do
  let first ← firstSkill runtime identity version capacity authorized available lobby ordered
  let remaining ← raised (remainingSkills runtime identity version capacity first ordered)
  let arranged ← raised (arrangedSkills runtime identity template first remaining)
  return selectedSkills ordered first arranged

/-- The proposal of the skills, validated and materialized. -/
def materializedPlan (planId : String) (version : ℤ) (available : List (String × String))
    (lobby : Bool) (targetId : Option String) (selected : List String) :
    Except PlanError ActivityPlan := do
  let proposal ← raised (fallbackProposal selected targetId).validate
  (materializeActivityPlan proposal planId version available lobby).mapError
    .activityPlanValidation

/-- `_safe_fallback_plan`. -/
def safeFallbackPlan (runtime : Runtime) (stepAuthorizer : ActivityStepAuthorizer)
    (context : AgentContext) (planId : String) (version : ℤ)
    (sceneCatalog : Option Scene.Catalog) (recentActions : List (List (Text × Json)))
    (capacity : Option Snapshot) : Except PlanError ActivityPlan := do
  let lobby ← raised (isLobby context.sessionSnapshot)
  let sceneTargets ← raised (Scene.candidatesForContext runtime.digits runtime.sha256 context
    sceneCatalog version recentActions 1)
  let targetId := sceneTargets.head?.map (·.targetId)
  let available := availableSkills context sceneCatalog targetId
  let ordered := orderedSkills available lobby capacity
  if ordered.length < 3 then
    throw (.activityPlanValidation
      "Gateway must publish at least three canonical non-chat skills for an activity plan")
  else do
    let identity ← raised (Scene.roleIdentityFromSnapshot context.sessionSnapshot
      context.sessionId)
    let selected ← plannedSkills runtime identity version capacity (stepAuthorizer context · "v1")
      available lobby (lobby && sceneCatalog.isNone) ordered
    materializedPlan planId version available lobby targetId selected

/-! ## How the skills are arranged -/

section Arranged

variable {runtime : Runtime} {identity : Text} {version : ℤ} {capacity : Option Snapshot}
  {first : String} {ordered remaining : List String}

@[simp]
theorem raised_ok {α : Type} {a : α} : raised (.ok a) = .ok a := rfl

theorem raised_eq_ok_iff {α : Type} {x : Except String α} {a : α} :
    raised x = .ok a ↔ x = .ok a := mapError_eq_ok_iff

theorem exists_stableRotation {digits : DigitTable}
    (htrailing : (identity.strip.trailingDigits digits).length ≤ maxStrDigits) (size : ℕ) :
    ∃ rotation, stableRotation digits identity size = .ok rotation ∧
      (rotation < size ∨ rotation = 0) := by
  unfold stableRotation
  split_ifs with hsize
  · exact ⟨0, rfl, Or.inr rfl⟩
  · obtain ⟨bucket, hbucket⟩ : ∃ bucket, stableRoleBucket digits identity = .ok bucket := by
      unfold stableRoleBucket
      simp only
      split_ifs
      · exact exists_readDigits htrailing decimal_of_mem_trailingDigits
      · exact ⟨_, rfl⟩
    rw [hbucket]
    exact ⟨bucket % size, rfl, Or.inl (Nat.mod_lt _ (Nat.pos_of_ne_zero hsize))⟩

/-- The arrangement changes the order of the skills only. -/
theorem exists_arrangedSkills {template : Bool}
    (htrailing : (identity.strip.trailingDigits runtime.digits).length ≤ maxStrDigits) :
    ∃ arranged, arrangedSkills runtime identity template first remaining = .ok arranged ∧
      arranged.Perm remaining := by
  unfold arrangedSkills
  split_ifs with htemplate hmove
  · exact ⟨remaining, rfl, List.Perm.refl _⟩
  · obtain ⟨rotation, hrotation, hlt⟩ :=
      exists_stableRotation htrailing ((remaining.erase "move_to").length + 1)
    simp only [hrotation]
    refine ⟨_, rfl, ?_⟩
    have hle : rotation ≤ (remaining.erase "move_to").length := by omega
    exact (List.perm_insertIdx _ _ hle).trans (List.perm_cons_erase hmove.2).symm
  · obtain ⟨rotation, hrotation, -⟩ := exists_stableRotation htrailing remaining.length
    rw [hrotation]
    refine ⟨_, rfl, List.perm_append_comm.trans ?_⟩
    rw [List.take_append_drop]

/-- The skill has a weight, if there are weights. -/
def HasWeight (capacity : Option Snapshot) (skillName : String) : Bool :=
  capacity.all fun snapshot ↦ 0 < snapshot.effectiveWeight skillName

theorem exists_remainingSkills (hnodup : ordered.Nodup) (hutf8 : identity.isUtf8 = true)
    (hversion : version.natAbs < 10 ^ maxStrDigits) :
    ∃ remaining, remainingSkills runtime identity version capacity first ordered = .ok remaining ∧
      remaining.Perm ((ordered.filter (· ≠ first)).filter (HasWeight capacity ·)) := by
  cases capacity with
  | none =>
    refine ⟨_, rfl, ?_⟩
    have hall : ∀ skillName ∈ ordered.filter (· ≠ first), HasWeight none skillName = true :=
      fun _ _ ↦ rfl
    rw [List.filter_eq_self.2 hall]
  | some snapshot =>
    obtain ⟨weighted, hweighted⟩ := @Snapshot.exists_weightedOrder snapshot runtime.sha256
      runtime.priority (ordered.filter (· ≠ first)) identity version hutf8 hversion
    exact ⟨weighted, hweighted, Snapshot.perm_of_weightedOrder (hnodup.filter _) hweighted⟩

/-- Outside the lobby the first skill is an authorized one with a weight, if there is one. -/
theorem firstSkill_spec {authorized : String → Bool} {available : List (String × String)}
    (hnodup : ordered.Nodup) (hutf8 : identity.isUtf8 = true)
    (htrailing : (identity.strip.trailingDigits runtime.digits).length ≤ maxStrDigits)
    (hversion : version.natAbs < 10 ^ maxStrDigits) :
    (∃ first ∈ ordered, authorized first = true ∧ HasWeight capacity first = true ∧
      firstSkill runtime identity version capacity authorized available false ordered =
        .ok first) ∨
      (∀ skillName ∈ ordered, authorized skillName = true →
        HasWeight capacity skillName = false) ∧
        ∃ message, firstSkill runtime identity version capacity authorized available false ordered =
          .error (.activityPlanValidation message) := by
  unfold firstSkill
  simp only [Bool.false_eq_true, if_false]
  cases hauthorized : ordered.filter authorized with
  | nil =>
    refine Or.inr ⟨fun skillName hskill hauth ↦ ?_, _, rfl⟩
    have hmem := List.mem_filter.2 ⟨hskill, hauth⟩
    rw [hauthorized] at hmem
    exact absurd hmem List.not_mem_nil
  | cons head tail =>
    have hmem {skillName : String} (h : skillName ∈ head :: tail) :
        skillName ∈ ordered ∧ authorized skillName = true := by
      rwa [← hauthorized, List.mem_filter] at h
    cases capacity with
    | none =>
      obtain ⟨rotation, hrotation, hlt⟩ := exists_stableRotation htrailing (head :: tail).length
      have hlt : rotation < (head :: tail).length := by
        have hpos := List.length_pos_of_ne_nil (List.cons_ne_nil head tail)
        omega
      obtain ⟨hordered, hauth⟩ := hmem (List.getElem_mem hlt)
      refine Or.inl ⟨_, hordered, hauth, rfl, ?_⟩
      refine bind_eq_ok_iff.2 ⟨rotation, raised_eq_ok_iff.2 hrotation, ?_⟩
      simp only [List.getElem?_eq_getElem hlt]
      rfl
    | some snapshot =>
      obtain ⟨weighted, hweighted⟩ := @Snapshot.exists_weightedOrder snapshot runtime.sha256
        runtime.priority (head :: tail) identity version hutf8 hversion
      have hheads : (head :: tail).Nodup := hauthorized ▸ hnodup.filter _
      have hperm := Snapshot.perm_of_weightedOrder hheads hweighted
      have hweights {skillName : String} : skillName ∈ weighted ↔
          skillName ∈ head :: tail ∧ HasWeight (some snapshot) skillName = true := by
        rw [hperm.mem_iff, List.mem_filter]
        rfl
      simp only [hweighted, raised, Except.mapError]
      cases weighted with
      | nil =>
        refine Or.inr ⟨fun skillName hskill hauth ↦ ?_, _, rfl⟩
        have hmem := List.mem_filter.2 ⟨hskill, hauth⟩
        rw [hauthorized] at hmem
        by_contra hweight
        exact List.not_mem_nil (hweights.2 ⟨hmem, Bool.eq_true_of_not_eq_false hweight⟩)
      | cons first rest =>
        obtain ⟨hfirst, hweight⟩ := hweights.1 List.mem_cons_self
        exact Or.inl ⟨first, (hmem hfirst).1, (hmem hfirst).2, hweight, rfl⟩

/-- With enough other skills, three different ones are selected, and a walk if there is one. -/
theorem selectedSkills_spec (hnodup : (first :: remaining).Nodup) (hlength : 2 ≤ remaining.length)
    (hremaining : ∀ skillName ∈ remaining, skillName ∈ ordered) :
    ∃ second third, selectedSkills ordered first remaining = [first, second, third] ∧
      [first, second, third].Nodup ∧ second ∈ ordered ∧ third ∈ ordered ∧
        ("move_to" ∈ ordered → "move_to" ∈ [first, second, third]) := by
  obtain ⟨second, third, rest, rfl⟩ : ∃ second third rest, remaining = second :: third :: rest := by
    match remaining, hlength with
    | second :: third :: rest, _ => exact ⟨second, third, rest, rfl⟩
  have hthree : [first, second, third].Nodup :=
    List.Nodup.sublist (List.sublist_append_left [first, second, third] rest) hnodup
  simp only [List.forall_mem_cons] at hremaining
  by_cases hwalk : "move_to" ∈ ordered ∧ "move_to" ∉ [first, second, third]
  · refine ⟨second, "move_to", if_pos hwalk, ?_, hremaining.1, hwalk.1, fun _ ↦ ?_⟩
    · obtain ⟨hfirst, hsecond, -⟩ : "move_to" ≠ first ∧ "move_to" ≠ second ∧
          "move_to" ∉ [third] := by
        simpa only [List.mem_cons, not_or] using hwalk.2
      simp only [List.nodup_cons, List.mem_cons, not_or] at hthree ⊢
      exact ⟨⟨hthree.1.1, hfirst.symm, hthree.1.2.2⟩, ⟨hsecond.symm, List.not_mem_nil⟩,
        List.not_mem_nil, List.nodup_nil⟩
    · exact List.mem_cons_of_mem _ (List.mem_cons_of_mem _ List.mem_cons_self)
  · refine ⟨second, third, if_neg hwalk, hthree, hremaining.1, hremaining.2.1, fun hmem ↦ ?_⟩
    by_contra hnot
    exact hwalk ⟨hmem, hnot⟩

end Arranged

end Fallback

end LlmGateway
