import LlmGateway.Activity.Repository

/-!
# The actions that the planner forms

The planner decides without the model where it can (`decision_service.py`): it leaves the initial
room, carries out the current step of the activity plan, or chooses one of the local activities.
The scene catalogue, the occupancy of the activities and the allocation of scene targets are
parameters, of which nothing is assumed.
-/

namespace LlmGateway

/-! ## Values of a snapshot -/

/-- `text.casefold()`, as far as it is an ASCII text. -/
def Text.casefold (text : Text) : List ℕ :=
  text.codePoints.flatMap fun c ↦ (casefoldChar (Char.ofNat c.val)).map (·.toNat)

/-- `text.casefold() == folded`. -/
def Text.FoldsTo (text : Text) (folded : String) : Prop :=
  text.casefold = folded.toList.map (·.toNat)

instance (text : Text) : DecidablePred text.FoldsTo := fun _ ↦
  inferInstanceAs (Decidable (_ = _))

/-- The text is this ASCII text, whatever its case. -/
def Json.FoldsTo (folded : String) : Json → Prop
  | .str text => text.FoldsTo folded
  | _ => False

instance (folded : String) : DecidablePred (Json.FoldsTo folded) := fun value ↦ by
  unfold Json.FoldsTo
  split <;> infer_instance

/-- `value == number`, where a truth value is a number too. -/
def Json.IsNumber (number : ℤ) : Json → Prop
  | .bool value => (if value then 1 else 0) = number
  | .int value => value = number
  | .float mantissa exponent => mantissa * 2 ^ exponent.toNat = number * 2 ^ (-exponent).toNat
  | _ => False

instance (number : ℤ) : DecidablePred (Json.IsNumber number) := fun value ↦ by
  unfold Json.IsNumber
  split <;> infer_instance

/-- `value in (False, "false", "False", 0)`. -/
def Json.MeansFalse (value : Json) : Prop :=
  value.IsNumber 0 ∨ value = .str "false" ∨ value = .str "False"

instance : DecidablePred Json.MeansFalse := fun _ ↦ inferInstanceAs (Decidable (_ ∨ _ ∨ _))

/-- `value in (True, "true", "True", 1)`. -/
def Json.MeansTrue (value : Json) : Prop :=
  value.IsNumber 1 ∨ value = .str "true" ∨ value = .str "True"

instance : DecidablePred Json.MeansTrue := fun _ ↦ inferInstanceAs (Decidable (_ ∨ _ ∨ _))

/-- A number that is no truth value. -/
def Json.isCoordinate : Json → Bool
  | .int _ | .float .. => true
  | _ => false

/-- `fields[key] = value`. -/
def Json.set (fields : List (Text × Json)) (key : Text) (value : Json) : List (Text × Json) :=
  if key ∈ fields.map (·.1) then
    fields.map fun field ↦ if field.1 = key then (key, value) else field
  else fields ++ [(key, value)]

/-! ## Calls of skills -/

/-- The name of a skill, or of a schema, that an action may have. -/
def IsActionName (name : String) : Prop := 1 ≤ name.length ∧ name.length ≤ 128

instance : DecidablePred IsActionName := fun _ ↦ inferInstanceAs (Decidable (_ ∧ _))

/-- `GatewayV2CallSkillAction` accepts the call: the bounds of the names, and
`validate_known_skill_shapes`. -/
def CallSkillIsValid (skillName schemaVersion : String) (arguments : List (Text × Json)) : Prop :=
  IsActionName skillName ∧ IsActionName schemaVersion ∧
    (skillName = "play_action" → (∃ actionId ∈ Json.get? arguments "actionId",
      actionId.isFilledText = true) ∧ Json.get? arguments "action" = none) ∧
    (skillName = "move_to" → ∃ target ∈ Json.get? arguments "target",
      match target with
      | .obj fields => ∀ axis ∈ (["x", "y", "z"] : List Text),
          ∃ coordinate ∈ Json.get? fields axis, coordinate.isCoordinate = true
      | _ => False)

instance (skillName schemaVersion : String) :
    DecidablePred (CallSkillIsValid skillName schemaVersion) := fun arguments ↦ by
  have hplaces (target : Json) : Decidable (match target with
      | .obj fields => ∀ axis ∈ (["x", "y", "z"] : List Text),
          ∃ coordinate ∈ Json.get? fields axis, coordinate.isCoordinate = true
      | _ => False) := by
    split <;> infer_instance
  unfold CallSkillIsValid
  infer_instance

/-- `SceneTarget`, with its coordinates as arguments. -/
structure SceneTarget where
  targetId : String
  sceneId : ℤ
  coordinates : List (Text × Json)

/-- The questions of the planner to `SceneCatalog`, and to the snapshot about its scene. -/
structure SceneCatalog where
  /-- `scene_id_from_snapshot`. -/
  sceneIdFromSnapshot : List (Text × Json) → Option ℤ
  /-- `get_movement_target`. -/
  movementTarget : String → Option SceneTarget
  /-- `trusted_movement_target_for_coordinates`. -/
  trustedMovementTarget : ℤ → List (Text × Json) → Option SceneTarget
  /-- `select_candidates` with the limit 1, for the role of a context, a scene and the version
  of a plan. -/
  selectCandidate : AgentContext → ℤ → ℤ → Option SceneTarget

/-- `ActivityCapacitySnapshot`. -/
structure ActivityCapacitySnapshot where
  isAvailable : String → Bool
  /-- `weighted_order`, for the version of the plan. -/
  weightedOrder : ℤ → List String → List String

section Candidates

variable (sha256 : Text → Digest) (context : AgentContext)

/-- `_skill_argument_hint`: the first one. -/
def AgentContext.firstHint (skillName schemaVersion : String) : Option SkillArgumentHint :=
  context.skillArgumentHints.find? fun hint ↦
    hint.skillName = skillName ∧ hint.schemaVersion = schemaVersion

/-- The arguments of `_gateway_v2_activity_skill_action` before the built ones. -/
def activityArguments (skillName schemaVersion : String) (sceneCatalog : Option SceneCatalog)
    (sceneTargetId : Option String) : Option (List (Text × Json)) :=
  match sceneCatalog with
  | some catalog =>
    if skillName = "move_to" then do
      let target ← sceneTargetId.bind catalog.movementTarget
      let sceneId ← catalog.sceneIdFromSnapshot context.sessionSnapshot
      if target.sceneId = sceneId then some [("target", .obj target.coordinates)] else none
    else some (((context.firstHint skillName schemaVersion).map (·.suggestedArgs)).getD [])
  | none => some (((context.firstHint skillName schemaVersion).map (·.suggestedArgs)).getD [])

/-- The arguments of a call: the built ones, where the skill has such. -/
def calledArguments (skillName schemaVersion : String) (arguments : List (Text × Json)) :
    Option (List (Text × Json)) :=
  if skillName ∈ specializedArgumentSkills then
    specializedArgumentsForContext sha256 context skillName schemaVersion
  else some arguments

/-- The call of a skill, if it is valid and permitted. -/
def permittedCall (skillName schemaVersion reason : String) (arguments : List (Text × Json)) :
    Option AgentAction :=
  (calledArguments sha256 context skillName schemaVersion arguments).bind fun arguments ↦
    if CallSkillIsValid skillName schemaVersion arguments ∧
        SkillIsPermitted sha256 context skillName schemaVersion arguments none then
      some ⟨reason, defaultTtlMs, .callSkill skillName schemaVersion arguments none⟩
    else none

/-- `_gateway_v2_activity_skill_action`. -/
def activitySkillAction (skillName schemaVersion reason : String)
    (sceneCatalog : Option SceneCatalog) (sceneTargetId : Option String) : Option AgentAction :=
  (activityArguments context skillName schemaVersion sceneCatalog sceneTargetId).bind
    (permittedCall sha256 context skillName schemaVersion reason)

/-- `gateway_v2_activity_skill_is_permitted`. -/
def activitySkillIsPermitted (skillName schemaVersion : String) : Bool :=
  let reason := "Validate the current activity step against the Gateway lease"
  if skillName = "move_to" then
    (permittedCall sha256 context skillName schemaVersion reason
      [("target", .obj [("x", .float 0 0), ("y", .float 0 0), ("z", .float 0 0)])]).isSome
  else (activitySkillAction sha256 context skillName schemaVersion reason none none).isSome

/-! ## The initial room -/

/-- The snapshot shows the initial room, from which the role has not yet tried to leave. -/
def AgentContext.InInitialRoom : Prop :=
  let value := snapshotValue context.sessionSnapshot
  context.leaseKind = "observation" ∧
    (∃ sceneId ∈ value "SceneId" "sceneId", sceneId = .int 1 ∨ sceneId = .str "1") ∧
    (∃ sceneName ∈ value "SceneName" "sceneName", sceneName.FoldsTo "lobby") ∧
    (∃ available ∈ value "NavigationAvailable" "navigationAvailable", available.MeansFalse) ∧
    (¬∃ executing ∈ value "SkillExecuting" "skillExecuting", executing.MeansTrue) ∧
    ¬∃ last ∈ value "LastSkillName" "lastSkillName", last.FoldsTo "scene_tornado"

instance : Decidable context.InInitialRoom :=
  inferInstanceAs (Decidable (_ ∧ (∃ _ ∈ _, _) ∧ (∃ _ ∈ _, _) ∧ (∃ _ ∈ _, _) ∧ (¬∃ _ ∈ _, _) ∧
    ¬∃ _ ∈ _, _))

/-- `_initial_room_transition_action`. -/
def initialRoomTransitionAction : Option AgentAction :=
  if context.InInitialRoom then do
    let skill ← context.availableSkills.find? fun skill ↦ skill.skillName = "scene_tornado"
    if SkillIsPermitted sha256 context skill.skillName skill.schemaVersion [] none then
      some ⟨"Move the autonomously hosted role from the initial room to the plaza", defaultTtlMs,
        .callSkill skill.skillName skill.schemaVersion [] none⟩
    else none
  else none

/-! ## Local activities -/

/-- `_LOCAL_FALLBACK_SKILL_ORDER`. -/
def localFallbackSkillOrder : List String :=
  ["dance_auto_schedule", "hot_air_balloon_auto_schedule", "coffee_auto_schedule",
    "darts_auto_schedule", "shooting_auto_schedule", "paper_plane_auto_schedule",
    "draw_lots_auto_schedule", "wish_board_auto_schedule", "helicopter_auto_schedule",
    "elevator_auto_schedule"]

/-- `_stable_context_bucket`. -/
def stableContextBucket : ℕ :=
  let identity : Text := match context.accountId with
    | some (.str account) => if account.isBlank then context.sessionId else account
    | _ => context.sessionId
  (sha256 (Text.join "|" [identity, context.sessionId, .ofNat context.controlGeneration,
    .ofNat context.stateVersion])).toInt 0

/-- `_staggered_wait_ms`. -/
def staggeredWaitMs : ℕ := 5000 + stableContextBucket sha256 context % 25001

/-- The published activities that are neither excluded nor full, nor the last one. -/
def localCandidates (capacity : Option ActivityCapacitySnapshot)
    (excludedSkillNames : List String) : List String :=
  (if capacity.isSome then localFallbackSkillOrder ++ ["move_to"]
    else localFallbackSkillOrder).filter fun skillName ↦
      (∃ skill ∈ context.availableSkills,
        skill.skillName = skillName ∧ skill.schemaVersion = "v1") ∧
        skillName ∉ excludedSkillNames ∧
        (∀ snapshot ∈ capacity, snapshot.isAvailable skillName = true) ∧
        ¬∃ last ∈ snapshotValue context.sessionSnapshot "LastSkillName" "lastSkillName",
          last.FoldsTo skillName

/-- The order in which they are tried. -/
def localOrder (capacity : Option ActivityCapacitySnapshot) (planVersion : ℤ)
    (candidates : List String) : List String :=
  match capacity with
  | none => candidates.rotate (stableContextBucket sha256 context % candidates.length)
  | some snapshot => snapshot.weightedOrder planVersion candidates

/-- The action for one of them; a walk needs a target of the scene. -/
def localAction (sceneCatalog : Option SceneCatalog) (planVersion : ℤ)
    (reason skillName : String) : Option AgentAction :=
  if skillName = "move_to" then do
    let catalog ← sceneCatalog
    let sceneId ← catalog.sceneIdFromSnapshot context.sessionSnapshot
    let target ← catalog.selectCandidate context sceneId planVersion
    activitySkillAction sha256 context skillName "v1" reason sceneCatalog target.targetId
  else activitySkillAction sha256 context skillName "v1" reason sceneCatalog none

/-- `_lease_authorized_local_activity_action`. -/
def localActivityAction (reason : String) (capacity : Option ActivityCapacitySnapshot)
    (sceneCatalog : Option SceneCatalog) (planVersion : ℤ) (excludedSkillNames : List String) :
    Option AgentAction :=
  if context.leaseKind = "observation" ∧ .callSkill ∈ context.allowedDecisionActions then
    (localOrder sha256 context capacity planVersion
      (localCandidates context capacity excludedSkillNames)).findSome?
        (localAction sha256 context sceneCatalog planVersion reason)
  else none

/-- `_decision_deadline_fallback`. -/
def decisionDeadlineFallback : Option AgentAction :=
  deferAction context "Decision event exceeded the internal response target"
    (staggeredWaitMs sha256 context)

/-! ## Forced actions -/

/-- Where `_forced_test_skill_action` starts: at a skill that failed, after one that succeeded. -/
def forcedStart (event : GatewayEvent) (forceSkills : List String) : ℕ :=
  let afterLast := match snapshotValue context.sessionSnapshot "LastSkillName" "lastSkillName" with
    | some (.str last) => match forceSkills.findIdx? fun skill ↦ Text.ofString skill = last with
      | some index => index + 1
      | none => 0
    | _ => 0
  match event.body with
  | .sequenced _ (.skillFinished payload) =>
    match forceSkills.findIdx? fun skill ↦ skill = payload.skillName with
    | some index => if payload.terminal = .success then index + 1 else index
    | none => afterLast
  | _ => afterLast

/-- `_forced_test_skill_action`; without a result the selection has failed. -/
def forcedSkillAction (event : GatewayEvent) (forceSkills : List String) : Option AgentAction :=
  ((forceSkills.rotate (forcedStart context event forceSkills)).findSome? fun skillName ↦
    activitySkillAction sha256 context skillName "v1"
      "Forced by LLM_GATEWAY_V2_FORCE_SKILLS for Gateway testing" none none).orElse fun _ ↦
        deferOrStopAction context
          "None of the configured test skills is authorized by the current Gateway lease"

/-- `_forced_wait_action`. -/
def forcedWaitAction (waitMs : ℕ) : Option AgentAction :=
  deferAction context
    "Forced wait after the initial Lobby-to-plaza transition for dialogue testing" waitMs

end Candidates

/-! ## What they have in common -/

section Permitted

variable {sha256 : Text → Digest} {context : AgentContext} {action : AgentAction}

theorem actionIsPermitted_of_not_callSkill (hskill : action.kind.skill? = none)
    (hallowed : action.kind.action ∈ context.allowedDecisionActions) :
    ActionIsPermitted sha256 context action := by
  unfold ActionIsPermitted
  cases hkind : action.kind with
  | callSkill =>
    rw [hkind] at hskill
    cases hskill
  | wait | noOp | stopHosting =>
    rw [hkind] at hallowed
    exact hallowed

theorem deferAction_permitted {reason : String} {waitMs : ℕ}
    (h : deferAction context reason waitMs = some action) :
    ActionIsPermitted sha256 context action :=
  actionIsPermitted_of_not_callSkill (deferAction_spec h).1 (deferAction_spec h).2

theorem deferOrStopAction_permitted {reason : String}
    (h : deferOrStopAction context reason = some action) :
    ActionIsPermitted sha256 context action :=
  actionIsPermitted_of_not_callSkill (deferOrStopAction_spec h).1 (deferOrStopAction_spec h).2

/-- The call of an activity is permitted, and calls the skill that it was formed for. -/
theorem activitySkillAction_spec {skillName schemaVersion reason : String}
    {sceneCatalog : Option SceneCatalog} {sceneTargetId : Option String}
    (h : activitySkillAction sha256 context skillName schemaVersion reason sceneCatalog
      sceneTargetId = some action) :
    ActionIsPermitted sha256 context action ∧
      action.kind.skill? = some (skillName, schemaVersion) := by
  obtain ⟨arguments, -, hcall⟩ := Option.bind_eq_some_iff.1 h
  obtain ⟨built, -, hpermitted⟩ := Option.bind_eq_some_iff.1 hcall
  split_ifs at hpermitted with hvalid
  rw [← Option.some.inj hpermitted]
  exact ⟨hvalid.2, rfl⟩

/-- The transition out of the initial room is permitted, and calls `scene_tornado`. -/
theorem initialRoomTransitionAction_spec
    (h : initialRoomTransitionAction sha256 context = some action) :
    ActionIsPermitted sha256 context action ∧
      ∃ schemaVersion, action.kind.skill? = some ("scene_tornado", schemaVersion) := by
  unfold initialRoomTransitionAction at h
  split_ifs at h
  obtain ⟨skill, hfind, hpermitted⟩ := Option.bind_eq_some_iff.1 h
  split_ifs at hpermitted with hskill
  rw [← Option.some.inj hpermitted]
  have hname : skill.skillName = "scene_tornado" := by
    simpa only [decide_eq_true_eq] using List.find?_some hfind
  refine ⟨hskill, skill.schemaVersion, ?_⟩
  rw [← hname]
  rfl

theorem localActivityAction_permitted {reason : String}
    {capacity : Option ActivityCapacitySnapshot} {sceneCatalog : Option SceneCatalog}
    {planVersion : ℤ} {excludedSkillNames : List String}
    (h : localActivityAction sha256 context reason capacity sceneCatalog planVersion
      excludedSkillNames = some action) : ActionIsPermitted sha256 context action := by
  unfold localActivityAction at h
  split_ifs at h
  obtain ⟨skillName, -, haction⟩ := List.exists_of_findSome?_eq_some h
  unfold localAction at haction
  split_ifs at haction
  · obtain ⟨catalog, -, haction⟩ := Option.bind_eq_some_iff.1 haction
    obtain ⟨sceneId, -, haction⟩ := Option.bind_eq_some_iff.1 haction
    obtain ⟨target, -, haction⟩ := Option.bind_eq_some_iff.1 haction
    exact (activitySkillAction_spec haction).1
  · exact (activitySkillAction_spec haction).1

theorem forcedSkillAction_permitted {event : GatewayEvent} {forceSkills : List String}
    (h : forcedSkillAction sha256 context event forceSkills = some action) :
    ActionIsPermitted sha256 context action := by
  rw [forcedSkillAction, Option.orElse_eq_or, Option.or_eq_some_iff] at h
  cases h with
  | inl hforced =>
    obtain ⟨skillName, -, haction⟩ := List.exists_of_findSome?_eq_some hforced
    exact (activitySkillAction_spec haction).1
  | inr hdefer => exact deferOrStopAction_permitted hdefer.2

end Permitted

end LlmGateway
