import LlmGateway.Guarantees.StoredDecisions
import LlmGateway.Planner.Planning

/-!
# The lease authorizes what is decided

Whatever the model answers, and whichever of its ways the planner takes, a decision that it
freezes is one that the lease authorizes: every action that it passes on is permitted, and stays
permitted when it is replaced.
-/

namespace LlmGateway

open Relational

/-- The lease authorizes the call of a skill. -/
structure AgentContext.AuthorizesCall (context : AgentContext) (skillName schemaVersion : String)
    (arguments : List (Text × Json)) : Prop where
  available : (skillName, schemaVersion) ∈ context.available
  paired : LeasePairingIsPermitted context skillName
  allowed : context.leaseKind ≠ "observation" →
    skillName ∈ context.allowedSkillNames ∨ context.allowedSkillName = some skillName
  unhinted : context.hintFor skillName schemaVersion = none → arguments = []
  hinted : ∀ hint ∈ context.hintFor skillName schemaVersion,
    ∃ paths, Json.argumentLeafPaths ⟨[]⟩ arguments = some paths ∧
      (∀ path ∈ paths, path ∈ hint.allowedArgs.map fun field ↦ Text.ofString field.path) ∧
        ∀ field ∈ hint.missingArgs, ContainsPath paths field.path

/-- The lease authorizes the decision. -/
structure DecisionBody.AuthorizedBy (context : AgentContext) (body : DecisionBody) : Prop where
  action_mem : body.action ∈ context.allowedDecisionActions
  call : body.action = .callSkill → ∃ skillName schemaVersion arguments,
    body.skillName = some skillName ∧ body.schemaVersion = some schemaVersion ∧
      body.arguments = some arguments ∧
        context.AuthorizesCall skillName schemaVersion arguments

section Permitted

variable {sha256 : Text → Digest} {context : AgentContext} {action : AgentAction}

theorem SkillIsPermitted.authorizesCall {skillName schemaVersion : String}
    {arguments : List (Text × Json)} {tracking : Option GoalTrackingMetadata}
    (h : SkillIsPermitted sha256 context skillName schemaVersion arguments tracking) :
    context.AuthorizesCall skillName schemaVersion arguments := by
  obtain ⟨-, -, hallows, hpaired, -, havailable, -, -, paths, hpaths, hfit⟩ := h
  refine ⟨havailable, hpaired, fun hkind ↦ ?_, fun hhint ↦ ?_, fun hint hhint ↦ ?_⟩
  · unfold AgentContext.AllowsSkill at hallows
    rwa [if_neg hkind] at hallows
  · rw [hhint] at hfit
    have hnil : paths = [] := hfit
    rw [hnil] at hpaths
    exact Json.argumentLeafPaths_eq_nil hpaths
  · rw [Option.mem_def.1 hhint] at hfit
    exact ⟨paths, hpaths, hfit⟩

/-- The body of a permitted action is authorized. -/
theorem decisionBody_authorized (decisionId traceId : String)
    (h : ActionIsPermitted sha256 context action) :
    (decisionBody decisionId traceId context action).AuthorizedBy context := by
  unfold ActionIsPermitted at h
  cases hkind : action.kind with
  | callSkill skillName schemaVersion arguments tracking =>
    rw [hkind] at h
    constructor
    · simp only [decisionBody, hkind]
      exact h.1
    · intro _
      simp only [decisionBody, hkind]
      exact ⟨skillName, schemaVersion, arguments, rfl, rfl, rfl, h.authorizesCall⟩
  | wait | noOp | stopHosting =>
    rw [hkind] at h
    constructor
    · simp only [decisionBody, hkind]
      exact h
    · intro hcall
      simp only [decisionBody, hkind, ActionKind.action, reduceCtorEq] at hcall

/-- A permitted call has the built arguments already. -/
theorem normalizeAction_of_permitted (h : ActionIsPermitted sha256 context action) :
    normalizeAction sha256 context action = action := by
  cases hkind : action.kind with
  | callSkill skillName schemaVersion arguments tracking =>
    unfold ActionIsPermitted at h
    rw [hkind] at h
    obtain ⟨-, -, -, -, -, -, hbuilt, -⟩ := h
    have hsame : (specializedArgumentsForContext sha256 context skillName schemaVersion).getD
        arguments = arguments := by
      cases hargs : specializedArgumentsForContext sha256 context skillName schemaVersion with
      | none => rfl
      | some built =>
        have hskill := (specializedArgumentsForContext_isSome.1 (by rw [hargs]; rfl)).1
        exact Option.some.inj (hargs.symm.trans (hbuilt hskill))
    rw [normalizeAction_of_callSkill hkind, hsame, ← hkind]
  | wait | noOp | stopHosting =>
    apply normalizeAction_of_not_callSkill
    rw [hkind]
    exact DecisionAction.noConfusion

/-- A permitted action is frozen as it is. -/
theorem frozenAction_of_permitted (h : ActionIsPermitted sha256 context action) :
    frozenAction sha256 context action = some action := by
  have hsame := normalizeAction_of_permitted h
  have hkeeps : ¬Replaces sha256 context action := by
    unfold Replaces
    rw [hsame]
    unfold ActionIsPermitted at h
    split
    · rename_i hkind
      rw [hkind] at h
      exact fun hreplaces ↦ hreplaces.2 h
    · exact id
  rw [frozenAction, if_neg hkeeps, hsame]

theorem selectAction_permitted {candidates : List AgentAction}
    (h : selectAction sha256 context candidates = some action) :
    ActionIsPermitted sha256 context action := by
  rw [selectAction, Option.orElse_eq_or, Option.or_eq_some_iff] at h
  cases h with
  | inl hfound => simpa only [decide_eq_true_eq] using List.find?_some hfound
  | inr hdefer => exact deferOrStopAction_permitted hdefer.2

theorem decideAction_permitted {answer : ModelAnswer}
    (h : decideAction sha256 context answer = .ok action) :
    ActionIsPermitted sha256 context action := by
  cases answer with
  | reasoned candidates =>
    simp only [decideAction] at h
    split at h
    · cases h
    · rename_i selected hselected
      split_ifs at hselected
      have hpermitted := selectAction_permitted hselected
      rw [normalizeAction_of_permitted hpermitted] at h
      exact Except.ok.inj h ▸ hpermitted
  | overloaded | timeout | raised | nodeError | missing => cases h

theorem saturatedAction_permitted (h : saturatedAction sha256 context = some action) :
    ActionIsPermitted sha256 context action := by
  rw [saturatedAction, Option.orElse_eq_or, Option.or_eq_some_iff] at h
  cases h with
  | inl hlocal => exact localActivityAction_permitted hlocal
  | inr hwait =>
    obtain ⟨-, hwait⟩ := hwait
    split_ifs at hwait with hallowed
    rw [← Option.some.inj hwait]
    exact hallowed

theorem chooseWithModel_permitted {answer : ModelAnswer}
    (h : chooseWithModel sha256 context answer = .ok action) :
    ActionIsPermitted sha256 context action := by
  unfold chooseWithModel at h
  split at h
  · rename_i chosen hchosen
    exact Except.ok.inj h ▸ decideAction_permitted hchosen
  · split_ifs at h
    split at h
    · rename_i hsaturated
      cases h
      exact saturatedAction_permitted hsaturated
    · cases h

theorem alignAction_permitted {activity : Option ActivityPlanContext}
    (h : ActionIsPermitted sha256 context action) :
    ActionIsPermitted sha256 context (alignAction context activity action) := by
  unfold alignAction
  split
  · split_ifs
    · exact h
    · cases hdefer : deferAction context "Current activity step is not authorized by this lease"
          1000 with
      | none => exact h
      | some deferred => exact deferAction_permitted hdefer
  · exact h

theorem movedAction_permitted {sceneCatalog : Option SceneCatalog}
    {allocate : SceneTarget → Option SceneTarget} {moved : AgentAction}
    (h : movedAction sha256 context sceneCatalog allocate action = some moved) :
    ActionIsPermitted sha256 context moved := by
  unfold movedAction at h
  split at h
  · obtain ⟨catalog, -, h⟩ := Option.bind_eq_some_iff.1 h
    obtain ⟨sceneId, -, h⟩ := Option.bind_eq_some_iff.1 h
    obtain ⟨target, -, h⟩ := Option.bind_eq_some_iff.1 h
    obtain ⟨trusted, -, h⟩ := Option.bind_eq_some_iff.1 h
    obtain ⟨allocated, -, h⟩ := Option.bind_eq_some_iff.1 h
    simp only at h
    split_ifs at h with hpermitted
    rw [← Option.some.inj h]
    exact hpermitted
  · cases h

theorem finalizeMoveToAction_permitted {sceneCatalog : Option SceneCatalog}
    {allocate : SceneTarget → Option SceneTarget} {final : AgentAction}
    (h : ActionIsPermitted sha256 context action)
    (hfinal : finalizeMoveToAction sha256 context sceneCatalog allocate action = some final) :
    ActionIsPermitted sha256 context final := by
  unfold finalizeMoveToAction at hfinal
  split_ifs at hfinal
  · rw [Option.orElse_eq_or, Option.or_eq_some_iff] at hfinal
    cases hfinal with
    | inl hmoved => exact movedAction_permitted hmoved
    | inr hsafe => exact deferOrStopAction_permitted hsafe.2
  · exact Option.some.inj hfinal ▸ h

end Permitted

namespace DecisionPlanner

variable {planner : DecisionPlanner} {config : OutboxConfig} {sha256 : Text → Digest} {now : ℕ}
  {event : GatewayEvent} {context : AgentContext} {scene : PlanningScene}
  {activity : Option ActivityPlanContext} {fenceCurrent : Bool} {attempt : PlanAttempt}
  {action : AgentAction}

theorem plannedActivityAction_permitted {activity : ActivityPlanContext}
    (h : planner.plannedActivityAction sha256 context activity = some action) :
    ActionIsPermitted sha256 context action := by
  unfold plannedActivityAction at h
  split at h
  · exact (activitySkillAction_spec h).1
  · cases h
  · exact deferAction_permitted h

theorem activityAction_permitted {activity : ActivityPlanContext}
    (h : planner.activityAction sha256 context activity = .ok (some action)) :
    ActionIsPermitted sha256 context action := by
  unfold activityAction at h
  split at h
  · rename_i hplanned
    cases h
    exact plannedActivityAction_permitted hplanned
  · split_ifs at h
    · cases h
    · split at h
      · rename_i hdefer
        cases h
        exact deferOrStopAction_permitted hdefer
      · cases h

theorem lateAction_permitted (h : lateAction sha256 context = .ok action) :
    ActionIsPermitted sha256 context action := by
  unfold lateAction at h
  split at h
  · rename_i hlate
    rw [Option.orElse_eq_or, Option.or_eq_some_iff] at hlate
    cases h
    cases hlate with
    | inl hlocal => exact localActivityAction_permitted hlocal
    | inr hdefer => exact deferAction_permitted hdefer.2
  · cases h

theorem transition_permitted (h : planner.transition sha256 now event context = some action) :
    ActionIsPermitted sha256 context action := by
  unfold transition at h
  split_ifs at h
  exact (initialRoomTransitionAction_spec h).1

theorem chooseByActivity_permitted
    (h : planner.chooseByActivity sha256 now event context activity = .ok (some action)) :
    ActionIsPermitted sha256 context action := by
  obtain ⟨planned, hplanned, h⟩ := bind_eq_ok_iff.1 h
  cases planned with
  | some planned =>
    cases h
    cases activity with
    | none => cases hplanned
    | some activity => exact activityAction_permitted hplanned
  | none =>
    simp only at h
    split_ifs at h
    · obtain ⟨late, hlate, h⟩ := bind_eq_ok_iff.1 h
      cases h
      exact lateAction_permitted hlate
    · cases h

theorem chooseWithoutModel_permitted
    (h : planner.chooseWithoutModel sha256 now event context activity = .ok (some action)) :
    ActionIsPermitted sha256 context action := by
  unfold chooseWithoutModel at h
  split at h
  · rename_i htransition
    cases h
    exact transition_permitted htransition
  split_ifs at h
  · split at h
    · rename_i hforced
      cases h
      exact forcedSkillAction_permitted hforced
    · cases h
  · split at h
    · split at h
      · rename_i hforced
        cases h
        exact deferAction_permitted hforced
      · cases h
    · exact chooseByActivity_permitted h

theorem chooseForLease_permitted
    (h : planner.chooseForLease sha256 now event context scene activity fenceCurrent =
      .ok action) : ActionIsPermitted sha256 context action := by
  obtain ⟨without, hwithout, h⟩ := bind_eq_ok_iff.1 h
  cases without with
  | some chosen =>
    cases h
    exact chooseWithoutModel_permitted hwithout
  | none =>
    simp only at h
    split_ifs at h
    exact chooseWithModel_permitted h

theorem chooseAction_permitted
    (h : planner.chooseAction sha256 now event context scene activity fenceCurrent = .ok action) :
    ActionIsPermitted sha256 context action := by
  unfold chooseAction at h
  split_ifs at h
  obtain ⟨chosen, hchosen, h⟩ := bind_eq_ok_iff.1 h
  have haligned : ActionIsPermitted sha256 context (alignAction context activity chosen) :=
    alignAction_permitted (chooseForLease_permitted hchosen)
  simp only [normalizeAction_of_permitted haligned] at h
  split at h
  · rename_i final hfinal
    cases h
    exact finalizeMoveToAction_permitted haligned hfinal
  · cases h

theorem fullFallback_permitted {full : AgentAction}
    (h : planner.fullFallback sha256 context scene activity full = some action) :
    ActionIsPermitted sha256 context action := by
  obtain ⟨fallback, hfallback, hfinal⟩ := Option.bind_eq_some_iff.1 h
  refine finalizeMoveToAction_permitted ?_ hfinal
  rw [Option.orElse_eq_or, Option.or_eq_some_iff] at hfallback
  cases hfallback with
  | inl hlocal => exact localActivityAction_permitted hlocal
  | inr hdefer => exact deferAction_permitted hdefer.2

/-- Every action that a planning passes on is permitted. -/
theorem attemptedAction_permitted (h : planner.attemptedAction sha256 now event context scene
    activity fenceCurrent attempt = some action) : ActionIsPermitted sha256 context action := by
  cases attempt with
  | first => exact chooseAction_permitted (mem_toOption h)
  | fallback =>
    obtain ⟨full, -, hfallback⟩ := Option.bind_eq_some_iff.1 h
    exact fullFallback_permitted hfallback
  | wait => exact deferAction_permitted h

/-- Every decision that a planning freezes is authorized by the lease. -/
theorem frozen_authorized {decisionId traceId : String} {body : DecisionBody}
    (haction : planner.attemptedAction config.sha256 now event context scene activity fenceCurrent
      attempt = some action)
    (hbody : freezeDecision config decisionId traceId context action = .ok body) :
    body.AuthorizedBy context := by
  have hpermitted := attemptedAction_permitted haction
  obtain ⟨frozen, hfrozen, rfl⟩ := freezeDecision_cases hbody
  rw [frozenAction_of_permitted hpermitted] at hfrozen
  rw [← Option.some.inj hfrozen]
  exact decisionBody_authorized decisionId traceId hpermitted

section Examples

open Scenario

/-- A planner without a coordinator, whose model is at its capacity. -/
def modelPlanner : DecisionPlanner := ⟨false, none, [], none, none, Or.inl rfl⟩

def saturatedScene : PlanningScene := ⟨.overloaded, none, fun _ ↦ none⟩

/-- The dance that is decided in place of the model. -/
theorem frozen_authorized_saturated : ∃ context ∈ buildAgentContext plazaStarted, ∃ action body,
    modelPlanner.attemptedAction Scenario.config.outbox.sha256 0 plazaStarted context
        saturatedScene none true .first = some action ∧
      freezeDecision Scenario.config.outbox "d" "trace" context action = .ok body ∧
        body.action = .callSkill ∧ body.AuthorizedBy context := by
  have hfrozen : ((buildAgentContext plazaStarted).bind fun context ↦
      (modelPlanner.attemptedAction Scenario.config.outbox.sha256 0 plazaStarted context
        saturatedScene none true .first).bind fun action ↦
          (freezeDecision Scenario.config.outbox "d" "trace" context action).toOption).any
            (fun body ↦ body.action = .callSkill) = true := by
    decide
  obtain ⟨body, hbody, hcall⟩ := (Option.any_eq_true _ _).1 hfrozen
  obtain ⟨context, hcontext, hbody⟩ := Option.bind_eq_some_iff.1 hbody
  obtain ⟨action, haction, hbody⟩ := Option.bind_eq_some_iff.1 hbody
  exact ⟨context, hcontext, action, body, haction, mem_toOption hbody, of_decide_eq_true hcall,
    frozen_authorized haction (mem_toOption hbody)⟩

end Examples

end DecisionPlanner

end LlmGateway
