import LlmGateway.Activity.Recording
import LlmGateway.Guarantees.FallbackPlans
import LlmGateway.Guarantees.StepAgreement
import LlmGateway.Planner.Coordinator

/-!
# Out of the lobby

A role in the lobby leaves it, unless the stored plan is gone on with, calls another skill and the
lease allows to wait or to do nothing.
-/

namespace LlmGateway

open Relational
open Fallback (raised raised_eq_ok_iff isLobby isFirstScene safeFallbackPlan)

/-! ## Current steps of validated plans -/

/-- Validation strips the texts of a step. -/
theorem ActivityPlanStep.names_of_validate {raw step : ActivityPlanStep}
    (h : raw.validate = .ok step) :
    step.stepId = strip raw.stepId ∧ step.skillName = raw.skillName.map strip := by
  simp only [validate, bind_eq_ok_iff, nonEmptyString_eq_ok_iff,
    optionalNonEmptyString_eq_ok_iff] at h
  obtain ⟨stepId, ⟨hstepId, -⟩, phase, -, skillName, ⟨hskillName, -⟩, schemaVersion, -,
    sceneTargetId, -, intent, -, -, -, -, -, -, -, -, -, -, -, hstep⟩ := h
  cases hstep
  exact ⟨hstepId.symm, hskillName.symm⟩

namespace ActivityPlan

variable {raw plan : ActivityPlan} {step : ActivityPlanStep}

theorem steps_of_validate (h : raw.validate = .ok plan) :
    raw.steps.mapM ActivityPlanStep.validate = .ok plan.steps ∧
      plan.currentStepId = raw.currentStepId.map strip ∧ plan.version = raw.version := by
  simp only [validate, bind_eq_ok_iff, nonEmptyString_eq_ok_iff,
    optionalNonEmptyString_eq_ok_iff] at h
  obtain ⟨planId, -, goalId, -, goalSummary, -, phase, -, -, -, currentStepId, ⟨hstepId, -⟩, steps,
    hsteps, -, -, hplan⟩ := h
  cases hplan
  exact ⟨hsteps, hstepId.symm, rfl⟩

/-- The current step keeps its skill, up to the blanks around it. -/
theorem currentStep_of_validate (h : raw.validate = .ok plan)
    (hcurrent : raw.currentStep = .ok step) :
    ∃ validated, plan.currentStep = .ok validated ∧
      validated.skillName = step.skillName.map strip := by
  obtain ⟨hsteps, hstepId, -⟩ := steps_of_validate h
  obtain ⟨validated, hmem, hvalidated⟩ :=
    exists_mem_of_mapM_eq_ok hsteps step (mem_of_currentStep hcurrent)
  obtain ⟨hid, hskill⟩ := ActivityPlanStep.names_of_validate hvalidated
  have hfound := step_eq_of_mem (wellFormed_of_validate h).nodup hmem
  refine ⟨validated, currentStep_eq_ok_iff.2 ⟨validated.stepId, ?_, hfound⟩, hskill⟩
  rw [hstepId, currentStepId_of_currentStep hcurrent, hid]
  rfl

/-- The first step of a validated plan calls a skill. -/
theorem WellFormed.skillName_ne_none (h : plan.WellFormed) {first : ActivityPlanStep}
    {rest : List ActivityPlanStep} (hsteps : plan.steps = first :: rest) :
    first.skillName ≠ none := by
  intro hnone
  have hidx : 0 ∈ ((plan.steps.map (·.skillName)).findIdxs Option.isNone).head? := by
    rw [hsteps, List.map_cons, hnone, List.findIdxs_cons]
    rfl
  have hlength := h.social.last 0 hidx
  have hthree := h.three_le_executable
  rw [hsteps, List.length_cons] at hlength
  obtain rfl : rest = [] := List.eq_nil_of_length_eq_zero (by omega)
  rw [executableCount, hsteps, List.map_singleton, hnone] at hthree
  exact absurd hthree (by decide)

end ActivityPlan

/-- A plan that is materialized in the lobby begins with the way out. -/
theorem currentStep_of_materialize {proposal : ActivityPlanProposal} {planId : String} {version : ℤ}
    {availableSkills : List (String × String)} {plan : ActivityPlan}
    (h : materializeActivityPlan proposal planId version availableSkills true = .ok plan) :
    plan.version = version ∧
      ∃ step, plan.currentStep = .ok step ∧ step.skillName = some "scene_tornado" := by
  simp only [materializeActivityPlan, bind_eq_ok_iff, raiseIf_eq_ok_iff] at h
  obtain ⟨-, -, -, hlobby, h⟩ := h
  cases hsteps : proposal.steps with
  | nil =>
    rw [hsteps] at h
    cases h
  | cons first rest =>
    rw [hsteps] at h hlobby
    simp only [List.head?_cons, List.map_cons] at h
    have hcurrent : ActivityPlan.currentStep
        { planId, goalId := proposal.goalId, goalSummary := proposal.goalSummary
          phase := first.phase, status := .active, version, currentStepId := some first.stepId
          steps := first.toPlanStep :: rest.map (·.toPlanStep) } = .ok first.toPlanStep := by
      refine ActivityPlan.currentStep_eq_ok_iff.2 ⟨_, rfl, ActivityPlan.step_eq_ok_iff.2 ?_⟩
      exact List.find?_cons_of_pos
        (p := fun step : ActivityPlanStep ↦ decide (step.stepId = first.stepId))
        (decide_eq_true rfl)
    obtain ⟨step, hstep, hskill⟩ := ActivityPlan.currentStep_of_validate h hcurrent
    obtain ⟨hvalidated, -, hversion⟩ := ActivityPlan.steps_of_validate h
    refine ⟨hversion, step, hstep, ?_⟩
    cases hname : first.skillName with
    | none =>
      obtain ⟨validated, hfirst, _, -, hplan⟩ := mapM_cons_eq_ok_iff.1 hvalidated
      have hnone := (ActivityPlanStep.names_of_validate hfirst).2
      have hformed := ActivityPlan.wellFormed_of_validate h
      refine absurd ?_ (hformed.skillName_ne_none hplan.symm)
      rw [hnone]
      exact congrArg (Option.map strip) hname
    | some skillName =>
      have hsome : first.skillName.isSome = true := by rw [hname]; rfl
      rw [List.filter_cons_of_pos (p := fun step : ActivityPlanProposalStep ↦ step.skillName.isSome)
        hsome, List.head?_cons, Option.map_some, hname] at hlobby
      push Not at hlobby
      have hpair := Option.some.inj (hlobby trivial)
      have htornado : some skillName = some "scene_tornado" := congrArg Prod.fst hpair
      rw [hskill]
      refine (congrArg (Option.map strip) (hname.trans htornado)).trans ?_
      decide

/-! ## The lobby -/

/-- The initial room is the lobby. -/
theorem AgentContext.InInitialRoom.isLobby {context : AgentContext} (h : context.InInitialRoom) :
    isLobby context.sessionSnapshot = .ok true := by
  obtain ⟨-, ⟨sceneId, hscene, hfirst⟩, hname, havailable, -⟩ := h
  have hone : isFirstScene (snapshotValue context.sessionSnapshot "SceneId" "sceneId") =
      .ok true := by
    rw [hscene]
    obtain rfl | rfl := hfirst
    · have hwrite : writeInt 1 = .ok (.ofString "1") := by
        rw [writeInt, if_neg (by rw [not_le]; exact Nat.one_lt_pow (by decide) (by decide))]
        rfl
      rw [isFirstScene, hwrite]
      rfl
    · rfl
  rw [Fallback.isLobby, hone]
  exact congrArg Except.ok (decide_eq_true ⟨rfl, hname, havailable⟩)

/-- In the lobby a plan without the model begins with the way out. -/
theorem currentStep_of_safeFallbackPlan {coordinator : ActivityPlanCoordinator}
    {context : AgentContext} {planId : String} {version : ℤ}
    {recentActions : List (List (Text × Json))} {capacity : Option Occupancy.Snapshot}
    {plan : ActivityPlan} (hlobby : isLobby context.sessionSnapshot = .ok true)
    (h : safeFallbackPlan coordinator.runtime coordinator.stepAuthorizer context planId version
      coordinator.sceneCatalog recentActions capacity = .ok plan) :
    plan.version = version ∧ ∃ step, plan.currentStep = .ok step ∧ step.skillName = some "scene_tornado" := by
  unfold safeFallbackPlan at h
  rw [hlobby] at h
  obtain ⟨lobby, heq, h⟩ := bind_eq_ok_iff.1 h
  cases heq
  obtain ⟨sceneTargets, -, h⟩ := bind_eq_ok_iff.1 h
  simp only at h
  split_ifs at h
  obtain ⟨identity, -, h⟩ := bind_eq_ok_iff.1 h
  obtain ⟨selected, -, h⟩ := bind_eq_ok_iff.1 h
  unfold Fallback.materializedPlan at h
  obtain ⟨proposal, -, h⟩ := bind_eq_ok_iff.1 h
  exact currentStep_of_materialize (mapError_eq_ok_iff.1 h)

/-! ## Prepared plans -/

section Prepared

variable {store : ActivityStore} {c : ClaimedEvent} {activity after : ActivityState}
  {plan : ActivityPlan} {proposed : Option ActivityPlan}

/-- What `prepare` returns is the stored plan, or the proposal if there is one that replaces it. -/
theorem source_of_preparePlan (h : preparePlan store c proposed activity = .ok (plan, after)) :
    ∃ stored, activity.loadPlan = .ok stored ∧
      ((plan ∈ stored ∧ ¬∃ proposal ∈ proposed, ReplacesPlan proposal stored) ∨
        ∃ proposal ∈ proposed, ActivityPlan.validate
          { proposal with version := activity.planVersion.getD 0 + 1 } = .ok plan) := by
  obtain ⟨j, -, stored, hload, hcases⟩ := preparePlan_cases h
  refine ⟨stored, hload, ?_⟩
  cases hcases with
  | inl hkept => exact Or.inl ⟨hkept.1, hkept.2.2.1⟩
  | inr hproposed => exact Or.inr hproposed.2.1

namespace ActivityPlanCoordinator

variable {coordinator : ActivityPlanCoordinator} {context : AgentContext}
  {input : CoordinatorCallInput} {step kept : ActivityPlanStep} {capacity : Option Occupancy.Snapshot}

/-- The stored plan is gone on with at this step. -/
def Keeps (coordinator : ActivityPlanCoordinator) (context : AgentContext)
    (input : CoordinatorCallInput) (step : ActivityPlanStep) : Prop :=
  ∃ plan, input.activity.loadPlan = .ok (some plan) ∧ plan.status = .active ∧
    plan.currentStep = .ok step ∧ coordinator.keepsStep context input.capacity step = .ok true

theorem Keeps.unique (h : coordinator.Keeps context input step)
    (h' : coordinator.Keeps context input kept) : step = kept := by
  obtain ⟨plan, hload, -, hstep, -⟩ := h
  obtain ⟨plan', hload', -, hstep', -⟩ := h'
  cases hload.symm.trans hload'
  exact Except.ok.inj (hstep.symm.trans hstep')

theorem keptStep_eq_some {stored : Option ActivityPlan}
    (h : coordinator.keptStep context capacity stored = .ok (some (plan, step))) :
    stored = some plan ∧ plan.status = .active ∧ plan.currentStep = .ok step ∧
      coordinator.keepsStep context capacity step = .ok true := by
  unfold keptStep at h
  cases hstored : stored.filter (·.status = .active) with
  | none =>
    rw [hstored] at h
    cases h
  | some active =>
    obtain ⟨hmem, hactive⟩ := Option.filter_eq_some_iff.1 hstored
    rw [hstored] at h
    obtain ⟨current, hcurrent, h⟩ := bind_eq_ok_iff.1 h
    obtain ⟨keeps, hkeeps, h⟩ := bind_eq_ok_iff.1 h
    cases keeps with
    | false => cases h
    | true =>
      cases h
      exact ⟨hmem, of_decide_eq_true hactive, hcurrent, hkeeps⟩

theorem keptStep_eq_none {stored : Option ActivityPlan}
    (hload : input.activity.loadPlan = .ok stored)
    (h : coordinator.keptStep context input.capacity stored = .ok none) :
    ¬coordinator.Keeps context input kept := by
  rintro ⟨plan, hplan, hactive, hcurrent, hkeeps⟩
  cases hload.symm.trans hplan
  unfold keptStep at h
  have hfilter : (some plan).filter (fun plan : ActivityPlan ↦ plan.status = .active) = some plan :=
    Option.filter_eq_some_iff.2 ⟨rfl, decide_eq_true hactive⟩
  rw [hfilter] at h
  obtain ⟨current, hcurrent', h⟩ := bind_eq_ok_iff.1 h
  cases hcurrent.symm.trans hcurrent'
  obtain ⟨keeps, hkeeps', h⟩ := bind_eq_ok_iff.1 h
  cases hkeeps.symm.trans hkeeps'
  cases h

/-- A walk is given another target and stays the current step. -/
theorem currentStep_of_retarget {retargeted : ActivityPlan} (hcurrent : plan.currentStep = .ok step)
    (h : coordinator.retargetActiveMoveStep context input plan step = .ok (some retargeted)) :
    ∃ current, retargeted.currentStep = .ok current ∧ current.skillName = some "move_to" ∧
      step.skillName = some "move_to" := by
  unfold retargetActiveMoveStep at h
  cases hcatalog : coordinator.sceneCatalog with
  | none =>
    rw [hcatalog] at h
    cases h
  | some catalog =>
    rw [hcatalog] at h
    simp only at h
    split_ifs at h with hother
    · cases h
    · push Not at hother
      obtain ⟨targetId, -, h⟩ := bind_eq_ok_iff.1 h
      obtain ⟨replaced, hreplaced, h⟩ := bind_eq_ok_iff.1 h
      cases h
      have hreplaced := mapError_eq_ok_iff.1 hreplaced
      unfold replaceMoveTarget at hreplaced
      obtain ⟨current, hcurrent', hreplaced⟩ := bind_eq_ok_iff.1 hreplaced
      cases hcurrent.symm.trans hcurrent'
      obtain ⟨-, -, hreplaced⟩ := bind_eq_ok_iff.1 hreplaced
      cases hreplaced
      refine ⟨{ step with sceneTargetId := targetId, status := .pending }, ?_, hother.1, hother.1⟩
      obtain ⟨stepId, hstepId, hstep⟩ := ActivityPlan.currentStep_eq_ok_iff.1 hcurrent
      refine ActivityPlan.currentStep_eq_ok_iff.2 ⟨stepId, hstepId, ?_⟩
      rw [ActivityPlan.step_eq_ok_iff] at hstep ⊢
      rw [find?_replaceStep, hstep, Option.map_some, if_pos rfl]

/-- The coordinator hands out the skill of the step that it goes on with, or the way out of the
lobby. -/
theorem skillName_of_prepareDeterministic (hlobby : isLobby context.sessionSnapshot = .ok true)
    (h : coordinator.prepareDeterministic context input = .ok (some (plan, after))) :
    ∃ step, plan.currentStep = .ok step ∧
      ((∃ kept, coordinator.Keeps context input kept ∧ step.skillName = kept.skillName) ∨
        (∀ kept, ¬coordinator.Keeps context input kept) ∧
          step.skillName = some "scene_tornado") := by
  unfold prepareDeterministic at h
  obtain ⟨stored, hload, h⟩ := bind_eq_ok_iff.1 h
  have hload := mapError_eq_ok_iff.1 hload
  obtain ⟨found, hfound, h⟩ := bind_eq_ok_iff.1 h
  have hfound := raised_eq_ok_iff.1 hfound
  cases found with
  | some found =>
    obtain ⟨active, current⟩ := found
    obtain ⟨rfl, hactive, hcurrent, hkeeps⟩ := keptStep_eq_some hfound
    have hkept : coordinator.Keeps context input current := ⟨active, hload, hactive, hcurrent, hkeeps⟩
    obtain ⟨retargeted, hretargeted, h⟩ := bind_eq_ok_iff.1 h
    obtain ⟨prepared, hprepared, h⟩ := bind_eq_ok_iff.1 h
    cases h
    obtain ⟨stored, hload', ⟨hmem, -⟩ | ⟨proposal, hproposal, hvalidate⟩⟩ :=
      source_of_preparePlan (mapError_eq_ok_iff.1 hprepared)
    · cases hload.symm.trans hload'
      cases hmem
      exact ⟨current, hcurrent, Or.inl ⟨current, hkept, rfl⟩⟩
    · cases hproposal
      obtain ⟨replaced, hreplaced, hwalk, hcurrentWalk⟩ :=
        currentStep_of_retarget hcurrent hretargeted
      obtain ⟨validated, hvalidated, hskill⟩ :=
        ActivityPlan.currentStep_of_validate hvalidate hreplaced
      refine ⟨validated, hvalidated, Or.inl ⟨current, hkept, ?_⟩⟩
      rw [hskill, hwalk, hcurrentWalk]
      decide
  | none =>
    have hnot (kept : ActivityPlanStep) : ¬coordinator.Keeps context input kept :=
      keptStep_eq_none hload hfound
    simp only at h
    split at h
    · cases h
    · cases h
    · rename_i proposal hproposal
      obtain ⟨prepared, hprepared, h⟩ := bind_eq_ok_iff.1 h
      cases h
      obtain ⟨hversion, first, hfirst, htornado⟩ := currentStep_of_safeFallbackPlan hlobby hproposal
      obtain ⟨stored', hload', ⟨hmem, hreplaces⟩ | ⟨proposal', hmem, hvalidate⟩⟩ :=
        source_of_preparePlan (mapError_eq_ok_iff.1 hprepared)
      · cases hload.symm.trans hload'
        refine absurd ⟨proposal, rfl, fun other hother ↦ Or.inr ?_⟩ hreplaces
        cases hother
        rw [hversion, Option.elim_some]
        have hle := le_max_right (input.activity.planVersion.getD 0) other.version
        omega
      · cases hmem
        obtain ⟨validated, hvalidated, hskill⟩ :=
          ActivityPlan.currentStep_of_validate hvalidate hfirst
        refine ⟨validated, hvalidated, Or.inr ⟨hnot, ?_⟩⟩
        rw [hskill, htornado]
        decide

/-- Without a plan nothing was gone on with. -/
theorem not_keeps_of_prepareDeterministic
    (h : coordinator.prepareDeterministic context input = .ok none) :
    ¬coordinator.Keeps context input kept := by
  unfold prepareDeterministic at h
  obtain ⟨stored, hload, h⟩ := bind_eq_ok_iff.1 h
  obtain ⟨found, hfound, h⟩ := bind_eq_ok_iff.1 h
  cases found with
  | some found =>
    obtain ⟨retargeted, -, h⟩ := bind_eq_ok_iff.1 h
    obtain ⟨prepared, -, h⟩ := bind_eq_ok_iff.1 h
    cases h
  | none => exact keptStep_eq_none (mapError_eq_ok_iff.1 hload) (raised_eq_ok_iff.1 hfound)

end ActivityPlanCoordinator

end Prepared

/-! ## The action that is passed on -/

section Transit

variable {planner : DecisionPlanner} {coordinator : ActivityPlanCoordinator}
  {sha256 : Text → Digest} {now : ℕ} {event : GatewayEvent} {context : AgentContext}
  {scene : PlanningScene} {input : CoordinatorCallInput} {chosen : Option ActivityPlanContext}
  {fenceCurrent : Bool} {tornado action : AgentAction}

/-- A planning without forced actions and before its deadline, in which the way out of the lobby is
permitted, and the action that it passes on. -/
structure Transits (planner : DecisionPlanner) (coordinator : ActivityPlanCoordinator)
    (sha256 : Text → Digest) (now : ℕ) (event : GatewayEvent) (context : AgentContext)
    (scene : PlanningScene) (input : CoordinatorCallInput) (chosen : Option ActivityPlanContext)
    (fenceCurrent : Bool) (tornado action : AgentAction) : Prop where
  transition : initialRoomTransitionAction sha256 context = some tornado
  noSkills : planner.forceSkills = []
  noWait : planner.forceWaitMs = none
  early : ¬planner.DeadlineReached now event
  prepared : planner.hasCoordinator = true → ∃ result,
    coordinator.prepareDeterministic context input = .ok result ∧
      chosen.map (·.plan) = result.map (·.1)
  alone : planner.hasCoordinator = false → chosen = none
  passed : planner.chooseAction sha256 now event context scene chosen fenceCurrent = .ok action

/-- The stored plan is gone on with, calls another skill, and the lease allows to put it off. -/
def Strands (planner : DecisionPlanner) (coordinator : ActivityPlanCoordinator)
    (context : AgentContext) (input : CoordinatorCallInput) : Prop :=
  planner.hasCoordinator = true ∧
    (∃ kept, coordinator.Keeps context input kept ∧ kept.skillName ≠ some "scene_tornado") ∧
    (.wait ∈ context.allowedDecisionActions ∨ .noOp ∈ context.allowedDecisionActions)

theorem transition_eq_some (h : initialRoomTransitionAction sha256 context = some tornado) :
    context.InInitialRoom ∧ ∃ reason ttlMs schemaVersion arguments tracking,
      tornado = ⟨reason, ttlMs, .callSkill "scene_tornado" schemaVersion arguments tracking⟩ := by
  unfold initialRoomTransitionAction at h
  split_ifs at h with hroom
  obtain ⟨skill, hskill, h⟩ := Option.bind_eq_some_iff.1 h
  have hname := List.find?_some hskill
  split_ifs at h
  cases h
  rw [of_decide_eq_true hname]
  exact ⟨hroom, _, _, _, _, _, rfl⟩

/-- The action that takes the place of a call, if there is one. -/
theorem kind_of_deferAction {reason : String} {waitMs : ℕ} {deferred : AgentAction}
    (h : deferAction context reason waitMs = some deferred) :
    deferred.kind = .wait waitMs ∨ deferred.kind = .noOp := by
  unfold deferAction at h
  split_ifs at h
  · cases h
    exact Or.inl rfl
  · cases h
    exact Or.inr rfl

theorem deferAction_eq_none_iff {reason : String} {waitMs : ℕ} :
    deferAction context reason waitMs = none ↔
      ¬(.wait ∈ context.allowedDecisionActions ∨ .noOp ∈ context.allowedDecisionActions) := by
  unfold deferAction
  split_ifs with hwait hnoOp
  · exact iff_of_false id (not_not_intro (Or.inl hwait))
  · exact iff_of_false id (not_not_intro (Or.inr hnoOp))
  · exact iff_of_true rfl (not_or.2 ⟨hwait, hnoOp⟩)

/-- The way out, or what puts it off. -/
theorem alignAction_cases :
    alignAction context chosen tornado = tornado ∨
      (∃ waitMs, (alignAction context chosen tornado).kind = .wait waitMs) ∨
        (alignAction context chosen tornado).kind = .noOp := by
  unfold alignAction
  split
  · split_ifs
    · exact Or.inl rfl
    · cases hdefer : deferAction context "Current activity step is not authorized by this lease"
          1000 with
      | none => exact Or.inl rfl
      | some deferred =>
        obtain hkind | hkind := kind_of_deferAction hdefer
        · exact Or.inr (Or.inl ⟨_, hkind⟩)
        · exact Or.inr (Or.inr hkind)
  · exact Or.inl rfl

/-- What is passed on is what the alignment with the plan makes of the way out. -/
theorem Transits.action_eq (h : Transits planner coordinator sha256 now event context scene input
    chosen fenceCurrent tornado action) : action = alignAction context chosen tornado := by
  obtain ⟨-, reason, ttlMs, schemaVersion, arguments, tracking, rfl⟩ :=
    transition_eq_some h.transition
  have hlate : ¬(planner.DeadlineReached now event ∧ planner.forceWaitMs = none) :=
    fun hlate ↦ h.early hlate.1
  have hkept : finalizeMoveToAction sha256 context planner.sceneCatalog scene.allocate
      (normalizeAction sha256 context (alignAction context chosen
        ⟨reason, ttlMs, .callSkill "scene_tornado" schemaVersion arguments tracking⟩)) =
      some (alignAction context chosen
        ⟨reason, ttlMs, .callSkill "scene_tornado" schemaVersion arguments tracking⟩) := by
    obtain heq | ⟨waitMs, hkind⟩ | hkind := @alignAction_cases context chosen
      ⟨reason, ttlMs, .callSkill "scene_tornado" schemaVersion arguments tracking⟩
    · rw [heq]
      rfl
    · simp only [normalizeAction, hkind, finalizeMoveToAction, ActionKind.skill?]
      rfl
    · simp only [normalizeAction, hkind, finalizeMoveToAction, ActionKind.skill?]
      rfl
  have hlease : planner.chooseForLease sha256 now event context scene chosen fenceCurrent = .ok
      ⟨reason, ttlMs, .callSkill "scene_tornado" schemaVersion arguments tracking⟩ := by
    rw [DecisionPlanner.chooseForLease, DecisionPlanner.chooseWithoutModel,
      DecisionPlanner.transition, if_neg hlate, h.transition]
    rfl
  have hpassed := h.passed
  unfold DecisionPlanner.chooseAction at hpassed
  rw [hlease] at hpassed
  split_ifs at hpassed
  obtain ⟨lease, heq, hpassed⟩ := bind_eq_ok_iff.1 hpassed
  cases heq
  simp only [hkept] at hpassed
  cases hpassed
  rfl

/-- The way out of the lobby is passed on unless the stored plan strands the role. -/
theorem transits_iff (h : Transits planner coordinator sha256 now event context scene input chosen
    fenceCurrent tornado action) :
    action = tornado ↔ ¬Strands planner coordinator context input := by
  rw [h.action_eq]
  obtain ⟨hroom, reason, ttlMs, schemaVersion, arguments, tracking, rfl⟩ :=
    transition_eq_some h.transition
  cases chosen with
  | none =>
    refine iff_of_true rfl ?_
    rintro ⟨hcoordinator, ⟨kept, hkept, -⟩, -⟩
    obtain ⟨result, hprepared, hplan⟩ := h.prepared hcoordinator
    cases result with
    | none => exact ActivityPlanCoordinator.not_keeps_of_prepareDeterministic hprepared hkept
    | some prepared => cases hplan
  | some chosen =>
    have hcoordinator : planner.hasCoordinator = true := by
      by_contra hnot
      cases h.alone (Bool.eq_false_of_not_eq_true hnot)
    obtain ⟨result, hprepared, hplan⟩ := h.prepared hcoordinator
    cases result with
    | none => cases hplan
    | some prepared =>
      obtain ⟨plan, after⟩ := prepared
      obtain rfl : chosen.plan = plan := Option.some.inj hplan
      obtain ⟨step, hstep, hskill⟩ :=
        ActivityPlanCoordinator.skillName_of_prepareDeterministic hroom.isLobby hprepared
      obtain rfl : chosen.current = step := Except.ok.inj (chosen.currentStep_eq.symm.trans hstep)
      by_cases hsame : chosen.current.skillName = some "scene_tornado"
      · refine iff_of_true (if_pos hsame) ?_
        rintro ⟨-, ⟨kept, hkept, hother⟩, -⟩
        obtain ⟨kept', hkept', heq⟩ | ⟨hnot, -⟩ := hskill
        · rw [hkept.unique hkept', ← heq] at hother
          exact hother hsame
        · exact hnot kept hkept
      · obtain ⟨kept, hkept, heq⟩ | ⟨-, htornado⟩ := hskill
        · have halign : alignAction context (some chosen)
              ⟨reason, ttlMs, .callSkill "scene_tornado" schemaVersion arguments tracking⟩ =
              (deferAction context "Current activity step is not authorized by this lease"
                1000).getD ⟨reason, ttlMs, .callSkill "scene_tornado" schemaVersion arguments
                  tracking⟩ := if_neg hsame
          rw [halign]
          cases hdefer : deferAction context
              "Current activity step is not authorized by this lease" 1000 with
          | none =>
            exact iff_of_true rfl fun hstrands ↦ deferAction_eq_none_iff.1 hdefer hstrands.2.2
          | some deferred =>
            refine iff_of_false (fun heq ↦ ?_) (not_not_intro ⟨hcoordinator,
              ⟨kept, hkept, heq ▸ hsame⟩, ?_⟩)
            · cases heq
              obtain hkind | hkind := kind_of_deferAction hdefer
              · cases hkind
              · cases hkind
            · by_contra hnot
              cases (deferAction_eq_none_iff.2 hnot).symm.trans hdefer
        · exact absurd htornado hsame

end Transit

/-! ## A walk that is left over -/

namespace Scenario

/-- The lobby, with a lease for the way out and for a walk. -/
def lobbyContext : AgentContext :=
  { walkContext with
    sessionSnapshot := [("AccountId", .str "role"), ("SceneId", .int 1),
      ("SceneName", .str "Lobby"), ("NavigationAvailable", .bool false)]
    availableSkills := [⟨"scene_tornado", "v1", false, 0, none⟩, ⟨"move_to", "v1", false, 0, none⟩] }

/-- The way out of the lobby. -/
def wayOut : AgentAction :=
  ⟨"Move the autonomously hosted role from the initial room to the plaza", defaultTtlMs,
    .callSkill "scene_tornado" "v1" [] none⟩

/-- A coordinator without a catalogue, which asks the lease. -/
def leaseCoordinator : ActivityPlanCoordinator where
  runtime := evenRuntime
  stepAuthorizer := activitySkillIsPermitted config.outbox.sha256
  sceneCatalog := none

/-- A session start is claimed. -/
def startClaimed : List Action := [submit [sessionStarted "e1" 1 "L1" 1], claim]

def lobbyInput (plan : Option ActivityPlan) (c : ClaimedEvent) : CoordinatorCallInput where
  store := ⟨(after startClaimed).db, fun _ ↦ ⟨none, none⟩⟩
  claim := c
  activity := ⟨plan, none, none, none⟩
  recentActions := []
  capacity := none
  planId := "plan-lobby"

def quietScene : PlanningScene := ⟨.overloaded, none, fun _ ↦ none⟩

theorem transits_iff_lobby : ∃ c ∈ (after startClaimed).claims,
    (wayOut = wayOut ↔ ¬Strands plainPlanner leaseCoordinator lobbyContext (lobbyInput none c)) := by
  have hprepared : ∃ c ∈ (after startClaimed).claims,
      none ∈ (leaseCoordinator.prepareDeterministic lobbyContext (lobbyInput none c)).toOption := by
    decide +kernel
  have htransition : initialRoomTransitionAction config.outbox.sha256 lobbyContext = some wayOut := by
    decide
  have hpassed : wayOut ∈ (plainPlanner.chooseAction config.outbox.sha256 0 plazaStarted lobbyContext
      quietScene none true).toOption := by
    decide
  obtain ⟨c, hc, hprepared⟩ := hprepared
  have htransits : Transits plainPlanner leaseCoordinator config.outbox.sha256 0 plazaStarted
      lobbyContext quietScene (lobbyInput none c) none true wayOut wayOut := by
    constructor
    case transition => exact htransition
    case noSkills => rfl
    case noWait => rfl
    case early => decide
    case prepared => exact fun _ ↦ ⟨none, mem_toOption hprepared, rfl⟩
    case alone => exact fun _ ↦ rfl
    case passed => exact mem_toOption hpassed
  exact ⟨c, hc, transits_iff htransits⟩

/-- The walk is gone on with, and the role waits in the lobby. -/
theorem lobby_waits :
    initialRoomTransitionAction config.outbox.sha256 lobbyContext = some wayOut ∧
      (∃ c ∈ (after startClaimed).claims,
        (leaseCoordinator.prepareDeterministic lobbyContext
          (lobbyInput (some wanderPlan) c)).toOption.map (·.map (·.1)) = some (some wanderPlan)) ∧
      (plainPlanner.chooseAction config.outbox.sha256 0 plazaStarted lobbyContext quietScene
        (some wanderActivity) true).toOption.map (·.kind) = some (.wait 1000) := by
  refine ⟨?_, ?_, ?_⟩
  · decide
  · decide +kernel
  · decide

end Scenario

end LlmGateway
