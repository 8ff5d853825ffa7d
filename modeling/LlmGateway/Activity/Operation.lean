import LlmGateway.Activity.Validity

/-!
# Operations on activity plans

Each operation retouches the current step (its target, its status and its attempts) and leaves
it current or moves on to the next one. The result of an operation on a well formed plan is
well formed exactly when the retouched step is (`replaceStep_wellFormed_iff`,
`advanceAfterTerminal_wellFormed_iff`), which only depends on its attempts and its target
(`ActivityPlanStep.WellFormed.retouched_iff`).
-/

namespace LlmGateway

open Relational

/-! ## The current step -/

namespace ActivityPlan

variable {plan : ActivityPlan} {current : ActivityPlanStep}

theorem step_eq_ok_iff {stepId : String} {step : ActivityPlanStep} :
    plan.step stepId = .ok step ↔
      plan.steps.find? (fun step ↦ step.stepId = stepId) = some step := by
  unfold ActivityPlan.step
  split
  · rename_i found hfound
    rw [hfound, Except.ok.injEq, Option.some.injEq]
  · rename_i hnone
    rw [hnone]
    exact iff_of_false nofun nofun

theorem currentStep_eq_ok_iff :
    plan.currentStep = .ok current ↔
      ∃ stepId, plan.currentStepId = some stepId ∧ plan.step stepId = .ok current := by
  unfold currentStep
  cases plan.currentStepId with
  | none => exact iff_of_false nofun (fun ⟨_, h, _⟩ ↦ nomatch h)
  | some stepId => simp only [Option.some.injEq, exists_eq_left']

theorem mem_of_currentStep (h : plan.currentStep = .ok current) : current ∈ plan.steps := by
  obtain ⟨stepId, -, hstep⟩ := currentStep_eq_ok_iff.1 h
  exact List.mem_of_find?_eq_some (step_eq_ok_iff.1 hstep)

theorem currentStepId_of_currentStep (h : plan.currentStep = .ok current) :
    plan.currentStepId = some current.stepId := by
  obtain ⟨stepId, hstepId, hstep⟩ := currentStep_eq_ok_iff.1 h
  have heq := List.find?_some (step_eq_ok_iff.1 hstep)
  rw [hstepId, of_decide_eq_true heq]

theorem eq_of_stepId_eq (hnodup : (plan.steps.map (·.stepId)).Nodup) {s t : ActivityPlanStep}
    (hs : s ∈ plan.steps) (ht : t ∈ plan.steps) (h : s.stepId = t.stepId) : s = t :=
  List.inj_on_of_nodup_map hnodup hs ht h

/-- In a plan with unique step ids, a step is found under its id. -/
theorem step_eq_of_mem (hnodup : (plan.steps.map (·.stepId)).Nodup) {step : ActivityPlanStep}
    (h : step ∈ plan.steps) : plan.step step.stepId = .ok step := by
  apply step_eq_ok_iff.2
  cases hfind : plan.steps.find? fun s ↦ s.stepId = step.stepId with
  | none =>
    have hno := List.find?_eq_none.1 hfind step h
    exact absurd rfl (of_decide_eq_false (Bool.eq_false_iff.2 hno))
  | some found =>
    have hid : found.stepId = step.stepId := by
      simpa only [decide_eq_true_eq] using List.find?_some hfind
    exact congrArg some (eq_of_stepId_eq hnodup (List.mem_of_find?_eq_some hfind) h hid)

end ActivityPlan

/-! ## Retouched steps -/

namespace ActivityPlanStep

/-- The step is another one up to its target, its status and its attempts. -/
structure Retouches (replacement current : ActivityPlanStep) : Prop where
  stepId_eq : replacement.stepId = current.stepId
  phase_eq : replacement.phase = current.phase
  skillName_eq : replacement.skillName = current.skillName
  schemaVersion_eq : replacement.schemaVersion = current.schemaVersion
  intent_eq : replacement.intent = current.intent
  maxAttempts_eq : replacement.maxAttempts = current.maxAttempts

theorem WellFormed.retouched_iff {replacement current : ActivityPlanStep}
    (h : current.WellFormed) (hr : replacement.Retouches current) :
    replacement.WellFormed ↔
      (∀ target ∈ replacement.sceneTargetId, IsNonEmptyString 256 target) ∧
        (replacement.sceneTargetId.isSome → current.skillName = some "move_to") ∧
          0 ≤ replacement.attemptCount ∧ replacement.attemptCount ≤ current.maxAttempts := by
  obtain ⟨hstepId, hphase, hskillName, hschemaVersion, hintent, hmaxAttempts⟩ := hr
  constructor
  · intro h'
    rw [← hskillName, ← hmaxAttempts]
    exact ⟨h'.sceneTargetId, h'.targeted, h'.attemptCount_nonneg, h'.attemptCount_le⟩
  · rintro ⟨htarget, htargeted, hnonneg, hle⟩
    have hplanned : replacement.IsPlanned := by
      obtain ⟨hpaired, hchat, hcanonical, hversion, hsocial⟩ := h.planned
      constructor
      · rw [hskillName, hschemaVersion, hpaired]
      · rwa [hskillName]
      · rwa [hskillName]
      · rwa [hskillName, hschemaVersion]
      · rwa [hskillName, hphase]
    constructor
    · rw [hstepId]
      exact h.stepId
    · rw [hphase]
      exact h.phase
    · rw [hskillName]
      exact h.skillName
    · rw [hschemaVersion]
      exact h.schemaVersion
    · exact htarget
    · rw [hintent]
      exact h.intent
    · rw [hmaxAttempts]
      exact h.one_le_maxAttempts
    · rw [hmaxAttempts]
      exact h.maxAttempts_le
    · exact hnonneg
    · exact hplanned
    · rwa [hskillName]
    · rwa [hmaxAttempts]

end ActivityPlanStep

section Replace

variable {plan : ActivityPlan} {current replacement : ActivityPlanStep}

theorem mem_replaceStep (hcurrent : current ∈ plan.steps)
    (hid : replacement.stepId = current.stepId) : replacement ∈ replaceStep plan replacement := by
  apply List.mem_map.2
  exact ⟨current, hcurrent, if_pos hid.symm⟩

theorem eq_or_mem_of_mem_replaceStep {step : ActivityPlanStep}
    (h : step ∈ replaceStep plan replacement) : step = replacement ∨ step ∈ plan.steps := by
  obtain ⟨s, hs, rfl⟩ := List.mem_map.1 h
  split
  · exact Or.inl rfl
  · exact Or.inr hs

/-- What the replacement shares with the current step, the list of steps keeps. -/
theorem map_replaceStep {β : Type} {f : ActivityPlanStep → β}
    (hnodup : (plan.steps.map (·.stepId)).Nodup) (hcurrent : current ∈ plan.steps)
    (hid : replacement.stepId = current.stepId) (hf : f replacement = f current) :
    (replaceStep plan replacement).map f = plan.steps.map f := by
  unfold replaceStep
  rw [List.map_map]
  apply List.map_congr_left
  intro step hstep
  simp only [Function.comp_apply]
  split
  · rename_i heq
    rw [hf, ActivityPlan.eq_of_stepId_eq hnodup hstep hcurrent (heq.trans hid)]
  · rfl

theorem find?_replaceStep (plan : ActivityPlan) (replacement : ActivityPlanStep)
    (stepId : String) :
    (replaceStep plan replacement).find? (fun step ↦ step.stepId = stepId) =
      (plan.steps.find? fun step ↦ step.stepId = stepId).map fun step ↦
        if step.stepId = replacement.stepId then replacement else step := by
  unfold replaceStep
  rw [List.find?_map]
  congr 2
  funext step
  simp only [Function.comp_apply]
  split
  · rename_i heq
    rw [heq]
  · rfl

/-- Replacing a step by itself changes nothing. -/
theorem replaceStep_self (hnodup : (plan.steps.map (·.stepId)).Nodup)
    (hcurrent : current ∈ plan.steps) : replaceStep plan current = plan.steps := by
  have hid := map_replaceStep (f := id) hnodup hcurrent rfl rfl
  simpa only [List.map_id] using hid

/-- The step is found at its index. -/
theorem getElem?_currentIndex (hnodup : (plan.steps.map (·.stepId)).Nodup)
    (hcurrent : current ∈ plan.steps) (hid : replacement.stepId = current.stepId) :
    plan.steps[plan.steps.findIdx fun step ↦ step.stepId = replacement.stepId]? =
      some current := by
  have hlt := List.findIdx_lt_length_of_exists (p := fun step ↦ step.stepId = replacement.stepId)
    ⟨current, hcurrent, decide_eq_true hid.symm⟩
  have hfound := of_decide_eq_true (List.findIdx_getElem (w := hlt))
  rw [List.getElem?_eq_getElem hlt]
  apply congrArg some
  exact ActivityPlan.eq_of_stepId_eq hnodup (List.getElem_mem hlt) hcurrent (hfound.trans hid)

/-- A plan that moves on has another current step, or none. -/
theorem advanceAfterTerminal_leaves (hnodup : (plan.steps.map (·.stepId)).Nodup)
    (hcurrent : current ∈ plan.steps) (hid : replacement.stepId = current.stepId) :
    (advanceAfterTerminal plan replacement).status = .completed ∨
      (advanceAfterTerminal plan replacement).currentStepId ≠ some current.stepId := by
  simp only [advanceAfterTerminal]
  split
  · exact Or.inl rfl
  · rename_i nextStep hnext
    apply Or.inr
    intro hsame
    have hindex := getElem?_currentIndex hnodup hcurrent hid
    have hids := map_replaceStep hnodup hcurrent hid hid
    have hthis := congrArg (Option.map ActivityPlanStep.stepId) hindex
    have hthat := congrArg (Option.map ActivityPlanStep.stepId) hnext
    rw [← List.getElem?_map] at hthis hthat
    rw [hids] at hthat
    have hlt := (List.getElem?_eq_some_iff.1 hthis).1
    have heq := (List.getElem?_inj hlt hnodup).1 (hthis.trans (hthat.trans hsame).symm)
    omega

/-- The social opportunity is the last step, so a plan that completes it is completed. -/
theorem advanceAfterTerminal_of_social (h : plan.WellFormed) (hcurrent : current ∈ plan.steps)
    (hid : replacement.stepId = current.stepId) (hsocial : current.skillName = none) :
    (advanceAfterTerminal plan replacement).status = .completed := by
  have hindex := getElem?_currentIndex h.nodup hcurrent hid
  have hname := congrArg (Option.map ActivityPlanStep.skillName) hindex
  rw [← List.getElem?_map] at hname
  obtain ⟨hlt, hget⟩ := List.getElem?_eq_some_iff.1 hname
  have hmem := (List.mem_findIdxs_iff_pos_getElem hlt (p := Option.isNone)).2
    (by rw [hget, hsocial]; rfl)
  have hlast : (plan.steps.findIdx fun step ↦ step.stepId = replacement.stepId) + 1 =
      plan.steps.length := by
    apply h.social.last
    have hone := h.social.at_most_one
    cases hidxs : (plan.steps.map (·.skillName)).findIdxs Option.isNone with
    | nil =>
      rw [hidxs] at hmem
      exact absurd hmem List.not_mem_nil
    | cons first rest =>
      rw [hidxs, List.length_cons] at hone
      rw [hidxs, List.eq_nil_of_length_eq_zero (by omega : rest.length = 0)] at hmem
      rw [List.mem_singleton.1 hmem]
      rfl
  have hnone : (replaceStep plan replacement)[
      (plan.steps.findIdx fun step ↦ step.stepId = replacement.stepId) + 1]? = none := by
    apply List.getElem?_eq_none
    rw [hlast]
    exact (List.length_map _).le
  simp only [advanceAfterTerminal, hnone]

/-- The plan moves its current step at most, and to a step of the same plan. -/
structure Repositions (plan plan' : ActivityPlan) (replacement : ActivityPlanStep) : Prop where
  planId_eq : plan'.planId = plan.planId
  goalId_eq : plan'.goalId = plan.goalId
  goalSummary_eq : plan'.goalSummary = plan.goalSummary
  steps_eq : plan'.steps = replaceStep plan replacement
  position : (plan'.status = .completed ∧ plan'.currentStepId = none ∧ plan'.phase = plan.phase) ∨
    (plan'.status = plan.status ∧ ∃ step ∈ plan'.steps,
      plan'.currentStepId = some step.stepId ∧ plan'.phase = step.phase)

/-- A plan repositioned over a retouched step is well formed when the step is. -/
theorem Repositions.wellFormed_iff {plan' : ActivityPlan} (h : plan.WellFormed)
    (hcurrent : plan.currentStep = .ok current) (hr : replacement.Retouches current)
    (hp : Repositions plan plan' replacement) :
    plan'.WellFormed ↔ replacement.WellFormed ∧ 1 ≤ plan'.version := by
  have hmem := ActivityPlan.mem_of_currentStep hcurrent
  have hstepIds : plan'.steps.map (·.stepId) = plan.steps.map (·.stepId) := by
    rw [hp.steps_eq]
    exact map_replaceStep h.nodup hmem hr.stepId_eq hr.stepId_eq
  have hskillNames : plan'.steps.map (·.skillName) = plan.steps.map (·.skillName) := by
    rw [hp.steps_eq]
    exact map_replaceStep h.nodup hmem hr.stepId_eq hr.skillName_eq
  have hlength : plan'.steps.length = plan.steps.length := by
    rw [hp.steps_eq]
    exact List.length_map _
  have hexecutable : plan'.executableCount = plan.executableCount := by
    unfold ActivityPlan.executableCount
    rw [hskillNames]
  constructor
  · intro h'
    have hreplacement := mem_replaceStep hmem hr.stepId_eq
    rw [← hp.steps_eq] at hreplacement
    exact ⟨h'.steps replacement hreplacement, h'.one_le_version⟩
  · rintro ⟨hreplacement, hversion⟩
    have hsteps : ∀ step ∈ plan'.steps, step.WellFormed := by
      intro step hstep
      rw [hp.steps_eq] at hstep
      cases eq_or_mem_of_mem_replaceStep hstep with
      | inl heq => exact heq ▸ hreplacement
      | inr hold => exact h.steps step hold
    have hsocial : SocialOpportunityLast plan'.steps := by
      obtain ⟨hone, hlast⟩ := h.social
      constructor
      · rwa [hskillNames]
      · rwa [hskillNames, hlength]
    have hnodup : (plan'.steps.map (·.stepId)).Nodup := hstepIds ▸ h.nodup
    have hphase : IsNonEmptyString 64 plan'.phase := by
      cases hp.position with
      | inl hcompleted => exact hcompleted.2.2 ▸ h.phase
      | inr hmoved =>
        obtain ⟨-, step, hstep, -, hphase⟩ := hmoved
        exact hphase ▸ (hsteps step hstep).phase
    have hcurrent' : ∀ stepId ∈ plan'.currentStepId, ∃ step ∈ plan'.steps,
        step.stepId = stepId ∧ step.phase = plan'.phase := by
      intro stepId hstepId
      cases hp.position with
      | inl hcompleted =>
        rw [hcompleted.2.1] at hstepId
        exact nomatch hstepId
      | inr hmoved =>
        obtain ⟨-, step, hstep, hid, hphase⟩ := hmoved
        rw [hid] at hstepId
        exact ⟨step, hstep, Option.some.inj hstepId, hphase.symm⟩
    refine ⟨hp.planId_eq ▸ h.planId, hp.goalId_eq ▸ h.goalId, hp.goalSummary_eq ▸ h.goalSummary,
      hphase, hversion, ?_, hsteps, hnodup, hsocial, hexecutable ▸ h.three_le_executable,
      hexecutable ▸ h.executable_le, hlength ▸ h.length_le, ?_, ?_, ?_, ?_⟩
    · intro stepId hstepId
      obtain ⟨step, hstep, hid, -⟩ := hcurrent' stepId hstepId
      exact hid ▸ (hsteps step hstep).stepId
    · intro stepId hstepId
      obtain ⟨step, hstep, hid, -⟩ := hcurrent' stepId hstepId
      exact List.mem_map.2 ⟨step, hstep, hid⟩
    · intro hstatus
      cases hp.position with
      | inl hcompleted => exact hcompleted.2.1
      | inr hmoved =>
        have hnone := h.completed (hmoved.1.symm.trans hstatus)
        rw [ActivityPlan.currentStepId_of_currentStep hcurrent] at hnone
        exact nomatch hnone
    · intro hstatus
      cases hp.position with
      | inl hcompleted => exact nomatch hcompleted.1.symm.trans hstatus
      | inr hmoved =>
        obtain ⟨-, step, -, hid, -⟩ := hmoved
        rw [hid]
        exact Option.some_ne_none _
    · intro found hfound
      have hfound := mem_toOption hfound
      have hid := ActivityPlan.currentStepId_of_currentStep hfound
      obtain ⟨step, hstep, hstepId, hphase⟩ := hcurrent' found.stepId hid
      have heq := ActivityPlan.eq_of_stepId_eq hnodup hstep
        (ActivityPlan.mem_of_currentStep hfound) hstepId
      rw [← heq, hphase]

theorem repositions_replaceStep (h : plan.WellFormed) (hcurrent : plan.currentStep = .ok current)
    (hr : replacement.Retouches current) (version : ℤ) :
    Repositions plan { plan with steps := replaceStep plan replacement, version } replacement where
  planId_eq := rfl
  goalId_eq := rfl
  goalSummary_eq := rfl
  steps_eq := rfl
  position := by
    have hmem := mem_replaceStep (ActivityPlan.mem_of_currentStep hcurrent) hr.stepId_eq
    have hphase : current.phase = plan.phase := h.phase_eq current (by rw [hcurrent]; rfl)
    refine Or.inr ⟨rfl, replacement, hmem, ?_, hphase.symm.trans hr.phase_eq.symm⟩
    rw [hr.stepId_eq]
    exact (ActivityPlan.currentStepId_of_currentStep hcurrent :)

theorem repositions_advanceAfterTerminal (plan : ActivityPlan) (replacement : ActivityPlanStep) :
    Repositions plan (advanceAfterTerminal plan replacement) replacement := by
  simp only [advanceAfterTerminal]
  split
  · exact ⟨rfl, rfl, rfl, rfl, Or.inl ⟨rfl, rfl, rfl⟩⟩
  · rename_i nextStep hnext
    exact ⟨rfl, rfl, rfl, rfl, Or.inr ⟨rfl, nextStep, List.mem_of_getElem? hnext, rfl, rfl⟩⟩

theorem advanceAfterTerminal_version (plan : ActivityPlan) (replacement : ActivityPlanStep) :
    (advanceAfterTerminal plan replacement).version = plan.version := by
  simp only [advanceAfterTerminal]
  split <;> rfl

theorem replaceStep_wellFormed_iff (h : plan.WellFormed) (hcurrent : plan.currentStep = .ok current)
    (hr : replacement.Retouches current) {version : ℤ} :
    ActivityPlan.WellFormed { plan with steps := replaceStep plan replacement, version } ↔
      replacement.WellFormed ∧ 1 ≤ version :=
  (repositions_replaceStep h hcurrent hr version).wellFormed_iff h hcurrent hr

theorem advanceAfterTerminal_wellFormed_iff (h : plan.WellFormed)
    (hcurrent : plan.currentStep = .ok current) (hr : replacement.Retouches current) :
    (advanceAfterTerminal plan replacement).WellFormed ↔ replacement.WellFormed := by
  have hiff := (repositions_advanceAfterTerminal plan replacement).wellFormed_iff h hcurrent hr
  rw [advanceAfterTerminal_version] at hiff
  exact hiff.trans (and_iff_left h.one_le_version)

end Replace

/-! ## Operations -/

/-- The operations on a plan, with the arguments of their callers. -/
inductive PlanOperation where
  | recordStepStarted (stepId : String)
  | recordStepTerminal (stepId : String) (succeeded retryable correctedDecisionAllowed : Bool)
  | invalidateMoveTarget (stepId : String)
  | replaceMoveTarget (stepId : String) (targetId : Option String) (version : ℤ)
  | completeSocialOpportunity
deriving DecidableEq, Repr

namespace PlanOperation

def apply (plan : ActivityPlan) : PlanOperation → Except String ActivityPlan
  | recordStepStarted stepId => LlmGateway.recordStepStarted plan stepId
  | recordStepTerminal stepId succeeded retryable correctedDecisionAllowed =>
    LlmGateway.recordStepTerminal plan stepId succeeded retryable correctedDecisionAllowed
  | invalidateMoveTarget stepId => LlmGateway.invalidateMoveTarget plan stepId
  | replaceMoveTarget stepId targetId version =>
    LlmGateway.replaceMoveTarget plan stepId targetId version
  | completeSocialOpportunity => LlmGateway.completeSocialOpportunity plan

/-- An operation that raises leaves its caller with the plan it had. -/
def exec (plan : ActivityPlan) (operation : PlanOperation) : ActivityPlan :=
  (operation.apply plan).toOption.getD plan

/-- The steps that an operation accepts as the current one. -/
def Accepts (current : ActivityPlanStep) : PlanOperation → Prop
  | recordStepStarted stepId => current.stepId = stepId ∧ current.skillName ≠ none ∧
      (current.status = .pending ∨ current.status = .started)
  | recordStepTerminal stepId .. => current.stepId = stepId ∧ current.skillName ≠ none
  | invalidateMoveTarget stepId | replaceMoveTarget stepId .. =>
    current.stepId = stepId ∧ current.skillName = some "move_to"
  | completeSocialOpportunity => current.skillName = none ∧ current.phase = "social"

instance (current : ActivityPlanStep) :
    (operation : PlanOperation) → Decidable (operation.Accepts current)
  | recordStepStarted _ => inferInstanceAs (Decidable (_ ∧ _))
  | recordStepTerminal .. => inferInstanceAs (Decidable (_ ∧ _))
  | invalidateMoveTarget _ => inferInstanceAs (Decidable (_ ∧ _))
  | replaceMoveTarget .. => inferInstanceAs (Decidable (_ ∧ _))
  | completeSocialOpportunity => inferInstanceAs (Decidable (_ ∧ _))

/-- The current step as the operation leaves it. -/
def touched (current : ActivityPlanStep) : PlanOperation → ActivityPlanStep
  | recordStepStarted _ => { current with status := .started, attemptCount := current.attempts }
  | recordStepTerminal _ true _ _ =>
    { current with status := .succeeded, attemptCount := current.attempts }
  | recordStepTerminal _ false retryable correctedDecisionAllowed =>
    if (retryable ∨ correctedDecisionAllowed) ∧ current.attempts < current.maxAttempts then
      { current with status := .pending, attemptCount := current.attempts }
    else { current with status := .skipped, attemptCount := current.attempts }
  | invalidateMoveTarget _ =>
    { current with
      sceneTargetId := none, status := .pending
      attemptCount := min (current.attemptCount + 1) current.maxAttempts }
  | replaceMoveTarget _ targetId _ =>
    { current with sceneTargetId := targetId, status := .pending }
  | completeSocialOpportunity => { current with status := .succeeded }

/-- The step is done with, so that the next one becomes current. -/
def advances (current : ActivityPlanStep) : PlanOperation → Bool
  | recordStepStarted _ | invalidateMoveTarget _ | replaceMoveTarget .. => false
  | recordStepTerminal _ succeeded retryable correctedDecisionAllowed =>
    succeeded || !((retryable ∨ correctedDecisionAllowed) ∧
      current.attempts < current.maxAttempts)
  | completeSocialOpportunity => true

def versionAfter (plan : ActivityPlan) : PlanOperation → ℤ
  | replaceMoveTarget _ _ version => version
  | recordStepStarted _ | recordStepTerminal .. | invalidateMoveTarget _
  | completeSocialOpportunity => plan.version

/-- The plan that an accepted operation returns. -/
def result (plan : ActivityPlan) (current : ActivityPlanStep) (operation : PlanOperation) :
    ActivityPlan :=
  if operation.advances current then advanceAfterTerminal plan (operation.touched current)
  else
    { plan with
      steps := replaceStep plan (operation.touched current)
      version := operation.versionAfter plan }

variable {plan plan' : ActivityPlan} {operation : PlanOperation} {current : ActivityPlanStep}

/-- Every operation replaces the current step, if it accepts it. -/
theorem apply_eq_ok_iff :
    operation.apply plan = .ok plan' ↔ ∃ current, plan.currentStep = .ok current ∧
      operation.Accepts current ∧ operation.result plan current = plan' := by
  cases operation with
  | recordStepTerminal stepId succeeded retryable correctedDecisionAllowed =>
    simp only [apply, LlmGateway.recordStepTerminal, bind_eq_ok_iff, raiseIf_eq_ok_iff, exists_and_left,
      exists_const]
    apply exists_congr
    intro current
    apply and_congr_right
    intro _
    push Not
    apply and_congr_right
    intro _
    cases succeeded with
    | true =>
      simp only [result, advances, touched, Bool.true_or, if_true, pure, Except.pure,
        Except.ok.injEq]
    | false =>
      by_cases hretry : (retryable = true ∨ correctedDecisionAllowed = true) ∧
          current.attempts < current.maxAttempts
      · simp only [result, advances, touched, versionAfter, Bool.false_eq_true, if_false,
          if_pos hretry, decide_eq_true hretry, Bool.not_true, Bool.or_false, pure, Except.pure,
          Except.ok.injEq]
      · simp only [result, advances, touched, Bool.false_eq_true, if_false, if_neg hretry,
          decide_eq_false hretry, Bool.not_false, Bool.or_true, if_true, pure, Except.pure,
          Except.ok.injEq]
  | recordStepStarted stepId =>
    simp only [apply, LlmGateway.recordStepStarted, bind_eq_ok_iff, raiseIf_eq_ok_iff, pure, Except.pure,
      Except.ok.injEq, exists_and_left, exists_const]
    push Not
    simp only [Accepts, result, advances, touched, versionAfter, and_assoc, or_iff_not_imp_left]
    rfl
  | invalidateMoveTarget stepId =>
    simp only [apply, LlmGateway.invalidateMoveTarget, bind_eq_ok_iff, raiseIf_eq_ok_iff, pure, Except.pure,
      Except.ok.injEq, exists_and_left, exists_const]
    push Not
    rfl
  | replaceMoveTarget stepId targetId version =>
    simp only [apply, LlmGateway.replaceMoveTarget, bind_eq_ok_iff, raiseIf_eq_ok_iff, pure, Except.pure,
      Except.ok.injEq, exists_and_left, exists_const]
    push Not
    rfl
  | completeSocialOpportunity =>
    simp only [apply, LlmGateway.completeSocialOpportunity, bind_eq_ok_iff, raiseIf_eq_ok_iff, pure,
      Except.pure, Except.ok.injEq, exists_and_left, exists_const]
    push Not
    rfl

theorem touched_retouches (operation : PlanOperation) (current : ActivityPlanStep) :
    (operation.touched current).Retouches current := by
  cases operation with
  | recordStepTerminal stepId succeeded retryable correctedDecisionAllowed =>
    cases succeeded with
    | true => exact ⟨rfl, rfl, rfl, rfl, rfl, rfl⟩
    | false =>
      simp only [touched]
      split_ifs <;> exact ⟨rfl, rfl, rfl, rfl, rfl, rfl⟩
  | recordStepStarted | invalidateMoveTarget | replaceMoveTarget | completeSocialOpportunity =>
    exact ⟨rfl, rfl, rfl, rfl, rfl, rfl⟩

theorem result_wellFormed_iff (h : plan.WellFormed) (hcurrent : plan.currentStep = .ok current) :
    (operation.result plan current).WellFormed ↔
      (operation.touched current).WellFormed ∧ 1 ≤ operation.versionAfter plan := by
  have hr := operation.touched_retouches current
  unfold result
  split_ifs with hadvances
  · have hversion : operation.versionAfter plan = plan.version := by
      cases operation with
      | replaceMoveTarget => exact absurd hadvances Bool.false_ne_true
      | recordStepStarted | recordStepTerminal | invalidateMoveTarget
      | completeSocialOpportunity => rfl
    rw [advanceAfterTerminal_wellFormed_iff h hcurrent hr, hversion, and_iff_left h.one_le_version]
  · exact replaceStep_wellFormed_iff h hcurrent hr

/-- An operation on a well formed plan that raises leaves it well formed. -/
theorem exec_wellFormed_iff (h : plan.WellFormed) :
    (operation.exec plan).WellFormed ↔ ∀ current, plan.currentStep = .ok current →
      operation.Accepts current →
        (operation.touched current).WellFormed ∧ 1 ≤ operation.versionAfter plan := by
  unfold exec
  cases happly : operation.apply plan with
  | error message =>
    refine iff_of_true h fun current hcurrent haccepts ↦ ?_
    have hok := apply_eq_ok_iff.2 ⟨current, hcurrent, haccepts, rfl⟩
    exact nomatch happly.symm.trans hok
  | ok plan' =>
    obtain ⟨current, hcurrent, haccepts, rfl⟩ := apply_eq_ok_iff.1 happly
    apply (result_wellFormed_iff h hcurrent).trans
    constructor
    · intro htouched found hfound _
      rwa [← Except.ok.inj (hcurrent.symm.trans hfound)]
    · exact fun hall ↦ hall current hcurrent haccepts

/-! ## Operations that suit the current step -/

/-- The step is started, or has an attempt left. -/
def HasAttempt (step : ActivityPlanStep) : Prop :=
  step.status = .started ∨ step.attemptCount < step.maxAttempts

instance (step : ActivityPlanStep) : Decidable (HasAttempt step) :=
  inferInstanceAs (Decidable (_ ∨ _))

/-- What a valid plan needs of an operation on its current step. -/
def Suits (current : ActivityPlanStep) : PlanOperation → Prop
  | recordStepStarted _ | recordStepTerminal .. => HasAttempt current
  | invalidateMoveTarget _ | completeSocialOpportunity => True
  | replaceMoveTarget _ targetId version =>
    (∀ target ∈ targetId, IsNonEmptyString 256 target) ∧ 1 ≤ version

instance (current : ActivityPlanStep) :
    (operation : PlanOperation) → Decidable (operation.Suits current)
  | recordStepStarted _ => inferInstanceAs (Decidable (HasAttempt current))
  | recordStepTerminal .. => inferInstanceAs (Decidable (HasAttempt current))
  | invalidateMoveTarget _ => inferInstanceAs (Decidable True)
  | completeSocialOpportunity => inferInstanceAs (Decidable True)
  | replaceMoveTarget .. => inferInstanceAs (Decidable (_ ∧ _))

theorem attempts_le_iff {step : ActivityPlanStep} (h : step.WellFormed) :
    step.attempts ≤ step.maxAttempts ↔ HasAttempt step := by
  have hle := h.attemptCount_le
  unfold ActivityPlanStep.attempts HasAttempt
  split_ifs with hstarted
  · exact iff_of_true hle (Or.inl hstarted)
  · rw [or_iff_right hstarted]
    omega

theorem attempts_nonneg {step : ActivityPlanStep} (h : step.WellFormed) : 0 ≤ step.attempts := by
  have hnonneg := h.attemptCount_nonneg
  unfold ActivityPlanStep.attempts
  split_ifs <;> omega

/-- A step with a new status and one more attempt is well formed if it had an attempt. -/
theorem wellFormed_attempt_iff {step : ActivityPlanStep} (h : step.WellFormed)
    (status : StepStatus) :
    ActivityPlanStep.WellFormed { step with status, attemptCount := step.attempts } ↔
      HasAttempt step := by
  have hr : ActivityPlanStep.Retouches { step with status, attemptCount := step.attempts } step :=
    ⟨rfl, rfl, rfl, rfl, rfl, rfl⟩
  rw [h.retouched_iff hr, ← attempts_le_iff h]
  constructor
  · exact fun h ↦ h.2.2.2
  · exact fun hle ↦ ⟨h.sceneTargetId, h.targeted, attempts_nonneg h, hle⟩

/-- The step that an operation leaves, and the version, are valid if the operation suits it. -/
theorem touched_wellFormed_iff {operation : PlanOperation} {plan : ActivityPlan}
    {current : ActivityPlanStep} (h : plan.WellFormed) (hcurrent : current.WellFormed)
    (haccepts : operation.Accepts current) :
    ((operation.touched current).WellFormed ∧ 1 ≤ operation.versionAfter plan) ↔
      operation.Suits current := by
  cases operation with
  | recordStepStarted stepId =>
    exact (and_iff_left h.one_le_version).trans (wellFormed_attempt_iff hcurrent .started)
  | recordStepTerminal stepId succeeded retryable correctedDecisionAllowed =>
    apply (and_iff_left h.one_le_version).trans
    cases succeeded with
    | true => exact wellFormed_attempt_iff hcurrent .succeeded
    | false =>
      simp only [touched]
      split_ifs
      · exact wellFormed_attempt_iff hcurrent .pending
      · exact wellFormed_attempt_iff hcurrent .skipped
  | invalidateMoveTarget stepId =>
    refine iff_of_true ⟨?_, h.one_le_version⟩ trivial
    apply (hcurrent.retouched_iff (touched_retouches _ current)).2
    have hnonneg := hcurrent.attemptCount_nonneg
    have hone := hcurrent.one_le_maxAttempts
    have hattempts : 0 ≤ min (current.attemptCount + 1) current.maxAttempts := by omega
    exact ⟨fun _ h ↦ (nomatch h), fun h ↦ absurd h Bool.false_ne_true, hattempts, min_le_right _ _⟩
  | replaceMoveTarget stepId targetId version =>
    apply and_congr_left
    intro _
    rw [hcurrent.retouched_iff (touched_retouches _ current)]
    constructor
    · exact And.left
    · exact fun htarget ↦ ⟨htarget, fun _ ↦ haccepts.2, hcurrent.attemptCount_nonneg,
        hcurrent.attemptCount_le⟩
  | completeSocialOpportunity =>
    refine iff_of_true ⟨?_, h.one_le_version⟩ trivial
    apply (hcurrent.retouched_iff (touched_retouches _ current)).2
    exact ⟨hcurrent.sceneTargetId, hcurrent.targeted, hcurrent.attemptCount_nonneg,
      hcurrent.attemptCount_le⟩

/-! ## The plan after an operation -/

theorem steps_result (operation : PlanOperation) (plan : ActivityPlan)
    (current : ActivityPlanStep) :
    (operation.result plan current).steps = replaceStep plan (operation.touched current) := by
  unfold result
  split
  · exact (repositions_advanceAfterTerminal plan _).steps_eq
  · rfl

/-- The touched step is found under the id of the current one. -/
theorem step_result (hcurrent : plan.currentStep = .ok current) :
    (operation.result plan current).step current.stepId = .ok (operation.touched current) := by
  have hstepId := (operation.touched_retouches current).stepId_eq
  obtain ⟨stepId, hid, hstep⟩ := ActivityPlan.currentStep_eq_ok_iff.1 hcurrent
  have hcurrentId := ActivityPlan.currentStepId_of_currentStep hcurrent
  obtain rfl : stepId = current.stepId := Option.some.inj (hid.symm.trans hcurrentId)
  apply ActivityPlan.step_eq_ok_iff.2
  rw [steps_result, find?_replaceStep, ActivityPlan.step_eq_ok_iff.1 hstep]
  exact congrArg some (if_pos hstepId.symm)

theorem currentStep_result (hcurrent : plan.currentStep = .ok current)
    (hadvances : operation.advances current = false) :
    (operation.result plan current).currentStep = .ok (operation.touched current) := by
  apply ActivityPlan.currentStep_eq_ok_iff.2
  refine ⟨current.stepId, ?_, step_result hcurrent⟩
  have hid := ActivityPlan.currentStepId_of_currentStep hcurrent
  unfold result
  rwa [if_neg (Bool.eq_false_iff.1 hadvances)]

/-- An operation that has nothing left to touch gives the plan back. -/
theorem result_eq_self (h : plan.WellFormed) (hcurrent : plan.currentStep = .ok current)
    (hadvances : operation.advances current = false) (htouched : operation.touched current = current)
    (hversion : operation.versionAfter plan = plan.version) :
    operation.result plan current = plan := by
  have hmem := ActivityPlan.mem_of_currentStep hcurrent
  unfold result
  rw [if_neg (Bool.eq_false_iff.1 hadvances), htouched, hversion, replaceStep_self h.nodup hmem]

/-- The attempts of the touched step tell whether the operation suits, unless it brings a new
target. -/
theorem suits_of_attemptCount_le (h : current.WellFormed)
    (htarget : ∀ stepId targetId version, operation ≠ .replaceMoveTarget stepId targetId version)
    (hle : (operation.touched current).attemptCount ≤ current.maxAttempts) :
    operation.Suits current := by
  cases operation with
  | recordStepStarted stepId => exact (attempts_le_iff h).1 hle
  | recordStepTerminal stepId succeeded retryable correctedDecisionAllowed =>
    cases succeeded with
    | true => exact (attempts_le_iff h).1 hle
    | false =>
      simp only [touched] at hle
      split_ifs at hle
      · exact (attempts_le_iff h).1 hle
      · exact (attempts_le_iff h).1 hle
  | invalidateMoveTarget stepId => trivial
  | replaceMoveTarget stepId targetId version => exact absurd rfl (htarget _ _ _)
  | completeSocialOpportunity => trivial

end PlanOperation

end LlmGateway
