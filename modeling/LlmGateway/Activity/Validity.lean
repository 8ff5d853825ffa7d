import LlmGateway.Activity.Plan
import Mathlib.Algebra.Order.Ring.Int

/-!
# Valid activity plans

What the validators of an activity plan accept, as a structure: a plan is given back unchanged
by its validation exactly when it is well formed (`ActivityPlan.validate_eq_ok_self_iff`), and
whatever validation gives back is well formed (`ActivityPlan.wellFormed_of_validate`).
-/

namespace LlmGateway

open Relational

/-! ## Texts -/

/-- A text that starts with a character kept by `p` is not shortened at the start when its end
is cut off. -/
theorem dropWhile_rdropWhile_dropWhile {α : Type*} (p : α → Bool) (l : List α) :
    ((l.dropWhile p).rdropWhile p).dropWhile p = (l.dropWhile p).rdropWhile p := by
  rw [List.dropWhile_eq_self_iff]
  intro hpos
  have hcut := List.rdropWhile_prefix p (l.dropWhile p)
  have hne : 0 < (l.dropWhile p).length := hpos.trans_le hcut.length_le
  have hhead : ¬ p (l.dropWhile p)[0] = true := by
    have hself := List.dropWhile_idempotent p l
    exact List.dropWhile_eq_self_iff.1 hself hne
  rw [hcut.getElem hpos]
  exact hhead

theorem strip_strip (text : String) : strip (strip text) = strip text := by
  unfold strip
  rw [String.toList_ofList, dropWhile_rdropWhile_dropWhile, List.rdropWhile_idempotent]

/-- A text that validation leaves as it is. -/
structure IsNonEmptyString (maxLength : ℕ) (text : String) : Prop where
  strip_eq : strip text = text
  one_le : 1 ≤ text.length
  le_maxLength : text.length ≤ maxLength

instance (maxLength : ℕ) (text : String) : Decidable (IsNonEmptyString maxLength text) :=
  decidable_of_iff (strip text = text ∧ 1 ≤ text.length ∧ text.length ≤ maxLength)
    ⟨fun h ↦ ⟨h.1, h.2.1, h.2.2⟩, fun h ↦ ⟨h.1, h.2, h.3⟩⟩

theorem nonEmptyString_eq_ok_iff {maxLength : ℕ} {raw text : String} :
    nonEmptyString maxLength raw = .ok text ↔
      strip raw = text ∧ IsNonEmptyString maxLength text := by
  unfold nonEmptyString
  split_ifs with hshort hlong
  · simp only [false_iff]
    intro h
    have hlength := h.2.one_le
    rw [h.1] at hshort
    omega
  · simp only [false_iff]
    intro h
    have hlength := h.2.le_maxLength
    rw [h.1] at hlong
    omega
  · rw [Except.ok.injEq]
    constructor
    · intro h
      rw [← h]
      exact ⟨rfl, strip_strip raw, by omega, by omega⟩
    · exact And.left

theorem optionalNonEmptyString_eq_ok_iff {maxLength : ℕ} {raw text : Option String} :
    optionalNonEmptyString maxLength raw = .ok text ↔
      raw.map strip = text ∧ ∀ name ∈ text, IsNonEmptyString maxLength name := by
  cases raw with
  | none =>
    simp only [optionalNonEmptyString, Except.ok.injEq, Option.map_none]
    constructor
    · intro h
      rw [← h]
      exact ⟨rfl, nofun⟩
    · exact And.left
  | some raw =>
    simp only [optionalNonEmptyString, map_eq_ok_iff, nonEmptyString_eq_ok_iff, Option.map_some]
    constructor
    · rintro ⟨name, ⟨hstrip, hname⟩, rfl⟩
      rw [hstrip]
      exact ⟨rfl, fun _ h ↦ Option.some.inj h ▸ hname⟩
    · intro h
      exact ⟨strip raw, ⟨rfl, h.2 _ h.1.symm⟩, h.1⟩

theorem map_strip_eq_self {maxLength : ℕ} {text : Option String}
    (h : ∀ name ∈ text, IsNonEmptyString maxLength name) : text.map strip = text := by
  cases text with
  | none => rfl
  | some name => exact congrArg some (h name rfl).strip_eq

/-! ## Checks -/

theorem raiseIf_eq_ok_iff {condition : Prop} [Decidable condition] {message : String}
    {u : Unit} : raiseIf condition message = .ok u ↔ ¬ condition := by
  unfold raiseIf
  split <;> simp_all

/-! ## Steps -/

namespace ActivityPlanStep

/-- What `validate_action_identity` says of the fields that no operation replaces. -/
structure IsPlanned (step : ActivityPlanStep) : Prop where
  paired : step.skillName.isNone = step.schemaVersion.isNone
  not_chat : step.skillName ≠ some "nearby_chat_send"
  canonical : ∀ name ∈ step.skillName, name ∈ canonicalNonChatSkills
  version : step.skillName.isSome → step.schemaVersion = some "v1"
  social : step.skillName = none → step.phase = "social"

theorem validateActionIdentity_eq_ok_iff {step : ActivityPlanStep} :
    step.validateActionIdentity = .ok () ↔
      step.IsPlanned ∧ (step.sceneTargetId.isSome → step.skillName = some "move_to") ∧
        step.attemptCount ≤ step.maxAttempts := by
  simp only [validateActionIdentity, bind_eq_ok_iff, raiseIf_eq_ok_iff, exists_and_left,
    exists_const]
  push Not
  constructor
  · rintro ⟨hpaired, hchat, htarget, hcanonical, hversion, hsocial, hattempts⟩
    exact ⟨⟨hpaired, hchat, hcanonical, hversion, hsocial⟩, htarget, hattempts⟩
  · rintro ⟨⟨hpaired, hchat, hcanonical, hversion, hsocial⟩, htarget, hattempts⟩
    exact ⟨hpaired, hchat, htarget, hcanonical, hversion, hsocial, hattempts⟩

/-- A step that validation leaves as it is. -/
structure WellFormed (step : ActivityPlanStep) : Prop where
  stepId : IsNonEmptyString 128 step.stepId
  phase : IsNonEmptyString 64 step.phase
  skillName : ∀ name ∈ step.skillName, IsNonEmptyString 128 name
  schemaVersion : ∀ version ∈ step.schemaVersion, IsNonEmptyString 128 version
  sceneTargetId : ∀ target ∈ step.sceneTargetId, IsNonEmptyString 256 target
  intent : IsNonEmptyString 512 step.intent
  one_le_maxAttempts : 1 ≤ step.maxAttempts
  maxAttempts_le : step.maxAttempts ≤ 2
  attemptCount_nonneg : 0 ≤ step.attemptCount
  planned : step.IsPlanned
  targeted : step.sceneTargetId.isSome → step.skillName = some "move_to"
  attemptCount_le : step.attemptCount ≤ step.maxAttempts

theorem wellFormed_of_validate {raw step : ActivityPlanStep} (h : raw.validate = .ok step) :
    step.WellFormed := by
  simp only [validate, bind_eq_ok_iff, raiseIf_eq_ok_iff, exists_and_left, exists_const,
    nonEmptyString_eq_ok_iff, optionalNonEmptyString_eq_ok_iff] at h
  obtain ⟨stepId, ⟨-, hstepId⟩, phase, ⟨-, hphase⟩, skillName, ⟨-, hskillName⟩, schemaVersion,
    ⟨-, hschemaVersion⟩, sceneTargetId, ⟨-, hsceneTargetId⟩, intent, ⟨-, hintent⟩, hmin, hmax,
    hattempts, hattempts', ⟨⟩, hidentity, hstep⟩ := h
  obtain ⟨hplanned, htargeted, hle⟩ := validateActionIdentity_eq_ok_iff.1 hidentity
  cases hstep
  exact ⟨hstepId, hphase, hskillName, hschemaVersion, hsceneTargetId, hintent, not_lt.1 hmin,
    not_lt.1 hmax, not_lt.1 hattempts, hplanned, htargeted, hle⟩

/-- Validation does not mend the attempts of a step. -/
theorem attemptCount_le_of_validate {raw step : ActivityPlanStep} (h : raw.validate = .ok step) :
    raw.attemptCount ≤ raw.maxAttempts := by
  simp only [validate, bind_eq_ok_iff, raiseIf_eq_ok_iff, exists_and_left, exists_const] at h
  obtain ⟨stepId, -, phase, -, skillName, -, schemaVersion, -, sceneTargetId, -, intent, -, -, -,
    -, -, ⟨⟩, hidentity, -⟩ := h
  exact (validateActionIdentity_eq_ok_iff.1 hidentity).2.2

theorem WellFormed.validate_eq {step : ActivityPlanStep} (h : step.WellFormed) :
    step.validate = .ok step := by
  have hidentity := validateActionIdentity_eq_ok_iff.2 ⟨h.planned, h.targeted, h.attemptCount_le⟩
  have hattempts : step.attemptCount ≤ 2 := h.attemptCount_le.trans h.maxAttempts_le
  simp only [validate, bind_eq_ok_iff, raiseIf_eq_ok_iff, exists_and_left, exists_const,
    nonEmptyString_eq_ok_iff, optionalNonEmptyString_eq_ok_iff]
  exact ⟨_, ⟨h.stepId.strip_eq, h.stepId⟩, _, ⟨h.phase.strip_eq, h.phase⟩,
    _, ⟨map_strip_eq_self h.skillName, h.skillName⟩,
    _, ⟨map_strip_eq_self h.schemaVersion, h.schemaVersion⟩,
    _, ⟨map_strip_eq_self h.sceneTargetId, h.sceneTargetId⟩,
    _, ⟨h.intent.strip_eq, h.intent⟩, not_lt.2 h.one_le_maxAttempts, not_lt.2 h.maxAttempts_le,
    not_lt.2 h.attemptCount_nonneg, not_lt.2 hattempts, (), hidentity, rfl⟩

theorem validate_eq_ok_self_iff {step : ActivityPlanStep} :
    step.validate = .ok step ↔ step.WellFormed :=
  ⟨wellFormed_of_validate, WellFormed.validate_eq⟩

end ActivityPlanStep

/-! ## Plans -/

/-- What `_validate_social_opportunity_layout` says. -/
structure SocialOpportunityLast (steps : List ActivityPlanStep) : Prop where
  at_most_one : ((steps.map (·.skillName)).findIdxs Option.isNone).length ≤ 1
  last : ∀ first ∈ ((steps.map (·.skillName)).findIdxs Option.isNone).head?,
    first + 1 = steps.length

theorem validateSocialOpportunityLayout_eq_ok_iff {steps : List ActivityPlanStep} :
    validateSocialOpportunityLayout steps = .ok () ↔ SocialOpportunityLast steps := by
  simp only [validateSocialOpportunityLayout, bind_eq_ok_iff, raiseIf_eq_ok_iff, exists_and_left,
    exists_const]
  push Not
  exact ⟨fun h ↦ ⟨h.1, h.2⟩, fun h ↦ ⟨h.1, h.2⟩⟩

namespace ActivityPlan

/-- A plan that validation leaves as it is. -/
structure WellFormed (plan : ActivityPlan) : Prop where
  planId : IsNonEmptyString 128 plan.planId
  goalId : IsNonEmptyString 128 plan.goalId
  goalSummary : IsNonEmptyString 512 plan.goalSummary
  phase : IsNonEmptyString 64 plan.phase
  one_le_version : 1 ≤ plan.version
  currentStepId : ∀ stepId ∈ plan.currentStepId, IsNonEmptyString 128 stepId
  steps : ∀ step ∈ plan.steps, step.WellFormed
  nodup : (plan.steps.map (·.stepId)).Nodup
  social : SocialOpportunityLast plan.steps
  three_le_executable : 3 ≤ plan.executableCount
  executable_le : plan.executableCount ≤ 6
  length_le : plan.steps.length ≤ 7
  currentStepId_mem : ∀ stepId ∈ plan.currentStepId, stepId ∈ plan.steps.map (·.stepId)
  completed : plan.status = .completed → plan.currentStepId = none
  active : plan.status = .active → plan.currentStepId ≠ none
  phase_eq : ∀ current ∈ plan.currentStep.toOption, current.phase = plan.phase

theorem wellFormed_of_validate {raw plan : ActivityPlan} (h : raw.validate = .ok plan) :
    plan.WellFormed := by
  simp only [validate, validatePlanState, bind_eq_ok_iff, raiseIf_eq_ok_iff, exists_and_left,
    exists_const, nonEmptyString_eq_ok_iff, optionalNonEmptyString_eq_ok_iff] at h
  obtain ⟨planId, ⟨-, hplanId⟩, goalId, ⟨-, hgoalId⟩, goalSummary, ⟨-, hgoalSummary⟩, phase,
    ⟨-, hphase⟩, hversion, currentStepId, ⟨-, hcurrentStepId⟩, steps, hsteps,
    ⟨hnodup, ⟨⟩, hlayout, hthree, hsix, hseven, hmem, hcompleted, hactive, hcurrent⟩, hplan⟩ := h
  cases hplan
  push Not at hnodup hthree hsix hseven hmem hcompleted hactive hcurrent hversion
  refine ⟨hplanId, hgoalId, hgoalSummary, hphase, hversion, hcurrentStepId, fun step hstep ↦ ?_,
    hnodup, validateSocialOpportunityLayout_eq_ok_iff.1 hlayout, hthree, hsix, hseven, hmem,
    hcompleted, hactive, hcurrent⟩
  obtain ⟨raw, -, hraw⟩ := forall_mem_of_mapM_eq_ok hsteps step hstep
  exact ActivityPlanStep.wellFormed_of_validate hraw

theorem attemptCount_le_of_validate {raw plan : ActivityPlan} (h : raw.validate = .ok plan) :
    ∀ step ∈ raw.steps, step.attemptCount ≤ step.maxAttempts := by
  simp only [validate, bind_eq_ok_iff] at h
  obtain ⟨planId, -, goalId, -, goalSummary, -, phase, -, -, -, currentStepId, -, steps, hsteps,
    -⟩ := h
  intro step hstep
  obtain ⟨validated, hvalidated⟩ := exists_of_mapM_eq_ok hsteps step hstep
  exact ActivityPlanStep.attemptCount_le_of_validate hvalidated

theorem WellFormed.validate_eq {plan : ActivityPlan} (h : plan.WellFormed) :
    plan.validate = .ok plan := by
  have hsteps : plan.steps.mapM ActivityPlanStep.validate = .ok plan.steps :=
    mapM_eq_ok_self_iff.2 fun step hstep ↦ (h.steps step hstep).validate_eq
  have hlayout := validateSocialOpportunityLayout_eq_ok_iff.2 h.social
  simp only [validate, validatePlanState, bind_eq_ok_iff, raiseIf_eq_ok_iff, exists_and_left,
    exists_const, nonEmptyString_eq_ok_iff, optionalNonEmptyString_eq_ok_iff]
  push Not
  exact ⟨_, ⟨h.planId.strip_eq, h.planId⟩, _, ⟨h.goalId.strip_eq, h.goalId⟩,
    _, ⟨h.goalSummary.strip_eq, h.goalSummary⟩, _, ⟨h.phase.strip_eq, h.phase⟩,
    h.one_le_version, _, ⟨map_strip_eq_self h.currentStepId, h.currentStepId⟩, _, hsteps,
    ⟨h.nodup, (), hlayout, h.three_le_executable, h.executable_le, h.length_le,
      h.currentStepId_mem, h.completed, h.active, h.phase_eq⟩, rfl⟩

theorem validate_eq_ok_self_iff {plan : ActivityPlan} :
    plan.validate = .ok plan ↔ plan.WellFormed :=
  ⟨wellFormed_of_validate, WellFormed.validate_eq⟩

/-- A validated plan is validated again without a change. -/
theorem validate_validate {raw plan : ActivityPlan} (h : raw.validate = .ok plan) :
    plan.validate = .ok plan :=
  (wellFormed_of_validate h).validate_eq

end ActivityPlan

end LlmGateway
