import LlmGateway.Activity.Operation
import LlmGateway.Relational.Transition

/-!
# The position of an activity plan

A plan works through its steps in order. At a position the steps before it are done with, the
step at it is open and the steps after it are untouched; an operation retouches the step at the
position, and moves the position on by one step or not at all (`PlanOperation.at_result`).
-/

namespace LlmGateway

open Relational

/-- The step is done with. -/
def StepStatus.IsClosed (status : StepStatus) : Prop := status = .succeeded ∨ status = .skipped

instance : DecidablePred StepStatus.IsClosed := fun _ ↦ inferInstanceAs (Decidable (_ ∨ _))

/-- The step can be worked on. -/
def StepStatus.IsOpen (status : StepStatus) : Prop := status = .pending ∨ status = .started

instance : DecidablePred StepStatus.IsOpen := fun _ ↦ inferInstanceAs (Decidable (_ ∨ _))

theorem StepStatus.IsOpen.not_closed {status : StepStatus} (h : status.IsOpen) :
    ¬status.IsClosed := by
  intro hclosed
  cases h with
  | inl hpending =>
    rw [hpending] at hclosed
    cases hclosed with
    | inl hsame => cases hsame
    | inr hsame => cases hsame
  | inr hstarted =>
    rw [hstarted] at hclosed
    cases hclosed with
    | inl hsame => cases hsame
    | inr hsame => cases hsame

namespace ActivityPlan

/-- The index of the current step; the number of steps when there is none. -/
def currentIndex (plan : ActivityPlan) : ℕ :=
  plan.steps.findIdx fun step ↦ some step.stepId = plan.currentStepId

/-- The plan has worked through its steps up to this index. -/
structure At (plan : ActivityPlan) (index : ℕ) : Prop where
  nodup : (plan.steps.map (·.stepId)).Nodup
  current : plan.currentStepId = plan.steps[index]?.map (·.stepId)
  index_le : index ≤ plan.steps.length
  before : ∀ i < index, ∀ step ∈ plan.steps[i]?, step.status.IsClosed
  isOpen : ∀ step ∈ plan.steps[index]?, step.status.IsOpen
  after : ∀ i, index < i → ∀ step ∈ plan.steps[i]?, step.status = .pending ∧ step.attemptCount = 0
  status : plan.status = if index < plan.steps.length then .active else .completed

variable {plan : ActivityPlan} {index : ℕ} {current replacement : ActivityPlanStep}

/-- Unique steps under one id are at one index. -/
theorem index_eq (hnodup : (plan.steps.map (·.stepId)).Nodup) {i : ℕ} {step : ActivityPlanStep}
    (hstep : plan.steps[i]? = some step) (hcurrent : plan.steps[index]? = some current)
    (hid : step.stepId = current.stepId) : i = index := by
  have hi : (plan.steps.map (·.stepId))[i]? = some step.stepId := by
    rw [List.getElem?_map, hstep, Option.map_some]
  have hindex : (plan.steps.map (·.stepId))[index]? = some step.stepId := by
    rw [List.getElem?_map, hcurrent, Option.map_some, hid]
  have hlt := (List.getElem?_eq_some_iff.1 hi).1
  exact (List.getElem?_inj hlt hnodup).1 (hi.trans hindex.symm)

theorem getElem?_replaceStep (hnodup : (plan.steps.map (·.stepId)).Nodup)
    (hcurrent : plan.steps[index]? = some current) (hid : replacement.stepId = current.stepId)
    (i : ℕ) : (replaceStep plan replacement)[i]? =
      if i = index then some replacement else plan.steps[i]? := by
  unfold replaceStep
  rw [List.getElem?_map]
  cases hstep : plan.steps[i]? with
  | none =>
    have hne : i ≠ index := by
      intro heq
      rw [heq, hcurrent] at hstep
      cases hstep
    rw [if_neg hne, Option.map_none]
  | some step =>
    rw [Option.map_some]
    by_cases hi : i = index
    · rw [hi, hcurrent] at hstep
      rw [if_pos hi, ← Option.some.inj hstep, if_pos hid.symm]
    · have hother : step.stepId ≠ replacement.stepId := by
        intro hsame
        exact hi (index_eq hnodup hstep hcurrent (hsame.trans hid))
      rw [if_neg hi, if_neg hother]

namespace At

/-- The current step is the one at the index. -/
theorem currentStep_iff (h : plan.At index) :
    plan.currentStep = .ok current ↔ plan.steps[index]? = some current := by
  constructor
  · intro hcurrent
    have hid := currentStepId_of_currentStep hcurrent
    rw [h.current, Option.map_eq_some_iff] at hid
    obtain ⟨step, hstep, hid⟩ := hid
    have hsame : step = current := eq_of_stepId_eq h.nodup (List.mem_of_getElem? hstep)
      (mem_of_currentStep hcurrent) hid
    rw [hstep, hsame]
  · intro hstep
    apply currentStep_eq_ok_iff.2
    refine ⟨current.stepId, ?_, step_eq_of_mem h.nodup (List.mem_of_getElem? hstep)⟩
    rw [h.current, hstep, Option.map_some]

/-- The index of the current step is the position of the plan. -/
theorem currentIndex_eq (h : plan.At index) : plan.currentIndex = index := by
  unfold currentIndex
  cases hstep : plan.steps[index]? with
  | none =>
    have hnone : plan.currentStepId = none := by rw [h.current, hstep, Option.map_none]
    have hlength : index = plan.steps.length := by
      have hle := List.getElem?_eq_none_iff.1 hstep
      have hle' := h.index_le
      omega
    rw [hlength]
    apply List.findIdx_eq_length_of_false
    intro step _
    rw [hnone]
    exact decide_eq_false (Option.some_ne_none _)
  | some current =>
    have hid : plan.currentStepId = some current.stepId := by
      rw [h.current, hstep, Option.map_some]
    obtain ⟨hlt, hget⟩ := List.getElem?_eq_some_iff.1 hstep
    apply (List.findIdx_eq hlt).2
    constructor
    · rw [hget, hid]
      exact decide_eq_true rfl
    · intro j hj
      have hjlt : j < plan.steps.length := hj.trans hlt
      apply decide_eq_false
      intro hsame
      rw [hid, Option.some.injEq] at hsame
      have heq := index_eq h.nodup (List.getElem?_eq_getElem hjlt) hstep hsame
      omega

/-- The plan is completed exactly when no step is open. -/
theorem completed_iff (h : plan.At index) :
    plan.status = .completed ↔ ∀ step ∈ plan.steps, step.status.IsClosed := by
  rw [h.status]
  constructor
  · intro hstatus step hstep
    have hnot : ¬index < plan.steps.length := by
      intro hlt
      rw [if_pos hlt] at hstatus
      cases hstatus
    obtain ⟨i, hi⟩ := List.getElem?_of_mem hstep
    have hilt := (List.getElem?_eq_some_iff.1 hi).1
    exact h.before i (by omega) step hi
  · intro hclosed
    apply if_neg
    intro hlt
    have hopen := h.isOpen _ (List.getElem?_eq_getElem hlt)
    exact hopen.not_closed (hclosed _ (List.getElem_mem hlt))

/-- A retouched step that stays open keeps the plan at its position. -/
theorem stay (h : plan.At index) (hcurrent : plan.steps[index]? = some current)
    (hid : replacement.stepId = current.stepId) (hopen : replacement.status.IsOpen)
    (version : ℤ) :
    ActivityPlan.At { plan with steps := replaceStep plan replacement, version } index where
  nodup := by
    rw [map_replaceStep h.nodup (List.mem_of_getElem? hcurrent) hid hid]
    exact h.nodup
  current := by
    simp only [getElem?_replaceStep h.nodup hcurrent hid, if_true, Option.map_some]
    rw [h.current, hcurrent, Option.map_some, hid]
  index_le := (List.length_map _).symm ▸ h.index_le
  before i hi step hstep := by
    simp only [getElem?_replaceStep h.nodup hcurrent hid, if_neg (show i ≠ index by omega)] at hstep
    exact h.before i hi step hstep
  isOpen step hstep := by
    simp only [getElem?_replaceStep h.nodup hcurrent hid, if_true, Option.mem_def,
      Option.some.injEq] at hstep
    rw [← hstep]
    exact hopen
  after i hi step hstep := by
    simp only [getElem?_replaceStep h.nodup hcurrent hid, if_neg (show i ≠ index by omega)] at hstep
    exact h.after i hi step hstep
  status := by
    have hlength : (replaceStep plan replacement).length = plan.steps.length := List.length_map _
    rw [hlength]
    exact h.status

/-- A step that is closed moves the plan on to the next one. -/
theorem advance (h : plan.At index) (hcurrent : plan.steps[index]? = some current)
    (hid : replacement.stepId = current.stepId) (hclosed : replacement.status.IsClosed) :
    (advanceAfterTerminal plan replacement).At (index + 1) := by
  have hmem := List.mem_of_getElem? hcurrent
  have hlt := (List.getElem?_eq_some_iff.1 hcurrent).1
  have hindex : (plan.steps.findIdx fun step ↦ step.stepId = replacement.stepId) = index :=
    index_eq h.nodup (getElem?_currentIndex h.nodup hmem hid) hcurrent rfl
  have hsteps := getElem?_replaceStep h.nodup hcurrent hid
  have hlength : (replaceStep plan replacement).length = plan.steps.length := List.length_map _
  have hnodup : ((replaceStep plan replacement).map (·.stepId)).Nodup := by
    rw [map_replaceStep h.nodup hmem hid hid]
    exact h.nodup
  have hbefore : ∀ i < index + 1, ∀ step ∈ (replaceStep plan replacement)[i]?,
      step.status.IsClosed := by
    intro i hi step hstep
    rw [hsteps] at hstep
    split_ifs at hstep with heq
    · rw [← Option.some.inj hstep]
      exact hclosed
    · exact h.before i (by omega) step hstep
  have hlater : ∀ i, index < i → ∀ step ∈ (replaceStep plan replacement)[i]?,
      step.status = .pending ∧ step.attemptCount = 0 := by
    intro i hi step hstep
    rw [hsteps, if_neg (show i ≠ index by omega)] at hstep
    exact h.after i hi step hstep
  have hpending : ∀ step ∈ (replaceStep plan replacement)[index + 1]?, step.status.IsOpen :=
    fun step hstep ↦ Or.inl (hlater (index + 1) (by omega) step hstep).1
  simp only [advanceAfterTerminal, hindex]
  split
  · rename_i hnone
    have hle := List.getElem?_eq_none_iff.1 hnone
    refine ⟨hnodup, ?_, ?_, hbefore, hpending, fun i hi ↦ hlater i (by omega), ?_⟩
    · simp only [hnone, Option.map_none]
    · simp only [hlength]
      omega
    · exact (if_neg (show ¬index + 1 < (replaceStep plan replacement).length by omega)).symm
  · rename_i nextStep hnext
    have hnlt := (List.getElem?_eq_some_iff.1 hnext).1
    refine ⟨hnodup, ?_, hnlt.le, hbefore, hpending, fun i hi ↦ hlater i (by omega), ?_⟩
    · simp only [hnext, Option.map_some]
    · calc plan.status = .active := by rw [h.status, if_pos hlt]
        _ = _ := (if_pos hnlt).symm

end At

end ActivityPlan

/-! ## Materialized plans -/

/-- What validation leaves as it is, and the id, which it strips. -/
theorem ActivityPlanStep.of_validate {raw step : ActivityPlanStep} (h : raw.validate = .ok step) :
    step.stepId = strip raw.stepId ∧ step.status = raw.status ∧
      step.attemptCount = raw.attemptCount ∧ step.maxAttempts = raw.maxAttempts := by
  simp only [validate, bind_eq_ok_iff, nonEmptyString_eq_ok_iff,
    optionalNonEmptyString_eq_ok_iff] at h
  obtain ⟨stepId, ⟨hstrip, -⟩, phase, -, skillName, -, schemaVersion, -, sceneTargetId, -, intent,
    -, h⟩ := h
  obtain ⟨-, -, -, -, -, -, -, -, -, -, hstep⟩ := h
  cases hstep
  exact ⟨hstrip.symm, rfl, rfl, rfl⟩

theorem ActivityPlan.of_validate {raw plan : ActivityPlan} (h : raw.validate = .ok plan) :
    plan.status = raw.status ∧ plan.currentStepId = raw.currentStepId.map strip ∧
      raw.steps.mapM ActivityPlanStep.validate = .ok plan.steps := by
  simp only [validate, bind_eq_ok_iff, nonEmptyString_eq_ok_iff,
    optionalNonEmptyString_eq_ok_iff] at h
  obtain ⟨planId, -, goalId, -, goalSummary, -, phase, -, -, -, currentStepId, ⟨hcurrent, -⟩,
    steps, hsteps, -, -, hplan⟩ := h
  cases hplan
  exact ⟨rfl, hcurrent.symm, hsteps⟩

/-- What a materialized plan is the validation of. -/
theorem materialize_cases {proposal : ActivityPlanProposal} {planId : String} {version : ℤ}
    {availableSkills : List (String × String)} {lobby : Bool} {plan : ActivityPlan}
    (h : materializeActivityPlan proposal planId version availableSkills lobby = .ok plan) :
    ∃ first rest, proposal.steps = first :: rest ∧ ActivityPlan.validate
      { planId, goalId := proposal.goalId, goalSummary := proposal.goalSummary
        phase := first.phase, status := .active, version, currentStepId := some first.stepId
        steps := proposal.steps.map (·.toPlanStep) } = .ok plan := by
  simp only [materializeActivityPlan, bind_eq_ok_iff] at h
  obtain ⟨⟨⟩, -, ⟨⟩, -, h⟩ := h
  cases hsteps : proposal.steps with
  | nil =>
    rw [hsteps] at h
    cases h
  | cons first rest =>
    rw [hsteps] at h
    exact ⟨first, rest, rfl, h⟩

theorem wellFormed_of_materialize {proposal : ActivityPlanProposal} {planId : String} {version : ℤ}
    {availableSkills : List (String × String)} {lobby : Bool} {plan : ActivityPlan}
    (h : materializeActivityPlan proposal planId version availableSkills lobby = .ok plan) :
    plan.WellFormed := by
  obtain ⟨first, rest, -, hvalidate⟩ := materialize_cases h
  exact ActivityPlan.wellFormed_of_validate hvalidate

/-- The steps of a materialized plan are those of the proposal, untouched. -/
theorem materialize_steps {proposal : ActivityPlanProposal} {planId : String} {version : ℤ}
    {availableSkills : List (String × String)} {lobby : Bool} {plan : ActivityPlan}
    (h : materializeActivityPlan proposal planId version availableSkills lobby = .ok plan) :
    ∀ step ∈ plan.steps, step.status = .pending ∧ step.attemptCount = 0 := by
  obtain ⟨first, rest, -, hvalidate⟩ := materialize_cases h
  have hspec := ActivityPlan.of_validate hvalidate
  intro step hstep
  obtain ⟨raw, hraw, hvalid⟩ := forall_mem_of_mapM_eq_ok hspec.2.2 step hstep
  obtain ⟨proposed, -, rfl⟩ := List.mem_map.1 hraw
  have hkeeps := ActivityPlanStep.of_validate hvalid
  exact ⟨hkeeps.2.1, hkeeps.2.2.1⟩

/-- A materialized plan is at its first step. -/
theorem materialize_at {proposal : ActivityPlanProposal} {planId : String} {version : ℤ}
    {availableSkills : List (String × String)} {lobby : Bool} {plan : ActivityPlan}
    (h : materializeActivityPlan proposal planId version availableSkills lobby = .ok plan) :
    plan.At 0 := by
  have huntouched := materialize_steps h
  obtain ⟨first, rest, hproposal, hvalidate⟩ := materialize_cases h
  have hwell := ActivityPlan.wellFormed_of_validate hvalidate
  obtain ⟨hstatus, hcurrent, hsteps⟩ := ActivityPlan.of_validate hvalidate
  simp only [hproposal, List.map_cons] at hsteps
  obtain ⟨step, hstep, others, -, hlist⟩ := mapM_cons_eq_ok_iff.1 hsteps
  have hzero : plan.steps[0]? = some step := by rw [← hlist, List.getElem?_cons_zero]
  have hlt : 0 < plan.steps.length := (List.getElem?_eq_some_iff.1 hzero).1
  refine ⟨hwell.nodup, ?_, Nat.zero_le _, fun i hi ↦ absurd hi (Nat.not_lt_zero i), ?_, ?_, ?_⟩
  · rw [hcurrent, hzero, Option.map_some, Option.map_some, (ActivityPlanStep.of_validate hstep).1]
    rfl
  · intro s hs
    exact Or.inl (huntouched s (List.mem_of_getElem? hs)).1
  · intro i _ s hs
    exact huntouched s (List.mem_of_getElem? hs)
  · rw [hstatus, if_pos hlt]

/-! ## Operations -/

namespace PlanOperation

variable {plan plan' : ActivityPlan} {operation : PlanOperation} {current : ActivityPlanStep}
variable {index : ℕ}

theorem touched_isClosed (h : operation.advances current = true) :
    (operation.touched current).status.IsClosed := by
  cases operation with
  | recordStepStarted | invalidateMoveTarget | replaceMoveTarget => cases h
  | completeSocialOpportunity => exact Or.inl rfl
  | recordStepTerminal stepId succeeded retryable correctedDecisionAllowed =>
    cases succeeded with
    | true => exact Or.inl rfl
    | false =>
      simp only [advances, Bool.false_or, Bool.not_eq_true', decide_eq_false_iff_not] at h
      simp only [touched, if_neg h]
      exact Or.inr rfl

theorem touched_isOpen (h : operation.advances current = false) :
    (operation.touched current).status.IsOpen := by
  cases operation with
  | recordStepStarted => exact Or.inr rfl
  | invalidateMoveTarget | replaceMoveTarget => exact Or.inl rfl
  | completeSocialOpportunity => cases h
  | recordStepTerminal stepId succeeded retryable correctedDecisionAllowed =>
    cases succeeded with
    | true => cases h
    | false =>
      simp only [advances, Bool.false_or, Bool.not_eq_false', decide_eq_true_eq] at h
      simp only [touched, if_pos h]
      exact Or.inl rfl

/-- An accepted operation moves the plan on by one step if it closes the current one. -/
theorem at_result (operation : PlanOperation) (h : plan.At index)
    (hcurrent : plan.currentStep = .ok current) :
    (operation.result plan current).At
      (if operation.advances current then index + 1 else index) := by
  have hstep := h.currentStep_iff.1 hcurrent
  have hid := (operation.touched_retouches current).stepId_eq
  unfold result
  by_cases hadvances : operation.advances current = true
  · rw [if_pos hadvances, if_pos hadvances]
    exact h.advance hstep hid (touched_isClosed hadvances)
  · rw [if_neg hadvances, if_neg hadvances]
    exact h.stay hstep hid (touched_isOpen (Bool.eq_false_iff.2 hadvances)) _

/-- An operation leaves the plan at its position, or at the next one. -/
theorem at_exec (h : plan.At index) (operation : PlanOperation) :
    (exec plan operation).At index ∨ (exec plan operation).At (index + 1) := by
  unfold exec
  cases happly : operation.apply plan with
  | error message => exact Or.inl h
  | ok plan' =>
    obtain ⟨current, hcurrent, -, rfl⟩ := apply_eq_ok_iff.1 happly
    have hat := at_result operation h hcurrent
    split_ifs at hat
    · exact Or.inr hat
    · exact Or.inl hat

end PlanOperation

/-- A run of operations stays at some position, which does not decrease. -/
theorem run_at {plan : ActivityPlan} {index : ℕ} (h : plan.At index)
    (operations : List PlanOperation) :
    ∃ index', index ≤ index' ∧ (run PlanOperation.exec plan operations).At index' := by
  induction operations generalizing plan index with
  | nil => exact ⟨index, le_refl index, h⟩
  | cons operation operations ih =>
    cases PlanOperation.at_exec h operation with
    | inl hstays => exact ih hstays
    | inr hmoves =>
      obtain ⟨index', hle, hat⟩ := ih hmoves
      exact ⟨index', by omega, hat⟩

end LlmGateway
