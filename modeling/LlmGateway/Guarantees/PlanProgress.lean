import LlmGateway.Activity.Position
import LlmGateway.System.Scenario
import Mathlib.Algebra.BigOperators.Group.List.Basic
import Mathlib.Algebra.Order.BigOperators.Group.List

/-!
# The end of an activity plan

The attempts that the open steps of a plan have left bound the outcomes that are still to come.
Every outcome uses an attempt up, and a plan without attempts left is completed, as long as no
step is left open when its last attempt is gone. A lost target and a new target do leave it open:
a plan whose target is rejected again and again never ends (`not_planProgresses`).
-/

namespace LlmGateway

open Relational

/-- The outcomes that the step may still have. -/
def ActivityPlanStep.remaining (step : ActivityPlanStep) : ℤ :=
  if step.status.IsOpen then step.maxAttempts - step.attempts + 1 else 0

namespace ActivityPlan

/-- The outcomes that the plan may still have. -/
def remaining (plan : ActivityPlan) : ℤ := (plan.steps.map (·.remaining)).sum

/-- The attempts of all the steps together. -/
def totalAttempts (plan : ActivityPlan) : ℤ := (plan.steps.map (·.maxAttempts)).sum

/-- Every step that is open has an attempt left. -/
def HasAttempts (plan : ActivityPlan) : Prop :=
  ∀ step ∈ plan.steps, step.status.IsOpen → step.attempts ≤ step.maxAttempts

variable {plan : ActivityPlan} {index : ℕ} {current replacement : ActivityPlanStep}

theorem replaceStep_eq_set (hnodup : (plan.steps.map (·.stepId)).Nodup)
    (hcurrent : plan.steps[index]? = some current) (hid : replacement.stepId = current.stepId) :
    replaceStep plan replacement = plan.steps.set index replacement := by
  apply List.ext_getElem?
  intro i
  have hlt := (List.getElem?_eq_some_iff.1 hcurrent).1
  rw [getElem?_replaceStep hnodup hcurrent hid, List.getElem?_set]
  by_cases hi : i = index
  · rw [if_pos hi, if_pos hi.symm, if_pos hlt]
  · rw [if_neg hi, if_neg (Ne.symm hi)]

/-- The replaced step is what the sum changes by. -/
theorem sum_replaceStep (hnodup : (plan.steps.map (·.stepId)).Nodup)
    (hcurrent : plan.steps[index]? = some current) (hid : replacement.stepId = current.stepId) :
    ((replaceStep plan replacement).map (·.remaining)).sum =
      plan.remaining - current.remaining + replacement.remaining := by
  obtain ⟨hlt, hget⟩ := List.getElem?_eq_some_iff.1 hcurrent
  have hlt' : index < (plan.steps.map (·.remaining)).length := by rwa [List.length_map]
  rw [replaceStep_eq_set hnodup hcurrent hid, List.map_set, List.sum_set', dif_pos hlt',
    List.getElem_map, hget, remaining]
  omega

/-- The steps of a plan after one is replaced. -/
theorem forall_mem_replaceStep {p : ActivityPlanStep → Prop}
    (hcurrent : plan.steps[index]? = some current) (hid : replacement.stepId = current.stepId) (hall : ∀ step ∈ plan.steps, p step) :
    (∀ step ∈ replaceStep plan replacement, p step) ↔ p replacement := by
  constructor
  · intro h
    exact h replacement (mem_replaceStep (List.mem_of_getElem? hcurrent) hid)
  · intro h step hstep
    cases eq_or_mem_of_mem_replaceStep hstep with
    | inl heq => exact heq ▸ h
    | inr hmem => exact hall step hmem

theorem HasAttempts.remaining_nonneg (h : plan.HasAttempts) :
    ∀ step ∈ plan.steps, 0 ≤ step.remaining := by
  intro step hstep
  unfold ActivityPlanStep.remaining
  split_ifs with hopen
  · have hle := h step hstep hopen
    omega
  · exact le_refl 0

/-- A plan with an open step has an outcome left. -/
theorem HasAttempts.one_le_remaining (h : plan.HasAttempts) {step : ActivityPlanStep}
    (hstep : step ∈ plan.steps) (hopen : step.status.IsOpen) : 1 ≤ plan.remaining := by
  have hle : step.remaining ≤ plan.remaining := by
    apply List.single_le_sum
    · intro r hr
      obtain ⟨s, hs, rfl⟩ := List.mem_map.1 hr
      exact h.remaining_nonneg s hs
    · exact List.mem_map_of_mem hstep
  have hattempts := h step hstep hopen
  have hone : 1 ≤ step.remaining := by
    rw [ActivityPlanStep.remaining, if_pos hopen]
    omega
  omega

end ActivityPlan

namespace PlanOperation

/-- The operation records how a step has ended. -/
def isOutcome : PlanOperation → Bool
  | recordStepTerminal .. | invalidateMoveTarget _ | completeSocialOpportunity => true
  | recordStepStarted _ | replaceMoveTarget .. => false

/-- The operation ends the current step, with success or failure or by a rejection. -/
def Ends (plan : ActivityPlan) (operation : PlanOperation) : Prop :=
  operation.isOutcome = true ∧ (operation.apply plan).toOption.isSome = true

instance (plan : ActivityPlan) (operation : PlanOperation) : Decidable (Ends plan operation) :=
  inferInstanceAs (Decidable (_ ∧ _))

/-- The operation leaves the step with an attempt, or leaves it done with. -/
def LeavesAttempt (current : ActivityPlanStep) : PlanOperation → Prop
  | invalidateMoveTarget _ => current.attemptCount + 1 < current.maxAttempts
  | replaceMoveTarget .. => current.attemptCount < current.maxAttempts
  | recordStepStarted _ | recordStepTerminal .. | completeSocialOpportunity => True

instance (current : ActivityPlanStep) :
    (operation : PlanOperation) → Decidable (operation.LeavesAttempt current)
  | recordStepStarted _ => inferInstanceAs (Decidable True)
  | recordStepTerminal .. => inferInstanceAs (Decidable True)
  | invalidateMoveTarget _ => inferInstanceAs (Decidable (_ < _))
  | completeSocialOpportunity => inferInstanceAs (Decidable True)
  | replaceMoveTarget .. => inferInstanceAs (Decidable (_ < _))

/-- The operation raises, or does not leave the current step open without an attempt. -/
def Spares (plan : ActivityPlan) (operation : PlanOperation) : Prop :=
  ∀ current ∈ plan.currentStep.toOption, operation.Accepts current →
    operation.LeavesAttempt current

instance (plan : ActivityPlan) (operation : PlanOperation) : Decidable (Spares plan operation) :=
  inferInstanceAs (Decidable (∀ current ∈ plan.currentStep.toOption, _))

variable {plan : ActivityPlan} {operation : PlanOperation} {current : ActivityPlanStep} {index : ℕ}

/-- The touched step, if it is still open, has an attempt left exactly if the operation spares
it. -/
theorem touched_attempts_iff (hattempts : current.attempts ≤ current.maxAttempts) :
    ((operation.touched current).status.IsOpen →
      (operation.touched current).attempts ≤ (operation.touched current).maxAttempts) ↔
    operation.LeavesAttempt current := by
  cases operation with
  | recordStepStarted stepId => exact iff_of_true (fun _ ↦ hattempts) trivial
  | completeSocialOpportunity =>
    exact iff_of_true (fun hopen ↦ absurd (Or.inl rfl) hopen.not_closed) trivial
  | recordStepTerminal stepId succeeded retryable correctedDecisionAllowed =>
    refine iff_of_true (fun hopen ↦ ?_) trivial
    cases succeeded with
    | true => exact absurd (Or.inl rfl) hopen.not_closed
    | false =>
      simp only [touched] at hopen ⊢
      split_ifs at hopen ⊢ with hretry
      · have hlt := hretry.2
        simp only [ActivityPlanStep.attempts, reduceCtorEq, if_false] at hlt ⊢
        omega
      · exact absurd (Or.inr rfl) hopen.not_closed
  | invalidateMoveTarget stepId =>
    simp only [touched, ActivityPlanStep.attempts, LeavesAttempt, reduceCtorEq, if_false]
    constructor
    · intro h
      have hle := h (Or.inl rfl)
      omega
    · intro h _
      omega
  | replaceMoveTarget stepId targetId version =>
    simp only [touched, ActivityPlanStep.attempts, LeavesAttempt, reduceCtorEq, if_false]
    constructor
    · intro h
      have hle := h (Or.inl rfl)
      omega
    · intro h _
      omega

/-- An outcome uses up an attempt of the step, or closes it. -/
theorem touched_remaining (operation : PlanOperation) (hopen : current.status.IsOpen)
    (hattempts : current.attempts ≤ current.maxAttempts)
    (hspares : (operation.touched current).status.IsOpen →
      (operation.touched current).attempts ≤ (operation.touched current).maxAttempts) :
    (if operation.isOutcome = true then 1 else 0) + (operation.touched current).remaining ≤
      current.remaining := by
  have hleaves := (touched_attempts_iff hattempts).1 hspares
  have hremaining : current.remaining = current.maxAttempts - current.attempts + 1 :=
    if_pos hopen
  have hmax := (operation.touched_retouches current).maxAttempts_eq
  rw [hremaining]
  by_cases hstill : (operation.touched current).status.IsOpen
  · rw [ActivityPlanStep.remaining, if_pos hstill, hmax]
    cases operation with
    | recordStepStarted stepId => exact le_of_eq (zero_add _)
    | completeSocialOpportunity => exact absurd (Or.inl rfl) hstill.not_closed
    | recordStepTerminal stepId succeeded retryable correctedDecisionAllowed =>
      cases succeeded with
      | true => exact absurd (Or.inl rfl) hstill.not_closed
      | false =>
        by_cases hretry : (retryable = true ∨ correctedDecisionAllowed = true) ∧
            current.attempts < current.maxAttempts
        · simp only [touched, if_pos hretry, isOutcome, if_true]
          simp only [ActivityPlanStep.attempts, reduceCtorEq, if_false]
          omega
        · simp only [touched, if_neg hretry] at hstill
          exact absurd (Or.inr rfl) hstill.not_closed
    | invalidateMoveTarget stepId =>
      simp only [LeavesAttempt] at hleaves
      simp only [touched, ActivityPlanStep.attempts, isOutcome, reduceCtorEq, if_false, if_true]
      split_ifs <;> omega
    | replaceMoveTarget stepId targetId version =>
      simp only [touched, ActivityPlanStep.attempts, isOutcome, reduceCtorEq, if_false,
        Bool.false_eq_true]
      split_ifs <;> omega
  · rw [ActivityPlanStep.remaining, if_neg hstill]
    split_ifs <;> omega

/-! ## One operation -/

/-- An operation keeps an attempt for every open step exactly if it spares the current one. -/
theorem hasAttempts_exec_iff (hat : plan.At index) (h : plan.HasAttempts)
    (operation : PlanOperation) : (exec plan operation).HasAttempts ↔ Spares plan operation := by
  unfold exec Spares
  cases happly : operation.apply plan with
  | error message =>
    refine iff_of_true h fun current hcurrent haccepts ↦ ?_
    have hok := apply_eq_ok_iff.2 ⟨current, mem_toOption hcurrent, haccepts, rfl⟩
    rw [happly] at hok
    cases hok
  | ok plan' =>
    obtain ⟨current, hcurrent, haccepts, rfl⟩ := apply_eq_ok_iff.1 happly
    have hstep := hat.currentStep_iff.1 hcurrent
    have hid := (operation.touched_retouches current).stepId_eq
    have hopen := hat.isOpen current hstep
    have hattempts := h current (List.mem_of_getElem? hstep) hopen
    have hall := ActivityPlan.forall_mem_replaceStep (p := fun step ↦ step.status.IsOpen →
      step.attempts ≤ step.maxAttempts) hstep hid h
    calc
      (operation.result plan current).HasAttempts ↔
          ∀ step ∈ replaceStep plan (operation.touched current), step.status.IsOpen →
            step.attempts ≤ step.maxAttempts := by
        rw [ActivityPlan.HasAttempts, steps_result]
      _ ↔ _ := hall.trans (touched_attempts_iff hattempts)
      _ ↔ _ := by
        rw [hcurrent]
        simp only [Except.toOption, Option.mem_def, Option.some.injEq, forall_eq']
        exact ⟨fun hspares _ ↦ hspares, fun hspares ↦ hspares haccepts⟩

/-- An outcome takes one from the outcomes that are left, and nothing adds to them. -/
theorem remaining_exec (hat : plan.At index) (h : plan.HasAttempts)
    (hspares : Spares plan operation) :
    (if Ends plan operation then 1 else 0) + (exec plan operation).remaining ≤
      plan.remaining := by
  have hafter := (hasAttempts_exec_iff hat h operation).2 hspares
  cases happly : operation.apply plan with
  | error message =>
    have hnot : ¬Ends plan operation := by
      intro hends
      have haccepted := hends.2
      rw [happly] at haccepted
      cases haccepted
    have hsame : exec plan operation = plan := by
      rw [exec, happly]
      rfl
    rw [if_neg hnot, hsame, zero_add]
  | ok plan' =>
    obtain ⟨current, hcurrent, haccepts, rfl⟩ := apply_eq_ok_iff.1 happly
    have hexec : exec plan operation = operation.result plan current := by
      rw [exec, happly]
      rfl
    have hends : Ends plan operation ↔ operation.isOutcome = true := by
      rw [Ends, happly]
      exact and_iff_left rfl
    rw [hexec] at hafter ⊢
    have hstep := hat.currentStep_iff.1 hcurrent
    have hid := (operation.touched_retouches current).stepId_eq
    have hmem : operation.touched current ∈ (operation.result plan current).steps := by
      rw [steps_result]
      exact mem_replaceStep (List.mem_of_getElem? hstep) hid
    have htouched := touched_remaining operation (hat.isOpen current hstep)
      (h current (List.mem_of_getElem? hstep) (hat.isOpen current hstep)) (hafter _ hmem)
    have hsum : (operation.result plan current).remaining =
        plan.remaining - current.remaining + (operation.touched current).remaining := by
      rw [ActivityPlan.remaining, steps_result]
      exact ActivityPlan.sum_replaceStep hat.nodup hstep hid
    simp only [hends, hsum]
    omega

end PlanOperation

/-! ## Runs -/

/-- The outcomes recorded in the course of some operations. -/
def planOutcomes (plan : ActivityPlan) (operations : List PlanOperation) : ℕ :=
  occurrences PlanOperation.exec PlanOperation.Ends plan operations

/-- A plan that operations have been executed on: the outcomes so far and those that are left
together are at most the attempts of the steps, a step that is open has an attempt left, and a
plan whose attempts are used up is completed. -/
structure ActivityPlan.Bounded (plan : ActivityPlan) (operations : List PlanOperation) : Prop where
  outcomes : planOutcomes plan operations +
    (run PlanOperation.exec plan operations).remaining ≤ plan.totalAttempts
  attempts : (run PlanOperation.exec plan operations).HasAttempts
  completed : plan.totalAttempts ≤ planOutcomes plan operations →
    (run PlanOperation.exec plan operations).status = .completed

/-- In the course of the operations the plan stays bounded, and every outcome uses up an attempt
that was left, or closes its step. -/
structure ActivityPlan.Progresses (plan : ActivityPlan) (operations : List PlanOperation) :
    Prop where
  bounded : ∀ taken, taken <+: operations → plan.Bounded taken
  consumes : ∀ taken operation, taken ++ [operation] <+: operations →
    PlanOperation.Ends (run PlanOperation.exec plan taken) operation →
      (run PlanOperation.exec plan (taken ++ [operation])).remaining <
        (run PlanOperation.exec plan taken).remaining

section Materialized

variable {proposal : ActivityPlanProposal} {planId : String} {version : ℤ}
variable {availableSkills : List (String × String)} {lobby : Bool} {plan : ActivityPlan}

/-- The steps of a materialized plan have all their attempts left. -/
theorem materialize_attempts
    (h : materializeActivityPlan proposal planId version availableSkills lobby = .ok plan) :
    plan.HasAttempts ∧ plan.remaining = plan.totalAttempts := by
  have huntouched := materialize_steps h
  have hwell : plan.WellFormed := by
    obtain ⟨first, rest, -, hvalidate⟩ := materialize_cases h
    exact ActivityPlan.wellFormed_of_validate hvalidate
  have hattempts : ∀ step ∈ plan.steps, step.attempts = 1 := by
    intro step hstep
    obtain ⟨hpending, hzero⟩ := huntouched step hstep
    simp only [ActivityPlanStep.attempts, hpending, reduceCtorEq, if_false, hzero, zero_add]
  constructor
  · intro step hstep _
    rw [hattempts step hstep]
    exact (hwell.steps step hstep).one_le_maxAttempts
  · have hmap : plan.steps.map (·.remaining) = plan.steps.map (·.maxAttempts) := by
      apply List.map_congr_left
      intro step hstep
      have hopen : step.status.IsOpen := Or.inl (huntouched step hstep).1
      rw [ActivityPlanStep.remaining, if_pos hopen, hattempts step hstep]
      omega
    rw [ActivityPlan.remaining, hmap, ActivityPlan.totalAttempts]

/-- The plan at some position, with an attempt left for every open step. -/
def ActivityPlan.Alive (plan : ActivityPlan) : Prop := (∃ index, plan.At index) ∧ plan.HasAttempts

theorem ActivityPlan.Alive.exec_iff {plan : ActivityPlan} (h : plan.Alive)
    (operation : PlanOperation) :
    (operation.exec plan).Alive ↔ PlanOperation.Spares plan operation := by
  obtain ⟨⟨index, hat⟩, hattempts⟩ := h
  have hnext : ∃ index', (operation.exec plan).At index' := by
    cases PlanOperation.at_exec hat operation with
    | inl hstays => exact ⟨index, hstays⟩
    | inr hmoves => exact ⟨index + 1, hmoves⟩
  exact (and_iff_right hnext).trans (PlanOperation.hasAttempts_exec_iff hat hattempts operation)

theorem ActivityPlan.Alive.remaining_le {plan : ActivityPlan} (h : plan.Alive)
    {operation : PlanOperation} (hspares : PlanOperation.Spares plan operation) :
    (if PlanOperation.Ends plan operation then 1 else 0) + (operation.exec plan).remaining ≤
      plan.remaining := by
  obtain ⟨⟨index, hat⟩, hattempts⟩ := h
  exact PlanOperation.remaining_exec hat hattempts hspares

/-- A plan without outcomes left is completed. -/
theorem ActivityPlan.Alive.completed {plan : ActivityPlan} (h : plan.Alive)
    (hremaining : plan.remaining ≤ 0) : plan.status = .completed := by
  obtain ⟨⟨index, hat⟩, hattempts⟩ := h
  rw [hat.status]
  apply if_neg
  intro hlt
  have hstep := List.getElem?_eq_getElem hlt
  have hone := hattempts.one_le_remaining (List.mem_of_getElem? hstep) (hat.isOpen _ hstep)
  omega

/-- In every run of operations on a materialized plan, the plan progresses to its end exactly if
no operation leaves the current step open when its last attempt is gone. -/
theorem planProgresses_iff
    (h : materializeActivityPlan proposal planId version availableSkills lobby = .ok plan)
    (operations : List PlanOperation) :
    Guarded PlanOperation.exec PlanOperation.Spares plan operations ↔
      plan.Progresses operations := by
  obtain ⟨hattempts, htotal⟩ := materialize_attempts h
  have halive : plan.Alive := ⟨⟨0, materialize_at h⟩, hattempts⟩
  have hinvariant := guarded_iff_invariant (I := ActivityPlan.Alive)
    (fun plan operation hplan ↦ hplan.exec_iff operation) halive operations
  constructor
  · intro hguard
    have hreached := hinvariant.1 hguard
    constructor
    · intro taken htaken
      have hguard' : Guarded PlanOperation.exec PlanOperation.Spares plan taken := by
        obtain ⟨later, rfl⟩ := htaken
        exact (guarded_append.1 hguard).1
      have hcount := occurrences_add_le (D := PlanOperation.Ends) (m := ActivityPlan.remaining)
        (I := ActivityPlan.Alive) (fun plan operation hplan hspares ↦
          ⟨(hplan.exec_iff operation).2 hspares, hplan.remaining_le hspares⟩) halive hguard'
      rw [htotal] at hcount
      have hend := hreached taken htaken
      refine ⟨hcount, hend.2, fun hall ↦ hend.completed ?_⟩
      unfold planOutcomes at hall
      omega
    · intro taken operation htaken hends
      have hguard' : Guarded PlanOperation.exec PlanOperation.Spares plan (taken ++ [operation]) := by
        obtain ⟨later, rfl⟩ := htaken
        exact (guarded_append.1 hguard).1
      have hbefore := hreached taken ((List.prefix_append taken [operation]).trans htaken)
      have hle := hbefore.remaining_le (guarded_append.1 hguard').2.1
      rw [if_pos hends] at hle
      rw [run_append]
      simp only [run_cons, run_nil]
      omega
  · intro hprogresses
    apply hinvariant.2
    intro taken htaken
    obtain ⟨index, -, hat⟩ := run_at (materialize_at h) taken
    exact ⟨⟨index, hat⟩, (hprogresses.bounded taken htaken).attempts⟩

end Materialized

section Examples

open Scenario PlanOperation

/-- A walk that fails once before it succeeds, and a dance. -/
theorem planProgresses_wander :
    wanderPlan.Progresses [.recordStepStarted "move", .recordStepTerminal "move" false true false,
      .recordStepStarted "move", .recordStepTerminal "move" true false false,
      .recordStepTerminal "dance" true false false] := by
  exact (planProgresses_iff materialize_wander _).1 (by decide)

/-- An outcome that leaves the plan as it is can come again and again. -/
theorem planOutcomes_replicate {plan : ActivityPlan} {operation : PlanOperation}
    (hsame : operation.exec plan = plan) (hends : Ends plan operation) (n : ℕ) :
    planOutcomes plan (List.replicate n operation) = n ∧
      run exec plan (List.replicate n operation) = plan := by
  induction n with
  | zero => exact ⟨rfl, rfl⟩
  | succ n ih =>
    simp only [planOutcomes, List.replicate_succ, occurrences, run_cons, hsame, if_pos hends]
    exact ⟨by rw [show occurrences _ _ plan _ = n from ih.1, add_comm], ih.2⟩

/-- The target of the walk is rejected any number of times: the plan does not end. -/
theorem not_planProgresses :
    materializeActivityPlan wanderProposal "plan-wander" 1 wanderSkills false = .ok wanderPlan ∧
      ∀ n, planOutcomes wanderPlan (List.replicate n (.invalidateMoveTarget "move")) = n ∧
        (run exec wanderPlan (List.replicate n (.invalidateMoveTarget "move"))).status =
          .active := by
  refine ⟨materialize_wander, fun n ↦ ?_⟩
  have hfirst : Ends wanderPlan (.invalidateMoveTarget "move") := by decide
  have hsecond : Ends (exec wanderPlan (.invalidateMoveTarget "move"))
      (.invalidateMoveTarget "move") := by decide
  have hthird : Ends (exec (exec wanderPlan (.invalidateMoveTarget "move"))
      (.invalidateMoveTarget "move")) (.invalidateMoveTarget "move") := by decide
  have hsame : exec (exec (exec wanderPlan (.invalidateMoveTarget "move"))
      (.invalidateMoveTarget "move")) (.invalidateMoveTarget "move") =
        exec (exec wanderPlan (.invalidateMoveTarget "move")) (.invalidateMoveTarget "move") := by
    decide
  match n with
  | 0 => exact ⟨rfl, rfl⟩
  | 1 =>
    refine ⟨?_, by decide⟩
    simp only [planOutcomes, List.replicate_one, occurrences, if_pos hfirst, add_zero]
  | n + 2 =>
    obtain ⟨hcount, hrun⟩ := planOutcomes_replicate hsame hthird n
    simp only [planOutcomes] at hcount
    simp only [planOutcomes, List.replicate_succ, occurrences, run_cons, if_pos hfirst,
      if_pos hsecond, hcount, hrun]
    exact ⟨by omega, by decide⟩

end Examples

end LlmGateway
