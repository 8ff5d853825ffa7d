import LlmGateway.Activity.Operation
import LlmGateway.System.Scenario

/-!
# Loading an activity plan again

The database gives a plan back only if its dump is valid. An operation on a valid plan gives a
valid plan exactly when it is admissible (`PlanOperation.exec_loads_iff`): a start or a terminal
needs a started step or an attempt that is left, and a new target a valid text and a valid
version. A target rejection that uses up the last attempt makes the step pending again, and the
next start of it is recorded as a third attempt (`not_planReloads`).
-/

namespace LlmGateway

open Relational

/-- The dump of the plan is accepted by the validation and gives the same plan. -/
def ActivityPlan.Loads (plan : ActivityPlan) : Prop := plan.validate = .ok plan

instance (plan : ActivityPlan) : Decidable plan.Loads :=
  inferInstanceAs (Decidable (plan.validate = .ok plan))

namespace PlanOperation

/-- The operation raises, or suits the current step. -/
def Admissible (plan : ActivityPlan) (operation : PlanOperation) : Prop :=
  ∀ current ∈ plan.currentStep.toOption, operation.Accepts current → operation.Suits current

instance (plan : ActivityPlan) (operation : PlanOperation) :
    Decidable (Admissible plan operation) :=
  inferInstanceAs (Decidable (∀ current ∈ plan.currentStep.toOption, _))

/-! ## One operation -/

/-- An operation on a plan that loads again gives such a plan exactly if it is admissible. -/
theorem exec_loads_iff {plan : ActivityPlan} (operation : PlanOperation) (h : plan.Loads) :
    (exec plan operation).Loads ↔ Admissible plan operation := by
  have hplan := ActivityPlan.validate_eq_ok_self_iff.1 h
  calc
    (exec plan operation).Loads ↔ (exec plan operation).WellFormed :=
      ActivityPlan.validate_eq_ok_self_iff
    _ ↔ ∀ current, plan.currentStep = .ok current → operation.Accepts current →
        (operation.touched current).WellFormed ∧ 1 ≤ operation.versionAfter plan :=
      exec_wellFormed_iff hplan
    _ ↔ Admissible plan operation := by
      have hmem {current} (hcurrent : plan.currentStep = .ok current) :=
        hplan.steps current (ActivityPlan.mem_of_currentStep hcurrent)
      constructor
      · intro hall current hcurrent haccepts
        have hok := mem_toOption hcurrent
        exact (touched_wellFormed_iff hplan (hmem hok) haccepts).1 (hall current hok haccepts)
      · intro hadmissible current hok haccepts
        apply (touched_wellFormed_iff hplan (hmem hok) haccepts).2
        exact hadmissible current (by rw [hok]; rfl) haccepts

end PlanOperation

/-! ## Runs -/

theorem materialize_loads {proposal : ActivityPlanProposal} {planId : String} {version : ℤ}
    {availableSkills : List (String × String)} {lobby : Bool} {plan : ActivityPlan}
    (h : materializeActivityPlan proposal planId version availableSkills lobby = .ok plan) :
    plan.Loads := by
  simp only [materializeActivityPlan, bind_eq_ok_iff] at h
  obtain ⟨⟨⟩, -, ⟨⟩, -, h⟩ := h
  split at h
  · cases h
  · exact ActivityPlan.validate_validate h

/-- Whatever part of the operations has been executed, the plan loads again. -/
def PlanReloads (plan : ActivityPlan) (operations : List PlanOperation) : Prop :=
  ∀ taken, taken <+: operations → (run PlanOperation.exec plan taken).Loads

/-- In the course of a sequence of operations on a materialized plan, every plan loads again
exactly if each operation is admissible on the plan that it is given. -/
theorem planReloads_iff {proposal : ActivityPlanProposal} {planId : String} {version : ℤ}
    {availableSkills : List (String × String)} {lobby : Bool} {plan : ActivityPlan}
    (h : materializeActivityPlan proposal planId version availableSkills lobby = .ok plan)
    (operations : List PlanOperation) :
    PlanReloads plan operations ↔
      Guarded PlanOperation.exec PlanOperation.Admissible plan operations :=
  (guarded_iff_invariant (I := ActivityPlan.Loads)
    (fun _ operation h ↦ PlanOperation.exec_loads_iff operation h) (materialize_loads h)
    operations).symm

/-! ## A third attempt -/

section Example

open Scenario

/-- The walk is started, its target rejected, and the walk to the next target started. -/
theorem not_planReloads :
    ¬ ∀ proposal planId version availableSkills lobby plan,
      materializeActivityPlan proposal planId version availableSkills lobby = .ok plan →
        ∀ operations, PlanReloads plan operations := by
  intro h
  have hloads := h _ _ _ _ _ _ materialize_wander [.recordStepStarted "move",
    .invalidateMoveTarget "move", .recordStepStarted "move"] _ (List.prefix_refl _)
  exact absurd hloads (by decide)

/-- A retried walk and a retargeted one. -/
theorem planReloads_wander :
    PlanReloads wanderPlan [.recordStepTerminal "move" false true false,
      .replaceMoveTarget "move" none 2, .recordStepStarted "move",
      .recordStepTerminal "move" true false false] := by
  apply (planReloads_iff materialize_wander _).2
  decide

end Example

end LlmGateway
