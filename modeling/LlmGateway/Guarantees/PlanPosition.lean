import LlmGateway.Activity.Position
import LlmGateway.System.Scenario

/-!
# Working through an activity plan

In every run of operations on a materialized plan the steps before the current one are done with
and the steps after it are untouched, the current index only grows, and only operations on the
current step are accepted.
-/

namespace LlmGateway

open Relational

/-- The steps around the current one, and the status of the plan. -/
structure ActivityPlan.Ordered (plan : ActivityPlan) : Prop where
  before : ∀ i < plan.currentIndex, ∀ step ∈ plan.steps[i]?, step.status.IsClosed
  after : ∀ i, plan.currentIndex < i → ∀ step ∈ plan.steps[i]?,
    step.status = .pending ∧ step.attemptCount = 0
  completed : plan.status = .completed ↔ ∀ step ∈ plan.steps, step.status.IsClosed

theorem ActivityPlan.At.ordered {plan : ActivityPlan} {index : ℕ} (h : plan.At index) :
    plan.Ordered where
  before i hi step hstep := by
    rw [h.currentIndex_eq] at hi
    exact h.before i hi step hstep
  after i hi step hstep := by
    rw [h.currentIndex_eq] at hi
    exact h.after i hi step hstep
  completed := h.completed_iff

namespace PlanOperation

/-- The step that an operation names. -/
def stepId? : PlanOperation → Option String
  | recordStepStarted stepId | recordStepTerminal stepId .. | invalidateMoveTarget stepId
  | replaceMoveTarget stepId .. => some stepId
  | completeSocialOpportunity => none

theorem Accepts.stepId {operation : PlanOperation} {current : ActivityPlanStep}
    (h : operation.Accepts current) : ∀ stepId ∈ operation.stepId?, current.stepId = stepId := by
  intro stepId hstepId
  cases operation with
  | completeSocialOpportunity => cases hstepId
  | recordStepStarted | recordStepTerminal | invalidateMoveTarget | replaceMoveTarget =>
    rw [← Option.some.inj hstepId]
    exact h.1

/-- An operation on another step than the current one raises. -/
theorem refused_of_stepId {plan : ActivityPlan} {operation : PlanOperation} {stepId : String}
    (hnames : operation.stepId? = some stepId) (hother : plan.currentStepId ≠ some stepId) :
    (∃ message, operation.apply plan = .error message) ∧ exec plan operation = plan := by
  cases happly : operation.apply plan with
  | error message =>
    refine ⟨⟨message, rfl⟩, ?_⟩
    rw [exec, happly]
    rfl
  | ok plan' =>
    obtain ⟨current, hcurrent, haccepts, -⟩ := apply_eq_ok_iff.1 happly
    have hid := ActivityPlan.currentStepId_of_currentStep hcurrent
    rw [haccepts.stepId stepId hnames] at hid
    exact absurd hid hother

end PlanOperation

/-- In every run of operations on a materialized plan: the steps are worked through in order, the
index only grows, and an operation that names another step is refused. -/
theorem planRuns_ordered {proposal : ActivityPlanProposal} {planId : String} {version : ℤ}
    {availableSkills : List (String × String)} {lobby : Bool} {plan : ActivityPlan}
    (h : materializeActivityPlan proposal planId version availableSkills lobby = .ok plan)
    (operations : List PlanOperation) :
    (run PlanOperation.exec plan operations).Ordered ∧
      (∀ more, (run PlanOperation.exec plan operations).currentIndex ≤
        (run PlanOperation.exec plan (operations ++ more)).currentIndex) ∧
      ∀ operation : PlanOperation, ∀ stepId ∈ operation.stepId?,
        (run PlanOperation.exec plan operations).currentStepId ≠ some stepId →
          (∃ message, operation.apply (run PlanOperation.exec plan operations) = .error message) ∧
            (operation.exec (run PlanOperation.exec plan operations)) =
              run PlanOperation.exec plan operations := by
  obtain ⟨index, -, hat⟩ := run_at (materialize_at h) operations
  refine ⟨hat.ordered, fun more ↦ ?_, fun operation stepId hnames hother ↦
    PlanOperation.refused_of_stepId hnames hother⟩
  obtain ⟨index', hle, hat'⟩ := run_at hat more
  rw [run_append, hat.currentIndex_eq, hat'.currentIndex_eq]
  exact hle

/-- A walk that loses its target, and a dance that is refused. -/
theorem planRuns_ordered_wander :
    let plan := run PlanOperation.exec Scenario.wanderPlan
      [.recordStepStarted "move", .invalidateMoveTarget "move", .recordStepStarted "dance",
        .recordStepTerminal "move" true false false]
    plan.Ordered ∧ plan.currentIndex = 1 := by
  exact ⟨(planRuns_ordered Scenario.materialize_wander _).1, by decide⟩

end LlmGateway
