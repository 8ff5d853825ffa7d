import LlmGateway.Outbox.Closing

/-!
# From a planner to a completion

How the dispatcher and the planner turn the results of the repositories into the outcome that
`completeEvent` applies.
-/

namespace LlmGateway

namespace EventProcessResult

def success : EventProcessResult := ⟨.succeeded, none, none⟩

def retry (stage category : String) : EventProcessResult :=
  ⟨.retryableFailed, some stage, some category⟩

def giveUp (stage category : String) : EventProcessResult :=
  ⟨.manual, some stage, some category⟩

end EventProcessResult

/-- `_mutation_result`. -/
def mutationResult (mutation : MutationResult) (stage : String) : EventProcessResult :=
  match mutation.disposition with
  | .applied | .idempotent => .success
  | .missing => .retry stage (mutation.errorCategory.getD "missing_dependency")
  | .fenced => .giveUp "fence" (mutation.errorCategory.getD "claim_lost")
  | .conflict => .giveUp stage (mutation.errorCategory.getD "state_conflict")

/-- The result of a transaction on a terminal event. One that raises is tried again. -/
def terminalResult (stage : String) :
    Except Failure (MutationResult × Db) → EventProcessResult
  | .ok (mutation, _) => mutationResult mutation stage
  | .error _ => .retry "database" "operation_failed"

/-- The exception mapping of `_plan`. A capacity error that no fallback avoids, and an error of
freezing, reach the dispatcher as unexpected exceptions. -/
def planResult : Except PlanError Unit → EventProcessResult
  | .ok () => .success
  | .error .fenced => .giveUp "fence" "model_result_discarded"
  | .error (.conflict category) => .giveUp "plan" category
  | .error .unavailable => .retry "database" "plan_unavailable"
  | .error .capacityFull | .error (.unfrozen _) => .retry "database" "operation_failed"

/-- The result of `_plan` when the fence check before the model call fails. -/
def modelCallSkipped : EventProcessResult := .giveUp "fence" "model_call_skipped"

/-- The result of `_process_lease_event` when the context was not persisted. -/
def leaseClaimLost : EventProcessResult := .giveUp "fence" "claim_lost"

/-- The results with which a worker completes an event whose planning was fenced off. -/
def fencedResults : List EventProcessResult :=
  [leaseClaimLost, modelCallSkipped, planResult (.error .fenced)]

theorem mutationResult_eq_success {mutation : MutationResult} {stage : String} :
    mutationResult mutation stage = .success ↔
      mutation.disposition = .applied ∨ mutation.disposition = .idempotent := by
  unfold mutationResult
  cases mutation.disposition <;>
    simp only [reduceCtorEq, or_false, false_or, iff_false] <;> intro h <;> cases h

end LlmGateway
