import LlmGateway.Activity.Repository

/-!
# Recording an event in the plan

One transaction of the plan repository, inverted: it succeeds without a change when there is
nothing to do, and otherwise writes the result of one operation (`record_cases`). A write
that succeeds stores the plan or, when the event is older than the last one, nothing
(`writeState_eq_ok_iff`).
-/

namespace LlmGateway

open Relational

variable {store : ActivityStore} {c : ClaimedEvent} {request : PlanRequest}
  {activity after : ActivityState} {plan updated : ActivityPlan}

namespace ActivityState

/-- The activity columns after a write. -/
def ofPlan (c : ClaimedEvent) (plan : ActivityPlan) : ActivityState :=
  ⟨some plan, some plan.version, some c.rowId, some c.eventSequence⟩

theorem loadPlan_ofPlan (h : plan.WellFormed) :
    (ofPlan c plan).loadPlan = .ok (some plan) := by
  simp only [loadPlan, ofPlan, h.validate_eq]

theorem wellFormed_of_loadPlan {stored : Option ActivityPlan}
    (h : activity.loadPlan = .ok stored) : ∀ plan ∈ stored, plan.WellFormed := by
  intro plan hplan
  unfold loadPlan at h
  split at h
  · cases h
    exact nomatch hplan
  · split at h
    · rename_i hvalidate
      cases h
      obtain rfl := Option.some.inj hplan
      exact ActivityPlan.wellFormed_of_validate hvalidate
    · exact nomatch h

theorem precedes_ofPlan : (ofPlan c plan).Precedes c :=
  fun _ hlast ↦ Or.inr ⟨(Option.some.inj hlast).symm, rfl⟩

end ActivityState

theorem writeState_eq_ok_iff {cycle : CycleRow} :
    writeState cycle c updated activity = .ok after ↔
      (cycle.IsOpen ∧ activity.Precedes c ∧ after = .ofPlan c updated) ∨
        (¬(cycle.IsOpen ∧ activity.Precedes c) ∧
          (∃ last ∈ activity.lastEventSequence, c.eventSequence ≤ last) ∧ after = activity) := by
  unfold writeState
  split_ifs with hwrite hnewer
  · simp only [Except.ok.injEq, hwrite.1, hwrite.2, true_and, and_self, not_true, false_and,
      or_false]
    exact eq_comm
  · refine iff_of_false nofun ?_
    rintro (⟨hopen, hprecedes, -⟩ | ⟨-, ⟨last, hlast, hle⟩, -⟩)
    · exact hwrite ⟨hopen, hprecedes⟩
    · exact absurd (hnewer last hlast) (not_lt.2 hle)
  · push Not at hnewer
    rw [Except.ok.injEq]
    constructor
    · exact fun h ↦ Or.inr ⟨hwrite, hnewer, h.symm⟩
    · rintro (⟨hopen, hprecedes, -⟩ | ⟨-, -, h⟩)
      · exact absurd ⟨hopen, hprecedes⟩ hwrite
      · exact h.symm

/-- A transaction on the plan has nothing to do, or writes the result of an operation. -/
theorem updatePlan_cases {choose : ActivityPlan → Option PlanOperation}
    {write : CycleRow → ClaimedEvent → ActivityPlan → ActivityState →
      Except ActivityPlanUnavailableError ActivityState}
    (h : updatePlan store c choose write activity = .ok after) :
    ((∃ stored, activity.loadPlan = .ok stored ∧ ∀ plan ∈ stored, choose plan = none) ∧
        after = activity) ∨
      ∃ j plan operation updated, store.lockCycle c = some j ∧
        activity.loadPlan = .ok (some plan) ∧ choose plan = some operation ∧
          operation.apply plan = .ok updated ∧ write j.cycle c updated activity = .ok after := by
  unfold updatePlan at h
  split at h
  · exact nomatch h
  · rename_i j hlock
    obtain ⟨stored, hload, h⟩ := bind_eq_ok_iff.1 h
    split at h
    · cases h
      exact Or.inl ⟨⟨none, hload, nofun⟩, rfl⟩
    · rename_i plan
      split at h
      · rename_i hchoose
        cases h
        exact Or.inl ⟨⟨some plan, hload, fun _ hplan ↦ Option.some.inj hplan ▸ hchoose⟩, rfl⟩
      · rename_i operation hchoose
        split at h
        · exact nomatch h
        · rename_i updated happly
          exact Or.inr ⟨j, plan, operation, updated, hlock, hload, hchoose, happly, h⟩

/-- What `prepare` goes on with: the stored plan, or a proposal under the next version. -/
theorem preparePlan_cases {proposed : Option ActivityPlan}
    (h : preparePlan store c proposed activity = .ok (plan, after)) :
    ∃ j ∈ store.lockCycle c, ∃ stored, activity.loadPlan = .ok stored ∧
      ((plan ∈ stored ∧ plan.status = .active ∧
          (¬∃ proposal ∈ proposed, ReplacesPlan proposal stored) ∧
          ((activity.lastEventSequence.getD 0 < c.eventSequence ∧
            writeState j.cycle c plan activity = .ok after) ∨ after = activity)) ∨
        (stored.filter (fun plan ↦ plan.status = .active ∧
            ¬∃ proposal ∈ proposed, ReplacesPlan proposal stored) = none ∧
          (∃ proposal ∈ proposed, ActivityPlan.validate
            { proposal with version := activity.planVersion.getD 0 + 1 } = .ok plan) ∧
          writeState j.cycle c plan activity = .ok after)) := by
  unfold preparePlan at h
  split at h
  · cases h
  · rename_i j hlock
    obtain ⟨stored, hload, h⟩ := bind_eq_ok_iff.1 h
    obtain ⟨prepared, hchoose, h⟩ := bind_eq_ok_iff.1 h
    obtain rfl : prepared = (plan, after) := by
      split at h
      · cases h
        rfl
      · cases h
    refine ⟨j, hlock, stored, hload, ?_⟩
    unfold choosePlan at hchoose
    split at hchoose
    · rename_i kept hkept
      obtain ⟨hmem, hactive⟩ := Option.filter_eq_some_iff.1 hkept
      rw [decide_eq_true_eq] at hactive
      split_ifs at hchoose with hnewer
      · obtain ⟨written, hwrite, heq⟩ := map_eq_ok_iff.1 hchoose
        cases heq
        exact Or.inl ⟨hmem, hactive.1, hactive.2, Or.inl ⟨hnewer, hwrite⟩⟩
      · cases hchoose
        exact Or.inl ⟨hmem, hactive.1, hactive.2, Or.inr rfl⟩
    · rename_i hnone
      cases proposed with
      | none => cases hchoose
      | some proposal =>
        simp only at hchoose
        split at hchoose
        · cases hchoose
        · rename_i hvalidate
          obtain ⟨written, hwrite, heq⟩ := map_eq_ok_iff.1 hchoose
          cases heq
          exact Or.inr ⟨hnone, ⟨proposal, rfl, hvalidate⟩, hwrite⟩

/-- The request has an operation on the stored plan, with this result. -/
structure PlanRequest.Updates (store : ActivityStore) (c : ClaimedEvent) (request : PlanRequest)
    (activity : ActivityState) (plan : ActivityPlan) (operation : PlanOperation)
    (updated : ActivityPlan) : Prop where
  not_void : request.isVoid = false
  loadPlan_eq : activity.loadPlan = .ok (some plan)
  operation_eq : request.operation store c plan = some operation
  apply_eq : operation.apply plan = .ok updated

namespace PlanRequest

/-- The request has nothing to do. -/
def IsIdle (store : ActivityStore) (c : ClaimedEvent) (request : PlanRequest)
    (activity : ActivityState) : Prop :=
  request.isVoid = true ∨ ∃ stored, activity.loadPlan = .ok stored ∧
    ∀ plan ∈ stored, request.operation store c plan = none

theorem record_cases (h : request.record store c activity = .ok after) :
    (request.IsIdle store c activity ∧ after = activity) ∨
      ∃ j plan operation updated, store.lockCycle c = some j ∧
        request.Updates store c activity plan operation updated ∧
          writeState j.cycle c updated activity = .ok after := by
  unfold record at h
  cases hvoid : request.isVoid with
  | true =>
    rw [if_pos hvoid] at h
    cases h
    exact Or.inl ⟨Or.inl hvoid, rfl⟩
  | false =>
    rw [if_neg (Bool.eq_false_iff.1 hvoid)] at h
    cases updatePlan_cases h with
    | inl hidle => exact Or.inl ⟨Or.inr hidle.1, hidle.2⟩
    | inr hupdates =>
      obtain ⟨j, plan, operation, updated, hlock, hload, hoperation, happly, hwrite⟩ := hupdates
      exact Or.inr ⟨j, plan, operation, updated, hlock, ⟨hvoid, hload, hoperation, happly⟩,
        hwrite⟩

theorem record_of_isIdle (hlock : (store.lockCycle c).isSome)
    (h : request.IsIdle store c activity) : request.record store c activity = .ok activity := by
  obtain ⟨j, hj⟩ := Option.isSome_iff_exists.1 hlock
  unfold record updatePlan
  cases h with
  | inl hvoid => rw [if_pos hvoid]
  | inr hidle =>
    obtain ⟨stored, hload, hnone⟩ := hidle
    split_ifs
    · rfl
    · simp only [hj, hload]
      cases stored with
      | none => rfl
      | some plan =>
        simp only [bind, Except.bind, hnone plan rfl]
        rfl

theorem Updates.record_eq {operation : PlanOperation} {j : Joined}
    (h : request.Updates store c activity plan operation updated)
    (hlock : store.lockCycle c = some j) :
    request.record store c activity = writeState j.cycle c updated activity := by
  unfold record updatePlan
  rw [if_neg (Bool.eq_false_iff.1 h.not_void)]
  simp only [hlock, h.loadPlan_eq, bind, Except.bind, h.operation_eq, h.apply_eq]

theorem IsIdle.not_updates (h : request.IsIdle store c activity) {plan updated : ActivityPlan}
    {operation : PlanOperation} :
    ¬ request.Updates store c activity plan operation updated := by
  intro hu
  cases h with
  | inl hvoid => exact Bool.false_ne_true (hu.not_void.symm.trans hvoid)
  | inr hidle =>
    obtain ⟨stored, hload, hnone⟩ := hidle
    have hstored := Except.ok.inj (hload.symm.trans hu.loadPlan_eq)
    exact nomatch (hnone plan hstored).symm.trans hu.operation_eq

end PlanRequest

/-! ## The operation of a request -/

section Operation

variable {operation : PlanOperation}

theorem terminalOperation_eq_some {terminal : TerminalRequest} :
    terminalOperation store c terminal plan = some operation ↔
      ∃ binding, store.decisionBinding c terminal.decisionId = some binding ∧
        binding.planId.getD "" = plan.planId ∧
          plan.currentStepId = some (binding.stepId.getD "") ∧
            operation = terminal.operationOn plan (binding.stepId.getD "") := by
  unfold terminalOperation
  cases hbinding : store.decisionBinding c terminal.decisionId with
  | none => exact iff_of_false nofun (fun ⟨_, h, _⟩ ↦ nomatch h)
  | some binding =>
    simp only [Option.some.injEq, exists_eq_left']
    split_ifs with hother
    · refine iff_of_false nofun ?_
      rintro ⟨hplanId, hstepId, -⟩
      exact hother.elim (fun h ↦ h hplanId) (fun h ↦ h hstepId)
    · push Not at hother
      rw [Option.some.injEq]
      exact ⟨fun h ↦ ⟨hother.1, hother.2, h.symm⟩, fun h ↦ h.2.2.symm⟩

theorem status_of_operation (h : request.operation store c plan = some operation) :
    plan.status = .active := by
  unfold PlanRequest.operation at h
  split_ifs at h with hstatus
  exact not_not.1 hstatus

/-- The operation of a request: the social opportunity, or one on the step that the decision of
the event is bound to. -/
theorem operation_cases (h : request.operation store c plan = some operation) :
    (request.terminal? = none ∧ operation = .completeSocialOpportunity) ∨
      ∃ terminal, request.terminal? = some terminal ∧
        terminalOperation store c terminal plan = some operation := by
  unfold PlanRequest.operation at h
  split_ifs at h
  cases request with
  | passiveStep =>
    simp only [passiveOperation] at h
    split_ifs at h
    exact Or.inl ⟨rfl, (Option.some.inj h).symm⟩
  | skillStarted payload => exact Or.inr ⟨_, rfl, h⟩
  | skillFinished payload => exact Or.inr ⟨_, rfl, h⟩
  | decisionRejected payload => exact Or.inr ⟨_, rfl, h⟩

theorem operation_ne_replace (h : request.operation store c plan = some operation)
    (stepId : String) (targetId : Option String) (version : ℤ) :
    operation ≠ .replaceMoveTarget stepId targetId version := by
  intro heq
  subst heq
  cases operation_cases h with
  | inl hpassive => exact nomatch hpassive.2
  | inr hterminal =>
    obtain ⟨terminal, -, hterminal⟩ := hterminal
    obtain ⟨binding, -, -, -, hthis⟩ := terminalOperation_eq_some.1 hterminal
    unfold TerminalRequest.operationOn at hthis
    split at hthis
    · exact nomatch hthis
    · split_ifs at hthis

/-- What a request makes of a plan is loaded again as it is, or not at all. -/
theorem wellFormed_of_validate_result {current : ActivityPlanStep} (hplan : plan.WellFormed)
    (hoperation : request.operation store c plan = some operation)
    (hcurrent : plan.currentStep = .ok current) (haccepts : operation.Accepts current)
    (h : (operation.result plan current).validate = .ok updated) :
    (operation.result plan current).WellFormed := by
  have hmem := ActivityPlan.mem_of_currentStep hcurrent
  have hstep := hplan.steps current hmem
  have hretouches := operation.touched_retouches current
  have hle : (operation.touched current).attemptCount ≤ current.maxAttempts := by
    rw [← hretouches.maxAttempts_eq]
    apply ActivityPlan.attemptCount_le_of_validate h
    rw [PlanOperation.steps_result]
    exact mem_replaceStep hmem hretouches.stepId_eq
  apply (PlanOperation.result_wellFormed_iff hplan hcurrent).2
  apply (PlanOperation.touched_wellFormed_iff hplan hstep haccepts).2
  exact PlanOperation.suits_of_attemptCount_le hstep (operation_ne_replace hoperation) hle

theorem operationOn_accepts {terminal : TerminalRequest} {current : ActivityPlanStep}
    {stepId : String} (h : (terminal.operationOn plan stepId).Accepts current) :
    current.stepId = stepId := by
  unfold TerminalRequest.operationOn at h
  split at h
  · exact h.1
  · split_ifs at h
    · exact h.1
    · exact h.1

end Operation

end LlmGateway
