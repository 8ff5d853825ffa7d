import LlmGateway.Guarantees.PlanOrder

/-!
# The plan that a decision is bound to

`prepare` gives its caller a plan and the binding of its current step. The binding names the plan
that the database holds at the commit of the call exactly when the stored plan was kept, or the
new one could be written (`prepare_stores_iff`): a proposal whose write is refused as too old is
handed out all the same. The version of the stored plan never decreases.
-/

namespace LlmGateway

open Relational

/-- `ActivityPlanBinding`. -/
structure ActivityPlanBinding where
  planId : String
  planVersion : ℤ
  stepId : String
  phase : String
deriving DecidableEq, Repr

/-- `_binding`. -/
def ActivityPlan.binding (plan : ActivityPlan) : Except String ActivityPlanBinding :=
  plan.currentStep.map fun current ↦ ⟨plan.planId, plan.version, current.stepId, current.phase⟩

namespace ActivityState

def initial : ActivityState := ⟨none, none, none, none⟩

/-- A transaction that fails is rolled back. -/
def exec (activity : ActivityState) (step : PlanStep) : ActivityState :=
  (step.run activity).toOption.getD activity

/-- The version of the stored plan. -/
def version (activity : ActivityState) : ℤ := activity.planVersion.getD 0

/-- The stored plan is the one that was returned, with its binding. -/
def Stores (activity : ActivityState) (plan : ActivityPlan) : Prop :=
  activity.plan = some plan ∧
    ∀ binding, plan.binding = .ok binding → ∀ stored ∈ activity.plan, stored.binding = .ok binding

/-- The stored plan is active, and the proposal does not take its place. -/
def KeepsPlan (activity : ActivityState) (proposed : Option ActivityPlan) : Prop :=
  ∃ plan ∈ activity.plan, activity.loadPlan = .ok (some plan) ∧ plan.status = .active ∧
    ¬∃ proposal ∈ proposed, ReplacesPlan proposal (some plan)

/-- The cycle is open and the event is not older than the last one. -/
def Admits (activity : ActivityState) (store : ActivityStore) (c : ClaimedEvent) : Prop :=
  ∃ j ∈ store.lockCycle c, j.cycle.IsOpen ∧ activity.Precedes c

/-- The version of a stored plan is stored with it. -/
structure Versioned (activity : ActivityState) : Prop where
  faithful : activity.Faithful
  planVersion : activity.planVersion = activity.plan.map (·.version)

end ActivityState

variable {store : ActivityStore} {c : ClaimedEvent} {activity after : ActivityState}
  {proposed : Option ActivityPlan} {plan updated : ActivityPlan}

theorem version_of_validate {raw : ActivityPlan} (h : raw.validate = .ok plan) :
    plan.version = raw.version := by
  simp only [ActivityPlan.validate, bind_eq_ok_iff] at h
  obtain ⟨planId, -, goalId, -, goalSummary, -, phase, -, -, -, currentStepId, -, steps, -, -, -,
    hplan⟩ := h
  cases hplan
  rfl

/-! ## Versions -/

theorem version_of_apply {operation : PlanOperation} (happly : operation.apply plan = .ok updated)
    (hreplace : ∀ stepId targetId version, operation ≠ .replaceMoveTarget stepId targetId version) :
    updated.version = plan.version := by
  obtain ⟨current, -, -, rfl⟩ := PlanOperation.apply_eq_ok_iff.1 happly
  unfold PlanOperation.result
  split
  · exact advanceAfterTerminal_version plan _
  · cases operation with
    | replaceMoveTarget stepId targetId version => exact absurd rfl (hreplace _ _ _)
    | recordStepStarted | recordStepTerminal | invalidateMoveTarget
    | completeSocialOpportunity => rfl

namespace ActivityState

theorem Versioned.version_eq (h : activity.Versioned)
    (hload : activity.loadPlan = .ok (some plan)) : activity.version = plan.version := by
  rw [version, h.planVersion, h.faithful.loadPlan_eq hload]
  rfl

/-- A write stores the plan and its version, or leaves the columns alone. -/
theorem of_writeState {cycle : CycleRow} (hwrite : writeState cycle c plan activity = .ok after) :
    after = activity ∨ after = ofPlan c plan := by
  cases writeState_eq_ok_iff.1 hwrite with
  | inl hwritten => exact Or.inr hwritten.2.2
  | inr hrefused => exact Or.inl hrefused.2.2

theorem version_of_writeState {cycle : CycleRow} (hle : activity.version ≤ plan.version)
    (hwrite : writeState cycle c plan activity = .ok after) :
    activity.version ≤ after.version ∧
      (activity.planVersion = activity.plan.map (·.version) →
        after.planVersion = after.plan.map (·.version)) := by
  cases of_writeState hwrite with
  | inl hsame =>
    rw [hsame]
    exact ⟨le_refl _, id⟩
  | inr hwritten =>
    rw [hwritten]
    exact ⟨hle, fun _ ↦ rfl⟩

/-- No transaction decreases the version of the stored plan. -/
theorem Versioned.run (h : activity.Versioned) {step : PlanStep}
    (hrun : step.run activity = .ok after) :
    activity.version ≤ after.version ∧ after.planVersion = after.plan.map (·.version) := by
  cases step with
  | event store c request =>
    cases PlanRequest.record_cases hrun with
    | inl hidle =>
      rw [hidle.2]
      exact ⟨le_refl _, h.planVersion⟩
    | inr hupdates =>
      obtain ⟨j, plan, operation, updated, -, hu, hwrite⟩ := hupdates
      have hversion := version_of_apply hu.apply_eq (operation_ne_replace hu.operation_eq)
      have hle : activity.version ≤ updated.version := by
        rw [hversion, h.version_eq hu.loadPlan_eq]
      have hwritten := version_of_writeState hle hwrite
      exact ⟨hwritten.1, hwritten.2 h.planVersion⟩
  | chatOpportunity store c =>
    cases updatePlan_cases hrun with
    | inl hidle =>
      rw [hidle.2]
      exact ⟨le_refl _, h.planVersion⟩
    | inr hupdates =>
      obtain ⟨j, plan, operation, updated, -, hload, hoperation, happly, hwrite⟩ := hupdates
      have hversion := version_of_apply happly (operation_ne_replace hoperation)
      unfold writeHostedChatState at hwrite
      split_ifs at hwrite
      cases hwrite
      refine ⟨?_, rfl⟩
      rw [h.version_eq hload]
      exact hversion.ge
  | close store c =>
    simp only [PlanStep.run, closePlan] at hrun
    split at hrun
    · cases hrun
    · obtain ⟨stored, hload, hrun⟩ := bind_eq_ok_iff.1 hrun
      cases stored with
      | none =>
        cases hrun
        exact ⟨le_refl _, h.planVersion⟩
      | some plan =>
        have hle : activity.version ≤ ({ plan with status := .paused } : ActivityPlan).version :=
          (h.version_eq hload).le
        have hwritten := version_of_writeState hle hrun
        exact ⟨hwritten.1, hwritten.2 h.planVersion⟩
  | prepare store c proposed =>
    obtain ⟨⟨plan, after'⟩, hprepare, rfl⟩ := map_eq_ok_iff.1 hrun
    obtain ⟨j, -, stored, hload, hcases⟩ := preparePlan_cases hprepare
    cases hcases with
    | inl hkept =>
      obtain ⟨hmem, -, -, hwrite⟩ := hkept
      rw [Option.mem_def.1 hmem] at hload
      cases hwrite with
      | inl hwrite =>
        have hwritten := version_of_writeState (h.version_eq hload).le hwrite.2
        exact ⟨hwritten.1, hwritten.2 h.planVersion⟩
      | inr hsame =>
        simp only [hsame]
        exact ⟨le_refl _, h.planVersion⟩
    | inr hproposed =>
      obtain ⟨-, ⟨proposal, -, hvalidate⟩, hwrite⟩ := hproposed
      have hversion : plan.version = activity.version + 1 := version_of_validate hvalidate
      have hle : activity.version ≤ plan.version := by omega
      have hwritten := version_of_writeState hle hwrite
      exact ⟨hwritten.1, hwritten.2 h.planVersion⟩

theorem Versioned.exec (h : activity.Versioned) (step : PlanStep) :
    (activity.exec step).Versioned ∧ activity.version ≤ (activity.exec step).version := by
  unfold ActivityState.exec
  cases hrun : step.run activity with
  | error e => exact ⟨h, le_refl _⟩
  | ok after =>
    obtain ⟨hle, hversion⟩ := h.run hrun
    exact ⟨⟨faithful_of_run h.faithful hrun, hversion⟩, hle⟩

theorem initial_versioned : initial.Versioned :=
  ⟨fun _ hraw ↦ absurd hraw (Option.not_mem_none _), rfl⟩

theorem run_versioned (steps : List PlanStep) : (run exec initial steps).Versioned :=
  invariant_run (fun _ step h ↦ (h.exec step).1) initial_versioned steps

/-- A stored plan has the binding of the returned one when it is the returned one. -/
theorem stores_iff : after.Stores plan ↔ after.plan = some plan := by
  constructor
  · exact And.left
  · intro hplan
    refine ⟨hplan, fun binding hbinding stored hstored ↦ ?_⟩
    rw [hplan] at hstored
    rw [← Option.some.inj hstored]
    exact hbinding

/-- The stored plan is the returned one when it was kept or could be written. -/
theorem Versioned.prepare_stores_iff (h : activity.Versioned)
    (hprepare : preparePlan store c proposed activity = .ok (plan, after)) :
    after.Stores plan ↔ activity.KeepsPlan proposed ∨ activity.Admits store c := by
  rw [stores_iff]
  obtain ⟨j, hj, stored, hload, hcases⟩ := preparePlan_cases hprepare
  cases hcases with
  | inl hkept =>
    obtain ⟨hmem, hactive, hkeeps, hwrite⟩ := hkept
    rw [Option.mem_def.1 hmem] at hload hkeeps
    have hplan := h.faithful.loadPlan_eq hload
    refine iff_of_true ?_ (Or.inl ⟨plan, hplan, hload, hactive, hkeeps⟩)
    cases hwrite with
    | inl hwrite =>
      cases of_writeState hwrite.2 with
      | inl hsame => rw [hsame, hplan]
      | inr hwritten =>
        rw [hwritten]
        rfl
    | inr hsame => rw [hsame, hplan]
  | inr hproposed =>
    obtain ⟨hnone, ⟨proposal, -, hvalidate⟩, hwrite⟩ := hproposed
    have hversion : plan.version = activity.version + 1 := version_of_validate hvalidate
    have hnot : ¬activity.KeepsPlan proposed := by
      intro hkeeps
      obtain ⟨kept, -, hloaded, hactive, hkeeps⟩ := hkeeps
      obtain rfl : stored = some kept := Except.ok.inj (hload.symm.trans hloaded)
      rw [Option.filter_eq_none_iff] at hnone
      have hfalse := hnone kept rfl
      rw [decide_eq_true_eq] at hfalse
      exact hfalse ⟨hactive, hkeeps⟩
    rw [or_iff_right hnot]
    cases writeState_eq_ok_iff.1 hwrite with
    | inl hwritten =>
      obtain ⟨hopen, hprecedes, hafter⟩ := hwritten
      rw [hafter]
      exact iff_of_true rfl ⟨j, hj, hopen, hprecedes⟩
    | inr hrefused =>
      obtain ⟨hrefused, -, hafter⟩ := hrefused
      refine iff_of_false ?_ ?_
      · intro hplan
        have hsame : activity.version = plan.version := by
          rw [version, h.planVersion, ← hafter, hplan]
          rfl
        omega
      · intro hadmits
        obtain ⟨j', hj', hadmits⟩ := hadmits
        rw [← Option.some.inj (hj.symm.trans hj')] at hadmits
        exact hrefused hadmits

end ActivityState

/-- In every state that the transactions of the plan repository reach: the plan and the binding
that `prepare` returns are stored at its commit exactly when the stored plan was kept or the
event could write, and no transaction decreases the version of the stored plan. -/
theorem prepares_stored_iff (steps : List PlanStep) (store : ActivityStore) (c : ClaimedEvent)
    (proposed : Option ActivityPlan) {plan : ActivityPlan} {after : ActivityState}
    (hprepare : preparePlan store c proposed
      (run ActivityState.exec ActivityState.initial steps) = .ok (plan, after)) :
    (after.Stores plan ↔
      (run ActivityState.exec ActivityState.initial steps).KeepsPlan proposed ∨
        (run ActivityState.exec ActivityState.initial steps).Admits store c) ∧
      ∀ step, (run ActivityState.exec ActivityState.initial steps).version ≤
        ((run ActivityState.exec ActivityState.initial steps).exec step).version :=
  ⟨(ActivityState.run_versioned steps).prepare_stores_iff hprepare,
    fun step ↦ ((ActivityState.run_versioned steps).exec step).2⟩

section Examples

open Scenario

instance (activity : ActivityState) (store : ActivityStore) (c : ClaimedEvent) :
    Decidable (activity.Admits store c) :=
  inferInstanceAs (Decidable (∃ j ∈ store.lockCycle c, _))

/-- The plan of the session start is stored, and its decision is bound to it. -/
theorem prepares_stored_wander : ∃ c ∈ (Scenario.after (walkAccepted.take 2)).claims,
    ∃ prepared ∈ (preparePlan (storeAfter (walkAccepted.take 2)) c (some wanderPlan)
      ActivityState.initial).toOption, prepared.2.Stores prepared.1 := by
  have hprepared : ∃ c ∈ (Scenario.after (walkAccepted.take 2)).claims,
      ∃ prepared ∈ (preparePlan (storeAfter (walkAccepted.take 2)) c (some wanderPlan)
        ActivityState.initial).toOption,
      ActivityState.initial.Admits (storeAfter (walkAccepted.take 2)) c := by
    decide +kernel
  obtain ⟨c, hc, prepared, hprepare, hadmits⟩ := hprepared
  exact ⟨c, hc, prepared, hprepare,
    (prepares_stored_iff [] _ c _ (mem_toOption hprepare)).1.2 (Or.inr hadmits)⟩

/-- An observation that stands before the last one is admitted and claimed after it. -/
def walkBelated : List Action :=
  walkObserved ++ [.persist (token 8), finish 8, submit [observation "e2" 1 2 "L2" 2], claim]

/-- The belated observation is given a plan that is not stored. -/
theorem not_prepares_stored : ¬∀ (steps : List PlanStep) (store : ActivityStore) (c : ClaimedEvent)
    (proposed : Option ActivityPlan),
    ∀ prepared ∈ (preparePlan store c proposed
      (run ActivityState.exec ActivityState.initial steps)).toOption,
        prepared.2.plan = some prepared.1 := by
  intro h
  have hclaims : ∃ c₁ ∈ (Scenario.after (walkAccepted.take 2)).claims,
      ∃ c₂ ∈ (Scenario.after walkObserved).claims, ∃ c₃ ∈ (Scenario.after walkBelated).claims,
        ∃ prepared ∈ (preparePlan (storeAfter walkBelated) c₃
          (some { wanderPlan with planId := "plan-again" })
          (run ActivityState.exec ActivityState.initial
            [.prepare (storeAfter (walkAccepted.take 2)) c₁ (some wanderPlan),
              .prepare (storeAfter walkObserved) c₂ none])).toOption,
          prepared.2.plan ≠ some prepared.1 := by
    decide +kernel
  obtain ⟨c₁, -, c₂, -, c₃, -, prepared, hprepare, hlost⟩ := hclaims
  exact hlost (h _ _ _ _ prepared hprepare)

end Examples

end LlmGateway
