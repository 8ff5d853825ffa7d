import LlmGateway.Activity.Recording
import LlmGateway.System.Scenario

/-!
# The order of the events of a plan

The events of a cycle reach the plan repository in any order. Its row holds the result of every
event that committed, in the order of the commits, exactly as long as no event older than the
last one of the row has something to change (`folds_iff`): the write of such an event is
refused and the transaction reports success.
-/

namespace LlmGateway

open Relational

/-- A transaction of the repository: an event, or one of the other methods. -/
inductive PlanStep where
  | event (store : ActivityStore) (c : ClaimedEvent) (request : PlanRequest)
  | chatOpportunity (store : ActivityStore) (c : ClaimedEvent)
  | close (store : ActivityStore) (c : ClaimedEvent)
  | prepare (store : ActivityStore) (c : ClaimedEvent) (proposed : Option ActivityPlan)

def PlanStep.run (activity : ActivityState) :
    PlanStep → Except ActivityPlanUnavailableError ActivityState
  | event store c request => request.record store c activity
  | chatOpportunity store c => recordChatOpportunity store c activity
  | close store c => closePlan store c activity
  | prepare store c proposed => (preparePlan store c proposed activity).map Prod.snd

/-- What an event makes of a stored plan, whatever was written before. -/
def PlanRequest.transition (store : ActivityStore) (c : ClaimedEvent) (request : PlanRequest)
    (stored : Option ActivityPlan) : Option ActivityPlan :=
  if request.isVoid then stored
  else ((stored.bind fun raw ↦ raw.validate.toOption).bind fun plan ↦
    (request.operation store c plan).bind fun operation ↦
      (operation.apply plan).toOption).or stored

/-- The stored columns of a cycle, beside the fold of its committed events. The fold starts
again from what another method stores. -/
structure PlanHistory where
  activity : ActivityState
  folded : Option ActivityPlan

namespace PlanHistory

/-- A cycle without a plan. -/
def initial : PlanHistory := ⟨⟨none, none, none, none⟩, none⟩

/-- A transaction that fails is rolled back and does not count. -/
def exec (history : PlanHistory) (step : PlanStep) : PlanHistory :=
  match step.run history.activity with
  | .error _ => history
  | .ok after => ⟨after, match step with
    | .event store c request => request.transition store c history.folded
    | .chatOpportunity .. | .close .. | .prepare .. => after.plan⟩

/-- The row holds the fold of the committed events. -/
def Folds (history : PlanHistory) : Prop := history.activity.plan = history.folded

instance (history : PlanHistory) : Decidable history.Folds :=
  inferInstanceAs (Decidable (history.activity.plan = history.folded))

end PlanHistory

/-- The operation changes the plan whose current step it is given. -/
def PlanOperation.Changes (current : ActivityPlanStep) : PlanOperation → Prop
  | recordStepStarted _ => current.status ≠ .started
  | invalidateMoveTarget _ => ¬(current.sceneTargetId = none ∧ current.status = .pending ∧
      current.attemptCount = current.maxAttempts)
  | recordStepTerminal .. | replaceMoveTarget .. | completeSocialOpportunity => True

/-- The event has something to change in the current step of the plan, but the cycle is closed
or the last event of the row is another one, and not an older one. -/
def PlanStep.Loses (activity : ActivityState) : PlanStep → Prop
  | event store c request =>
    (∃ j ∈ store.lockCycle c, ¬(j.cycle.IsOpen ∧ activity.Precedes c)) ∧
      (∃ last ∈ activity.lastEventSequence, c.eventSequence ≤ last) ∧
        request.isVoid = false ∧ ∃ plan, activity.loadPlan = .ok (some plan) ∧
          ∃ operation ∈ request.operation store c plan, ∃ current,
            plan.currentStep = .ok current ∧ operation.Accepts current ∧
              operation.Changes current
  | chatOpportunity .. | close .. | prepare .. => False

/-! ## Operations without an effect -/

section Changes

variable {store : ActivityStore} {c : ClaimedEvent} {request : PlanRequest}
  {plan : ActivityPlan} {operation : PlanOperation} {current : ActivityPlanStep}

theorem touched_eq_self_of_not_changes (hchanges : ¬ operation.Changes current) :
    operation.touched current = current ∧ operation.advances current = false := by
  cases operation with
  | recordStepStarted stepId =>
    have hstarted : current.status = .started := not_not.1 hchanges
    refine ⟨?_, rfl⟩
    simp only [PlanOperation.touched, ActivityPlanStep.attempts, if_pos hstarted]
    rw [← hstarted]
  | invalidateMoveTarget stepId =>
    obtain ⟨htarget, hpending, hattempts⟩ := not_not.1 hchanges
    refine ⟨?_, rfl⟩
    have hmin : min (current.attemptCount + 1) current.maxAttempts = current.attemptCount := by
      omega
    simp only [PlanOperation.touched, hmin]
    rw [← htarget, ← hpending]
  | recordStepTerminal stepId succeeded retryable correctedDecisionAllowed =>
    exact absurd trivial hchanges
  | replaceMoveTarget stepId targetId version => exact absurd trivial hchanges
  | completeSocialOpportunity => exact absurd trivial hchanges

theorem touched_ne_of_changes (h : current.WellFormed) (hchanges : operation.Changes current)
    (hsocial : operation ≠ .completeSocialOpportunity)
    (htarget : ∀ stepId targetId version, operation ≠ .replaceMoveTarget stepId targetId version) :
    operation.touched current ≠ current := by
  intro hsame
  have hstatus := congrArg ActivityPlanStep.status hsame
  have hattempts := congrArg ActivityPlanStep.attemptCount hsame
  cases operation with
  | recordStepStarted stepId => exact hchanges hstatus.symm
  | invalidateMoveTarget stepId =>
    have hnone := congrArg ActivityPlanStep.sceneTargetId hsame
    simp only [PlanOperation.touched] at hnone hstatus hattempts
    have hle := h.attemptCount_le
    exact hchanges ⟨hnone.symm, hstatus.symm, by omega⟩
  | recordStepTerminal stepId succeeded retryable correctedDecisionAllowed =>
    have hspent : current.attempts = current.attemptCount := by
      cases succeeded with
      | true => exact hattempts
      | false =>
        simp only [PlanOperation.touched] at hattempts
        split_ifs at hattempts
        · exact hattempts
        · exact hattempts
    have hstarted : current.status = .started := by
      unfold ActivityPlanStep.attempts at hspent
      split_ifs at hspent with hstarted
      · exact hstarted
      · omega
    cases succeeded with
    | true => cases hstatus.trans hstarted
    | false =>
      simp only [PlanOperation.touched] at hstatus
      split_ifs at hstatus
      · cases hstatus.trans hstarted
      · cases hstatus.trans hstarted
  | replaceMoveTarget stepId targetId version => exact htarget _ _ _ rfl
  | completeSocialOpportunity => exact hsocial rfl

/-- The operation of an event gives the plan back exactly if it does not change the step. -/
theorem result_eq_self_iff (hplan : plan.WellFormed)
    (hoperation : request.operation store c plan = some operation)
    (hcurrent : plan.currentStep = .ok current) (haccepts : operation.Accepts current) :
    operation.result plan current = plan ↔ ¬ operation.Changes current := by
  have hmem := ActivityPlan.mem_of_currentStep hcurrent
  have hstep := hplan.steps current hmem
  have htarget := operation_ne_replace hoperation
  have hversion : operation.versionAfter plan = plan.version := by
    cases operation with
    | replaceMoveTarget stepId targetId version => exact absurd rfl (htarget _ _ _)
    | recordStepStarted | recordStepTerminal | invalidateMoveTarget
    | completeSocialOpportunity => rfl
  constructor
  · intro hsame hchanges
    by_cases hsocial : operation = .completeSocialOpportunity
    · subst hsocial
      have hcompleted := advanceAfterTerminal_of_social hplan hmem
        (PlanOperation.completeSocialOpportunity.touched_retouches current).stepId_eq haccepts.1
      have hactive := status_of_operation hoperation
      rw [← hsame] at hactive
      exact nomatch hcompleted.symm.trans hactive
    · have htouched : plan.step current.stepId = .ok (operation.touched current) := by
        rw [← PlanOperation.step_result hcurrent, hsame]
      have hfound := ActivityPlan.step_eq_of_mem hplan.nodup hmem
      exact touched_ne_of_changes hstep hchanges hsocial htarget
        (Except.ok.inj (htouched.symm.trans hfound))
  · intro hchanges
    obtain ⟨htouched, hadvances⟩ := touched_eq_self_of_not_changes hchanges
    exact PlanOperation.result_eq_self hplan hcurrent hadvances htouched hversion

end Changes

/-! ## Stored plans -/

/-- The stored plan loads as it is, or not at all. -/
def ActivityState.Faithful (activity : ActivityState) : Prop :=
  ∀ raw ∈ activity.plan, ∀ plan, raw.validate = .ok plan → plan = raw

namespace ActivityState

theorem Faithful.loadPlan_eq {activity : ActivityState} (h : activity.Faithful)
    {plan : ActivityPlan} (hload : activity.loadPlan = .ok (some plan)) :
    activity.plan = some plan := by
  unfold loadPlan at hload
  split at hload
  · exact nomatch hload
  · rename_i raw hraw
    split at hload
    · rename_i loaded hvalidate
      cases hload
      rw [hraw, h raw hraw plan hvalidate]
    · exact nomatch hload

end ActivityState

/-- A plan that is done with, or put aside, stays well formed. -/
theorem ActivityPlan.WellFormed.pause {plan : ActivityPlan} (h : plan.WellFormed) :
    ActivityPlan.WellFormed { plan with status := .paused } where
  planId := h.planId
  goalId := h.goalId
  goalSummary := h.goalSummary
  phase := h.phase
  one_le_version := h.one_le_version
  currentStepId := h.currentStepId
  steps := h.steps
  nodup := h.nodup
  social := h.social
  three_le_executable := h.three_le_executable
  executable_le := h.executable_le
  length_le := h.length_le
  currentStepId_mem := h.currentStepId_mem
  completed := nofun
  active := nofun
  phase_eq := h.phase_eq

section Faithful

variable {store : ActivityStore} {c : ClaimedEvent} {activity after : ActivityState}

theorem faithful_of_writeState {cycle : CycleRow} {plan : ActivityPlan} (h : activity.Faithful)
    (hplan : ∀ loaded, plan.validate = .ok loaded → loaded = plan)
    (hwrite : writeState cycle c plan activity = .ok after) : after.Faithful := by
  cases writeState_eq_ok_iff.1 hwrite with
  | inl hwritten =>
    rw [hwritten.2.2]
    intro raw hraw loaded hloaded
    obtain rfl : plan = raw := Option.some.inj hraw
    exact hplan loaded hloaded
  | inr hrefused =>
    rw [hrefused.2.2]
    exact h

/-- What an event stores is loaded as it is, or not at all. -/
theorem eq_of_validate_updated {request : PlanRequest} {plan updated loaded : ActivityPlan}
    {operation : PlanOperation} (hload : activity.loadPlan = .ok (some plan))
    (hoperation : request.operation store c plan = some operation)
    (happly : operation.apply plan = .ok updated) (h : updated.validate = .ok loaded) :
    loaded = updated := by
  obtain ⟨current, hcurrent, haccepts, rfl⟩ := PlanOperation.apply_eq_ok_iff.1 happly
  have hplan := ActivityState.wellFormed_of_loadPlan hload plan rfl
  have hwellFormed := wellFormed_of_validate_result hplan hoperation hcurrent haccepts h
  exact Except.ok.inj (h.symm.trans hwellFormed.validate_eq)

theorem faithful_of_record {request : PlanRequest} (h : activity.Faithful)
    (hrecord : request.record store c activity = .ok after) : after.Faithful := by
  cases PlanRequest.record_cases hrecord with
  | inl hidle =>
    rw [hidle.2]
    exact h
  | inr hupdates =>
    obtain ⟨j, plan, operation, updated, -, hu, hwrite⟩ := hupdates
    exact faithful_of_writeState h (fun loaded hloaded ↦
      eq_of_validate_updated hu.loadPlan_eq hu.operation_eq hu.apply_eq hloaded) hwrite

theorem faithful_of_chatOpportunity (h : activity.Faithful)
    (hrecord : recordChatOpportunity store c activity = .ok after) : after.Faithful := by
  cases updatePlan_cases hrecord with
  | inl hidle =>
    rw [hidle.2]
    exact h
  | inr hupdates =>
    obtain ⟨j, plan, operation, updated, -, hload, hoperation, happly, hwrite⟩ := hupdates
    unfold writeHostedChatState at hwrite
    split_ifs at hwrite
    cases hwrite
    intro raw hraw loaded hloaded
    obtain rfl : updated = raw := Option.some.inj hraw
    exact eq_of_validate_updated hload hoperation happly hloaded

theorem faithful_of_close (h : activity.Faithful)
    (hclose : closePlan store c activity = .ok after) : after.Faithful := by
  unfold closePlan at hclose
  split at hclose
  · exact nomatch hclose
  · obtain ⟨stored, hload, hclose⟩ := bind_eq_ok_iff.1 hclose
    cases stored with
    | none =>
      cases hclose
      exact h
    | some plan =>
      have hplan := (ActivityState.wellFormed_of_loadPlan hload plan rfl).pause
      exact faithful_of_writeState h
        (fun loaded hloaded ↦ Except.ok.inj (hloaded.symm.trans hplan.validate_eq)) hclose

theorem faithful_of_prepare {proposed : Option ActivityPlan} {plan : ActivityPlan}
    (h : activity.Faithful) (hprepare : preparePlan store c proposed activity = .ok (plan, after)) :
    after.Faithful := by
  have hwritten {cycle : CycleRow} {plan : ActivityPlan} {after : ActivityState}
      (hplan : plan.WellFormed) (hwrite : writeState cycle c plan activity = .ok after) :
      after.Faithful :=
    faithful_of_writeState h
      (fun loaded hloaded ↦ Except.ok.inj (hloaded.symm.trans hplan.validate_eq)) hwrite
  obtain ⟨j, -, stored, hload, hcases⟩ := preparePlan_cases hprepare
  cases hcases with
  | inl hkept =>
    obtain ⟨hmem, -, -, hwrite⟩ := hkept
    cases hwrite with
    | inl hwrite =>
      exact hwritten (ActivityState.wellFormed_of_loadPlan hload plan hmem) hwrite.2
    | inr hsame =>
      rw [hsame]
      exact h
  | inr hproposed =>
    obtain ⟨-, ⟨proposal, -, hvalidate⟩, hwrite⟩ := hproposed
    exact hwritten (ActivityPlan.wellFormed_of_validate hvalidate) hwrite

theorem faithful_of_run {step : PlanStep} (h : activity.Faithful)
    (hrun : step.run activity = .ok after) : after.Faithful := by
  cases step with
  | event store c request => exact faithful_of_record h hrun
  | chatOpportunity store c => exact faithful_of_chatOpportunity h hrun
  | close store c => exact faithful_of_close h hrun
  | prepare store c proposed =>
    obtain ⟨⟨plan, after'⟩, hprepare, rfl⟩ := map_eq_ok_iff.1 hrun
    exact faithful_of_prepare h hprepare

end Faithful

/-! ## One transaction -/

section Step

variable {store : ActivityStore} {c : ClaimedEvent} {request : PlanRequest}
  {activity after : ActivityState}

theorem transition_of_isIdle (h : request.IsIdle store c activity) :
    request.transition store c activity.plan = activity.plan := by
  unfold PlanRequest.transition
  split_ifs with hvoid
  · rfl
  · cases h with
    | inl hvoid' => exact absurd hvoid' hvoid
    | inr hidle =>
      obtain ⟨stored, hload, hnone⟩ := hidle
      unfold ActivityState.loadPlan at hload
      split at hload
      · rename_i hplan
        rw [hplan]
        rfl
      · rename_i raw hplan
        split at hload
        · rename_i plan hvalidate
          cases hload
          simp only [hplan, Option.bind_some, hvalidate, Except.toOption, hnone plan rfl,
            Option.bind_none, Option.none_or]
        · exact nomatch hload

theorem transition_of_updates {plan updated : ActivityPlan} {operation : PlanOperation}
    (h : request.Updates store c activity plan operation updated) :
    request.transition store c activity.plan = some updated := by
  have hload := h.loadPlan_eq
  unfold PlanRequest.transition
  rw [if_neg (Bool.eq_false_iff.1 h.not_void)]
  unfold ActivityState.loadPlan at hload
  split at hload
  · exact nomatch hload
  · rename_i raw hplan
    split at hload
    · rename_i loaded hvalidate
      cases hload
      simp only [hplan, Option.bind_some, hvalidate, Except.toOption, h.operation_eq, h.apply_eq,
        Option.some_or]
    · exact nomatch hload

/-- An event loses when its write is refused and its operation changes the plan. -/
theorem loses_iff : (PlanStep.event store c request).Loses activity ↔
    ∃ j plan operation updated, store.lockCycle c = some j ∧
      request.Updates store c activity plan operation updated ∧ updated ≠ plan ∧
        ¬(j.cycle.IsOpen ∧ activity.Precedes c) ∧
          ∃ last ∈ activity.lastEventSequence, c.eventSequence ≤ last := by
  constructor
  · rintro ⟨⟨j, hj, hrefused⟩, hlast, hvoid, plan, hload, operation, hoperation, current,
      hcurrent, haccepts, hchanges⟩
    have hplan := ActivityState.wellFormed_of_loadPlan hload plan rfl
    refine ⟨j, plan, operation, operation.result plan current, hj,
      ⟨hvoid, hload, hoperation, ?_⟩, ?_, hrefused, hlast⟩
    · exact PlanOperation.apply_eq_ok_iff.2 ⟨current, hcurrent, haccepts, rfl⟩
    · intro hsame
      exact (result_eq_self_iff hplan hoperation hcurrent haccepts).1 hsame hchanges
  · rintro ⟨j, plan, operation, updated, hj, hu, hne, hrefused, hlast⟩
    obtain ⟨current, hcurrent, haccepts, rfl⟩ := PlanOperation.apply_eq_ok_iff.1 hu.apply_eq
    have hplan := ActivityState.wellFormed_of_loadPlan hu.loadPlan_eq plan rfl
    refine ⟨⟨j, hj, hrefused⟩, hlast, hu.not_void, plan, hu.loadPlan_eq, operation,
      hu.operation_eq, current, hcurrent, haccepts, ?_⟩
    by_contra hchanges
    exact hne ((result_eq_self_iff hplan hu.operation_eq hcurrent haccepts).2 hchanges)

/-- The row holds what the event makes of the plan, exactly if the event does not lose. -/
theorem folds_event_iff (h : activity.Faithful) :
    (PlanHistory.exec ⟨activity, activity.plan⟩ (.event store c request)).Folds ↔
      ¬ (PlanStep.event store c request).Loses activity := by
  rw [loses_iff]
  have hexec : PlanHistory.exec ⟨activity, activity.plan⟩ (.event store c request) =
      match request.record store c activity with
      | .error _ => ⟨activity, activity.plan⟩
      | .ok after => ⟨after, request.transition store c activity.plan⟩ := rfl
  rw [hexec]
  cases hrecord : request.record store c activity with
  | error e =>
    refine iff_of_true rfl ?_
    rintro ⟨j, plan, operation, updated, hj, hu, -, hrefused, hlast⟩
    have hok : writeState j.cycle c updated activity = .ok activity :=
      writeState_eq_ok_iff.2 (Or.inr ⟨hrefused, hlast, rfl⟩)
    rw [hu.record_eq hj, hok] at hrecord
    exact nomatch hrecord
  | ok after =>
    cases PlanRequest.record_cases hrecord with
    | inl hidle =>
      obtain ⟨hidle, rfl⟩ := hidle
      refine iff_of_true (transition_of_isIdle hidle).symm ?_
      rintro ⟨j, plan, operation, updated, -, hu, -⟩
      exact hidle.not_updates hu
    | inr hupdates =>
      obtain ⟨j, plan, operation, updated, hj, hu, hwrite⟩ := hupdates
      have hunique {j' plan' operation' updated'} (hj' : store.lockCycle c = some j')
          (hu' : request.Updates store c activity plan' operation' updated') :
          j' = j ∧ plan' = plan ∧ updated' = updated := by
        obtain rfl := Option.some.inj (hj.symm.trans hj')
        have hload := hu.loadPlan_eq.symm.trans hu'.loadPlan_eq
        obtain rfl := Option.some.inj (Except.ok.inj hload)
        obtain rfl := Option.some.inj (hu.operation_eq.symm.trans hu'.operation_eq)
        exact ⟨rfl, rfl, (Except.ok.inj (hu.apply_eq.symm.trans hu'.apply_eq)).symm⟩
      have hfolds : PlanHistory.Folds ⟨after, request.transition store c activity.plan⟩ ↔
          after.plan = some updated := by
        unfold PlanHistory.Folds
        rw [transition_of_updates hu]
      rw [hfolds]
      cases writeState_eq_ok_iff.1 hwrite with
      | inl hwritten =>
        obtain ⟨hopen, hprecedes, rfl⟩ := hwritten
        refine iff_of_true rfl ?_
        rintro ⟨j', plan', operation', updated', hj', hu', -, hrefused, -⟩
        obtain ⟨rfl, -, -⟩ := hunique hj' hu'
        exact hrefused ⟨hopen, hprecedes⟩
      | inr hrefused =>
        obtain ⟨hrefused, hlast, rfl⟩ := hrefused
        rw [h.loadPlan_eq hu.loadPlan_eq, Option.some.injEq]
        constructor
        · rintro rfl ⟨j', plan', operation', updated', hj', hu', hne, -⟩
          obtain ⟨-, rfl, rfl⟩ := hunique hj' hu'
          exact hne rfl
        · intro hloses
          by_contra hne
          exact hloses ⟨j, plan, operation, updated, hj, hu, Ne.symm hne, hrefused, hlast⟩

end Step

/-! ## Runs -/

/-- The invariant of a run without a loss. -/
structure PlanHistory.Sound (history : PlanHistory) : Prop where
  folds : history.Folds
  faithful : history.activity.Faithful

theorem PlanHistory.exec_faithful {history : PlanHistory} (h : history.activity.Faithful)
    (step : PlanStep) : (history.exec step).activity.Faithful := by
  unfold exec
  split
  · exact h
  · rename_i after hrun
    exact faithful_of_run h hrun

theorem PlanHistory.exec_sound_iff (history : PlanHistory) (step : PlanStep)
    (h : history.Sound) :
    (history.exec step).Sound ↔ ¬ step.Loses history.activity := by
  obtain ⟨activity, folded⟩ := history
  obtain ⟨hfolds, hfaithful⟩ := h
  obtain rfl : activity.plan = folded := hfolds
  have hsound : (PlanHistory.exec ⟨activity, activity.plan⟩ step).Sound ↔
      (PlanHistory.exec ⟨activity, activity.plan⟩ step).Folds :=
    ⟨fun h ↦ h.folds, fun h ↦ ⟨h, exec_faithful hfaithful step⟩⟩
  rw [hsound]
  cases step with
  | event store c request => exact folds_event_iff hfaithful
  | chatOpportunity store c | close store c | prepare store c proposed =>
    refine iff_of_true ?_ id
    unfold exec Folds
    split
    · rfl
    · rfl

/-- The stored plan is always the fold of the committed events, in the order of their commits,
exactly if no event with something to change finds a last event that is not older, or a closed
cycle. -/
theorem folds_iff (steps : List PlanStep) :
    (∀ taken, taken <+: steps → (run PlanHistory.exec PlanHistory.initial taken).Folds) ↔
      Guarded PlanHistory.exec (fun history step ↦ ¬ step.Loses history.activity)
        PlanHistory.initial steps := by
  have hinitial : PlanHistory.initial.Sound := ⟨rfl, nofun⟩
  have hiff := guarded_iff_invariant (I := PlanHistory.Sound) PlanHistory.exec_sound_iff
    hinitial steps
  have hfaithful (taken : List PlanStep) :
      (run PlanHistory.exec PlanHistory.initial taken).activity.Faithful :=
    invariant_run (I := fun history : PlanHistory ↦ history.activity.Faithful)
      (fun _ step h ↦ PlanHistory.exec_faithful h step) hinitial.faithful taken
  rw [hiff]
  constructor
  · exact fun h taken htaken ↦ ⟨h taken htaken, hfaithful taken⟩
  · exact fun h taken htaken ↦ (h taken htaken).folds

section Example

open Scenario

/-- The first walk is decided and accepted while its session start is processed. -/
def walkAccepted : List Action :=
  [submit [sessionStarted "e1" 1 "L1" 1], claim, .persist (token 3),
    .plan (token 3) ⟨"walk", 100, .callSkill "move_to" "v1" [] none⟩ "d", finish 3,
    .claimDecision "worker", .recordResponse (token 5) ⟨200, .accepted, "ok", some "call", none⟩]

/-- An observation is claimed next. -/
def walkObserved : List Action := walkAccepted ++ [submit [observation "e3" 1 3 "L3" 3], claim]

def walkDone : SkillFinishedPayload :=
  ⟨"d", "call", "move_to", .success, "done", false, 0, 0, none, instant⟩

/-- The success of the walk, which stands before the observation, is admitted and claimed last. -/
def walkEnded : List Action :=
  walkObserved ++ [.persist (token 8), finish 8,
    submit [plain "e2" 1 2 0 ⟨.skillFinished walkDone, rfl, EventType.noConfusion⟩], claim]

/-- The tables after a run, with all decisions bound to the first step. -/
def storeAfter (actions : List Action) : ActivityStore :=
  ⟨(after actions).db, fun _ ↦ ⟨some "plan-wander", some "move"⟩⟩

/-- The success of the walk is lost behind the observation, and the walk stays current. -/
theorem not_folds : ¬ ∀ steps, (run PlanHistory.exec PlanHistory.initial steps).Folds := by
  intro h
  have hclaims : ∃ c₁ ∈ (after (walkAccepted.take 2)).claims,
      ∃ c₂ ∈ (after walkObserved).claims, ∃ c₃ ∈ (after walkEnded).claims,
        ¬ (run PlanHistory.exec PlanHistory.initial
          [.prepare (storeAfter (walkAccepted.take 2)) c₁ (some wanderPlan),
            .prepare (storeAfter walkObserved) c₂ none,
            .event (storeAfter walkEnded) c₃ (.skillFinished walkDone)]).Folds := by
    decide +kernel
  obtain ⟨c₁, -, c₂, -, c₃, -, hlost⟩ := hclaims
  exact hlost (h _)

end Example

end LlmGateway
