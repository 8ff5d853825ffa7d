import LlmGateway.Activity.Recording
import LlmGateway.System.Run
import LlmGateway.System.Scenario

/-!
# Processing an event of the plan again

An event is processed again after a failed agent run, a lost claim or a crash, and each time its
transactions reach the plan repository. The write is allowed again, since the event is the last
one of the row. A repetition is harmless exactly when the first processing did not leave the
step open (`replays_iff`): a failure that may be tried again, and a target that is lost before
the last attempt, consume another attempt each time.
-/

namespace LlmGateway

open Relational

/-! ## Processings -/

/-- The transactions of a processing, until one of them fails. -/
def recordAll (store : ActivityStore) (c : ClaimedEvent) :
    ActivityState → List PlanRequest → ActivityState
  | activity, [] => activity
  | activity, request :: requests =>
    match request.record store c activity with
    | .ok after => recordAll store c after requests
    | .error _ => activity

/-- A processing of the event. -/
def processPlan (store : ActivityStore) (c : ClaimedEvent) (activity : ActivityState) :
    ActivityState :=
  recordAll store c activity (planRequests c)

/-- A processing that ends, with the process, after some of its transactions. -/
structure Attempt where
  store : ActivityStore
  claim : ClaimedEvent
  transactions : ℕ

def Attempt.exec (activity : ActivityState) (attempt : Attempt) : ActivityState :=
  recordAll attempt.store attempt.claim activity
    ((planRequests attempt.claim).take attempt.transactions)

/-- The attempt is one more at the event: the decisions keep their bindings, a generation that
has passed does not return, and a closed cycle stays closed. -/
structure Attempt.Repeats (attempt : Attempt) (store : ActivityStore) (c : ClaimedEvent) :
    Prop where
  rowId_eq : attempt.claim.rowId = c.rowId
  event_eq : attempt.claim.event = c.event
  eventSequence_eq : attempt.claim.eventSequence = c.eventSequence
  binding_eq : ∀ decisionId,
    attempt.store.decisionBinding attempt.claim decisionId = store.decisionBinding c decisionId
  historical : c.historicalRecovery = true → attempt.claim.historicalRecovery = true
  closed : ∀ j ∈ store.lockCycle c, ∀ j' ∈ attempt.store.lockCycle attempt.claim,
    j'.cycle.IsOpen → j.cycle.IsOpen

/-- The operation leaves the step to another attempt. -/
def PlanOperation.LeavesOpen (current : ActivityPlanStep) : PlanOperation → Prop
  | recordStepTerminal _ succeeded retryable correctedDecisionAllowed =>
    succeeded = false ∧ (retryable ∨ correctedDecisionAllowed) ∧
      current.attempts < current.maxAttempts
  | invalidateMoveTarget _ => current.attemptCount + 1 < current.maxAttempts
  | recordStepStarted _ | replaceMoveTarget .. | completeSocialOpportunity => False

/-- The event leaves the current step of the plan to another attempt. -/
def LeavesStepOpen (store : ActivityStore) (c : ClaimedEvent) (activity : ActivityState) : Prop :=
  (∃ j ∈ store.lockCycle c, j.cycle.IsOpen) ∧ activity.Precedes c ∧
    ∃ plan, activity.loadPlan = .ok (some plan) ∧
      ∃ request ∈ planRequests c, request.isVoid = false ∧
        ∃ operation ∈ request.operation store c plan, ∃ current,
          plan.currentStep = .ok current ∧ operation.Accepts current ∧
            operation.LeavesOpen current

/-- However often the event is processed again, the stored plan stays as the first processing
left it. -/
def Replays (store : ActivityStore) (c : ClaimedEvent) (activity : ActivityState) : Prop :=
  ∀ attempts : List Attempt, (∀ attempt ∈ attempts, attempt.Repeats store c) →
    (attempts.foldl Attempt.exec (processPlan store c activity)).plan =
      (processPlan store c activity).plan

/-! ## The operation of a repetition -/

section Operation

variable {store : ActivityStore} {c : ClaimedEvent} {request : PlanRequest}
  {plan updated : ActivityPlan} {operation : PlanOperation}

/-- An operation on a bound step that keeps the step current without leaving it open. -/
theorem operationOn_keeps {terminal : TerminalRequest} {stepId : String}
    {current : ActivityPlanStep} (h : operation = terminal.operationOn plan stepId)
    (hadvances : operation.advances current = false) (hopen : ¬ operation.LeavesOpen current) :
    operation = .recordStepStarted stepId ∨ operation = .invalidateMoveTarget stepId := by
  unfold TerminalRequest.operationOn at h
  split at h
  · exact Or.inl h
  · split_ifs at h
    · exact Or.inr h
    · subst h
      simp only [PlanOperation.advances, Bool.or_eq_false_iff, Bool.not_eq_false',
        decide_eq_true_eq] at hadvances
      exact absurd ⟨hadvances.1, hadvances.2⟩ hopen

theorem touched_touched {stepId : String} {current : ActivityPlanStep}
    (h : operation = .recordStepStarted stepId ∨ operation = .invalidateMoveTarget stepId)
    (hopen : ¬ operation.LeavesOpen current) :
    operation.touched (operation.touched current) = operation.touched current := by
  cases h with
  | inl hstarted =>
    rw [hstarted]
    simp only [PlanOperation.touched, ActivityPlanStep.attempts, if_true]
  | inr hinvalidate =>
    subst hinvalidate
    have hmax : current.maxAttempts ≤ current.attemptCount + 1 := not_lt.1 hopen
    simp only [PlanOperation.touched]
    congr 1
    omega

/-- A plan whose current step was touched has the same operation for an event. -/
theorem operationOn_result (terminal : TerminalRequest) {current : ActivityPlanStep}
    (stepId : String) (hcurrent : plan.currentStep = .ok current)
    (hadvances : operation.advances current = false) :
    terminal.operationOn (operation.result plan current) stepId =
      terminal.operationOn plan stepId := by
  have hcurrent' := PlanOperation.currentStep_result hcurrent hadvances
  have hskill := (operation.touched_retouches current).skillName_eq
  unfold TerminalRequest.operationOn
  rw [hcurrent, hcurrent']
  simp only [Except.toOption, Option.mem_some_iff, exists_eq_left', hskill]

/-- An operation that did not leave its step open changes nothing the second time. -/
theorem apply_again {current : ActivityPlanStep} (hplan : plan.WellFormed)
    (hoperation : request.operation store c plan = some operation)
    (hcurrent : plan.currentStep = .ok current) (haccepts : operation.Accepts current)
    (hopen : ¬ operation.LeavesOpen current) (hupdated : (operation.result plan current).WellFormed)
    {operation' : PlanOperation} {plan' : ActivityPlan}
    (hoperation' : request.operation store c (operation.result plan current) = some operation')
    (happly : operation'.apply (operation.result plan current) = .ok plan') :
    plan' = operation.result plan current := by
  have hmem := ActivityPlan.mem_of_currentStep hcurrent
  have hstatus := status_of_operation hoperation'
  have hretouches := (operation.touched_retouches current).stepId_eq
  cases operation_cases hoperation with
  | inl hpassive =>
    obtain ⟨-, rfl⟩ := hpassive
    have hcompleted := advanceAfterTerminal_of_social hplan hmem hretouches haccepts.1
    exact nomatch hcompleted.symm.trans hstatus
  | inr hterminal =>
    obtain ⟨terminal, hrequest, hterminal⟩ := hterminal
    obtain ⟨binding, hbinding, -, -, hthis⟩ := terminalOperation_eq_some.1 hterminal
    have hstepId := operationOn_accepts (hthis ▸ haccepts)
    have hagain : ∃ binding', store.decisionBinding c terminal.decisionId = some binding' ∧
        (operation.result plan current).currentStepId = some (binding'.stepId.getD "") ∧
          operation' = terminal.operationOn (operation.result plan current)
            (binding'.stepId.getD "") := by
      cases operation_cases hoperation' with
      | inl hpassive => exact nomatch hpassive.1.symm.trans hrequest
      | inr hterminal' =>
        obtain ⟨terminal', hrequest', hterminal'⟩ := hterminal'
        obtain rfl := Option.some.inj (hrequest.symm.trans hrequest')
        obtain ⟨binding', hbinding', -, hid, hthat⟩ := terminalOperation_eq_some.1 hterminal'
        exact ⟨binding', hbinding', hid, hthat⟩
    obtain ⟨binding', hbinding', hid, hthat⟩ := hagain
    obtain rfl := Option.some.inj (hbinding.symm.trans hbinding')
    cases hadvances : operation.advances current with
    | true =>
      have hresult : operation.result plan current =
          advanceAfterTerminal plan (operation.touched current) := if_pos hadvances
      rw [hresult] at hid hstatus
      rw [← hstepId] at hid
      cases advanceAfterTerminal_leaves hplan.nodup hmem hretouches with
      | inl hcompleted => exact nomatch hcompleted.symm.trans hstatus
      | inr hleft => exact absurd hid hleft
    | false =>
      have hkeeps := operationOn_keeps hthis hadvances hopen
      rw [operationOn_result terminal _ hcurrent hadvances, ← hthis] at hthat
      subst hthat
      obtain ⟨found, hfound, -, rfl⟩ := PlanOperation.apply_eq_ok_iff.1 happly
      have hcurrent' := PlanOperation.currentStep_result hcurrent hadvances
      obtain rfl := Except.ok.inj (hcurrent'.symm.trans hfound)
      have htouched := touched_touched hkeeps hopen
      cases hkeeps with
      | inl hstarted =>
        subst hstarted
        exact PlanOperation.result_eq_self hupdated hfound rfl htouched rfl
      | inr hinvalidate =>
        subst hinvalidate
        exact PlanOperation.result_eq_self hupdated hfound rfl htouched rfl

/-- An event has the same operation on the plan that it left at its step. -/
theorem operation_result {current : ActivityPlanStep}
    (h : request.operation store c plan = some operation)
    (hcurrent : plan.currentStep = .ok current) (hadvances : operation.advances current = false) :
    request.operation store c (operation.result plan current) = some operation := by
  have hstatus := status_of_operation h
  have hinPlace : operation.result plan current =
      { plan with
        steps := replaceStep plan (operation.touched current)
        version := operation.versionAfter plan } := if_neg (Bool.eq_false_iff.1 hadvances)
  have hactive : (operation.result plan current).status = .active := by
    rw [hinPlace]
    exact hstatus
  cases operation_cases h with
  | inl hpassive =>
    rw [hpassive.2] at hadvances
    exact nomatch hadvances
  | inr hterminal =>
    obtain ⟨terminal, hrequest, hterminal⟩ := hterminal
    obtain ⟨binding, hbinding, hplanId, hstepId, hthis⟩ := terminalOperation_eq_some.1 hterminal
    have hagain : terminalOperation store c terminal (operation.result plan current) =
        some operation := by
      apply terminalOperation_eq_some.2
      refine ⟨binding, hbinding, ?_, ?_, ?_⟩
      · rw [hinPlace]
        exact hplanId
      · rw [hinPlace]
        exact hstepId
      · rw [operationOn_result terminal _ hcurrent hadvances]
        exact hthis
    unfold PlanRequest.operation
    rw [if_neg (not_not.2 hactive)]
    cases request with
    | passiveStep => exact nomatch hrequest
    | skillStarted payload =>
      rw [hrequest]
      exact hagain
    | skillFinished payload =>
      rw [hrequest]
      exact hagain
    | decisionRejected payload =>
      rw [hrequest]
      exact hagain

/-- An operation that leaves a step open does so in place, and spends an attempt each time. -/
theorem advances_of_leavesOpen {current : ActivityPlanStep} (h : operation.LeavesOpen current) :
    operation.advances current = false := by
  cases operation with
  | recordStepTerminal stepId succeeded retryable correctedDecisionAllowed =>
    obtain ⟨hfailed, hretry⟩ := h
    simp only [PlanOperation.advances, hfailed, decide_eq_true hretry, Bool.false_or,
      Bool.not_true]
  | invalidateMoveTarget stepId => rfl
  | recordStepStarted stepId => exact absurd h id
  | replaceMoveTarget stepId targetId version => exact absurd h id
  | completeSocialOpportunity => exact absurd h id

theorem touched_of_leavesOpen {current : ActivityPlanStep} (h : operation.LeavesOpen current) :
    (operation.touched current).status = .pending ∧
      (operation.touched current).attemptCount < current.maxAttempts ∧
        (operation.touched (operation.touched current)).attemptCount ≠
          (operation.touched current).attemptCount := by
  cases operation with
  | recordStepTerminal stepId succeeded retryable correctedDecisionAllowed =>
    obtain ⟨rfl, hretry⟩ := h
    have htouched (step : ActivityPlanStep) : ((PlanOperation.recordStepTerminal stepId false
        retryable correctedDecisionAllowed).touched step).attemptCount = step.attempts := by
      simp only [PlanOperation.touched]
      split_ifs <;> rfl
    have hpending : ((PlanOperation.recordStepTerminal stepId false retryable
        correctedDecisionAllowed).touched current).status = .pending := by
      simp only [PlanOperation.touched]
      rw [if_pos hretry]
    refine ⟨hpending, ?_, ?_⟩
    · rw [htouched]
      exact hretry.2
    · rw [htouched, ActivityPlanStep.attempts, hpending, if_neg StepStatus.noConfusion]
      omega
  | invalidateMoveTarget stepId =>
    have hlt : current.attemptCount + 1 < current.maxAttempts := h
    refine ⟨rfl, ?_, ?_⟩
    · simp only [PlanOperation.touched]
      omega
    · simp only [PlanOperation.touched]
      omega
  | recordStepStarted stepId => exact absurd h id
  | replaceMoveTarget stepId targetId version => exact absurd h id
  | completeSocialOpportunity => exact absurd h id

theorem suits_of_leavesOpen {current : ActivityPlanStep} (h : operation.LeavesOpen current) :
    operation.Suits current ∧ operation.Suits (operation.touched current) := by
  have hmax := (operation.touched_retouches current).maxAttempts_eq
  obtain ⟨hpending, hlt, -⟩ := touched_of_leavesOpen h
  cases operation with
  | recordStepTerminal stepId succeeded retryable correctedDecisionAllowed =>
    have hretry := h.2.2
    refine ⟨?_, Or.inr (hmax ▸ hlt)⟩
    unfold ActivityPlanStep.attempts at hretry
    split_ifs at hretry with hstarted
    · exact Or.inl hstarted
    · exact Or.inr (by omega)
  | invalidateMoveTarget stepId => exact ⟨trivial, trivial⟩
  | recordStepStarted stepId => exact absurd h id
  | replaceMoveTarget stepId targetId version => exact absurd h id
  | completeSocialOpportunity => exact absurd h id

theorem accepts_of_leavesOpen {current : ActivityPlanStep} (h : operation.LeavesOpen current)
    (haccepts : operation.Accepts current) :
    current.skillName ≠ none ∧ operation.Accepts (operation.touched current) := by
  have hr := operation.touched_retouches current
  cases operation with
  | recordStepTerminal stepId succeeded retryable correctedDecisionAllowed =>
    refine ⟨haccepts.2, hr.stepId_eq.trans haccepts.1, ?_⟩
    rw [hr.skillName_eq]
    exact haccepts.2
  | invalidateMoveTarget stepId =>
    refine ⟨?_, hr.stepId_eq.trans haccepts.1, hr.skillName_eq.trans haccepts.2⟩
    rw [haccepts.2]
    exact Option.some_ne_none _
  | recordStepStarted stepId => exact absurd h id
  | replaceMoveTarget stepId targetId version => exact absurd h id
  | completeSocialOpportunity => exact absurd h id

end Operation

/-! ## Repeated transactions -/

section Repeat

variable {store : ActivityStore} {c : ClaimedEvent} {request : PlanRequest}
  {activity after : ActivityState} {attempt : Attempt}

theorem Attempt.Repeats.operation_eq (h : attempt.Repeats store c) (request : PlanRequest) :
    request.operation attempt.store attempt.claim = request.operation store c := by
  funext plan
  unfold PlanRequest.operation terminalOperation
  simp only [h.binding_eq]

theorem Attempt.Repeats.ofPlan_eq (h : attempt.Repeats store c) (plan : ActivityPlan) :
    ActivityState.ofPlan attempt.claim plan = .ofPlan c plan := by
  unfold ActivityState.ofPlan
  rw [h.rowId_eq, h.eventSequence_eq]

theorem Attempt.Repeats.precedes_iff (h : attempt.Repeats store c) :
    activity.Precedes attempt.claim ↔ activity.Precedes c := by
  unfold ActivityState.Precedes
  rw [h.rowId_eq, h.eventSequence_eq]

theorem Attempt.Repeats.isIdle_iff (h : attempt.Repeats store c) :
    request.IsIdle attempt.store attempt.claim activity ↔ request.IsIdle store c activity := by
  unfold PlanRequest.IsIdle
  rw [h.operation_eq]

theorem Attempt.Repeats.updates_iff (h : attempt.Repeats store c) {plan updated : ActivityPlan}
    {operation : PlanOperation} :
    request.Updates attempt.store attempt.claim activity plan operation updated ↔
      request.Updates store c activity plan operation updated := by
  constructor
  · intro hu
    exact ⟨hu.not_void, hu.loadPlan_eq, h.operation_eq request ▸ hu.operation_eq, hu.apply_eq⟩
  · intro hu
    exact ⟨hu.not_void, hu.loadPlan_eq, (h.operation_eq request).symm ▸ hu.operation_eq,
      hu.apply_eq⟩

theorem Attempt.Repeats.planRequests_eq (h : attempt.Repeats store c) :
    planRequests attempt.claim = [] ∨ planRequests attempt.claim = planRequests c := by
  unfold planRequests
  rw [h.event_eq]
  cases hagain : attempt.claim.historicalRecovery with
  | true => exact Or.inl (if_pos rfl)
  | false =>
    have hfirst : c.historicalRecovery = false := by
      apply Bool.eq_false_iff.2
      intro htrue
      exact Bool.false_ne_true (hagain.symm.trans (h.historical htrue))
    rw [hfirst]
    exact Or.inr rfl

/-- Recording the event once more changes nothing. -/
def Settled (store : ActivityStore) (c : ClaimedEvent) (request : PlanRequest)
    (activity : ActivityState) : Prop :=
  ∀ attempt : Attempt, attempt.Repeats store c →
    ∀ after, request.record attempt.store attempt.claim activity = .ok after → after = activity

/-- Recording the event once more fails. -/
def Stuck (store : ActivityStore) (c : ClaimedEvent) (request : PlanRequest)
    (activity : ActivityState) : Prop :=
  ∀ attempt : Attempt, attempt.Repeats store c →
    ∀ after, request.record attempt.store attempt.claim activity ≠ .ok after

/-- A request with nothing to do is settled. -/
theorem settled_of_isIdle (h : request.IsIdle store c activity) :
    Settled store c request activity := by
  intro attempt hr after hrecord
  cases PlanRequest.record_cases hrecord with
  | inl hidle => exact hidle.2
  | inr hupdates =>
    obtain ⟨j, plan, operation, updated, -, hu, -⟩ := hupdates
    exact absurd (hr.updates_iff.1 hu) (h.not_updates)

/-- What was refused, or failed, at first is refused, or fails, again. -/
theorem write_again {j j' : Joined} {plan : ActivityPlan} (hr : attempt.Repeats store c)
    (hlock : store.lockCycle c = some j)
    (hlock' : attempt.store.lockCycle attempt.claim = some j')
    (hrefused : ¬(j.cycle.IsOpen ∧ activity.Precedes c))
    (h : writeState j'.cycle attempt.claim plan activity = .ok after) : after = activity := by
  cases writeState_eq_ok_iff.1 h with
  | inl hwritten =>
    have hopen := hr.closed j hlock j' hlock' hwritten.1
    exact absurd ⟨hopen, hr.precedes_iff.1 hwritten.2.1⟩ hrefused
  | inr hagain => exact hagain.2.2

theorem stuck_of_error (hlock : (store.lockCycle c).isSome) {e : ActivityPlanUnavailableError}
    (h : request.record store c activity = .error e) : Stuck store c request activity := by
  obtain ⟨j, hj⟩ := Option.isSome_iff_exists.1 hlock
  intro attempt hr after hrecord
  cases PlanRequest.record_cases hrecord with
  | inl hidle =>
    have hok := PlanRequest.record_of_isIdle hlock (hr.isIdle_iff.1 hidle.1)
    exact nomatch hok.symm.trans h
  | inr hupdates =>
    obtain ⟨j', plan, operation, updated, hlock', hu, hwrite⟩ := hupdates
    rw [(hr.updates_iff.1 hu).record_eq hj] at h
    have hnotok : ∀ after, writeState j.cycle c updated activity ≠ .ok after :=
      fun after hok ↦ nomatch hok.symm.trans h
    have hrefused : ¬(j.cycle.IsOpen ∧ activity.Precedes c) :=
      fun hopen ↦ hnotok _ (writeState_eq_ok_iff.2 (Or.inl ⟨hopen.1, hopen.2, rfl⟩))
    cases writeState_eq_ok_iff.1 hwrite with
    | inl hwritten =>
      have hopen := hr.closed j hj j' hlock' hwritten.1
      exact hrefused ⟨hopen, hr.precedes_iff.1 hwritten.2.1⟩
    | inr hagain =>
      rw [hr.eventSequence_eq] at hagain
      exact hnotok _ (writeState_eq_ok_iff.2 (Or.inr ⟨hrefused, hagain.2.1, rfl⟩))

/-- An event that did not leave its step open is settled once it is recorded. -/
theorem settled_of_record (h : request.record store c activity = .ok after)
    (hopen : ∀ j, store.lockCycle c = some j → j.cycle.IsOpen → activity.Precedes c →
      ∀ plan operation updated current,
        request.Updates store c activity plan operation updated → plan.currentStep = .ok current →
          operation.Accepts current → ¬ operation.LeavesOpen current) :
    Settled store c request after := by
  cases PlanRequest.record_cases h with
  | inl hidle =>
    rw [hidle.2]
    exact settled_of_isIdle hidle.1
  | inr hupdates =>
    obtain ⟨j, plan, operation, updated, hj, hu, hwrite⟩ := hupdates
    intro attempt hr after' hrecord
    cases writeState_eq_ok_iff.1 hwrite with
    | inl hwritten =>
      obtain ⟨hcycle, hprecedes, rfl⟩ := hwritten
      obtain ⟨current, hcurrent, haccepts, rfl⟩ := PlanOperation.apply_eq_ok_iff.1 hu.apply_eq
      have hleft := hopen j hj hcycle hprecedes plan operation _ current hu hcurrent haccepts
      have hplan := ActivityState.wellFormed_of_loadPlan hu.loadPlan_eq plan rfl
      cases PlanRequest.record_cases hrecord with
      | inl hidle => exact hidle.2
      | inr hupdates' =>
        obtain ⟨j', plan', operation', updated', -, hu', hwrite'⟩ := hupdates'
        have hagain := hr.updates_iff.1 hu'
        have hload := hagain.loadPlan_eq
        have hvalid : ((operation.result plan current).validate).toOption = some plan' := by
          simp only [ActivityState.loadPlan, ActivityState.ofPlan] at hload
          cases hvalidate : (operation.result plan current).validate with
          | error e =>
            rw [hvalidate] at hload
            cases hload
          | ok loaded =>
            rw [hvalidate] at hload
            exact Except.ok.inj hload
        have hwellFormed := wellFormed_of_validate_result hplan hu.operation_eq hcurrent haccepts
          (mem_toOption hvalid)
        rw [ActivityState.loadPlan_ofPlan hwellFormed] at hload
        obtain rfl : operation.result plan current = plan' := Option.some.inj (Except.ok.inj hload)
        have hsame := apply_again hplan hu.operation_eq hcurrent haccepts hleft hwellFormed
          hagain.operation_eq hagain.apply_eq
        subst hsame
        cases writeState_eq_ok_iff.1 hwrite' with
        | inl hwritten' => rw [hwritten'.2.2, hr.ofPlan_eq]
        | inr hrefused' => exact hrefused'.2.2
    | inr hrefused =>
      obtain ⟨hrefused, -, rfl⟩ := hrefused
      cases PlanRequest.record_cases hrecord with
      | inl hidle => exact hidle.2
      | inr hupdates' =>
        obtain ⟨j', plan', operation', updated', hj', -, hwrite'⟩ := hupdates'
        exact write_again hr hj hj' hrefused hwrite'

/-- The social opportunity ends the plan, after which no event has anything to do. -/
theorem settled_of_passiveStep (h : Settled store c request activity)
    (hpassive : PlanRequest.passiveStep.record store c activity = .ok after) :
    Settled store c request after := by
  cases PlanRequest.record_cases hpassive with
  | inl hidle => rwa [hidle.2]
  | inr hupdates =>
    obtain ⟨j, plan, operation, updated, -, hu, hwrite⟩ := hupdates
    cases writeState_eq_ok_iff.1 hwrite with
    | inr hrefused => rwa [hrefused.2.2]
    | inl hwritten =>
      obtain ⟨-, -, rfl⟩ := hwritten
      obtain ⟨current, hcurrent, haccepts, rfl⟩ := PlanOperation.apply_eq_ok_iff.1 hu.apply_eq
      have hplan := ActivityState.wellFormed_of_loadPlan hu.loadPlan_eq plan rfl
      have hmem := ActivityPlan.mem_of_currentStep hcurrent
      obtain rfl : operation = .completeSocialOpportunity := by
        cases operation_cases hu.operation_eq with
        | inl hsocial => exact hsocial.2
        | inr hterminal => exact nomatch hterminal.choose_spec.1
      have hcompleted := advanceAfterTerminal_of_social hplan hmem
        (PlanOperation.completeSocialOpportunity.touched_retouches current).stepId_eq haccepts.1
      have hwellFormed := (PlanOperation.result_wellFormed_iff hplan hcurrent).2
        ((PlanOperation.touched_wellFormed_iff hplan (hplan.steps current hmem) haccepts).2 trivial)
      apply settled_of_isIdle
      refine Or.inr ⟨_, ActivityState.loadPlan_ofPlan hwellFormed, fun loaded hloaded ↦ ?_⟩
      rw [← Option.some.inj hloaded]
      apply if_pos
      intro hactive
      exact nomatch hcompleted.symm.trans hactive

/-- Every request is settled, up to the first that fails. -/
def Fixed (store : ActivityStore) (c : ClaimedEvent) (activity : ActivityState) :
    List PlanRequest → Prop
  | [] => True
  | request :: requests => Settled store c request activity ∧
      (Stuck store c request activity ∨ Fixed store c activity requests)

theorem recordAll_of_fixed (hr : attempt.Repeats store c) {requests : List PlanRequest}
    (h : Fixed store c activity requests) (n : ℕ) :
    recordAll attempt.store attempt.claim activity (requests.take n) = activity := by
  induction requests generalizing n with
  | nil =>
    rw [List.take_nil]
    rfl
  | cons request requests ih =>
    cases n with
    | zero => rfl
    | succ n =>
      rw [List.take_succ_cons]
      unfold recordAll
      split
      · rename_i after hrecord
        have hsame := h.1 attempt hr after hrecord
        rw [hsame] at hrecord ⊢
        cases h.2 with
        | inl hstuck => exact absurd hrecord (hstuck attempt hr activity)
        | inr hrest => exact ih hrest n
      · rfl

theorem exec_of_fixed (hr : attempt.Repeats store c)
    (h : Fixed store c activity (planRequests c)) : attempt.exec activity = activity := by
  unfold Attempt.exec
  cases hr.planRequests_eq with
  | inl hnone =>
    rw [hnone, List.take_nil]
    rfl
  | inr hsame =>
    rw [hsame]
    exact recordAll_of_fixed hr h attempt.transactions

/-- The requests of an event: none, one, or a terminal and the passive step after it. -/
theorem planRequests_cases (c : ClaimedEvent) :
    planRequests c = [] ∨ (∃ request, planRequests c = [request]) ∨
      ∃ payload, planRequests c = [.skillFinished payload, .passiveStep] := by
  unfold planRequests
  split_ifs
  · exact Or.inl rfl
  · split
    · exact Or.inr (Or.inl ⟨_, rfl⟩)
    · exact Or.inr (Or.inr ⟨_, rfl⟩)
    · exact Or.inr (Or.inl ⟨_, rfl⟩)
    · exact Or.inr (Or.inl ⟨_, rfl⟩)
    · exact Or.inl rfl
    · exact Or.inl rfl
    · exact Or.inl rfl

/-- A processing that leaves no step open leaves nothing to a repetition. -/
theorem fixed_processPlan (hlock : (store.lockCycle c).isSome)
    (hopen : ¬ LeavesStepOpen store c activity) :
    Fixed store c (processPlan store c activity) (planRequests c) := by
  have hfirst : ∀ request ∈ planRequests c, ∀ after,
      request.record store c activity = .ok after → Settled store c request after := by
    intro request hmem after hrecord
    apply settled_of_record hrecord
    intro j hj hcycle hprecedes plan operation updated current hu hcurrent haccepts hleft
    exact hopen ⟨⟨j, hj, hcycle⟩, hprecedes, plan, hu.loadPlan_eq, request, hmem, hu.not_void,
      operation, hu.operation_eq, current, hcurrent, haccepts, hleft⟩
  have hpassive : ∀ activity after, PlanRequest.passiveStep.record store c activity = .ok after →
      Settled store c .passiveStep after := by
    intro activity after hrecord
    apply settled_of_record hrecord
    intro j _ _ _ plan operation updated current hu _ _ hleft
    cases operation_cases hu.operation_eq with
    | inl hsocial =>
      rw [hsocial.2] at hleft
      exact hleft
    | inr hterminal => exact nomatch hterminal.choose_spec.1
  have hstuck {request : PlanRequest} {activity : ActivityState} {e}
      (h : request.record store c activity = .error e) :
      Settled store c request activity ∧ Stuck store c request activity :=
    have hstuck := stuck_of_error hlock h
    ⟨fun attempt hr after hrecord ↦ absurd hrecord (hstuck attempt hr after), hstuck⟩
  unfold processPlan
  rcases planRequests_cases c with hnone | ⟨request, hone⟩ | ⟨payload, htwo⟩
  · rw [hnone]
    trivial
  · rw [hone] at hfirst ⊢
    simp only [recordAll]
    split
    · rename_i after hrecord
      exact ⟨hfirst request List.mem_cons_self after hrecord, Or.inr trivial⟩
    · rename_i hrecord
      exact ⟨(hstuck hrecord).1, Or.inr trivial⟩
  · rw [htwo] at hfirst ⊢
    simp only [recordAll]
    split
    · rename_i after hrecord
      have hsettled := hfirst _ List.mem_cons_self after hrecord
      split
      · rename_i after' hrecord'
        exact ⟨settled_of_passiveStep hsettled hrecord',
          Or.inr ⟨hpassive after after' hrecord', Or.inr trivial⟩⟩
      · rename_i hrecord'
        exact ⟨hsettled, Or.inr ⟨(hstuck hrecord').1, Or.inr trivial⟩⟩
    · rename_i hrecord
      exact ⟨(hstuck hrecord).1, Or.inl (hstuck hrecord).2⟩

/-! ## A second attempt -/

/-- The attempts of a step of the plan. -/
def attemptsOf (plan : ActivityPlan) (stepId : String) : Option ℤ :=
  (plan.step stepId).toOption.map (·.attemptCount)

theorem attemptsOf_result {plan : ActivityPlan} {operation : PlanOperation}
    {current : ActivityPlanStep} (hcurrent : plan.currentStep = .ok current) :
    attemptsOf (operation.result plan current) current.stepId =
      some (operation.touched current).attemptCount := by
  unfold attemptsOf
  rw [PlanOperation.step_result hcurrent]
  rfl

theorem attemptsOf_eq_map (plan : ActivityPlan) (stepId : String) :
    attemptsOf plan stepId =
      (plan.steps.find? fun step ↦ step.stepId = stepId).map (·.attemptCount) := by
  unfold attemptsOf ActivityPlan.step
  cases plan.steps.find? fun step ↦ step.stepId = stepId with
  | none => rfl
  | some step => rfl

/-- The social opportunity does not touch the attempts of a step. -/
theorem attemptsOf_social {plan : ActivityPlan} {current : ActivityPlanStep}
    (hplan : plan.WellFormed) (hcurrent : plan.currentStep = .ok current) (stepId : String) :
    attemptsOf (PlanOperation.completeSocialOpportunity.result plan current) stepId =
      attemptsOf plan stepId := by
  rw [attemptsOf_eq_map, attemptsOf_eq_map, PlanOperation.steps_result, find?_replaceStep]
  cases hfind : plan.steps.find? fun step ↦ step.stepId = stepId with
  | none => rfl
  | some step =>
    simp only [Option.map_some, Option.some.injEq]
    split
    · rename_i heq
      have hstep := List.mem_of_find?_eq_some hfind
      rw [ActivityPlan.eq_of_stepId_eq hplan.nodup hstep
        (ActivityPlan.mem_of_currentStep hcurrent) heq]
      rfl
    · rfl

/-- Recording the passive step does not touch the attempts of a step. -/
theorem attemptsOf_passiveStep {plan : ActivityPlan} (hplan : activity.plan = some plan)
    (hwellFormed : plan.WellFormed)
    (h : PlanRequest.passiveStep.record store c activity = .ok after) :
    ∃ plan', after.plan = some plan' ∧ ∀ stepId, attemptsOf plan' stepId = attemptsOf plan stepId := by
  cases PlanRequest.record_cases h with
  | inl hidle => exact ⟨plan, hidle.2 ▸ hplan, fun _ ↦ rfl⟩
  | inr hupdates =>
    obtain ⟨j, loaded, operation, updated, -, hu, hwrite⟩ := hupdates
    have hload := hu.loadPlan_eq
    simp only [ActivityState.loadPlan, hplan, hwellFormed.validate_eq, Except.ok.injEq,
      Option.some.injEq] at hload
    subst hload
    cases writeState_eq_ok_iff.1 hwrite with
    | inr hrefused => exact ⟨plan, hrefused.2.2 ▸ hplan, fun _ ↦ rfl⟩
    | inl hwritten =>
      obtain ⟨-, -, rfl⟩ := hwritten
      obtain ⟨current, hcurrent, -, rfl⟩ := PlanOperation.apply_eq_ok_iff.1 hu.apply_eq
      obtain rfl : operation = .completeSocialOpportunity := by
        cases operation_cases hu.operation_eq with
        | inl hsocial => exact hsocial.2
        | inr hterminal => cases hterminal.choose_spec.1
      exact ⟨_, rfl, attemptsOf_social hwellFormed hcurrent⟩

theorem recordAll_cons {requests : List PlanRequest}
    (h : request.record store c activity = .ok after) :
    recordAll store c activity (request :: requests) = recordAll store c after requests := by
  simp only [recordAll, h]

/-- After a skill terminal there is no social opportunity to complete at the step it left. -/
theorem record_passiveStep {plan : ActivityPlan} {current : ActivityPlanStep}
    (hlock : (store.lockCycle c).isSome) (hload : activity.loadPlan = .ok (some plan))
    (hcurrent : plan.currentStep = .ok current) (hskill : current.skillName ≠ none) :
    PlanRequest.passiveStep.record store c activity = .ok activity := by
  apply PlanRequest.record_of_isIdle hlock
  refine Or.inr ⟨some plan, hload, fun loaded hloaded ↦ ?_⟩
  obtain rfl := Option.some.inj hloaded
  simp only [PlanRequest.operation, passiveOperation, hcurrent, Except.toOption,
    Option.mem_some_iff, exists_eq_left', hskill, and_false, if_false, ite_self]

/-- A request that is not the passive step is the first of its event. -/
theorem planRequests_of_mem (h : request ∈ planRequests c) (hterminal : request.terminal? ≠ none) :
    planRequests c = [request] ∨ planRequests c = [request, .passiveStep] := by
  rcases planRequests_cases c with hnone | ⟨one, hone⟩ | ⟨payload, htwo⟩
  · rw [hnone] at h
    exact absurd h List.not_mem_nil
  · rw [hone] at h ⊢
    rw [List.mem_singleton.1 h]
    exact Or.inl rfl
  · rw [htwo] at h ⊢
    cases List.mem_cons.1 h with
    | inl heq =>
      rw [heq]
      exact Or.inr rfl
    | inr hpassive =>
      rw [List.mem_singleton.1 hpassive] at hterminal
      exact absurd rfl hterminal

/-- A second processing is a repetition. -/
theorem Replays.again (h : Replays store c activity) :
    (processPlan store c (processPlan store c activity)).plan =
      (processPlan store c activity).plan := by
  let attempt : Attempt := ⟨store, c, (planRequests c).length⟩
  have hrepeats : attempt.Repeats store c :=
    ⟨rfl, rfl, rfl, fun _ ↦ rfl, id, fun j hj j' hj' hopen ↦ by rwa [Option.mem_unique hj hj']⟩
  have hsame := h [attempt] (List.forall_mem_singleton.2 hrepeats)
  have hexec (activity : ActivityState) :
      attempt.exec activity = processPlan store c activity := by
    unfold Attempt.exec processPlan
    rw [List.take_length]
  rwa [List.foldl_cons, List.foldl_nil, hexec] at hsame

/-- The second processing of an event that left its step open spends another attempt. -/
theorem not_replays (hopen : LeavesStepOpen store c activity) : ¬ Replays store c activity := by
  obtain ⟨⟨j, hj, hcycle⟩, hprecedes, plan, hload, request, hrequest, hvoid, operation,
    hoperation, current, hcurrent, haccepts, hleft⟩ := hopen
  have hlock : (store.lockCycle c).isSome := Option.isSome_iff_exists.2 ⟨j, hj⟩
  have hplan := ActivityState.wellFormed_of_loadPlan hload plan rfl
  have hadvances := advances_of_leavesOpen hleft
  have hwrite {activity : ActivityState} (hp : activity.Precedes c) (plan : ActivityPlan) :
      writeState j.cycle c plan activity = .ok (.ofPlan c plan) :=
    writeState_eq_ok_iff.2 (Or.inl ⟨hcycle, hp, rfl⟩)
  -- the plans that the two recordings of the event store
  let first := operation.result plan current
  let touched := operation.touched current
  let second := operation.result first touched
  have hstep := hplan.steps current (ActivityPlan.mem_of_currentStep hcurrent)
  have hfirst : first.WellFormed := (PlanOperation.result_wellFormed_iff hplan hcurrent).2
    ((PlanOperation.touched_wellFormed_iff hplan hstep haccepts).2 (suits_of_leavesOpen hleft).1)
  have htouched : first.currentStep = .ok touched :=
    PlanOperation.currentStep_result hcurrent hadvances
  obtain ⟨hskill, haccepts'⟩ := accepts_of_leavesOpen hleft haccepts
  have hskill' : touched.skillName ≠ none := by
    rw [(operation.touched_retouches current).skillName_eq]
    exact hskill
  have hstep' := hfirst.steps touched (ActivityPlan.mem_of_currentStep htouched)
  have hsecond : second.WellFormed := (PlanOperation.result_wellFormed_iff hfirst htouched).2
    ((PlanOperation.touched_wellFormed_iff hfirst hstep' haccepts').2
      (suits_of_leavesOpen hleft).2)
  have hrecord : request.record store c activity = .ok (.ofPlan c first) := by
    have hu : request.Updates store c activity plan operation first :=
      ⟨hvoid, hload, hoperation,
        PlanOperation.apply_eq_ok_iff.2 ⟨current, hcurrent, haccepts, rfl⟩⟩
    rw [hu.record_eq hj, hwrite hprecedes]
  have hrecord' : request.record store c (.ofPlan c first) = .ok (.ofPlan c second) := by
    have hu : request.Updates store c (.ofPlan c first) first operation second :=
      ⟨hvoid, ActivityState.loadPlan_ofPlan hfirst, operation_result hoperation hcurrent hadvances,
        PlanOperation.apply_eq_ok_iff.2 ⟨touched, htouched, haccepts', rfl⟩⟩
    rw [hu.record_eq hj, hwrite ActivityState.precedes_ofPlan]
  -- the processings around them
  have hidle : PlanRequest.passiveStep.record store c (.ofPlan c first) = .ok (.ofPlan c first) :=
    record_passiveStep hlock (ActivityState.loadPlan_ofPlan hfirst) htouched hskill'
  have hterminal : request.terminal? ≠ none := by
    cases operation_cases hoperation with
    | inl hpassive =>
      rw [hpassive.2] at hleft
      exact absurd hleft id
    | inr hterminal =>
      rw [hterminal.choose_spec.1]
      exact Option.some_ne_none _
  have hrequests := planRequests_of_mem hrequest hterminal
  have hprocess : processPlan store c activity = .ofPlan c first := by
    unfold processPlan
    cases hrequests with
    | inl hone => rw [hone, recordAll_cons hrecord, recordAll]
    | inr htwo => rw [htwo, recordAll_cons hrecord, recordAll_cons hidle, recordAll]
  have hagain : ∃ plan', (processPlan store c (.ofPlan c first)).plan = some plan' ∧
      ∀ stepId, attemptsOf plan' stepId = attemptsOf second stepId := by
    unfold processPlan
    cases hrequests with
    | inl hone =>
      rw [hone, recordAll_cons hrecord', recordAll]
      exact ⟨second, rfl, fun _ ↦ rfl⟩
    | inr htwo =>
      rw [htwo, recordAll_cons hrecord']
      simp only [recordAll]
      split
      · rename_i hpassive
        exact attemptsOf_passiveStep rfl hsecond hpassive
      · exact ⟨second, rfl, fun _ ↦ rfl⟩
  intro hreplays
  have hsame := hreplays.again
  rw [hprocess] at hsame
  obtain ⟨plan', hplan', hattempts⟩ := hagain
  obtain rfl : first = plan' := Option.some.inj (hsame.symm.trans hplan')
  have hdiffer := (touched_of_leavesOpen hleft).2.2
  have hid : touched.stepId = current.stepId := (operation.touched_retouches current).stepId_eq
  have heq := hattempts current.stepId
  rw [attemptsOf_result hcurrent, ← hid, attemptsOf_result htouched] at heq
  exact hdiffer (Option.some.inj heq).symm

end Repeat

/-- The stored plan stays as the first processing of an event left it, however often the event is
processed again, exactly if that processing did not leave the step of the event open. -/
theorem replays_iff (store : ActivityStore) (c : ClaimedEvent) (activity : ActivityState)
    (hclaim : (store.lockCycle c).isSome) :
    Replays store c activity ↔ ¬ LeavesStepOpen store c activity := by
  constructor
  · exact fun hreplays hopen ↦ not_replays hopen hreplays
  · intro hopen attempts hattempts
    have hfixed := fixed_processPlan hclaim hopen
    induction attempts with
    | nil => rfl
    | cons attempt attempts ih =>
      obtain ⟨hfirst, hrest⟩ := List.forall_mem_cons.1 hattempts
      rw [List.foldl_cons, exec_of_fixed hfirst hfixed]
      exact ih hrest

section Example

open Scenario

def failedWalk : SkillFinishedPayload :=
  ⟨"d", "call", "move_to", .failed .transportFailed "blocked" true, "blocked", true, 0, 0, none,
    instant⟩

/-- The walk of the first step is decided, sent and accepted, and its failure is claimed. -/
def walkFailed : World :=
  after [submit [sessionStarted "e1" 1 "L1" 1], claim, .persist (token 3),
    .plan (token 3) ⟨"walk", 100, .callSkill "move_to" "v1" [] none⟩ "d", finish 3,
    .claimDecision "worker", .recordResponse (token 5) ⟨200, .accepted, "ok", some "call", none⟩,
    submit [plain "e2" 1 2 0 ⟨.skillFinished failedWalk, rfl, EventType.noConfusion⟩], claim]

/-- All decisions are bound to the first step. -/
def walkStore : ActivityStore := ⟨walkFailed.db, fun _ ↦ ⟨some "plan-wander", some "move"⟩⟩

def walkActivity : ActivityState := ⟨some wanderPlan, some 1, none, none⟩

/-- The first processing of the failure leaves the walk to be tried again, the second skips it. -/
theorem not_replays_walk :
    ¬ ∀ w, World.Reachable Scenario.config w → ∀ c ∈ w.claims, ∀ bindings activity,
      ((⟨w.db, bindings⟩ : ActivityStore).lockCycle c).isSome →
        Replays ⟨w.db, bindings⟩ c activity := by
  intro h
  have hclaim : ∃ c ∈ walkFailed.claims, (walkStore.lockCycle c).isSome ∧
      (processPlan walkStore c (processPlan walkStore c walkActivity)).plan ≠
        (processPlan walkStore c walkActivity).plan := by
    decide +kernel
  obtain ⟨c, hc, hlock, hdiffer⟩ := hclaim
  have hreplays := h walkFailed (reachable_after _ _) c hc walkStore.bindings walkActivity hlock
  exact hdiffer hreplays.again

theorem replays_iff_walk : ∃ c ∈ walkFailed.claims,
    Replays walkStore c walkActivity ↔ ¬ LeavesStepOpen walkStore c walkActivity := by
  have hclaim : ∃ c ∈ walkFailed.claims, (walkStore.lockCycle c).isSome := by decide
  obtain ⟨c, hc, hlock⟩ := hclaim
  exact ⟨c, hc, replays_iff walkStore c walkActivity hlock⟩

end Example

end LlmGateway
