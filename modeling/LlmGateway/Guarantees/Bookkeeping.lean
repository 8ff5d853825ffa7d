import LlmGateway.Activity.Recording
import LlmGateway.Effect.Closing
import LlmGateway.Guarantees.Responses
import LlmGateway.System.Dispatch

/-!
# Booking a converged event in the plan

The dispatcher lets an event converge in one repository (`record_skill_started`,
`record_skill_finished`, `merge_decision_rejected`) and then books it in the plan of the cycle, in
transactions of another one. A booking that has something to write raises in a cycle that is not
open any more unless a later event was booked, and the event, which has converged, is tried again.
-/

namespace LlmGateway

open Relational

/-- The repository call for an event that converges, with the stage of its errors. -/
structure Convergence where
  stage : String
  result : Except Failure (MutationResult × Db)

/-- The call that the dispatcher makes for an event without a lease. -/
def convergence (now : ℕ) (c : ClaimedEvent) (db : Db) : Option Convergence :=
  match c.event.body with
  | .sequenced _ (.skillStarted payload) =>
    some ⟨"terminal", .ok (recordSkillStarted now c payload db)⟩
  | .sequenced _ (.skillFinished payload) =>
    if payload.offer.isSome ∧ c.historicalRecovery = false then none
    else some ⟨"terminal", recordSkillFinished now c payload db⟩
  | .sequenced _ (.decisionRejected payload) =>
    some ⟨"decision", .ok (mergeDecisionRejected c payload db)⟩
  | _ => none

/-- The rows and the plan that a transaction of the plan repository finds. -/
structure FoundPlan where
  store : ActivityStore
  activity : ActivityState

/-- A transaction of the plan repository. -/
structure PlanTransaction extends FoundPlan where
  request : PlanRequest

/-- The transactions that book an event. Others may run in between, so each finds its own state. -/
def planTransactions (c : ClaimedEvent) (found : ℕ → FoundPlan) : List PlanTransaction :=
  (planRequests c).mapIdx fun n request ↦ ⟨found n, request⟩

/-- The transactions, one after the other, until one raises. -/
def bookAll (c : ClaimedEvent) (transactions : List PlanTransaction) :
    Except ActivityPlanUnavailableError Unit :=
  transactions.forM fun t ↦ (t.request.record t.store c t.activity).map fun _ ↦ ()

/-- The outcome of the dispatcher, which books the event if it has converged. -/
def Convergence.outcome (v : Convergence) (c : ClaimedEvent)
    (transactions : List PlanTransaction) : EventProcessResult :=
  let outcome := terminalResult v.stage v.result
  if outcome.outcome = .succeeded then
    match bookAll c transactions with
    | .ok () => outcome
    | .error .unavailable => .retry "database" "activity_plan_unavailable"
  else outcome

/-- The dispatcher on an event that converges. -/
def dispatchConvergence (now : ℕ) (c : ClaimedEvent) (db : Db) (found : ℕ → FoundPlan) :
    Option EventProcessResult :=
  (convergence now c db).map fun v ↦ v.outcome c (planTransactions c found)

variable {now : ℕ} {db db' : Db} {c : ClaimedEvent} {j : Joined} {v : Convergence}
  {mutation : MutationResult} {activity : ActivityState} {plan : ActivityPlan}

/-- An event that is not older has been booked. -/
def ActivityState.Booked (activity : ActivityState) (c : ClaimedEvent) : Prop :=
  ∃ last ∈ activity.lastEventSequence, c.eventSequence ≤ last

instance (c : ClaimedEvent) : DecidablePred fun activity : ActivityState ↦ activity.Booked c :=
  fun _ ↦ inferInstanceAs (Decidable (∃ _ ∈ _, _))

/-- The stored plan is valid, and what the transaction has to do on it, if anything, suits the plan
and can be written: the cycle is open, or an event that is not older has been booked. -/
def PlanTransaction.Passes (t : PlanTransaction) (c : ClaimedEvent) : Prop :=
  t.request.isVoid = true ∨ ∃ stored, t.activity.loadPlan = .ok stored ∧
    ∀ plan ∈ stored, ∀ operation ∈ t.request.operation t.store c plan,
      (∃ updated, operation.apply plan = .ok updated) ∧
        (t.store.db.OpenCycle c.cycleId ∨ t.activity.Booked c)

/-- A write raises in a closed cycle unless it is out of date. -/
theorem exists_writeState_iff {cycle : CycleRow} :
    (∃ after, writeState cycle c plan activity = .ok after) ↔ cycle.IsOpen ∨ activity.Booked c := by
  simp only [writeState_eq_ok_iff]
  constructor
  · intro h
    obtain ⟨after, ⟨hopen, -⟩ | ⟨-, hbooked, -⟩⟩ := h
    · exact Or.inl hopen
    · exact Or.inr hbooked
  · intro h
    by_cases hwrite : cycle.IsOpen ∧ activity.Precedes c
    · exact ⟨_, Or.inl ⟨hwrite.1, hwrite.2, rfl⟩⟩
    · refine ⟨activity, Or.inr ⟨hwrite, ?_, rfl⟩⟩
      cases h with
      | inr hbooked => exact hbooked
      | inl hopen =>
        by_contra hnone
        refine hwrite ⟨hopen, fun last hlast ↦ Or.inl ?_⟩
        exact not_le.1 fun hle ↦ hnone ⟨last, hlast, hle⟩

/-- The cycle of a valid claim is the one that is written. -/
theorem ActivityStore.openCycle_iff {store : ActivityStore} (h : store.lockCycle c = some j) :
    store.db.OpenCycle c.cycleId ↔ j.cycle.IsOpen := by
  simp only [ActivityStore.lockCycle, Option.filter_eq_some_iff, Option.bind_eq_some_iff,
    decide_eq_true_eq] at h
  obtain ⟨⟨e, he, hjoin⟩, hid, -⟩ := h
  have hcycle := ((joinEvent_eq_some (eventById_eq_some.1 he).1).1 hjoin).1.cycle_mem
  constructor
  · intro hopen
    obtain ⟨r, hr, hsame, hstatus⟩ := hopen
    obtain rfl : r = j.cycle := cycleRow_eq_of_id hr hcycle (hsame.trans hid.symm)
    exact hstatus
  · exact fun hopen ↦ ⟨j.cycle, hcycle, hid, hopen⟩

/-- A transaction under a valid claim succeeds exactly if it passes. -/
theorem PlanTransaction.exists_record_iff {t : PlanTransaction}
    (h : (t.store.lockCycle c).isSome = true) :
    (∃ after, t.request.record t.store c t.activity = .ok after) ↔ t.Passes c := by
  obtain ⟨j, hlock⟩ := Option.isSome_iff_exists.1 h
  have hopen := ActivityStore.openCycle_iff hlock
  constructor
  · intro hrecord
    obtain ⟨after, hrecord⟩ := hrecord
    cases PlanRequest.record_cases hrecord with
    | inl hidle =>
      cases hidle.1 with
      | inl hvoid => exact Or.inl hvoid
      | inr hnone =>
        obtain ⟨stored, hload, hnone⟩ := hnone
        refine Or.inr ⟨stored, hload, fun plan hplan operation hoperation ↦ ?_⟩
        rw [hnone plan hplan] at hoperation
        cases hoperation
    | inr hupdates =>
      obtain ⟨j', plan, operation, updated, hlock', hupdates, hwrite⟩ := hupdates
      obtain rfl : j' = j := Option.some.inj (hlock'.symm.trans hlock)
      refine Or.inr ⟨some plan, hupdates.loadPlan_eq, fun plan' hplan operation' hoperation ↦ ?_⟩
      obtain rfl : plan = plan' := Option.some.inj hplan
      obtain rfl : operation = operation' :=
        Option.some.inj (hupdates.operation_eq.symm.trans hoperation)
      rw [hopen]
      exact ⟨⟨updated, hupdates.apply_eq⟩, exists_writeState_iff.1 ⟨after, hwrite⟩⟩
  · intro hpasses
    by_cases hidle : t.request.IsIdle t.store c t.activity
    · exact ⟨_, PlanRequest.record_of_isIdle h hidle⟩
    · cases hpasses with
      | inl hvoid => exact absurd (Or.inl hvoid) hidle
      | inr hwork =>
        obtain ⟨stored, hload, hwork⟩ := hwork
        have hvoid : t.request.isVoid = false := Bool.eq_false_iff.2 fun hvoid ↦ hidle (Or.inl hvoid)
        obtain ⟨plan, hplan, operation, hoperation⟩ : ∃ plan ∈ stored, ∃ operation,
            t.request.operation t.store c plan = some operation := by
          by_contra hnone
          refine hidle (Or.inr ⟨stored, hload, fun plan hplan ↦ ?_⟩)
          exact Option.eq_none_iff_forall_ne_some.2 fun operation hoperation ↦
            hnone ⟨plan, hplan, operation, hoperation⟩
        obtain rfl := Option.mem_def.1 hplan
        obtain ⟨⟨updated, happly⟩, hwrite⟩ := hwork plan rfl operation hoperation
        rw [hopen] at hwrite
        have hupdates : t.request.Updates t.store c t.activity plan operation updated :=
          ⟨hvoid, hload, hoperation, happly⟩
        rw [hupdates.record_eq hlock]
        exact exists_writeState_iff.2 hwrite

theorem bookAll_eq_ok_iff {transactions : List PlanTransaction}
    (h : ∀ t ∈ transactions, (t.store.lockCycle c).isSome = true) :
    bookAll c transactions = .ok () ↔ ∀ t ∈ transactions, t.Passes c := by
  rw [bookAll, forM_eq_ok_iff]
  refine forall₂_congr fun t ht ↦ ?_
  rw [map_eq_ok_iff, ← PlanTransaction.exists_record_iff (h t ht)]
  exact exists_congr fun after ↦ and_iff_left rfl

/-- An event that has converged succeeds, as long as its claim stays valid, exactly if each of its
plan transactions passes. -/
theorem converged_succeeds_iff {found : ℕ → FoundPlan} (hcall : convergence now c db = some v)
    (hresult : v.result = .ok (mutation, db'))
    (hconverged : mutation.disposition = .applied ∨ mutation.disposition = .idempotent)
    (hclaim : ∀ n, ((found n).store.lockCycle c).isSome = true) :
    (∃ result ∈ dispatchConvergence now c db found, result.outcome = .succeeded) ↔
      ∀ t ∈ planTransactions c found, t.Passes c := by
  have hsuccess : terminalResult v.stage v.result = .success := by
    rw [hresult]
    exact mutationResult_eq_success.2 hconverged
  have hclaims : ∀ t ∈ planTransactions c found, (t.store.lockCycle c).isSome = true := by
    intro t ht
    obtain ⟨n, hn, rfl⟩ := List.mem_mapIdx.1 ht
    exact hclaim n
  simp only [dispatchConvergence, hcall, Option.map_some, Option.mem_def, Option.some.injEq,
    exists_eq_left']
  rw [← bookAll_eq_ok_iff hclaims, Convergence.outcome, hsuccess]
  cases hbook : bookAll c (planTransactions c found) with
  | ok done => exact iff_of_true rfl rfl
  | error failure =>
    refine iff_of_false ProcessOutcome.noConfusion fun hok ↦ ?_
    cases hok

section Examples

open Scenario World

/-- The dance is accepted, and its result and an observation before it are claimed. -/
def claimedFinish : List Action :=
  sendDance ++ [.recordResponse (token 5) startedCall,
    submit [observation "e2" 1 2 "L2" 2, plain "e3" 1 3 0 (finished "d")], claim, claim]

/-- The plan has walked to the dance, and its last event is the first one of the session. -/
def atDance : ActivityState where
  plan := some (run PlanOperation.exec wanderPlan [.recordStepTerminal "move" true false false])
  planVersion := some 1
  lastEventId := none
  lastEventSequence := some 1

/-- Every decision is bound to the dance. -/
def boundToDance (db : Db) : ActivityStore := ⟨db, fun _ ↦ ⟨some "plan-wander", some "dance"⟩⟩

/-- The result of the dance is booked in the open cycle. -/
theorem converged_succeeds_active :
    let w := after claimedFinish
    let w' := w.exec Scenario.config (.record (token 9))
    ∃ c ∈ w.claim? (token 9), ∀ t ∈ planTransactions c fun _ ↦ ⟨boundToDance w'.db, atDance⟩,
      t.Passes c := by
  intro w w'
  have hdispatch : ∃ c ∈ w.claims, w.claim? (token 9) = some c ∧
      ∃ v ∈ convergence w.now c w.db, ∃ r ∈ v.result.toOption, r.1.disposition = .applied ∧
        ((boundToDance w'.db).lockCycle c).isSome = true ∧
        ∃ result ∈ dispatchConvergence w.now c w.db fun _ ↦ ⟨boundToDance w'.db, atDance⟩,
          result.outcome = .succeeded := by
    decide +kernel
  obtain ⟨c, -, hc, v, hcall, ⟨mutation, db'⟩, hresult, happlied, hclaim, hsucceeded⟩ := hdispatch
  exact ⟨c, hc, (converged_succeeds_iff hcall (mem_toOption hresult) (Or.inl happlied)
    fun _ ↦ hclaim).1 hsucceeded⟩

/-- The observation is given up and the cycle is manual when the result of the dance is recorded:
the call succeeds, and the event is tried again. -/
theorem converged_retried_manual :
    let w := after (claimedFinish ++ [giveUp 10])
    let w' := w.exec Scenario.config (.record (token 9))
    w.Reachable Scenario.config ∧ ∃ c ∈ w.claim? (token 9),
      (∃ cycle ∈ w.db.cycles, cycle.id = c.cycleId ∧ cycle.status = .manual) ∧
      (∃ v ∈ convergence w.now c w.db, ∃ r ∈ v.result.toOption, r.1.disposition = .applied) ∧
      (∀ k ∈ w'.db.calls, k.status = .succeeded) ∧
      ((boundToDance w'.db).lockCycle c).isSome = true ∧
      dispatchConvergence w.now c w.db (fun _ ↦ ⟨boundToDance w'.db, atDance⟩) =
        some (.retry "database" "activity_plan_unavailable") := by
  intro w w'
  have hdispatch : ∃ c ∈ w.claims, w.claim? (token 9) = some c ∧
      (∃ cycle ∈ w.db.cycles, cycle.id = c.cycleId ∧ cycle.status = .manual) ∧
      (∃ v ∈ convergence w.now c w.db, ∃ r ∈ v.result.toOption, r.1.disposition = .applied) ∧
      (∀ k ∈ w'.db.calls, k.status = .succeeded) ∧
      ((boundToDance w'.db).lockCycle c).isSome = true ∧
      dispatchConvergence w.now c w.db (fun _ ↦ ⟨boundToDance w'.db, atDance⟩) =
        some (.retry "database" "activity_plan_unavailable") := by
    decide +kernel
  obtain ⟨c, -, hc, hrest⟩ := hdispatch
  exact ⟨reachable_after _ _, c, hc, hrest⟩

end Examples

end LlmGateway
