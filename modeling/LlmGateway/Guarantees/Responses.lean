import LlmGateway.Effect.Response
import LlmGateway.Guarantees.Replanning
import LlmGateway.System.Terminal

/-!
# Accepted responses

An accepted response to a decision that is still being sent under the claim of the worker. It is
recorded unless an event has closed the decision, or the session has a new fence, or the response
names a call that is not the decision's, or the lease of the decision has expired since it was
sent. The response is dropped in the last case as if the decision had never left, and the next
claim cancels the decision.
-/

namespace LlmGateway

open Relational

/-- A response of an accepted decision, as the client reads it: it names a call exactly for an
action that starts a skill. -/
structure DecisionClientResult.Accepts (response : DecisionClientResult) (c : ClaimedDecision) :
    Prop where
  status : response.status = .accepted
  call : response.skillCallId.isSome = true ↔ c.action.isSkill

/-- An event has closed the decision: its cycle is not active any more, or the session or the
cycle follows another generation, lease or state. -/
def Db.ClosedByEvent (db : Db) (d : DecisionRow) : Prop :=
  ∃ j ∈ db.joinDecision d, (j.cycle.status ≠ .active ∨
    j.session.currentGeneration ≠ some d.controlGeneration ∨
    j.cycle.latestDecisionLeaseId ≠ some d.decisionLeaseId ∨
    j.cycle.latestStateVersion ≠ some d.stateVersion)

/-- The session has the fence under which the decision is being sent. -/
def Db.KeepsFence (db : Db) (d : DecisionRow) : Prop :=
  ∃ j ∈ db.joinDecision d, d.claimedFenceVersion = some j.session.fenceVersion

instance (db : Db) : DecidablePred db.ClosedByEvent := fun _ ↦
  inferInstanceAs (Decidable (∃ _ ∈ _, _))

variable {now : ℕ} {db db' : Db} {c : ClaimedDecision} {d : DecisionRow} {j : JoinedDecision}
  {response : DecisionClientResult}

/-! ## The transaction -/

theorem decisionById_of_mem (hd : d ∈ db.decisions) {id : Uuid} (hid : d.id = id) :
    db.decisionById id = some d :=
  decisionById_eq_some.2 ⟨hd, hid⟩

theorem lockClaimedDecision_of_held (hd : d ∈ db.decisions) (hid : d.id = c.rowId)
    (hheld : d.HeldBy c) (hj : db.joinDecision d = some j) : db.lockClaimedDecision c = some j := by
  unfold Db.lockClaimedDecision
  rw [decisionById_of_mem hd hid, Option.filter_some, if_pos (decide_eq_true hheld),
    Option.bind_some, hj]

/-- The fence checks are passed when no event has closed the decision, the fence is kept and the
lease is current. -/
theorem fenceError_held_iff (hj : db.joinDecision d = some j) (hheld : d.HeldBy c) :
    j.fenceError now j.decision.claimedFenceVersion = none ↔
      ¬db.ClosedByEvent d ∧ db.KeepsFence d ∧ d.LeaseCurrent now := by
  obtain ⟨rfl, -⟩ := joinDecision_eq_some hj
  have hclosed : ¬db.ClosedByEvent j.decision ↔ j.cycle.status = .active ∧
      j.session.currentGeneration = some j.decision.controlGeneration ∧
      j.cycle.latestDecisionLeaseId = some j.decision.decisionLeaseId ∧
      j.cycle.latestStateVersion = some j.decision.stateVersion := by
    simp only [Db.ClosedByEvent, hj, Option.mem_def, Option.some.injEq, exists_eq_left', not_or,
      ne_eq, not_not]
  have hfence : db.KeepsFence j.decision ↔
      ∀ f ∈ j.decision.claimedFenceVersion, j.session.fenceVersion = f := by
    simp only [Db.KeepsFence, hj, Option.mem_def, Option.some.injEq, exists_eq_left', hheld.2.2,
      forall_eq']
    exact eq_comm
  rw [JoinedDecision.fenceError_eq_none_iff, hclosed, hfence]
  tauto

/-- The row of the decision after a response that passes the fence checks. -/
theorem Responds.decision {record : ResponseRecord} {t : Db}
    (h : Responds now c response db db' j record t) :
    ∃ d' ∈ db'.decisions, d'.toDecisionKey = j.decision.toDecisionKey ∧
      d'.status = record.status := by
  obtain ⟨hd, hid, hheld, -⟩ := lockClaimedDecision_eq_some h.lock_eq
  have ht : j.decision ∈ t.decisions := by rwa [h.decisions_eq]
  rw [h.db_eq]
  exact ⟨_, Table.set_mem_update ht ⟨hid, hheld⟩, rfl, rfl⟩

/-- The decision becomes accepted exactly if the response names no call, or one that it may name;
and then the call exists. -/
theorem Responds.accepted_iff {record : ResponseRecord} {t : Db}
    (h : Responds now c response db db' j record t) (hcalls : db.CallsSound)
    (hdesc : c.Describes j.decision.toDecisionKey) (haccepts : response.Accepts c) :
    (record.status = .accepted ↔ ∀ skillCallId ∈ response.skillCallId,
        db.BindsCall j.decision skillCallId) ∧
      (record.status = .accepted → ∀ skillCallId ∈ response.skillCallId,
        db'.HasCall j.decision.id skillCallId) := by
  by_cases hskill : c.action.isSkill
  · obtain ⟨skillCallId, hid, hbind⟩ := h.skill haccepts.status hskill
    have hrecord : record = _ := congrArg Prod.fst hbind
    have ht : t = _ := congrArg Prod.snd hbind
    have hcallsEq : db'.calls = t.calls := by
      rw [h.db_eq]
      rfl
    simp only [hid, Option.mem_def, Option.some.injEq, forall_eq']
    cases bindResponseCall_spec hcalls (lockClaimedDecision_eq_some h.lock_eq).1 hdesc now skillCallId
      with
    | inl hbinds =>
      rw [← hrecord, ← ht] at hbinds
      refine ⟨iff_of_true hbinds.2.1 hbinds.1, fun _ ↦ ?_⟩
      unfold Db.HasCall
      rw [hcallsEq]
      exact hbinds.2.2
    | inr hconflict =>
      rw [← hrecord] at hconflict
      have hmanual : ¬record.status = .accepted := by
        rw [hconflict.2]
        exact DecisionStatus.noConfusion
      exact ⟨iff_of_false hmanual hconflict.1, fun haccepted ↦ absurd haccepted hmanual⟩
  · have hnone : response.skillCallId = none :=
      Option.not_isSome_iff_eq_none.1 fun hsome ↦ hskill (haccepts.call.1 hsome)
    have hother := (h.other fun hboth ↦ hskill hboth.2).2
    simp only [hnone, Option.mem_def, reduceCtorEq, false_implies, implies_true, iff_true]
    exact ⟨hother.2 haccepts.status, trivial⟩

namespace World

variable {config : SystemConfig} {w : World} {token : Uuid}

/-- A stored decision is joined with its cycle, its session and its event. -/
theorem Reachable.joinDecision (hw : w.Reachable config) (hd : d ∈ w.db.decisions) :
    ∃ j, w.db.joinDecision d = some j := by
  obtain ⟨e, he, hsource⟩ := hw.sourced d hd
  obtain ⟨j, hlinked, rfl⟩ := hw.sound.integrity.exists_linked he
  have hcycle : w.db.cycleById d.cycleId = some j.cycle :=
    cycleById_eq_some.2 ⟨hlinked.cycle_mem, hlinked.cycle_id.trans hsource.cycleId.symm⟩
  have hsession : w.db.sessionOf j.cycle = some j.session :=
    sessionOf_eq_some.2 ⟨hlinked.session_mem, hlinked.session_id⟩
  have hevent : w.db.eventById d.sourceEventId = some j.event :=
    eventById_eq_some.2 ⟨he, hsource.sourceEventId.symm⟩
  refine ⟨⟨d, j.cycle, j.session, j.event⟩, ?_⟩
  simp only [Db.joinDecision, hcycle, hsession, hevent, Option.bind_eq_bind, Option.bind_some]

/-- The response is recorded: the decision is accepted, the call that the response names exists,
and no later run cancels the decision. -/
structure Records (config : SystemConfig) (w : World) (token : Uuid)
    (response : DecisionClientResult) (d : DecisionRow) : Prop where
  accepted : ∃ d' ∈ (w.exec config (.recordResponse token response)).db.decisions,
    d'.id = d.id ∧ d'.status = .accepted
  call : ∀ skillCallId ∈ response.skillCallId,
    (w.exec config (.recordResponse token response)).db.HasCall d.id skillCallId
  kept : ∀ later, ∀ d' ∈ (run (exec config) (w.exec config (.recordResponse token response))
    later).db.decisions, d'.id = d.id → d'.status ≠ .cancelled

/-- An accepted decision is never cancelled. -/
theorem not_cancelled_of_accepted {v : World} {rowId : Uuid}
    (hd : ∃ d ∈ v.db.decisions, d.id = rowId ∧ d.status = .accepted) (later : List Action) :
    ∀ d' ∈ (run (exec config) v later).db.decisions, d'.id = rowId → d'.status ≠ .cancelled := by
  intro d' hd' hid
  obtain ⟨d, hd, hrow, haccepted⟩ := hd
  obtain ⟨d'', hd'', hkey, hnext⟩ := run_decision_next config hd later
  have heq : d' = d'' := by
    apply decisionRow_eq_of_id hd' hd''
    exact hid.trans (hrow.symm.trans (congrArg DecisionKey.id hkey).symm)
  rw [heq]
  intro hcancelled
  rw [haccepted, hcancelled] at hnext
  cases hnext with
  | inl hsame => cases hsame
  | inr hlater =>
    cases hlater with
    | inl hunsent => cases hunsent
    | inr hclosed =>
      cases hclosed with
      | inl hrejected => cases hrejected
      | inr hmanual => cases hmanual

section Example

open Scenario

/-- The gateway has started the call. -/
def startedCall : DecisionClientResult := ⟨200, .accepted, "ok", some "call", none⟩

/-- A decision to dance is planned and claimed. -/
def sendDance : List Action :=
  [submit [sessionStarted "e1" 1 "L1" 1], claim, .persist (Scenario.token 3),
    .plan (Scenario.token 3) ⟨"dance", 100, .callSkill "dance" "v1" [] none⟩ "d",
    finish 3, .claimDecision "worker"]

theorem shortLease_pos : ∀ lifetime ∈ some 50, 0 < lifetime := by simp

/-- Leases live for a shorter time than the claims of decisions. -/
def shortLeases : SystemConfig :=
  { Scenario.config with
    outbox := { outbox with
      leaseLifetimeMs := some 50
      leaseLifetime_pos := shortLease_pos } }

end Example

end World

end LlmGateway
