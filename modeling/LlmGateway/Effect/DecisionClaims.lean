import LlmGateway.Effect.OutboxDelivery
import LlmGateway.Effect.Response

/-!
# The claims of decisions

A decision that is being sent holds a claim, and no other decision does. Ten statements take a
decision out of sending; two of them, the merge of a rejection and the mark of a failed
planning, leave the claim in its columns.
-/

namespace LlmGateway

open Relational

/-- The columns of the claim are set exactly while the decision is being sent. -/
structure DecisionRow.ClaimExact (d : DecisionRow) : Prop where
  claimToken : d.claimToken.isSome = true ↔ d.status = .sending
  lockedBy : d.lockedBy.isSome = true ↔ d.status = .sending
  lockUntil : d.lockUntil.isSome = true ↔ d.status = .sending

theorem DecisionRow.claimExact_iff {d : DecisionRow} : d.ClaimExact ↔
    (d.claimToken.isSome = true ↔ d.status = .sending) ∧
      (d.lockedBy.isSome = true ↔ d.status = .sending) ∧
      (d.lockUntil.isSome = true ↔ d.status = .sending) := by
  constructor
  · intro h
    exact ⟨h.claimToken, h.lockedBy, h.lockUntil⟩
  · intro h
    exact ⟨h.1, h.2.1, h.2.2⟩

instance : DecidablePred DecisionRow.ClaimExact := fun _ ↦
  decidable_of_iff _ DecisionRow.claimExact_iff.symm

/-- Every decision holds a claim exactly while it is being sent. -/
def Db.ClaimsExact (db : Db) : Prop := ∀ d ∈ db.decisions, d.ClaimExact

variable {config : WorkerConfig} {now : ℕ} {db db' : Db}

namespace DecisionRow.ClaimExact

theorem released {d : DecisionRow} (htoken : d.claimToken = none) (hby : d.lockedBy = none)
    (huntil : d.lockUntil = none) (hstatus : d.status ≠ .sending) : d.ClaimExact := by
  constructor
  · rw [htoken]
    exact iff_of_false Bool.false_ne_true hstatus
  · rw [hby]
    exact iff_of_false Bool.false_ne_true hstatus
  · rw [huntil]
    exact iff_of_false Bool.false_ne_true hstatus

/-- The columns stay as they are, and so does being sent. -/
theorem of_same {d d' : DecisionRow} (h : d.ClaimExact) (htoken : d'.claimToken = d.claimToken)
    (hby : d'.lockedBy = d.lockedBy) (huntil : d'.lockUntil = d.lockUntil)
    (hstatus : d'.status = .sending ↔ d.status = .sending) : d'.ClaimExact := by
  constructor
  · rw [htoken, hstatus]
    exact h.claimToken
  · rw [hby, hstatus]
    exact h.lockedBy
  · rw [huntil, hstatus]
    exact h.lockUntil

end DecisionRow.ClaimExact

namespace Db.ClaimsExact

theorem of_eq (h : db.ClaimsExact) (heq : db'.decisions = db.decisions) : db'.ClaimsExact := by
  unfold ClaimsExact
  rwa [heq]

theorem update {w : DecisionRow → Prop} [DecidablePred w] {a : Assignment DecisionRow}
    (h : db.ClaimsExact) (hset : ∀ d ∈ db.decisions, w d → (a.set d).ClaimExact) :
    (db.updateDecisions w a).ClaimsExact := by
  intro d hd
  cases Table.mem_update.1 hd with
  | inl hupdated =>
    obtain ⟨q, hq, hw, rfl⟩ := hupdated
    exact hset q hq hw
  | inr hkept => exact h d hkept.1

end Db.ClaimsExact

theorem cancelDecision_claimExact (reason stage category : String) (d : DecisionRow) :
    ((Db.cancelDecision reason stage category).set d).ClaimExact :=
  .released rfl rfl rfl DecisionStatus.noConfusion

/-! ## The inbox -/

theorem claimPass_claimsExact (h : db.ClaimsExact) (workerId : String) (busy : List Uuid) :
    (claimPass config now workerId busy db).2.ClaimsExact := by
  unfold claimPass
  split
  · exact h
  · rename_i j _
    unfold claimLocked
    split
    · exact h.of_eq (supersedeLocked_same db j).decisions_eq
    · exact h
    · have hcycles : ((db.activateGeneration j.session.id
          j.event.controlGeneration).supersedeOldCycles j.session.id j.event.cycleId
            j.event.controlGeneration).ClaimsExact := h
      have hcancel : (activateNew j db).ClaimsExact :=
        hcycles.update fun d _ _ ↦ cancelDecision_claimExact _ _ _ d
      exact hcancel
    · refine h.of_eq ?_
      unfold activatePending
      split_ifs <;> rfl
    · exact h

theorem persistLeaseContext_claimsExact {c : ClaimedEvent} {context : AgentContext}
    {stored : Bool} (h : db.ClaimsExact)
    (hpersist : persistLeaseContext c context db = .ok (stored, db')) : db'.ClaimsExact := by
  cases persistLeaseContext_cases hpersist with
  | inl hlost =>
    rw [hlost.2]
    exact h
  | inr hstored =>
    obtain ⟨-, j, -, -, -, rfl⟩ := hstored
    have hcontext : (db.persistContext c.cycleId context).ClaimsExact := h
    exact hcontext.update fun d _ _ ↦ cancelDecision_claimExact _ _ _ d

theorem discardRow_claimsExact (h : db.ClaimsExact) (j : Joined) :
    (discardRow db j).ClaimsExact := by
  have hmark : (db.markStaleEvent j.event.id).ClaimsExact := h
  have hcancel : ((db.markStaleEvent j.event.id).cancelStaleDecisions j.event.id).ClaimsExact :=
    hmark.update fun d _ _ ↦ cancelDecision_claimExact _ _ _ d
  unfold discardRow
  split_ifs
  · exact hcancel
  · exact hcancel
  · exact h

theorem discardStaleEvents_claimsExact {staleAfterMs : Option ℕ} (h : db.ClaimsExact)
    (hdiscard : discardStaleEvents staleAfterMs now db = .ok db') : db'.ClaimsExact := by
  unfold discardStaleEvents at hdiscard
  split at hdiscard
  · cases hdiscard
    exact h
  · split_ifs at hdiscard
    cases hdiscard
    refine invariant_iterate (I := Db.ClaimsExact) (fun t t' hbody ht ↦ ?_) h
    unfold discardBody at hbody
    split_ifs at hbody
    obtain rfl := Option.some.inj hbody
    exact List.foldlRecOn _ _ ht fun u hu j _ ↦ discardRow_claimsExact hu j

theorem stopIdleRow_claimsExact (h : db.ClaimsExact) (session : SessionRow) :
    (stopIdleRow db session).ClaimsExact := by
  have hcycles : ((db.stopIdleCycles session).supersedeIdleEvents session).ClaimsExact := h
  have hcancel : (((db.stopIdleCycles session).supersedeIdleEvents session).cancelIdleDecisions
      session).ClaimsExact := hcycles.update fun d _ _ ↦ cancelDecision_claimExact _ _ _ d
  exact hcancel

theorem stopIdleSessions_claimsExact (h : db.ClaimsExact) (idleTimeoutMs : Option ℕ) :
    (stopIdleSessions idleTimeoutMs now db).ClaimsExact := by
  unfold stopIdleSessions
  split
  · exact h
  · exact List.foldlRecOn _ _ h fun t ht session _ ↦ stopIdleRow_claimsExact ht session

/-! ## Sending -/

theorem claimNextDecision_claimsExact (h : db.ClaimsExact) (workerId : String) :
    (claimNextDecision config now workerId db).2.ClaimsExact := by
  have hcancels : (iterate (cancelFencedCandidate config now) (db.decisions.rows.length + 1)
      db).ClaimsExact := by
    refine invariant_iterate (I := Db.ClaimsExact) (fun t t' hbody ht ↦ ?_) h
    simp only [cancelFencedCandidate, Option.bind_eq_bind, Option.bind_eq_some_iff,
      Option.some.injEq] at hbody
    obtain ⟨j, -, category, -, rfl⟩ := hbody
    exact ht.update fun d _ _ ↦ .released rfl rfl rfl DecisionStatus.noConfusion
  unfold claimNextDecision handOutDecision
  split
  · exact hcancels
  · split_ifs
    · exact hcancels
    · exact Db.ClaimsExact.update hcancels fun d _ _ ↦
        ⟨iff_of_true rfl rfl, iff_of_true rfl rfl, iff_of_true rfl rfl⟩

theorem renewDecisionClaim_claimsExact (h : db.ClaimsExact) (c : ClaimedDecision) :
    (renewDecisionClaim config now c db).2.ClaimsExact := by
  unfold renewDecisionClaim
  split
  · exact h
  · split_ifs
    · refine h.update fun d hd hw ↦ ?_
      have hsending : d.status = .sending := hw.2.1
      exact ⟨(h d hd).claimToken, (h d hd).lockedBy, iff_of_true rfl hsending⟩
    · exact h

theorem completeDecisionFailure_claimsExact (h : db.ClaimsExact) (c : ClaimedDecision)
    (stage category : String) (body : Option (List (Text × Json))) :
    (completeDecisionFailure config now c stage category body db).2.ClaimsExact := by
  unfold completeDecisionFailure
  split
  · exact h
  · split
    · exact h.update fun d _ _ ↦ .released rfl rfl rfl DecisionStatus.noConfusion
    · split_ifs
      · exact h.update fun d _ _ ↦ .released rfl rfl rfl DecisionStatus.noConfusion
      · exact h.update fun d _ _ ↦ .released rfl rfl rfl DecisionStatus.noConfusion

theorem completeDecisionResponse_claimsExact (h : db.ClaimsExact) (c : ClaimedDecision)
    (response : DecisionClientResult) {record : ResponseRecord} (hrecord : record.status ≠ .sending) :
    (db.completeDecisionResponse c response record).ClaimsExact :=
  h.update fun _ _ _ ↦ .released rfl rfl rfl hrecord

theorem recordDecisionResponse_claimsExact {c : ClaimedDecision} {response : DecisionClientResult}
    {recorded : Bool} (h : db.ClaimsExact)
    (hrecord : recordDecisionResponse now c response db = .ok (recorded, db')) :
    db'.ClaimsExact := by
  unfold recordDecisionResponse at hrecord
  split at hrecord
  · cases hrecord
    exact h
  · rename_i j _
    split_ifs at hrecord
    · cases hrecord
      exact h
    · cases hrecord
      exact completeDecisionResponse_claimsExact h c response DecisionStatus.noConfusion
    · split at hrecord
      · cases hrecord
      · rename_i skillCallId _
        cases hrecord
        have hbound := h.of_eq (bindResponseCall_decisions now c j.decision skillCallId db)
        exact completeDecisionResponse_claimsExact hbound c response
          (bindResponseCall_status_ne now c j.decision skillCallId db)
    all_goals
      cases hrecord
      exact completeDecisionResponse_claimsExact h c response DecisionStatus.noConfusion

theorem sweepExpiredDecisionClaims_claimsExact (h : db.ClaimsExact) :
    (sweepExpiredDecisionClaims config now db).ClaimsExact := by
  refine invariant_iterate (I := Db.ClaimsExact) (fun t t' hbody ht ↦ ?_) h
  obtain ⟨d, -, rfl⟩ := Option.map_eq_some_iff.1 hbody
  exact ht.update fun d' _ _ ↦ .released rfl rfl rfl DecisionStatus.noConfusion

/-! ## Terminal events -/

theorem applyEffect_decisions {callId : Uuid} {trackingId : Option Uuid} {status : CallStatus}
    (h : applyEffect callId trackingId status db = .ok db') : db'.decisions = db.decisions := by
  unfold applyEffect at h
  split at h
  · cases h
    rfl
  · obtain ⟨applied, happlied, h⟩ := bind_eq_ok_iff.1 h
    obtain ⟨tracked, -, -, rfl⟩ := applyTerminalEffect_cases happlied
    split_ifs at h
    cases h
    rfl

theorem insertCall_decisions (row : CallRow) : (db.insertCall row).decisions = db.decisions := by
  unfold Db.insertCall
  split <;> rfl

theorem recordSkillStarted_decisions (c : ClaimedEvent) (payload : SkillStartedPayload) :
    (recordSkillStarted now c payload db).2.decisions = db.decisions := by
  unfold recordSkillStarted
  split
  · rfl
  · exact insertCall_decisions _
  · split <;> rfl

theorem recordSkillFinished_decisions {c : ClaimedEvent} {payload : SkillFinishedPayload}
    {result : MutationResult} (h : recordSkillFinished now c payload db = .ok (result, db')) :
    db'.decisions = db.decisions := by
  unfold recordSkillFinished at h
  simp only at h
  split at h
  · cases h
    rfl
  · split at h
    · obtain ⟨applied, happlied, h⟩ := bind_eq_ok_iff.1 h
      cases h
      exact (applyEffect_decisions happlied).trans (insertCall_decisions _)
    · split at h
      · cases h
        rfl
      · cases h
        rfl
      · obtain ⟨applied, happlied, h⟩ := bind_eq_ok_iff.1 h
        cases h
        have hkept := applyEffect_decisions happlied
        exact hkept

theorem finishOpenCall_decisions {c : ClaimedEvent} {reason : String} {o : OpenCall}
    (h : finishOpenCall c reason db o = .ok db') : db'.decisions = db.decisions := by
  unfold finishOpenCall at h
  split at h
  · cases h
    rfl
  · split at h
    · cases h
      rfl
    · obtain ⟨applied, happlied, h⟩ := bind_eq_ok_iff.1 h
      obtain ⟨tracked, -, -, rfl⟩ := applyTerminalEffect_cases happlied
      cases h
      rfl

theorem closeGeneration_claimsExact {c : ClaimedEvent} {payload : SessionStoppedPayload}
    {result : MutationResult} (h : db.ClaimsExact)
    (hclose : closeGeneration c payload db = .ok (result, db')) : db'.ClaimsExact := by
  have hcancel : (db.cancelUnsentDecisions c.cycleId).ClaimsExact :=
    h.update fun d _ _ ↦ .released rfl rfl rfl DecisionStatus.noConfusion
  unfold closeGeneration at hclose
  split at hclose
  · cases hclose
    exact h
  · simp only at hclose
    split at hclose
    · cases hclose
      exact List.foldlRecOn _ _ hcancel fun t ht o _ ↦ ht
    · obtain ⟨finished, hfinished, hclose⟩ := bind_eq_ok_iff.1 hclose
      split_ifs at hclose
      cases hclose
      have hcalls : finished.ClaimsExact := foldlM_invariant (I := Db.ClaimsExact)
        (fun s o _ s' hs hstep ↦ hs.of_eq (finishOpenCall_decisions hstep)) hcancel hfinished
      exact hcalls

/-! ## The two statements that keep the claim -/

/-- The decision that a rejection is merged into. -/
def Db.rejects (db : Db) (c : ClaimedEvent) (payload : DecisionRejectedPayload) :
    Option DecisionRow :=
  (db.decisionByName c.gatewayId payload.decisionId).filter fun d ↦
    RejectionIdentityMatches d c payload

/-- The decision that a planning which finds a conflict gives to an operator. -/
def Db.givesUp (db : Db) (config : OutboxConfig) (now : ℕ) (c : ClaimedEvent)
    (context : AgentContext) (action : AgentAction) (decisionId : String) : Option DecisionRow :=
  if isEventFenceCurrent c context db = false then none
  else match db.decisionBySource c.rowId with
    | some existing => if existing.SourceMatches c context then none else some existing
    | none =>
      if (db.decisionByLease c.gatewayId context.decisionLeaseId).isSome ∨
          CapacityFull db now (reservationFor config c context action) then none
      else match freezeDecision config decisionId c.traceId context action with
        | .error _ => none
        | .ok _ => db.decisionByName c.gatewayId decisionId

/-- A decision that is closed with its claim is one that was not being sent. -/
theorem closes_claimsExact_iff {d : DecisionRow} {a : Assignment DecisionRow}
    (h : db.ClaimsExact) (hd : d ∈ db.decisions) (htoken : (a.set d).claimToken = d.claimToken)
    (hby : (a.set d).lockedBy = d.lockedBy) (huntil : (a.set d).lockUntil = d.lockUntil)
    (hclosed : (a.set d).status ≠ .sending) :
    (db.updateDecisions (fun q ↦ q.id = d.id) a).ClaimsExact ↔ d.status ≠ .sending := by
  constructor
  · intro hafter hsending
    have hmem : a.set d ∈ (db.updateDecisions (fun q ↦ q.id = d.id) a).decisions :=
      Table.mem_update.2 (Or.inl ⟨d, hd, rfl, rfl⟩)
    apply hclosed
    apply (hafter _ hmem).claimToken.1
    rw [htoken]
    exact (h d hd).claimToken.2 hsending
  · intro hother
    refine h.update fun q hq hid ↦ ?_
    rw [decisionRow_eq_of_id hq hd hid]
    exact (h d hd).of_same htoken hby huntil (iff_of_false hclosed hother)

theorem mergeDecisionRejected_claimsExact (h : db.ClaimsExact) (c : ClaimedEvent)
    (payload : DecisionRejectedPayload) : (mergeDecisionRejected c payload db).2.ClaimsExact ↔
      ∀ d ∈ db.rejects c payload, d.status ≠ .sending := by
  unfold mergeDecisionRejected Db.rejects
  cases hfind : db.decisionByName c.gatewayId payload.decisionId with
  | none => exact iff_of_true h fun d hd ↦ absurd hd (Option.not_mem_none d)
  | some d =>
    have hd : d ∈ db.decisions := Table.mem_of_find?_eq_some hfind
    simp only
    split_ifs with hidentity
    · have hstatus := resolveDecisionRejection_status d.status d.responseReason payload.reason
      have hclosed : (resolveDecisionRejection d.status d.responseReason payload.reason).status ≠
          .sending := by
        cases hstatus with
        | inl hrejected =>
          rw [hrejected]
          exact DecisionStatus.noConfusion
        | inr hmanual =>
          rw [hmanual]
          exact DecisionStatus.noConfusion
      simp only [Option.filter_some, hidentity, decide_true, if_true, Option.mem_def,
        Option.some.injEq, forall_eq']
      exact closes_claimsExact_iff h hd rfl rfl rfl hclosed
    · refine iff_of_true h fun q hq ↦ ?_
      simp [Option.filter_some, hidentity] at hq

/-- A planning gives up the decision that it conflicts with, or leaves all decisions alone. -/
theorem planDecision_givesUp (config : OutboxConfig) (now : ℕ) (c : ClaimedEvent)
    (context : AgentContext) (action : AgentAction) (decisionId : String) (db : Db) :
    (db.givesUp config now c context action decisionId = none ∧
        ((planDecision config now c context action decisionId db).2 = db ∨
          db.PlansNew config now c context action decisionId
            (planDecision config now c context action decisionId db).2)) ∨
      ∃ d category, db.givesUp config now c context action decisionId = some d ∧
        d ∈ db.decisions ∧ (planDecision config now c context action decisionId db).2 =
          db.markPlanManual d.id category := by
  unfold planDecision Db.givesUp isEventFenceCurrent
  cases hlock : (db.lockPlanSource c).filter fun j ↦ j.PlanFenceMatches c context with
  | none => exact Or.inl ⟨rfl, Or.inl rfl⟩
  | some j =>
    simp only [Option.isSome_some, Bool.true_eq_false, if_false, planFenced]
    cases hsource : db.decisionBySource c.rowId with
    | some existing =>
      simp only
      split_ifs
      · exact Or.inl ⟨rfl, Or.inl rfl⟩
      · exact Or.inr ⟨existing, _, rfl, Table.mem_of_find?_eq_some hsource, rfl⟩
    | none =>
      simp only
      by_cases hlease : (db.decisionByLease c.gatewayId context.decisionLeaseId).isSome = true
      · simp only [hlease, true_or, if_true]
        exact Or.inl ⟨trivial, trivial⟩
      by_cases hfull : CapacityFull db now (reservationFor config c context action)
      · simp only [hfull, or_true, if_true, hlease, Bool.false_eq_true, if_false]
        exact Or.inl ⟨trivial, Or.inl trivial⟩
      simp only [hlease, hfull, or_self, Bool.false_eq_true, if_false]
      cases hbody : freezeDecision config decisionId c.traceId context action with
      | error error => exact Or.inl ⟨rfl, Or.inl rfl⟩
      | ok body =>
        simp only
        cases hname : db.decisionByName c.gatewayId decisionId with
        | some identity =>
          exact Or.inr ⟨identity, _, rfl, Table.mem_of_find?_eq_some hname, rfl⟩
        | none =>
          refine Or.inl ⟨rfl, ?_⟩
          unfold insertPlanned
          simp only
          split_ifs with hdeadline hreserved
          · exact Or.inl rfl
          · exact Or.inl rfl
          · split
            · rename_i decisions hinsert
              rw [trackAction_decisions] at hinsert
              exact Or.inr ⟨⟨j, joins_of_planFence hlock⟩, hfull, not_not.1 hreserved,
                ⟨body, hbody, hinsert⟩, trackAction_calls db c action, rfl⟩
            · exact Or.inl rfl

theorem planDecision_claimsExact (h : db.ClaimsExact) (config : OutboxConfig) (now : ℕ)
    (c : ClaimedEvent) (context : AgentContext) (action : AgentAction) (decisionId : String) :
    (planDecision config now c context action decisionId db).2.ClaimsExact ↔
      ∀ d ∈ db.givesUp config now c context action decisionId, d.status ≠ .sending := by
  cases planDecision_givesUp config now c context action decisionId db with
  | inl hkeeps =>
    rw [hkeeps.1]
    refine iff_of_true ?_ fun d hd ↦ absurd hd (Option.not_mem_none d)
    cases hkeeps.2 with
    | inl hsame => rwa [hsame]
    | inr hnew =>
      obtain ⟨body, -, hinsert⟩ := hnew.decisions
      intro d hd
      cases (Table.mem_of_insert? hinsert).1 hd with
      | inl hold => exact h d hold
      | inr heq =>
        rw [heq]
        exact .released rfl rfl rfl DecisionStatus.noConfusion
  | inr hgives =>
    obtain ⟨d, category, hgiven, hd, hdb⟩ := hgives
    rw [hgiven, hdb]
    simp only [Option.mem_def, Option.some.injEq, forall_eq']
    exact closes_claimsExact_iff h hd rfl rfl rfl DecisionStatus.noConfusion

end LlmGateway
