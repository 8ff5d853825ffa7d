import LlmGateway.System.Delivery
import LlmGateway.System.Scenario

/-!
# One decision at a time

A cycle sends one decision at a time. Only `claimNextDecision` starts to send one, after it has
cancelled the candidates whose fence has changed; what it checks of the one that remains holds of
the state in which the decision is sent.
-/

namespace LlmGateway

open Relational

/-- No two decisions of a cycle are being sent. -/
def Db.SendsOne (db : Db) : Prop :=
  ∀ d ∈ db.decisions, ∀ d' ∈ db.decisions, d.status = .sending → d'.status = .sending →
    d.cycleId = d'.cycleId → d = d'

/-- Nothing that the cycle has started is unfinished, and the claimed decision answers its latest
lease, which has not expired, under the current generation and fence. -/
structure Db.MaySend (db : Db) (now : ℕ) (d : DecisionRow) : Prop where
  idle : ∀ k ∈ db.calls, k.status.isRunning = true → ∀ o ∈ db.decisions, k.decisionRowId = o.id →
    o.cycleId ≠ d.cycleId
  fence : ∃ c ∈ db.cycles, c.id = d.cycleId ∧ c.status = .active ∧
    c.latestDecisionLeaseId = some d.decisionLeaseId ∧ c.latestStateVersion = some d.stateVersion ∧
    ∃ s ∈ db.sessions, s.id = c.runtimeSessionId ∧ s.currentGeneration = some d.controlGeneration ∧
      d.claimedFenceVersion = some s.fenceVersion
  lease : d.LeaseCurrent now

variable {config : WorkerConfig} {now : ℕ} {workerId : String} {db db' t : Db}
  {c : ClaimedDecision} {j : JoinedDecision}

/-! ## The claim of a decision -/

/-- A decision after the claim is the one handed out, or it was there before. -/
theorem HandsOut.decision_cases (h : HandsOut config now workerId db db' c t j) {d' : DecisionRow}
    (hd' : d' ∈ db'.decisions) :
    (d'.toDecisionKey = j.decision.toDecisionKey ∧
        d'.claimedFenceVersion = some j.session.fenceVersion) ∨
      (d' ∈ t.decisions ∧ d'.id ≠ j.decision.id) := by
  obtain ⟨hmem, hdue, -⟩ := decisionCandidate_due h.candidate
  rw [h.db_eq] at hd'
  cases Table.mem_update.1 hd' with
  | inl hset =>
    obtain ⟨d, hd, hw, rfl⟩ := hset
    obtain rfl : d = j.decision := decisionRow_eq_of_id hd hmem hw.1
    exact Or.inl ⟨rfl, rfl⟩
  | inr hkept =>
    refine Or.inr ⟨hkept.1, fun hid ↦ hkept.2 ⟨hid, ?_⟩⟩
    rwa [decisionRow_eq_of_id hkept.1 hmem hid]

theorem HandsOut.sendsOne (h : HandsOut config now workerId db db' c t j) (ht : t.SendsOne) :
    db'.SendsOne := by
  obtain ⟨-, -, hfree⟩ := decisionCandidate_due h.candidate
  have hother {d d' : DecisionRow} (hd : d.toDecisionKey = j.decision.toDecisionKey)
      (hd' : d' ∈ t.decisions) (hne : d'.id ≠ j.decision.id) (hsending : d'.status = .sending) :
      d'.cycleId ≠ d.cycleId := by
    intro hcycle
    rw [hd] at hcycle
    exact hfree.1 ⟨d', hd', hcycle, hne, hsending⟩
  intro d hd d' hd' hsending hsending' hcycle
  cases h.decision_cases hd with
  | inl hnew =>
    cases h.decision_cases hd' with
    | inl hnew' =>
      apply decisionRow_eq_of_id hd hd'
      rw [hnew.1, hnew'.1]
    | inr hold' => exact absurd hcycle.symm (hother hnew.1 hold'.1 hold'.2 hsending')
  | inr hold =>
    cases h.decision_cases hd' with
    | inl hnew' => exact absurd hcycle (hother hnew'.1 hold.1 hold.2 hsending)
    | inr hold' => exact ht d hold.1 d' hold'.1 hsending hsending' hcycle

/-- What was checked of the decision holds in the state before the claim as well. -/
theorem HandsOut.maySend (h : HandsOut config now workerId db db' c t j) {d' : DecisionRow}
    (hkey : d'.toDecisionKey = j.decision.toDecisionKey)
    (hfence : d'.claimedFenceVersion = some j.session.fenceVersion) : db.MaySend now d' := by
  obtain ⟨-, -, hfree⟩ := decisionCandidate_due h.candidate
  obtain ⟨-, hcycle, hcycleId⟩ := decisionCandidate_eq_some h.candidate
  obtain ⟨hsession, hsessionId⟩ := decisionCandidate_session h.candidate
  obtain ⟨hactive, hgeneration, -, hlease, hversion, hcurrent⟩ :=
    JoinedDecision.fenceError_eq_none_iff.1 h.fence
  rw [h.cancels.cycles_eq] at hcycle
  rw [h.cancels.sessions_eq] at hsession
  refine ⟨fun k hk hrunning o ho hown hsame ↦ ?_, ?_, ?_⟩
  · obtain ⟨o', ho', hstep⟩ := h.cancels.delivers.decisions.forward o ho
    rw [← h.cancels.calls_eq] at hk
    refine hfree.2 ⟨k, hk, hrunning, o', ho', ?_, ?_⟩
    · rw [hown, hstep.key_eq]
    · rw [hstep.key_eq, hsame, hkey]
  · refine ⟨j.cycle, hcycle, ?_, hactive, ?_, ?_, j.session, hsession, hsessionId, ?_, hfence⟩
    · rw [hcycleId, hkey]
    · rw [hlease, hkey]
    · rw [hversion, hkey]
    · rw [hgeneration, hkey]
  · unfold DecisionRow.LeaseCurrent
    rw [hkey]
    exact hcurrent

/-- A decision that is being sent was being sent under the same claim. -/
def DecisionRow.Resumes (d d' : DecisionRow) : Prop :=
  d'.toDecisionKey = d.toDecisionKey ∧ d.Keeps d'

theorem Db.Delivers.resumes {starts : DecisionStatus → Prop} {closes : CallKey → Prop}
    (h : db.Delivers starts False closes db')
    (hstarts : ¬starts .sending) {d' : DecisionRow} (hd' : d' ∈ db'.decisions)
    (hsending : d'.status = .sending) : ∃ d ∈ db.decisions, d.Resumes d' := by
  obtain ⟨d, hd, hstep⟩ := h.decision_back id hd'
  have htaken : d'.status.isTaken = true := by
    rw [hsending]
    rfl
  refine ⟨d, hd, hstep.key_eq, (hstep.taken htaken).resolve_right ?_⟩
  rwa [hsending]

/-- Where all decisions that are being sent were sent before, a cycle still sends one. -/
theorem Db.SendsOne.of_resumes (h : db.SendsOne)
    (hresumes : ∀ d' ∈ db'.decisions, d'.status = .sending → ∃ d ∈ db.decisions, d.Resumes d') :
    db'.SendsOne := by
  intro d₁' hd₁' d₂' hd₂' hsending₁ hsending₂ hcycle
  obtain ⟨d₁, hd₁, hkey₁, hkeeps₁⟩ := hresumes d₁' hd₁' hsending₁
  obtain ⟨d₂, hd₂, hkey₂, hkeeps₂⟩ := hresumes d₂' hd₂' hsending₂
  rw [hkey₁, hkey₂] at hcycle
  rw [hkeeps₁.1] at hsending₁
  rw [hkeeps₂.1] at hsending₂
  have heq : d₁ = d₂ := h d₁ hd₁ d₂ hd₂ hsending₁ hsending₂ hcycle
  apply Table.eq_of_key_eq hd₁' hd₂'
  calc d₁'.toDecisionKey = d₁.toDecisionKey := hkey₁
    _ = d₂.toDecisionKey := by rw [heq]
    _ = d₂'.toDecisionKey := hkey₂.symm

namespace World

variable {config : SystemConfig} {w : World} {a : Action}

/-! ## Steps -/

theorem exec_resumes (ha : ¬Starts a .sending) {d' : DecisionRow}
    (hd' : d' ∈ (w.exec config a).db.decisions) (hsending : d'.status = .sending) :
    ∃ d ∈ w.db.decisions, d.Resumes d' := by
  cases exec_adds config w a with
  | inl hdelivers => exact hdelivers.resumes ha hd' hsending
  | inr hadds =>
    obtain ⟨token, c, context, action, decisionId, hadds⟩ := hadds
    obtain ⟨body, -, hinsert⟩ := hadds.new.decisions
    cases (Table.mem_of_insert? hinsert).1 hd' with
    | inl hold => exact ⟨d', hold, rfl, rfl, rfl, rfl⟩
    | inr heq =>
      rw [heq] at hsending
      cases hsending

theorem claimDecision_db (config : SystemConfig) (w : World) (workerId : String) :
    (w.exec config (.claimDecision workerId)).db =
      (claimNextDecision config.outbox.worker w.now workerId w.db).2 := by
  simp only [exec, claimDecision]
  split
  · rename_i h
    rw [h]
  · rename_i h
    rw [h]

/-- An action that starts to send hands a decision out; any other resumes what was sent. -/
theorem exec_sends (config : SystemConfig) (w : World) (a : Action) :
    (∀ d' ∈ (w.exec config a).db.decisions, d'.status = .sending →
        ∃ d ∈ w.db.decisions, d.Resumes d') ∨
      ∃ workerId c t j, HandsOut config.outbox.worker w.now workerId w.db (w.exec config a).db
        c t j := by
  by_cases ha : Starts a .sending
  case neg => exact Or.inl fun d' ↦ exec_resumes ha
  obtain ⟨workerId, rfl⟩ : ∃ workerId, a = .claimDecision workerId := by
    cases ha with
    | inl hclaim => exact hclaim.2
    | inr hresponse => exact DecisionStatus.noConfusion hresponse.1
  rw [claimDecision_db]
  cases claimNextDecision_cases config.outbox.worker w.now workerId w.db with
  | inl hnone => exact Or.inl fun d' ↦ hnone.2.delivers.resumes id
  | inr hclaimed =>
    obtain ⟨c, t, j, -, hhands⟩ := hclaimed
    exact Or.inr ⟨workerId, c, t, j, hhands⟩

theorem exec_sendsOne (hw : w.db.SendsOne) (a : Action) : (w.exec config a).db.SendsOne := by
  cases exec_sends config w a with
  | inl hresumes => exact hw.of_resumes hresumes
  | inr hclaimed =>
    obtain ⟨workerId, c, t, j, hhands⟩ := hclaimed
    exact hhands.sendsOne (hw.of_resumes fun d' ↦ hhands.cancels.delivers.resumes id)

theorem Reachable.sendsOne (hw : w.Reachable config) : w.db.SendsOne := by
  obtain ⟨entropy, actions, rfl⟩ := hw
  exact invariant_run (I := fun v : World ↦ v.db.SendsOne) (fun _ a hv ↦ exec_sendsOne hv a)
    (fun d hd ↦ absurd hd (Table.not_mem_empty d)) actions

/-! ## Sending -/

variable (config w a) in
/-- After the action the decision is being sent, under a claim that it did not have before. -/
def StartsSending (d' : DecisionRow) : Prop :=
  d' ∈ (w.exec config a).db.decisions ∧ d'.status = .sending ∧ ¬∃ d ∈ w.db.decisions,
    d.id = d'.id ∧ d.status = .sending ∧ d.claimToken = d'.claimToken

/-- At all times a cycle sends at most one decision, and a decision is sent only while the cycle
is idle and the decision answers its latest lease under the current fence. -/
theorem sends_exclusively (hw : w.Reachable config) :
    w.db.SendsOne ∧ ∀ a d', w.StartsSending config a d' → w.db.MaySend w.now d' := by
  refine ⟨hw.sendsOne, fun a d' hstarts ↦ ?_⟩
  obtain ⟨hd', hsending, hnew⟩ := hstarts
  have hnot (hresumes : ∃ d ∈ w.db.decisions, d.Resumes d') : False := by
    obtain ⟨d, hd, hkey, hstatus, htoken, -⟩ := hresumes
    exact hnew ⟨d, hd, congrArg DecisionKey.id hkey.symm, hstatus.symm.trans hsending, htoken.symm⟩
  cases exec_sends config w a with
  | inl hresumes => exact (hnot (hresumes d' hd' hsending)).elim
  | inr hclaimed =>
    obtain ⟨workerId, c, t, j, hhands⟩ := hclaimed
    cases hhands.decision_cases hd' with
    | inl hhanded => exact hhands.maySend hhanded.1 hhanded.2
    | inr hold => exact (hnot (hhands.cancels.delivers.resumes id hold.1 hsending)).elim

section Example

open Scenario

/-- The decision of the only event is claimed, and claimed again after its lock has expired. -/
theorem sends_exclusively_again :
    let w := after [submit [sessionStarted "e1" 1 "L1" 1], claim, .persist (token 3),
      .plan (token 3) ⟨"rest", 100, .wait 5⟩ "d", finish 3, .claimDecision "first", .tick 200]
    w.db.SendsOne ∧ ∃ d', w.StartsSending Scenario.config (.claimDecision "second") d' ∧
      w.db.MaySend w.now d' := by
  intro w
  have hreachable : w.Reachable Scenario.config := reachable_after _ _
  have hstarts : ∃ d' ∈ (w.exec Scenario.config (.claimDecision "second")).db.decisions,
      d'.status = .sending ∧ ¬∃ d ∈ w.db.decisions,
        d.id = d'.id ∧ d.status = .sending ∧ d.claimToken = d'.claimToken := by
    decide
  obtain ⟨d', hd', hsending, hnew⟩ := hstarts
  have hall := sends_exclusively hreachable
  exact ⟨hall.1, d', ⟨hd', hsending, hnew⟩, hall.2 _ d' ⟨hd', hsending, hnew⟩⟩

end Example

end World

end LlmGateway
