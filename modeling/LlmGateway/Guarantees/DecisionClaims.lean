import LlmGateway.Effect.DecisionClaims
import LlmGateway.System.Delivery
import LlmGateway.System.Scenario

/-!
# Who owns a decision

A decision holds the columns of a claim exactly while it is being sent, in every state of a run,
as long as no rejection is merged into a decision that is being sent and no planning gives such
a decision to an operator: these two transactions end the sending and leave the claim behind.
-/

namespace LlmGateway

open Relational

/-- The payload of a `decision_rejected` event. -/
def GatewayEvent.rejection? (event : GatewayEvent) : Option DecisionRejectedPayload :=
  match event.body with
  | .sequenced _ (.decisionRejected payload) => some payload
  | _ => none

namespace World

variable {config : SystemConfig} {w : World}

variable (config) in
/-- The action closes no decision that is being sent without releasing its claim. -/
def ReleasesClaims (w : World) : Action → Prop
  | .plan token action decisionId => ∀ c ∈ w.claim? token, ∀ context ∈ buildAgentContext c.event,
      ∀ d ∈ w.db.givesUp config.outbox w.now c context action decisionId, d.status ≠ .sending
  | .record token => ∀ c ∈ w.claim? token, ∀ payload ∈ c.event.rejection?,
      ∀ d ∈ w.db.rejects c payload, d.status ≠ .sending
  | _ => True

instance (w : World) : DecidablePred (w.ReleasesClaims config) := fun a ↦ by
  unfold ReleasesClaims
  split <;> infer_instance

theorem initial_claimsExact (entropy : ℕ → ℕ) : (initial entropy).db.ClaimsExact :=
  fun d hd ↦ absurd hd (Table.not_mem_empty d)

theorem commit_claimsExact {α : Type*} {result : Except Failure (α × Db)} (h : w.db.ClaimsExact)
    (hresult : ∀ a db', result = .ok (a, db') → db'.ClaimsExact) :
    (w.commit result).db.ClaimsExact := by
  unfold commit
  split
  · rename_i a db'
    exact hresult a db' rfl
  · exact h

theorem withClaim_claimsExact {token : Uuid} {f : ClaimedEvent → World} (h : w.db.ClaimsExact)
    (hf : ∀ c, (f c).db.ClaimsExact) : (w.withClaim token f).db.ClaimsExact := by
  unfold withClaim
  cases w.claim? token with
  | none => exact h
  | some c => exact hf c

theorem withDecisionClaim_claimsExact {token : Uuid} {f : ClaimedDecision → World}
    (h : w.db.ClaimsExact) (hf : ∀ c, (f c).db.ClaimsExact) :
    (w.withDecisionClaim token f).db.ClaimsExact := by
  unfold withDecisionClaim
  cases w.decisionClaim? token with
  | none => exact h
  | some c => exact hf c

theorem plan_claimsExact (h : w.db.ClaimsExact) (token : Uuid) (action : AgentAction)
    (decisionId : String) : (w.exec config (.plan token action decisionId)).db.ClaimsExact ↔
      w.ReleasesClaims config (.plan token action decisionId) := by
  simp only [exec, withClaim, ReleasesClaims]
  cases w.claim? token with
  | none => exact iff_of_true h fun c hc ↦ absurd hc (Option.not_mem_none c)
  | some c =>
    simp only [Option.elim_some, Option.mem_def, Option.some.injEq, forall_eq', plan]
    cases buildAgentContext c.event with
    | none => exact iff_of_true h fun context hcontext ↦ absurd hcontext (Option.not_mem_none context)
    | some context =>
      simp only [Option.some.injEq, forall_eq']
      exact planDecision_claimsExact h config.outbox w.now c context action decisionId

theorem record_claimsExact (h : w.db.ClaimsExact) (token : Uuid) :
    (w.exec config (.record token)).db.ClaimsExact ↔ w.ReleasesClaims config (.record token) := by
  simp only [exec, withClaim, ReleasesClaims]
  cases w.claim? token with
  | none => exact iff_of_true h fun c hc ↦ absurd hc (Option.not_mem_none c)
  | some c =>
    simp only [Option.elim_some, Option.mem_def, Option.some.injEq, forall_eq', recordTerminal]
    split
    · rename_i _ payload hbody
      refine iff_of_true (h.of_eq (recordSkillStarted_decisions c payload)) fun p hp ↦ ?_
      simp only [GatewayEvent.rejection?, hbody, reduceCtorEq] at hp
    · rename_i _ payload hbody
      refine iff_of_true (commit_claimsExact h fun _ _ hresult ↦ ?_) fun p hp ↦ ?_
      · exact h.of_eq (recordSkillFinished_decisions hresult)
      · simp only [GatewayEvent.rejection?, hbody, reduceCtorEq] at hp
    · rename_i _ payload hbody
      simp only [GatewayEvent.rejection?, hbody, Option.some.injEq, forall_eq']
      exact mergeDecisionRejected_claimsExact h c payload
    · rename_i _ payload hbody
      refine iff_of_true (commit_claimsExact h fun _ _ hresult ↦ ?_) fun p hp ↦ ?_
      · exact closeGeneration_claimsExact h hresult
      · simp only [GatewayEvent.rejection?, hbody, reduceCtorEq] at hp
    · rename_i hstarted hfinished hrejected hstopped
      refine iff_of_true h fun p hp ↦ ?_
      unfold GatewayEvent.rejection? at hp
      split at hp
      · rename_i common payload hbody
        exact absurd hbody (hrejected common payload)
      · cases hp

/-- One action keeps the claims exact exactly when it releases the claims that it ends. -/
theorem exec_claimsExact (w : World) (a : Action) (h : w.db.ClaimsExact) :
    (w.exec config a).db.ClaimsExact ↔ w.ReleasesClaims config a := by
  cases a with
  | plan token action decisionId => exact plan_claimsExact h token action decisionId
  | record token => exact record_claimsExact h token
  | tick ms => exact iff_of_true h trivial
  | acceptBatch identity traceId events =>
    refine iff_of_true ?_ trivial
    simp only [exec, acceptBatch]
    split
    · exact h
    · rename_i haccept
      exact h.of_eq (acceptEventBatch_same haccept).decisions_eq
  | claimPass workerId busy =>
    refine iff_of_true ?_ trivial
    have hpass : (LlmGateway.claimPass config.events w.now workerId busy w.db).2.ClaimsExact :=
      claimPass_claimsExact h workerId busy
    simp only [exec, claimPass]
    split
    · rename_i hpassed
      rwa [hpassed] at hpass
    · rename_i hpassed
      rwa [hpassed] at hpass
  | renew token =>
    refine iff_of_true (withClaim_claimsExact h fun c ↦ commit_claimsExact h fun _ _ hr ↦ ?_) trivial
    exact h.of_eq (renewEventClaim_same hr).decisions_eq
  | complete token result =>
    refine iff_of_true (withClaim_claimsExact h fun c ↦ ?_) trivial
    exact h.of_eq (completeEvent_same c result).decisions_eq
  | persist token =>
    refine iff_of_true (withClaim_claimsExact h fun c ↦ ?_) trivial
    unfold persist
    split
    · exact h
    · split
      · rename_i hpersist
        exact persistLeaseContext_claimsExact h hpersist
      · rename_i hpersist
        exact persistLeaseContext_claimsExact h hpersist
      · exact h
  | sweep => exact iff_of_true (h.of_eq sweepExpiredClaims_same.decisions_eq) trivial
  | discard =>
    refine iff_of_true ?_ trivial
    simp only [exec, discard]
    split
    · rename_i hdiscard
      exact discardStaleEvents_claimsExact h hdiscard
    · exact h
  | stopIdle => exact iff_of_true (stopIdleSessions_claimsExact h _) trivial
  | claimDecision workerId =>
    refine iff_of_true ?_ trivial
    have hclaim : (claimNextDecision config.outbox.worker w.now workerId w.db).2.ClaimsExact :=
      claimNextDecision_claimsExact h workerId
    simp only [exec, claimDecision]
    split
    · rename_i hclaimed
      rwa [hclaimed] at hclaim
    · rename_i hclaimed
      rwa [hclaimed] at hclaim
  | renewDecision token =>
    exact iff_of_true (withDecisionClaim_claimsExact h fun c ↦ renewDecisionClaim_claimsExact h c)
      trivial
  | failDecision token stage category body =>
    refine iff_of_true (withDecisionClaim_claimsExact h fun c ↦ ?_) trivial
    exact completeDecisionFailure_claimsExact h c stage category body
  | recordResponse token response =>
    refine iff_of_true (withDecisionClaim_claimsExact h fun c ↦ commit_claimsExact h ?_) trivial
    exact fun _ _ hrecord ↦ recordDecisionResponse_claimsExact h hrecord
  | sweepDecisions => exact iff_of_true (sweepExpiredDecisionClaims_claimsExact h) trivial

/-- In a run, decisions hold their claims exactly while they are being sent, in every state
reached, exactly when every action releases the claims of the decisions that it closes. -/
theorem claims_exact_iff (entropy : ℕ → ℕ) (actions : List Action) :
    Guarded (exec config) (ReleasesClaims config) (initial entropy) actions ↔
      ∀ taken, taken <+: actions → (run (exec config) (initial entropy) taken).db.ClaimsExact :=
  guarded_iff_invariant (I := fun w : World ↦ w.db.ClaimsExact) exec_claimsExact
    (initial_claimsExact entropy) actions

end World

section Examples

open Scenario World

/-- The gateway rejects a decision before the sender has its response: the row is closed, and
it keeps the token, the worker and the deadline of the sender. -/
theorem rejection_keeps_claim :
    let w := after [submit [sessionStarted "e1" 1 "L1" 1], claim, .persist (token 3),
      .plan (token 3) ⟨"rest", 100, .wait 5⟩ "d", finish 3, .claimDecision "sender",
      submit [plain "e2" 1 2 0 (rejected "d")], claim, .record (token 7)]
    w.Reachable config ∧ ∃ d ∈ w.db.decisions,
      d.status = .rejected ∧ d.claimToken = some (token 5) ∧ ¬d.ClaimExact :=
  ⟨reachable_after _ _, by decide⟩

end Examples

end LlmGateway
