import LlmGateway.Effect.OutboxDelivery
import LlmGateway.System.Run

/-!
# Deliveries in runs

What one action does to decisions, calls and tracked actions: a decision is added by planning
only, it starts to be sent by a claim only, and it is accepted by a response only.
-/

namespace LlmGateway

open Relational

namespace World

variable {config : SystemConfig} {w : World} {starts : DecisionStatus → Prop}
  {plans : Prop} {closes : CallKey → Prop}

/-- The taken statuses that the action may give to a decision. -/
def Starts (a : Action) (s : DecisionStatus) : Prop :=
  (s = .sending ∧ ∃ workerId, a = .claimDecision workerId) ∨
    (s = .accepted ∧ ∃ token response, a = .recordResponse token response)

/-- The action plans a decision. -/
def PlansDecision (a : Action) : Prop := ∃ token action decisionId, a = .plan token action decisionId

/-- The calls that the action may bring to an end. -/
def Closes (config : SystemConfig) (w : World) : Action → CallKey → Prop
  | .record _, _ => True
  | .discard, key => ¬w.db.StaleCastFails ∧
      ∃ maxAgeMs ∈ config.eventStaleAfterMs, w.db.DiscardsCall maxAgeMs w.now key
  | .stopIdle, key => ∃ timeoutMs ∈ config.sessionIdleTimeoutMs, w.db.IdlesCall timeoutMs w.now key
  | _, _ => False

theorem commit_delivers {α : Type*} {result : Except Failure (α × Db)}
    (h : ∀ a db', result = .ok (a, db') → w.db.Delivers starts plans closes db') :
    w.db.Delivers starts plans closes (w.commit result).db := by
  unfold commit
  split
  · rename_i a db'
    exact h a db' rfl
  · exact .refl w.db

theorem withClaim_delivers {token : Uuid} {f : ClaimedEvent → World}
    (h : ∀ c, w.claim? token = some c → w.db.Delivers starts plans closes (f c).db) :
    w.db.Delivers starts plans closes (w.withClaim token f).db := by
  unfold withClaim
  cases hclaim : w.claim? token with
  | none => exact .refl w.db
  | some c => exact h c hclaim

theorem withDecisionClaim_delivers {token : Uuid} {f : ClaimedDecision → World}
    (h : ∀ c, w.db.Delivers starts plans closes (f c).db) :
    w.db.Delivers starts plans closes (w.withDecisionClaim token f).db := by
  unfold withDecisionClaim
  cases w.decisionClaim? token with
  | none => exact .refl w.db
  | some c => exact h c

theorem recordTerminal_delivers (c : ClaimedEvent) (hcloses : ∀ key, closes key) :
    w.db.Delivers starts plans closes (w.recordTerminal c).db := by
  unfold recordTerminal
  split
  · exact recordSkillStarted_delivers c _
  · exact commit_delivers fun _ _ h ↦ recordSkillFinished_delivers h fun _ _ _ key _ ↦ hcloses key
  · exact mergeDecisionRejected_delivers c _
  · exact commit_delivers fun _ _ h ↦ closeGeneration_delivers h hcloses
  · exact .refl w.db

theorem persist_delivers (c : ClaimedEvent) : w.db.Delivers starts plans closes (w.persist c).db := by
  unfold persist
  split
  · exact .refl w.db
  · split
    · rename_i h
      exact persistLeaseContext_delivers h
    · rename_i h
      exact persistLeaseContext_delivers h
    · exact .refl w.db

/-- One transaction, as a change of decisions, calls and tracked actions. -/
theorem exec_delivers (config : SystemConfig) (w : World) (a : Action) :
    w.db.Delivers (Starts a) (PlansDecision a) (w.Closes config a) (w.exec config a).db := by
  cases a with
  | tick ms => exact .refl w.db
  | acceptBatch identity traceId events =>
    simp only [exec, acceptBatch]
    split
    · exact .refl w.db
    · rename_i h
      exact .of_same (acceptEventBatch_same h)
  | claimPass workerId busy =>
    have hpass : w.db.Delivers (Starts (.claimPass workerId busy))
        (PlansDecision (.claimPass workerId busy)) (w.Closes config (.claimPass workerId busy))
        (LlmGateway.claimPass config.events w.now workerId busy w.db).2 :=
      claimPass_delivers workerId busy
    simp only [exec, claimPass]
    split
    · rename_i h
      rwa [h] at hpass
    · rename_i h
      rwa [h] at hpass
  | renew token =>
    exact withClaim_delivers fun c _ ↦ commit_delivers fun _ _ h ↦ .of_same (renewEventClaim_same h)
  | complete token result => exact withClaim_delivers fun c _ ↦ .of_same (completeEvent_same c result)
  | persist token => exact withClaim_delivers fun c _ ↦ persist_delivers c
  | sweep => exact .of_same sweepExpiredClaims_same
  | discard =>
    simp only [exec, discard]
    split
    · rename_i h
      exact discardStaleEvents_delivers h
    · exact .refl w.db
  | stopIdle => exact stopIdleSessions_delivers config.sessionIdleTimeoutMs
  | plan token action decisionId =>
    apply withClaim_delivers
    intro c _
    unfold plan
    split
    · exact .refl w.db
    · rename_i context _
      cases planDecision_adds c context action decisionId with
      | inl hdelivers => exact hdelivers
      | inr hnew => exact hnew.delivers ⟨token, action, decisionId, rfl⟩
  | record token => exact withClaim_delivers fun c _ ↦ recordTerminal_delivers c fun _ ↦ trivial
  | claimDecision workerId =>
    have hclaim : w.db.Delivers (Starts (.claimDecision workerId))
        (PlansDecision (.claimDecision workerId)) (w.Closes config (.claimDecision workerId))
        (claimNextDecision config.outbox.worker w.now workerId w.db).2 :=
      claimNextDecision_delivers workerId (Or.inl ⟨rfl, workerId, rfl⟩)
    simp only [exec, claimDecision]
    split
    · rename_i h
      rwa [h] at hclaim
    · rename_i h
      rwa [h] at hclaim
  | renewDecision token => exact withDecisionClaim_delivers fun c ↦ renewDecisionClaim_delivers c
  | failDecision token stage category body =>
    exact withDecisionClaim_delivers fun c ↦ completeDecisionFailure_delivers c stage category body
  | recordResponse token response =>
    exact withDecisionClaim_delivers fun c ↦ commit_delivers fun _ _ h ↦
      recordDecisionResponse_delivers (Or.inr ⟨rfl, token, response, rfl⟩) h
  | sweepDecisions => exact sweepExpiredDecisionClaims_delivers

theorem plan_eq {token : Uuid} {c : ClaimedEvent} {context : AgentContext}
    (hc : w.claim? token = some c) (hcontext : buildAgentContext c.event = some context)
    (action : AgentAction) (decisionId : String) :
    w.exec config (.plan token action decisionId) =
      { w with db := (planDecision config.outbox w.now c context action decisionId w.db).2 } := by
  simp only [exec, withClaim, hc, Option.elim_some, plan, hcontext]

/-- The action adds a decision, planned for a claimed event. -/
structure Adds (config : SystemConfig) (w : World) (a : Action) (token : Uuid) (c : ClaimedEvent)
    (context : AgentContext) (action : AgentAction) (decisionId : String) : Prop where
  action_eq : a = .plan token action decisionId
  claim_eq : w.claim? token = some c
  context_eq : buildAgentContext c.event = some context
  new : w.db.PlansNew config.outbox w.now c context action decisionId (w.exec config a).db

/-- An action adds no decision, or the one that it plans. -/
theorem exec_adds (config : SystemConfig) (w : World) (a : Action) :
    w.db.Delivers (Starts a) False (w.Closes config a) (w.exec config a).db ∨
      ∃ token c context action decisionId, w.Adds config a token c context action decisionId := by
  have hdelivers := exec_delivers config w a
  by_cases hplans : PlansDecision a
  case neg => exact Or.inl (hdelivers.mono (fun _ ↦ id) hplans fun _ ↦ id)
  obtain ⟨token, action, decisionId, rfl⟩ := hplans
  cases hc : w.claim? token with
  | none =>
    simp only [exec, withClaim, hc, Option.elim_none]
    exact Or.inl (.refl w.db)
  | some c =>
    cases hcontext : buildAgentContext c.event with
    | none =>
      simp only [exec, withClaim, hc, Option.elim_some, plan, hcontext]
      exact Or.inl (.refl w.db)
    | some context =>
      rw [plan_eq hc hcontext]
      apply (planDecision_adds c context action decisionId).imp_right
      intro hnew
      refine ⟨token, c, context, action, decisionId, rfl, hc, hcontext, ?_⟩
      rwa [plan_eq hc hcontext]

/-- A run keeps the keys of all decisions, and takes each to a status that may follow. -/
theorem run_decision_next (config : SystemConfig) {d : DecisionRow} (hd : d ∈ w.db.decisions)
    (actions : List Action) :
    ∃ d' ∈ (run (exec config) w actions).db.decisions, d'.toDecisionKey = d.toDecisionKey ∧
      d.status.Next d'.status := by
  induction actions generalizing w d with
  | nil => exact ⟨d, hd, rfl, Or.inl rfl⟩
  | cons a actions ih =>
    obtain ⟨d', hd', hstep⟩ := (exec_delivers config w a).decisions.forward d hd
    obtain ⟨d'', hd'', hkey, hnext⟩ := ih hd'
    exact ⟨d'', hd'', hkey.trans hstep.key_eq, hstep.next.trans hnext⟩

end World

end LlmGateway
