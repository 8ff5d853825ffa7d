import LlmGateway.System.Delivery
import LlmGateway.System.Scenario

/-!
# Planning again

An event has one decision and a lease has one. A decision takes its lease from the event that it
was planned for, so that planning the event again, with any action, either finds the claim lost
or gives the stored decision back and writes nothing. Every claim of the decision carries the
body that was stored.
-/

namespace LlmGateway

open Relational

/-! ## Decisions and their source events -/

/-- The decision was planned for this event, with the lease that the event carries. -/
structure DecisionKey.SourcedBy (d : DecisionKey) (e : EventKey) : Prop where
  sourceEventId : d.sourceEventId = e.id
  gatewayId : d.gatewayId = e.gatewayId
  cycleId : d.cycleId = e.cycleId
  controlGeneration : d.controlGeneration = e.controlGeneration
  context : ∃ context, buildAgentContext e.eventBody = some context ∧
    d.decisionLeaseId = context.decisionLeaseId ∧ d.stateVersion = context.stateVersion

def Db.Sourced (db : Db) : Prop :=
  ∀ d ∈ db.decisions, ∃ e ∈ db.events, d.toDecisionKey.SourcedBy e.toEventKey

theorem DecisionRow.clashes_of_source {d d' : DecisionRow}
    (h : d.sourceEventId = d'.sourceEventId) : Keyed.Clashes d d' :=
  Or.inr (Or.inr (Or.inl h))

theorem DecisionRow.clashes_of_lease {d d' : DecisionRow} (hgateway : d.gatewayId = d'.gatewayId)
    (hlease : d.decisionLeaseId = d'.decisionLeaseId) : Keyed.Clashes d d' :=
  Or.inr (Or.inr (Or.inr ⟨hgateway, hlease⟩))

theorem decisionBySource_eq_some {db : Db} {sourceEventId : Uuid} {d : DecisionRow} :
    db.decisionBySource sourceEventId = some d ↔
      d ∈ db.decisions ∧ d.sourceEventId = sourceEventId :=
  Table.find?_eq_some_iff fun _ _ h h' ↦ DecisionRow.clashes_of_source (h.trans h'.symm)

/-- The claimed event is the source of the decision. -/
theorem DecisionKey.SourcedBy.matches {d : DecisionRow} {e : EventRow}
    (h : d.toDecisionKey.SourcedBy e.toEventKey) {c : ClaimedEvent} {context : AgentContext}
    (hc : c.Describes e.toEventKey) (hcontext : buildAgentContext c.event = some context) :
    d.SourceMatches c context := by
  obtain ⟨context', hcontext', hlease, hversion⟩ := h.context
  rw [hc.event] at hcontext
  obtain rfl : context' = context := Option.some.inj (hcontext'.symm.trans hcontext)
  refine ⟨?_, ?_, hlease, ?_, hversion⟩
  · exact h.gatewayId.trans hc.gatewayId.symm
  · exact h.cycleId.trans hc.cycleId.symm
  · exact h.controlGeneration.trans hc.controlGeneration.symm

namespace World

variable {config : SystemConfig} {w : World}

theorem exec_sourced (hw : w.Sound config) (hsourced : w.db.Sourced) (a : Action) :
    (w.exec config a).db.Sourced := by
  have hlater := (exec_effects (a := a) (P := fun _ ↦ True) hw fun _ _ ↦ trivial).later
  have hkeep {d : DecisionRow} (hd : d ∈ w.db.decisions) :
      ∃ e ∈ (w.exec config a).db.events, d.toDecisionKey.SourcedBy e.toEventKey := by
    obtain ⟨e, he, hsource⟩ := hsourced d hd
    obtain ⟨e', he', hsame⟩ := hlater.events e he
    exact ⟨e', he', hsame.key_eq ▸ hsource⟩
  intro d' hd'
  cases exec_adds config w a with
  | inl hdelivers =>
    obtain ⟨d, hd, hstep⟩ := hdelivers.decision_back id hd'
    rw [hstep.key_eq]
    exact hkeep hd
  | inr hadds =>
    obtain ⟨token, c, context, action, decisionId, hadds⟩ := hadds
    obtain ⟨body, -, hinsert⟩ := hadds.new.decisions
    cases (Table.mem_of_insert? hinsert).1 hd' with
    | inl hold => exact hkeep hold
    | inr heq =>
      obtain ⟨e, he, hdesc⟩ := hw.describes c (mem_claims_of_claim? hadds.claim_eq)
      obtain ⟨e', he', hsame⟩ := hlater.events e he
      refine ⟨e', he', ?_⟩
      rw [hsame.key_eq, heq]
      exact ⟨hdesc.rowId, hdesc.gatewayId, hdesc.cycleId, hdesc.controlGeneration, context,
        hdesc.event ▸ hadds.context_eq, rfl, rfl⟩

theorem Reachable.sourced (hw : w.Reachable config) : w.db.Sourced := by
  obtain ⟨entropy, actions, rfl⟩ := hw
  have hstep (v : World) (a : Action) (hv : v.Sound config ∧ v.db.Sourced) :
      (v.exec config a).Sound config ∧ (v.exec config a).db.Sourced :=
    ⟨exec_sound hv.1, exec_sourced hv.1 hv.2 a⟩
  exact (invariant_run hstep
    ⟨initial_sound entropy, fun d hd ↦ absurd hd (Table.not_mem_empty d)⟩ actions).2

/-! ## Planning again -/

variable (config w) in
/-- A worker plans an event and gets a decision back. -/
structure Plans (token : Uuid) (action : AgentAction) (decisionId : String) (c : ClaimedEvent)
    (planned : PlannedDecision) : Prop where
  claim_eq : w.claim? token = some c
  returned : ∃ context, buildAgentContext c.event = some context ∧
    plannedDecision config.outbox w.now c context action decisionId w.db = .ok planned

variable (config w) in
/-- Decisions are unique for events and for leases; planning an event that has a decision gives
this decision back or finds the claim lost, and writes nothing; and all claims of a decision
carry one body under one name. -/
structure DecisionsFixed : Prop where
  source : ∀ d ∈ w.db.decisions, ∀ d' ∈ w.db.decisions, d.sourceEventId = d'.sourceEventId → d = d'
  lease : ∀ d ∈ w.db.decisions, ∀ d' ∈ w.db.decisions, d.gatewayId = d'.gatewayId →
    d.decisionLeaseId = d'.decisionLeaseId → d = d'
  replans : ∀ token c context action decisionId, w.claim? token = some c →
    buildAgentContext c.event = some context → ∀ d ∈ w.db.decisions, d.sourceEventId = c.rowId →
    w.exec config (.plan token action decisionId) = w ∧
      (plannedDecision config.outbox w.now c context action decisionId w.db = .error .fenced ∨
        plannedDecision config.outbox w.now c context action decisionId w.db =
          .ok (plannedFromRow d false))
  returns : ∀ token action decisionId c planned, w.Plans config token action decisionId c planned →
    ∀ later token' action' decisionId' c' planned',
      (run (exec config) (w.exec config (.plan token action decisionId)) later).Plans config token'
        action' decisionId' c' planned' →
      c'.rowId = c.rowId → planned' = { planned with created := false }
  sends : ∀ c ∈ w.decisionClaims, ∃ d ∈ w.db.decisions, c.Describes d.toDecisionKey ∧
    ∀ c' ∈ w.decisionClaims, c'.rowId = c.rowId → c'.Describes d.toDecisionKey

theorem planDecision_again {c : ClaimedEvent} {context : AgentContext} {d : DecisionRow}
    (hw : w.Reachable config) (hc : c ∈ w.claims) (hcontext : buildAgentContext c.event = some context)
    (hd : d ∈ w.db.decisions) (hsource : d.sourceEventId = c.rowId) (action : AgentAction)
    (decisionId : String) :
    planDecision config.outbox w.now c context action decisionId w.db = (.error .fenced, w.db) ∨
      planDecision config.outbox w.now c context action decisionId w.db = (.ok (), w.db) := by
  obtain ⟨e, he, hfrom⟩ := hw.sourced d hd
  obtain ⟨e', he', hdesc⟩ := hw.sound.describes c hc
  obtain rfl : e' = e := by
    apply eventRow_eq_of_id he' he
    calc e'.id = c.rowId := hdesc.rowId.symm
      _ = d.sourceEventId := hsource.symm
      _ = e.id := hfrom.sourceEventId
  unfold planDecision
  split
  · exact Or.inl rfl
  · have hfind : w.db.decisionBySource c.rowId = some d := decisionBySource_eq_some.2 ⟨hd, hsource⟩
    apply Or.inr
    simp only [planFenced, hfind, if_pos (hfrom.matches hdesc hcontext)]

theorem plannedDecision_again {c : ClaimedEvent} {context : AgentContext} {d : DecisionRow}
    (hw : w.Reachable config) (hc : c ∈ w.claims) (hcontext : buildAgentContext c.event = some context)
    (hd : d ∈ w.db.decisions) (hsource : d.sourceEventId = c.rowId) (action : AgentAction)
    (decisionId : String) :
    plannedDecision config.outbox w.now c context action decisionId w.db = .error .fenced ∨
      plannedDecision config.outbox w.now c context action decisionId w.db =
        .ok (plannedFromRow d false) := by
  have hfind : w.db.decisionBySource c.rowId = some d := decisionBySource_eq_some.2 ⟨hd, hsource⟩
  unfold plannedDecision
  cases planDecision_again hw hc hcontext hd hsource action decisionId with
  | inl hfenced =>
    rw [hfenced]
    exact Or.inl rfl
  | inr hfound =>
    rw [hfound]
    simp only [hfind]
    exact Or.inr rfl

/-- The decision that a planning returns is stored after it. -/
theorem Plans.stored {token : Uuid} {action : AgentAction} {decisionId : String} {c : ClaimedEvent}
    {planned : PlannedDecision} (h : w.Plans config token action decisionId c planned) :
    ∃ d ∈ (w.exec config (.plan token action decisionId)).db.decisions,
      d.sourceEventId = c.rowId ∧ ∃ created, planned = plannedFromRow d created := by
  obtain ⟨context, hcontext, hreturned⟩ := h.returned
  rw [plan_eq h.claim_eq hcontext]
  unfold plannedDecision at hreturned
  split at hreturned
  · cases hreturned
  · rename_i db' hplan
    split at hreturned
    · cases hreturned
    · rename_i d hfind
      cases hreturned
      obtain ⟨hd, hsource⟩ := decisionBySource_eq_some.1 hfind
      rw [hplan]
      exact ⟨d, hd, hsource, _, rfl⟩

/-- What a planning returned is returned again, whatever happens in between. -/
theorem Plans.again {token token' : Uuid} {action action' : AgentAction}
    {decisionId decisionId' : String} {c c' : ClaimedEvent} {planned planned' : PlannedDecision}
    (hw : w.Reachable config) (h : w.Plans config token action decisionId c planned)
    (later : List Action)
    (h' : (run (exec config) (w.exec config (.plan token action decisionId)) later).Plans config
      token' action' decisionId' c' planned') (hrow : c'.rowId = c.rowId) :
    planned' = { planned with created := false } := by
  obtain ⟨d, hd, hsource, created, rfl⟩ := h.stored
  obtain ⟨d', hd', hkey, -⟩ := run_decision_next config hd later
  have hreachable := hw.run (.plan token action decisionId :: later)
  rw [run_cons] at hreachable
  obtain ⟨context', hcontext', hreturned⟩ := h'.returned
  have hsource' : d'.sourceEventId = c'.rowId := by
    rw [hkey, hsource, hrow]
  cases plannedDecision_again hreachable (mem_claims_of_claim? h'.claim_eq) hcontext' hd' hsource'
    action' decisionId' with
  | inl hfenced =>
    rw [hfenced] at hreturned
    cases hreturned
  | inr hfound =>
    rw [hfound] at hreturned
    cases hreturned
    unfold plannedFromRow
    rw [hkey]

/-- Every event has one decision, every lease has one, and both planning and sending give it out
as it was stored. -/
theorem decisions_fixed (hw : w.Reachable config) : w.DecisionsFixed config where
  source _ hd _ hd' hsame := Table.eq_of_clashes hd hd' (DecisionRow.clashes_of_source hsame)
  lease _ hd _ hd' hgateway hlease :=
    Table.eq_of_clashes hd hd' (DecisionRow.clashes_of_lease hgateway hlease)
  replans token c context action decisionId hc hcontext d hd hsource := by
    have hmem := mem_claims_of_claim? hc
    refine ⟨?_, plannedDecision_again hw hmem hcontext hd hsource action decisionId⟩
    rw [plan_eq hc hcontext]
    cases planDecision_again hw hmem hcontext hd hsource action decisionId with
    | inl hfenced => rw [hfenced]
    | inr hfound => rw [hfound]
  returns _ _ _ _ _ h later _ _ _ _ _ h' hrow := h.again hw later h' hrow
  sends c hc := by
    obtain ⟨d, hd, hdesc⟩ := hw.sound.decisionClaims c hc
    refine ⟨d, hd, hdesc, fun c' hc' hrow ↦ ?_⟩
    obtain ⟨d', hd', hdesc'⟩ := hw.sound.decisionClaims c' hc'
    have heq : d' = d := by
      apply decisionRow_eq_of_id hd' hd
      calc d'.id = c'.rowId := hdesc'.rowId.symm
        _ = c.rowId := hrow
        _ = d.id := hdesc.rowId
    rwa [← heq]

section Example

open Scenario

/-- The event is planned twice, with different actions, and its decision is claimed twice. -/
def replanned : World :=
  after [submit [sessionStarted "e1" 1 "L1" 1], claim, .persist (token 3),
    .plan (token 3) ⟨"rest", 100, .wait 5⟩ "d", .plan (token 3) ⟨"rest again", 100, .noOp⟩ "d2",
    finish 3, .claimDecision "first", .tick 200, .claimDecision "second"]

theorem decisions_fixed_replanned :
    replanned.db.decisions.rows.map (fun d ↦ (d.decisionId, d.action)) = [("d", .wait)] ∧
      replanned.decisionClaims.map (·.lockedBy) = ["first", "second"] ∧
      replanned.DecisionsFixed Scenario.config :=
  ⟨by decide, by decide, decisions_fixed (reachable_after _ _)⟩

end Example

end World

end LlmGateway
