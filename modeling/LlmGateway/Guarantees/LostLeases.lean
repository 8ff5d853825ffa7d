import LlmGateway.Guarantees.LatestContext
import LlmGateway.System.Dispatch

/-!
# Losing the race to a newer lease

A worker plans for a claimed event while another one persists a newer lease of the same cycle. The
planning is fenced off then, and the worker gives the event up. If its event was superseded with
the persistence, nothing happens; but the result of a skill, which no newer lease supersedes, takes
the whole cycle with it (`keepsCycle_iff`).
-/

namespace LlmGateway

open Relational

/-- An event with a context is no hosted chat. -/
theorem not_isHostedChat_of_buildAgentContext {event : GatewayEvent} {context : AgentContext}
    (h : buildAgentContext event = some context) : event.eventType.isHostedChat = false := by
  rcases event with ⟨_, _, _, _, _, ⟨p, payload⟩ | payload, _⟩
  · cases payload <;> rfl
  · simp [buildAgentContext] at h

section Completion

variable {db : Db} {c : ClaimedEvent} {cycle : CycleRow} {j : Joined}

theorem lockClaim_eq_none_of_closed {e : EventRow} (he : e ∈ db.events) (hid : e.id = c.rowId)
    (hclosed : e.status.isOpen = false) : db.lockClaim c = none := by
  cases hlock : db.lockClaim c with
  | none => rfl
  | some j =>
    obtain ⟨hjoins, hrow, hheld⟩ := lockClaim_eq_some.1 hlock
    rw [eventRow_eq_of_id he hjoins.event_mem (hid.trans hrow.symm), hheld.2.2] at hclosed
    cases hclosed

theorem status_of_markCycleManual {cycleId : Uuid} (h : cycle ∈ (db.markCycleManual cycleId).cycles)
    (hid : cycle.id = cycleId) : cycle.status = .manual := by
  cases Table.mem_update.1 h with
  | inl hset =>
    obtain ⟨_, -, -, rfl⟩ := hset
    rfl
  | inr hkept => exact absurd hid hkept.2

/-- Skipping completed events leaves the statuses of the cycles alone. -/
theorem status_of_skipFrom (h : cycle ∈ (db.skipFrom j).cycles) :
    ∃ before ∈ db.cycles, before.id = cycle.id ∧ before.status = cycle.status := by
  unfold Db.skipFrom at h
  split_ifs at h
  · cases Table.mem_update.1 h with
    | inl hset =>
      obtain ⟨before, hbefore, -, rfl⟩ := hset
      exact ⟨before, hbefore, rfl, rfl⟩
    | inr hkept => exact ⟨cycle, hkept.1, rfl, rfl⟩
  · exact ⟨cycle, h, rfl, rfl⟩

end Completion

namespace World

variable {config : SystemConfig} {v w : World} {token : Uuid} {c newer : ClaimedEvent}
  {context : AgentContext} {result : EventProcessResult}

/-- While the event was claimed, the other lease of a newer event of its cycle was persisted. -/
structure Overtaken (config : SystemConfig) (v : World) (token : Uuid) (c newer : ClaimedEvent)
    (context : AgentContext) : Prop where
  reachable : v.Reachable config
  claimed : c ∈ v.claims
  leased : ∃ own, buildAgentContext c.event = some own ∧
    (own.decisionLeaseId ≠ context.decisionLeaseId ∨ own.stateVersion ≠ context.stateVersion)
  issued : v.claim? token = some newer
  commits : v.Persists newer context
  sameCycle : newer.cycleId = c.cycleId
  behind : c.eventSequence < newer.eventSequence

/-- The claim with this token is about to overtake the event. -/
def Overtakes (v : World) (token : Uuid) (c : ClaimedEvent) : Prop :=
  ∃ own ∈ buildAgentContext c.event, ∃ newer ∈ v.claim? token,
    ∃ context ∈ buildAgentContext newer.event,
      (own.decisionLeaseId ≠ context.decisionLeaseId ∨ own.stateVersion ≠ context.stateVersion) ∧
        (context.Matches newer ∧ ¬bigintMax < context.stateVersion ∧
          (∃ j ∈ v.db.lockClaim newer, j.Persistable newer) ∧
            ¬v.db.supersedeCastFails newer context) ∧
          newer.cycleId = c.cycleId ∧ c.eventSequence < newer.eventSequence

instance (v : World) (token : Uuid) (c : ClaimedEvent) : Decidable (v.Overtakes token c) :=
  inferInstanceAs (Decidable (∃ _ ∈ _, ∃ _ ∈ _, ∃ _ ∈ _, _ ∧ _))

theorem Overtakes.overtaken (h : v.Overtakes token c) (hreachable : v.Reachable config)
    (hc : c ∈ v.claims) : ∃ newer context, v.Overtaken config token c newer context := by
  obtain ⟨own, hown, newer, hnewer, context, hcontext, hother, hcommits, hcycle, hlt⟩ := h
  obtain ⟨hmatches, hrange, hlocked, hcasts⟩ := hcommits
  exact ⟨newer, context, hreachable, hc, ⟨own, hown, hother⟩, hnewer,
    ⟨hcontext, hmatches, hrange, hlocked, hcasts⟩, hcycle, hlt⟩

/-- But for the lease the fence is passed: the cycle is active, and the claim has the generation
and the fence of its session. -/
structure StillCurrent (w : World) (c : ClaimedEvent) : Prop where
  active : ∃ cycle ∈ w.db.cycles, cycle.id = c.cycleId ∧ cycle.status = .active
  current : ∃ s ∈ w.db.sessions, s.gatewayId = c.gatewayId ∧ s.sessionId = c.sessionId ∧
    s.currentGeneration = some c.controlGeneration ∧ s.fenceVersion = c.claimedFenceVersion

instance (w : World) (c : ClaimedEvent) : Decidable (w.StillCurrent c) :=
  decidable_of_iff ((∃ cycle ∈ w.db.cycles, cycle.id = c.cycleId ∧ cycle.status = .active) ∧
    ∃ s ∈ w.db.sessions, s.gatewayId = c.gatewayId ∧ s.sessionId = c.sessionId ∧
      s.currentGeneration = some c.controlGeneration ∧ s.fenceVersion = c.claimedFenceVersion)
    ⟨fun h ↦ ⟨h.1, h.2⟩, fun h ↦ ⟨h.active, h.current⟩⟩

/-- The cycle of the event is active afterwards, and no session has another fence. -/
def KeepsCycle (c : ClaimedEvent) (w w' : World) : Prop :=
  (∃ cycle ∈ w'.db.cycles, cycle.id = c.cycleId ∧ cycle.status = .active) ∧
    ∀ s ∈ w.db.sessions, ∃ s' ∈ w'.db.sessions, s'.id = s.id ∧ s'.fenceVersion = s.fenceVersion

instance (c : ClaimedEvent) (w w' : World) : Decidable (KeepsCycle c w w') :=
  inferInstanceAs (Decidable (_ ∧ ∀ _ ∈ _, ∃ _ ∈ _, _))

theorem Sound.claim?_eq (hw : w.Sound config) (hc : c ∈ w.claims) :
    w.claim? c.claimToken = some c := by
  cases hfind : w.claim? c.claimToken with
  | none =>
    have hnot := List.find?_eq_none.1 hfind c hc
    exact absurd (decide_eq_true rfl) hnot
  | some c' =>
    have hfound := List.find?_some hfind
    have htoken : c'.claimToken = c.claimToken := of_decide_eq_true hfound
    rw [hw.claim_eq (mem_claims_of_claim? hfind) hc htoken]

theorem mem_run_claims (hc : c ∈ w.claims) (actions : List Action) :
    c ∈ (run (exec config) w actions).claims :=
  invariant_run (I := fun w : World ↦ c ∈ w.claims) (fun _ _ ↦ mem_exec_claims) hc actions

/-- The persistence of the newer lease supersedes a start or an observation behind it. -/
theorem Overtaken.closed (h : v.Overtaken config token c newer context)
    (htype : c.eventType = .sessionStarted ∨ c.eventType = .observationUpdated) :
    ∃ e ∈ (v.exec config (.persist token)).db.events, e.id = c.rowId ∧
      e.status.isOpen = false := by
  have hv := h.reachable.sound
  obtain ⟨e, he, hdesc⟩ := hv.describes c h.claimed
  obtain ⟨e', he', hdesc'⟩ := hv.describes newer (mem_claims_of_claim? h.issued)
  obtain ⟨own, hown, hother⟩ := h.leased
  obtain ⟨hlease, hversion⟩ := lease_of_buildAgentContext hown
  rw [hdesc.event] at hlease hversion
  have hexec : (v.exec config (.persist token)).db = v.storeLease newer context := by
    simp only [exec, withClaim, h.issued, Option.elim, h.commits.persist_eq]
  rw [hexec]
  by_cases hopen : e.status.isOpen = true
  · have hne : e.id ≠ newer.rowId := by
      intro heq
      obtain rfl := eventRow_eq_of_id he he' (heq.trans hdesc'.rowId)
      exact h.behind.ne (hdesc.eventSequence.trans hdesc'.eventSequence.symm)
    have hlt : e.eventSequence < newer.eventSequence := hdesc.eventSequence ▸ h.behind
    have holder : Db.OlderLeaseEvent newer e ∧ Db.OtherLease context e := by
      refine ⟨⟨hdesc.cycleId.symm.trans h.sameCycle.symm, hne, hlt, hopen, ?_, ?_⟩, ?_⟩
      · rw [← hdesc.eventType]
        exact htype
      · rw [hlease]
        rfl
      · unfold Db.OtherLease
        rw [hlease, hversion, ne_eq, Option.some_inj]
        exact hother
    exact ⟨_, Table.set_mem_update (a := Db.supersedeKeepingError) he holder, hdesc.rowId.symm, rfl⟩
  · refine ⟨e, Table.mem_update_of_not he fun holder ↦ hopen holder.1.2.2.2.1, hdesc.rowId.symm, ?_⟩
    exact Bool.not_eq_true _ ▸ hopen

/-- A fenced completion of a lost claim changes nothing. -/
theorem complete_of_lost (hw : w.Sound config) (hc : c ∈ w.claims)
    (hlost : w.db.lockClaim c = none) : w.exec config (.complete c.claimToken result) = w := by
  simp only [exec, withClaim, hw.claim?_eq hc, Option.elim, completeEvent, hlost]

/-- A fenced completion of a held claim marks the cycle as manual. -/
theorem not_keepsCycle_of_held (hw : w.Sound config) (hc : c ∈ w.claims) {own : AgentContext}
    (hown : buildAgentContext c.event = some own) (hcurrent : w.StillCurrent c) {j : Joined}
    (hlock : w.db.lockClaim c = some j) (hresult : result.outcome = .manual) :
    ¬KeepsCycle c w (w.exec config (.complete c.claimToken result)) := by
  have hdesc := hw.describes_locked hc hlock
  have hjoins := (lockClaim_eq_some.1 hlock).1
  have hlinked := hw.integrity.linked hjoins
  have hchat : j.event.eventType.isHostedChat = false := by
    rw [(hw.integrity.event_sound _ hjoins.event_mem).eventType, ← hdesc.event]
    exact not_isHostedChat_of_buildAgentContext hown
  obtain ⟨s, hs, hgateway, hsession, hgeneration, hfence⟩ := hcurrent.current
  obtain rfl : s = j.session := sessionRow_eq_of_names hs hlinked.session_mem
    (by rw [hgateway, hdesc.gatewayId, hlinked.session_names.1])
    (by rw [hsession, hdesc.sessionId, hlinked.session_names.2])
  rw [hdesc.controlGeneration] at hgeneration
  have hdisposition : j.disposition = .current := by
    rw [Joined.disposition_of_sequenced hchat, classifyGeneration, hgeneration]
    simp
  have hvalid : j.ClaimValid (some c.claimedFenceVersion) :=
    Or.inr (Or.inr ⟨hdisposition, congrArg some hfence.symm⟩)
  have hexec : (w.exec config (.complete c.claimToken result)).db =
      ((w.db.completeWith c .manual result.errorStage result.errorCategory).markCycleManual
        c.cycleId).skipFrom j := by
    simp only [exec, withClaim, hw.claim?_eq hc, Option.elim, completeEvent, hlock, hvalid,
      not_true_eq_false, if_false, hresult, completeManual, hdisposition, ne_eq, reduceCtorEq,
      not_false_eq_true, hdesc.eventType, hchat, and_self, if_true]
  intro hkeeps
  obtain ⟨cycle, hcycle, hid, hactive⟩ := hkeeps.1
  rw [hexec] at hcycle
  obtain ⟨before, hbefore, hid', hstatus⟩ := status_of_skipFrom hcycle
  have hmanual := status_of_markCycleManual hbefore (hid'.trans hid)
  rw [← hstatus, hmanual] at hactive
  cases hactive

theorem outcome_of_mem_fencedResults (h : result ∈ fencedResults) : result.outcome = .manual := by
  simp only [fencedResults, List.mem_cons, List.not_mem_nil, or_false] at h
  rcases h with rfl | rfl | rfl <;> rfl

/-- An event whose planning lost the race to a newer lease leaves its cycle active and the fences
unchanged exactly if it is a start or an observation, or its claim was lost. -/
theorem keepsCycle_iff (h : v.Overtaken config token c newer context) (actions : List Action)
    (hcurrent : (run (exec config) (v.exec config (.persist token)) actions).StillCurrent c)
    (hresult : result ∈ fencedResults) :
    KeepsCycle c (run (exec config) (v.exec config (.persist token)) actions)
        ((run (exec config) (v.exec config (.persist token)) actions).exec config
          (.complete c.claimToken result)) ↔
      c.eventType = .sessionStarted ∨ c.eventType = .observationUpdated ∨
        (run (exec config) (v.exec config (.persist token)) actions).db.lockClaim c = none := by
  have hpersisted : (v.exec config (.persist token)).Sound config := exec_sound h.reachable.sound
  have hw := run_sound hpersisted actions
  have hclaimed : c ∈ (v.exec config (.persist token)).claims := mem_exec_claims h.claimed
  have hc : c ∈ (run (exec config) (v.exec config (.persist token)) actions).claims :=
    mem_run_claims hclaimed actions
  have hlost (htype : c.eventType = .sessionStarted ∨ c.eventType = .observationUpdated) :
      (run (exec config) (v.exec config (.persist token)) actions).db.lockClaim c = none := by
    obtain ⟨e, he, hid, hclosed⟩ := h.closed htype
    obtain ⟨e', he', hlater⟩ := (hpersisted.later actions).events e he
    rw [hlater.closed hclosed] at he'
    exact lockClaim_eq_none_of_closed he' hid hclosed
  rw [← or_assoc, or_iff_right_of_imp hlost]
  constructor
  · intro hkeeps
    cases hlock : (run (exec config) (v.exec config (.persist token)) actions).db.lockClaim c with
    | none => rfl
    | some j =>
      obtain ⟨own, hown, -⟩ := h.leased
      exact absurd hkeeps (not_keepsCycle_of_held hw hc hown hcurrent hlock
        (outcome_of_mem_fencedResults hresult))
  · intro hlock
    rw [complete_of_lost hw hc hlock]
    exact ⟨hcurrent.active, fun s hs ↦ ⟨s, hs, rfl, rfl⟩⟩

section Example

open Scenario

theorem sessionName_length : NonEmptyString128 "s" := by decide

/-- The result of a dance, which offers a new lease. -/
def danceEnded (eventId : String) (generation sequence : ℕ) (leaseId : String) (version : ℕ) :
    GatewayEvent where
  eventId := name eventId
  sessionId := "s"
  stateVersion := version
  decisionLeaseId := some leaseId
  occurredAtMs := 0
  body := .sequenced (position generation sequence) (.skillFinished
    ⟨"d", "call", "dance", .success, "done", false, 0, 0,
      some (offer "s" (max generation 1) leaseId version), instant⟩)
  valid := by simp [EventBody.Valid, Payload.offer?, Payload.eventType, offer, lease, position]
  eventId_length := name_length eventId
  sessionId_length := sessionName_length

/-- The dance has been sent and accepted. -/
def danceSent : List Action :=
  [submit [sessionStarted "e1" 1 "L1" 1], claim, .persist (Scenario.token 3),
    .plan (Scenario.token 3) ⟨"dance", 100, .callSkill "dance" "v1" [] none⟩ "d", finish 3,
    .claimDecision "worker",
    .recordResponse (Scenario.token 5) ⟨200, .accepted, "ok", some "call", none⟩]

/-- One worker has recorded the event and persisted its lease; another has claimed an
observation. -/
def raced (event : GatewayEvent) : List Action :=
  danceSent ++ [submit [event], claim, .record (Scenario.token 8), .persist (Scenario.token 8),
    submit [observation "e3" 1 3 "L3" 3], claim]

/-- An observation that has lost is given up without a trace. -/
theorem keepsCycle_iff_observation :
    let v := after (raced (observation "e2" 1 2 "L2" 2))
    let w := v.exec Scenario.config (.persist (Scenario.token 10))
    ∃ c ∈ v.claims, c.claimToken = Scenario.token 8 ∧
      KeepsCycle c w (w.exec Scenario.config (.complete c.claimToken modelCallSkipped)) := by
  intro v w
  have hraced : ∃ c ∈ v.claims, c.claimToken = Scenario.token 8 ∧
      v.Overtakes (Scenario.token 10) c ∧ w.StillCurrent c ∧
        c.eventType = .observationUpdated := by
    decide
  obtain ⟨c, hc, htoken, hovertakes, hcurrent, htype⟩ := hraced
  obtain ⟨newer, context, hovertaken⟩ := hovertakes.overtaken (reachable_after _ _) hc
  exact ⟨c, hc, htoken, (keepsCycle_iff hovertaken [] hcurrent
    (List.mem_cons_of_mem _ List.mem_cons_self)).2 (Or.inr (Or.inl htype))⟩

/-- The result of a skill that has lost is given up with its cycle. -/
theorem danceEnded_not_keepsCycle :
    let v := after (raced (danceEnded "e2" 1 2 "L2" 2))
    let w := v.exec Scenario.config (.persist (Scenario.token 10))
    ∃ c newer context,
      v.Overtaken Scenario.config (Scenario.token 10) c newer context ∧ w.StillCurrent c ∧
        modelCallSkipped ∈ fencedResults ∧
          ¬KeepsCycle c w (w.exec Scenario.config (.complete c.claimToken modelCallSkipped)) := by
  intro v w
  have hraced : ∃ c ∈ v.claims, v.Overtakes (Scenario.token 10) c ∧ w.StillCurrent c ∧
      ¬KeepsCycle c w (w.exec Scenario.config (.complete c.claimToken modelCallSkipped)) := by
    decide
  obtain ⟨c, hc, hovertakes, hcurrent, hnot⟩ := hraced
  obtain ⟨newer, context, hovertaken⟩ := hovertakes.overtaken (reachable_after _ _) hc
  exact ⟨c, newer, context, hovertaken, hcurrent, List.mem_cons_of_mem _ List.mem_cons_self, hnot⟩

end Example

end World

end LlmGateway
