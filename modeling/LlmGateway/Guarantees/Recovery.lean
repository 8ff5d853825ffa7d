import LlmGateway.Recovery.Collecting
import LlmGateway.System.Delivery
import LlmGateway.System.Scenario
import LlmGateway.System.Terminal

/-!
# Recovery

The projection is rebuilt from the stored rows as long as every call that is closed was closed by
a `skill_finished` event. The stop of a session, the stop of an idle session and the discarding of
stale events close open calls without one, and a response may give up the open call of another
decision.
-/

namespace LlmGateway

open Relational

/-- A chain of effects keeps the keys of the events. -/
theorem events_forward {config : WorkerConfig} {now : ℕ} {P : Branch → Prop} {db db' : Db}
    (h : Effects config now P db db') :
    ∀ e ∈ db.events, ∃ e' ∈ db'.events, e'.toEventKey = e.toEventKey := by
  induction h with
  | refl => exact fun e he ↦ ⟨e, he, rfl⟩
  | tail _ hlast ih =>
    intro e he
    obtain ⟨e', he', hkey⟩ := ih e he
    obtain ⟨rowId, hevolve⟩ := hlast.events_evolve
    obtain ⟨e'', he'', hstep⟩ := hevolve.forward e' he'
    refine ⟨e'', he'', Eq.trans ?_ hkey⟩
    cases hstep with
    | inl hsettles => exact hsettles.key_eq
    | inr hclaims => exact hclaims.2.2.1.key_eq

namespace World

variable {config : SystemConfig} {w : World} {a : Action}

/-- The step closes an open call for which there is no `skill_finished` event. -/
def LosesCall (config : SystemConfig) (w : World) : Action → Prop
  | .record token => ∃ c ∈ w.claim? token, c.event.eventType = .sessionStopped ∧
      w.db.HoldsCurrent c ∧ (w.db.lockOpenCalls c.cycleId).isEmpty = false
  | .discard => ¬w.db.StaleCastFails ∧ ∃ maxAgeMs ∈ config.eventStaleAfterMs,
      ∃ k ∈ w.db.calls, w.db.DiscardsCall maxAgeMs w.now k.toCallKey
  | .stopIdle => ∃ timeoutMs ∈ config.sessionIdleTimeoutMs,
      ∃ k ∈ w.db.calls, w.db.IdlesCall timeoutMs w.now k.toCallKey
  | .recordResponse token response => ∃ c ∈ w.decisionClaim? token, w.db.Usurps w.now c response
  | _ => False

theorem withClaim_calls {token : Uuid} {f : ClaimedEvent → World}
    (h : ∀ c, (f c).db.calls = w.db.calls) : (w.withClaim token f).db.calls = w.db.calls := by
  unfold withClaim
  cases w.claim? token with
  | none => rfl
  | some c => exact h c

theorem withDecisionClaim_calls {token : Uuid} {f : ClaimedDecision → World}
    (h : ∀ c, (f c).db.calls = w.db.calls) :
    (w.withDecisionClaim token f).db.calls = w.db.calls := by
  unfold withDecisionClaim
  cases w.decisionClaim? token with
  | none => rfl
  | some c => exact h c

theorem commit_calls {α : Type*} {result : Except Failure (α × Db)}
    (h : ∀ a db', result = .ok (a, db') → db'.calls = w.db.calls) :
    (w.commit result).db.calls = w.db.calls := by
  unfold commit
  split
  · rename_i a db'
    exact h a db' rfl
  · rfl

theorem commit_explained {α : Type*} {result : Except Failure (α × Db)} (hw : w.db.CallsExplained)
    (h : ∀ a db', result = .ok (a, db') → db'.CallsExplained) :
    (w.commit result).db.CallsExplained := by
  unfold commit
  split
  · rename_i a db'
    exact h a db' rfl
  · exact hw

/-- Every action but those on terminals and responses leaves the calls alone, unless it loses
one. -/
theorem exec_calls (hkeeps : ¬w.LosesCall config a) (hrecord : ∀ token, a ≠ .record token)
    (hresponse : ∀ token response, a ≠ .recordResponse token response) :
    (w.exec config a).db.calls = w.db.calls := by
  cases a with
  | tick ms => rfl
  | acceptBatch identity traceId events =>
    simp only [exec, acceptBatch]
    split
    · rfl
    · rename_i h
      exact (acceptEventBatch_same h).calls_eq
  | claimPass workerId busy =>
    have hpass : (LlmGateway.claimPass config.events w.now workerId busy w.db).2.calls =
        w.db.calls := claimPass_calls workerId busy
    simp only [exec, claimPass]
    split
    · rename_i h
      rwa [h] at hpass
    · rename_i h
      rwa [h] at hpass
  | renew token =>
    exact withClaim_calls fun c ↦ commit_calls fun _ _ h ↦ (renewEventClaim_same h).calls_eq
  | complete token result => exact withClaim_calls fun c ↦ (completeEvent_same c result).calls_eq
  | persist token =>
    apply withClaim_calls
    intro c
    unfold persist
    split
    · rfl
    · split
      · rename_i h
        exact persistLeaseContext_calls h
      · rename_i h
        exact persistLeaseContext_calls h
      · rfl
  | sweep => exact sweepExpiredClaims_same.calls_eq
  | discard =>
    simp only [exec, discard]
    split
    · rename_i h
      refine discardStaleEvents_calls (fun maxAgeMs hage hcasts key hdiscards ↦ ?_) h
      obtain ⟨k, hk, rfl, -⟩ := hdiscards.1
      exact hkeeps ⟨hcasts, maxAgeMs, hage, k, hk, hdiscards⟩
    · rfl
  | stopIdle =>
    refine stopIdleSessions_calls fun timeoutMs htimeout key hidles ↦ ?_
    obtain ⟨k, hk, rfl, -⟩ := hidles.1
    exact hkeeps ⟨timeoutMs, htimeout, k, hk, hidles⟩
  | plan token action decisionId =>
    apply withClaim_calls
    intro c
    unfold plan
    split
    · rfl
    · exact planDecision_calls config.outbox c _ action decisionId
  | record token => exact absurd rfl (hrecord token)
  | claimDecision workerId =>
    have hclaim : (claimNextDecision config.outbox.worker w.now workerId w.db).2.calls =
        w.db.calls := claimNextDecision_calls workerId
    simp only [exec, claimDecision]
    split
    · rename_i h
      rwa [h] at hclaim
    · rename_i h
      rwa [h] at hclaim
  | renewDecision token => exact withDecisionClaim_calls fun c ↦ renewDecisionClaim_calls c
  | failDecision token stage category body =>
    exact withDecisionClaim_calls fun c ↦ completeDecisionFailure_calls c stage category body
  | recordResponse token response => exact absurd rfl (hresponse token response)
  | sweepDecisions => exact sweepExpiredDecisionClaims_calls

/-- The stored event of a claim. -/
theorem Sound.event_of_claim (hw : w.Sound config) {c : ClaimedEvent} (hc : c ∈ w.claims) :
    ∃ e ∈ w.db.events, e.id = c.rowId ∧ e.eventType = c.event.eventType ∧
      e.gatewayId = c.gatewayId ∧ e.sessionId = c.sessionId := by
  obtain ⟨e, he, hdesc⟩ := hw.describes c hc
  refine ⟨e, he, hdesc.rowId.symm, ?_, hdesc.gatewayId.symm, hdesc.sessionId.symm⟩
  rw [hdesc.event]
  exact (hw.integrity.event_sound e he).eventType

theorem recordTerminal_explained {token : Uuid} {c : ClaimedEvent} (hw : w.Sound config)
    (hcalls : w.db.CallsSound) (h : w.db.CallsExplained)
    (hkeeps : ¬w.LosesCall config (.record token)) (hc : w.claim? token = some c) :
    (w.recordTerminal c).db.CallsExplained := by
  have hmem := mem_claims_of_claim? hc
  unfold recordTerminal
  split
  · exact recordSkillStarted_explained h c _
  · rename_i hbody
    obtain ⟨e, he, hid, htype, hnames⟩ := hw.event_of_claim hmem
    have hfinished : e.eventType = .skillFinished := by
      rw [htype, GatewayEvent.eventType, hbody]
      rfl
    exact commit_explained h fun _ _ hrecord ↦ recordSkillFinished_explained h hcalls
      ⟨e, he, hid, hfinished, hnames⟩ (hw.session_eq hmem) hrecord
  · rename_i payload _
    have hevents : (mergeDecisionRejected c payload w.db).2.events = w.db.events :=
      (mergeDecisionRejected_step c payload).events_eq
    exact h.of_calls_eq (mergeDecisionRejected_calls c payload) fun e he ↦
      ⟨e, hevents ▸ he, rfl⟩
  · rename_i hbody
    refine commit_explained h fun _ db' hclose ↦ ?_
    have hstopped : c.event.eventType = .sessionStopped := by
      rw [GatewayEvent.eventType, hbody]
      rfl
    have heffects : Effects config.events w.now (fun _ ↦ True) w.db db' :=
      closeGeneration_effects hw.integrity (fun j hlock ↦ hw.describes_locked hmem hlock) hclose
    refine h.of_calls_eq (closeGeneration_calls (fun hholds ↦ ?_) hclose)
      (events_forward heffects)
    by_contra hopen
    exact hkeeps ⟨c, hc, hstopped, hholds, List.isEmpty_eq_false_iff.2 hopen⟩
  · exact h

/-- A step that loses no call leaves all calls explained. -/
theorem exec_explained (hw : w.Sound config) (hcalls : w.db.CallsSound) (h : w.db.CallsExplained)
    (hkeeps : ¬w.LosesCall config a) : (w.exec config a).db.CallsExplained := by
  by_cases hrecord : ∃ token, a = .record token
  · obtain ⟨token, rfl⟩ := hrecord
    simp only [exec, withClaim]
    cases hc : w.claim? token with
    | none => exact h
    | some c => exact recordTerminal_explained hw hcalls h hkeeps hc
  by_cases hresponse : ∃ token response, a = .recordResponse token response
  · obtain ⟨token, response, rfl⟩ := hresponse
    simp only [exec, withDecisionClaim]
    cases hc : w.decisionClaim? token with
    | none => exact h
    | some c =>
      refine commit_explained h fun _ _ hrespond ↦ ?_
      exact recordDecisionResponse_explained h hcalls
        (hw.decisionClaims c (mem_decisionClaims hc)) (fun husurps ↦ hkeeps ⟨c, hc, husurps⟩)
        hrespond
  · refine h.of_calls_eq (exec_calls hkeeps (fun token heq ↦ hrecord ⟨token, heq⟩)
      fun token response heq ↦ hresponse ⟨token, response, heq⟩) ?_
    exact events_forward (exec_effects (P := fun _ ↦ True) hw fun _ _ ↦ trivial)

section Examples

open Scenario

/-- A dance is planned and accepted. -/
def danceAccepted : List Action :=
  [submit [sessionStarted "e1" 1 "L1" 1], claim, .persist (Scenario.token 3),
    .plan (Scenario.token 3) ⟨"dance", 100, .callSkill "dance" "v1" [] none⟩ "d", finish 3,
    .claimDecision "worker",
    .recordResponse (Scenario.token 5) ⟨200, .accepted, "ok", some "call", none⟩]

/-- The dance is finished. -/
def danceFinished : List Action :=
  danceAccepted ++ [submit [plain "e2" 1 2 0 (finished "d")], claim, .record (Scenario.token 8),
    finish 8]

/-- The session is stopped while the dance goes on. -/
def danceStopped : List Action :=
  danceAccepted ++ [submit [plain "e2" 1 2 0 stopped], claim, .record (Scenario.token 8)]

end Examples

end World

end LlmGateway
