import LlmGateway.Effect.Change
import LlmGateway.Effect.Claim

/-!
# Generations that must have been reached

Whatever branches are taken, an event of a generation that its session has not reached is not
processed, unless it is a hosted chat event, and a cycle of such a generation is not stopped.
-/

namespace LlmGateway

open Relational

variable {config : WorkerConfig} {now : ℕ} {P : Branch → Prop} {db db' : Db}

/-- A sequenced event is processed only in a generation that was reached. -/
def Db.ProcessingReached (db : Db) : Prop :=
  ∀ e ∈ db.events, e.status = .processing → e.eventType.isHostedChat = false →
    db.Reached e.gatewayId e.sessionId e.controlGeneration

/-- A cycle is stopped only after its generation was reached. -/
def Db.StoppedReached (db : Db) : Prop :=
  ∀ c ∈ db.cycles, c.status = .stopped → db.Reached c.gatewayId c.sessionId c.controlGeneration

theorem Db.Reached.step {gatewayId sessionId : String} {generation : ℕ}
    (h : db.Reached gatewayId sessionId generation) (heff : Effect config now P db db') :
    db'.Reached gatewayId sessionId generation :=
  heff.later.reached h

/-! ## The current generation -/

/-- Unless an effect activates a generation, every current generation stays current. -/
theorem Db.Current.step {gatewayId sessionId : String} {generation : ℕ}
    (hcur : db.Current gatewayId sessionId generation) (heff : Effect config now P db db')
    (hnot : ¬∃ j, db.Linked j ∧ j.disposition = .activateNew ∧ db' = activateNew j db) :
    db'.Current gatewayId sessionId generation := by
  obtain ⟨s, hs, hg, hn, hgen⟩ := hcur
  obtain ⟨s', hs', hkey, hchange⟩ := heff.sessions_change.forward s hs
  have hkeeps (heq : s'.currentGeneration = s.currentGeneration) :
      db'.Current gatewayId sessionId generation :=
    ⟨s', hs', (congrArg SessionKey.gatewayId hkey).trans hg,
      (congrArg SessionKey.sessionId hkey).trans hn, heq.trans hgen⟩
  cases hchange with
  | keeps hgeneration _ => exact hkeeps hgeneration
  | raised hgeneration _ _ => exact hkeeps hgeneration
  | activated j hlinked hdisp hdb _ _ => exact absurd ⟨j, hlinked, hdisp, hdb⟩ hnot

/-- The generation that an activation makes current. -/
theorem current_of_activated {j : Joined} (hlinked : db.Linked j) :
    (activateNew j db).Current j.cycle.gatewayId j.cycle.sessionId j.cycle.controlGeneration := by
  have h := linked_activated hlinked
  refine ⟨j.activated.session, h.session_mem, h.session_owns.2.1, h.session_owns.2.2, ?_⟩
  rw [hlinked.generation_eq]
  rfl

/-! ## Processed events and stopped cycles -/

/-- An event that is processed after an effect was so before, or has just been claimed. -/
theorem EventChange.of_processing {e e' : EventRow} (h : EventChange config now P db e e')
    (hproc : e'.status = .processing) :
    (e.status = .processing ∧ e'.claimedFenceVersion = e.claimedFenceVersion) ∨
      ∃ j, db.Linked j ∧ e = j.event ∧ e.Claims config now db.nextUuid e' ∧
        e'.claimedFenceVersion = some j.session.fenceVersion ∧
        (e.eventType.isHostedChat = true ∨
          db.Reached e.gatewayId e.sessionId e.controlGeneration) := by
  have hsettled (hs : e.Settles e') :
      e.status = .processing ∧ e'.claimedFenceVersion = e.claimedFenceVersion :=
    ⟨(hs.of_processing hproc).1, (hs.of_processing hproc).2.2⟩
  cases h with
  | same eq => exact Or.inl (by rw [← eq]; exact ⟨hproc, rfl⟩)
  | settled hs _ => exact Or.inl (hsettled hs)
  | superseded _ _ _ _ _ hs => exact Or.inl (hsettled hs)
  | waited _ _ _ _ _ hs => exact Or.inl (hsettled hs)
  | claimed j hlinked heq hreached hclaims hfence =>
    exact Or.inr ⟨j, hlinked, heq, hclaims, hfence, hreached⟩

theorem Effect.processingReached (heff : Effect config now P db db') (h : db.ProcessingReached) :
    db'.ProcessingReached := by
  intro e' he' hproc hseq
  rcases heff.events_change.backward e' he' with ⟨e, he, hchange⟩ | hnew
  swap
  · exact absurd hproc hnew.status
  have hkey := hchange.key_eq
  rw [hkey] at hseq ⊢
  refine Db.Reached.step ?_ heff
  rcases hchange.of_processing hproc with ⟨hproc', -⟩ | ⟨j, -, -, -, -, hreached⟩
  · exact h e he hproc' hseq
  · exact hreached.resolve_left (by simp [hseq])

/-- A joined event whose generation is not newer than the current one. -/
theorem Db.ProcessingReached.linked (h : db.ProcessingReached) {j : Joined}
    (hlinked : db.Linked j) (hproc : j.event.status = .processing)
    (hseq : j.event.eventType.isHostedChat = false) :
    ∃ g ∈ j.session.currentGeneration, j.event.controlGeneration ≤ g :=
  hlinked.reached_iff.1 (h j.event hlinked.event_mem hproc hseq)

/-- A superseded event belongs to a generation that was reached. -/
theorem Joined.SupersedeReason.reached {j : Joined} (hreason : j.SupersedeReason P)
    (h : db.ProcessingReached) (hlinked : db.Linked j)
    (hseq : j.event.eventType.isHostedChat = false) :
    db.Reached j.event.gatewayId j.event.sessionId j.event.controlGeneration := by
  rw [hlinked.reached_iff]
  rcases hreason with ⟨hstale, -⟩ | ⟨hproc, -, -⟩
  · obtain ⟨⟨g, hg, hlt⟩, -⟩ := generation_of_stale hstale
    exact ⟨g, hg, hlt.le⟩
  · exact h.linked hlinked hproc hseq

theorem Effect.stoppedReached (heff : Effect config now P db db') (hproc : db.ProcessingReached)
    (h : db.StoppedReached) : db'.StoppedReached := by
  intro c' hc' hstopped
  rcases heff.cycles_change.backward c' hc' with ⟨c, hc, hkey, hchange⟩ | hnew
  swap
  · rw [hnew.1] at hstopped
    cases hstopped
  rw [hkey]
  refine Db.Reached.step ?_ heff
  cases hchange with
  | keeps hstatus _ => exact h c hc (hstatus ▸ hstopped)
  | superseded j hlinked hseq hreason hcycle _ _ =>
    rw [hcycle, hlinked.cycle_owns.2.1, hlinked.cycle_owns.2.2.1, hlinked.cycle_owns.2.2.2]
    exact hreason.reached hproc hlinked hseq
  | closed hcurrent _ _ => exact hcurrent.reached
  | activated _ _ _ _ _ hstatus => simp [hstatus] at hstopped
  | outdated _ _ _ _ _ _ hstatus _ => simp [hstatus] at hstopped
  | opened _ _ _ _ _ _ hstatus _ => simp [hstatus] at hstopped
  | waited _ _ _ _ _ hstatus => simp [hstatus] at hstopped
  | manual _ _ _ _ hstatus => simp [hstatus] at hstopped

/-- The two facts together. -/
structure Db.GenerationsReached (db : Db) : Prop where
  processing : db.ProcessingReached
  stopped : db.StoppedReached

theorem Effect.generationsReached (heff : Effect config now P db db')
    (h : db.GenerationsReached) : db'.GenerationsReached :=
  ⟨heff.processingReached h.processing, heff.stoppedReached h.processing h.stopped⟩

end LlmGateway
