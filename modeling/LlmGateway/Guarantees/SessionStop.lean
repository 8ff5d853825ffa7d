import LlmGateway.Effect.Closing
import LlmGateway.System.Scenario
import LlmGateway.System.Terminal

/-!
# Stopping a session

`close_generation` is one transaction over five tables. When it is applied nothing of the
cycle is left open and no row of another cycle or session differs; when it is fenced, or when
one of its statements raises, nothing has changed.
-/

namespace LlmGateway

open Relational

/-- What `close_generation` leaves behind when it is applied. -/
structure ClosedBy (c : ClaimedEvent) (db db' : Db) : Prop where
  event : ∃ e ∈ db'.events, e.id = c.rowId ∧ e.status = .succeeded
  cycle : ∃ r ∈ db'.cycles, r.id = c.cycleId ∧ r.status = .stopped
  session : ∃ s ∈ db.sessions, s.gatewayId = c.gatewayId ∧ s.sessionId = c.sessionId ∧
    { s with status := .stopped, fenceVersion := s.fenceVersion + 1 } ∈ db'.sessions ∧
    db.SameOutside db' s.id c.cycleId
  decisions : ∀ d ∈ db'.decisions, d.cycleId = c.cycleId →
    d.status ≠ .planned ∧ d.status ≠ .sending ∧ d.status ≠ .retryableFailed
  calls : ∀ k ∈ db'.calls, db'.OfCycle c.cycleId k.toCallKey →
    k.status ≠ .pending ∧ k.status ≠ .started
  events : ∀ e ∈ db'.events, e.cycleId = c.cycleId → e.status.isOpen = false
  other_tracking : ∀ d ∈ db.decisions, d.cycleId ≠ c.cycleId → ∀ t ∈ d.actionTrackingId,
    ∀ a : TrackingRow, a.id = t → (a ∈ db'.tracking ↔ a ∈ db.tracking)

theorem ClosingSteps.closedBy {db db' finished : Db} {c : ClaimedEvent}
    {payload : SessionStoppedPayload} {j : Joined} (h : ClosingSteps c payload db db' j finished)
    (hlinked : db.Linked j) (hdesc : c.Describes j.event.toEventKey) (htracked : db.Tracked) :
    ClosedBy c db db' where
  event := h.event_succeeded
  cycle := h.cycle_stopped
  session := ⟨j.session, hlinked.session_mem,
    hlinked.session_names.1.trans hdesc.gatewayId.symm,
    hlinked.session_names.2.trans hdesc.sessionId.symm, h.session_stopped,
    h.sameOutside hlinked hdesc⟩
  decisions d hd hcycle := by
    have hclosed := h.decisions_closed hd hcycle
    refine ⟨?_, ?_, ?_⟩ <;> intro hstatus <;> rw [hstatus] at hclosed <;> cases hclosed
  calls k hk hcycle := by
    have hclosed := h.calls_closed hk hcycle
    refine ⟨?_, ?_⟩ <;> intro hstatus <;> rw [hstatus] at hclosed <;> cases hclosed
  events e he hcycle := h.events_closed hlinked hdesc he hcycle
  other_tracking d hd hcycle t ht a ha :=
    h.tracking_same (ha ▸ htracked.not_trackedBy hd hcycle ht)

namespace World

variable {config : SystemConfig} {w : World}

/-- In every reachable state `close_generation` closes the whole generation and nothing else,
or it leaves everything as it is, unless it reports a conflict. -/
theorem closeGeneration_of_reachable (hw : w.Reachable config) {token : Uuid} {c : ClaimedEvent}
    (hc : w.claim? token = some c) {position : Position} {payload : SessionStoppedPayload}
    (hbody : c.event.body = .sequenced position (.sessionStopped payload)) :
    let w' := w.exec config (.record token)
    (∀ result db', closeGeneration c payload w.db = .ok (result, db') → w'.db = db' ∧
      (result.disposition = .applied → ClosedBy c w.db w'.db) ∧
      (result.disposition = .fenced → w'.db = w.db)) ∧
    (∀ failure, closeGeneration c payload w.db = .error failure → w'.db = w.db) := by
  intro w'
  have hw' : w' = w.commit (closeGeneration c payload w.db) := record_stop hc hbody
  refine ⟨fun result db' hclose ↦ ?_, fun failure hclose ↦ ?_⟩
  · have hdb : w'.db = db' := by
      rw [hw', hclose]
      rfl
    refine ⟨hdb, fun happlied ↦ ?_, fun hfenced ↦ ?_⟩
    · obtain ⟨j, finished, hsteps⟩ := closeGeneration_applied hclose happlied
      have hlinked := hw.sound.integrity.linked (lockClaim_eq_some.1 hsteps.lock_eq).1
      have hdesc := hw.sound.describes_locked (mem_claims_of_claim? hc) hsteps.lock_eq
      rw [hdb]
      exact hsteps.closedBy hlinked hdesc hw.tracked
    · rw [hdb]
      exact closeGeneration_fenced hclose hfenced
  · rw [hw', hclose]
    rfl

open Scenario in
/-- A session is stopped while the call of a `stop_hosting` decision is open. -/
theorem closed_after_response :
    let w := after [submit [sessionStarted "e1" 1 "L1" 1], claim, .persist (token 3),
      .plan (token 3) ⟨"stop", 100, .stopHosting⟩ "d", finish 3, .claimDecision "worker",
      .recordResponse (token 5) ⟨200, .accepted, "ok", some "call", none⟩,
      submit [plain "e2" 1 2 0 stopped], claim]
    (w.db.calls.rows.map fun k ↦ k.status) = [.pending] ∧
      ∃ c ∈ w.claim? (token 8), ClosedBy c w.db (w.exec Scenario.config (.record (token 8))).db := by
  intro w
  have hclaim : ∃ c ∈ w.claims, w.claim? (token 8) = some c ∧
      c.event.body = .sequenced (position 1 2) stopped.1 ∧
      ∃ closed ∈ (closeGeneration c ⟨"stop_hosting_requested", 0⟩ w.db).toOption,
        closed.1.disposition = .applied := by
    decide
  obtain ⟨c, -, hc, hbody, closed, hclosed, happlied⟩ := hclaim
  refine ⟨by decide, c, hc, ?_⟩
  cases hclose : closeGeneration c ⟨"stop_hosting_requested", 0⟩ w.db with
  | error failure =>
    rw [hclose] at hclosed
    cases hclosed
  | ok committed =>
    rw [hclose] at hclosed
    cases hclosed
    exact ((closeGeneration_of_reachable (reachable_after _ _) hc hbody).1 _ _ hclose).2.1 happlied

end World

end LlmGateway
