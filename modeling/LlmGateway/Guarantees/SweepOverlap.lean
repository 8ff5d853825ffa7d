import LlmGateway.System.Run
import LlmGateway.System.Scenario

/-!
# The sweep and the claim query

The cleanup of closed cycles and the claim query select open events by conditions that were
written apart. They overlap: in a stopped or manual cycle the cleanup takes every open event,
and the claim query still takes the terminal events of skills and decisions and the hosted
chat events. Outside the overlap the sweep leaves alone what can be claimed or is claimed.
-/

namespace LlmGateway

open Relational

variable {config : WorkerConfig} {maxAttempts now : ℕ} {db : Db}

/-- The event is handed to a worker, and its lock has not expired. -/
def EventRow.Live (now : ℕ) (e : EventRow) : Prop :=
  e.status = .processing ∧ ∃ t ∈ e.lockUntil, now < t

/-- What the cleanup and the claim query both take, or the cleanup takes from a worker. -/
def Joined.Contested (maxAttempts now : ℕ) (j : Joined) : Prop :=
  ((j.cycle.status = .stopped ∨ j.cycle.status = .manual) ∧
    (j.event.Live now ∨ ((j.event.eventType.isConvergence ∨ j.event.eventType.isHostedChat) ∧
      j.event.Due maxAttempts now))) ∨
  (j.cycle.status = .superseded ∧ (j.event.eventType = .sessionStarted ∨
      j.event.eventType = .observationUpdated ∨ j.event.eventType = .sessionStopped) ∧
    j.event.eventSequence = j.cycle.nextEventSequence ∧ j.event.status ≠ .processing ∧
    j.event.Due maxAttempts now)

/-! ## The overlap of the two conditions -/

/-- A cycle that was closed has no cursor for the claim query. -/
theorem Joined.inClaimOrder_iff_of_closed {j : Joined}
    (h : j.cycle.status = .stopped ∨ j.cycle.status = .manual) :
    j.InClaimOrder ↔ j.event.eventType.isConvergence ∨ j.event.eventType.isHostedChat := by
  unfold Joined.InClaimOrder
  rcases h with h | h <;> simp [h]

/-- A superseded cycle hands out at its cursor what may not come out of order. -/
theorem Joined.inClaimOrder_iff_of_superseded {j : Joined} (h : j.cycle.status = .superseded)
    (htype : j.event.eventType = .sessionStarted ∨ j.event.eventType = .observationUpdated ∨
      j.event.eventType = .sessionStopped) :
    j.InClaimOrder ↔ j.event.eventSequence = j.cycle.nextEventSequence := by
  unfold Joined.InClaimOrder
  rcases htype with htype | htype | htype <;>
    simp [h, htype, EventType.isConvergence, EventType.isHostedChat]

theorem EventRow.Due.open_cases {e : EventRow} (h : e.Due maxAttempts now) :
    (e.status = .pending ∨ e.status = .retryableFailed) ∨ e.status = .processing := by
  rcases h.2 with h | h
  · exact Or.inl h.1
  · exact Or.inr h.1

/-- The contested events are the closed ones that can be claimed or have a live claim. -/
theorem Joined.contested_iff {j : Joined} (hcycle : j.event.cycleId = j.cycle.id) :
    j.Contested maxAttempts now ↔ Db.ClosedCycleEvent j.event j.cycle ∧
      (j.Claimable maxAttempts now ∨ j.event.Live now) := by
  constructor
  · intro h
    rcases h with ⟨hclosed, hlive | ⟨htype, hdue⟩⟩ | ⟨hclosed, htype, hcursor, hstatus, hdue⟩
    · exact ⟨⟨hcycle, Or.inl hclosed, Or.inr ⟨hclosed, hlive.1⟩⟩, Or.inr hlive⟩
    · have horder := (Joined.inClaimOrder_iff_of_closed hclosed).2 htype
      refine ⟨⟨hcycle, Or.inl hclosed, ?_⟩, Or.inl ⟨horder, hdue⟩⟩
      exact hdue.open_cases.imp_right fun hprocessing ↦ ⟨hclosed, hprocessing⟩
    · have horder := (Joined.inClaimOrder_iff_of_superseded hclosed htype).2 hcursor
      refine ⟨⟨hcycle, Or.inr ⟨hclosed, htype⟩, ?_⟩, Or.inl ⟨horder, hdue⟩⟩
      exact Or.inl (hdue.open_cases.resolve_right hstatus)
  · intro h
    obtain ⟨⟨-, hclosed, hopen⟩, htaken⟩ := h
    rcases hclosed with hclosed | ⟨hclosed, htype⟩
    · refine Or.inl ⟨hclosed, ?_⟩
      rcases htaken with hclaimable | hlive
      · exact Or.inr ⟨(Joined.inClaimOrder_iff_of_closed hclosed).1 hclaimable.1, hclaimable.2⟩
      · exact Or.inl hlive
    · have hwaiting : j.event.status = .pending ∨ j.event.status = .retryableFailed := by
        apply hopen.resolve_right
        simp [hclosed]
      have hidle : j.event.status ≠ .processing := by
        rcases hwaiting with hstatus | hstatus <;> simp [hstatus]
      have hclaimable := htaken.resolve_right fun hlive ↦ hidle hlive.1
      exact Or.inr ⟨hclosed, htype,
        (Joined.inClaimOrder_iff_of_superseded hclosed htype).1 hclaimable.1, hidle, hclaimable.2⟩

/-! ## What the sweep leaves alone -/

/-- A row that the cleanup does not select stays. -/
theorem mem_cleanup {j : Joined} (hjoins : db.Joins j)
    (h : ¬Db.ClosedCycleEvent j.event j.cycle) : j.event ∈ db.cleanupClosedCycleEvents.events := by
  apply Table.mem_update_of_not hjoins.event_mem
  intro hswept
  obtain ⟨c, hc, hclosed⟩ := hswept
  have heq : c = j.cycle :=
    cycleRow_eq_of_id hc hjoins.cycle_mem (hclosed.1.symm.trans hjoins.cycle_id.symm)
  exact h (heq ▸ hclosed)

/-- The sweep of one exhausted claim touches no other row. -/
theorem mem_sweepRow {j : Joined} {e : EventRow} (he : e ∈ db.events) (hne : e.id ≠ j.event.id) :
    e ∈ (sweepRow j db).events := by
  unfold sweepRow
  split_ifs
  · have hdead : e ∈ (db.deadLetterExpired j).events :=
      Table.mem_update_of_not he fun hw ↦ hne hw.1
    unfold Db.skipFrom
    split_ifs
    · exact hdead
    · exact hdead
  · exact Table.mem_update_of_not he hne

/-- The loop of the sweep touches exhausted claims only. -/
theorem mem_sweepExpiredClaims {e : EventRow} (he : e ∈ db.cleanupClosedCycleEvents.events)
    (h : ¬e.Exhausted config.maxAttempts now) :
    e ∈ (sweepExpiredClaims config now db).events := by
  unfold sweepExpiredClaims
  apply invariant_iterate (I := fun t : Db ↦ e ∈ t.events) _ he
  intro t t' hbody ht
  obtain ⟨j, hlock, rfl⟩ := Option.map_eq_some_iff.1 hbody
  obtain ⟨hjoins, hexhausted⟩ := lockExhaustedClaim_eq_some hlock
  apply mem_sweepRow ht
  intro hid
  rw [eventRow_eq_of_id ht hjoins.event_mem hid] at h
  exact h hexhausted

/-- What can be claimed, or is claimed by a worker whose lock holds, is not exhausted. -/
theorem Joined.not_exhausted {j : Joined}
    (h : j.Claimable maxAttempts now ∨ j.event.Live now) : ¬j.event.Exhausted maxAttempts now := by
  intro hexhausted
  rcases h with hclaimable | hlive
  · exact absurd hclaimable.2.1 (not_lt.2 hexhausted.2.2)
  · obtain ⟨t, ht, hnow⟩ := hlive.2
    obtain ⟨t', ht', hexpired⟩ := hexhausted.2.1
    obtain rfl : t = t' := Option.some.inj (ht.symm.trans ht')
    omega

namespace World

variable {config : SystemConfig} {w : World}

/-- The sweep takes nothing that the claim query takes or that a worker holds, and so keeps
every such row as it is. -/
structure SweepSpares (config : SystemConfig) (w : World) : Prop where
  disjoint : ∀ j, w.db.Joins j → Db.ClosedCycleEvent j.event j.cycle →
    ¬j.Claimable config.events.maxAttempts w.now ∧ ¬j.event.Live w.now
  kept : ∀ j, w.db.Joins j → j.Claimable config.events.maxAttempts w.now ∨ j.event.Live w.now →
    j.event ∈ (w.exec config .sweep).db.events

/-- The sweep spares the workers exactly where no stored event is contested. -/
theorem sweepSpares_iff :
    w.SweepSpares config ↔
      ∀ j, w.db.Joins j → ¬j.Contested config.events.maxAttempts w.now := by
  constructor
  · intro h j hjoins hcontested
    obtain ⟨hclosed, htaken⟩ := (Joined.contested_iff hjoins.cycle_id.symm).1 hcontested
    obtain ⟨hclaimable, hlive⟩ := h.disjoint j hjoins hclosed
    exact htaken.elim hclaimable hlive
  · intro h
    have hapart (j : Joined) (hjoins : w.db.Joins j)
        (htaken : j.Claimable config.events.maxAttempts w.now ∨ j.event.Live w.now) :
        ¬Db.ClosedCycleEvent j.event j.cycle := fun hclosed ↦
      h j hjoins ((Joined.contested_iff hjoins.cycle_id.symm).2 ⟨hclosed, htaken⟩)
    constructor
    · intro j hjoins hclosed
      exact ⟨fun hclaimable ↦ hapart j hjoins (Or.inl hclaimable) hclosed,
        fun hlive ↦ hapart j hjoins (Or.inr hlive) hclosed⟩
    · intro j hjoins htaken
      exact mem_sweepExpiredClaims (mem_cleanup hjoins (hapart j hjoins htaken))
        (Joined.not_exhausted htaken)

section Runs

open Scenario

/-- A `skill_finished` that comes after the stop of its generation. -/
def finishedLate : List Action :=
  [submit [sessionStarted "e1" 1 "L1" 1, plain "e2" 1 2 0 stopped], claim, finish 4, claim,
    finish 5, submit [plain "e3" 1 3 0 (finished "d")]]

/-- Whether the late event is processed depends on whether the sweep or a worker comes first. -/
theorem sweep_and_claim_race :
    ¬(after finishedLate).SweepSpares Scenario.config ∧
      (after (finishedLate ++ [claim])).claims.length = 3 ∧
      (after (finishedLate ++ [.sweep, claim])).claims.length = 2 := by
  refine ⟨fun h ↦ ?_, by decide, by decide⟩
  have hlate : ∃ j ∈ (after finishedLate).db.joinedEvents,
      Db.ClosedCycleEvent j.event j.cycle ∧
        j.Claimable Scenario.config.events.maxAttempts (after finishedLate).now := by
    decide
  obtain ⟨j, hj, hclosed, hclaimable⟩ := hlate
  exact (h.disjoint j (mem_joinedEvents.1 hj) hclosed).1 hclaimable

end Runs

end World

end LlmGateway
