import LlmGateway.System.Run
import LlmGateway.System.Scenario

/-!
# Ownership of an event

Whatever workers and janitors do, and in whatever order, a claim is exclusive: an event has a
claim exactly while it is processed, at most one claim that was handed out is accepted for
it, a claim that was lost has no effect, and an event that was closed stays as it is.
-/

namespace LlmGateway

open Relational

variable {config : SystemConfig} {w : World}

/-- The statuses that end the life of an event. -/
def EventStatus.isTerminal : EventStatus → Bool
  | succeeded | superseded | manual | deadLetter => true
  | _ => false

theorem EventStatus.isTerminal_eq (status : EventStatus) :
    status.isTerminal = !status.isOpen := by
  cases status <;> rfl

/-- A claim is lost when no row is under its token any more. -/
def ClaimedEvent.Lost (c : ClaimedEvent) (db : Db) : Prop :=
  ∀ e ∈ db.events, e.id = c.rowId → e.claimToken ≠ some c.claimToken

theorem lockClaim_eq_none {db : Db} {c : ClaimedEvent} (h : c.Lost db) : db.lockClaim c = none := by
  rcases hlock : db.lockClaim c with _ | j
  · rfl
  · obtain ⟨hjoins, hid, hheld⟩ := lockClaim_eq_some.1 hlock
    exact absurd hheld.1 (h j.event hjoins.event_mem hid)

/-- A lost claim is neither renewed nor completed, and no row changes. -/
theorem renew_complete_of_lost {db : Db} {c : ClaimedEvent} (h : c.Lost db)
    (config : WorkerConfig) (now : ℕ) (result : EventProcessResult) :
    renewEventClaim config now c db = .ok (false, db) ∧
      completeEvent config now c result db = (false, db) := by
  simp only [renewEventClaim, completeEvent, lockClaim_eq_none h, and_self]

namespace World

/-- What exclusive ownership of the events means in a state. -/
structure Exclusive (config : SystemConfig) (w : World) : Prop where
  claimToken_iff : ∀ e ∈ w.db.events, e.claimToken.isSome = true ↔ e.status = .processing
  lockedBy_iff : ∀ e ∈ w.db.events, e.lockedBy.isSome = true ↔ e.status = .processing
  lockUntil_iff : ∀ e ∈ w.db.events, e.lockUntil.isSome = true ↔ e.status = .processing
  one_claim : ∀ e ∈ w.db.events, e.status = .processing → ∃! c, c ∈ w.claims ∧ e.HeldBy c
  one_event : ∀ e ∈ w.db.events, ∀ e' ∈ w.db.events, ∀ t ∈ e.claimToken, t ∈ e'.claimToken →
    e = e'
  lost_has_no_effect : ∀ c : ClaimedEvent, c.Lost w.db → ∀ now result,
    renewEventClaim config.events now c w.db = .ok (false, w.db) ∧
      completeEvent config.events now c result w.db = (false, w.db)
  terminal_stays : ∀ e ∈ w.db.events, e.status.isTerminal = true →
    ∀ actions, e ∈ (run (exec config) w actions).db.events
  attempts_le : ∀ e ∈ w.db.events, e.attemptCount ≤ config.events.maxAttempts

theorem Sound.existsUnique_claim (hw : w.Sound config) {e : EventRow} (he : e ∈ w.db.events)
    (hproc : e.status = .processing) : ∃! c, c ∈ w.claims ∧ e.HeldBy c := by
  obtain ⟨t, ht⟩ := Option.isSome_iff_exists.1 ((hw.shape e he).claimToken.2 hproc)
  obtain ⟨c, hc, htoken, -, hfence⟩ := hw.claimed e he t ht
  refine ⟨c, ⟨hc, by rw [ht, htoken], hfence, hproc⟩, ?_⟩
  rintro c' ⟨hc', htoken', -⟩
  refine hw.claim_eq hc' hc ?_
  rw [ht] at htoken'
  exact (Option.some.inj htoken').symm.trans htoken.symm

theorem Sound.terminal_stays (hw : w.Sound config) {e : EventRow} (he : e ∈ w.db.events)
    (hterminal : e.status.isTerminal = true) (actions : List Action) :
    e ∈ (run (exec config) w actions).db.events := by
  obtain ⟨e', he', hlater⟩ := (hw.later actions).events e he
  rw [EventStatus.isTerminal_eq, Bool.not_eq_true'] at hterminal
  rwa [hlater.closed hterminal] at he'

/-- In every reachable state the events are owned exclusively. -/
theorem exclusive_of_reachable (hw : w.Reachable config) : w.Exclusive config where
  claimToken_iff e he := (hw.sound.shape e he).claimToken
  lockedBy_iff e he := (hw.sound.shape e he).lockedBy
  lockUntil_iff e he := (hw.sound.shape e he).lockUntil
  one_claim _ he := hw.sound.existsUnique_claim he
  one_event := hw.sound.integrity.token_unique
  lost_has_no_effect _ hlost now result := renew_complete_of_lost hlost config.events now result
  terminal_stays _ he hterminal := hw.sound.terminal_stays he hterminal
  attempts_le e he := (hw.sound.shape e he).attempts

open Scenario in
/-- A claim expires, its event is claimed again, and the first claim is lost. -/
theorem exclusive_after_reclaim :
    let w := after [submit [sessionStarted "e1" 1 "L1" 1], claim, .tick 100, claim]
    w.claims.length = 2 ∧ (∀ c ∈ w.claims.head?, c.Lost w.db) ∧ w.Exclusive Scenario.config :=
  ⟨by decide, by unfold ClaimedEvent.Lost; decide,
    exclusive_of_reachable (reachable_after _ _)⟩

end World

end LlmGateway
