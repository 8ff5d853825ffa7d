import LlmGateway.System.Run
import LlmGateway.System.Scenario

/-!
# Casts of stored integers

Three transactions cast integers of stored bodies to `bigint`: the discarding of stale events
casts `occurredAtMs` of every open event, the heartbeat and the persistence of a lease
context cast `stateVersion`. The contract bounds neither. In a reachable state the casts
succeed exactly where the integers that they meet are in range.
-/

namespace LlmGateway

open Relational

variable {config : SystemConfig} {w : World}

/-- The context of a claimed event repeats the columns of the claim. -/
theorem ClaimedEvent.Describes.matches {c : ClaimedEvent} {e : EventKey} (h : c.Describes e)
    (hsound : e.Sound) {context : AgentContext} (hcontext : buildAgentContext c.event = some context) :
    context.Matches c := by
  have hbody := h.event
  unfold buildAgentContext at hcontext
  split at hcontext
  · rename_i position payload hpayload
    obtain ⟨offer, -, rfl⟩ := Option.map_eq_some_iff.1 hcontext
    have hposition : e.eventBody.position? = some position := by
      rw [← hbody]
      simp only [GatewayEvent.position?, hpayload]
    obtain ⟨hgeneration, hsequence⟩ := hsound.position position hposition
    refine ⟨?_, ?_, ?_, ?_⟩
    · rw [hbody, h.eventId, hsound.eventId]
    · rw [hbody, h.sessionId, hsound.sessionId]
    · rw [h.controlGeneration, hgeneration]
    · rw [h.eventSequence, hsequence]
  · cases hcontext

theorem World.Sound.matches (hw : w.Sound config) {c : ClaimedEvent} (hc : c ∈ w.claims)
    {context : AgentContext} (hcontext : buildAgentContext c.event = some context) :
    context.Matches c := by
  obtain ⟨e, he, hdesc⟩ := hw.describes c hc
  exact hdesc.matches (hw.integrity.event_sound e he) hcontext

/-! ## The three transactions -/

theorem discardStaleEvents_fails_iff {maxAgeMs now : ℕ} {db : Db} :
    discardStaleEvents (some maxAgeMs) now db = .error .dataError ↔ db.StaleCastFails := by
  unfold discardStaleEvents
  simp only
  split_ifs with h
  · simp only [h]
  · simp only [h]

theorem renewEventClaim_fails_iff {config : WorkerConfig} {now : ℕ} {c : ClaimedEvent} {db : Db} :
    renewEventClaim config now c db = .error .dataError ↔
      ∃ j ∈ db.lockClaim c, (∃ t ∈ j.event.lockUntil, now < t) ∧ j.RenewCastFails := by
  unfold renewEventClaim
  cases hlock : db.lockClaim c with
  | none => simp only [reduceCtorEq, Option.mem_def, false_and, exists_false]
  | some j =>
    simp only [Option.mem_def, Option.some.injEq, exists_eq_left']
    split_ifs with hlive hcast hrenew
    · simp only [hcast, and_true, true_iff]
      exact hlive
    · simp only [hcast, and_false]
    · simp only [hcast, and_false]
    · simp only [hlive, false_and]

theorem persistLeaseContext_fails_iff {c : ClaimedEvent} {context : AgentContext} {db : Db}
    (h : context.Matches c) :
    persistLeaseContext c context db = .error .dataError ↔
      bigintMax < context.stateVersion ∨
        ((∃ j ∈ db.lockClaim c, j.Persistable c) ∧ db.supersedeCastFails c context) := by
  unfold persistLeaseContext
  rw [if_neg (not_not.2 h)]
  by_cases hversion : bigintMax < context.stateVersion
  · rw [if_pos hversion]
    simp only [hversion, true_or]
  rw [if_neg hversion]
  simp only [hversion, false_or]
  cases hlock : (db.lockClaim c).filter fun j ↦ decide (j.Persistable c) with
  | none =>
    have hnone : ¬∃ j ∈ db.lockClaim c, j.Persistable c := by
      simpa only [Option.filter_eq_none_iff, decide_eq_true_eq, not_exists, not_and,
        Option.mem_def] using hlock
    simp only [hnone, reduceCtorEq, false_and]
  | some j =>
    have hsome : ∃ j ∈ db.lockClaim c, j.Persistable c := by
      obtain ⟨hj, hpersistable⟩ := Option.filter_eq_some_iff.1 hlock
      exact ⟨j, hj, of_decide_eq_true hpersistable⟩
    simp only [hsome, true_and]
    split_ifs with hcast
    · simp only [hcast]
    · simp only [hcast]

/-! ## States in which the casts succeed -/

namespace World

/-- No cast fails, whatever the age limit and whichever claim is worked on. -/
structure CastsSucceed (config : SystemConfig) (w : World) : Prop where
  discards : ∀ maxAgeMs, discardStaleEvents maxAgeMs w.now w.db ≠ .error .dataError
  renews : ∀ c ∈ w.claims, renewEventClaim config.events w.now c w.db ≠ .error .dataError
  persists : ∀ c ∈ w.claims, ∀ context ∈ buildAgentContext c.event,
    persistLeaseContext c context w.db ≠ .error .dataError

/-- The claimed event is compared with the lease of its open cycle: it is no chat, its claim
has not expired, it names the latest lease of the cycle and its fence is the current one. -/
def Renewing (w : World) (j : Joined) : Prop :=
  (∃ t ∈ j.event.lockUntil, w.now < t) ∧ j.event.eventType.isHostedChat = false ∧
    j.FenceCurrent ∧ j.cycle.latestDecisionLeaseId.isSome ∧
    j.cycle.latestDecisionLeaseId = j.event.eventBody.decisionLeaseId

/-- The integers that the casts meet are at most the largest `bigint`. -/
structure InRange (w : World) : Prop where
  occurredAtMs : ∀ e ∈ w.db.events, e.status.isOpen = true →
    e.eventBody.occurredAtMs ≤ bigintMax
  leaseVersion : ∀ c ∈ w.claims, c.event.offer?.isSome = true → c.event.stateVersion ≤ bigintMax
  renewedVersion : ∀ c ∈ w.claims, ∀ j ∈ w.db.lockClaim c, w.Renewing j →
    j.event.eventBody.stateVersion ≤ bigintMax
  replacedVersion : ∀ c ∈ w.claims, (∃ j ∈ w.db.lockClaim c, j.Persistable c) →
    c.event.offer?.isSome = true → ∀ e ∈ w.db.events, Db.OlderLeaseEvent c e →
    e.eventBody.decisionLeaseId = c.event.decisionLeaseId → e.eventBody.stateVersion ≤ bigintMax

/-- In a reachable state the casts succeed exactly where the integers are in range. -/
theorem castsSucceed_iff (hw : w.Reachable config) : w.CastsSucceed config ↔ w.InRange := by
  have hpersist {c : ClaimedEvent} (hc : c ∈ w.claims) {context : AgentContext}
      (hcontext : buildAgentContext c.event = some context) :
      persistLeaseContext c context w.db = .error .dataError ↔ _ :=
    persistLeaseContext_fails_iff (hw.sound.matches hc hcontext)
  have hoffer (c : ClaimedEvent) : c.event.offer?.isSome = true ↔
      ∃ context, buildAgentContext c.event = some context := by
    rw [← buildAgentContext_isSome, Option.isSome_iff_exists]
  constructor
  · intro h
    refine ⟨fun e he hopen ↦ ?_, fun c hc hsome ↦ ?_, fun c hc j hj hrenewing ↦ ?_,
      fun c hc hlocked hsome e he holder hlease ↦ ?_⟩
    · by_contra hlarge
      exact h.discards (some 0) (discardStaleEvents_fails_iff.2 ⟨e, he, hopen, not_le.1 hlarge⟩)
    · obtain ⟨context, hcontext⟩ := (hoffer c).1 hsome
      by_contra hlarge
      apply h.persists c hc context hcontext
      rw [hpersist hc hcontext, ← (lease_of_buildAgentContext hcontext).2]
      exact Or.inl (not_le.1 hlarge)
    · by_contra hlarge
      obtain ⟨hlock, hchat, hfence, hcycle, hlease⟩ := hrenewing
      exact h.renews c hc (renewEventClaim_fails_iff.2
        ⟨j, hj, hlock, hchat, hfence, hcycle, hlease, not_le.1 hlarge⟩)
    · obtain ⟨context, hcontext⟩ := (hoffer c).1 hsome
      by_contra hlarge
      apply h.persists c hc context hcontext
      rw [hpersist hc hcontext]
      refine Or.inr ⟨hlocked, e, he, holder, ?_, not_le.1 hlarge⟩
      rw [hlease, (lease_of_buildAgentContext hcontext).1]
  · intro h
    refine ⟨fun maxAgeMs ↦ ?_, fun c hc hfails ↦ ?_, fun c hc context hcontext hfails ↦ ?_⟩
    · cases maxAgeMs with
      | none => simp only [discardStaleEvents, ne_eq, reduceCtorEq, not_false_eq_true]
      | some maxAgeMs =>
        intro hfails
        obtain ⟨e, he, hopen, hlarge⟩ := discardStaleEvents_fails_iff.1 hfails
        exact absurd (h.occurredAtMs e he hopen) (not_le.2 hlarge)
    · obtain ⟨j, hj, hlock, hchat, hfence, hcycle, hlease, hlarge⟩ :=
        renewEventClaim_fails_iff.1 hfails
      exact absurd (h.renewedVersion c hc j hj ⟨hlock, hchat, hfence, hcycle, hlease⟩)
        (not_le.2 hlarge)
    · have hsome := (hoffer c).2 ⟨context, hcontext⟩
      obtain ⟨hid, hversion⟩ := lease_of_buildAgentContext hcontext
      rcases (hpersist hc hcontext).1 hfails with hlarge | ⟨hlocked, e, he, holder, hlease, hlarge⟩
      · rw [← hversion] at hlarge
        exact absurd (h.leaseVersion c hc hsome) (not_le.2 hlarge)
      · exact absurd (h.replacedVersion c hc hlocked hsome e he holder (hlease.trans hid.symm))
          (not_le.2 hlarge)

/-- A run whose stored events are all in range meets no failing cast. -/
theorem inRange_of_events (hw : w.Sound config)
    (h : ∀ e ∈ w.db.events, e.eventBody.occurredAtMs ≤ bigintMax ∧
      (e.eventBody.decisionLeaseId.isSome = true → e.eventBody.stateVersion ≤ bigintMax)) :
    w.InRange where
  occurredAtMs e he _ := (h e he).1
  leaseVersion c hc hsome := by
    obtain ⟨e, he, hdesc⟩ := hw.describes c hc
    obtain ⟨offer, hoffer⟩ := Option.isSome_iff_exists.1 hsome
    rw [hdesc.event] at hoffer ⊢
    apply (h e he).2
    rw [(GatewayEvent.lease_of_offer? hoffer).1]
    rfl
  renewedVersion c _ j hj hrenewing := by
    obtain ⟨hjoins, -⟩ := lockClaim_eq_some.1 hj
    apply (h j.event hjoins.event_mem).2
    rw [← hrenewing.2.2.2.2]
    exact hrenewing.2.2.2.1
  replacedVersion _ _ _ _ e he holder _ := (h e he).2 holder.2.2.2.2.2

section Runs

open Scenario

/-- One event far in the future fails the discarding, which precedes every claim. -/
theorem discard_fails_at_bigint :
    ¬(after [submit [sessionStarted "e1" 1 "L1" 1], submit [plain "e2" 1 2 (2 ^ 63)
      (started "d")]]).CastsSucceed Scenario.config := by
  intro h
  exact h.discards (some 50) (discardStaleEvents_fails_iff.2 (by decide))

theorem casts_succeed_at_start :
    (after [submit [sessionStarted "e1" 1 "L1" 1, plain "e2" 1 2 (2 ^ 63 - 1) (started "d")],
      claim]).CastsSucceed Scenario.config := by
  apply (castsSucceed_iff (reachable_after _ _)).2
  apply inRange_of_events (reachable_after _ _).sound
  decide

end Runs

end World

end LlmGateway
