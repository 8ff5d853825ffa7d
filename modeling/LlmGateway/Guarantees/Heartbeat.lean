import LlmGateway.Effect.Completion
import LlmGateway.System.Scenario

/-!
# The heartbeat and the completion

Both decide whether a claim that is still held is still good, the heartbeat in one statement,
the completion in Python. They agree on hosted chat events; on a claim of the current
generation they agree as long as the cycle is open and no other lease has replaced the one of
the event, and on a historical recovery as long as the cycle is superseded.
-/

namespace LlmGateway

open Relational

/-- Where the heartbeat accepts every claim that a completion would honour. -/
def Joined.HeartbeatHolds (j : Joined) : Prop :=
  j.event.eventType.isHostedChat = true ∨
    ((j.session.currentGeneration = some j.event.controlGeneration →
        j.event.claimedFenceVersion = some j.session.fenceVersion →
        (j.cycle.status = .pending ∨ j.cycle.status = .active) ∧ j.SameLease ∧
          ¬j.RenewCastFails) ∧
      ((∃ g ∈ j.session.currentGeneration, j.event.controlGeneration < g) →
        j.event.eventType.isConvergence = true → j.cycle.status = .superseded))

section Predicates

variable {config : WorkerConfig} {now : ℕ} {db : Db} {c : ClaimedEvent} {j : Joined}

/-- A completion honours the claims that pass the fence check. -/
theorem completeEvent_honours_iff (hlock : db.lockClaim c = some j) (result : EventProcessResult) :
    (completeEvent config now c result db).1 = true ↔ j.ClaimValid j.event.claimedFenceVersion := by
  obtain ⟨-, -, -, hfence, -⟩ := lockClaim_eq_some.1 hlock
  rw [hfence]
  unfold completeEvent
  rw [hlock]
  simp only
  split_ifs with hvalid
  · rcases result.outcome with _ | _ | _ <;> simp only [hvalid]
  · simp only [hvalid]

/-- A heartbeat of a claim that has not expired succeeds when its condition holds. -/
theorem renewEventClaim_succeeds_iff (hlock : db.lockClaim c = some j)
    (hlive : ∃ t ∈ j.event.lockUntil, now < t) :
    (∃ db', renewEventClaim config now c db = .ok (true, db')) ↔
      j.Renewable ∧ ¬j.RenewCastFails := by
  unfold renewEventClaim
  rw [hlock]
  simp only
  rw [if_neg (not_not.2 hlive)]
  split_ifs with hcast hrenewable
  · simp only [exists_false, hcast, not_true_eq_false, and_false]
  · simp only [Except.ok.injEq, Prod.mk.injEq, true_and, exists_eq', hrenewable, hcast,
      not_false_eq_true, and_self]
  · simp only [Except.ok.injEq, Prod.mk.injEq, Bool.false_eq_true, false_and, exists_false,
      hrenewable]

/-- The fence check of a sequenced event, in terms of the generations. -/
theorem Joined.claimValid_iff (hseq : j.event.eventType.isHostedChat = false)
    {fence : Option ℕ} : j.ClaimValid fence ↔
      ((∃ g ∈ j.session.currentGeneration, j.event.controlGeneration < g) ∧
          j.event.eventType.isConvergence = true) ∨
        (j.session.currentGeneration = some j.event.controlGeneration ∧
          fence = some j.session.fenceVersion) := by
  constructor
  · rintro (hchat | hdisp | ⟨hdisp, hfence⟩)
    · simp [hseq] at hchat
    · exact Or.inl (generation_of_historicalRecovery hdisp)
    · exact Or.inr ⟨generation_of_current hdisp hseq, hfence⟩
  · rintro (⟨⟨g, hg, hlt⟩, hconvergence⟩ | ⟨hcurrent, hfence⟩)
    · refine Or.inr (Or.inl ?_)
      have hnot : ¬∀ g ∈ j.session.currentGeneration, g < j.event.controlGeneration :=
        fun h ↦ lt_asymm (h g hg) hlt
      have hne : j.session.currentGeneration ≠ some j.event.controlGeneration := by
        intro heq
        rw [heq] at hg
        exact hlt.ne (Option.some.inj hg)
      rw [disposition_of_sequenced hseq, classifyGeneration, if_neg hnot, if_neg hne,
        if_pos hconvergence]
    · refine Or.inr (Or.inr ⟨?_, hfence⟩)
      have hnot : ¬∀ g ∈ j.session.currentGeneration, g < j.event.controlGeneration :=
        fun h ↦ lt_irrefl _ (h _ hcurrent)
      rw [disposition_of_sequenced hseq, classifyGeneration, if_neg hnot, if_pos hcurrent]

/-- For a claim that is held and has not expired, the heartbeat accepts what a completion
honours exactly where `HeartbeatHolds`. -/
theorem renew_of_honoured_iff (config : WorkerConfig) (hlock : db.lockClaim c = some j)
    (hlive : ∃ t ∈ j.event.lockUntil, now < t) :
    (∀ result, (completeEvent config now c result db).1 = true →
      ∃ db', renewEventClaim config now c db = .ok (true, db')) ↔ j.HeartbeatHolds := by
  have hhonours (h : ∀ result, (completeEvent config now c result db).1 = true →
      ∃ db', renewEventClaim config now c db = .ok (true, db')) :
      j.ClaimValid j.event.claimedFenceVersion → j.Renewable ∧ ¬j.RenewCastFails :=
    fun hvalid ↦ (renewEventClaim_succeeds_iff hlock hlive).1
      (h ⟨.succeeded, none, none⟩ ((completeEvent_honours_iff hlock _).2 hvalid))
  constructor
  · intro h
    by_cases hchat : j.event.eventType.isHostedChat = true
    · exact Or.inl hchat
    rw [Bool.not_eq_true] at hchat
    refine Or.inr ⟨fun hcurrent hfence ↦ ?_, fun hlater hconvergence ↦ ?_⟩
    · obtain ⟨hrenewable, hcast⟩ :=
        hhonours h ((Joined.claimValid_iff hchat).2 (Or.inr ⟨hcurrent, hfence⟩))
      rcases hrenewable with hchat' | ⟨hopen, hlease⟩ | ⟨-, ⟨g, hg, hlt⟩, -⟩
      · simp [hchat] at hchat'
      · exact ⟨hopen.1, hlease, hcast⟩
      · rw [hcurrent] at hg
        exact absurd (Option.some.inj hg) hlt.ne
    · obtain ⟨hrenewable, -⟩ :=
        hhonours h ((Joined.claimValid_iff hchat).2 (Or.inl ⟨hlater, hconvergence⟩))
      rcases hrenewable with hchat' | ⟨⟨-, hcurrent, -⟩, -⟩ | ⟨hsuperseded, -⟩
      · simp [hchat] at hchat'
      · obtain ⟨g, hg, hlt⟩ := hlater
        rw [hcurrent] at hg
        exact absurd (Option.some.inj hg) hlt.ne
      · exact hsuperseded
  · intro h result hhonoured
    rw [renewEventClaim_succeeds_iff hlock hlive]
    rw [completeEvent_honours_iff hlock] at hhonoured
    by_cases hchat : j.event.eventType.isHostedChat = true
    · exact ⟨Or.inl hchat, fun hcast ↦ Bool.false_ne_true (hcast.1.symm.trans hchat)⟩
    obtain ⟨hcurrent, hhistorical⟩ := h.resolve_left hchat
    rw [Bool.not_eq_true] at hchat
    rcases (Joined.claimValid_iff hchat).1 hhonoured with ⟨hlater, hconvergence⟩ | ⟨hgen, hfence⟩
    · refine ⟨Or.inr (Or.inr ⟨hhistorical hlater hconvergence, hlater, hconvergence⟩), ?_⟩
      rintro ⟨-, ⟨-, hgen, -⟩, -⟩
      obtain ⟨g, hg, hlt⟩ := hlater
      rw [hgen] at hg
      exact hlt.ne (Option.some.inj hg)
    · obtain ⟨hopen, hlease, hcast⟩ := hcurrent hgen hfence
      exact ⟨Or.inr (Or.inl ⟨⟨hopen, hgen, hfence⟩, hlease⟩), hcast⟩

end Predicates

namespace World

section Runs

open Scenario

/-- The generation is stopped, and a late result of a skill is claimed. -/
def claimAfterStop : List Action :=
  [submit [sessionStarted "e1" 1 "L1" 1, plain "e2" 1 2 0 stopped], claim, finish 4, claim, finish 5,
    submit [plain "e3" 1 3 0 (finished "d")], claim]

/-- The claim is held and live, a completion honours it, and its heartbeat fails. -/
theorem heartbeat_fails_after_stop :
    let w := after claimAfterStop
    ∃ c ∈ w.claims, (∃ e ∈ w.db.events, e.id = c.rowId ∧ e.HeldBy c ∧
        ∃ t ∈ e.lockUntil, w.now < t) ∧
      (completeEvent worker w.now c .success w.db).1 = true ∧
      ∀ renewed ∈ (renewEventClaim worker w.now c w.db).toOption, renewed.1 = false := by
  decide

/-- The heartbeat of the session start. -/
theorem heartbeat_holds_at_start :
    let w := after [submit [sessionStarted "e1" 1 "L1" 1], claim]
    ∃ c ∈ w.claims, ∃ j, w.db.lockClaim c = some j ∧
      ((∀ result, (completeEvent worker w.now c result w.db).1 = true →
        ∃ db', renewEventClaim worker w.now c w.db = .ok (true, db')) ↔ j.HeartbeatHolds) := by
  have hheld : ∃ c ∈ (after [submit [sessionStarted "e1" 1 "L1" 1], claim]).claims,
      ∃ j ∈ (after [submit [sessionStarted "e1" 1 "L1" 1], claim]).db.lockClaim c,
        ∃ t ∈ j.event.lockUntil,
          (after [submit [sessionStarted "e1" 1 "L1" 1], claim]).now < t := by
    decide
  obtain ⟨c, hc, j, hlock, hlive⟩ := hheld
  exact ⟨c, hc, j, hlock, renew_of_honoured_iff worker hlock hlive⟩

end Runs

end World

end LlmGateway
