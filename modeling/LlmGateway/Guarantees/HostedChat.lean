import LlmGateway.Chat.Replies

/-!
# Hosted chat, one reply at a time

In every interleaving of the handlers, with any failures and cancellations, at most one handler of
a target generates and sends, and the queue, the reference counts and the locks account for the
handlers that use them.
-/

namespace LlmGateway

open Relational

namespace ChatGate

/-- The gate accounts for its handlers. -/
structure Balanced (maxQueueSize : ℕ) (gate : ChatGate) : Prop where
  /-- One handler of a target generates and sends at a time. -/
  alone : ∀ h ∈ gate.handlers, ∀ h' ∈ gate.handlers, h.target = h'.target →
    h.phase.held?.isSome → h'.phase.held?.isSome → h = h'
  queued : gate.queuedCount = gate.handlers.countP (·.phase.isQueued)
  nonneg : 0 ≤ gate.queuedCount
  bounded : gate.queuedCount ≤ maxQueueSize
  refs : ∀ target, (gate.keyRefcounts target).getD 0 = gate.users target
  /-- Nothing remains when no handler is left. -/
  empty : (∀ h ∈ gate.handlers, h.phase.isQueued = false) →
    gate.queuedCount = 0 ∧ ∀ target, gate.keyRefcounts target = none ∧ gate.locks target = none

variable {maxQueueSize : ℕ} {gate : ChatGate}

theorem getD_refcount (users : ℕ) : (refcount users).getD 0 = users := by
  unfold refcount
  split_ifs with hzero
  · rw [hzero]
    rfl
  · rfl

theorem users_eq_zero (hnone : ∀ h ∈ gate.handlers, h.phase.isQueued = false)
    (target : ChatTarget) : gate.users target = 0 := by
  apply List.countP_eq_zero.2
  intro h hh
  simp only [hnone h hh, Bool.false_and, Bool.false_eq_true, not_false_eq_true]

theorem Sound.balanced (hs : gate.Sound maxQueueSize) : gate.Balanced maxQueueSize := by
  constructor
  · exact fun h hh h' hh' htarget ↦ hs.eq_of_held hh hh' htarget
  · exact hs.queued
  · rw [hs.queued]
    exact Int.natCast_nonneg _
  · exact hs.bounded
  · intro target
    rw [hs.refs, getD_refcount]
  · intro hnone
    constructor
    · have hcount : gate.handlers.countP (·.phase.isQueued) = 0 := by
        apply List.countP_eq_zero.2
        intro h hh
        simp only [hnone h hh, Bool.false_eq_true, not_false_eq_true]
      rw [hs.queued, hcount]
      rfl
    · intro target
      have husers := users_eq_zero hnone target
      constructor
      · rw [hs.refs, husers]
        rfl
      · apply Option.eq_none_iff_forall_not_mem.2
        intro lock hlock
        have hmade := hs.made target lock hlock
        omega

end ChatGate

/-- The gate of hosted chat is balanced after every run. -/
theorem HostedChatService.run_balanced (config : HostedChatConfig) (actions : List ChatAction) :
    (run (exec config) (initial config) actions).gate.Balanced config.maxQueueSize :=
  (run_sound config actions).balanced

end LlmGateway
