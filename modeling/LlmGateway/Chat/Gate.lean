import LlmGateway.Chat.Hosted

/-!
# The gate of hosted chat

The queue counts the handlers that have entered it, and an entry of the reference counts the
handlers of its target. The lock of a target stays the same object as long as a handler uses it,
so the handlers that hold it exclude each other.
-/

namespace LlmGateway

open Relational

/-! ## Counting handlers -/

section Count

variable {α : Type*} [DecidableEq α] {l : List α} {a : α}

theorem countP_erase_add (p : α → Bool) (h : a ∈ l) :
    (l.erase a).countP p + (if p a then 1 else 0) = l.countP p := by
  rw [(List.perm_cons_erase h).countP_eq p, List.countP_cons]

theorem countP_replace_add (p : α → Bool) (h : a ∈ l) (b : α) :
    (l.erase a ++ [b]).countP p + (if p a then 1 else 0) = l.countP p + (if p b then 1 else 0) := by
  rw [List.countP_append, List.countP_singleton, ← countP_erase_add p h]
  omega

end Count

namespace ChatGate

/-- How many handlers in the queue use the key. -/
def users (gate : ChatGate) (target : ChatTarget) : ℕ :=
  gate.handlers.countP fun h ↦ h.phase.isQueued && h.target = target

/-- The entry of a key that this many handlers use. -/
def refcount (users : ℕ) : Option ℤ := if users = 0 then none else some users

/-- The invariant of the gate. -/
structure Sound (maxQueueSize : ℕ) (gate : ChatGate) : Prop where
  nodup : (gate.handlers.map (·.id)).Nodup
  issued : ∀ h ∈ gate.handlers, h.id < gate.handlerCount
  queued : gate.queuedCount = gate.handlers.countP (·.phase.isQueued)
  bounded : gate.queuedCount ≤ maxQueueSize
  refs : ∀ target, gate.keyRefcounts target = refcount (gate.users target)
  made : ∀ target, ∀ lock ∈ gate.locks target, lock < gate.lockCount ∧ 0 < gate.users target
  apart : ∀ target target', ∀ lock ∈ gate.locks target, lock ∈ gate.locks target' → target = target'
  lock_of : ∀ h ∈ gate.handlers, ∀ lock ∈ h.phase.lock?, gate.locks h.target = some lock
  held : ∀ h ∈ gate.handlers, ∀ lock ∈ h.phase.held?, gate.lockHeld lock = true
  exclusive : ∀ h ∈ gate.handlers, ∀ h' ∈ gate.handlers, ∀ lock ∈ h.phase.held?,
    lock ∈ h'.phase.held? → h = h'

variable {maxQueueSize : ℕ} {gate : ChatGate} {h : ChatHandler} {target : ChatTarget}

theorem mem_of_handler? {id : ℕ} (hfind : gate.handler? id = some h) : h ∈ gate.handlers :=
  List.mem_of_find?_eq_some hfind

theorem lock_of_held {phase : ChatPhase} {lock : ℕ} (hheld : lock ∈ phase.held?) :
    lock ∈ phase.lock? := by
  cases phase with
  | auditing | queued | locking => cases hheld
  | building | reporting | sending => exact hheld

theorem isQueued_of_lock {phase : ChatPhase} {lock : ℕ} (hlock : lock ∈ phase.lock?) :
    phase.isQueued = true := by
  cases phase with
  | auditing => cases hlock
  | queued | locking | building | reporting | sending => rfl

/-- A handler in the queue is one of the users of its key. -/
theorem users_pos (hh : h ∈ gate.handlers) (hqueued : h.phase.isQueued = true) :
    0 < gate.users h.target :=
  List.countP_pos_iff.2 ⟨h, hh, by simp only [hqueued, decide_true, Bool.and_self]⟩

namespace Sound

theorem nodup_handlers (hs : gate.Sound maxQueueSize) : gate.handlers.Nodup :=
  List.Nodup.of_map _ hs.nodup

theorem mem_erase_iff (hs : gate.Sound maxQueueSize) {h' : ChatHandler} :
    h' ∈ gate.handlers.erase h ↔ h' ≠ h ∧ h' ∈ gate.handlers :=
  hs.nodup_handlers.mem_erase_iff

/-- The handlers after one has moved on. -/
theorem mem_move_iff (hs : gate.Sound maxQueueSize) {phase : ChatPhase} {h' : ChatHandler} :
    h' ∈ (gate.move h phase).handlers ↔
      (h' ≠ h ∧ h' ∈ gate.handlers) ∨ h' = { h with phase } := by
  rw [move, List.mem_append, hs.mem_erase_iff, List.mem_singleton]

theorem nodup_move (hs : gate.Sound maxQueueSize) (hh : h ∈ gate.handlers) (phase : ChatPhase) :
    ((gate.move h phase).handlers.map (·.id)).Nodup := by
  have hperm := (List.perm_cons_erase hh).map (·.id)
  have hcons := hperm.nodup_iff.1 hs.nodup
  simp only [move, List.map_append, List.map_cons, List.map_nil]
  exact (List.perm_append_singleton _ _).nodup_iff.2 hcons

theorem issued_move (hs : gate.Sound maxQueueSize) (hh : h ∈ gate.handlers) (phase : ChatPhase) :
    ∀ h' ∈ (gate.move h phase).handlers, h'.id < gate.handlerCount := by
  intro h' hh'
  cases hs.mem_move_iff.1 hh' with
  | inl hkept => exact hs.issued h' hkept.2
  | inr hmoved =>
    rw [hmoved]
    exact hs.issued h hh

/-- Moving inside the queue changes no count. -/
theorem counts_move (hh : h ∈ gate.handlers) (phase : ChatPhase)
    (hsame : phase.isQueued = h.phase.isQueued) :
    (gate.move h phase).handlers.countP (·.phase.isQueued) =
        gate.handlers.countP (·.phase.isQueued) ∧
      ∀ target, (gate.move h phase).users target = gate.users target := by
  constructor
  · have hcount := countP_replace_add (fun h : ChatHandler ↦ h.phase.isQueued) hh { h with phase }
    simp only [hsame, Nat.add_right_cancel_iff] at hcount
    exact hcount
  · intro target
    have hcount := countP_replace_add
      (fun h : ChatHandler ↦ h.phase.isQueued && h.target = target) hh { h with phase }
    simp only [hsame, Nat.add_right_cancel_iff] at hcount
    exact hcount

/-! ## Coming in -/

theorem spawn (hs : gate.Sound maxQueueSize) (event : ChatEventKey) (target : ChatTarget) :
    (gate.spawn event target).Sound maxQueueSize := by
  have hmem {h : ChatHandler} (hh : h ∈ (gate.spawn event target).handlers) :
      h ∈ gate.handlers ∨ h = ⟨gate.handlerCount, event, target, .auditing⟩ := by
    simpa only [ChatGate.spawn, List.mem_append, List.mem_singleton] using hh
  have husers : ∀ key, (gate.spawn event target).users key = gate.users key := by
    intro key
    simp only [users, ChatGate.spawn, List.countP_append, List.countP_singleton,
      ChatPhase.isQueued, Bool.false_and, Bool.false_eq_true, if_false, add_zero]
  constructor
  · simp only [ChatGate.spawn, List.map_append, List.map_cons, List.map_nil]
    apply (List.perm_append_singleton _ _).nodup_iff.2
    apply List.nodup_cons.2
    refine ⟨fun hin ↦ ?_, hs.nodup⟩
    obtain ⟨h, hh, hid⟩ := List.mem_map.1 hin
    have hlt := hs.issued h hh
    omega
  · intro h hh
    simp only [ChatGate.spawn]
    cases hmem hh with
    | inl hold =>
      have hlt := hs.issued h hold
      omega
    | inr hnew =>
      rw [hnew]
      exact Nat.lt_succ_self gate.handlerCount
  · have hcount : (gate.spawn event target).handlers.countP (·.phase.isQueued) =
        gate.handlers.countP (·.phase.isQueued) := by
      simp only [ChatGate.spawn, List.countP_append, List.countP_singleton, ChatPhase.isQueued,
        Bool.false_eq_true, if_false, add_zero]
    rw [hcount]
    exact hs.queued
  · exact hs.bounded
  · intro key
    rw [husers]
    exact hs.refs key
  · intro key lock hlock
    rw [husers]
    exact hs.made key lock hlock
  · exact hs.apart
  · intro h hh lock hlock
    cases hmem hh with
    | inl hold => exact hs.lock_of h hold lock hlock
    | inr hnew =>
      rw [hnew] at hlock
      cases hlock
  · intro h hh lock hlock
    cases hmem hh with
    | inl hold => exact hs.held h hold lock hlock
    | inr hnew =>
      rw [hnew] at hlock
      cases hlock
  · intro h hh h' hh' lock hlock hlock'
    cases hmem hh with
    | inr hnew =>
      rw [hnew] at hlock
      cases hlock
    | inl hold =>
      cases hmem hh' with
      | inr hnew' =>
        rw [hnew'] at hlock'
        cases hlock'
      | inl hold' => exact hs.exclusive h hold h' hold' lock hlock hlock'

/-- A handler moves on without a change of what it uses and holds. -/
theorem move (hs : gate.Sound maxQueueSize) (hh : h ∈ gate.handlers) {phase : ChatPhase}
    (hqueued : phase.isQueued = h.phase.isQueued) (hlock : phase.lock? = h.phase.lock?)
    (hheld : phase.held? = h.phase.held?) : (gate.move h phase).Sound maxQueueSize := by
  obtain ⟨hcount, husers⟩ := counts_move hh phase hqueued
  -- what holds of the target and the lock of the handler before, holds of them after
  have hbefore {h' : ChatHandler} (hh' : h' ∈ (gate.move h phase).handlers) :
      ∃ h₀ ∈ gate.handlers, h₀.target = h'.target ∧ h₀.phase.lock? = h'.phase.lock? ∧
        h₀.phase.held? = h'.phase.held? ∧ ((h' = h₀ ∧ h' ≠ h) ∨
          (h' = { h with phase } ∧ h₀ = h)) := by
    cases hs.mem_move_iff.1 hh' with
    | inl hkept => exact ⟨h', hkept.2, rfl, rfl, rfl, Or.inl ⟨rfl, hkept.1⟩⟩
    | inr hmoved =>
      refine ⟨h, hh, ?_, ?_, ?_, Or.inr ⟨hmoved, rfl⟩⟩
      · rw [hmoved]
      · rw [hmoved, ← hlock]
      · rw [hmoved, ← hheld]
  constructor
  · exact hs.nodup_move hh phase
  · exact hs.issued_move hh phase
  · rw [hcount]
    exact hs.queued
  · exact hs.bounded
  · intro key
    rw [husers]
    exact hs.refs key
  · intro key lock hkey
    rw [husers]
    exact hs.made key lock hkey
  · exact hs.apart
  · intro h' hh' lock hlock'
    obtain ⟨h₀, hh₀, htarget, hlock₀, -, -⟩ := hbefore hh'
    rw [← hlock₀] at hlock'
    rw [← htarget]
    exact hs.lock_of h₀ hh₀ lock hlock'
  · intro h' hh' lock hheld'
    obtain ⟨h₀, hh₀, -, -, hheld₀, -⟩ := hbefore hh'
    rw [← hheld₀] at hheld'
    exact hs.held h₀ hh₀ lock hheld'
  · intro h₁ hh₁ h₂ hh₂ lock hheld₁ hheld₂
    obtain ⟨g₁, hg₁, -, -, hsame₁, hcases₁⟩ := hbefore hh₁
    obtain ⟨g₂, hg₂, -, -, hsame₂, hcases₂⟩ := hbefore hh₂
    rw [← hsame₁] at hheld₁
    rw [← hsame₂] at hheld₂
    have heq : g₁ = g₂ := hs.exclusive g₁ hg₁ g₂ hg₂ lock hheld₁ hheld₂
    cases hcases₁ with
    | inl hkept₁ =>
      cases hcases₂ with
      | inl hkept₂ => rw [hkept₁.1, hkept₂.1, heq]
      | inr hmoved₂ => exact absurd (hkept₁.1.trans (heq.trans hmoved₂.2)) hkept₁.2
    | inr hmoved₁ =>
      cases hcases₂ with
      | inl hkept₂ => exact absurd (hkept₂.1.trans (heq.symm.trans hmoved₁.2)) hkept₂.2
      | inr hmoved₂ => rw [hmoved₁.1, hmoved₂.1]

/-- The queue takes in a handler as long as there is room. -/
theorem enter (hs : gate.Sound maxQueueSize) (hh : h ∈ gate.handlers)
    (hphase : h.phase = .auditing) (hroom : gate.queuedCount < maxQueueSize) :
    (gate.enter h).Sound maxQueueSize := by
  have hmem {h' : ChatHandler} (hh' : h' ∈ (gate.enter h).handlers) :
      h' ∈ gate.handlers ∨ h' = { h with phase := .queued } :=
    (hs.mem_move_iff.1 hh').imp_left And.right
  have hnot : h.phase.isQueued = false := by
    rw [hphase]
    rfl
  have hnew : ChatPhase.queued.isQueued = true := rfl
  have husers : ∀ key, (gate.enter h).users key =
      gate.users key + if h.target = key then 1 else 0 := by
    intro key
    have hcount := countP_replace_add
      (fun h : ChatHandler ↦ h.phase.isQueued && h.target = key) hh { h with phase := .queued }
    simp only [hnot, hnew, Bool.false_and, Bool.true_and, Bool.false_eq_true, if_false, add_zero,
      decide_eq_true_eq] at hcount
    exact hcount
  constructor
  · exact hs.nodup_move hh .queued
  · exact hs.issued_move hh .queued
  · have hcount := countP_replace_add (fun h : ChatHandler ↦ h.phase.isQueued) hh
      { h with phase := .queued }
    simp only [hnot, hnew, Bool.false_eq_true, if_false, add_zero, if_true] at hcount
    simp only [ChatGate.enter, ChatGate.move, hcount, hs.queued]
    omega
  · simp only [ChatGate.enter]
    omega
  · intro key
    rw [husers]
    simp only [ChatGate.enter]
    by_cases hkey : h.target = key
    · rw [if_pos hkey, ← hkey, Function.update_self, hs.refs]
      unfold refcount
      split_ifs
      · omega
      · rename_i hzero _
        rw [hzero]
        rfl
      · omega
      · simp only [Option.getD_some, Nat.cast_add, Nat.cast_one]
    · rw [if_neg hkey, Function.update_of_ne (Ne.symm hkey), hs.refs]
      rfl
  · intro key lock hkey
    rw [husers]
    have hmade := hs.made key lock hkey
    exact ⟨hmade.1, by omega⟩
  · exact hs.apart
  · intro h' hh' lock hlock
    cases hmem hh' with
    | inl hold => exact hs.lock_of h' hold lock hlock
    | inr hnew =>
      rw [hnew] at hlock
      cases hlock
  · intro h' hh' lock hlock
    cases hmem hh' with
    | inl hold => exact hs.held h' hold lock hlock
    | inr hnew =>
      rw [hnew] at hlock
      cases hlock
  · intro h₁ hh₁ h₂ hh₂ lock hlock₁ hlock₂
    cases hmem hh₁ with
    | inr hnew =>
      rw [hnew] at hlock₁
      cases hlock₁
    | inl hold₁ =>
      cases hmem hh₂ with
      | inr hnew =>
        rw [hnew] at hlock₂
        cases hlock₂
      | inl hold₂ => exact hs.exclusive h₁ hold₁ h₂ hold₂ lock hlock₁ hlock₂

/-- The lock of the target is looked up, or made. -/
theorem acquireSemaphore (hs : gate.Sound maxQueueSize) (hh : h ∈ gate.handlers)
    (hphase : h.phase = .queued) : (gate.acquireSemaphore h).Sound maxQueueSize := by
  have hqueued : h.phase.isQueued = true := by
    rw [hphase]
    rfl
  have hpos := users_pos hh hqueued
  have hmem {lock : ℕ} {h' : ChatHandler} (hh' : h' ∈ (gate.move h (.locking lock)).handlers) :
      h' ∈ gate.handlers ∨ h' = { h with phase := .locking lock } :=
    (hs.mem_move_iff.1 hh').imp_left And.right
  have hheld {lock lock' : ℕ} {h' : ChatHandler}
      (hh' : h' ∈ (gate.move h (.locking lock)).handlers) (hlock : lock' ∈ h'.phase.held?) :
      h' ∈ gate.handlers := by
    cases hmem hh' with
    | inl hold => exact hold
    | inr hnew =>
      rw [hnew] at hlock
      cases hlock
  unfold ChatGate.acquireSemaphore
  split
  · rename_i lock hlock
    obtain ⟨hcount, husers⟩ := counts_move hh (.locking lock) hqueued.symm
    refine ⟨hs.nodup_move hh _, hs.issued_move hh _, ?_, hs.bounded, ?_, ?_, hs.apart, ?_, ?_, ?_⟩
    · exact hs.queued.trans (congrArg Nat.cast hcount.symm)
    · intro key
      exact (hs.refs key).trans (congrArg refcount (husers key).symm)
    · intro key made hmade
      refine ⟨(hs.made key made hmade).1, ?_⟩
      exact (hs.made key made hmade).2.trans_eq (husers key).symm
    · intro h' hh' other hother
      cases hmem hh' with
      | inl hold => exact hs.lock_of h' hold other hother
      | inr hnew =>
        rw [hnew] at hother ⊢
        rw [← Option.some.inj hother]
        exact hlock
    · exact fun h' hh' other hother ↦ hs.held h' (hheld hh' hother) other hother
    · exact fun h₁ hh₁ h₂ hh₂ other hother₁ hother₂ ↦
        hs.exclusive h₁ (hheld hh₁ hother₁) h₂ (hheld hh₂ hother₂) other hother₁ hother₂
  · rename_i hnone
    obtain ⟨hcount, husers⟩ := counts_move hh (.locking gate.lockCount) hqueued.symm
    -- the key has no lock yet, so none of its handlers waits for one
    have hother {h' : ChatHandler} (hh' : h' ∈ gate.handlers) {lock : ℕ}
        (hlock : lock ∈ h'.phase.lock?) : h'.target ≠ h.target := by
      intro hsame
      have hfound := hs.lock_of h' hh' lock hlock
      rw [hsame, hnone] at hfound
      cases hfound
    refine ⟨hs.nodup_move hh _, hs.issued_move hh _, ?_, hs.bounded, ?_, ?_, ?_, ?_, ?_, ?_⟩
    · exact hs.queued.trans (congrArg Nat.cast hcount.symm)
    · intro key
      exact (hs.refs key).trans (congrArg refcount (husers key).symm)
    · intro key made hmade
      simp only [Function.update_apply] at hmade
      split_ifs at hmade with hkey
      · rw [← Option.some.inj hmade, hkey]
        exact ⟨Nat.lt_succ_self _, hpos.trans_eq (husers h.target).symm⟩
      · exact ⟨(hs.made key made hmade).1.trans (Nat.lt_succ_self _),
          (hs.made key made hmade).2.trans_eq (husers key).symm⟩
    · intro key key' made hmade hmade'
      simp only [Function.update_apply] at hmade hmade'
      split_ifs at hmade hmade' with hkey hkey' hkey'
      · exact hkey.trans hkey'.symm
      · have hlt := (hs.made key' made hmade').1
        rw [← Option.some.inj hmade] at hlt
        exact absurd hlt (lt_irrefl _)
      · have hlt := (hs.made key made hmade).1
        rw [← Option.some.inj hmade'] at hlt
        exact absurd hlt (lt_irrefl _)
      · exact hs.apart key key' made hmade hmade'
    · intro h' hh' other hlock
      cases hmem hh' with
      | inl hold =>
        simp only [Function.update_of_ne (hother hold hlock)]
        exact hs.lock_of h' hold other hlock
      | inr hnew =>
        rw [hnew] at hlock ⊢
        simp only [Function.update_self]
        exact hlock
    · exact fun h' hh' other hlock ↦ hs.held h' (hheld hh' hlock) other hlock
    · exact fun h₁ hh₁ h₂ hh₂ other hlock₁ hlock₂ ↦
        hs.exclusive h₁ (hheld hh₁ hlock₁) h₂ (hheld hh₂ hlock₂) other hlock₁ hlock₂

/-- A handler gets a lock that is free. -/
theorem acquireLock (hs : gate.Sound maxQueueSize) (hh : h ∈ gate.handlers) {lock : ℕ}
    (hphase : h.phase = .locking lock) (hfree : gate.lockHeld lock = false) {phase : ChatPhase}
    (hlock : phase.lock? = some lock) (hheld : phase.held? = some lock) :
    (gate.acquireLock h lock phase).Sound maxQueueSize := by
  have hqueued : phase.isQueued = h.phase.isQueued := by
    rw [hphase, isQueued_of_lock hlock]
    rfl
  obtain ⟨hcount, husers⟩ := counts_move hh phase hqueued
  have hmem {h' : ChatHandler} (hh' : h' ∈ (gate.acquireLock h lock phase).handlers) :
      (h' ≠ h ∧ h' ∈ gate.handlers) ∨ h' = { h with phase } := hs.mem_move_iff.1 hh'
  -- nobody else holds the lock
  have hother {h' : ChatHandler} (hh' : h' ∈ gate.handlers) : lock ∉ h'.phase.held? := by
    intro hholds
    rw [hs.held h' hh' lock hholds] at hfree
    cases hfree
  constructor
  · exact hs.nodup_move hh phase
  · exact hs.issued_move hh phase
  · exact hs.queued.trans (congrArg Nat.cast hcount.symm)
  · exact hs.bounded
  · intro key
    exact (hs.refs key).trans (congrArg refcount (husers key).symm)
  · intro key made hmade
    exact ⟨(hs.made key made hmade).1, (hs.made key made hmade).2.trans_eq (husers key).symm⟩
  · exact hs.apart
  · intro h' hh' other hlock'
    cases hmem hh' with
    | inl hold => exact hs.lock_of h' hold.2 other hlock'
    | inr hnew =>
      rw [hnew] at hlock' ⊢
      rw [hlock] at hlock'
      rw [← Option.some.inj hlock']
      apply hs.lock_of h hh lock
      rw [hphase]
      rfl
  · intro h' hh' other hheld'
    simp only [ChatGate.acquireLock, Function.update_apply]
    split_ifs with hsame
    · rfl
    · cases hmem hh' with
      | inl hold => exact hs.held h' hold.2 other hheld'
      | inr hnew =>
        rw [hnew, hheld] at hheld'
        exact absurd (Option.some.inj hheld').symm hsame
  · intro h₁ hh₁ h₂ hh₂ other hheld₁ hheld₂
    cases hmem hh₁ with
    | inl hold₁ =>
      cases hmem hh₂ with
      | inl hold₂ => exact hs.exclusive h₁ hold₁.2 h₂ hold₂.2 other hheld₁ hheld₂
      | inr hnew₂ =>
        rw [hnew₂, hheld] at hheld₂
        rw [← Option.some.inj hheld₂] at hheld₁
        exact absurd hheld₁ (hother hold₁.2)
    | inr hnew₁ =>
      cases hmem hh₂ with
      | inl hold₂ =>
        rw [hnew₁, hheld] at hheld₁
        rw [← Option.some.inj hheld₁] at hheld₂
        exact absurd hheld₂ (hother hold₂.2)
      | inr hnew₂ => rw [hnew₁, hnew₂]

end Sound

/-! ## Leaving -/

section Release

variable (gate) (phase : ChatPhase)

@[simp] theorem release_queuedCount : (gate.release phase).queuedCount = gate.queuedCount := by
  cases phase <;> rfl

@[simp] theorem release_keyRefcounts : (gate.release phase).keyRefcounts = gate.keyRefcounts := by
  cases phase <;> rfl

@[simp] theorem release_locks : (gate.release phase).locks = gate.locks := by
  cases phase <;> rfl

@[simp] theorem release_lockCount : (gate.release phase).lockCount = gate.lockCount := by
  cases phase <;> rfl

@[simp] theorem release_handlers : (gate.release phase).handlers = gate.handlers := by
  cases phase <;> rfl

@[simp] theorem release_handlerCount : (gate.release phase).handlerCount = gate.handlerCount := by
  cases phase <;> rfl

/-- The locks that the handler does not hold stay as they are. -/
theorem release_lockHeld {lock : ℕ} (hlock : lock ∉ phase.held?) :
    (gate.release phase).lockHeld lock = gate.lockHeld lock := by
  cases phase with
  | auditing | queued | locking => rfl
  | building other | reporting other | sending other =>
    apply Function.update_of_ne
    rintro rfl
    exact hlock rfl

end Release

section Leave

/-- The last user of a key drops its lock. -/
theorem leave_of_last (hrefs : gate.keyRefcounts target = some 1) : gate.leave target =
    { gate with
      queuedCount := gate.queuedCount - 1
      keyRefcounts := Function.update gate.keyRefcounts target none
      locks := Function.update gate.locks target none } := by
  simp only [leave, hrefs, sub_self, if_true]

theorem leave_of_more {count : ℤ} (hrefs : gate.keyRefcounts target = some count)
    (hmore : count ≠ 1) : gate.leave target =
    { gate with
      queuedCount := gate.queuedCount - 1
      keyRefcounts := Function.update gate.keyRefcounts target (some (count - 1)) } := by
  have hne : count - 1 ≠ 0 := sub_ne_zero.2 hmore
  simp only [leave, hrefs, hne, if_false]

end Leave

namespace Sound

/-- A handler ends before the queue has taken it in. -/
theorem remove (hs : gate.Sound maxQueueSize) (hh : h ∈ gate.handlers)
    (hphase : h.phase.isQueued = false) : (gate.remove h).Sound maxQueueSize := by
  have hmem {h' : ChatHandler} (hh' : h' ∈ (gate.remove h).handlers) : h' ∈ gate.handlers :=
    List.mem_of_mem_erase hh'
  have husers : ∀ key, (gate.remove h).users key = gate.users key := by
    intro key
    have hcount := countP_erase_add
      (fun h : ChatHandler ↦ h.phase.isQueued && h.target = key) hh
    simp only [hphase, Bool.false_and, Bool.false_eq_true, if_false, add_zero] at hcount
    exact hcount
  constructor
  · exact hs.nodup.sublist ((List.erase_sublist).map _)
  · exact fun h' hh' ↦ hs.issued h' (hmem hh')
  · have hcount := countP_erase_add (fun h : ChatHandler ↦ h.phase.isQueued) hh
    simp only [hphase, Bool.false_eq_true, if_false, add_zero] at hcount
    exact hs.queued.trans (congrArg Nat.cast hcount.symm)
  · exact hs.bounded
  · intro key
    exact (hs.refs key).trans (congrArg refcount (husers key).symm)
  · intro key lock hlock
    exact ⟨(hs.made key lock hlock).1, (hs.made key lock hlock).2.trans_eq (husers key).symm⟩
  · exact hs.apart
  · exact fun h' hh' ↦ hs.lock_of h' (hmem hh')
  · exact fun h' hh' ↦ hs.held h' (hmem hh')
  · exact fun h₁ hh₁ h₂ hh₂ ↦ hs.exclusive h₁ (hmem hh₁) h₂ (hmem hh₂)

/-- What a handler of the queue leaves behind. -/
theorem leave_cases (hs : gate.Sound maxQueueSize) (hh : h ∈ gate.handlers)
    (hphase : h.phase.isQueued = true) :
    (gate.users h.target = 1 ∧ gate.exit h =
      { (gate.remove h).release h.phase with
        queuedCount := gate.queuedCount - 1
        keyRefcounts := Function.update gate.keyRefcounts h.target none
        locks := Function.update gate.locks h.target none }) ∨
    (1 < gate.users h.target ∧ gate.exit h =
      { (gate.remove h).release h.phase with
        queuedCount := gate.queuedCount - 1
        keyRefcounts := Function.update gate.keyRefcounts h.target
          (some ((gate.users h.target : ℤ) - 1)) }) := by
  have hpos := users_pos hh hphase
  have hrefs : ((gate.remove h).release h.phase).keyRefcounts h.target =
      some (gate.users h.target : ℤ) := by
    rw [release_keyRefcounts]
    exact (hs.refs h.target).trans (if_neg hpos.ne')
  by_cases hlast : gate.users h.target = 1
  · left
    rw [hlast] at hrefs
    refine ⟨hlast, ?_⟩
    rw [exit, if_pos hphase, leave_of_last hrefs, release_queuedCount, release_keyRefcounts,
      release_locks]
    rfl
  · right
    refine ⟨by omega, ?_⟩
    rw [exit, if_pos hphase, leave_of_more hrefs (by omega), release_queuedCount,
      release_keyRefcounts]
    rfl

section Exit

variable (hs : gate.Sound maxQueueSize) (hh : h ∈ gate.handlers) (hphase : h.phase.isQueued = true)
include hs hh hphase

theorem exit_queuedCount : (gate.exit h).queuedCount = gate.queuedCount - 1 := by
  cases hs.leave_cases hh hphase with
  | inl hlast => rw [hlast.2]
  | inr hmore => rw [hmore.2]

theorem exit_handlers : (gate.exit h).handlers = gate.handlers.erase h := by
  cases hs.leave_cases hh hphase with
  | inl hlast =>
    rw [hlast.2]
    exact release_handlers _ _
  | inr hmore =>
    rw [hmore.2]
    exact release_handlers _ _

theorem exit_handlerCount : (gate.exit h).handlerCount = gate.handlerCount := by
  cases hs.leave_cases hh hphase with
  | inl hlast =>
    rw [hlast.2]
    exact release_handlerCount _ _
  | inr hmore =>
    rw [hmore.2]
    exact release_handlerCount _ _

theorem exit_lockCount : (gate.exit h).lockCount = gate.lockCount := by
  cases hs.leave_cases hh hphase with
  | inl hlast =>
    rw [hlast.2]
    exact release_lockCount _ _
  | inr hmore =>
    rw [hmore.2]
    exact release_lockCount _ _

theorem exit_keyRefcounts : (gate.exit h).keyRefcounts =
    Function.update gate.keyRefcounts h.target (refcount (gate.users h.target - 1)) := by
  cases hs.leave_cases hh hphase with
  | inl hlast =>
    rw [hlast.2, hlast.1]
    rfl
  | inr hmore =>
    rw [hmore.2, refcount, if_neg (by omega), Nat.cast_sub (by omega), Nat.cast_one]

theorem exit_locks (key : ChatTarget) : (gate.exit h).locks key =
    if key = h.target ∧ gate.users h.target = 1 then none else gate.locks key := by
  cases hs.leave_cases hh hphase with
  | inl hlast =>
    rw [hlast.2]
    by_cases hkey : key = h.target
    · rw [if_pos ⟨hkey, hlast.1⟩, hkey]
      exact Function.update_self _ _ _
    · rw [if_neg fun hboth ↦ hkey hboth.1]
      exact Function.update_of_ne hkey _ _
  | inr hmore =>
    rw [hmore.2, if_neg fun hboth ↦ absurd hboth.2 (by omega)]
    exact congrFun (release_locks _ _) key

theorem exit_lockHeld {lock : ℕ} (hlock : lock ∉ h.phase.held?) :
    (gate.exit h).lockHeld lock = gate.lockHeld lock := by
  cases hs.leave_cases hh hphase with
  | inl hlast =>
    rw [hlast.2]
    exact release_lockHeld _ _ hlock
  | inr hmore =>
    rw [hmore.2]
    exact release_lockHeld _ _ hlock

theorem exit_countP : (gate.exit h).handlers.countP (·.phase.isQueued) + 1 =
    gate.handlers.countP (·.phase.isQueued) := by
  have hcount := countP_erase_add (fun h : ChatHandler ↦ h.phase.isQueued) hh
  simp only [hphase, if_true] at hcount
  rw [hs.exit_handlers hh hphase]
  exact hcount

theorem exit_users (key : ChatTarget) :
    (gate.exit h).users key + (if h.target = key then 1 else 0) = gate.users key := by
  have hcount := countP_erase_add
    (fun h : ChatHandler ↦ h.phase.isQueued && h.target = key) hh
  simp only [hphase, Bool.true_and, decide_eq_true_eq] at hcount
  rw [users, hs.exit_handlers hh hphase]
  exact hcount

end Exit

/-- A handler ends, in whatever way. -/
theorem exit (hs : gate.Sound maxQueueSize) (hh : h ∈ gate.handlers) :
    (gate.exit h).Sound maxQueueSize := by
  by_cases hphase : h.phase.isQueued = true
  swap
  · rw [ChatGate.exit, if_neg hphase]
    exact hs.remove hh (eq_false_of_ne_true hphase)
  have hmem {h' : ChatHandler} (hh' : h' ∈ (gate.exit h).handlers) :
      h' ≠ h ∧ h' ∈ gate.handlers := by
    rw [hs.exit_handlers hh hphase] at hh'
    exact hs.mem_erase_iff.1 hh'
  have hself := hs.exit_users hh hphase h.target
  rw [if_pos rfl] at hself
  constructor
  · rw [hs.exit_handlers hh hphase]
    exact hs.nodup.sublist (List.erase_sublist.map _)
  · intro h' hh'
    rw [hs.exit_handlerCount hh hphase]
    exact hs.issued h' (hmem hh').2
  · have hcount := hs.exit_countP hh hphase
    rw [hs.exit_queuedCount hh hphase, hs.queued]
    omega
  · have hbounded := hs.bounded
    rw [hs.exit_queuedCount hh hphase]
    omega
  · intro key
    rw [hs.exit_keyRefcounts hh hphase]
    by_cases hkey : key = h.target
    · rw [hkey, Function.update_self, ← hself, Nat.add_sub_cancel]
    · have husers := hs.exit_users hh hphase key
      rw [if_neg (Ne.symm hkey), add_zero] at husers
      rw [Function.update_of_ne hkey, husers]
      exact hs.refs key
  · intro key lock hlock
    rw [hs.exit_locks hh hphase] at hlock
    split_ifs at hlock with hdropped
    · cases hlock
    · have husers := hs.exit_users hh hphase key
      have hmade := hs.made key lock hlock
      rw [hs.exit_lockCount hh hphase]
      refine ⟨hmade.1, ?_⟩
      by_cases hkey : key = h.target
      · rw [hkey] at hmade ⊢
        have hmore : gate.users h.target ≠ 1 := fun hlast ↦ hdropped ⟨hkey, hlast⟩
        omega
      · rw [if_neg (Ne.symm hkey)] at husers
        omega
  · intro key key' lock hlock hlock'
    rw [hs.exit_locks hh hphase] at hlock hlock'
    split_ifs at hlock hlock'
    · cases hlock
    · cases hlock
    · cases hlock'
    · exact hs.apart key key' lock hlock hlock'
  · intro h' hh' lock hlock
    have hold := (hmem hh').2
    rw [hs.exit_locks hh hphase, if_neg]
    · exact hs.lock_of h' hold lock hlock
    · -- otherwise the two would be two users of the key
      rintro ⟨htarget, hlast⟩
      have hpos := users_pos hh' (isQueued_of_lock hlock)
      rw [htarget] at hpos
      omega
  · intro h' hh' lock hlock
    have hnot : lock ∉ h.phase.held? := fun hlock' ↦
      (hmem hh').1 (hs.exclusive h' (hmem hh').2 h hh lock hlock hlock')
    rw [hs.exit_lockHeld hh hphase hnot]
    exact hs.held h' (hmem hh').2 lock hlock
  · exact fun h₁ hh₁ h₂ hh₂ ↦ hs.exclusive h₁ (hmem hh₁).2 h₂ (hmem hh₂).2

/-- At most one handler of a target holds its lock. -/
theorem eq_of_held (hs : gate.Sound maxQueueSize) {h' : ChatHandler} (hh : h ∈ gate.handlers)
    (hh' : h' ∈ gate.handlers) (htarget : h.target = h'.target)
    (hheld : h.phase.held?.isSome) (hheld' : h'.phase.held?.isSome) : h = h' := by
  obtain ⟨lock, hlock⟩ := Option.isSome_iff_exists.1 hheld
  obtain ⟨lock', hlock'⟩ := Option.isSome_iff_exists.1 hheld'
  have hfound := hs.lock_of h hh lock (lock_of_held hlock)
  have hfound' := hs.lock_of h' hh' lock' (lock_of_held hlock')
  have hsame : lock = lock' := Option.some.inj (hfound.symm.trans (htarget ▸ hfound'))
  exact hs.exclusive h hh h' hh' lock hlock (hsame ▸ hlock')

end Sound

end ChatGate

/-! ## Steps of the service -/

namespace HostedChatService

variable {config : HostedChatConfig} {s : HostedChatService} {h : ChatHandler}

@[simp] theorem catchFailure_gate (s : HostedChatService) (event : ChatEventKey)
    (failure : ChatFailure) : (s.catchFailure event failure).gate = s.gate := by
  cases failure <;> rfl

theorem initial_sound (config : HostedChatConfig) :
    (initial config).gate.Sound config.maxQueueSize := by
  constructor
  · exact List.nodup_nil
  · exact List.forall_mem_nil _
  · rfl
  · exact Int.natCast_nonneg _
  · exact fun _ ↦ rfl
  · intro target lock hlock
    cases hlock
  · intro target target' lock hlock
    cases hlock
  · exact List.forall_mem_nil _
  · exact List.forall_mem_nil _
  · exact List.forall_mem_nil _

theorem generateAndSend_sound (hs : s.gate.Sound config.maxQueueSize) (hh : h ∈ s.gate.handlers)
    (hphase : h.phase = .auditing) :
    (s.generateAndSend config h).gate.Sound config.maxQueueSize := by
  unfold generateAndSend
  split_ifs with hfull
  · rw [catchFailure_gate]
    apply hs.remove hh
    rw [hphase]
    rfl
  · exact hs.enter hh hphase (lt_of_not_ge hfull)

theorem receive_sound (hs : s.gate.Sound config.maxQueueSize) (event : ChatEventKey) :
    (s.receive config event).gate.Sound config.maxQueueSize := by
  simp only [receive]
  split_ifs with hmarked
  · exact hs
  · cases config.content event with
    | sendResult => exact hs
    | chatReceived target supported =>
      cases supported with
      | false => exact hs
      | true => exact hs.spawn event target
    | nearbyFriendRequest target =>
      apply generateAndSend_sound
      · exact hs.spawn event target
      · exact List.mem_append_right _ (List.mem_singleton_self _)
      · rfl

theorem generateAndSendLocked_sound (hs : s.gate.Sound config.maxQueueSize)
    (hh : h ∈ s.gate.handlers) {lock : ℕ} (hphase : h.phase = .locking lock)
    (hfree : s.gate.lockHeld lock = false) :
    (s.generateAndSendLocked h lock).gate.Sound config.maxQueueSize := by
  unfold generateAndSendLocked
  split
  · exact hs.acquireLock hh hphase hfree rfl rfl
  · exact hs.acquireLock hh hphase hfree rfl rfl

theorem advance_sound (hs : s.gate.Sound config.maxQueueSize) (hh : h ∈ s.gate.handlers)
    (action : ChatAction) : (s.advance config h action).gate.Sound config.maxQueueSize := by
  cases action with
  | receive event => exact hs
  | audited id =>
    simp only [advance]
    split_ifs with hphase
    · exact generateAndSend_sound hs hh hphase
    · exact hs
  | acquireSemaphore id =>
    simp only [advance]
    split_ifs with hphase
    · exact hs.acquireSemaphore hh hphase.1
    · exact hs
  | acquireLock id =>
    simp only [advance]
    split
    · rename_i lock hphase
      split_ifs with hheld
      · exact hs
      · exact generateAndSendLocked_sound hs hh hphase (eq_false_of_ne_true hheld)
    · exact hs
  | built id =>
    simp only [advance]
    split
    · rename_i lock hphase
      apply hs.move hh
      all_goals
        rw [hphase]
        rfl
    · exact hs
  | reported id =>
    simp only [advance]
    split
    · rename_i lock requestId hphase
      apply hs.move hh
      all_goals
        rw [hphase]
        rfl
    · exact hs
  | accepted id =>
    simp only [advance]
    split
    · exact hs.exit hh
    · exact hs
  | failed id failure =>
    simp only [advance]
    split_ifs
    · rw [fail, catchFailure_gate]
      exact hs.exit hh
    · exact hs

theorem exec_sound (hs : s.gate.Sound config.maxQueueSize) (action : ChatAction) :
    (s.exec config action).gate.Sound config.maxQueueSize := by
  unfold exec
  split
  · exact receive_sound hs _
  all_goals
    split
    · exact hs
    · rename_i hfind
      exact advance_sound hs (ChatGate.mem_of_handler? hfind) _

/-- The gate is sound in every run. -/
theorem run_sound (config : HostedChatConfig) (actions : List ChatAction) :
    (run (exec config) (initial config) actions).gate.Sound config.maxQueueSize := by
  apply invariant_run (I := fun s : HostedChatService ↦ s.gate.Sound config.maxQueueSize)
  · exact fun s action hs ↦ exec_sound hs action
  · exact initial_sound config

end HostedChatService

end LlmGateway
