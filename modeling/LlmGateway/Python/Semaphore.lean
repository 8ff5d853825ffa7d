import Mathlib.Data.List.Basic
import Mathlib.Data.List.Nodup

/-!
# `asyncio.Semaphore`

A semaphore of one event loop, for any kind of waiters. Who has to wait appends a future; a permit
that becomes free is given to the first future that is not done yet, and taken back if its waiter is
cancelled before it runs again. Permits are never lost: the free ones and those given to waiters
that have not run yet change only as permits are taken and released.
-/

namespace LlmGateway

inductive FutureState where
  | pending
  | done
  | cancelled
deriving DecidableEq, Repr

/-- A future that a waiter awaits, under the id of the waiter. -/
structure Waiter (ι : Type*) where
  id : ι
  future : FutureState
deriving DecidableEq

/-- `_value` and `_waiters`. -/
structure Semaphore (ι : Type*) where
  value : ℕ
  waiters : List (Waiter ι)
deriving DecidableEq

variable {ι : Type*}

/-- Give a permit to the first waiter whose future is not done. -/
def wakeFirst : List (Waiter ι) → Option (List (Waiter ι))
  | [] => none
  | w :: waiters =>
    if w.future = .pending then some ({ w with future := .done } :: waiters)
    else (wakeFirst waiters).map (w :: ·)

namespace Semaphore

variable (s : Semaphore ι)

/-- `locked()`. -/
def Locked : Prop := s.value = 0 ∨ ∃ w ∈ s.waiters, w.future ≠ .cancelled

instance : Decidable s.Locked := inferInstanceAs (Decidable (_ ∨ ∃ _ ∈ _, _))

/-- `_wake_up_next()`. -/
def wakeUpNext : Option (Semaphore ι) :=
  (wakeFirst s.waiters).map fun waiters ↦ ⟨s.value - 1, waiters⟩

/-- Wake up as many as the free permits allow, `n` at most. -/
def wakeUp : ℕ → Semaphore ι → Semaphore ι
  | 0, s => s
  | n + 1, s =>
    match s.wakeUpNext with
    | none => s
    | some s' => wakeUp n s'

/-- `acquire()` up to its first suspension: whether a permit was free. -/
def acquire (id : ι) : Bool × Semaphore ι :=
  if s.Locked then (false, { s with waiters := s.waiters ++ [⟨id, .pending⟩] })
  else (true, { s with value := s.value - 1 })

/-- `release()`. -/
def release : Semaphore ι :=
  let s' := { s with value := s.value + 1 }
  s'.wakeUpNext.getD s'

section

variable [DecidableEq ι]

/-- `fut.cancel()`, which does nothing to a future that is done. -/
def cancelFuture (id : ι) : Semaphore ι :=
  { s with waiters := s.waiters.map fun w ↦
      if w.id = id ∧ w.future = .pending then { w with future := .cancelled } else w }

/-- `acquire()` after its suspension: a waiter that is cancelled gives back the permit that it was
given meanwhile. -/
def resume (w : Waiter ι) (cancelled : Bool) : Semaphore ι :=
  let back := if cancelled = true ∧ w.future = .done then 1 else 0
  let s' := { s with value := s.value + back, waiters := s.waiters.erase w }
  s'.wakeUp s'.value

end

/-- The permits that are free or given to waiters that have not run yet. -/
def available : ℕ := s.value + s.waiters.countP fun w ↦ w.future = .done

/-- The ids of the waiters. -/
def ids : List ι := s.waiters.map Waiter.id

/-- A free permit is not left to lie while somebody waits, unless a waiter is about to run, who
passes it on. -/
def Busy : Prop :=
  s.value = 0 ∨ (∀ w ∈ s.waiters, w.future ≠ .pending) ∨ ∃ w ∈ s.waiters, w.future = .done

end Semaphore

/-! ## Waking -/

theorem wakeFirst_eq_none {waiters : List (Waiter ι)} :
    wakeFirst waiters = none ↔ ∀ w ∈ waiters, w.future ≠ .pending := by
  induction waiters with
  | nil => simp only [wakeFirst, List.not_mem_nil, false_implies, implies_true]
  | cons w waiters ih =>
    rw [wakeFirst, List.forall_mem_cons]
    by_cases hpending : w.future = .pending
    · simp only [hpending, if_true, reduceCtorEq, not_true_eq_false, ne_eq, false_and]
    · simp only [hpending, if_false, Option.map_eq_none_iff, ih, ne_eq, not_false_eq_true, true_and]

theorem wakeFirst_eq_some {waiters woken : List (Waiter ι)} (h : wakeFirst waiters = some woken) :
    ∃ front w rest, waiters = front ++ w :: rest ∧ (∀ v ∈ front, v.future ≠ .pending) ∧
      w.future = .pending ∧ woken = front ++ { w with future := .done } :: rest := by
  induction waiters generalizing woken with
  | nil => cases h
  | cons v waiters ih =>
    rw [wakeFirst] at h
    by_cases hpending : v.future = .pending
    · rw [if_pos hpending] at h
      exact ⟨[], v, waiters, rfl, fun _ hv ↦ absurd hv List.not_mem_nil, hpending,
        (Option.some.inj h).symm⟩
    · rw [if_neg hpending] at h
      obtain ⟨later, hlater, rfl⟩ := Option.map_eq_some_iff.1 h
      obtain ⟨front, w, rest, rfl, hfront, hw, rfl⟩ := ih hlater
      exact ⟨v :: front, w, rest, rfl, List.forall_mem_cons.2 ⟨hpending, hfront⟩, hw, rfl⟩

namespace Semaphore

variable {s s' : Semaphore ι}

/-- A permit was given to the first pending waiter. -/
structure Woke (s s' : Semaphore ι) : Prop where
  value_eq : s'.value = s.value - 1
  given : ∃ front w rest, s.waiters = front ++ w :: rest ∧ (∀ v ∈ front, v.future ≠ .pending) ∧
    w.future = .pending ∧ s'.waiters = front ++ { w with future := .done } :: rest

theorem wakeUpNext_eq_none : s.wakeUpNext = none ↔ ∀ w ∈ s.waiters, w.future ≠ .pending := by
  rw [wakeUpNext, Option.map_eq_none_iff, wakeFirst_eq_none]

theorem woke_of_wakeUpNext (h : s.wakeUpNext = some s') : s.Woke s' := by
  obtain ⟨woken, hwoken, rfl⟩ := Option.map_eq_some_iff.1 h
  exact ⟨rfl, wakeFirst_eq_some hwoken⟩

/-- The waiters to whom a permit was given stand before those who are pending. -/
def InOrder (s : Semaphore ι) : Prop :=
  s.waiters.Pairwise fun v w ↦ w.future = .done → v.future ≠ .pending

namespace Woke

theorem available_eq (h : s.Woke s') (hpos : 0 < s.value) : s'.available = s.available := by
  obtain ⟨front, w, rest, hs, -, hpending, hs'⟩ := h.given
  have hnot : ¬w.future = .done := by rw [hpending]; decide
  simp only [available, hs, hs', h.value_eq, List.countP_append, List.countP_cons, decide_true,
    if_true, hnot, decide_false, Bool.false_eq_true, if_false]
  omega

theorem ids_eq (h : s.Woke s') : s'.ids = s.ids := by
  obtain ⟨front, w, rest, hs, -, -, hs'⟩ := h.given
  simp only [ids, hs, hs', List.map_append, List.map_cons]

theorem inOrder (h : s.Woke s') (horder : s.InOrder) : s'.InOrder := by
  obtain ⟨front, w, rest, hs, hfront, hpending, hs'⟩ := h.given
  rw [InOrder, hs, List.pairwise_append, List.pairwise_cons] at horder
  obtain ⟨hbefore, ⟨hrest, hbehind⟩, -⟩ := horder
  rw [InOrder, hs', List.pairwise_append, List.pairwise_cons]
  refine ⟨hbefore, ⟨fun v hv hdone ↦ ?_, hbehind⟩, fun v hv _ _ _ ↦ hfront v hv⟩
  exact absurd hpending (hrest v hv hdone)

theorem mem_of_pending (h : s.Woke s') {v : Waiter ι} (hv : v ∈ s'.waiters)
    (hpending : v.future = .pending) : v ∈ s.waiters := by
  obtain ⟨front, w, rest, hs, -, -, hs'⟩ := h.given
  rw [hs', List.mem_append, List.mem_cons] at hv
  rw [hs, List.mem_append, List.mem_cons]
  rcases hv with hv | rfl | hv
  · exact Or.inl hv
  · cases hpending
  · exact Or.inr (Or.inr hv)

theorem exists_done (h : s.Woke s') : ∃ w ∈ s'.waiters, w.future = .done := by
  obtain ⟨front, w, rest, -, -, -, hs'⟩ := h.given
  refine ⟨{ w with future := .done }, ?_, rfl⟩
  rw [hs']
  exact List.mem_append_right front List.mem_cons_self

end Woke

/-- What every wake-up keeps, waking as many as the permits allow keeps. -/
theorem wakeUp_induction {I : Semaphore ι → Prop}
    (hwake : ∀ t t' : Semaphore ι, t.Woke t' → 0 < t.value → I t → I t') {n : ℕ} (hn : n ≤ s.value)
    (hs : I s) : I (s.wakeUp n) := by
  induction n generalizing s with
  | zero => exact hs
  | succ n ih =>
    rw [wakeUp]
    cases hnext : s.wakeUpNext with
    | none => exact hs
    | some s' =>
      have hwoke := woke_of_wakeUpNext hnext
      refine ih ?_ (hwake s s' hwoke (by omega) hs)
      rw [hwoke.value_eq]
      omega

/-- Waking as many as the permits allow leaves no permit or no pending waiter. -/
theorem wakeUp_busy {n : ℕ} (hn : s.value = n) :
    (s.wakeUp n).value = 0 ∨ ∀ w ∈ (s.wakeUp n).waiters, w.future ≠ .pending := by
  induction n generalizing s with
  | zero => exact Or.inl hn
  | succ n ih =>
    rw [wakeUp]
    cases hnext : s.wakeUpNext with
    | none => exact Or.inr (wakeUpNext_eq_none.1 hnext)
    | some s' =>
      apply ih
      rw [(woke_of_wakeUpNext hnext).value_eq, hn]
      rfl

/-! ## Acquiring and releasing -/

theorem available_acquire (s : Semaphore ι) (id : ι) :
    (s.acquire id).2.available + (if (s.acquire id).1 then 1 else 0) = s.available := by
  unfold acquire
  by_cases hlocked : s.Locked
  · simp [hlocked, available]
  · have hpos : 0 < s.value := Nat.pos_of_ne_zero fun hzero ↦ hlocked (Or.inl hzero)
    simp only [hlocked, available, if_false, if_true]
    omega

/-- A released permit is free, and nobody waits for it, or it is given to a waiter. -/
theorem release_cases (s : Semaphore ι) :
    (s.release = { s with value := s.value + 1 } ∧ ∀ w ∈ s.waiters, w.future ≠ .pending) ∨
      ({ s with value := s.value + 1 } : Semaphore ι).Woke s.release := by
  have hrelease : s.release = ({ s with value := s.value + 1 } : Semaphore ι).wakeUpNext.getD
      { s with value := s.value + 1 } := rfl
  cases hnext : ({ s with value := s.value + 1 } : Semaphore ι).wakeUpNext with
  | none =>
    rw [hrelease, hnext]
    have hnone := wakeUpNext_eq_none.1 hnext
    exact Or.inl ⟨rfl, hnone⟩
  | some s' =>
    rw [hrelease, hnext]
    exact Or.inr (woke_of_wakeUpNext hnext)

theorem available_release : s.release.available = s.available + 1 := by
  have hraised : ({ s with value := s.value + 1 } : Semaphore ι).available = s.available + 1 :=
    Nat.add_right_comm _ _ _
  rcases s.release_cases with ⟨hrelease, -⟩ | hwoke
  · rw [hrelease, hraised]
  · rw [hwoke.available_eq (Nat.succ_pos _), hraised]

theorem ids_release : s.release.ids = s.ids := by
  rcases s.release_cases with ⟨hrelease, -⟩ | hwoke
  · rw [hrelease, ids, ids]
  · exact hwoke.ids_eq

theorem InOrder.release (h : s.InOrder) : s.release.InOrder := by
  rcases s.release_cases with ⟨hrelease, -⟩ | hwoke
  · rw [hrelease]
    exact h
  · exact hwoke.inOrder h

theorem mem_of_release {w : Waiter ι} (hw : w ∈ s.release.waiters) (hpending : w.future = .pending) :
    w ∈ s.waiters := by
  rcases s.release_cases with ⟨hrelease, -⟩ | hwoke
  · rwa [hrelease] at hw
  · exact hwoke.mem_of_pending hw hpending

theorem Busy.acquire (h : s.Busy) (id : ι) : (s.acquire id).2.Busy := by
  unfold Semaphore.acquire
  by_cases hlocked : s.Locked
  · rw [if_pos hlocked]
    have hzero_or : s.value = 0 ∨ ∃ w ∈ s.waiters, w.future = .done := by
      rcases h with hzero | hnone | hdone
      · exact Or.inl hzero
      · refine hlocked.imp_right fun hsome ↦ ?_
        obtain ⟨w, hw, hnot⟩ := hsome
        refine ⟨w, hw, ?_⟩
        cases hfuture : w.future with
        | pending => exact absurd hfuture (hnone w hw)
        | done => rfl
        | cancelled => exact absurd hfuture hnot
      · exact Or.inr hdone
    refine hzero_or.imp_right fun hsome ↦ Or.inr ?_
    obtain ⟨w, hw, hdone⟩ := hsome
    exact ⟨w, List.mem_append_left _ hw, hdone⟩
  · rw [if_neg hlocked]
    refine Or.inr (Or.inl fun w hw hpending ↦ hlocked (Or.inr ⟨w, hw, ?_⟩))
    rw [hpending]
    decide

theorem busy_release : s.release.Busy := by
  rcases s.release_cases with ⟨hrelease, hnone⟩ | hwoke
  · rw [hrelease]
    exact Or.inr (Or.inl hnone)
  · exact Or.inr (Or.inr hwoke.exists_done)

/-! ## Cancelling and running again -/

section

variable [DecidableEq ι]

theorem available_cancelFuture {id : ι} : (s.cancelFuture id).available = s.available := by
  have hdone (w : Waiter ι) :
      (if w.id = id ∧ w.future = .pending then { w with future := .cancelled } else w).future =
        .done ↔ w.future = .done := by
    split_ifs with h
    · simp [h.2]
    · rfl
  simp only [available, cancelFuture, List.countP_map, Function.comp_def, hdone]

theorem ids_cancelFuture {id : ι} : (s.cancelFuture id).ids = s.ids := by
  rw [ids, cancelFuture, List.map_map]
  refine List.map_congr_left fun w _ ↦ ?_
  rw [Function.comp_apply]
  split_ifs <;> rfl

theorem mem_cancelFuture {id : ι} {w : Waiter ι} (hw : w ∈ (s.cancelFuture id).waiters)
    (hnot : w.future ≠ .cancelled) : w ∈ s.waiters := by
  obtain ⟨v, hv, rfl⟩ := List.mem_map.1 hw
  split_ifs at hnot ⊢ with h
  · exact absurd rfl hnot
  · exact hv

theorem InOrder.cancelFuture (h : s.InOrder) (id : ι) : (s.cancelFuture id).InOrder := by
  rw [InOrder, Semaphore.cancelFuture, List.pairwise_map]
  refine h.imp fun {v w} hvw hdone ↦ ?_
  split_ifs at hdone ⊢
  all_goals first | exact FutureState.noConfusion | exact hvw hdone

theorem Busy.cancelFuture (h : s.Busy) (id : ι) : (s.cancelFuture id).Busy := by
  rcases h with hzero | hnone | ⟨w, hw, hdone⟩
  · exact Or.inl hzero
  · refine Or.inr (Or.inl fun w hw hpending ↦ ?_)
    exact hnone w (mem_cancelFuture hw (by rw [hpending]; decide)) hpending
  · refine Or.inr (Or.inr ⟨w, List.mem_map.2 ⟨w, hw, if_neg fun h ↦ ?_⟩, hdone⟩)
    rw [h.2] at hdone
    cases hdone

/-- The waiter has left, with or without the permit that it was given, and nobody is woken yet. -/
def left (s : Semaphore ι) (w : Waiter ι) (cancelled : Bool) : Semaphore ι where
  value := s.value + if cancelled = true ∧ w.future = .done then 1 else 0
  waiters := s.waiters.erase w

theorem resume_eq (w : Waiter ι) (cancelled : Bool) :
    s.resume w cancelled = (s.left w cancelled).wakeUp (s.left w cancelled).value := rfl

theorem available_resume {w : Waiter ι} (hw : w ∈ s.waiters) (cancelled : Bool) :
    (s.resume w cancelled).available +
      (if w.future = .done ∧ cancelled = false then 1 else 0) = s.available := by
  have hleft : (s.left w cancelled).available +
      (if w.future = .done ∧ cancelled = false then 1 else 0) = s.available := by
    have hcount := (List.perm_cons_erase hw).countP_eq fun w ↦ w.future = .done
    rw [List.countP_cons] at hcount
    simp only [available, left, hcount, decide_eq_true_eq]
    cases cancelled <;> by_cases hdone : w.future = .done <;> simp [hdone] <;> omega
  rw [resume_eq, ← hleft]
  congr 1
  exact wakeUp_induction (fun t t' hwoke hpos ht ↦ (hwoke.available_eq hpos).trans ht) (Nat.le_refl _) rfl

theorem ids_resume (w : Waiter ι) (cancelled : Bool) :
    (s.resume w cancelled).ids = (s.waiters.erase w).map Waiter.id :=
  wakeUp_induction (I := fun t ↦ t.ids = (s.waiters.erase w).map Waiter.id)
    (fun _ _ hwoke _ ht ↦ hwoke.ids_eq.trans ht) (Nat.le_refl _) rfl

theorem InOrder.resume (h : s.InOrder) (w : Waiter ι) (cancelled : Bool) :
    (s.resume w cancelled).InOrder :=
  wakeUp_induction (fun _ _ hwoke _ ht ↦ hwoke.inOrder ht) (Nat.le_refl _)
    (h.sublist List.erase_sublist)

theorem mem_of_resume {v w : Waiter ι} {cancelled : Bool}
    (hv : v ∈ (s.resume w cancelled).waiters) (hpending : v.future = .pending) : v ∈ s.waiters := by
  refine List.mem_of_mem_erase (a := v) (b := w) ?_
  revert hv
  exact wakeUp_induction (I := fun t ↦ v ∈ t.waiters → v ∈ s.waiters.erase w)
    (fun t t' hwoke _ ht hv ↦ ht (hwoke.mem_of_pending hv hpending)) (Nat.le_refl _) id

theorem busy_resume (w : Waiter ι) (cancelled : Bool) : (s.resume w cancelled).Busy :=
  (wakeUp_busy rfl).imp_right Or.inl

end

end Semaphore

end LlmGateway
