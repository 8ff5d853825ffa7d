import LlmGateway.Worker.Slots
import Mathlib.Data.List.Range

/-!
# What a limiter keeps under any schedule

However the callers of a limiter are interleaved, timed out and cancelled, no slot is lost or given
twice: the counters of the limiter are the numbers of its callers, and as soon as the woken callers
have run, a caller waits only while all slots are taken. Nobody who waits is overtaken.
-/

namespace LlmGateway

open Relational

namespace Limiter

variable {l : Limiter}

/-- What holds of a limiter at all times. -/
structure Sound (l : Limiter) : Prop where
  permits : l.semaphore.available + l.holders.length = l.limit
  active_eq : l.active = l.holders.length
  waiting_eq : l.waiting = l.semaphore.ids.length
  rejected_eq : l.rejectedTotal = l.rejected.length
  sorted : l.semaphore.ids.Pairwise (· < ·)
  accounted : (List.range l.arrived).Perm
    (l.semaphore.ids ++ (l.entered ++ (l.rejected ++ l.aborted)))
  inOrder : l.semaphore.InOrder
  busy : l.semaphore.Busy
  inTurn : ∀ e ∈ l.entered, ∀ w ∈ l.semaphore.waiters, w.future = .pending → e < w.id
  held : ∀ h ∈ l.holders, h ∈ l.entered
  timedOut : ∀ r ∈ l.rejected, r ∈ l.expired

namespace Sound

theorem lt_arrived (h : l.Sound) {number : ℕ}
    (hmem : number ∈ l.semaphore.ids ++ (l.entered ++ (l.rejected ++ l.aborted))) :
    number < l.arrived :=
  List.mem_range.1 (h.accounted.mem_iff.2 hmem)

theorem new {limit : ℤ} {acquireTimeoutSeconds : ℚ}
    (hnew : Limiter.new limit acquireTimeoutSeconds = .ok l) : l.Sound ∧ (l.limit : ℤ) = limit := by
  unfold Limiter.new at hnew
  split_ifs at hnew with hlimit
  obtain rfl := Except.ok.inj hnew
  refine ⟨⟨rfl, rfl, rfl, rfl, .nil, .refl _, .nil, ?_, ?_, ?_, ?_⟩, ?_⟩
  · exact Or.inr (Or.inl fun w hw ↦ absurd hw List.not_mem_nil)
  · exact fun e he ↦ absurd he List.not_mem_nil
  · exact fun e he ↦ absurd he List.not_mem_nil
  · exact fun e he ↦ absurd he List.not_mem_nil
  · exact Int.toNat_of_nonneg (not_le.1 hlimit).le

/-- A step that only cancels futures. -/
theorem cancelFuture (h : l.Sound) (number : ℕ) (expired interrupted : List ℕ)
    (hexpired : ∀ n ∈ l.expired, n ∈ expired) :
    Sound { l with
      semaphore := l.semaphore.cancelFuture number
      expired := expired
      interrupted := interrupted } where
  permits := by rw [← h.permits, Semaphore.available_cancelFuture]
  active_eq := h.active_eq
  waiting_eq := by rw [h.waiting_eq, Semaphore.ids_cancelFuture]
  rejected_eq := h.rejected_eq
  sorted := by rw [Semaphore.ids_cancelFuture]; exact h.sorted
  accounted := by rw [Semaphore.ids_cancelFuture]; exact h.accounted
  inOrder := h.inOrder.cancelFuture number
  busy := h.busy.cancelFuture number
  inTurn e he w hw hpending :=
    h.inTurn e he w (Semaphore.mem_cancelFuture hw (by rw [hpending]; decide)) hpending
  held := h.held
  timedOut r hr := hexpired r (h.timedOut r hr)

theorem leave (h : l.Sound) {number : ℕ} (hmem : number ∈ l.holders) :
    Sound { l with
      active := l.active - 1
      semaphore := l.semaphore.release
      holders := l.holders.erase number } := by
  have hlength := List.length_erase_add_one hmem
  constructor
  case permits =>
    have hpermits := h.permits
    show l.semaphore.release.available + (l.holders.erase number).length = l.limit
    rw [Semaphore.available_release]
    omega
  case active_eq =>
    simp only [h.active_eq, ← hlength]
    omega
  case waiting_eq => rw [h.waiting_eq, Semaphore.ids_release]
  case rejected_eq => exact h.rejected_eq
  case sorted => rw [Semaphore.ids_release]; exact h.sorted
  case accounted => rw [Semaphore.ids_release]; exact h.accounted
  case inOrder => exact h.inOrder.release
  case busy => exact Semaphore.busy_release
  case inTurn =>
    exact fun e he w hw hpending ↦
      h.inTurn e he w (Semaphore.mem_of_release hw hpending) hpending
  case held => exact fun n hn ↦ h.held n (List.mem_of_mem_erase hn)
  case timedOut => exact h.timedOut

/-- A waiter leaves the queue of the semaphore. -/
theorem perm_ids {w : Waiter ℕ} (hw : w ∈ l.semaphore.waiters) (cancelled : Bool) :
    l.semaphore.ids.Perm (w.id :: (l.semaphore.resume w cancelled).ids) := by
  rw [Semaphore.ids_resume]
  exact (List.perm_cons_erase hw).map Waiter.id

theorem sorted_resume (h : l.Sound) (w : Waiter ℕ) (cancelled : Bool) :
    (l.semaphore.resume w cancelled).ids.Pairwise (· < ·) := by
  rw [Semaphore.ids_resume]
  exact h.sorted.sublist (List.erase_sublist.map _)

theorem length_ids {w : Waiter ℕ} (hw : w ∈ l.semaphore.waiters) (cancelled : Bool) :
    l.semaphore.ids.length = (l.semaphore.resume w cancelled).ids.length + 1 :=
  (perm_ids hw cancelled).length_eq

/-- A waiter to whom a permit was given came before all who are pending. -/
theorem lt_of_done (h : l.Sound) {v w : Waiter ℕ} (hw : w ∈ l.semaphore.waiters)
    (hdone : w.future = .done) (hv : v ∈ l.semaphore.waiters) (hpending : v.future = .pending) :
    w.id < v.id := by
  obtain ⟨front, rest, heq⟩ := List.append_of_mem hw
  have hsorted := h.sorted
  have hinOrder := h.inOrder
  rw [Semaphore.ids, heq, List.pairwise_map, List.pairwise_append, List.pairwise_cons] at hsorted
  rw [Semaphore.InOrder, heq, List.pairwise_append] at hinOrder
  rw [heq, List.mem_append, List.mem_cons] at hv
  rcases hv with hfront | rfl | hrest
  · exact absurd hpending (hinOrder.2.2 v hfront w List.mem_cons_self hdone)
  · rw [hdone] at hpending
    cases hpending
  · exact hsorted.2.1.1 v hrest

/-- A cancelled waiter is rejected or aborted. -/
theorem gone (h : l.Sound) {w : Waiter ℕ} (hw : w ∈ l.semaphore.waiters) {rejectedTotal : ℤ}
    {rejected aborted : List ℕ} (hrejected : rejectedTotal = rejected.length)
    (hlogs : (rejected ++ aborted).Perm (w.id :: (l.rejected ++ l.aborted)))
    (htimedOut : ∀ r ∈ rejected, r ∈ l.expired) :
    Sound { l with
      semaphore := l.semaphore.resume w true
      waiting := l.waiting - 1
      rejectedTotal := rejectedTotal
      rejected := rejected
      aborted := aborted } where
  permits := by
    have hpermits := Semaphore.available_resume hw true
    simp only [Bool.true_eq_false, and_false, if_false, Nat.add_zero] at hpermits
    rw [hpermits, ← h.permits]
  active_eq := h.active_eq
  waiting_eq := by
    have hlength := length_ids hw true
    have hwaiting := h.waiting_eq
    show l.waiting - 1 = (l.semaphore.resume w true).ids.length
    omega
  rejected_eq := hrejected
  sorted := h.sorted_resume w true
  accounted := by
    refine h.accounted.trans (List.perm_iff_count.2 fun n ↦ ?_)
    have hleft := (perm_ids hw true).count_eq n
    have hlogged := hlogs.count_eq n
    simp only [List.count_append, List.count_cons] at hleft hlogged ⊢
    omega
  inOrder := h.inOrder.resume w true
  busy := Semaphore.busy_resume w true
  inTurn e he v hv hpending := h.inTurn e he v (Semaphore.mem_of_resume hv hpending) hpending
  held := h.held
  timedOut := htimedOut

/-- A waiter to whom a permit was given takes its slot. -/
theorem enter (h : l.Sound) {w : Waiter ℕ} (hw : w ∈ l.semaphore.waiters)
    (hdone : w.future = .done) : (l.enter w.id (l.semaphore.resume w false)).Sound where
  permits := by
    have hpermits := Semaphore.available_resume hw false
    have hbefore := h.permits
    simp only [hdone, and_self, if_true] at hpermits
    simp only [Limiter.enter, List.length_append, List.length_singleton]
    omega
  active_eq := by
    simp only [Limiter.enter, h.active_eq, List.length_append, List.length_singleton, Nat.cast_add,
      Nat.cast_one]
  waiting_eq := by
    have hlength := length_ids hw false
    have hwaiting := h.waiting_eq
    simp only [Limiter.enter]
    omega
  rejected_eq := h.rejected_eq
  sorted := h.sorted_resume w false
  accounted := by
    refine h.accounted.trans (List.perm_iff_count.2 fun n ↦ ?_)
    have hleft := (perm_ids hw false).count_eq n
    simp only [Limiter.enter, List.count_append, List.count_cons, List.count_nil] at hleft ⊢
    omega
  inOrder := h.inOrder.resume w false
  busy := Semaphore.busy_resume w false
  inTurn e he v hv hpending := by
    have hv' : v ∈ l.semaphore.waiters := Semaphore.mem_of_resume hv hpending
    cases List.mem_append.1 he with
    | inl hentered => exact h.inTurn e hentered v hv' hpending
    | inr hnow =>
      rw [List.mem_singleton.1 hnow]
      exact h.lt_of_done hw hdone hv' hpending
  held n hn := (List.mem_append.1 hn).elim (fun hheld ↦ List.mem_append_left _ (h.held n hheld))
    fun hnow ↦ List.mem_append_right _ hnow
  timedOut := h.timedOut

theorem resume (h : l.Sound) {w : Waiter ℕ} (hw : w ∈ l.semaphore.waiters) :
    (l.resume w).Sound := by
  unfold Limiter.resume
  split_ifs with hcancelled hexpired hdone
  · refine h.gone hw ?_ ?_ fun r hr ↦ ?_
    · rw [h.rejected_eq, List.length_append, List.length_singleton, Nat.cast_add, Nat.cast_one]
    · exact (List.perm_append_singleton w.id l.rejected).append_right l.aborted
    · exact (List.mem_append.1 hr).elim (h.timedOut r)
        fun hnow ↦ List.mem_singleton.1 hnow ▸ hexpired.1
  · refine h.gone hw h.rejected_eq ?_ h.timedOut
    rw [← List.append_assoc]
    exact List.perm_append_singleton _ _
  · exact h.enter hw hdone
  · exact h

/-- The next caller joins the waiters. -/
theorem arrive_waits (h : l.Sound) (hlocked : l.semaphore.Locked) : l.arrive.Sound := by
  have hnew (n : ℕ) (hn : n ∈ l.semaphore.ids) : n < l.arrived :=
    h.lt_arrived (List.mem_append_left _ hn)
  have hacquire : l.semaphore.acquire l.arrived =
      (false, { l.semaphore with waiters := l.semaphore.waiters ++ [⟨l.arrived, .pending⟩] }) :=
    if_pos hlocked
  have hids : (l.semaphore.acquire l.arrived).2.ids = l.semaphore.ids ++ [l.arrived] := by
    rw [hacquire, Semaphore.ids, List.map_append]
    rfl
  have hpermits := l.semaphore.available_acquire l.arrived
  have hbusy := h.busy.acquire l.arrived
  have hbefore := h.permits
  have harrive : l.arrive = { l with
      waiting := l.waiting + 1
      arrived := l.arrived + 1
      semaphore := (l.semaphore.acquire l.arrived).2 } := by
    rw [Limiter.arrive, hacquire]
  rw [harrive]
  constructor
  case permits =>
    simp only [hacquire, Bool.false_eq_true, if_false, Nat.add_zero] at hpermits ⊢
    rw [hpermits, hbefore]
  case active_eq => exact h.active_eq
  case waiting_eq =>
    rw [hids, List.length_append, h.waiting_eq]
    rfl
  case rejected_eq => exact h.rejected_eq
  case sorted =>
    rw [hids, List.pairwise_append]
    refine ⟨h.sorted, List.pairwise_singleton _ _, fun n hn m hm ↦ ?_⟩
    rw [List.mem_singleton.1 hm]
    exact hnew n hn
  case accounted =>
    rw [hids, List.range_succ]
    refine List.perm_iff_count.2 fun n ↦ ?_
    have hbefore := h.accounted.count_eq n
    simp only [List.count_append] at hbefore ⊢
    omega
  case inOrder =>
    rw [hacquire, Semaphore.InOrder, List.pairwise_append]
    refine ⟨h.inOrder, List.pairwise_singleton _ _, fun v _ w hw hdone ↦ ?_⟩
    rw [List.mem_singleton.1 hw] at hdone
    cases hdone
  case busy => exact hbusy
  case inTurn =>
    intro e he w hw hpending
    rw [hacquire] at hw
    cases List.mem_append.1 hw with
    | inl hold => exact h.inTurn e he w hold hpending
    | inr hnow =>
      rw [List.mem_singleton.1 hnow]
      exact h.lt_arrived (List.mem_append_right _ (List.mem_append_left _ he))
  case held => exact h.held
  case timedOut => exact h.timedOut

/-- The next caller takes a free slot. -/
theorem arrive_enters (h : l.Sound) (hfree : ¬l.semaphore.Locked) : l.arrive.Sound := by
  have hacquire : l.semaphore.acquire l.arrived =
      (true, { l.semaphore with value := l.semaphore.value - 1 }) := if_neg hfree
  have hpermits := l.semaphore.available_acquire l.arrived
  have hbusy := h.busy.acquire l.arrived
  have hbefore := h.permits
  have harrive : l.arrive = Limiter.enter { l with
      waiting := l.waiting + 1
      arrived := l.arrived + 1 } l.arrived (l.semaphore.acquire l.arrived).2 := by
    rw [Limiter.arrive, hacquire]
  rw [harrive]
  constructor
  case permits =>
    simp only [hacquire, if_true] at hpermits
    simp only [Limiter.enter, hacquire, List.length_append, List.length_singleton]
    omega
  case active_eq =>
    simp only [Limiter.enter, h.active_eq, List.length_append, List.length_singleton, Nat.cast_add,
      Nat.cast_one]
  case waiting_eq =>
    simp only [Limiter.enter, hacquire, add_sub_cancel_right]
    exact h.waiting_eq
  case rejected_eq => exact h.rejected_eq
  case sorted =>
    rw [Limiter.enter, hacquire]
    exact h.sorted
  case accounted =>
    simp only [Limiter.enter, hacquire, List.range_succ]
    refine List.perm_iff_count.2 fun n ↦ ?_
    have hbefore := h.accounted.count_eq n
    simp only [Semaphore.ids, List.count_append] at hbefore ⊢
    omega
  case inOrder =>
    rw [Limiter.enter, hacquire]
    exact h.inOrder
  case busy => exact hbusy
  case inTurn =>
    intro e _ w hw hpending
    simp only [Limiter.enter, hacquire] at hw
    exact absurd (Or.inr ⟨w, hw, by rw [hpending]; decide⟩) hfree
  case held =>
    exact fun n hn ↦ (List.mem_append.1 hn).elim
      (fun hheld ↦ List.mem_append_left _ (h.held n hheld)) fun hnow ↦ List.mem_append_right _ hnow
  case timedOut => exact h.timedOut

theorem arrive (h : l.Sound) : l.arrive.Sound :=
  (em l.semaphore.Locked).elim h.arrive_waits h.arrive_enters

theorem exec (h : l.Sound) (a : LimiterAction) : (l.exec a).Sound := by
  have hwaiter {number : ℕ} {w : Waiter ℕ} (hw : l.waiter? number = some w) :
      w ∈ l.semaphore.waiters := List.mem_of_find?_eq_some hw
  cases a with
  | arrive => exact h.arrive
  | expire number =>
    simp only [Limiter.exec]
    split_ifs
    · exact h.cancelFuture number _ _ fun n hn ↦ List.mem_cons_of_mem number hn
    · exact h
  | cancel number =>
    simp only [Limiter.exec]
    split_ifs
    · exact h.cancelFuture number _ _ fun n hn ↦ hn
    · exact h
  | resume number =>
    simp only [Limiter.exec]
    cases hw : l.waiter? number with
    | none => exact h
    | some w => exact h.resume (hwaiter hw)
  | leave number =>
    simp only [Limiter.exec]
    split_ifs with hmem
    · exact h.leave hmem
    · exact h

end Sound

/-! ## Runs -/

theorem sound_run {limit : ℤ} {acquireTimeoutSeconds : ℚ}
    (hnew : Limiter.new limit acquireTimeoutSeconds = .ok l) (actions : List LimiterAction) :
    (run exec l actions).Sound :=
  invariant_run (fun _ a h ↦ h.exec a) (Sound.new hnew).1 actions

theorem limit_exec (l : Limiter) (a : LimiterAction) : (l.exec a).limit = l.limit := by
  cases a with
  | arrive =>
    simp only [exec, arrive]
    split <;> rfl
  | expire number =>
    simp only [exec]
    split_ifs <;> rfl
  | cancel number =>
    simp only [exec]
    split_ifs <;> rfl
  | resume number =>
    simp only [exec]
    cases l.waiter? number with
    | none => rfl
    | some w =>
      simp only [Option.elim, resume]
      split_ifs <;> rfl
  | leave number =>
    simp only [exec]
    split_ifs <;> rfl

theorem limit_run {limit : ℤ} {acquireTimeoutSeconds : ℚ}
    (hnew : Limiter.new limit acquireTimeoutSeconds = .ok l) (actions : List LimiterAction) :
    ((run exec l actions).limit : ℤ) = limit :=
  invariant_run (I := fun l' : Limiter ↦ (l'.limit : ℤ) = limit)
    (fun l' a h ↦ by rw [limit_exec, h]) (Sound.new hnew).2 actions

/-- Under any schedule of calls, timeouts, cancellations and ends of blocks, the counters of the
limiter are the numbers of its callers, each caller so far is counted once, and the slots that are
taken, given or free are as many as the limit. -/
theorem slots_kept {limit : ℤ} {acquireTimeoutSeconds : ℚ}
    (hnew : Limiter.new limit acquireTimeoutSeconds = .ok l) (actions : List LimiterAction) :
    let l' := run exec l actions
    (0 ≤ l'.snapshot.active ∧ l'.snapshot.active ≤ limit) ∧
      l'.snapshot.active = l'.holders.length ∧
      l'.snapshot.waiting = l'.semaphore.waiters.length ∧
      l'.snapshot.rejectedTotal = l'.rejected.length ∧
      ((l'.semaphore.available + l'.holders.length : ℕ) : ℤ) = limit ∧
      (List.range l'.arrived).Perm
        (l'.semaphore.ids ++ (l'.entered ++ (l'.rejected ++ l'.aborted))) := by
  have h : (run exec l actions).Sound := sound_run hnew actions
  have hlimit : ((run exec l actions).limit : ℤ) = limit := limit_run hnew actions
  have hpermits := h.permits
  have hactive := h.active_eq
  refine ⟨?_, hactive, ?_, h.rejected_eq, hpermits ▸ hlimit, h.accounted⟩
  · simp only [snapshot]
    omega
  · have hlength : (run exec l actions).semaphore.ids.length = _ := List.length_map _
    rw [← hlength]
    exact h.waiting_eq

/-- A limiter with one slot. -/
def oneSlot : Limiter := ⟨⟨1, []⟩, 1, 0, 0, 0, [], 0, [], [], [], [], []⟩

/-- The second caller is timed out after the slot was given to it, and the third gets the slot. -/
def contendedSlot : List LimiterAction :=
  [.arrive, .arrive, .arrive, .leave 0, .expire 1, .resume 1, .resume 2, .arrive]

theorem slots_kept_contended :
    let l' := run exec oneSlot contendedSlot
    (0 ≤ l'.snapshot.active ∧ l'.snapshot.active ≤ 1) ∧
      l'.snapshot.active = l'.holders.length ∧
      l'.snapshot.waiting = l'.semaphore.waiters.length ∧
      l'.snapshot.rejectedTotal = l'.rejected.length ∧
      ((l'.semaphore.available + l'.holders.length : ℕ) : ℤ) = 1 ∧
      (List.range l'.arrived).Perm
        (l'.semaphore.ids ++ (l'.entered ++ (l'.rejected ++ l'.aborted))) :=
  @slots_kept oneSlot 1 5 rfl contendedSlot

example : (run exec oneSlot contendedSlot).snapshot = ⟨1, 1, 1, 1⟩ := by decide

/-- Nobody who waits is overtaken, and once the woken callers have run, somebody waits only if all
slots are taken. -/
theorem slots_in_turn {limit : ℤ} {acquireTimeoutSeconds : ℚ}
    (hnew : Limiter.new limit acquireTimeoutSeconds = .ok l) (actions : List LimiterAction) :
    let l' := run exec l actions
    (∀ e ∈ l'.entered, ∀ w ∈ l'.semaphore.waiters, w.future = .pending → e < w.id) ∧
      ((∀ w ∈ l'.semaphore.waiters, w.future = .pending) → l'.semaphore.waiters ≠ [] →
        (l'.holders.length : ℤ) = limit) := by
  have h : (run exec l actions).Sound := sound_run hnew actions
  have hlimit : ((run exec l actions).limit : ℤ) = limit := limit_run hnew actions
  refine ⟨h.inTurn, fun hall hsome ↦ ?_⟩
  obtain ⟨w, hw⟩ := List.exists_mem_of_ne_nil _ hsome
  have hnone : (run exec l actions).semaphore.waiters.countP
      (fun w ↦ decide (w.future = .done)) = 0 := by
    refine List.countP_eq_zero.2 fun v hv ↦ ?_
    rw [hall v hv]
    decide
  have hvalue : (run exec l actions).semaphore.value = 0 := by
    rcases h.busy with hzero | hpending | ⟨v, hv, hdone⟩
    · exact hzero
    · exact absurd (hall w hw) (hpending w hw)
    · rw [hall v hv] at hdone
      cases hdone
  have hpermits := h.permits
  rw [Semaphore.available, hvalue, hnone] at hpermits
  omega

theorem slots_in_turn_contended :
    let l' := run exec oneSlot contendedSlot
    (∀ e ∈ l'.entered, ∀ w ∈ l'.semaphore.waiters, w.future = .pending → e < w.id) ∧
      ((∀ w ∈ l'.semaphore.waiters, w.future = .pending) → l'.semaphore.waiters ≠ [] →
        (l'.holders.length : ℤ) = 1) :=
  @slots_in_turn oneSlot 1 5 rfl contendedSlot

end Limiter

end LlmGateway
