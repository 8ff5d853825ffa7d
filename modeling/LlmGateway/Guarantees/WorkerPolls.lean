import LlmGateway.Worker.Polls

/-!
# What becomes of the items of a poll

An item that a poll has claimed is served until its processor has run to its end or its claim is
lost. The steps after which an item is not served are stated on the state before them, for each of
the two workers.
-/

namespace LlmGateway

open Relational

/-- The item is served, in a poll of this phase: it waits for its task while the poll claims, its
tasks run while the poll does not return, or it has ended well. -/
def Slot.IsServed (phase : PollPhase) : Slot → Prop
  | .claimed => phase = .claiming
  | .processing | .completing => phase ≠ .returned
  | .ended ending _ => ending.isServed = true

/-- Every item that the poll has claimed is served, unless the worker is stopped. -/
def WorkerPoll.Served (poll : WorkerPoll) : Prop :=
  poll.stopped = false → ∀ slot ∈ poll.slots, slot.IsServed poll.phase

/-- No renewal of a claim raises, which would cancel the processor of the item. -/
def Slot.Renews (slot : Slot) (task : SlotTask) (outcome : TaskOutcome) : Prop :=
  slot = .processing → task = .renewal → outcome = .returned

namespace Slot

variable {slot : Slot} {phase phase' : PollPhase} {task : SlotTask} {outcome : TaskOutcome}

/-- A task of the item ends: it stays served exactly if that was no failed renewal. -/
theorem isServed_advance (h : slot.IsServed phase) :
    (slot.advance task outcome).IsServed phase ↔ slot.Renews task outcome := by
  cases slot with
  | claimed => exact iff_of_true h fun hslot ↦ by cases hslot
  | ended ending collected => exact iff_of_true h fun hslot ↦ by cases hslot
  | completing =>
    refine iff_of_true ?_ fun hslot ↦ by cases hslot
    cases task with
    | processor | renewal => exact h
    | completion => cases outcome <;> exact rfl
  | processing =>
    cases task with
    | processor =>
      refine iff_of_true ?_ fun _ htask ↦ by cases htask
      cases outcome with
      | returned => exact h
      | raised | interrupted => exact rfl
    | completion => exact iff_of_true h fun _ htask ↦ by cases htask
    | renewal =>
      cases outcome with
      | returned => exact iff_of_true rfl fun _ _ ↦ rfl
      | raised | interrupted =>
        refine iff_of_false (fun hserved ↦ by cases hserved) fun hrenews ↦ ?_
        cases hrenews rfl rfl

/-- A poll that raises cancels what has not ended. -/
theorem isServed_cancel (h : slot.IsServed phase) :
    slot.cancel.IsServed .raised ↔ slot.isEnded = true := by
  cases slot with
  | claimed | processing | completing =>
    exact iff_of_false (fun hserved ↦ by cases hserved) Bool.false_ne_true
  | ended ending collected => exact iff_of_true h rfl

theorem isServed_collect (h : slot.IsServed phase) : slot.collect.IsServed phase := by
  cases slot with
  | claimed | processing | completing => exact h
  | ended ending collected => exact h

/-- A poll goes on with items that have tasks. -/
theorem IsServed.of_ne_claimed (h : slot.IsServed phase) (hslot : slot ≠ .claimed)
    (hphase : phase' ≠ .returned ∨ slot.isEnded = true) : slot.IsServed phase' := by
  cases slot with
  | claimed => exact absurd rfl hslot
  | processing | completing => exact hphase.resolve_right Bool.false_ne_true
  | ended ending collected => exact h

theorem isEnded_of_isActive_eq_false (h : slot.isActive = false) : slot.isEnded = true := by
  cases slot with
  | claimed | processing | completing => cases h
  | ended ending collected => rfl

end Slot

/-- One entry of a list of good entries changes. -/
theorem forall_mem_modify_iff {α : Type*} {P : α → Prop} {l : List α} (h : ∀ a ∈ l, P a) (i : ℕ)
    (f : α → α) : (∀ b ∈ l.modify i f, P b) ↔ ∀ a ∈ l[i]?, P (f a) := by
  constructor
  · intro hall a ha
    apply hall
    have hmodified : (l.modify i f)[i]? = some (f a) := by
      rw [List.getElem?_modify_eq, Option.mem_def.1 ha]
      rfl
    exact List.mem_of_getElem? hmodified
  · intro hone b hb
    obtain ⟨j, hj⟩ := List.mem_iff_getElem?.1 hb
    rw [List.getElem?_modify] at hj
    obtain ⟨a, ha, heq⟩ := Option.map_eq_some_iff.1 hj
    split_ifs at heq with hij
    · rw [← heq]
      exact hone a (hij ▸ ha)
    · rw [← heq]
      exact h a (List.mem_of_getElem? ha)

namespace WorkerPoll

variable {poll : WorkerPoll}

/-- The poll raises: what has not ended is cancelled. -/
theorem served_fail (h : poll.Served) (hstopped : poll.stopped = false) :
    poll.fail.Served ↔ ∀ slot ∈ poll.slots, slot.isEnded = true := by
  have hslots := h hstopped
  constructor
  · intro hserved slot hslot
    exact (Slot.isServed_cancel (hslots slot hslot)).1
      (hserved hstopped slot.cancel (List.mem_map_of_mem hslot))
  · intro hended _ cancelled hcancelled
    obtain ⟨slot, hslot, rfl⟩ := List.mem_map.1 hcancelled
    exact (Slot.isServed_cancel (hslots slot hslot)).2 (hended slot hslot)

/-- A task of an item ends. -/
theorem served_advance (h : poll.Served) (hstopped : poll.stopped = false) (slot : ℕ)
    (task : SlotTask) (outcome : TaskOutcome) :
    (poll.advance slot task outcome).Served ↔
      ∀ s ∈ poll.slots[slot]?, Slot.Renews s task outcome := by
  have hslots := h hstopped
  have hmodify := forall_mem_modify_iff hslots slot (·.advance task outcome)
  constructor
  · intro hserved s hs
    exact (Slot.isServed_advance (hslots s (List.mem_of_getElem? hs))).1
      (hmodify.1 (hserved hstopped) s hs)
  · intro hrenews _
    exact hmodify.2 fun s hs ↦
      (Slot.isServed_advance (hslots s (List.mem_of_getElem? hs))).2 (hrenews s hs)

theorem served_of_stopped (h : poll.stopped = true) : poll.Served := fun hstopped ↦ by
  rw [h] at hstopped
  cases hstopped

end WorkerPoll

/-! ## The event worker -/

namespace EventWorker

variable {maxParallelism : ℕ} {poll : WorkerPoll}

/-- Every item has its task. -/
def Started (poll : WorkerPoll) : Prop := ∀ slot ∈ poll.slots, slot ≠ .claimed

/-- A poll claims only while no ended task is about to raise; a claim call raises, and a task that
raises is collected, only when all items have ended; no renewal raises. -/
def Serves (poll : WorkerPoll) : PollHappening → Prop
  | .claimed => poll.phase = .claiming → ¬poll.Escapes
  | .claimRaises => poll.phase = .claiming → ∀ slot ∈ poll.slots, slot.isEnded = true
  | .task slot task outcome => ∀ s ∈ poll.slots[slot]?, Slot.Renews s task outcome
  | .wake => poll.phase = .waiting → poll.Escapes → ∀ slot ∈ poll.slots, slot.isEnded = true
  | .nothing | .drain | .stop => True

/-- The poll goes on, or returns when no item is left. -/
theorem served_waitOrReturn (hstarted : Started poll) {phase : PollPhase}
    (hslots : ∀ slot ∈ poll.slots, slot.IsServed phase) : (waitOrReturn poll).Served := by
  intro _ slot hslot
  apply (hslots slot hslot).of_ne_claimed (hstarted slot hslot)
  simp only [waitOrReturn]
  split_ifs with hany
  · exact Or.inl PollPhase.noConfusion
  · refine Or.inr (Slot.isEnded_of_isActive_eq_false ?_)
    exact Bool.eq_false_of_not_eq_true fun hactive ↦ hany (List.any_eq_true.2 ⟨slot, hslot, hactive⟩)

theorem served_claimOrWait (hstarted : Started poll) {phase : PollPhase}
    (hslots : ∀ slot ∈ poll.slots, slot.IsServed phase) :
    (claimOrWait maxParallelism poll).Served := by
  unfold claimOrWait
  split_ifs
  · exact fun _ slot hslot ↦ (hslots slot hslot).of_ne_claimed (hstarted slot hslot)
      (Or.inl PollPhase.noConfusion)
  · exact served_waitOrReturn hstarted hslots

theorem collect_ne_claimed {slot : Slot} (h : slot ≠ .claimed) : slot.collect ≠ .claimed := by
  cases slot with
  | claimed | processing | completing => exact h
  | ended ending collected => exact Slot.noConfusion

theorem started_collect (h : Started poll) :
    Started { poll with slots := poll.slots.map Slot.collect } := by
  intro collected hcollected
  obtain ⟨slot, hslot, rfl⟩ := List.mem_map.1 hcollected
  exact collect_ne_claimed (h slot hslot)

/-- Collecting the ended tasks: if one of them raises, all items must have ended. -/
theorem served_gather (hstarted : Started poll) (h : poll.Served)
    (hstopped : poll.stopped = false) :
    (gather maxParallelism poll).Served ↔
      (poll.Escapes → ∀ slot ∈ poll.slots, slot.isEnded = true) := by
  unfold gather
  split_ifs with hescapes
  · rw [WorkerPoll.served_fail h hstopped]
    exact ⟨fun hended _ ↦ hended, fun hended ↦ hended hescapes⟩
  · refine iff_of_true ?_ fun habsurd ↦ absurd habsurd hescapes
    have hcollect : ∀ slot ∈ poll.slots.map Slot.collect, slot.IsServed poll.phase := by
      intro collected hcollected
      obtain ⟨slot, hslot, rfl⟩ := List.mem_map.1 hcollected
      exact Slot.isServed_collect (h hstopped slot hslot)
    exact served_claimOrWait (started_collect hstarted) hcollect

/-! ### Every item has its task -/

theorem started_claimOrWait (h : Started poll) : Started (claimOrWait maxParallelism poll) := by
  unfold claimOrWait
  split_ifs
  · exact h
  · exact h

theorem started_fail (h : Started poll) : Started poll.fail := by
  intro cancelled hcancelled
  obtain ⟨slot, hslot, rfl⟩ := List.mem_map.1 hcancelled
  cases slot with
  | claimed => exact absurd rfl (h _ hslot)
  | processing | completing | ended => exact Slot.noConfusion

theorem started_gather (h : Started poll) : Started (gather maxParallelism poll) := by
  unfold gather
  split_ifs
  · exact started_fail h
  · exact started_claimOrWait (started_collect h)

theorem advance_ne_claimed {slot : Slot} (h : slot ≠ .claimed) (task : SlotTask)
    (outcome : TaskOutcome) : slot.advance task outcome ≠ .claimed := by
  cases slot with
  | claimed => exact absurd rfl h
  | processing | completing | ended =>
    cases task <;> cases outcome <;> exact Slot.noConfusion

theorem started_exec (h : Started poll) (happening : PollHappening) :
    Started (exec maxParallelism poll happening) := by
  cases happening with
  | claimed =>
    simp only [exec]
    split_ifs
    · apply started_gather
      intro slot hslot
      obtain hold | hnew := List.mem_append.1 hslot
      · exact h slot hold
      · rw [List.mem_singleton.1 hnew]
        exact Slot.noConfusion
    · exact h
  | nothing =>
    simp only [exec]
    split_ifs
    all_goals exact h
  | claimRaises =>
    simp only [exec]
    split_ifs
    · exact started_fail h
    · exact h
  | task slot task outcome =>
    exact (forall_mem_modify_iff h slot _).2 fun s hs ↦
      advance_ne_claimed (h s (List.mem_of_getElem? hs)) task outcome
  | wake =>
    simp only [exec]
    split_ifs
    · exact started_gather h
    · exact h
  | drain => exact h
  | stop =>
    simp only [exec]
    split_ifs
    · exact h
    · exact started_fail h

/-! ### Runs -/

/-- A stopped poll is served whatever happens. -/
theorem stopped_exec (h : poll.stopped = true) (happening : PollHappening) :
    (exec maxParallelism poll happening).stopped = true := by
  cases happening with
  | claimed | nothing | claimRaises | wake =>
    simp only [exec, gather, claimOrWait, waitOrReturn, WorkerPoll.fail]
    split_ifs
    all_goals exact h
  | task slot task outcome => exact h
  | drain => exact h
  | stop =>
    simp only [exec]
    split_ifs
    · exact h
    · rfl

/-- A step leaves every item served exactly under its condition. -/
theorem served_exec_iff (hstarted : Started poll) (h : poll.Served) (happening : PollHappening) :
    (exec maxParallelism poll happening).Served ↔
      (poll.stopped = false → Serves poll happening) := by
  cases hstopped : poll.stopped with
  | true =>
    exact iff_of_true (WorkerPoll.served_of_stopped (stopped_exec hstopped happening)) fun hfalse ↦
      absurd hfalse.symm Bool.false_ne_true
  | false =>
    have hslots := h hstopped
    rw [forall_prop_of_true rfl]
    cases happening with
    | claimed =>
      simp only [exec, Serves]
      split_ifs with hphase
      · have hadded : ∀ slot ∈ poll.slots ++ [Slot.processing],
            slot ≠ .claimed ∧ slot.IsServed .claiming := by
          intro slot hslot
          obtain hold | hnew := List.mem_append.1 hslot
          · exact ⟨hstarted slot hold, hphase ▸ hslots slot hold⟩
          · rw [List.mem_singleton.1 hnew]
            exact ⟨Slot.noConfusion, PollPhase.noConfusion⟩
        have hescapes : WorkerPoll.Escapes { poll with slots := poll.slots ++ [.processing] } ↔
            poll.Escapes := by
          simp only [WorkerPoll.Escapes, List.mem_append, List.mem_singleton]
          constructor
          · rintro ⟨slot, hold | hnew, hslot⟩
            · exact ⟨slot, hold, hslot⟩
            · rw [hnew] at hslot
              cases hslot
          · exact fun ⟨slot, hold, hslot⟩ ↦ ⟨slot, Or.inl hold, hslot⟩
        have hserved : WorkerPoll.Served { poll with slots := poll.slots ++ [.processing] } :=
          fun _ slot hslot ↦ by
            change slot.IsServed poll.phase
            rw [hphase]
            exact (hadded slot hslot).2
        rw [served_gather (fun slot hslot ↦ (hadded slot hslot).1) hserved hstopped, hescapes]
        -- The new item has not ended.
        have hnew : ¬∀ slot ∈ poll.slots ++ [Slot.processing], slot.isEnded = true := fun hended ↦
          Bool.false_ne_true (hended .processing (List.mem_append_right _ List.mem_cons_self))
        exact ⟨fun hall _ habsurd ↦ hnew (hall habsurd), fun hnone habsurd ↦
          absurd habsurd (hnone hphase)⟩
      · exact iff_of_true h fun habsurd ↦ absurd habsurd hphase
    | nothing =>
      simp only [exec, Serves]
      split_ifs
      · exact iff_of_true (served_waitOrReturn hstarted hslots) trivial
      · exact iff_of_true h trivial
    | claimRaises =>
      simp only [exec, Serves]
      split_ifs with hphase
      · rw [WorkerPoll.served_fail h hstopped]
        exact ⟨fun hended _ ↦ hended, fun hended ↦ hended hphase⟩
      · exact iff_of_true h fun habsurd ↦ absurd habsurd hphase
    | task slot task outcome => exact WorkerPoll.served_advance h hstopped slot task outcome
    | wake =>
      simp only [exec, Serves]
      split_ifs with hwake
      · rw [served_gather hstarted h hstopped]
        exact ⟨fun hended _ ↦ hended, fun hended ↦ hended hwake.1⟩
      · refine iff_of_true h fun hphase ⟨slot, hslot, hescapes⟩ ↦ ?_
        refine absurd ⟨hphase, slot, hslot, ?_⟩ hwake
        cases slot with
        | claimed | processing | completing => cases hescapes
        | ended ending collected =>
          simp only [Slot.escapes, Bool.and_eq_true] at hescapes
          exact ⟨hescapes.2, rfl⟩
    | drain => exact iff_of_true h trivial
    | stop =>
      simp only [exec, Serves]
      split_ifs
      · exact iff_of_true h trivial
      · exact iff_of_true (WorkerPoll.served_of_stopped rfl) trivial

theorem served_start (maxParallelism : ℕ) (draining : Bool) :
    (start maxParallelism draining).Served :=
  served_claimOrWait (fun _ hslot ↦ absurd hslot List.not_mem_nil)
    (fun _ hslot ↦ absurd hslot List.not_mem_nil : ∀ slot ∈ [], Slot.IsServed .claiming slot)

theorem started_start (maxParallelism : ℕ) (draining : Bool) :
    Started (start maxParallelism draining) :=
  started_claimOrWait fun _ hslot ↦ absurd hslot List.not_mem_nil

end EventWorker

/-! ## The decision worker -/

namespace DecisionWorker

variable {maxParallelism : ℕ} {poll : WorkerPoll}

/-- A claim call raises only while no item is claimed; no renewal raises. -/
def Serves (poll : WorkerPoll) : PollHappening → Prop
  | .claimRaises => poll.phase = .claiming → ∀ slot ∈ poll.slots, slot ≠ .claimed
  | .task slot task outcome => ∀ s ∈ poll.slots[slot]?, Slot.Renews s task outcome
  | .claimed | .nothing | .wake | .drain | .stop => True

theorem isServed_start {slot : Slot} {phase phase' : PollPhase} (h : slot.IsServed phase)
    (hphase' : phase' ≠ .returned) : slot.start.IsServed phase' := by
  cases slot with
  | claimed | processing | completing => exact hphase'
  | ended ending collected => exact h

/-- What is claimed is sent. -/
theorem served_send {phase : PollPhase} (hslots : ∀ slot ∈ poll.slots, slot.IsServed phase) :
    (send poll).Served := by
  intro _ started hstarted
  obtain ⟨slot, hslot, rfl⟩ := List.mem_map.1 hstarted
  apply isServed_start (hslots slot hslot)
  have hne : poll.slots ≠ [] := List.ne_nil_of_mem hslot
  simp only [send, if_neg hne]
  exact PollPhase.noConfusion

theorem served_claimOrSend
    (hslots : ∀ slot ∈ poll.slots, slot.IsServed .claiming) :
    (claimOrSend maxParallelism poll).Served := by
  unfold claimOrSend
  split_ifs
  · exact fun _ ↦ hslots
  · exact served_send hslots

theorem isServed_congr {slot : Slot} {phase phase' : PollPhase} (hphase : phase ≠ .claiming)
    (hphase' : phase' ≠ .claiming)
    (hreturned : slot.isEnded = true ∨ phase ≠ .returned ∧ phase' ≠ .returned) :
    slot.IsServed phase ↔ slot.IsServed phase' := by
  cases slot with
  | claimed => exact iff_of_false hphase hphase'
  | processing | completing =>
    obtain ⟨hne, hne'⟩ := hreturned.resolve_left Bool.false_ne_true
    exact iff_of_true hne hne'
  | ended ending collected => exact Iff.rfl

/-- `gather` leaves the tasks alone. -/
theorem served_gather (poll : WorkerPoll) : (gather poll).Served ↔ poll.Served := by
  unfold gather
  split_ifs with hphase hescapes hall
  · apply imp_congr_right
    intro _
    apply forall₂_congr
    intro slot _
    rw [hphase]
    exact isServed_congr PollPhase.noConfusion PollPhase.noConfusion
      (Or.inr ⟨PollPhase.noConfusion, PollPhase.noConfusion⟩)
  · apply imp_congr_right
    intro _
    apply forall₂_congr
    intro slot hslot
    rw [hphase]
    exact isServed_congr PollPhase.noConfusion PollPhase.noConfusion
      (Or.inl (List.all_eq_true.1 hall slot hslot))
  · exact Iff.rfl
  · exact Iff.rfl

/-- A stopped poll is served whatever happens. -/
theorem stopped_exec (h : poll.stopped = true) (happening : PollHappening) :
    (exec maxParallelism poll happening).stopped = true := by
  cases happening with
  | claimed | nothing | claimRaises =>
    simp only [exec, claimOrSend, send]
    split_ifs
    all_goals exact h
  | task slot task outcome =>
    simp only [exec, gather]
    split_ifs
    all_goals exact h
  | wake => exact h
  | drain => exact h
  | stop =>
    simp only [exec]
    split_ifs
    · exact h
    · rfl

/-- A step leaves every item served exactly under its condition. -/
theorem served_exec_iff (h : poll.Served) (happening : PollHappening) :
    (exec maxParallelism poll happening).Served ↔
      (poll.stopped = false → Serves poll happening) := by
  cases hstopped : poll.stopped with
  | true =>
    exact iff_of_true (WorkerPoll.served_of_stopped (stopped_exec hstopped happening)) fun hfalse ↦
      absurd hfalse.symm Bool.false_ne_true
  | false =>
    have hslots := h hstopped
    rw [forall_prop_of_true rfl]
    cases happening with
    | claimed =>
      refine iff_of_true ?_ trivial
      simp only [exec]
      split_ifs with hphase
      · apply served_claimOrSend
        intro slot hslot
        obtain hold | hnew := List.mem_append.1 hslot
        · exact hphase ▸ hslots slot hold
        · rw [List.mem_singleton.1 hnew]
          exact rfl
      · exact h
    | nothing =>
      refine iff_of_true ?_ trivial
      simp only [exec]
      split_ifs
      · exact served_send hslots
      · exact h
    | claimRaises =>
      simp only [exec, Serves]
      split_ifs with hphase
      · constructor
        · intro hserved _ slot hslot heq
          have hraised := hserved hstopped slot hslot
          rw [heq] at hraised
          cases hraised
        · exact fun hnone _ slot hslot ↦ (hslots slot hslot).of_ne_claimed
            (hnone hphase slot hslot) (Or.inl PollPhase.noConfusion)
      · exact iff_of_true h fun habsurd ↦ absurd habsurd hphase
    | task slot task outcome =>
      exact (served_gather _).trans (WorkerPoll.served_advance h hstopped slot task outcome)
    | wake => exact iff_of_true h trivial
    | drain => exact iff_of_true h trivial
    | stop =>
      simp only [exec]
      split_ifs
      · exact iff_of_true h trivial
      · exact iff_of_true (WorkerPoll.served_of_stopped rfl) trivial

theorem served_start (maxParallelism : ℕ) (draining : Bool) :
    (start maxParallelism draining).Served :=
  served_claimOrSend fun _ hslot ↦ absurd hslot List.not_mem_nil

end DecisionWorker

/-! ## The polls -/

/-- In a poll of either worker, every item is served in every state exactly if every step before
the worker is stopped meets the condition. -/
theorem polls_served_iff (maxParallelism : ℕ) (draining : Bool) (happenings : List PollHappening) :
    (Guarded (EventWorker.exec maxParallelism)
        (fun poll a ↦ poll.stopped = false → EventWorker.Serves poll a)
        (EventWorker.start maxParallelism draining) happenings ↔
      ∀ taken, taken <+: happenings → WorkerPoll.Served
        (run (EventWorker.exec maxParallelism) (EventWorker.start maxParallelism draining) taken)) ∧
    (Guarded (DecisionWorker.exec maxParallelism)
        (fun poll a ↦ poll.stopped = false → DecisionWorker.Serves poll a)
        (DecisionWorker.start maxParallelism draining) happenings ↔
      ∀ taken, taken <+: happenings → WorkerPoll.Served
        (run (DecisionWorker.exec maxParallelism) (DecisionWorker.start maxParallelism draining)
          taken)) := by
  constructor
  · have hstep (poll : WorkerPoll) (happening : PollHappening) (h : EventWorker.Started poll) :
        EventWorker.Started (EventWorker.exec maxParallelism poll happening) :=
      EventWorker.started_exec h happening
    have hstart := EventWorker.started_start maxParallelism draining
    have hiff := guarded_iff_invariant (I := fun poll ↦ EventWorker.Started poll ∧ poll.Served)
      (fun poll happening h ↦ (and_iff_right (hstep poll happening h.1)).trans
        (EventWorker.served_exec_iff h.1 h.2 happening))
      ⟨hstart, EventWorker.served_start maxParallelism draining⟩ happenings
    rw [hiff]
    exact forall₂_congr fun taken _ ↦
      and_iff_right (invariant_run (I := EventWorker.Started) hstep hstart taken)
  · have hstep (poll : WorkerPoll) (happening : PollHappening) (h : poll.Served) :
        (DecisionWorker.exec maxParallelism poll happening).Served ↔
          (poll.stopped = false → DecisionWorker.Serves poll happening) :=
      DecisionWorker.served_exec_iff h happening
    exact guarded_iff_invariant (I := WorkerPoll.Served) hstep
      (DecisionWorker.served_start maxParallelism draining) happenings

/-- A claim call raises while an item is processed, or is yet to be sent. -/
theorem not_served_claimRaises :
    ¬(run (EventWorker.exec 2) (EventWorker.start 2 false) [.claimed, .claimRaises]).Served ∧
      ¬(run (DecisionWorker.exec 2) (DecisionWorker.start 2 false)
        [.claimed, .claimRaises]).Served := by
  constructor
  · exact fun h ↦ Bool.false_ne_true (h rfl (.ended .cancelled true) List.mem_cons_self)
  · exact fun h ↦ PollPhase.noConfusion (h rfl .claimed List.mem_cons_self)

end LlmGateway
