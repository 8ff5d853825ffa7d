import LlmGateway.Effect.Closing
import LlmGateway.Effect.SkillCall
import LlmGateway.System.Dispatch

/-!
# What is left to an operator

An event or a cycle that becomes `manual` is left to an operator. A completion marks the event
and its cycle so on a valid claim with outcome `manual` only, and closing a generation never
does.
-/

namespace LlmGateway

open Relational

variable {db db' db'' : Db}

/-- No event and no cycle has become manual. -/
structure Db.MarksNone (db db' : Db) : Prop where
  events : ∀ e' ∈ db'.events, e'.status = .manual →
    ∃ e ∈ db.events, e.id = e'.id ∧ e.status = .manual
  cycles : ∀ r' ∈ db'.cycles, r'.status = .manual →
    ∃ r ∈ db.cycles, r.id = r'.id ∧ r.status = .manual

namespace Db.MarksNone

theorem of_eq (hevents : db'.events = db.events) (hcycles : db'.cycles = db.cycles) :
    db.MarksNone db' where
  events e he hmanual := ⟨e, hevents ▸ he, rfl, hmanual⟩
  cycles r hr hmanual := ⟨r, hcycles ▸ hr, rfl, hmanual⟩

theorem refl (db : Db) : db.MarksNone db := of_eq rfl rfl

theorem trans (h : db.MarksNone db') (h' : db'.MarksNone db'') : db.MarksNone db'' where
  events e he hmanual := by
    obtain ⟨e', he', hid, hmanual'⟩ := h'.events e he hmanual
    obtain ⟨e'', he'', hid', hmanual''⟩ := h.events e' he' hmanual'
    exact ⟨e'', he'', hid'.trans hid, hmanual''⟩
  cycles r hr hmanual := by
    obtain ⟨r', hr', hid, hmanual'⟩ := h'.cycles r hr hmanual
    obtain ⟨r'', hr'', hid', hmanual''⟩ := h.cycles r' hr' hmanual'
    exact ⟨r'', hr'', hid'.trans hid, hmanual''⟩

theorem updateEvents (db : Db) (w : EventRow → Prop) [DecidablePred w] {a : Assignment EventRow}
    (hset : ∀ e, (a.set e).status ≠ .manual) : db.MarksNone (db.updateEvents w a) where
  events e he hmanual := by
    cases Table.mem_update.1 he with
    | inl hmatch =>
      obtain ⟨e, -, -, rfl⟩ := hmatch
      exact absurd hmanual (hset e)
    | inr hkept => exact ⟨e, hkept.1, rfl, hmanual⟩
  cycles r hr hmanual := ⟨r, hr, rfl, hmanual⟩

theorem updateCycles (db : Db) (w : CycleRow → Prop) [DecidablePred w] {a : Assignment CycleRow}
    (hset : ∀ r, (a.set r).status = .manual → r.status = .manual) :
    db.MarksNone (db.updateCycles w a) where
  events e he hmanual := ⟨e, he, rfl, hmanual⟩
  cycles r hr hmanual := by
    cases Table.mem_update.1 hr with
    | inl hmatch =>
      obtain ⟨q, hq, -, rfl⟩ := hmatch
      exact ⟨q, hq, (congrArg CycleKey.id (a.key_set q)).symm, hset q hmanual⟩
    | inr hkept => exact ⟨r, hkept.1, rfl, hmanual⟩

/-! ## Statements -/

theorem supersedeLocked (db : Db) (j : Joined) : db.MarksNone (db.supersedeLocked j) := by
  refine (updateEvents db _ fun _ ↦ EventStatus.noConfusion).trans (updateCycles _ _ fun r h ↦ ?_)
  change (if _ then CycleStatus.stopped else CycleStatus.superseded) = _ at h
  split_ifs at h

theorem skipFrom (db : Db) (j : Joined) : db.MarksNone (db.skipFrom j) := by
  unfold Db.skipFrom
  split_ifs
  · exact updateCycles db _ fun _ h ↦ h
  · exact refl db

theorem completeWith (db : Db) (c : ClaimedEvent) {status : EventStatus} (stage category : Option String)
    (hstatus : status ≠ .manual) : db.MarksNone (db.completeWith c status stage category) :=
  updateEvents db _ fun _ ↦ hstatus

theorem stopCycle (db : Db) (cycleId : Uuid) (eventSequence : ℕ) :
    db.MarksNone (db.stopCycle cycleId eventSequence) :=
  updateCycles db _ fun _ ↦ CycleStatus.noConfusion

theorem supersedeOpenCycleEvents (db : Db) (cycleId stopEventId : Uuid) :
    db.MarksNone (db.supersedeOpenCycleEvents cycleId stopEventId) :=
  updateEvents db _ fun _ ↦ EventStatus.noConfusion

/-! ## Transactions -/

theorem completeCycleSuccess (db : Db) (j : Joined) (c : ClaimedEvent) :
    db.MarksNone (completeCycleSuccess j c db) := by
  unfold LlmGateway.completeCycleSuccess
  split_ifs
  · exact refl db
  · exact (updateCycles db _ fun _ h ↦ h).trans (skipFrom _ j)
  · exact (supersedeOpenCycleEvents db _ _).trans ((stopCycle _ _ _).trans (of_eq rfl rfl))

theorem completeFailed (config : WorkerConfig) (now : ℕ) (j : Joined) (c : ClaimedEvent)
    (result : EventProcessResult) (db : Db) :
    db.MarksNone (completeFailed config now j c result db) := by
  unfold LlmGateway.completeFailed
  split_ifs
  · exact (completeWith db c _ _ EventStatus.noConfusion).trans (skipFrom _ j)
  · exact updateEvents db _ fun _ ↦ EventStatus.noConfusion

/-- A completion marks nothing unless its outcome is `manual` and its claim valid. -/
theorem completeEvent {config : WorkerConfig} {now : ℕ} {c : ClaimedEvent}
    {result : EventProcessResult} (h : ∀ j ∈ db.lockClaim c,
      j.ClaimValid (some c.claimedFenceVersion) → result.outcome ≠ .manual) :
    db.MarksNone (completeEvent config now c result db).2 := by
  unfold LlmGateway.completeEvent
  cases hlock : db.lockClaim c with
  | none => exact refl db
  | some j =>
    by_cases hvalid : j.ClaimValid (some c.claimedFenceVersion)
    · simp only [hvalid, not_true_eq_false, if_false]
      cases houtcome : result.outcome with
      | succeeded =>
        exact (completeWith db c none none EventStatus.noConfusion).trans
          (completeCycleSuccess _ j c)
      | retryableFailed => exact completeFailed config now j c result db
      | manual => exact absurd houtcome (h j hlock hvalid)
    · simp only [hvalid, not_false_eq_true, if_true]
      exact supersedeLocked db j

theorem closeRows (db : Db) (j : Joined) (c : ClaimedEvent) : db.MarksNone (closeRows j c db) :=
  (completeWith db c none none EventStatus.noConfusion).trans
    ((supersedeOpenCycleEvents _ _ _).trans ((stopCycle _ _ _).trans (of_eq rfl rfl)))

end Db.MarksNone

/-- An event that is completed as `manual` on a valid claim is marked. -/
theorem completeEvent_manual (config : WorkerConfig) (now : ℕ) {c : ClaimedEvent} {j : Joined}
    {result : EventProcessResult} (hlock : db.lockClaim c = some j)
    (hvalid : j.ClaimValid (some c.claimedFenceVersion)) (houtcome : result.outcome = .manual) :
    ∃ e ∈ (completeEvent config now c result db).2.events, e.id = c.rowId ∧ e.status = .manual := by
  obtain ⟨hjoins, hid, hheld⟩ := lockClaim_eq_some.1 hlock
  have hevents : (completeEvent config now c result db).2.events =
      (db.completeWith c .manual result.errorStage result.errorCategory).events := by
    simp only [completeEvent, hlock, hvalid, not_true_eq_false, if_false, houtcome, completeManual,
      Db.skipFrom]
    split_ifs <;> rfl
  rw [hevents]
  exact ⟨_, Table.set_mem_update hjoins.event_mem ⟨hid, hheld⟩, hid, rfl⟩

/-- A completion leaves the calls alone. -/
theorem completeEvent_calls (config : WorkerConfig) (now : ℕ) (c : ClaimedEvent)
    (result : EventProcessResult) (db : Db) :
    (completeEvent config now c result db).2.calls = db.calls := by
  unfold completeEvent
  split
  · rfl
  · split_ifs
    · split
      · simp only [completeCycleSuccess, Db.skipFrom]
        split_ifs <;> rfl
      · simp only [completeFailed, Db.skipFrom]
        split_ifs <;> rfl
      · simp only [completeManual, Db.skipFrom]
        split_ifs <;> rfl
    · rfl

end LlmGateway
