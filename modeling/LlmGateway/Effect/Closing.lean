import LlmGateway.Effect.Outbox
import LlmGateway.Relational.Distinct

/-!
# Closing a generation

What `closeGeneration` does to each table: the open calls of the cycle are ended, one after
the other, and the rows that belong to other cycles are left alone. A decision belongs to its
cycle, a call belongs to the cycle of its decision, and so does a tracked action.
-/

namespace LlmGateway

open Relational

variable {db db' : Db}

/-! ## Rows of a cycle -/

/-- The decision of the call is one of the cycle. -/
def Db.OfCycle (db : Db) (cycleId : Uuid) (k : CallKey) : Prop :=
  ∃ d ∈ db.decisions, d.id = k.decisionRowId ∧ d.cycleId = cycleId

/-- A decision of the cycle tracks the action. -/
def Db.TrackedBy (db : Db) (cycleId actionTrackingId : Uuid) : Prop :=
  ∃ d ∈ db.decisions, d.cycleId = cycleId ∧ actionTrackingId ∈ d.actionTrackingId

/-- No row of another session or of another cycle differs. -/
structure Db.SameOutside (db db' : Db) (runtimeSessionId cycleId : Uuid) : Prop where
  sessions : ∀ s, s.id ≠ runtimeSessionId → (s ∈ db'.sessions ↔ s ∈ db.sessions)
  cycles : ∀ r, r.id ≠ cycleId → (r ∈ db'.cycles ↔ r ∈ db.cycles)
  events : ∀ e, e.cycleId ≠ cycleId → (e ∈ db'.events ↔ e ∈ db.events)
  decisions : ∀ d, d.cycleId ≠ cycleId → (d ∈ db'.decisions ↔ d ∈ db.decisions)
  calls : ∀ k : CallRow, ¬db.OfCycle cycleId k.toCallKey → (k ∈ db'.calls ↔ k ∈ db.calls)
  tracking : ∀ a : TrackingRow, ¬db.TrackedBy cycleId a.id →
    (a ∈ db'.tracking ↔ a ∈ db.tracking)

/-- The tracked action of another cycle is none of this one. -/
theorem Db.Tracked.not_trackedBy (h : db.Tracked) {d : DecisionRow} (hd : d ∈ db.decisions)
    {cycleId t : Uuid} (hcycle : d.cycleId ≠ cycleId) (ht : t ∈ d.actionTrackingId) :
    ¬db.TrackedBy cycleId t := by
  intro htracked
  obtain ⟨d', hd', hcycle', ht'⟩ := htracked
  have hkey := h.unique d hd d' hd' t ht ht'
  exact hcycle ((congrArg DecisionKey.cycleId hkey).trans hcycle')

/-! ## Open calls -/

theorem decisionById_eq_some {id : Uuid} {d : DecisionRow} :
    db.decisionById id = some d ↔ d ∈ db.decisions ∧ d.id = id :=
  Table.find?_eq_some_iff fun _ _ h h' ↦ DecisionRow.clashes_of_id (h.trans h'.symm)

theorem mem_lockOpenCalls {cycleId : Uuid} {o : OpenCall} :
    o ∈ db.lockOpenCalls cycleId ↔ o.call ∈ db.calls ∧ o.call.status.isRunning = true ∧
      o.decision ∈ db.decisions ∧ o.decision.id = o.call.decisionRowId ∧
      o.decision.cycleId = cycleId := by
  unfold Db.lockOpenCalls
  simp only [List.mem_filterMap, mem_orderBy, Table.mem_select, Option.map_eq_some_iff,
    Option.filter_eq_some_iff, decide_eq_true_eq, decisionById_eq_some]
  constructor
  · intro h
    obtain ⟨k, hk, d, hd, rfl⟩ := h
    exact ⟨hk.1, hk.2, hd.1.1, hd.1.2, hd.2⟩
  · intro h
    obtain ⟨hk, hrunning, hd, hid, hcycle⟩ := h
    exact ⟨o.call, ⟨hk, hrunning⟩, o.decision, ⟨⟨hd, hid⟩, hcycle⟩, rfl⟩

theorem sessionStopSkillStatus_closed (action : DecisionAction) (reason : String) :
    (sessionStopSkillStatus action reason).isRunning = false := by
  unfold sessionStopSkillStatus
  split_ifs <;> rfl

/-- One open call is ended and everything else is kept. -/
structure FinishesCall (o : OpenCall) (db db' : Db) : Prop where
  sessions_eq : db'.sessions = db.sessions
  cycles_eq : db'.cycles = db.cycles
  events_eq : db'.events = db.events
  decisions_eq : db'.decisions = db.decisions
  calls_eq : ∃ status terminalEventId reason effectStatus, status.isRunning = false ∧
    db'.calls = (db.finishStopCall o.call.id status terminalEventId reason effectStatus).calls
  tracking : ∀ a : TrackingRow, a.id ∉ o.decision.actionTrackingId →
    (a ∈ db'.tracking ↔ a ∈ db.tracking)

theorem applyTerminalEffect_eq_ok {trackingId : Uuid} {status : CallStatus}
    (h : applyTerminalEffect trackingId status db = .ok db') :
    ∃ tracking, db' = { db with tracking := tracking } ∧
      ∀ a : TrackingRow, a.id ≠ trackingId → (a ∈ tracking ↔ a ∈ db.tracking) := by
  unfold applyTerminalEffect at h
  cases hstatus : trackingStatusForTerminal status with
  | none =>
    rw [hstatus] at h
    cases h
  | some tracked =>
    rw [hstatus] at h
    simp only at h
    split_ifs at h
    cases h
    refine ⟨_, rfl, fun a ha ↦ ?_⟩
    exact Table.mem_update_iff_of_key (p := fun k : TrackingKey ↦ k.id = trackingId)
      (fun _ _ hw ↦ hw.1) ha

theorem finishOpenCall_spec {c : ClaimedEvent} {reason : String} {o : OpenCall}
    (h : finishOpenCall c reason db o = .ok db') : FinishesCall o db db' := by
  have hclosed := sessionStopSkillStatus_closed o.decision.action reason
  unfold finishOpenCall at h
  split at h
  · cases h
    exact ⟨rfl, rfl, rfl, rfl, ⟨_, _, _, _, rfl, rfl⟩, fun _ _ ↦ Iff.rfl⟩
  · cases htracking : o.decision.actionTrackingId with
    | none =>
      rw [htracking] at h
      cases h
      exact ⟨rfl, rfl, rfl, rfl, ⟨_, _, _, _, hclosed, rfl⟩, fun _ _ ↦ Iff.rfl⟩
    | some trackingId =>
      rw [htracking] at h
      simp only at h
      obtain ⟨applied, happlied, h⟩ := bind_eq_ok_iff.1 h
      cases h
      obtain ⟨tracking, rfl, hother⟩ := applyTerminalEffect_eq_ok happlied
      refine ⟨rfl, rfl, rfl, rfl, ⟨_, _, _, _, hclosed, rfl⟩, fun a ha ↦ hother a ?_⟩
      intro heq
      rw [htracking, heq] at ha
      exact ha rfl

namespace FinishesCall

variable {o : OpenCall}

/-- The call is ended. -/
theorem closed (h : FinishesCall o db db') {k : CallRow} (hk : k ∈ db'.calls)
    (hid : k.id = o.call.id) : k.status.isRunning = false := by
  obtain ⟨status, terminalEventId, reason, effectStatus, hclosed, hcalls⟩ := h.calls_eq
  rw [hcalls] at hk
  cases Table.mem_update.1 hk with
  | inl hset =>
    obtain ⟨k, -, -, rfl⟩ := hset
    exact hclosed
  | inr hkept =>
    rw [← Bool.not_eq_true]
    exact fun hrunning ↦ hkept.2 ⟨hid, hrunning⟩

theorem calls_keys (h : FinishesCall o db db') {k : CallRow} (hk : k ∈ db'.calls) :
    ∃ q ∈ db.calls, k.toCallKey = q.toCallKey := by
  obtain ⟨status, terminalEventId, reason, effectStatus, -, hcalls⟩ := h.calls_eq
  rw [hcalls] at hk
  exact Table.key_of_mem_update hk

theorem calls_iff (h : FinishesCall o db db') {k : CallRow} (hid : k.id ≠ o.call.id) :
    k ∈ db'.calls ↔ k ∈ db.calls := by
  obtain ⟨status, terminalEventId, reason, effectStatus, -, hcalls⟩ := h.calls_eq
  rw [hcalls]
  exact Table.mem_update_iff_of_key (p := fun key : CallKey ↦ key.id = o.call.id)
    (fun _ _ hw ↦ hw.1) hid

/-- A call that is open afterwards was so before. -/
theorem running_back (h : FinishesCall o db db') {k : CallRow} (hk : k ∈ db'.calls)
    (hrunning : k.status.isRunning = true) : k ∈ db.calls := by
  by_cases hid : k.id = o.call.id
  · rw [h.closed hk hid] at hrunning
    cases hrunning
  · exact (h.calls_iff hid).1 hk

end FinishesCall

/-- The calls of a list are ended, and everything else is kept. -/
structure FinishesCalls (calls : List OpenCall) (db db' : Db) : Prop where
  sessions_eq : db'.sessions = db.sessions
  cycles_eq : db'.cycles = db.cycles
  events_eq : db'.events = db.events
  decisions_eq : db'.decisions = db.decisions
  running_back : ∀ k ∈ db'.calls, k.status.isRunning = true → k ∈ db.calls
  calls_keys : ∀ k ∈ db'.calls, ∃ q ∈ db.calls, k.toCallKey = q.toCallKey
  calls_iff : ∀ k : CallRow, (∀ o ∈ calls, k.id ≠ o.call.id) → (k ∈ db'.calls ↔ k ∈ db.calls)
  tracking : ∀ a : TrackingRow, (∀ o ∈ calls, a.id ∉ o.decision.actionTrackingId) →
    (a ∈ db'.tracking ↔ a ∈ db.tracking)

theorem FinishesCalls.refl (calls : List OpenCall) (db : Db) : FinishesCalls calls db db :=
  ⟨rfl, rfl, rfl, rfl, fun _ hk _ ↦ hk, fun k hk ↦ ⟨k, hk, rfl⟩, fun _ _ ↦ Iff.rfl,
    fun _ _ ↦ Iff.rfl⟩

theorem FinishesCalls.tail {calls : List OpenCall} {o : OpenCall} {t : Db} (ho : o ∈ calls)
    (h : FinishesCalls calls db t) (hlast : FinishesCall o t db') : FinishesCalls calls db db' where
  sessions_eq := hlast.sessions_eq.trans h.sessions_eq
  cycles_eq := hlast.cycles_eq.trans h.cycles_eq
  events_eq := hlast.events_eq.trans h.events_eq
  decisions_eq := hlast.decisions_eq.trans h.decisions_eq
  running_back k hk hrunning := h.running_back k (hlast.running_back hk hrunning) hrunning
  calls_keys k hk := by
    obtain ⟨q, hq, hkey⟩ := hlast.calls_keys hk
    obtain ⟨r, hr, hkey'⟩ := h.calls_keys q hq
    exact ⟨r, hr, hkey.trans hkey'⟩
  calls_iff k hk := (hlast.calls_iff (hk o ho)).trans (h.calls_iff k hk)
  tracking a ha := (hlast.tracking a (ha o ho)).trans (h.tracking a ha)

theorem finishOpenCalls_spec {c : ClaimedEvent} {reason : String} {calls : List OpenCall}
    (h : calls.foldlM (finishOpenCall c reason) db = .ok db') :
    FinishesCalls calls db db' ∧
      ∀ o ∈ calls, ∀ k ∈ db'.calls, k.id = o.call.id → k.status.isRunning = false := by
  refine foldlM_forall (I := FinishesCalls calls db)
    (Q := fun o t ↦ ∀ k ∈ t.calls, k.id = o.call.id → k.status.isRunning = false) ?_ ?_
    (.refl calls db) h
  · intro s o ho s' hs hstep
    have hfinish := finishOpenCall_spec hstep
    exact ⟨hs.tail ho hfinish, fun k hk hid ↦ hfinish.closed hk hid⟩
  · intro s o _ s' hstep o' hclosed k hk hid
    rw [← Bool.not_eq_true]
    intro hrunning
    have hk' := (finishOpenCall_spec hstep).running_back hk hrunning
    exact absurd hrunning (by rw [hclosed k hk' hid]; exact Bool.false_ne_true)

/-! ## The transaction -/

/-- The steps of a transaction that was applied. -/
structure ClosingSteps (c : ClaimedEvent) (payload : SessionStoppedPayload) (db db' : Db) (j : Joined)
    (finished : Db) : Prop where
  lock_eq : db.lockClaim c = some j
  current : j.IsCurrentClaim c
  unambiguous : ((((db.cancelUnsentDecisions c.cycleId).lockOpenCalls c.cycleId).filter fun o ↦
    sessionStopSkillStatus o.decision.action payload.reason = .succeeded).length) ≤ 1
  finished_eq : ((db.cancelUnsentDecisions c.cycleId).lockOpenCalls c.cycleId).foldlM
    (finishOpenCall c payload.reason) (db.cancelUnsentDecisions c.cycleId) = .ok finished
  open_ : ∃ cycle ∈ db.cycles, cycle.id = c.cycleId ∧
    (cycle.status = .pending ∨ cycle.status = .active)
  db_eq : db' = closeRows j c finished

theorem closeGeneration_applied {c : ClaimedEvent} {payload : SessionStoppedPayload}
    {result : MutationResult} (h : closeGeneration c payload db = .ok (result, db'))
    (happlied : result.disposition = .applied) :
    ∃ j finished, ClosingSteps c payload db db' j finished := by
  unfold closeGeneration at h
  cases hlock : (db.lockClaim c).filter fun j ↦ j.IsCurrentClaim c with
  | none =>
    simp only [hlock] at h
    cases h
    cases happlied
  | some j =>
    simp only [hlock] at h
    simp only [Option.filter_eq_some_iff, decide_eq_true_eq] at hlock
    split at h
    · cases h
      cases happlied
    · rename_i hone
      obtain ⟨finished, hfinished, h⟩ := bind_eq_ok_iff.1 h
      split_ifs at h with hopen
      cases h
      exact ⟨j, finished, hlock.1, hlock.2, not_lt.1 hone, hfinished, hopen, rfl⟩

theorem closeGeneration_fenced {c : ClaimedEvent} {payload : SessionStoppedPayload}
    {result : MutationResult} (h : closeGeneration c payload db = .ok (result, db'))
    (hfenced : result.disposition = .fenced) : db' = db := by
  unfold closeGeneration at h
  cases hlock : (db.lockClaim c).filter fun j ↦ j.IsCurrentClaim c with
  | none =>
    simp only [hlock] at h
    cases h
    rfl
  | some j =>
    simp only [hlock] at h
    split at h
    · cases h
      cases hfenced
    · obtain ⟨finished, -, h⟩ := bind_eq_ok_iff.1 h
      split_ifs at h
      cases h
      cases hfenced

namespace ClosingSteps

variable {c : ClaimedEvent} {payload : SessionStoppedPayload} {j : Joined} {finished : Db}

theorem finishes (h : ClosingSteps c payload db db' j finished) :
    FinishesCalls ((db.cancelUnsentDecisions c.cycleId).lockOpenCalls c.cycleId)
      (db.cancelUnsentDecisions c.cycleId) finished :=
  (finishOpenCalls_spec h.finished_eq).1

theorem decisions_eq (h : ClosingSteps c payload db db' j finished) :
    db'.decisions = (db.cancelUnsentDecisions c.cycleId).decisions := by
  rw [h.db_eq]
  exact h.finishes.decisions_eq

/-- Cancelling keeps the decisions of each cycle. -/
theorem decision_iff (h : ClosingSteps c payload db db' j finished) {k : DecisionKey} :
    (∃ d ∈ db'.decisions, d.toDecisionKey = k) ↔ ∃ d ∈ db.decisions, d.toDecisionKey = k := by
  rw [h.decisions_eq]
  constructor
  · intro hk
    obtain ⟨d', hd', hkey⟩ := hk
    obtain ⟨d, hd, hkey'⟩ := Table.key_of_mem_update hd'
    exact ⟨d, hd, Eq.trans (Eq.symm hkey') hkey⟩
  · intro hk
    obtain ⟨d, hd, hkey⟩ := hk
    by_cases hw : d.cycleId = c.cycleId ∧ d.status.isUnsent
    · exact ⟨_, Table.set_mem_update hd hw, hkey⟩
    · exact ⟨d, Table.mem_update_of_not hd hw, hkey⟩

/-- No decision of the cycle is left to send. -/
theorem decisions_closed (h : ClosingSteps c payload db db' j finished) {d : DecisionRow}
    (hd : d ∈ db'.decisions) (hcycle : d.cycleId = c.cycleId) : d.status.isUnsent = false := by
  rw [h.decisions_eq] at hd
  cases Table.mem_update.1 hd with
  | inl hset =>
    obtain ⟨d, -, -, rfl⟩ := hset
    rfl
  | inr hkept =>
    rw [← Bool.not_eq_true]
    exact fun hunsent ↦ hkept.2 ⟨hcycle, hunsent⟩

/-- No call of the cycle is left open. -/
theorem calls_closed (h : ClosingSteps c payload db db' j finished) {k : CallRow}
    (hk : k ∈ db'.calls) (hcycle : db'.OfCycle c.cycleId k.toCallKey) :
    k.status.isRunning = false := by
  have hcalls : db'.calls = finished.calls := by
    rw [h.db_eq]
    rfl
  rw [hcalls] at hk
  rw [← Bool.not_eq_true]
  intro hrunning
  have hbefore : k ∈ (db.cancelUnsentDecisions c.cycleId).calls :=
    h.finishes.running_back k hk hrunning
  unfold Db.OfCycle at hcycle
  rw [h.decisions_eq] at hcycle
  obtain ⟨d, hd, hid, hdcycle⟩ := hcycle
  have hopen : (⟨k, d⟩ : OpenCall) ∈ (db.cancelUnsentDecisions c.cycleId).lockOpenCalls c.cycleId :=
    mem_lockOpenCalls.2 ⟨hbefore, hrunning, hd, hid, hdcycle⟩
  rw [(finishOpenCalls_spec h.finished_eq).2 _ hopen k hk rfl] at hrunning
  cases hrunning

/-- Every event of the cycle is closed. -/
theorem events_closed (h : ClosingSteps c payload db db' j finished) (hlinked : db.Linked j)
    (hdesc : c.Describes j.event.toEventKey) {e : EventRow} (he : e ∈ db'.events)
    (hcycle : e.cycleId = c.cycleId) : e.status.isOpen = false := by
  rw [h.db_eq] at he
  cases Table.mem_update.1 he with
  | inl hset =>
    obtain ⟨e, -, -, rfl⟩ := hset
    rfl
  | inr hkept =>
    cases Table.mem_update.1 hkept.1 with
    | inl hset =>
      obtain ⟨e, -, -, rfl⟩ := hset
      rfl
    | inr hkept' =>
      rw [← Bool.not_eq_true]
      intro hopen
      by_cases hid : e.id = c.rowId
      · have hmem : e ∈ db.events := h.finishes.events_eq ▸ hkept'.1
        obtain rfl := hlinked.eq_event hmem (hid.trans hdesc.rowId)
        exact hkept'.2 ⟨hid, (lockClaim_eq_some.1 h.lock_eq).2.2⟩
      · exact hkept.2 ⟨hcycle, hid, hopen⟩

/-- The event of the claim has succeeded. -/
theorem event_succeeded (h : ClosingSteps c payload db db' j finished) :
    ∃ e ∈ db'.events, e.id = c.rowId ∧ e.status = .succeeded := by
  obtain ⟨hjoins, hid, hheld⟩ := lockClaim_eq_some.1 h.lock_eq
  have hmem : j.event ∈ finished.events := by
    rw [h.finishes.events_eq]
    exact hjoins.event_mem
  rw [h.db_eq]
  refine ⟨(Db.closeEvent .succeeded none none).set j.event, ?_, hid, rfl⟩
  refine Table.mem_update_of_not (Table.set_mem_update hmem ⟨hid, hheld⟩) fun hw ↦ ?_
  exact hw.2.1 hid

theorem cycle_stopped (h : ClosingSteps c payload db db' j finished) :
    ∃ r ∈ db'.cycles, r.id = c.cycleId ∧ r.status = .stopped := by
  obtain ⟨r, hr, hid, hopen⟩ := h.open_
  rw [h.db_eq]
  refine ⟨_, Table.set_mem_update (q := r) ?_ ⟨hid, hopen⟩, hid, rfl⟩
  exact h.finishes.cycles_eq ▸ hr

theorem session_stopped (h : ClosingSteps c payload db db' j finished) :
    SessionRow.stopFenced.set j.session ∈ db'.sessions := by
  have hjoins := (lockClaim_eq_some.1 h.lock_eq).1
  rw [h.db_eq]
  refine Table.set_mem_update ?_ ⟨rfl, h.current.2.1, h.current.2.2⟩
  exact h.finishes.sessions_eq ▸ hjoins.session_mem

/-- An open call that is ended belongs to the cycle. -/
theorem openCall_ofCycle (h : ClosingSteps c payload db db' j finished) {o : OpenCall}
    (ho : o ∈ (db.cancelUnsentDecisions c.cycleId).lockOpenCalls c.cycleId) :
    ∃ d ∈ db.decisions, d.toDecisionKey = o.decision.toDecisionKey ∧
      d.id = o.call.decisionRowId ∧ d.cycleId = c.cycleId := by
  obtain ⟨-, -, hd, hid, hcycle⟩ := mem_lockOpenCalls.1 ho
  obtain ⟨d, hd, hkey⟩ := h.decision_iff.1 ⟨o.decision, h.decisions_eq ▸ hd, rfl⟩
  exact ⟨d, hd, hkey, (congrArg DecisionKey.id hkey).trans hid,
    (congrArg DecisionKey.cycleId hkey).trans hcycle⟩

theorem calls_same (h : ClosingSteps c payload db db' j finished) {k : CallRow}
    (hk : ¬db.OfCycle c.cycleId k.toCallKey) : k ∈ db'.calls ↔ k ∈ db.calls := by
  have hcalls : db'.calls = finished.calls := by
    rw [h.db_eq]
    rfl
  rw [hcalls]
  by_cases hid : ∀ o ∈ (db.cancelUnsentDecisions c.cycleId).lockOpenCalls c.cycleId,
      k.id ≠ o.call.id
  · exact h.finishes.calls_iff k hid
  · push Not at hid
    obtain ⟨o, ho, hid⟩ := hid
    obtain ⟨d, hd, -, hdid, hcycle⟩ := h.openCall_ofCycle ho
    have hnot {q : CallRow} (hq : q ∈ db.calls) (hkey : k.toCallKey = q.toCallKey) : False := by
      have hcall : q = o.call := Table.eq_of_clashes hq (mem_lockOpenCalls.1 ho).1
        (CallRow.clashes_of_id ((congrArg CallKey.id hkey).symm.trans hid))
      rw [hkey, hcall] at hk
      exact hk ⟨d, hd, hdid, hcycle⟩
    constructor
    · intro hmem
      obtain ⟨q, hq, hkey⟩ := h.finishes.calls_keys k hmem
      exact (hnot hq hkey).elim
    · exact fun hmem ↦ (hnot hmem rfl).elim

theorem tracking_same (h : ClosingSteps c payload db db' j finished) {a : TrackingRow}
    (ha : ¬db.TrackedBy c.cycleId a.id) : a ∈ db'.tracking ↔ a ∈ db.tracking := by
  have htracking : db'.tracking = finished.tracking := by
    rw [h.db_eq]
    rfl
  rw [htracking]
  refine h.finishes.tracking a fun o ho hmem ↦ ha ?_
  obtain ⟨d, hd, hkey, -, hcycle⟩ := h.openCall_ofCycle ho
  exact ⟨d, hd, hcycle, (congrArg DecisionKey.actionTrackingId hkey).symm ▸ hmem⟩

/-- The rows of other sessions and cycles are the same. -/
theorem sameOutside (h : ClosingSteps c payload db db' j finished) (hlinked : db.Linked j)
    (hdesc : c.Describes j.event.toEventKey) : db.SameOutside db' j.session.id c.cycleId := by
  have hsessions : finished.sessions = db.sessions := h.finishes.sessions_eq
  have hcycles : finished.cycles = db.cycles := h.finishes.cycles_eq
  have hevents : finished.events = db.events := h.finishes.events_eq
  refine ⟨?_, ?_, ?_, ?_, fun k hk ↦ h.calls_same hk, fun a ha ↦ h.tracking_same ha⟩
  · intro s hs
    rw [h.db_eq, ← hsessions]
    exact Table.mem_update_iff_of_key (p := fun k : SessionKey ↦ k.id = j.session.id)
      (fun _ _ hw ↦ hw.1) hs
  · intro r hr
    rw [h.db_eq, ← hcycles]
    exact Table.mem_update_iff_of_key (p := fun k : CycleKey ↦ k.id = c.cycleId)
      (fun _ _ hw ↦ hw.1) hr
  · intro e he
    rw [h.db_eq, ← hevents]
    refine (Table.mem_update_iff_of_key (p := fun k : EventKey ↦ k.cycleId = c.cycleId)
      (fun _ _ hw ↦ hw.1) he).trans ?_
    refine Table.mem_update_iff_of_key (p := fun k : EventKey ↦ k.cycleId = c.cycleId) ?_ he
    intro q hq hw
    have heq := hlinked.eq_event (hevents ▸ hq) (hw.1.trans hdesc.rowId)
    rw [heq]
    exact hdesc.cycleId.symm
  · intro d hd
    rw [h.decisions_eq]
    exact Table.mem_update_iff_of_key (p := fun k : DecisionKey ↦ k.cycleId = c.cycleId)
      (fun _ _ hw ↦ hw.1) hd

/-- A call that was open and is found after the closing has a reason. -/
theorem call_reason (h : ClosingSteps c payload db db' j finished) {k : CallRow}
    (hk : k ∈ db'.calls) : k ∈ db.calls ∨ k.reason.isSome = true := by
  have hcalls : db'.calls = finished.calls := by
    rw [h.db_eq]
    rfl
  rw [hcalls] at hk
  refine foldlM_invariant (I := fun t : Db ↦ ∀ k ∈ t.calls, k ∈ db.calls ∨ k.reason.isSome = true)
    (s := db.cancelUnsentDecisions c.cycleId) (fun s o _ s' hs hstep k hk ↦ ?_)
    (fun k hk ↦ Or.inl hk) h.finished_eq k hk
  obtain ⟨status, terminalEventId, reason, effectStatus, -, hcalls⟩ :=
    (finishOpenCall_spec hstep).calls_eq
  rw [hcalls] at hk
  cases Table.mem_update.1 hk with
  | inl hset =>
    obtain ⟨k, -, -, rfl⟩ := hset
    exact Or.inr rfl
  | inr hkept => exact hs k hkept.1

/-- A call that was closed before is left as it is. -/
theorem closed_mem (h : ClosingSteps c payload db db' j finished) {k : CallRow}
    (hk : k ∈ db.calls) (hclosed : k.status.isRunning = false) : k ∈ db'.calls := by
  have hcalls : db'.calls = finished.calls := by
    rw [h.db_eq]
    rfl
  rw [hcalls]
  refine foldlM_invariant (I := fun t : Db ↦ k ∈ t.calls) (s := db.cancelUnsentDecisions c.cycleId)
    (fun s o _ s' hs hstep ↦ ?_) hk h.finished_eq
  obtain ⟨status, terminalEventId, reason, effectStatus, -, hcalls⟩ :=
    (finishOpenCall_spec hstep).calls_eq
  rw [hcalls]
  refine Table.mem_update_of_not hs fun hw ↦ ?_
  rw [hclosed] at hw
  exact Bool.false_ne_true hw.2

/-- No call is lost. -/
theorem call_forward (h : ClosingSteps c payload db db' j finished) {k : CallRow}
    (hk : k ∈ db.calls) : ∃ k' ∈ db'.calls, k'.toCallKey = k.toCallKey := by
  have hcalls : db'.calls = finished.calls := by
    rw [h.db_eq]
    rfl
  rw [hcalls]
  refine foldlM_invariant (I := fun t : Db ↦ ∃ k' ∈ t.calls, k'.toCallKey = k.toCallKey)
    (s := db.cancelUnsentDecisions c.cycleId) (fun s o _ s' hs hstep ↦ ?_) ⟨k, hk, rfl⟩
    h.finished_eq
  obtain ⟨k', hk', hkey⟩ := hs
  obtain ⟨status, terminalEventId, reason, effectStatus, -, hcalls⟩ :=
    (finishOpenCall_spec hstep).calls_eq
  rw [hcalls, ← hkey]
  exact Table.exists_mem_update hk'

end ClosingSteps

/-! ## Which closings are carried out -/

/-- The event is claimed under the current fence of its generation. -/
def Db.HoldsCurrent (db : Db) (c : ClaimedEvent) : Prop :=
  ∃ j ∈ db.lockClaim c, j.IsCurrentClaim c

/-- Two calls of `stop_hosting` decisions of the cycle are open. -/
def Db.AmbiguousStop (db : Db) (cycleId : Uuid) : Prop :=
  ∃ o ∈ db.lockOpenCalls cycleId, ∃ o' ∈ db.lockOpenCalls cycleId, o.call.id ≠ o'.call.id ∧
    o.decision.action = .stopHosting ∧ o'.decision.action = .stopHosting

/-- The cycle is pending or active. -/
def Db.OpenCycle (db : Db) (cycleId : Uuid) : Prop :=
  ∃ r ∈ db.cycles, r.id = cycleId ∧ (r.status = .pending ∨ r.status = .active)

/-- The actions that open calls of the cycle track are still tracked. -/
def Db.TracksOpenCalls (db : Db) (cycleId : Uuid) : Prop :=
  ∀ o ∈ db.lockOpenCalls cycleId, ∀ t ∈ o.decision.actionTrackingId,
    ∃ a ∈ db.tracking, a.id = t ∧ a.status = .tracking

/-- The open calls of a cycle are different calls. -/
theorem lockOpenCalls_pairwise (cycleId : Uuid) :
    (db.lockOpenCalls cycleId).Pairwise fun o o' ↦ o.call.id ≠ o'.call.id := by
  have hrows : (db.calls.select fun k ↦ k.status.isRunning).Pairwise fun k k' ↦ k.id ≠ k'.id :=
    (db.calls.distinct.imp fun hclash hid ↦ hclash (Or.inl hid)).filter _
  have hsorted : (orderBy CallRow.creationKey
      (db.calls.select fun k ↦ k.status.isRunning)).Pairwise fun k k' ↦ k.id ≠ k'.id :=
    ((List.perm_insertionSort _ _).pairwise_iff Ne.symm).2 hrows
  refine hsorted.filterMap _ fun k k' hne o ho o' ho' ↦ ?_
  obtain ⟨d, -, rfl⟩ := Option.map_eq_some_iff.1 ho
  obtain ⟨d', -, rfl⟩ := Option.map_eq_some_iff.1 ho'
  exact hne

/-- Cancelling the unsent decisions leaves the open calls and what their decisions ask for. -/
theorem lockOpenCalls_cancel {cycleId : Uuid} {o : OpenCall}
    (ho : o ∈ (db.cancelUnsentDecisions cycleId).lockOpenCalls cycleId) :
    ∃ o' ∈ db.lockOpenCalls cycleId, o'.call = o.call ∧
      o'.decision.toDecisionKey = o.decision.toDecisionKey := by
  obtain ⟨hk, hrunning, hd, hid, hcycle⟩ := mem_lockOpenCalls.1 ho
  obtain ⟨d, hd', hkey⟩ := Table.key_of_mem_update hd
  refine ⟨⟨o.call, d⟩, mem_lockOpenCalls.2 ⟨hk, hrunning, hd', ?_, ?_⟩, rfl, hkey.symm⟩
  · exact (congrArg DecisionKey.id hkey).symm.trans hid
  · exact (congrArg DecisionKey.cycleId hkey).symm.trans hcycle

theorem mem_lockOpenCalls_cancel {cycleId : Uuid} {o : OpenCall}
    (ho : o ∈ db.lockOpenCalls cycleId) :
    ∃ o' ∈ (db.cancelUnsentDecisions cycleId).lockOpenCalls cycleId, o'.call = o.call ∧
      o'.decision.toDecisionKey = o.decision.toDecisionKey := by
  obtain ⟨hk, hrunning, hd, hid, hcycle⟩ := mem_lockOpenCalls.1 ho
  obtain ⟨d, hd', hkey⟩ := Table.exists_mem_update (w := fun d : DecisionRow ↦
    d.cycleId = cycleId ∧ d.status.isUnsent) hd
  refine ⟨⟨o.call, d⟩, mem_lockOpenCalls.2 ⟨hk, hrunning, hd', ?_, ?_⟩, rfl, hkey⟩
  · exact (congrArg DecisionKey.id hkey).trans hid
  · exact (congrArg DecisionKey.cycleId hkey).trans hcycle

/-- The code counts the calls that the stop lets succeed. -/
theorem ambiguousStop_iff {cycleId : Uuid} : db.AmbiguousStop cycleId ↔
    1 < ((((db.cancelUnsentDecisions cycleId).lockOpenCalls cycleId).filter fun o ↦
      sessionStopSkillStatus o.decision.action "stop_hosting_requested" = .succeeded).length) := by
  have hstatus (o : OpenCall) : sessionStopSkillStatus o.decision.action "stop_hosting_requested" =
      .succeeded ↔ o.decision.action = .stopHosting := by
    unfold sessionStopSkillStatus
    by_cases haction : o.decision.action = .stopHosting
    · simp only [haction, and_self, if_true]
    · simp only [haction, false_and, if_false, reduceCtorEq]
  rw [one_lt_length_iff ((lockOpenCalls_pairwise cycleId).filter _)]
  simp only [List.mem_filter, decide_eq_true_eq, hstatus]
  constructor
  · intro h
    obtain ⟨o, ho, o', ho', hne, haction, haction'⟩ := h
    obtain ⟨p, hp, hcall, hkey⟩ := mem_lockOpenCalls_cancel ho
    obtain ⟨p', hp', hcall', hkey'⟩ := mem_lockOpenCalls_cancel ho'
    refine ⟨p, ⟨hp, ?_⟩, p', ⟨hp', ?_⟩, ?_⟩
    · exact (congrArg DecisionKey.action hkey).trans haction
    · exact (congrArg DecisionKey.action hkey').trans haction'
    · rwa [hcall, hcall']
  · intro h
    obtain ⟨p, ⟨hp, haction⟩, p', ⟨hp', haction'⟩, hne⟩ := h
    obtain ⟨o, ho, hcall, hkey⟩ := lockOpenCalls_cancel hp
    obtain ⟨o', ho', hcall', hkey'⟩ := lockOpenCalls_cancel hp'
    refine ⟨o, ho, o', ho', ?_, ?_, ?_⟩
    · rwa [hcall, hcall']
    · exact (congrArg DecisionKey.action hkey).trans haction
    · exact (congrArg DecisionKey.action hkey').trans haction'

/-- An open call can be ended as long as the action it tracks is tracked. -/
theorem exists_finishOpenCall_iff {c : ClaimedEvent} {reason : String} {o : OpenCall}
    (hskill : o.decision.actionTrackingId.isSome = true → o.decision.action = .callSkill) :
    (∃ t, finishOpenCall c reason db o = .ok t) ↔ ∀ t ∈ o.decision.actionTrackingId,
      ∃ a ∈ db.tracking, a.id = t ∧ a.status = .tracking := by
  unfold finishOpenCall
  cases hid : o.decision.actionTrackingId with
  | none =>
    simp only [Option.not_mem_none, IsEmpty.forall_iff, implies_true, iff_true]
    split <;> exact ⟨_, rfl⟩
  | some trackingId =>
    have haction : o.decision.action = .callSkill := hskill (by rw [hid]; rfl)
    have hstatus : sessionStopSkillStatus o.decision.action reason = .cancelled := by
      unfold sessionStopSkillStatus
      rw [haction, if_neg fun h ↦ DecisionAction.noConfusion h.1]
    simp only [hstatus, applyTerminalEffect, trackingStatusForTerminal, Option.mem_def,
      Option.some.injEq, forall_eq']
    by_cases hactive : ∃ a ∈ db.tracking, a.id = trackingId ∧ a.status = .tracking
    · simp only [hactive, if_true, iff_true]
      exact ⟨_, rfl⟩
    · simp only [hactive, if_false, iff_false]
      intro hok
      obtain ⟨t, hok⟩ := hok
      cases hok

/-- The open calls of a cycle can be ended as long as their actions are tracked. -/
theorem exists_finishOpenCalls_iff (htracked : db.Tracked) (hcalls : db.CallsSound)
    (c : ClaimedEvent) (reason : String) (cycleId : Uuid) :
    (∃ t, ((db.cancelUnsentDecisions cycleId).lockOpenCalls cycleId).foldlM (finishOpenCall c reason)
      (db.cancelUnsentDecisions cycleId) = .ok t) ↔ db.TracksOpenCalls cycleId := by
  have hcancel : db.OutboxStep (db.cancelUnsentDecisions cycleId) :=
    .update_sent _ _ fun _ _ ↦ rfl
  have htracked' := hcancel.tracked htracked
  have hcalls' := hcancel.calls hcalls
  rw [exists_foldlM_eq_ok_iff (Q := fun s o ↦ ∀ t ∈ o.decision.actionTrackingId,
    ∃ a ∈ s.tracking, a.id = t ∧ a.status = .tracking)]
  · constructor
    · intro h o ho t ht
      obtain ⟨p, hp, -, hkey⟩ := mem_lockOpenCalls_cancel ho
      exact h p hp t ((congrArg DecisionKey.actionTrackingId hkey).symm ▸ ht)
    · intro h p hp t ht
      obtain ⟨o, ho, -, hkey⟩ := lockOpenCalls_cancel hp
      exact h o ho t ((congrArg DecisionKey.actionTrackingId hkey).symm ▸ ht)
  · intro s o ho
    exact exists_finishOpenCall_iff (htracked'.callSkill o.decision (mem_lockOpenCalls.1 ho).2.2.1)
  · -- Two open calls belong to two decisions, which track different actions.
    refine (lockOpenCalls_pairwise cycleId).imp_of_mem fun {o o'} ho ho' hne s s' hstep ↦ ?_
    obtain ⟨hk, -, hd, hid, -⟩ := mem_lockOpenCalls.1 ho
    obtain ⟨hk', -, hd', hid', -⟩ := mem_lockOpenCalls.1 ho'
    have hother {t : Uuid} (ht : t ∈ o'.decision.actionTrackingId) :
        t ∉ o.decision.actionTrackingId := by
      intro hmem
      have hkey := htracked'.unique o.decision hd o'.decision hd' t hmem ht
      have hrow : o.call.decisionRowId = o'.call.decisionRowId :=
        hid.symm.trans ((congrArg DecisionKey.id hkey).trans hid')
      exact hne (congrArg (fun k : CallRow ↦ k.id) (hcalls'.unique _ hk _ hk' hrow))
    have hspec := finishOpenCall_spec hstep
    constructor
    · intro h t ht
      obtain ⟨a, ha, hat, hactive⟩ := h t ht
      exact ⟨a, (hspec.tracking a (hat ▸ hother ht)).1 ha, hat, hactive⟩
    · intro h t ht
      obtain ⟨a, ha, hat, hactive⟩ := h t ht
      exact ⟨a, (hspec.tracking a (hat ▸ hother ht)).2 ha, hat, hactive⟩

section Outcome

variable {c : ClaimedEvent} {payload : SessionStoppedPayload}

theorem closeGeneration_of_fenced (h : ¬db.HoldsCurrent c) :
    closeGeneration c payload db = .ok (⟨.fenced, some "claim_lost"⟩, db) := by
  have hnone : (db.lockClaim c).filter (fun j ↦ j.IsCurrentClaim c) = none := by
    rw [Option.filter_eq_none_iff]
    intro j hj hcurrent
    exact h ⟨j, hj, by simpa only [decide_eq_true_eq] using hcurrent⟩
  unfold closeGeneration
  rw [hnone]

theorem Db.HoldsCurrent.lock_eq (h : db.HoldsCurrent c) :
    ∃ j, db.lockClaim c = some j ∧ j.IsCurrentClaim c ∧
      (db.lockClaim c).filter (fun j ↦ j.IsCurrentClaim c) = some j := by
  obtain ⟨j, hj, hcurrent⟩ := h
  exact ⟨j, hj, hcurrent, Option.filter_eq_some_iff.2 ⟨hj, by simpa only [decide_eq_true_eq]⟩⟩

/-- Ambiguous calls are marked, and nothing else is written. -/
theorem closeGeneration_of_ambiguous (h : db.HoldsCurrent c)
    (hreason : payload.reason = "stop_hosting_requested") (hambiguous : db.AmbiguousStop c.cycleId) :
    ∃ db', closeGeneration c payload db =
      .ok (⟨.conflict, some "ambiguous_stop_hosting_call"⟩, db') ∧ db'.sessions = db.sessions ∧
      db'.cycles = db.cycles ∧ db'.events = db.events := by
  obtain ⟨j, -, -, hfilter⟩ := h.lock_eq
  unfold closeGeneration
  simp only [hfilter, hreason]
  rw [if_pos (ambiguousStop_iff.1 hambiguous)]
  refine ⟨_, rfl, ?_⟩
  exact List.foldlRecOn _ _ (motive := fun t : Db ↦ t.sessions = db.sessions ∧
    t.cycles = db.cycles ∧ t.events = db.events) ⟨rfl, rfl, rfl⟩ fun t ht o _ ↦ ht

/-- The code counts no call unless the stop was requested. -/
theorem not_ambiguous_of_reason (hreason : payload.reason ≠ "stop_hosting_requested")
    (calls : List OpenCall) :
    ¬1 < (calls.filter fun o ↦
      sessionStopSkillStatus o.decision.action payload.reason = .succeeded).length := by
  have hnone : calls.filter (fun o ↦
      sessionStopSkillStatus o.decision.action payload.reason = .succeeded) = [] := by
    rw [List.filter_eq_nil_iff]
    intro o _
    simp only [sessionStopSkillStatus, hreason, and_false, if_false, reduceCtorEq, decide_false,
      Bool.false_eq_true, not_false_eq_true]
  rw [hnone]
  exact Nat.not_lt_zero 1

/-- A stop that is not ambiguous is carried out in an open cycle whose open calls can be ended,
and raises otherwise. -/
theorem closeGeneration_of_unambiguous (h : db.HoldsCurrent c)
    (hambiguous : payload.reason = "stop_hosting_requested" → ¬db.AmbiguousStop c.cycleId)
    (htracked : db.Tracked) (hcalls : db.CallsSound) :
    (db.OpenCycle c.cycleId ∧ db.TracksOpenCalls c.cycleId →
      ∃ db', closeGeneration c payload db = .ok (⟨.applied, none⟩, db')) ∧
    (¬(db.OpenCycle c.cycleId ∧ db.TracksOpenCalls c.cycleId) →
      ∃ failure, closeGeneration c payload db = .error failure) := by
  obtain ⟨j, -, -, hfilter⟩ := h.lock_eq
  have hone : ¬1 < (((db.cancelUnsentDecisions c.cycleId).lockOpenCalls c.cycleId).filter fun o ↦
      sessionStopSkillStatus o.decision.action payload.reason = .succeeded).length := by
    by_cases hreason : payload.reason = "stop_hosting_requested"
    · have hnone := hambiguous hreason
      rwa [ambiguousStop_iff, ← hreason] at hnone
    · exact not_ambiguous_of_reason hreason _
  have hends := exists_finishOpenCalls_iff htracked hcalls c payload.reason c.cycleId
  unfold closeGeneration
  simp only [hfilter]
  rw [if_neg hone]
  cases hfinished : ((db.cancelUnsentDecisions c.cycleId).lockOpenCalls c.cycleId).foldlM
      (finishOpenCall c payload.reason) (db.cancelUnsentDecisions c.cycleId) with
  | error failure =>
    refine ⟨fun hopen ↦ ?_, fun _ ↦ ⟨failure, rfl⟩⟩
    obtain ⟨t, ht⟩ := hends.2 hopen.2
    rw [hfinished] at ht
    cases ht
  | ok finished =>
    have htracks := hends.1 ⟨finished, hfinished⟩
    refine ⟨fun hopen ↦ ⟨_, if_pos hopen.1⟩, fun hclosed ↦ ⟨_, if_neg fun hopen ↦ ?_⟩⟩
    exact hclosed ⟨hopen, htracks⟩

end Outcome

end LlmGateway
