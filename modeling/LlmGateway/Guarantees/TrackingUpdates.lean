import LlmGateway.Analysis.TrackingUpdate
import LlmGateway.Effect.SkillCall
import LlmGateway.Guarantees.TrackedActions

/-!
# The analysis beside the terminal events

A terminal event gives a status only to an action that is still tracked, and its transaction
raises if it is not. The analysis gives a status to every action that it has found tracked, also
if it is not tracked any more. An action that has left `tracking` keeps its status, and no
terminal event fails on an action that the analysis has closed, in runs in which the updates of
the analysis find their rows still tracked and the terminal events find theirs left alone.
-/

namespace LlmGateway

open Relational

variable {now : ℕ} {db db' : Db} {c : ClaimedEvent} {t t' : Uuid} {tracking : Table TrackingRow}

/-! ## What a terminal event needs -/

/-- The action is still tracked. -/
def Db.IsTracked (db : Db) (t : Uuid) : Prop :=
  ∃ a ∈ db.tracking, a.id = t ∧ a.status = .tracking

/-- The open calls that `close_generation` finds. -/
def Db.callsToClose (db : Db) (c : ClaimedEvent) : List OpenCall :=
  (db.cancelUnsentDecisions c.cycleId).lockOpenCalls c.cycleId

/-- The actions to which the transaction of the terminal event gives a status. -/
def Db.endedActions (db : Db) (c : ClaimedEvent) : List Uuid :=
  match c.event.body with
  | .sequenced _ (.skillFinished payload) =>
    match lookUpCall c ⟨payload.decisionId, payload.skillCallId, payload.skillName⟩ db with
    | .error _ => []
    | .ok (decision, call) =>
      if ∀ k ∈ call, k.status.isRunning = true then decision.actionTrackingId.toList else []
  | .sequenced _ (.sessionStopped payload) =>
    if (∃ j ∈ db.lockClaim c, j.IsCurrentClaim c) ∧ ((db.callsToClose c).filter fun o ↦
        sessionStopSkillStatus o.decision.action payload.reason = .succeeded).length ≤ 1 then
      ((db.callsToClose c).filter fun o ↦
        sessionStopSkillStatus o.decision.action payload.reason ≠ .succeeded).filterMap
          (·.decision.actionTrackingId)
    else []
  | _ => []

/-- The transaction of the terminal event raises. -/
def Db.terminalRaises (db : Db) (now : ℕ) (c : ClaimedEvent) : Bool :=
  match c.event.body with
  | .sequenced _ (.skillFinished payload) => !(recordSkillFinished now c payload db).isOk
  | .sequenced _ (.sessionStopped payload) => !(closeGeneration c payload db).isOk
  | _ => false

/-- The database with other tracked actions. -/
def Db.withTracking (db : Db) (tracking : Table TrackingRow) : Db := { db with tracking := tracking }

theorem Db.isTracked_applyTerminalEffect {status : CallStatus}
    (h : applyTerminalEffect t status db = .ok db') :
    db'.IsTracked t' ↔ db.IsTracked t' ∧ t' ≠ t := by
  obtain ⟨tracked, hstatus, -, rfl⟩ := applyTerminalEffect_cases h
  constructor
  · intro htracked
    obtain ⟨a, ha, hid, hactive⟩ := htracked
    cases Table.mem_update.1 ha with
    | inl hset =>
      obtain ⟨b, -, -, rfl⟩ := hset
      exact absurd hactive (trackingStatusForTerminal_ne hstatus)
    | inr hkept =>
      refine ⟨⟨a, hkept.1, hid, hactive⟩, fun heq ↦ hkept.2 ⟨hid.trans heq, hactive⟩⟩
  · intro htracked
    obtain ⟨⟨a, ha, hid, hactive⟩, hne⟩ := htracked
    exact ⟨a, Table.mem_update_of_not ha fun hw ↦ hne (hid.symm.trans hw.1), hid, hactive⟩

theorem exists_applyTerminalEffect_iff {status : CallStatus} :
    (∃ db', applyTerminalEffect t status db = .ok db') ↔
      (trackingStatusForTerminal status).isSome = true ∧ db.IsTracked t := by
  unfold applyTerminalEffect
  cases trackingStatusForTerminal status with
  | none => simp only [reduceCtorEq, exists_false, Option.isSome_none, Bool.false_eq_true, false_and]
  | some tracked =>
    simp only [Option.isSome_some, true_and]
    by_cases h : ∃ a ∈ db.tracking, a.id = t ∧ a.status = .tracking
    · exact iff_of_true ⟨_, if_pos h⟩ h
    · refine iff_of_false (fun hok ↦ ?_) h
      obtain ⟨db', hok⟩ := hok
      rw [if_neg h] at hok
      cases hok

/-- The effect of a call can be applied if the action is tracked and the call waits for it. -/
theorem exists_applyEffect_iff {callId : Uuid} {trackingId : Option Uuid} {status : CallStatus} :
    (∃ db', applyEffect callId trackingId status db = .ok db') ↔ ∀ t ∈ trackingId,
      (trackingStatusForTerminal status).isSome = true ∧ db.IsTracked t ∧
        ∃ k ∈ db.calls, k.id = callId ∧ k.effectStatus = .pending := by
  cases trackingId with
  | none =>
    simp only [Option.not_mem_none, IsEmpty.forall_iff, implies_true, iff_true]
    exact ⟨db, rfl⟩
  | some t =>
    simp only [Option.mem_def, Option.some.injEq, forall_eq', applyEffect]
    rw [← and_assoc, ← exists_applyTerminalEffect_iff]
    constructor
    · intro h
      obtain ⟨db', h⟩ := h
      obtain ⟨applied, happlied, h⟩ := bind_eq_ok_iff.1 h
      split_ifs at h with hpending
      rw [applyTerminalEffect_calls happlied] at hpending
      exact ⟨⟨applied, happlied⟩, hpending⟩
    · intro h
      obtain ⟨⟨applied, happlied⟩, hpending⟩ := h
      refine ⟨_, bind_eq_ok_iff.2 ⟨applied, happlied, if_pos ?_⟩⟩
      rwa [applyTerminalEffect_calls happlied]

/-! ## What is the same with other tracked actions -/

theorem Db.insertCall_withTracking (row : CallRow) :
    (db.withTracking tracking).insertCall row = (db.insertCall row).withTracking tracking := by
  unfold Db.insertCall
  have hcalls : (db.withTracking tracking).calls = db.calls := rfl
  rw [hcalls]
  cases db.calls.insert? row with
  | none => rfl
  | some calls => rfl

section Raises

variable {payload : SkillFinishedPayload} {stop : SessionStoppedPayload}

/-- Whether a terminal event of a skill raises depends on the effect of the call. -/
theorem recordSkillFinished_withTracking
    (hkeep : ∀ d call, lookUpCall c ⟨payload.decisionId, payload.skillCallId, payload.skillName⟩ db =
      .ok (d, call) → (∀ k ∈ call, k.status.isRunning = true) → ∀ t ∈ d.actionTrackingId,
        (db.withTracking tracking).IsTracked t → db.IsTracked t)
    (h : (recordSkillFinished now c payload (db.withTracking tracking)).isOk = true) :
    (recordSkillFinished now c payload db).isOk = true := by
  have hsame : lookUpCall c ⟨payload.decisionId, payload.skillCallId, payload.skillName⟩
      (db.withTracking tracking) = lookUpCall c
        ⟨payload.decisionId, payload.skillCallId, payload.skillName⟩ db := rfl
  unfold recordSkillFinished at h ⊢
  rw [hsame] at h
  cases hlookup : lookUpCall c ⟨payload.decisionId, payload.skillCallId, payload.skillName⟩ db with
  | error refused => rfl
  | ok found =>
    obtain ⟨d, call⟩ := found
    rw [hlookup] at h
    cases call with
    | none =>
      have htracked := hkeep d none hlookup fun k hk ↦ absurd hk (Option.not_mem_none k)
      simp only [isOk_bind_ok, isOk_iff, exists_applyEffect_iff] at h ⊢
      intro t ht
      obtain ⟨hstatus, hactive, hpending⟩ := h t ht
      rw [Db.insertCall_withTracking] at hactive hpending
      refine ⟨hstatus, ?_, hpending⟩
      unfold Db.IsTracked
      rw [Db.insertCall_tracking]
      exact htracked t ht hactive
    | some k =>
      by_cases hrunning : k.status.isRunning = true
      · have htracked := hkeep d (some k) hlookup fun q hq ↦ Option.some.inj hq ▸ hrunning
        simp only at h ⊢
        split at h
        · rfl
        · rfl
        · simp only [isOk_bind_ok, isOk_iff, exists_applyEffect_iff] at h ⊢
          intro t ht
          obtain ⟨hstatus, hactive, hpending⟩ := h t ht
          exact ⟨hstatus, htracked t ht hactive, hpending⟩
      · rw [Bool.not_eq_true] at hrunning
        by_cases hidem : k.terminal = normalizeSkillTerminal payload.terminal
        · simp only [(resolve_of_closed hrunning).1 hidem]
          rfl
        · simp only [(resolve_of_closed hrunning).2 hidem]
          rfl

/-- The open calls that `close_generation` cancels track actions that are tracked here if they
are tracked there. -/
def Db.TracksMore (db db' : Db) (reason : String) (calls : List OpenCall) : Prop :=
  ∀ o ∈ calls, sessionStopSkillStatus o.decision.action reason ≠ .succeeded →
    ∀ t ∈ o.decision.actionTrackingId, db'.IsTracked t → db.IsTracked t

theorem finishOpenCall_tracksMore {calls : List OpenCall} {o : OpenCall} (ho : o ∈ calls)
    (h : db.TracksMore db' stop.reason calls) {s' : Db}
    (hfinish : finishOpenCall c stop.reason db' o = .ok s') :
    ∃ s, finishOpenCall c stop.reason db o = .ok s ∧ s.TracksMore s' stop.reason calls := by
  unfold finishOpenCall at hfinish ⊢
  by_cases hstatus : sessionStopSkillStatus o.decision.action stop.reason = .succeeded
  · simp only [hstatus] at hfinish ⊢
    cases hfinish
    exact ⟨_, rfl, h⟩
  · have hcancelled : sessionStopSkillStatus o.decision.action stop.reason = .cancelled := by
      unfold sessionStopSkillStatus at hstatus ⊢
      split_ifs at hstatus ⊢
      · exact absurd rfl hstatus
      · rfl
    cases hid : o.decision.actionTrackingId with
    | none =>
      simp only [hcancelled, hid] at hfinish ⊢
      cases hfinish
      exact ⟨_, rfl, h⟩
    | some t =>
      simp only [hcancelled, hid] at hfinish ⊢
      obtain ⟨applied', happlied', hfinish⟩ := bind_eq_ok_iff.1 hfinish
      cases hfinish
      have htracked := h o ho hstatus t (by rw [hid]; rfl)
        (exists_applyTerminalEffect_iff.1 ⟨applied', happlied'⟩).2
      have hexists : ∃ applied, applyTerminalEffect t .cancelled db = .ok applied :=
        exists_applyTerminalEffect_iff.2 ⟨rfl, htracked⟩
      obtain ⟨applied, happlied⟩ := hexists
      refine ⟨_, bind_eq_ok_iff.2 ⟨applied, happlied, rfl⟩, fun p hp hnot u hu hactive ↦ ?_⟩
      have hactive' := (Db.isTracked_applyTerminalEffect happlied').1 hactive
      exact (Db.isTracked_applyTerminalEffect happlied).2 ⟨h p hp hnot u hu hactive'.1, hactive'.2⟩

/-- Whether the stopping of a session raises depends on the effects of the calls it cancels. -/
theorem closeGeneration_withTracking (hkeep : (∃ j ∈ db.lockClaim c, j.IsCurrentClaim c) →
      ((db.callsToClose c).filter fun o ↦
        sessionStopSkillStatus o.decision.action stop.reason = .succeeded).length ≤ 1 →
      db.TracksMore (db.withTracking tracking) stop.reason (db.callsToClose c))
    (h : (closeGeneration c stop (db.withTracking tracking)).isOk = true) :
    (closeGeneration c stop db).isOk = true := by
  have hlock : (db.withTracking tracking).lockClaim c = db.lockClaim c := rfl
  have hcalls : ((db.withTracking tracking).cancelUnsentDecisions c.cycleId).lockOpenCalls c.cycleId =
    db.callsToClose c := rfl
  have hcalls' : (db.cancelUnsentDecisions c.cycleId).lockOpenCalls c.cycleId =
    db.callsToClose c := rfl
  have hcycles : (db.withTracking tracking).cycles = db.cycles := rfl
  unfold closeGeneration at h ⊢
  rw [hlock] at h
  cases hclaim : (db.lockClaim c).filter fun j ↦ j.IsCurrentClaim c with
  | none => rfl
  | some j =>
    rw [hclaim] at h
    simp only [hcalls, hcalls', hcycles] at h ⊢
    by_cases hambiguous : 1 < ((db.callsToClose c).filter fun o ↦
        sessionStopSkillStatus o.decision.action stop.reason = .succeeded).length
    · rw [if_pos hambiguous]
      rfl
    · rw [if_neg hambiguous] at h ⊢
      obtain ⟨hmem, hcurrent⟩ := Option.filter_eq_some_iff.1 hclaim
      have htracks : (db.cancelUnsentDecisions c.cycleId).TracksMore
          ((db.withTracking tracking).cancelUnsentDecisions c.cycleId) stop.reason
          (db.callsToClose c) :=
        hkeep ⟨j, hmem, of_decide_eq_true hcurrent⟩ (Nat.le_of_not_lt hambiguous)
      obtain ⟨r, h⟩ := isOk_iff.1 h
      obtain ⟨finished', hfold', h⟩ := bind_eq_ok_iff.1 h
      obtain ⟨finished, hfold, -⟩ := exists_foldlM_of_rel
        (R := fun s' s : Db ↦ s.TracksMore s' stop.reason (db.callsToClose c))
        (fun s' s o ho hR t' hfinish ↦ finishOpenCall_tracksMore ho hR hfinish) htracks hfold'
      split_ifs at h with hopen
      exact isOk_iff.2 ⟨_, bind_eq_ok_iff.2 ⟨finished, hfold, if_pos hopen⟩⟩

theorem mem_endedActions_of_finished {p : Position}
    (hbody : c.event.body = .sequenced p (.skillFinished payload)) {d : DecisionRow}
    {call : Option CallRow} (hlookup : lookUpCall c
      ⟨payload.decisionId, payload.skillCallId, payload.skillName⟩ db = .ok (d, call))
    (hrunning : ∀ k ∈ call, k.status.isRunning = true) (ht : t ∈ d.actionTrackingId) :
    t ∈ db.endedActions c := by
  simp only [Db.endedActions, hbody, hlookup]
  rw [if_pos hrunning]
  exact Option.mem_toList.2 ht

theorem mem_endedActions_of_stopped {p : Position}
    (hbody : c.event.body = .sequenced p (.sessionStopped stop))
    (hclaim : ∃ j ∈ db.lockClaim c, j.IsCurrentClaim c) (hone : ((db.callsToClose c).filter fun o ↦
      sessionStopSkillStatus o.decision.action stop.reason = .succeeded).length ≤ 1) {o : OpenCall}
    (ho : o ∈ db.callsToClose c)
    (hnot : sessionStopSkillStatus o.decision.action stop.reason ≠ .succeeded)
    (ht : t ∈ o.decision.actionTrackingId) : t ∈ db.endedActions c := by
  simp only [Db.endedActions, hbody]
  rw [if_pos ⟨hclaim, hone⟩]
  exact List.mem_filterMap.2 ⟨o, List.mem_filter.2 ⟨ho, decide_eq_true hnot⟩, ht⟩

/-- A terminal event that raises raises too if other tracked actions than those that it gives a
status to are open. -/
theorem terminalRaises_withTracking (hkeep : ∀ t ∈ db.endedActions c,
      (db.withTracking tracking).IsTracked t → db.IsTracked t)
    (h : db.terminalRaises now c = true) :
    (db.withTracking tracking).terminalRaises now c = true := by
  unfold Db.terminalRaises at *
  split at h
  · rename_i payload hbody
    simp only [Bool.not_eq_true', Bool.eq_false_iff] at h ⊢
    refine fun hok ↦ h (recordSkillFinished_withTracking (fun d call hlookup hrunning t ht ↦ ?_) hok)
    exact hkeep t (mem_endedActions_of_finished hbody hlookup hrunning ht)
  · rename_i stop hbody
    simp only [Bool.not_eq_true', Bool.eq_false_iff] at h ⊢
    refine fun hok ↦ h (closeGeneration_withTracking (fun hclaim hone o ho hnot t ht ↦ ?_) hok)
    exact hkeep t (mem_endedActions_of_stopped hbody hclaim hone ho hnot ht)
  · exact absurd h Bool.false_ne_true

end Raises

namespace TrackedWorld

variable {config : SystemConfig} {atLeast : Json → Json → Bool} {s : TrackedWorld}
  {a : TrackedAction}

/-- An action that has left `tracking` keeps its status. -/
def Keeps (config : SystemConfig) (atLeast : Json → Json → Bool) (s : TrackedWorld)
    (a : TrackedAction) : Prop :=
  ∀ r ∈ s.world.db.tracking, r.status ≠ .tracking →
    ∀ r' ∈ (s.exec config atLeast a).world.db.tracking, r'.id = r.id → r'.status = r.status

instance : Decidable (s.Keeps config atLeast a) :=
  inferInstanceAs (Decidable (∀ _ ∈ _, _ → ∀ _ ∈ _, _))

/-- The database as if no row had been closed by the analysis. -/
def reopened (s : TrackedWorld) : Db :=
  s.world.db.updateTracking (fun r ↦ r.id ∈ s.analysed)
    { set r := { r with status := .tracking }
      key_set _ := rfl }

/-- The event that the action records. -/
def recorded? (s : TrackedWorld) : TrackedAction → Option ClaimedEvent
  | .gateway (.record token) => s.world.claim? token
  | _ => none

/-- A terminal event raises that would not raise if the analysis had closed no row. -/
def FailsOnAnalysis (s : TrackedWorld) (a : TrackedAction) : Prop :=
  ∃ c ∈ s.recorded? a, s.world.db.terminalRaises s.world.now c = true ∧
    s.reopened.terminalRaises s.world.now c = false

instance : Decidable (s.FailsOnAnalysis a) := inferInstanceAs (Decidable (∃ _ ∈ _, _))

/-- The update that the action makes. -/
def chosen? (s : TrackedWorld) : TrackedAction → Option TrackingWrite
  | .update run id => s.chosen.find? fun x ↦ x.run = run ∧ x.id = id
  | _ => none

/-- A run of the node updates a row that is not tracked any more, or a terminal event is about to
give a status to a row that a run of the node has closed. -/
def Collides (s : TrackedWorld) (a : TrackedAction) : Prop :=
  (∃ x ∈ s.chosen? a, ∃ r ∈ s.world.db.tracking, r.id = x.id ∧ r.status ≠ .tracking) ∨
    ∃ c ∈ s.recorded? a, ∃ t ∈ s.world.db.endedActions c, t ∈ s.analysed

instance : Decidable (s.Collides a) :=
  inferInstanceAs (Decidable ((∃ _ ∈ _, ∃ _ ∈ _, _) ∨ ∃ _ ∈ _, ∃ _ ∈ _, _))

/-! ## Rows that runs of the node have updated -/

/-- The rows of updates are stored. A row that a run has updated and not committed is still
tracked, and no other run has updated it. -/
structure Locked (s : TrackedWorld) : Prop where
  chosen : ∀ x ∈ s.chosen, ∃ r ∈ s.world.db.tracking, r.id = x.id
  written : ∀ x ∈ s.written, s.world.db.IsTracked x.id
  distinct : ∀ x ∈ s.written, ∀ y ∈ s.written, x.id = y.id → x.run = y.run

theorem mem_applyWrites {writes : List TrackingWrite} {r : TrackingRow} (hr : r ∈ db.tracking)
    (hother : ∀ x ∈ writes, r.id ≠ x.id) : r ∈ (writes.foldl Db.applyWrite db).tracking := by
  induction writes generalizing db with
  | nil => exact hr
  | cons x writes ih =>
    obtain ⟨hne, hother⟩ := List.forall_mem_cons.1 hother
    exact ih (Table.mem_update_of_not hr hne) hother

theorem exists_mem_applyWrites {writes : List TrackingWrite} {r : TrackingRow}
    (hr : r ∈ db.tracking) : ∃ r' ∈ (writes.foldl Db.applyWrite db).tracking, r'.id = r.id := by
  induction writes generalizing db r with
  | nil => exact ⟨r, hr, rfl⟩
  | cons x writes ih =>
    have hfirst : ∃ q ∈ (db.applyWrite x).tracking, q.toTrackingKey = r.toTrackingKey :=
      Table.exists_mem_update hr
    obtain ⟨q, hq, hkey⟩ := hfirst
    obtain ⟨r', hr', hid⟩ := ih hq
    exact ⟨r', hr', hid.trans (congrArg TrackingKey.id hkey)⟩

theorem start_locked (w : World) : (start w).Locked where
  chosen _ hx := absurd hx List.not_mem_nil
  written _ hx := absurd hx List.not_mem_nil
  distinct _ hx := absurd hx List.not_mem_nil

/-- What a transaction of the gateway leaves behind of a row. -/
theorem exec_gateway_tracking (w : World) (b : Action) {r : TrackingRow} (hr : r ∈ w.db.tracking) :
    ∃ r' ∈ (w.exec config b).db.tracking, r'.id = r.id ∧ (r.status ≠ .tracking → r' = r) := by
  obtain ⟨r', hr', hstep⟩ := (World.exec_delivers config w b).tracking.forward r hr
  refine ⟨r', hr', congrArg TrackingKey.id hstep.key_eq, fun hstatus ↦ ?_⟩
  have hsame := hstep.settled hstatus
  have hkey := hstep.key_eq
  cases r
  cases r'
  simp only [TrackingRow.mk.injEq] at hkey hsame ⊢
  exact ⟨hkey, hsame⟩

theorem gateway_locked (h : s.Locked) (b : Action) : (s.gateway config b).Locked := by
  unfold gateway
  split_ifs with hwaits
  · exact h
  · refine ⟨fun x hx ↦ ?_, fun x hx ↦ ?_, h.distinct⟩
    · obtain ⟨r, hr, hid⟩ := h.chosen x hx
      obtain ⟨r', hr', hid', -⟩ := exec_gateway_tracking s.world b hr
      exact ⟨r', hr', hid'.trans hid⟩
    · obtain ⟨r, hr, hid, hactive⟩ := h.written x hx
      by_contra hnot
      refine hwaits ⟨r, hr, ⟨x, hx, hid.symm⟩, fun r' hr' heq ↦ hnot ⟨r', hr', ?_⟩⟩
      rw [heq]
      exact ⟨hid, hactive⟩

theorem select_locked (h : s.Locked) (run : ℕ) (state : AnalysisState) :
    (s.select atLeast run state).Locked := by
  unfold select
  split_ifs
  · exact h
  · refine ⟨fun x hx ↦ ?_, h.written, h.distinct⟩
    cases List.mem_append.1 hx with
    | inl hbefore => exact h.chosen x hbefore
    | inr hnew =>
      obtain ⟨r, hr, hchoice⟩ := List.mem_filterMap.1 hnew
      obtain ⟨status, -, rfl⟩ := Option.map_eq_some_iff.1 hchoice
      exact ⟨r, (Table.mem_select.1 hr).1, rfl⟩

theorem update_locked (h : s.Locked) {run : ℕ} {id : Uuid}
    (hfree : ¬s.Collides (.update run id)) : (s.update run id).Locked := by
  unfold update
  cases hfind : s.chosen.find? fun x ↦ x.run = run ∧ x.id = id with
  | none => exact h
  | some x =>
    have hmem : x ∈ s.chosen := List.mem_of_find?_eq_some hfind
    have hmatch : x.run = run ∧ x.id = id := by
      simpa only [decide_eq_true_eq] using List.find?_some hfind
    simp only
    split_ifs with hwaits
    · exact h
    · have htracked : s.world.db.IsTracked x.id := by
        obtain ⟨r, hr, hid⟩ := h.chosen x hmem
        by_contra hnot
        refine hfree (Or.inl ⟨x, hfind, r, hr, hid, fun hactive ↦ hnot ⟨r, hr, hid, hactive⟩⟩)
      have hown : ∀ y ∈ s.written, y.id = x.id → y.run = x.run := by
        intro y hy hid
        by_contra hne
        exact hwaits ⟨y, hy, fun hrun ↦ hne (hrun.trans hmatch.1.symm), hid.trans hmatch.2⟩
      refine ⟨fun y hy ↦ h.chosen y (List.mem_of_mem_erase hy), ?_, ?_⟩
      · exact List.forall_mem_append.2 ⟨h.written, List.forall_mem_singleton.2 htracked⟩
      · refine List.forall_mem_append.2 ⟨fun y hy ↦ List.forall_mem_append.2 ⟨h.distinct y hy, ?_⟩,
          List.forall_mem_singleton.2 (List.forall_mem_append.2 ⟨fun y hy hid ↦ ?_, ?_⟩)⟩
        · exact List.forall_mem_singleton.2 (hown y hy)
        · exact (hown y hy hid.symm).symm
        · exact List.forall_mem_singleton.2 fun _ ↦ rfl

/-- The updates that a run commits are not those of another run. -/
theorem mem_commit {run : ℕ} {r : TrackingRow} (hr : r ∈ s.world.db.tracking)
    (hother : ∀ x ∈ s.written, x.id = r.id → x.run ≠ run) :
    r ∈ (s.commit run).world.db.tracking := by
  unfold commit
  split_ifs
  · exact hr
  · apply mem_applyWrites hr
    intro x hx hid
    obtain ⟨hmem, hrun⟩ := List.mem_filter.1 hx
    exact hother x hmem hid.symm (of_decide_eq_true hrun)

theorem commit_locked (h : s.Locked) (run : ℕ) : (s.commit run).Locked := by
  have hwritten {x : TrackingWrite} (hx : x ∈ s.written) (hrun : x.run ≠ run) :
      (s.commit run).world.db.IsTracked x.id := by
    obtain ⟨r, hr, hid, hactive⟩ := h.written x hx
    refine ⟨r, mem_commit hr fun y hy hsame ↦ ?_, hid, hactive⟩
    rwa [h.distinct y hy x hx (hsame.trans hid)]
  unfold commit at hwritten ⊢
  split_ifs at hwritten ⊢
  · exact h
  · refine ⟨fun x hx ↦ ?_, fun x hx ↦ ?_, fun x hx y hy ↦ ?_⟩
    · obtain ⟨r, hr, hid⟩ := h.chosen x hx
      obtain ⟨r', hr', hid'⟩ := exists_mem_applyWrites hr
      exact ⟨r', hr', hid'.trans hid⟩
    · obtain ⟨hmem, hrun⟩ := List.mem_filter.1 hx
      exact hwritten hmem (of_decide_eq_true hrun)
    · exact h.distinct x (List.mem_of_mem_filter hx) y (List.mem_of_mem_filter hy)

theorem rollback_locked (h : s.Locked) (run : ℕ) : (s.rollback run).Locked where
  chosen x hx := h.chosen x (List.mem_of_mem_filter hx)
  written x hx := h.written x (List.mem_of_mem_filter hx)
  distinct x hx y hy := h.distinct x (List.mem_of_mem_filter hx) y (List.mem_of_mem_filter hy)

theorem mem_insert {key : TrackingKey} {r : TrackingRow} (hr : r ∈ s.world.db.tracking) :
    r ∈ (s.insert key).world.db.tracking := by
  unfold insert
  split
  · exact hr
  · rename_i tracking hinsert
    exact (Table.mem_of_insert? hinsert).2 (Or.inl hr)

theorem insert_locked (h : s.Locked) (key : TrackingKey) : (s.insert key).Locked := by
  have hsame : (s.insert key).chosen = s.chosen ∧ (s.insert key).written = s.written := by
    unfold insert
    split <;> exact ⟨rfl, rfl⟩
  refine ⟨fun x hx ↦ ?_, fun x hx ↦ ?_, ?_⟩
  · rw [hsame.1] at hx
    obtain ⟨r, hr, hid⟩ := h.chosen x hx
    exact ⟨r, mem_insert hr, hid⟩
  · rw [hsame.2] at hx
    obtain ⟨r, hr, hid⟩ := h.written x hx
    exact ⟨r, mem_insert hr, hid⟩
  · rw [hsame.2]
    exact h.distinct

theorem exec_locked (h : s.Locked) (hfree : ¬s.Collides a) : (s.exec config atLeast a).Locked := by
  cases a with
  | gateway b => exact gateway_locked h b
  | select run state => exact select_locked h run state
  | update run id => exact update_locked h hfree
  | commit run => exact commit_locked h run
  | rollback run => exact rollback_locked h run
  | insert key => exact insert_locked h key

/-! ## What a step does to a closed row -/

/-- A step leaves a row that has left `tracking` as it is. -/
theorem mem_exec_of_closed (h : s.Locked) {r : TrackingRow} (hr : r ∈ s.world.db.tracking)
    (hclosed : r.status ≠ .tracking) : r ∈ (s.exec config atLeast a).world.db.tracking := by
  cases a with
  | gateway b =>
    simp only [exec, gateway]
    split_ifs
    · exact hr
    · obtain ⟨r', hr', -, hsame⟩ := exec_gateway_tracking s.world b hr
      rwa [← hsame hclosed]
  | select run state =>
    simp only [exec, select]
    split_ifs <;> exact hr
  | update run id =>
    simp only [exec, update]
    split
    · exact hr
    · split_ifs <;> exact hr
  | commit run =>
    apply mem_commit hr
    intro x hx hid
    obtain ⟨q, hq, hqid, hactive⟩ := h.written x hx
    rw [Table.eq_of_clashes hq hr (hqid.trans hid)] at hactive
    exact absurd hactive hclosed
  | rollback run => exact hr
  | insert key => exact mem_insert hr

theorem keeps_of_locked (h : s.Locked) : s.Keeps config atLeast a := by
  intro r hr hclosed r' hr' hid
  rw [Table.eq_of_clashes hr' (mem_exec_of_closed h hr hclosed) hid]

/-- A terminal event that finds its rows left alone by the analysis does not fail on it. -/
theorem not_failsOnAnalysis (hfree : ¬s.Collides a) : ¬s.FailsOnAnalysis a := by
  intro hfails
  obtain ⟨c, hc, hraises, hreopened⟩ := hfails
  refine absurd (terminalRaises_withTracking (fun t ht hactive ↦ ?_) hraises)
    (Bool.eq_false_iff.1 hreopened)
  have hleft : t ∉ s.analysed := fun hmem ↦ hfree (Or.inr ⟨c, hc, t, ht, hmem⟩)
  obtain ⟨r, hr, hid, hstatus⟩ := hactive
  cases Table.mem_update.1 hr with
  | inl hset =>
    obtain ⟨q, -, hclosed, rfl⟩ := hset
    exact absurd (hid ▸ hclosed) hleft
  | inr hkept => exact ⟨r, hkept.1, hid, hstatus⟩

/-- In a run in which the updates of the analysis find their rows still tracked, and the terminal
events find theirs left alone by the analysis, no step gives another status to an action that has
left `tracking`, and no terminal event fails on a row that the analysis has closed. -/
theorem closed_kept_of_apart {w : World} {actions : List TrackedAction}
    (hfree : Guarded (exec config atLeast) (fun s a ↦ ¬s.Collides a) (start w) actions) :
    Guarded (exec config atLeast) (fun s a ↦ s.Keeps config atLeast a ∧ ¬s.FailsOnAnalysis a)
      (start w) actions :=
  guarded_of_guarded (I := Locked) (fun _ _ ↦ exec_locked)
    (fun _ _ h hfree ↦ ⟨keeps_of_locked h, not_failsOnAnalysis hfree⟩) (start_locked w) hfree

section Example

open Scenario

/-- An analysis of the user that gives some actions up. -/
def givingUp (ids : List Uuid) : AnalysisState := ⟨"u", ⟨0, 0⟩, [], ids, 0, fun _ ↦ none⟩

/-- A walk that an earlier analysis has recommended. -/
def walk : TrackingKey := ⟨⟨1, 0⟩, ⟨0, 0⟩, "walk", ⟨"u", "walk", "steps", .int 5, .int 0, 1⟩⟩

/-- The dance of `World.acceptTracked` is finished. -/
def finishDance : List TrackedAction :=
  [.gateway (submit [plain "e2" 1 2 0 (finished "d")]), .gateway claim,
    .gateway (.record (Scenario.token 9))]

/-- The state after some steps from that in which the dance is accepted. -/
def afterSteps (actions : List TrackedAction) : TrackedWorld :=
  run (exec Scenario.config fun _ _ ↦ false) (start (after World.acceptTracked)) actions

/-- The walk is given up while the dance is finished. -/
theorem closed_kept_of_apart_walk :
    let actions := [.insert walk, .select 0 (givingUp [⟨1, 0⟩]), .update 0 ⟨1, 0⟩] ++ finishDance ++
      [.commit 0]
    Guarded (exec Scenario.config fun _ _ ↦ false)
        (fun s a ↦ s.Keeps Scenario.config (fun _ _ ↦ false) a ∧ ¬s.FailsOnAnalysis a)
        (start (after World.acceptTracked)) actions ∧
      (afterSteps actions).world.db.tracking.rows.map (fun r ↦ (r.id, r.status)) =
        [(Scenario.token 4, .completed), (⟨1, 0⟩, .abandoned)] := by
  intro actions
  exact ⟨closed_kept_of_apart (by decide), by decide⟩

/-- The dance is finished and then given up; or it is given up, and it cannot be finished. -/
theorem closed_not_kept :
    ¬Guarded (exec Scenario.config fun _ _ ↦ false)
        (fun s a ↦ s.Keeps Scenario.config (fun _ _ ↦ false) a) (start (after World.acceptTracked))
        ([.select 0 (givingUp [Scenario.token 4])] ++ finishDance ++
          [.update 0 (Scenario.token 4), .commit 0]) ∧
      ¬Guarded (exec Scenario.config fun _ _ ↦ false) (fun s a ↦ ¬s.FailsOnAnalysis a)
        (start (after World.acceptTracked))
        ([.select 0 (givingUp [Scenario.token 4]), .update 0 (Scenario.token 4), .commit 0] ++
          finishDance) ∧
      ∃ k ∈ (afterSteps ([.select 0 (givingUp [Scenario.token 4]), .update 0 (Scenario.token 4),
        .commit 0] ++ finishDance)).world.db.calls, k.status.isRunning = true := by
  decide

end Example

end TrackedWorld

end LlmGateway
