import LlmGateway.Effect.Claim
import LlmGateway.Effect.Maintenance

/-!
# The loops of the inbox end

A pass of `claim_next_event` that goes on closes an open event, and no pass opens one again. The
sweep and the discarding handle no event twice in a call.
-/

namespace LlmGateway

open Relational

variable {config : WorkerConfig} {now : ℕ} {db : Db}

/-! ## Passes of the claim -/

/-- When a pass takes place, and the cycles that are locked then. -/
structure ClaimMoment where
  now : ℕ
  busy : List Uuid

/-- The pass of a moment. -/
def passAt (config : WorkerConfig) (workerId : String) (moment : ClaimMoment) (db : Db) :
    PassOutcome × Db :=
  claimPass config moment.now workerId moment.busy db

/-- The state before a pass of the loop of `claim_next_event`, if all passes before it go on. -/
def beforePass (config : WorkerConfig) (workerId : String) (moments : ℕ → ClaimMoment) (db : Db) :
    ℕ → Db
  | 0 => db
  | pass + 1 => (passAt config workerId (moments pass)
      (beforePass config workerId moments db pass)).2

/-- The event with the id is open. -/
def Db.IsOpenEvent (db : Db) (id : Uuid) : Prop :=
  ∃ e ∈ db.events, e.id = id ∧ e.status.isOpen = true

/-- The event with the id has a terminal status. -/
def Db.IsClosedEvent (db : Db) (id : Uuid) : Prop :=
  ∃ e ∈ db.events, e.id = id ∧ e.status.isOpen = false

/-- What a closing update leaves open was open and is not among the rows of the update. -/
theorem isOpenEvent_update {db' : Db} {w : EventRow → Prop} [DecidablePred w]
    {a : Assignment EventRow} (hevents : db'.events = db.events.update w a)
    (hset : ∀ e, (a.set e).status.isOpen = false) {id : Uuid} (h : db'.IsOpenEvent id) :
    ∃ e ∈ db.events, e.id = id ∧ e.status.isOpen = true ∧ ¬w e := by
  obtain ⟨e, he, hid, hopen⟩ := h
  rw [hevents] at he
  rcases Table.mem_update.1 he with ⟨e', he', hw, rfl⟩ | ⟨he', hw⟩
  · rw [hset] at hopen
    cases hopen
  · exact ⟨e, he', hid, hopen, hw⟩

/-- A pass that goes on has a candidate, which it closes. -/
theorem passAt_again {workerId : String} {moment : ClaimMoment} {outcome : PassOutcome} {db' : Db}
    (hpass : passAt config workerId moment db = (outcome, db')) (hagain : outcome = .again) :
    db'.openCount < db.openCount ∧ ∃ id, db.IsOpenEvent id ∧ db'.IsClosedEvent id := by
  unfold passAt claimPass at hpass
  rcases hcandidate : db.claimCandidate config.maxAttempts moment.now moment.busy with _ | j
  · rw [hcandidate] at hpass
    cases hpass
    cases hagain
  · obtain ⟨hjoins, hclaimable⟩ := claimCandidate_eq_some hcandidate
    have hopen : j.event.status.isOpen = true := by
      rcases hclaimable.2.2 with ⟨hs | hs, -⟩ | ⟨hs, -⟩ <;> rw [hs] <;> rfl
    rw [hcandidate] at hpass
    simp only [claimLocked] at hpass
    have hclose {a : Assignment EventRow} (hset : ∀ e, (a.set e).status.isOpen = false)
        (hid : ∀ e, (a.set e).id = e.id)
        (hevents : db'.events = db.events.update (fun e ↦ e.id = j.event.id) a) :
        db'.openCount < db.openCount ∧ ∃ id, db.IsOpenEvent id ∧ db'.IsClosedEvent id := by
      refine ⟨?_, j.event.id, ⟨j.event, hjoins.event_mem, rfl, hopen⟩, a.set j.event, ?_, hid _,
        hset _⟩
      · unfold Db.openCount
        rw [hevents]
        exact Table.countP_update_lt (fun e _ ↦ hset e) hjoins.event_mem rfl hopen
      · rw [hevents]
        exact Table.set_mem_update hjoins.event_mem rfl
    rcases hdisposition : j.disposition with _ | _ | _ | _ | _
    all_goals rw [hdisposition] at hpass
    case stale =>
      cases hpass
      exact hclose (a := Db.closeEvent .superseded none none) (fun _ ↦ rfl) (fun _ ↦ rfl) rfl
    case wait =>
      cases hpass
      exact hclose (a := Db.closeEvent .manual (some "generation") (some "missing_session_started"))
        (fun _ ↦ rfl) (fun _ ↦ rfl) rfl
    case activateNew | current | historicalRecovery =>
      cases hpass
      cases hagain

/-! ## Rows that are handled once -/

section Trail

variable {σ ι : Type*} {body : σ → Option σ} {live : σ → ι → Prop} {handled : σ → List ι}

/-- If the body handles live items only, each once, and leaves none of them live, then no item is
handled twice along the loop. -/
theorem nodup_handled (hnodup : ∀ s, (handled s).Nodup)
    (hlive : ∀ s, ∀ i ∈ handled s, live s i)
    (hdone : ∀ s s', body s = some s' → ∀ i, live s' i → live s i ∧ i ∉ handled s) {n : ℕ} {s : σ} :
    ((trail body n s).flatMap handled).Nodup ∧
      ∀ i ∈ (trail body n s).flatMap handled, live s i := by
  induction n generalizing s with
  | zero => exact ⟨List.nodup_nil, fun i hi ↦ absurd hi List.not_mem_nil⟩
  | succ n ih =>
    unfold trail
    rcases hbody : body s with _ | s'
    · exact ⟨List.nodup_nil, fun i hi ↦ absurd hi List.not_mem_nil⟩
    · obtain ⟨hrest, hlater⟩ := @ih s'
      simp only [List.flatMap_cons]
      constructor
      · refine (hnodup s).append hrest fun i hi hi' ↦ ?_
        exact (hdone s s' hbody i (hlater i hi')).2 hi
      · intro i hi
        obtain hi | hi := List.mem_append.1 hi
        · exact hlive s i hi
        · exact (hdone s s' hbody i (hlater i hi)).1

end Trail

/-! ## The sweep -/

/-- The event that a turn of the sweep handles. -/
def sweepHandles (maxAttempts now : ℕ) (db : Db) : List Uuid :=
  ((db.lockExhaustedClaim maxAttempts now).map (·.event.id)).toList

/-- The events that a call of the sweep changes, by the first statement and by its turns. -/
def sweptEvents (config : WorkerConfig) (now : ℕ) (db : Db) : List Uuid :=
  (db.events.select fun e ↦ ∃ c ∈ db.cycles, Db.ClosedCycleEvent e c).map (·.id) ++
    (sweepTrail config now db).flatMap (sweepHandles config.maxAttempts now)

theorem sweepRow_events {j : Joined} : ∃ (w : EventRow → Prop) (_ : DecidablePred w)
    (a : Assignment EventRow), (sweepRow j db).events = db.events.update w a ∧
      (∀ e, (a.set e).status.isOpen = false) ∧
      (j.event.status = .processing → w j.event) := by
  unfold sweepRow
  split_ifs with hvalid
  · refine ⟨fun e ↦ e.id = j.event.id ∧ e.claimToken = j.event.claimToken ∧
      e.claimedFenceVersion = j.event.claimedFenceVersion ∧ e.status = .processing,
      inferInstance, Db.closeEvent .deadLetter (some "worker") (some "claim_expired"), ?_,
      fun _ ↦ rfl, fun h ↦ ⟨rfl, rfl, rfl, h⟩⟩
    unfold Db.skipFrom
    split_ifs <;> rfl
  · exact ⟨fun e ↦ e.id = j.event.id, inferInstance, Db.closeEvent .superseded none none, rfl,
      fun _ ↦ rfl, fun _ ↦ rfl⟩

theorem sweepBody_eq_some {maxAttempts : ℕ} {db' : Db}
    (h : sweepBody maxAttempts now db = some db') :
    ∃ j, db.lockExhaustedClaim maxAttempts now = some j ∧ db.Joins j ∧
      j.event.status = .processing ∧ sweepRow j db = db' := by
  obtain ⟨j, hlock, hrow⟩ := Option.map_eq_some_iff.1 h
  obtain ⟨hjoins, hexhausted⟩ := lockExhaustedClaim_eq_some hlock
  exact ⟨j, hlock, hjoins, hexhausted.1, hrow⟩

theorem sweepBody_done {maxAttempts : ℕ} {db' : Db} (h : sweepBody maxAttempts now db = some db')
    {id : Uuid} (hopen : db'.IsOpenEvent id) :
    db.IsOpenEvent id ∧ id ∉ sweepHandles maxAttempts now db := by
  obtain ⟨j, hlock, hjoins, hprocessing, rfl⟩ := sweepBody_eq_some h
  obtain ⟨w, hw, a, hevents, hset, hcandidate⟩ := @sweepRow_events db j
  obtain ⟨e, he, hid, hstatus, hnot⟩ := isOpenEvent_update hevents hset hopen
  refine ⟨⟨e, he, hid, hstatus⟩, fun hmem ↦ hnot ?_⟩
  rw [sweepHandles, hlock] at hmem
  have heq : e = j.event := by
    apply eventRow_eq_of_id he hjoins.event_mem
    exact hid.trans (List.mem_singleton.1 hmem)
  exact heq ▸ hcandidate hprocessing

theorem sweepHandles_open {maxAttempts : ℕ} {id : Uuid} (h : id ∈ sweepHandles maxAttempts now db) :
    ∃ e ∈ db.events, e.id = id ∧ e.status = .processing := by
  unfold sweepHandles at h
  obtain ⟨j, hlock, rfl⟩ := Option.map_eq_some_iff.1 (Option.mem_toList.1 h)
  obtain ⟨hjoins, hexhausted⟩ := lockExhaustedClaim_eq_some hlock
  exact ⟨j.event, hjoins.event_mem, rfl, hexhausted.1⟩

theorem sweepHandles_nodup {maxAttempts : ℕ} : (sweepHandles maxAttempts now db).Nodup := by
  unfold sweepHandles
  cases db.lockExhaustedClaim maxAttempts now with
  | none => exact List.nodup_nil
  | some j => exact List.nodup_singleton _

theorem sweepBody_openCount_lt {maxAttempts : ℕ} {db' : Db}
    (h : sweepBody maxAttempts now db = some db') : db'.openCount < db.openCount := by
  obtain ⟨j, -, hjoins, hprocessing, rfl⟩ := sweepBody_eq_some h
  obtain ⟨w, hw, a, hevents, hset, hcandidate⟩ := @sweepRow_events db j
  unfold Db.openCount
  rw [hevents]
  exact Table.countP_update_lt (fun e _ ↦ hset e) hjoins.event_mem (hcandidate hprocessing)
    (EventRow.isOpen_of_processing hprocessing)

/-- No event is changed twice in a call of the sweep, and nothing is left to sweep. -/
theorem sweptEvents_nodup : (sweptEvents config now db).Nodup ∧
    (sweepExpiredClaims config now db).lockExhaustedClaim config.maxAttempts now = none := by
  constructor
  · obtain ⟨hturns, hopen⟩ := @nodup_handled Db Uuid (sweepBody config.maxAttempts now)
      Db.IsOpenEvent (sweepHandles config.maxAttempts now)
      (fun t ↦ sweepHandles_nodup)
      (fun t id hid ↦ by
        obtain ⟨e, he, heq, hprocessing⟩ := sweepHandles_open hid
        exact ⟨e, he, heq, EventRow.isOpen_of_processing hprocessing⟩)
      (fun t t' hbody id hid ↦ sweepBody_done hbody hid)
      (db.events.rows.length + 1) db.cleanupClosedCycleEvents
    have hcleaned : ((db.events.select fun e ↦
        ∃ c ∈ db.cycles, Db.ClosedCycleEvent e c).map (·.id)).Nodup := by
      rw [List.nodup_iff_pairwise_ne, List.pairwise_map]
      apply (db.events.distinct.sublist List.filter_sublist).imp
      exact fun hclash hid ↦ hclash (EventRow.clashes_of_id hid)
    refine hcleaned.append hturns fun id hid hid' ↦ ?_
    obtain ⟨e, he, rfl⟩ := List.mem_map.1 hid
    obtain ⟨he, hclosed⟩ := Table.mem_select.1 he
    obtain ⟨e', he', heq, -, hnot⟩ := isOpenEvent_update rfl
      (fun e ↦ by simp only [Db.closeEvent]; split_ifs <;> rfl) (hopen e.id hid')
    exact hnot (eventRow_eq_of_id he' he heq ▸ hclosed)
  · have hnone : sweepBody config.maxAttempts now (sweepExpiredClaims config now db) = none := by
      refine body_iterate_eq_none Db.openCount (fun _ _ ↦ sweepBody_openCount_lt) ?_
      refine (Table.countP_update_le fun e _ ↦ ?_).trans_lt
        (Nat.lt_succ_of_le List.countP_le_length)
      simp only [Db.closeEvent]
      split_ifs <;> rfl
    exact Option.map_eq_none_iff.1 hnone

/-! ## The discarding -/

/-- The events that a batch of the discarding closes, each in the state that is left by the rows
before it. -/
def batchHandles : Db → List Joined → List Uuid
  | _, [] => []
  | db, j :: batch =>
    (if ∃ e ∈ db.events, e.id = j.event.id ∧ e.status.isOpen then [j.event.id] else []) ++
      batchHandles (discardRow db j) batch

/-- The events that a call of the discarding closes. -/
def discardedEvents (maxAgeMs now : ℕ) (db : Db) : List Uuid :=
  (discardTrail maxAgeMs now db).flatMap fun t ↦ batchHandles t (t.selectStaleEvents maxAgeMs now)

theorem isOpenEvent_discardRow {j : Joined} {id : Uuid} (h : (discardRow db j).IsOpenEvent id) :
    db.IsOpenEvent id ∧ id ≠ j.event.id := by
  obtain ⟨e, he, hid, hopen, hnot⟩ :=
    isOpenEvent_update (discardRow_events db j) (fun _ ↦ rfl) h
  exact ⟨⟨e, he, hid, hopen⟩, fun heq ↦ hnot ⟨hid.trans heq, hopen⟩⟩

theorem batchHandles_spec (batch : List Joined) : (batchHandles db batch).Nodup ∧
    (∀ id ∈ batchHandles db batch, db.IsOpenEvent id) ∧
    ∀ id, (batch.foldl discardRow db).IsOpenEvent id →
      db.IsOpenEvent id ∧ id ∉ batchHandles db batch := by
  induction batch generalizing db with
  | nil => exact ⟨List.nodup_nil, fun id hid ↦ absurd hid List.not_mem_nil,
      fun id hopen ↦ ⟨hopen, List.not_mem_nil⟩⟩
  | cons j batch ih =>
    obtain ⟨hnodup, hopen, hleft⟩ := @ih (discardRow db j)
    have hlater : ∀ id ∈ batchHandles (discardRow db j) batch,
        db.IsOpenEvent id ∧ id ≠ j.event.id :=
      fun id hid ↦ isOpenEvent_discardRow (hopen id hid)
    unfold batchHandles
    refine ⟨?_, fun id hid ↦ ?_, fun id hlive ↦ ?_⟩
    · refine List.Nodup.append (by split_ifs <;> simp) hnodup fun id hid hid' ↦ ?_
      split_ifs at hid
      · exact (hlater id hid').2 (List.mem_singleton.1 hid)
      · exact absurd hid List.not_mem_nil
    · obtain hid | hid := List.mem_append.1 hid
      · split_ifs at hid with hexists
        · obtain ⟨e, he, heq, hstatus⟩ := hexists
          exact ⟨e, he, heq.trans (List.mem_singleton.1 hid).symm, hstatus⟩
        · exact absurd hid List.not_mem_nil
      · exact (hlater id hid).1
    · obtain ⟨hrow, hnot⟩ := hleft id hlive
      obtain ⟨hbefore, hne⟩ := isOpenEvent_discardRow hrow
      refine ⟨hbefore, fun hid ↦ ?_⟩
      obtain hid | hid := List.mem_append.1 hid
      · split_ifs at hid
        · exact hne (List.mem_singleton.1 hid)
        · exact absurd hid List.not_mem_nil
      · exact hnot hid

theorem discardedEvents_nodup {maxAgeMs : ℕ} : (discardedEvents maxAgeMs now db).Nodup := by
  refine (@nodup_handled Db Uuid (discardBody maxAgeMs now) Db.IsOpenEvent
    (fun t ↦ batchHandles t (t.selectStaleEvents maxAgeMs now))
    (fun t ↦ (batchHandles_spec _).1) (fun t id hid ↦ (batchHandles_spec _).2.1 id hid)
    (fun t t' hbody id hid ↦ ?_) (db.events.rows.length + 1) db).1
  unfold discardBody at hbody
  split_ifs at hbody
  cases hbody
  exact (batchHandles_spec _).2.2 id hid

/-! ## The passes end -/

section Passes

variable {workerId : String} {moments : ℕ → ClaimMoment}

theorem openCount_beforePass {passes : ℕ}
    (h : ∀ pass < passes, (passAt config workerId (moments pass)
      (beforePass config workerId moments db pass)).1 = .again) :
    (beforePass config workerId moments db passes).openCount + passes ≤ db.openCount := by
  induction passes with
  | zero => exact le_refl _
  | succ passes ih =>
    have hbefore := ih fun pass hlt ↦ h pass (Nat.lt_succ_of_lt hlt)
    obtain ⟨hlt, -⟩ := passAt_again rfl (h passes (Nat.lt_succ_self _))
    have hstep : (beforePass config workerId moments db (passes + 1)).openCount <
        (beforePass config workerId moments db passes).openCount := hlt
    omega

/-- The loops end: each pass of the claim that goes on closes an open event, so there are no more
of them than open events, and the other loops handle no event twice. -/
theorem loops_end (config : WorkerConfig) (workerId : String) (moments : ℕ → ClaimMoment)
    (db : Db) :
    (∃ passes ≤ db.openCount,
      (passAt config workerId (moments passes)
        (beforePass config workerId moments db passes)).1 ≠ .again ∧
      ∀ pass < passes,
        (passAt config workerId (moments pass)
          (beforePass config workerId moments db pass)).1 = .again ∧
        ∃ id, (beforePass config workerId moments db pass).IsOpenEvent id ∧
          (beforePass config workerId moments db (pass + 1)).IsClosedEvent id) ∧
    (∀ now, (sweptEvents config now db).Nodup ∧
      (sweepExpiredClaims config now db).lockExhaustedClaim config.maxAttempts now = none) ∧
    ∀ maxAgeMs now, (discardedEvents maxAgeMs now db).Nodup ∧
      ∀ db', discardStaleEvents (some maxAgeMs) now db = .ok db' →
        db'.selectStaleEvents maxAgeMs now = [] := by
  refine ⟨?_, fun now ↦ sweptEvents_nodup, fun maxAgeMs now ↦ ⟨discardedEvents_nodup, ?_⟩⟩
  · have hends : ∃ pass, (passAt config workerId (moments pass)
        (beforePass config workerId moments db pass)).1 ≠ .again := by
      by_contra hall
      push Not at hall
      have hcount := @openCount_beforePass config db workerId moments (db.openCount + 1)
        fun pass _ ↦ hall pass
      omega
    classical
    have hagain : ∀ pass < Nat.find hends, (passAt config workerId (moments pass)
        (beforePass config workerId moments db pass)).1 = .again :=
      fun pass hlt ↦ not_not.1 (Nat.find_min hends hlt)
    have hcount := openCount_beforePass hagain
    refine ⟨Nat.find hends, by omega, Nat.find_spec hends, fun pass hlt ↦ ⟨hagain pass hlt, ?_⟩⟩
    exact (passAt_again rfl (hagain pass hlt)).2
  · intro db' hdiscard
    unfold discardStaleEvents at hdiscard
    split_ifs at hdiscard
    cases hdiscard
    have hnone : discardBody maxAgeMs now (iterate (discardBody maxAgeMs now)
        (db.events.rows.length + 1) db) = none := by
      refine body_iterate_eq_none Db.openCount (fun _ _ ↦ discardBody_openCount_lt) ?_
      exact Nat.lt_succ_of_le List.countP_le_length
    unfold discardBody at hnone
    split_ifs at hnone with hempty
    exact List.isEmpty_iff.1 hempty

end Passes

end LlmGateway
