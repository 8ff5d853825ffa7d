import LlmGateway.Effect.Claim

/-!
# The effects of a worker on its claim

Heartbeat, completion and persistence change events only by settling them. They move the
cursor of a cycle only when its generation has been reached, and they raise the fence of a
session only when no event of its current generation is being processed any more.
-/

namespace LlmGateway

open Relational

variable {config : WorkerConfig} {now : ℕ} {P : Branch → Prop} {db : Db}

/-- The claim carries the columns of the event. -/
structure ClaimedEvent.Describes (c : ClaimedEvent) (e : EventKey) : Prop where
  rowId : c.rowId = e.id
  tenantId : c.tenantId = e.tenantId
  cycleId : c.cycleId = e.cycleId
  gatewayId : c.gatewayId = e.gatewayId
  sessionId : c.sessionId = e.sessionId
  eventId : c.eventId = e.eventId
  eventType : c.eventType = e.eventType
  controlGeneration : c.controlGeneration = e.controlGeneration
  eventSequence : c.eventSequence = e.eventSequence
  event : c.event = e.eventBody
  contentHash : c.contentHash = e.contentHash
  traceId : c.traceId = e.traceId

theorem lockClaim_eq_some {c : ClaimedEvent} {j : Joined} :
    db.lockClaim c = some j ↔ db.Joins j ∧ j.event.id = c.rowId ∧ j.event.HeldBy c := by
  simp only [Db.lockClaim, Option.bind_eq_some_iff, Option.filter_eq_some_iff,
    decide_eq_true_eq, eventById_eq_some]
  constructor
  · rintro ⟨e, ⟨⟨he, hid⟩, hheld⟩, hj⟩
    obtain ⟨hjoins, rfl⟩ := (joinEvent_eq_some he).1 hj
    exact ⟨hjoins, hid, hheld⟩
  · rintro ⟨hjoins, hid, hheld⟩
    exact ⟨j.event, ⟨⟨hjoins.event_mem, hid⟩, hheld⟩,
      (joinEvent_eq_some hjoins.event_mem).2 ⟨hjoins, rfl⟩⟩

/-! ## Single statements -/

/-- An update of held events that settles them. -/
theorem held_effect {c : ClaimedEvent} (a : Assignment EventRow)
    (hsettles : ∀ e : EventRow, e.status = .processing → e.Settles (a.set e)) :
    Effect config now P db (db.updateEvents (fun e ↦ e.id = c.rowId ∧ e.HeldBy c) a) :=
  .settle _ a (fun e _ hw ↦ hsettles e hw.2.2.2) fun _ _ hw ↦ Or.inl hw.2.2.2

theorem completeWith_effect (c : ClaimedEvent) {status : EventStatus}
    (stage category : Option String) (hstatus : status ≠ .processing) :
    Effect config now P db (db.completeWith c status stage category) :=
  held_effect _ fun _ hproc ↦ closeEvent_settles hstatus (EventRow.isOpen_of_processing hproc)

theorem completeRetryable_effect (c : ClaimedEvent) (nextAttemptAt : ℕ)
    (stage category : Option String) :
    Effect config now P db (db.completeRetryable c nextAttemptAt stage category) :=
  held_effect _ fun _ hproc ↦ ⟨rfl, rfl, Or.inr (Or.inl
    ⟨EventRow.isOpen_of_processing hproc, ⟨nofun, rfl, rfl, rfl, rfl⟩⟩)⟩

theorem renewClaim_effect (c : ClaimedEvent) :
    Effect config now P db (db.renewClaim config now c) :=
  held_effect _ fun _ hproc ↦ ⟨rfl, rfl, Or.inr (Or.inr ⟨hproc, _, rfl⟩)⟩

theorem passes_succ {cycleId : Uuid} {n : ℕ} (h : ∃ e ∈ db.events, e.cycleId = cycleId ∧
    e.eventSequence = n ∧ e.status.isOpen = false) : db.Passes cycleId n (n + 1) := by
  refine ⟨Nat.le_succ n, fun p hle hlt ↦ ?_⟩
  obtain rfl : p = n := by omega
  exact h

theorem Db.Skippable.closed {e : EventRow} (h : Db.Skippable e) : e.status.isOpen = false := by
  rcases h with h | ⟨-, h | h | h⟩ <;> rw [h] <;> rfl

/-- The recursive query steps over closed events only. -/
theorem passes_lastPosition (db : Db) (cycleId : Uuid) (fuel n : ℕ) :
    db.Passes cycleId n (db.lastPosition cycleId fuel n) := by
  induction fuel generalizing n with
  | zero => exact .refl db cycleId n
  | succ fuel ih =>
    unfold Db.lastPosition
    split_ifs with hskip
    · obtain ⟨e, he, hcycle, hposition, hskippable⟩ := hskip
      exact (passes_succ ⟨e, he, hcycle, hposition, hskippable.closed⟩).trans (ih (n + 1))
    · exact .refl db cycleId n

theorem advanceCycle_effect {cycleId : Uuid} (sequence : ℕ)
    (hreached : ∀ c ∈ db.cycles, c.id = cycleId →
      db.Reached c.gatewayId c.sessionId c.controlGeneration)
    (hclosed : ∃ e ∈ db.events, e.cycleId = cycleId ∧ e.eventSequence = sequence ∧
      e.status.isOpen = false) :
    Effect config now P db (db.advanceCycle cycleId sequence) := by
  refine .cursor _ _ (fun _ _ _ ↦ ⟨_, rfl⟩) (fun c hc hw ↦ Or.inl (hreached c hc hw.1))
    fun c _ hw ↦ ?_
  apply passes_succ
  rw [hw.1, hw.2]
  exact hclosed

theorem skipCompleted_effect {cycleId : Uuid}
    (hreached : ∀ c ∈ db.cycles, c.id = cycleId →
      db.Reached c.gatewayId c.sessionId c.controlGeneration ∨ 1 < c.nextEventSequence) :
    Effect config now P db (db.skipCompletedConvergenceEvents cycleId) :=
  .cursor _ _ (fun _ _ _ ↦ ⟨_, rfl⟩) hreached fun c _ hw ↦ by
    rw [hw]
    exact passes_lastPosition db cycleId _ _

/-- A completed event is closed. -/
theorem completeWith_closed {j : Joined} {c : ClaimedEvent} (hlinked : db.Linked j)
    (hheld : j.event.HeldBy c) (hdesc : c.Describes j.event.toEventKey) {status : EventStatus}
    (hstatus : status.isOpen = false) (stage category : Option String) :
    ∃ e ∈ (db.completeWith c status stage category).events, e.cycleId = c.cycleId ∧
      e.eventSequence = c.eventSequence ∧ e.status.isOpen = false := by
  refine ⟨(Db.closeEvent status stage category).set j.event, ?_, hdesc.cycleId.symm,
    hdesc.eventSequence.symm, hstatus⟩
  exact Table.set_mem_update (a := Db.closeEvent status stage category) hlinked.event_mem
    ⟨hdesc.rowId.symm, hheld⟩

/-- The joined cycle still has its key after later statements. -/
theorem Db.Linked.key_of_later {db' : Db} {j : Joined} (h : db.Linked j)
    (hlater : db.Later db') {c : CycleRow} (hc : c ∈ db'.cycles)
    (hid : c.id = j.event.cycleId) : c.toCycleKey = j.cycle.toCycleKey := by
  obtain ⟨c', hc', hkey⟩ := hlater.cycles j.cycle h.cycle_mem
  have hid' : c'.id = j.event.cycleId := (congrArg CycleKey.id hkey).trans h.cycle_id
  rw [cycleRow_eq_of_id hc hc' (hid.trans hid'.symm), hkey]

theorem Db.Linked.reached_of_later {db' : Db} {j : Joined} (h : db.Linked j)
    (hlater : db.Later db')
    (hreached : db.Reached j.event.gatewayId j.event.sessionId j.event.controlGeneration)
    {c : CycleRow} (hc : c ∈ db'.cycles) (hid : c.id = j.event.cycleId) :
    db'.Reached c.gatewayId c.sessionId c.controlGeneration := by
  have hkey := h.key_of_later hlater hc hid
  have hnames := h.cycle_owns
  rw [hkey, hnames.2.1, hnames.2.2.1, hnames.2.2.2]
  exact hlater.reached hreached

/-! ## Valid claims -/

theorem Joined.ClaimValid.reached {j : Joined} {fence : Option ℕ} (hvalid : j.ClaimValid fence)
    (hlinked : db.Linked j) (hseq : j.event.eventType.isHostedChat = false) :
    db.Reached j.event.gatewayId j.event.sessionId j.event.controlGeneration := by
  rw [hlinked.reached_iff]
  rcases hvalid with hchat | hhistorical | ⟨hcurrent, -⟩
  · simp [hseq] at hchat
  · obtain ⟨⟨g, hg, hlt⟩, -⟩ := generation_of_historicalRecovery hhistorical
    exact ⟨g, hg, hlt.le⟩
  · exact ⟨_, generation_of_current hcurrent hseq, le_refl _⟩

theorem Joined.current_of_claimValid {j : Joined} {fence : Option ℕ}
    (hvalid : j.ClaimValid fence) (hseq : j.event.eventType.isHostedChat = false)
    (hdisp : j.disposition ≠ .historicalRecovery) :
    j.session.currentGeneration = some j.event.controlGeneration := by
  rcases hvalid with hchat | hhistorical | ⟨hcurrent, -⟩
  · simp [hseq] at hchat
  · exact absurd hhistorical hdisp
  · exact generation_of_current hcurrent hseq

/-- The cursor of a cycle that was not reached is not at a hosted chat event. -/
theorem skipFrom_effects {db' : Db} {j : Joined} {fence : Option ℕ} (hI : db.Integrity)
    (hlinked : db.Linked j) (hvalid : j.ClaimValid fence) (hlater : db.Later db')
    (hcycles : j.event.eventType.isHostedChat = true → db'.cycles = db.cycles) :
    Effects config now P db' (db'.skipFrom j) := by
  unfold Db.skipFrom
  split_ifs with hskip
  · refine .single (skipCompleted_effect fun c hc hid ↦ ?_)
    by_cases hseq : j.event.eventType.isHostedChat = true
    · rw [hcycles hseq] at hc
      obtain rfl := hlinked.eq_cycle hc hid
      have hfloor := (hI.event_sound j.event hlinked.event_mem).chat_floor hseq
      have hcursor : j.cycle.nextEventSequence = j.event.eventSequence := by
        refine hskip.resolve_left ?_
        rw [EventType.isConvergence_of_isHostedChat hseq]
        decide
      rw [hcursor]
      exact Or.inr (lt_of_lt_of_le (by decide) hfloor)
    · rw [Bool.not_eq_true] at hseq
      exact Or.inl (hlinked.reached_of_later hlater (hvalid.reached hlinked hseq) hc hid)
  · exact .refl

/-! ## Stopping a generation -/

/-- After the statements that close the events of the current cycle of a session, no event
of its current generation is being processed. -/
theorem quiet_of_closed {db' : Db} {j : Joined} (hI : db'.Integrity) (hlinked : db.Linked j)
    (hlater : db.Later db')
    (hcurrent : j.session.currentGeneration = some j.event.controlGeneration)
    (hclosed : ∀ e ∈ db'.events, e.cycleId = j.event.cycleId → e.status ≠ .processing)
    {s : SessionRow} (hs : s ∈ db'.sessions) (hid : s.id = j.session.id)
    (hgen : s.currentGeneration = j.session.currentGeneration) : db'.Quiet s := by
  intro e he hgateway hsession hcur _
  obtain ⟨c, hc, howns⟩ := hI.event_owned e he
  obtain ⟨s₀, hs₀, hgrow⟩ := hlater.sessions j.session hlinked.session_mem
  have hs_eq : s = s₀ :=
    sessionRow_eq_of_id hs hs₀ (hid.trans (congrArg SessionKey.id hgrow.key_eq).symm)
  have hskey : s.toSessionKey = j.session.toSessionKey := hs_eq ▸ hgrow.key_eq
  obtain ⟨c₀, hc₀, hkey⟩ := hlater.cycles j.cycle hlinked.cycle_mem
  have hgen' : e.controlGeneration = j.event.controlGeneration := by
    rw [hgen, hcurrent] at hcur
    exact (Option.some.inj hcur).symm
  have hc_eq : c = c₀ := by
    refine cycleRow_eq_of_names hc hc₀ ?_ ?_ ?_
    · rw [howns.2.1, hgateway, hskey, hkey, hlinked.session_owns.2.1]
    · rw [howns.2.2.1, hsession, hskey, hkey, hlinked.session_owns.2.2]
    · rw [howns.2.2.2, hgen', hkey, hlinked.generation_eq]
  refine hclosed e he ?_
  rw [← howns.1, hc_eq, hkey, hlinked.cycle_id]

/-- The statements that stop a generation are a chain of effects. -/
theorem stop_effects {j : Joined} {c : ClaimedEvent} (hI : db.Integrity) (hlinked : db.Linked j)
    (hheld : j.event.HeldBy c) (hdesc : c.Describes j.event.toEventKey)
    (hcurrent : j.session.currentGeneration = some j.event.controlGeneration) :
    Effects config now P db
      ((((db.completeWith c .succeeded none none).supersedeOpenCycleEvents c.cycleId
        c.rowId).stopCycle c.cycleId c.eventSequence).stopRuntime j.session.id
        c.controlGeneration c.claimedFenceVersion) := by
  have hreached : db.Current j.event.gatewayId j.event.sessionId j.event.controlGeneration :=
    hlinked.current_iff.2 hcurrent
  have hcycle {c' : CycleRow} (hc' : c' ∈ db.cycles) (hid : c'.id = c.cycleId) :
      db.Current c'.gatewayId c'.sessionId c'.controlGeneration := by
    obtain rfl := hlinked.eq_cycle hc' (hid.trans hdesc.cycleId)
    rwa [hlinked.cycle_owns.2.1, hlinked.cycle_owns.2.2.1, hlinked.cycle_owns.2.2.2]
  have hcomplete : Effect config now P db (db.completeWith c .succeeded none none) :=
    completeWith_effect c none none (by decide)
  have hsupersede : Effect config now P (db.completeWith c .succeeded none none)
      ((db.completeWith c .succeeded none none).supersedeOpenCycleEvents c.cycleId c.rowId) := by
    refine .settle _ _ (fun e _ hw ↦ supersedeKeepingError_settles hw.2.2) fun e he hw ↦ ?_
    obtain ⟨c', hc', howns⟩ := (hcomplete.integrity hI).event_owned e he
    have hcur : db.Current c'.gatewayId c'.sessionId c'.controlGeneration :=
      hcycle hc' (howns.1.trans hw.1)
    rw [howns.2.1, howns.2.2.1, howns.2.2.2] at hcur
    exact Or.inr (Or.inr (Or.inl hcur.reached))
  have hclose : Effect config now P
      ((db.completeWith c .succeeded none none).supersedeOpenCycleEvents c.cycleId c.rowId)
      (((db.completeWith c .succeeded none none).supersedeOpenCycleEvents c.cycleId
        c.rowId).stopCycle c.cycleId c.eventSequence) :=
    .close _ _ (fun _ _ hw ↦ ⟨hw.2, rfl, rfl, rfl, rfl, le_max_left _ _⟩)
      fun c' hc' hw ↦ hcycle hc' hw.1
  have hchain : Effects config now P db
      (((db.completeWith c .succeeded none none).supersedeOpenCycleEvents c.cycleId
        c.rowId).stopCycle c.cycleId c.eventSequence) :=
    .head hcomplete (.head hsupersede (.single hclose))
  refine hchain.tail (.raiseFence _ _ (fun _ _ _ ↦ rfl) fun s hs hw ↦ Or.inl ?_)
  refine quiet_of_closed (hchain.integrity hI) hlinked hchain.later hcurrent ?_ hs hw.1 ?_
  · intro e he hcid hproc
    -- An event of the cycle is the completed one, or it was open and is superseded now.
    rcases Table.mem_update.1 he with ⟨e₀, -, -, rfl⟩ | ⟨he, hw⟩
    · exact absurd hproc (by simp [Db.supersedeKeepingError])
    · by_cases hid : e.id = c.rowId
      · rcases Table.mem_update.1 he with ⟨e₀, -, -, rfl⟩ | ⟨he, hnot⟩
        · exact absurd hproc (by simp [Db.closeEvent])
        · obtain rfl := hlinked.eq_event he (hid.trans hdesc.rowId)
          exact hnot ⟨hid, hheld⟩
      · exact hw ⟨hcid.trans hdesc.cycleId.symm, hid, EventRow.isOpen_of_processing hproc⟩
  · obtain rfl := hlinked.eq_session hs hw.1
    rfl

/-! ## Completion -/

theorem renewEventClaim_effects {c : ClaimedEvent} {renewed : Bool} {db' : Db}
    (h : renewEventClaim config now c db = .ok (renewed, db')) : Effects config now P db db' := by
  unfold renewEventClaim at h
  rcases hlock : db.lockClaim c with _ | j
  · simp only [hlock] at h
    cases h
    exact .refl
  · simp only [hlock] at h
    split_ifs at h <;> cases h
    · exact .single (renewClaim_effect c)
    · exact .refl
    · exact .refl

/-- What a completion does is a chain of effects. -/
theorem completeEvent_effects {c : ClaimedEvent} (result : EventProcessResult)
    (hI : db.Integrity)
    (hdesc : ∀ j, db.lockClaim c = some j → c.Describes j.event.toEventKey)
    (hfenced : ∀ j, db.lockClaim c = some j → ¬j.ClaimValid j.event.claimedFenceVersion →
      P (.fenced j))
    (hmanual : ∀ j, db.lockClaim c = some j → j.ClaimValid j.event.claimedFenceVersion →
      result.outcome = .manual → j.disposition ≠ .historicalRecovery →
      j.event.eventType.isHostedChat = false → P (.manual j)) :
    Effects config now P db (completeEvent config now c result db).2 := by
  unfold completeEvent
  rcases hlock : db.lockClaim c with _ | j
  · exact .refl
  obtain ⟨hjoins, hid, hheld⟩ := lockClaim_eq_some.1 hlock
  have hlinked := hI.linked hjoins
  have hdesc := hdesc j hlock
  have hfence : some c.claimedFenceVersion = j.event.claimedFenceVersion := hheld.2.1.symm
  simp only [hfence]
  by_cases hvalid : j.ClaimValid j.event.claimedFenceVersion
  case neg =>
    have hseq : j.event.eventType.isHostedChat = false := by
      rw [← Bool.not_eq_true]
      exact fun hchat ↦ hvalid (Or.inl hchat)
    rw [if_pos hvalid]
    exact .single (.supersede hlinked hseq
      (Or.inr ⟨hheld.2.2, hvalid, hfenced j hlock hvalid⟩))
  case pos =>
    rw [if_neg (not_not.2 hvalid)]
    rcases houtcome : result.outcome with _ | _ | _
    case succeeded =>
      have hcomplete : Effect config now P db (db.completeWith c .succeeded none none) :=
        completeWith_effect c none none (by decide)
      simp only [completeCycleSuccess]
      split_ifs with hchat hstop
      · exact .single hcomplete
      · rw [Bool.not_eq_true, hdesc.eventType] at hchat
        have hreached := hvalid.reached hlinked hchat
        have hadvance : Effects config now P db
            ((db.completeWith c .succeeded none none).advanceCycle c.cycleId c.eventSequence) := by
          refine .head hcomplete (.single (advanceCycle_effect _ (fun c' hc' hcid ↦ ?_) ?_))
          · exact hlinked.reached_of_later hcomplete.later hreached hc' (hcid.trans hdesc.cycleId)
          · exact completeWith_closed hlinked hheld hdesc rfl none none
        exact hadvance.trans (skipFrom_effects hI hlinked hvalid hadvance.later
          fun h ↦ absurd h (by simp [hchat]))
      · rw [ne_eq, not_not] at hstop
        rw [hdesc.eventType] at hstop
        refine stop_effects hI hlinked hheld hdesc
          (Joined.current_of_claimValid hvalid (by rw [hstop]; rfl) fun hhistorical ↦ ?_)
        have hconvergence := (Joined.generation_of_historicalRecovery hhistorical).2
        rw [hstop] at hconvergence
        exact absurd hconvergence (by decide)
    case retryableFailed =>
      simp only [completeFailed]
      split_ifs
      · have hcomplete : Effect config now P db
            (db.completeWith c .deadLetter result.errorStage result.errorCategory) :=
          completeWith_effect c _ _ (by decide)
        exact .head hcomplete (skipFrom_effects hI hlinked hvalid hcomplete.later fun _ ↦ rfl)
      · exact .single (completeRetryable_effect c _ _ _)
    case manual =>
      have hcomplete : Effect config now P db
          (db.completeWith c .manual result.errorStage result.errorCategory) :=
        completeWith_effect c _ _ (by decide)
      simp only [completeManual]
      split_ifs with hmark
      · obtain ⟨hdisp, hseq⟩ := hmark
        rw [hdesc.eventType] at hseq
        have hcurrent := Joined.current_of_claimValid hvalid hseq hdisp
        have hcid : c.cycleId = j.cycle.id := hdesc.cycleId.trans hlinked.cycle_id.symm
        have hmarked : Effects config now P db
            ((db.completeWith c .manual result.errorStage
              result.errorCategory).markCycleManual c.cycleId) := by
          rw [hcid]
          refine .head hcomplete (.single (.markManual hlinked.cycle_mem ?_
            (hmanual j hlock hvalid houtcome hdisp hseq)))
          rw [hlinked.cycle_owns.2.1, hlinked.cycle_owns.2.2.1, hlinked.cycle_owns.2.2.2]
          exact hlinked.current_iff.2 hcurrent
        exact hmarked.trans (skipFrom_effects hI hlinked hvalid hmarked.later
          fun h ↦ absurd h (by simp [hseq]))
      · exact .head hcomplete (skipFrom_effects hI hlinked hvalid hcomplete.later fun _ ↦ rfl)

/-! ## Persistence -/

/-- A persistence that commits stores the context, or finds the claim lost. -/
theorem persistLeaseContext_cases {c : ClaimedEvent} {context : AgentContext} {stored : Bool}
    {db' : Db} (h : persistLeaseContext c context db = .ok (stored, db')) :
    (stored = false ∧ db' = db) ∨
      (stored = true ∧ ∃ j, db.lockClaim c = some j ∧ j.Persistable c ∧ context.Matches c ∧
        db' = (((db.persistContext c.cycleId context).cancelOlderLeaseDecisions c.cycleId
          context).supersedeOlderLeaseEvents c context).skipCompletedConvergenceEvents
          c.cycleId) := by
  unfold persistLeaseContext at h
  by_cases hmatches : context.Matches c
  case neg => simp [hmatches] at h
  by_cases hrange : bigintMax < context.stateVersion
  case pos => simp [hmatches, hrange] at h
  rw [if_neg (not_not.2 hmatches), if_neg hrange] at h
  rcases hlock : (db.lockClaim c).filter fun j ↦ j.Persistable c with _ | j
  · simp only [hlock, Except.ok.injEq, Prod.mk.injEq] at h
    exact Or.inl ⟨h.1.symm, h.2.symm⟩
  · simp only [hlock] at h
    simp only [Option.filter_eq_some_iff, decide_eq_true_eq] at hlock
    by_cases hcast : db.supersedeCastFails c context
    case pos => simp [hcast] at h
    simp only [hcast, if_false, Except.ok.injEq, Prod.mk.injEq] at h
    exact Or.inr ⟨h.1.symm, j, hlock.1, hlock.2, hmatches, h.2.symm⟩

theorem persistLeaseContext_effects {c : ClaimedEvent} {context : AgentContext}
    {stored : Bool} {db' : Db} (hI : db.Integrity)
    (hdesc : ∀ j, db.lockClaim c = some j → c.Describes j.event.toEventKey)
    (hpersist : P (.persist c))
    (h : persistLeaseContext c context db = .ok (stored, db')) :
    Effects config now P db db' := by
  rcases persistLeaseContext_cases h with ⟨-, rfl⟩ | ⟨-, j, hlock, hpersistable, -, rfl⟩
  · exact .refl
  have hcurrent := hpersistable.2.1
  have hlinked := hI.linked (lockClaim_eq_some.1 hlock).1
  have hdesc := hdesc j hlock
  have hreached : db.Reached j.event.gatewayId j.event.sessionId j.event.controlGeneration :=
    hlinked.reached_iff.2 ⟨_, hcurrent, le_refl _⟩
  have hcontext : Effect config now P db (db.persistContext c.cycleId context) :=
    .context context hpersist
  have hcancel : Effect config now P (db.persistContext c.cycleId context)
      ((db.persistContext c.cycleId context).cancelOlderLeaseDecisions c.cycleId context) :=
    .outbox (.update_sent _ _ fun _ _ ↦ rfl)
  have hchain := hcontext.later.trans hcancel.later
  have hsettle : Effect config now P
      ((db.persistContext c.cycleId context).cancelOlderLeaseDecisions c.cycleId context)
      (((db.persistContext c.cycleId context).cancelOlderLeaseDecisions c.cycleId
        context).supersedeOlderLeaseEvents c context) := by
    refine .settle _ _ (fun e _ hw ↦ supersedeKeepingError_settles hw.1.2.2.2.1) fun e he hw ↦ ?_
    obtain ⟨c', hc', howns⟩ := (hcancel.integrity (hcontext.integrity hI)).event_owned e he
    have hcid : c'.id = j.event.cycleId := (howns.1.trans hw.1.1).trans hdesc.cycleId
    have hreached' := hlinked.reached_of_later hchain hreached hc' hcid
    rw [howns.2.1, howns.2.2.1, howns.2.2.2] at hreached'
    exact Or.inr (Or.inr (Or.inl hreached'))
  refine .head hcontext (.head hcancel (.head hsettle (.single ?_)))
  refine skipCompleted_effect fun c' hc' hid ↦ Or.inl ?_
  exact hlinked.reached_of_later (hchain.trans hsettle.later) hreached hc'
    (hid.trans hdesc.cycleId)

end LlmGateway
