import LlmGateway.Effect.Manual
import LlmGateway.System.Scenario
import LlmGateway.System.Terminal

/-!
# A stop and the call that asked for it

The call of a `stop_hosting` decision is ended by the `session_stopped` event that the stop
brings about and by its own `skill_finished` event. Processed in this order the two disagree:
`close_generation` stores a reason for the call, the event has none, and the terminals are
compared field by field. In the opposite order both are applied.
-/

namespace LlmGateway

open Relational

variable {db : Db}

/-- The stop would end the calls of the decision, or give up since it is ambiguous. -/
def Db.StopEnds (db : Db) (c : ClaimedEvent) (d : DecisionRow) : Prop :=
  db.HoldsCurrent c ∧ (db.AmbiguousStop c.cycleId ∨
    (d.cycleId = c.cycleId ∧ db.OpenCycle c.cycleId ∧ db.TracksOpenCalls c.cycleId))

def Db.Succeeded (db : Db) (callId : Uuid) : Prop :=
  ∃ k ∈ db.calls, k.id = callId ∧ k.status = .succeeded

/-- A stop is valid as long as the event is claimed under the current fence. -/
theorem Joined.claimValid_stop_iff {j : Joined} {c : ClaimedEvent}
    (hdesc : c.Describes j.event.toEventKey) (htype : j.event.eventType = .sessionStopped) :
    j.ClaimValid (some c.claimedFenceVersion) ↔ j.IsCurrentClaim c := by
  have hseq : j.event.eventType.isHostedChat = false := by
    rw [htype]
    rfl
  constructor
  · intro hvalid
    have hdisp : j.disposition ≠ .historicalRecovery := by
      intro hhistorical
      have hconvergence := (generation_of_historicalRecovery hhistorical).2
      rw [htype] at hconvergence
      exact Bool.noConfusion hconvergence
    have hcurrent := j.current_of_claimValid hvalid hseq hdisp
    refine ⟨hdesc.controlGeneration.symm, hdesc.controlGeneration ▸ hcurrent, ?_⟩
    cases hvalid with
    | inl hchat =>
      rw [hseq] at hchat
      exact Bool.noConfusion hchat
    | inr hrest =>
      cases hrest with
      | inl hhistorical => exact absurd hhistorical hdisp
      | inr hfence => exact (Option.some.inj hfence.2).symm
  · intro hcurrent
    refine Or.inr (Or.inr ⟨?_, congrArg some hcurrent.2.2.symm⟩)
    have hgeneration : j.session.currentGeneration = some j.event.controlGeneration :=
      hcurrent.2.1.trans (congrArg some hcurrent.1.symm)
    unfold Joined.disposition classifyGeneration
    rw [if_neg (by rw [hseq]; exact Bool.false_ne_true), if_neg, if_pos hgeneration]
    rw [hgeneration]
    exact fun h ↦ absurd (h _ rfl) (lt_irrefl _)

namespace World

variable (config : SystemConfig) (w : World)

/-- The claim is one of a stop that was requested. -/
structure Stops (token : Uuid) (c : ClaimedEvent) (payload : SessionStoppedPayload) : Prop where
  claimed : w.claim? token = some c
  body : ∃ position, c.event.body = .sequenced position (.sessionStopped payload)
  reason : payload.reason = "stop_hosting_requested"

/-- The event of the call is applied without a conflict, nothing becomes manual, and the call
has succeeded. -/
structure FinishSucceeds (token : Uuid) (c : ClaimedEvent) (payload : SkillFinishedPayload)
    (callId : Uuid) : Prop where
  result : terminalResult "terminal" (recordSkillFinished w.now c payload w.db) = .success
  marksNone : w.db.MarksNone (w.processFinish config token c payload).db
  call : (w.processFinish config token c payload).db.Succeeded callId

section Orders

variable {config w} {token : Uuid} {c : ClaimedEvent} {d : DecisionRow} {k : CallRow}

/-! ## The stop -/

theorem Stops.processStop_db {payload : SessionStoppedPayload} (h : w.Stops token c payload) :
    (w.processStop config token c payload).db = (completeEvent config.events w.now c
      (terminalResult "session" (closeGeneration c payload w.db))
      (w.commit (closeGeneration c payload w.db)).db).2 := by
  obtain ⟨position, hbody⟩ := h.body
  exact process_db h.claimed (record_stop h.claimed hbody)

/-- The joined row of a stop is one of a `session_stopped` event that the claim describes. -/
theorem Stops.claimValid_iff {payload : SessionStoppedPayload} (hw : w.Sound config)
    (h : w.Stops token c payload) {j : Joined} (hlock : w.db.lockClaim c = some j) :
    j.ClaimValid (some c.claimedFenceVersion) ↔ j.IsCurrentClaim c := by
  have hdesc := hw.describes_locked (mem_claims_of_claim? h.claimed) hlock
  obtain ⟨position, hbody⟩ := h.body
  refine Joined.claimValid_stop_iff hdesc ?_
  rw [(hw.integrity.event_sound _ (lockClaim_eq_some.1 hlock).1.event_mem).eventType,
    ← hdesc.event]
  simp only [GatewayEvent.eventType, hbody]
  rfl

/-- The stop marks something only if it is ambiguous, and then it does. -/
theorem Stops.marksNone_iff {payload : SessionStoppedPayload} (hw : w.Reachable config)
    (h : w.Stops token c payload) : w.db.MarksNone (w.processStop config token c payload).db ↔
      ¬(w.db.HoldsCurrent c ∧ w.db.AmbiguousStop c.cycleId) := by
  rw [h.processStop_db]
  by_cases hholds : w.db.HoldsCurrent c
  · by_cases hambiguous : w.db.AmbiguousStop c.cycleId
    · simp only [hholds, hambiguous, and_self, not_true_eq_false, iff_false]
      obtain ⟨db', hclose, hsessions, hcycles, hevents⟩ :=
        closeGeneration_of_ambiguous hholds h.reason hambiguous
      obtain ⟨j, hlock, hcurrent⟩ := hholds
      obtain ⟨hjoins, hid, hheld⟩ := lockClaim_eq_some.1 hlock
      have hlock' : db'.lockClaim c = some j := by
        refine lockClaim_eq_some.2 ⟨?_, hid, hheld⟩
        exact ⟨hevents ▸ hjoins.event_mem, hcycles ▸ hjoins.cycle_mem,
          hsessions ▸ hjoins.session_mem, hjoins.cycle_id, hjoins.session_id⟩
      intro hnone
      rw [hclose] at hnone
      have hgiven : (terminalResult "session"
          (.ok (⟨.conflict, some "ambiguous_stop_hosting_call"⟩, db'))).outcome = .manual := rfl
      obtain ⟨e', he', hid', hmanual'⟩ := completeEvent_manual config.events w.now hlock'
        ((h.claimValid_iff hw.sound hlock).2 hcurrent) hgiven
      obtain ⟨e, he, hsame, hmanual⟩ := hnone.events e' he' hmanual'
      rw [eventRow_eq_of_id he hjoins.event_mem (hsame.trans (hid'.trans hid.symm)),
        hheld.2.2] at hmanual
      cases hmanual
    · simp only [hambiguous, and_false, not_false_eq_true, iff_true]
      obtain ⟨happlied, hraised⟩ := closeGeneration_of_unambiguous hholds (fun _ ↦ hambiguous)
        hw.tracked hw.callsSound
      by_cases hopen : w.db.OpenCycle c.cycleId ∧ w.db.TracksOpenCalls c.cycleId
      · obtain ⟨db', hclose⟩ := happlied hopen
        obtain ⟨j, finished, hsteps⟩ := closeGeneration_applied hclose rfl
        rw [hclose]
        have hfinished : w.db.MarksNone finished :=
          .of_eq hsteps.finishes.events_eq hsteps.finishes.cycles_eq
        have hclosed : w.db.MarksNone db' := by
          rw [hsteps.db_eq]
          exact hfinished.trans (.closeRows finished j c)
        exact hclosed.trans (.completeEvent fun _ _ _ ↦ ProcessOutcome.noConfusion)
      · obtain ⟨failure, hclose⟩ := hraised hopen
        rw [hclose]
        exact .completeEvent fun _ _ _ ↦ ProcessOutcome.noConfusion
  · simp only [hholds, false_and, not_false_eq_true, iff_true]
    rw [closeGeneration_of_fenced hholds]
    refine .completeEvent fun j hlock hvalid ↦ ?_
    exact absurd ⟨j, hlock, (h.claimValid_iff hw.sound hlock).1 hvalid⟩ hholds

/-- A stop that does not end the calls of the decision leaves its call as it is; a closed call
is left anyhow. -/
theorem Stops.call_mem {payload : SessionStoppedPayload} (hw : w.Reachable config)
    (h : w.Stops token c payload) (hd : d ∈ w.db.decisions) (hk : k ∈ w.db.calls)
    (hown : k.decisionRowId = d.id)
    (hspared : ¬(w.db.HoldsCurrent c ∧ w.db.AmbiguousStop c.cycleId) ∧
      (k.status.isRunning = true → ¬w.db.StopEnds c d)) :
    k ∈ (w.processStop config token c payload).db.calls := by
  rw [h.processStop_db, completeEvent_calls]
  by_cases hholds : w.db.HoldsCurrent c
  · have hambiguous : ¬w.db.AmbiguousStop c.cycleId := fun hambiguous ↦
      hspared.1 ⟨hholds, hambiguous⟩
    obtain ⟨happlied, hraised⟩ := closeGeneration_of_unambiguous hholds (fun _ ↦ hambiguous)
      hw.tracked hw.callsSound
    by_cases hopen : w.db.OpenCycle c.cycleId ∧ w.db.TracksOpenCalls c.cycleId
    · obtain ⟨db', hclose⟩ := happlied hopen
      obtain ⟨j, finished, hsteps⟩ := closeGeneration_applied hclose rfl
      rw [hclose]
      by_cases hrunning : k.status.isRunning = true
      · refine (hsteps.calls_same ?_).2 hk
        intro hof
        obtain ⟨d', hd', hid, hcycle⟩ := hof
        obtain rfl : d' = d := decisionRow_eq_of_id hd' hd (hid.trans hown)
        exact hspared.2 hrunning ⟨hholds, Or.inr ⟨hcycle, hopen⟩⟩
      · rw [Bool.not_eq_true] at hrunning
        exact hsteps.closed_mem hk hrunning
    · obtain ⟨failure, hclose⟩ := hraised hopen
      rw [hclose]
      exact hk
  · rw [closeGeneration_of_fenced hholds]
    exact hk

/-- A stop that ends the calls of the decision leaves its call closed with a reason. -/
theorem Stops.call_closed {payload : SessionStoppedPayload} (hw : w.Reachable config)
    (h : w.Stops token c payload) (hopen : w.db.OpenStop d k) (hholds : w.db.HoldsCurrent c)
    (hambiguous : ¬w.db.AmbiguousStop c.cycleId) (hcycle : d.cycleId = c.cycleId)
    (hends : w.db.OpenCycle c.cycleId ∧ w.db.TracksOpenCalls c.cycleId) :
    ∃ k' ∈ (w.processStop config token c payload).db.calls, k'.toCallKey = k.toCallKey ∧
      k'.status.isRunning = false ∧ k'.reason.isSome = true := by
  rw [h.processStop_db, completeEvent_calls]
  obtain ⟨db', hclose⟩ := (closeGeneration_of_unambiguous hholds (fun _ ↦ hambiguous) hw.tracked
    hw.callsSound).1 hends
  obtain ⟨j, finished, hsteps⟩ := closeGeneration_applied hclose rfl
  rw [hclose]
  obtain ⟨k', hk', hkey⟩ := hsteps.call_forward hopen.call_mem
  have hclosed : k'.status.isRunning = false := by
    refine hsteps.calls_closed hk' ?_
    obtain ⟨d', hd', hkey'⟩ := hsteps.decision_iff.2 ⟨d, hopen.decision_mem, rfl⟩
    refine ⟨d', hd', ?_, (congrArg DecisionKey.cycleId hkey').trans hcycle⟩
    rw [hkey, hopen.own]
    exact congrArg DecisionKey.id hkey'
  refine ⟨k', hk', hkey, hclosed, (hsteps.call_reason hk').resolve_left fun hmem ↦ ?_⟩
  have hsame : k' = k := Table.eq_of_key_eq hmem hopen.call_mem hkey
  rw [hsame, hopen.running] at hclosed
  cases hclosed

/-! ## The event of the call -/

/-- The open call of a `stop_hosting` decision is closed by its event. -/
theorem processFinish_db (hw : w.Reachable config) (hopen : w.db.OpenStop d k)
    {payload : SkillFinishedPayload} (hc : w.claim? token = some c)
    (h : c.Finishes payload d k) : (w.processFinish config token c payload).db =
      (completeEvent config.events w.now c .success (w.db.updateTerminal k.id c.rowId
        ⟨.succeeded, none, none, none⟩ .notApplicable)).2 := by
  have hrecord := recordSkillFinished_of_openStop h hopen hw.callsSound hw.tracked w.now
  obtain ⟨position, hbody⟩ := h.body
  refine (process_db hc (record_finished hc hbody)).trans ?_
  rw [hrecord]
  rfl

theorem call_mem_processFinish (hw : w.Reachable config) (hopen : w.db.OpenStop d k)
    {payload : SkillFinishedPayload} (hc : w.claim? token = some c)
    (h : c.Finishes payload d k) : ∃ k' ∈ (w.processFinish config token c payload).db.calls,
      k'.toCallKey = k.toCallKey ∧ k'.status = .succeeded := by
  rw [processFinish_db hw hopen hc h, completeEvent_calls]
  exact ⟨_, updateTerminal_mem hopen.call_mem hopen.running, rfl, rfl⟩

/-- While the call is open, its event is applied. -/
theorem finishSucceeds (hw : w.Reachable config) (hopen : w.db.OpenStop d k)
    {payload : SkillFinishedPayload} (hc : w.claim? token = some c)
    (h : c.Finishes payload d k) : w.FinishSucceeds config token c payload k.id where
  result := by
    rw [recordSkillFinished_of_openStop h hopen hw.callsSound hw.tracked w.now]
    rfl
  marksNone := by
    rw [processFinish_db hw hopen hc h]
    have hcall : w.db.MarksNone (w.db.updateTerminal k.id c.rowId ⟨.succeeded, none, none, none⟩
        .notApplicable) := .of_eq rfl rfl
    exact hcall.trans (.completeEvent fun _ _ _ ↦ ProcessOutcome.noConfusion)
  call := by
    obtain ⟨k', hk', hkey, hsucceeded⟩ := call_mem_processFinish hw hopen hc h
    exact ⟨k', hk', congrArg CallKey.id hkey, hsucceeded⟩

/-! ## Both orders -/

/-- The stop is processed, then any actions that leave the calls of the decision alone are
taken, and then the event of the call is processed. -/
structure StopThenFinish (config : SystemConfig) (w : World) (d : DecisionRow) (k : CallRow) where
  stopToken : Uuid
  stop : ClaimedEvent
  stopPayload : SessionStoppedPayload
  stops : w.Stops stopToken stop stopPayload
  between : List Action
  keeps : Guarded (exec config) (fun v a ↦ v.KeepsCalls config d.id a)
    (w.processStop config stopToken stop stopPayload) between
  finishToken : Uuid
  finish : ClaimedEvent
  finishPayload : SkillFinishedPayload
  claimed : (run (exec config) (w.processStop config stopToken stop stopPayload) between).claim?
    finishToken = some finish
  finishes : finish.Finishes finishPayload d k

/-- The same in the opposite order. -/
structure FinishThenStop (config : SystemConfig) (w : World) (d : DecisionRow) (k : CallRow) where
  finishToken : Uuid
  finish : ClaimedEvent
  finishPayload : SkillFinishedPayload
  claimed : w.claim? finishToken = some finish
  finishes : finish.Finishes finishPayload d k
  between : List Action
  keeps : Guarded (exec config) (fun v a ↦ v.KeepsCalls config d.id a)
    (w.processFinish config finishToken finish finishPayload) between
  stopToken : Uuid
  stop : ClaimedEvent
  stopPayload : SessionStoppedPayload
  stops : (run (exec config) (w.processFinish config finishToken finish finishPayload)
    between).Stops stopToken stop stopPayload

/-- Nothing becomes manual, and the call succeeds. -/
structure StopThenFinish.Agrees (s : StopThenFinish config w d k) : Prop where
  stop : w.db.MarksNone (w.processStop config s.stopToken s.stop s.stopPayload).db
  finish : (run (exec config) (w.processStop config s.stopToken s.stop s.stopPayload)
    s.between).FinishSucceeds config s.finishToken s.finish s.finishPayload k.id

/-- The state in which the stop is processed. -/
def FinishThenStop.middle (s : FinishThenStop config w d k) : World :=
  run (exec config) (w.processFinish config s.finishToken s.finish s.finishPayload) s.between

structure FinishThenStop.Agrees (s : FinishThenStop config w d k) : Prop where
  finish : w.FinishSucceeds config s.finishToken s.finish s.finishPayload k.id
  stop : s.middle.db.MarksNone
    (s.middle.processStop config s.stopToken s.stop s.stopPayload).db
  call : (s.middle.processStop config s.stopToken s.stop s.stopPayload).db.Succeeded k.id

/-- An open call of a `stop_hosting` decision succeeds without a conflict, whether the stop or
the event of the call is processed first. -/
def OrdersAgree (config : SystemConfig) : Prop :=
  ∀ w : World, w.Reachable config → ∀ d k, w.db.OpenStop d k →
    (∀ s : StopThenFinish config w d k, s.Agrees) ∧ ∀ s : FinishThenStop config w d k, s.Agrees

theorem run_decisions_forward (hw : w.Reachable config) (actions : List Action) :
    ∀ d ∈ w.db.decisions, ∃ d' ∈ (run (exec config) w actions).db.decisions,
      d'.toDecisionKey = d.toDecisionKey := by
  induction actions generalizing w with
  | nil => exact fun d hd ↦ ⟨d, hd, rfl⟩
  | cons a actions ih =>
    intro d hd
    obtain ⟨d', hd', hkey⟩ := exec_decisions_forward hw.sound a d hd
    obtain ⟨d'', hd'', hkey'⟩ := ih (hw.run [a]) d' hd'
    exact ⟨d'', hd'', hkey'.trans hkey⟩

theorem keepsCalls_of_rows {rowId : Uuid} {a : Action}
    (h : (w.exec config a).db.calls.rows = w.db.calls.rows) : w.KeepsCalls config rowId a := by
  intro k _
  rw [Table.mem_iff, h, Table.mem_iff]

/-- What leaves the calls of a decision alone leaves its call. -/
theorem mem_calls_of_keeps {rowId : Uuid} {actions : List Action}
    (hkeeps : Guarded (exec config) (fun v a ↦ v.KeepsCalls config rowId a) w actions)
    (hk : k ∈ w.db.calls) (hown : k.decisionRowId = rowId) :
    k ∈ (run (exec config) w actions).db.calls :=
  invariant_guarded (I := fun v : World ↦ k ∈ v.db.calls) (fun _ _ hk hkeeps ↦
    (hkeeps k hown).2 hk) hk hkeeps

theorem StopThenFinish.agrees_iff (hw : w.Reachable config) (hopen : w.db.OpenStop d k)
    (s : StopThenFinish config w d k) : s.Agrees ↔ ¬w.db.StopEnds s.stop d := by
  have hreachable : (w.processStop config s.stopToken s.stop s.stopPayload).Reachable config :=
    hw.run _
  have hmiddle := hreachable.run s.between
  obtain ⟨d₁, hd₁, hkey₁⟩ := run_decisions_forward hw
    [.record s.stopToken, .complete s.stopToken (terminalResult "session"
      (closeGeneration s.stop s.stopPayload w.db))] d hopen.decision_mem
  obtain ⟨d', hd', hkey'⟩ := run_decisions_forward hreachable s.between d₁ hd₁
  have hkey : d'.toDecisionKey = d.toDecisionKey := hkey'.trans hkey₁
  have hown : k.decisionRowId = d'.id := hopen.own.trans (congrArg DecisionKey.id hkey).symm
  have hfinishes := ClaimedEvent.Finishes.of_key s.finishes hkey
  constructor
  · intro hagrees hends
    obtain ⟨hholds, hambiguous | ⟨hcycle, hcloses⟩⟩ := hends
    · exact (s.stops.marksNone_iff hw).1 hagrees.stop ⟨hholds, hambiguous⟩
    · have hunambiguous : ¬w.db.AmbiguousStop s.stop.cycleId := fun hambiguous ↦
        (s.stops.marksNone_iff hw).1 hagrees.stop ⟨hholds, hambiguous⟩
      obtain ⟨k', hk', hcallKey, hclosed, hreason⟩ :=
        s.stops.call_closed hw hopen hholds hunambiguous hcycle hcloses
      have hrow : k'.decisionRowId = d.id :=
        (congrArg CallKey.decisionRowId hcallKey).trans hopen.own
      have hmem := mem_calls_of_keeps s.keeps hk' hrow
      have hfinishes' : s.finish.Finishes s.finishPayload d' k' :=
        ⟨hfinishes.body, hfinishes.success, hfinishes.gatewayId, hfinishes.sessionId,
          hfinishes.decisionId,
          hfinishes.skillCallId.trans (congrArg CallKey.skillCallId hcallKey).symm,
          hfinishes.skillName.trans (congrArg CallKey.skillName hcallKey).symm⟩
      obtain ⟨db', hconflict⟩ := recordSkillFinished_of_closed hfinishes' hmiddle.callsSound hd'
        hmem (hrow.trans (congrArg DecisionKey.id hkey).symm) hclosed hreason
      have hresult := hagrees.finish.result
      rw [hconflict] at hresult
      cases hresult
  · intro hspared
    have hunmarked : ¬(w.db.HoldsCurrent s.stop ∧ w.db.AmbiguousStop s.stop.cycleId) :=
      fun hboth ↦ hspared ⟨hboth.1, Or.inl hboth.2⟩
    have hmem := mem_calls_of_keeps s.keeps (s.stops.call_mem hw hopen.decision_mem hopen.call_mem
      hopen.own ⟨hunmarked, fun _ ↦ hspared⟩) hopen.own
    refine ⟨(s.stops.marksNone_iff hw).2 hunmarked, ?_⟩
    refine finishSucceeds hmiddle ⟨hd', ?_, hmem, hown, hopen.running⟩ s.claimed hfinishes
    exact (congrArg DecisionKey.action hkey).trans hopen.action

theorem FinishThenStop.agrees_iff (hw : w.Reachable config) (hopen : w.db.OpenStop d k)
    (s : FinishThenStop config w d k) :
    s.Agrees ↔ ¬(s.middle.db.HoldsCurrent s.stop ∧ s.middle.db.AmbiguousStop s.stop.cycleId) := by
  have hreachable : (w.processFinish config s.finishToken s.finish s.finishPayload).Reachable
      config := hw.run _
  have hmiddle : s.middle.Reachable config := hreachable.run s.between
  have hstops : s.middle.Stops s.stopToken s.stop s.stopPayload := s.stops
  constructor
  · exact fun hagrees ↦ (hstops.marksNone_iff hmiddle).1 hagrees.stop
  · intro hunambiguous
    obtain ⟨k', hk', hcallKey, hsucceeded⟩ := call_mem_processFinish hw hopen s.claimed s.finishes
    have hrow : k'.decisionRowId = d.id :=
      (congrArg CallKey.decisionRowId hcallKey).trans hopen.own
    have hmem : k' ∈ s.middle.db.calls := mem_calls_of_keeps s.keeps hk' hrow
    obtain ⟨d', hd', hcalls⟩ := hmiddle.callsSound.decision k' hmem
    have hstays := hstops.call_mem hmiddle hd' hmem hcalls.1.symm ⟨hunambiguous, fun hrunning ↦ by
      rw [hsucceeded] at hrunning
      cases hrunning⟩
    exact ⟨finishSucceeds hw hopen s.claimed s.finishes, (hstops.marksNone_iff hmiddle).2 hunambiguous,
      k', hstays, congrArg CallKey.id hcallKey, hsucceeded⟩

/-- A run in which the event of the call is claimed after the stop and meets a conflict. -/
theorem not_ordersAgree_of_conflict (hw : w.Reachable config) (hopen : w.db.OpenStop d k)
    {stop : ClaimedEvent} {stopPayload : SessionStoppedPayload} {stopToken : Uuid}
    (hstops : w.Stops stopToken stop stopPayload) {a b : Action} {v₁ v₂ v₃ : World}
    (hv₁ : v₁ = w.processStop config stopToken stop stopPayload)
    (hv₂ : v₂ = v₁.exec config a) (hv₃ : v₃ = v₂.exec config b)
    (hfirst : v₂.db.calls.rows = v₁.db.calls.rows) (hsecond : v₃.db.calls.rows = v₂.db.calls.rows)
    {payload : SkillFinishedPayload} (hc : v₃.claim? token = some c) (h : c.Finishes payload d k)
    (hresult : terminalResult "terminal" (recordSkillFinished v₃.now c payload v₃.db) ≠ .success) :
    ¬OrdersAgree config := by
  subst hv₁ hv₂ hv₃
  intro hagree
  have hagrees := (hagree w hw d k hopen).1
    { stopToken := stopToken
      stop := stop
      stopPayload := stopPayload
      stops := hstops
      between := [a, b]
      keeps := ⟨keepsCalls_of_rows hfirst, keepsCalls_of_rows hsecond, trivial⟩
      finishToken := token
      finish := c
      finishPayload := payload
      claimed := hc
      finishes := h }
  exact hresult hagrees.finish.result

end Orders

section Example

open Scenario

/-- The call of a `stop_hosting` decision is open, and the stop that follows is claimed. -/
def hosting : World :=
  after [submit [sessionStarted "e1" 1 "L1" 1], claim, .persist (token 3),
    .plan (token 3) ⟨"stop", 100, .stopHosting⟩ "d", finish 3, .claimDecision "worker",
    .recordResponse (token 5) ⟨200, .accepted, "ok", some "call", none⟩,
    submit [plain "e2" 1 2 0 stopped], claim]

def hostingFinished : SkillFinishedPayload :=
  ⟨"d", "call", "stop_hosting", .success, "done", false, 0, 0, none, Nat.le_refl 0⟩

def finishHosting : GatewayEvent :=
  plain "e3" 1 3 0 ⟨.skillFinished hostingFinished, rfl, EventType.noConfusion⟩

/-- The stop is processed first. -/
def stopProcessed (c : ClaimedEvent) : World :=
  hosting.processStop Scenario.config (token 8) c ⟨"stop_hosting_requested", 0⟩

/-- Then the event of the call is admitted, and claimed. -/
def callAdmitted (c : ClaimedEvent) : World :=
  (stopProcessed c).exec Scenario.config (submit [finishHosting])

def callClaimed (c : ClaimedEvent) : World := (callAdmitted c).exec Scenario.config claim

end Example

end World

end LlmGateway
