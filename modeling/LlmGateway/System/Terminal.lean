import LlmGateway.System.Run

/-!
# Terminal events in runs

The action `.record` is one transaction of the terminal or of the outbox repository, whichever
the dispatcher calls for the event. A worker then completes the event with the result that the
dispatcher derives; when the event carries a lease, its planning follows and is not part of
this.
-/

namespace LlmGateway

open Relational

namespace World

variable (config : SystemConfig) (w : World)

/-- The action leaves the calls of the decision as they are. -/
def KeepsCalls (rowId : Uuid) (a : Action) : Prop :=
  ∀ k : CallRow, k.decisionRowId = rowId → (k ∈ (w.exec config a).db.calls ↔ k ∈ w.db.calls)

/-- A worker applies a terminal event and completes it. -/
def process (token : Uuid) (result : EventProcessResult) : World :=
  run (exec config) w [.record token, .complete token result]

/-- A worker processes a `session_stopped` event. -/
def processStop (token : Uuid) (c : ClaimedEvent) (payload : SessionStoppedPayload) : World :=
  w.process config token (terminalResult "session" (closeGeneration c payload w.db))

/-- A worker processes a `skill_finished` event. -/
def processFinish (token : Uuid) (c : ClaimedEvent) (payload : SkillFinishedPayload) : World :=
  w.process config token (terminalResult "terminal" (recordSkillFinished w.now c payload w.db))

variable {config w}

/-! ## Steps -/

/-- Recording a claimed `session_stopped` event is one call of `close_generation`. -/
theorem record_stop {token : Uuid} {c : ClaimedEvent} (hc : w.claim? token = some c)
    {position : Position} {payload : SessionStoppedPayload}
    (hbody : c.event.body = .sequenced position (.sessionStopped payload)) :
    w.exec config (.record token) = w.commit (closeGeneration c payload w.db) := by
  simp only [exec, withClaim, hc, Option.elim_some, recordTerminal, hbody]

theorem record_started {token : Uuid} {c : ClaimedEvent} {position : Position}
    {payload : SkillStartedPayload} (hc : w.claim? token = some c)
    (hbody : c.event.body = .sequenced position (.skillStarted payload)) :
    (w.exec config (.record token)).db = (recordSkillStarted w.now c payload w.db).2 := by
  simp only [exec, withClaim, hc, Option.elim_some, recordTerminal, hbody]

theorem record_finished {token : Uuid} {c : ClaimedEvent} {position : Position}
    {payload : SkillFinishedPayload} (hc : w.claim? token = some c)
    (hbody : c.event.body = .sequenced position (.skillFinished payload)) :
    w.exec config (.record token) = w.commit (recordSkillFinished w.now c payload w.db) := by
  simp only [exec, withClaim, hc, Option.elim_some, recordTerminal, hbody]

theorem record_response {token : Uuid} {c : ClaimedDecision} (hc : w.decisionClaim? token = some c)
    (response : DecisionClientResult) : w.exec config (.recordResponse token response) =
      w.commit (recordDecisionResponse w.now c response w.db) := by
  simp only [exec, withDecisionClaim, hc, Option.elim_some]

theorem mem_decisionClaims {token : Uuid} {c : ClaimedDecision}
    (hc : w.decisionClaim? token = some c) : c ∈ w.decisionClaims :=
  List.mem_of_find?_eq_some hc

theorem exec_decisions_forward (hw : w.Sound config) (a : Action) :
    ∀ d ∈ w.db.decisions, ∃ d' ∈ (w.exec config a).db.decisions,
      d'.toDecisionKey = d.toDecisionKey :=
  (exec_effects (P := fun _ ↦ True) hw fun _ _ ↦ trivial).decisions_forward

theorem exec_callsSound (hw : w.Sound config) (hcalls : w.db.CallsSound) (a : Action) :
    (w.exec config a).db.CallsSound :=
  invariant_chain (fun _ _ heff ↦ heff.callsSound)
    (exec_effects (a := a) (P := fun _ ↦ True) hw fun _ _ ↦ trivial) hcalls

/-- Processing is the transaction and then the completion. -/
theorem process_db {token : Uuid} {c : ClaimedEvent} (hc : w.claim? token = some c)
    {result : EventProcessResult} {α : Type*} {recorded : Except Failure (α × Db)}
    (hrecord : w.exec config (.record token) = w.commit recorded) :
    (w.process config token result).db =
      (completeEvent config.events w.now c result (w.commit recorded).db).2 := by
  have hclaim : (w.commit recorded).claim? token = some c := by
    rw [← hc]
    cases recorded <;> rfl
  have hnow : (w.commit recorded).now = w.now := by
    cases recorded <;> rfl
  simp only [process, run_cons, run_nil, hrecord]
  simp only [exec, withClaim, hclaim, Option.elim_some, hnow]

end World

end LlmGateway
