import LlmGateway.Guarantees.StopHosting

/-!
# The two ways to stop a session

`close_generation` stops the session of a `session_stopped` event, and so does `complete_event`
when the event has succeeded. The two write the same statuses, but `close_generation` asks for
more: an open cycle, calls that are not ambiguous, and tracked actions that are still tracked.
-/

namespace LlmGateway

open Relational

namespace Db

variable (db : Db)

/-- The statuses of the events of a cycle. -/
def eventStatuses (cycleId : Uuid) : List (Uuid × EventStatus) :=
  (db.events.select fun e ↦ e.cycleId = cycleId).map fun e ↦ (e.id, e.status)

def cycleStatus (cycleId : Uuid) : Option CycleStatus := (db.cycleById cycleId).map (·.status)

def sessionStatus (id : Uuid) : Option SessionStatus :=
  (db.sessions.find? fun s ↦ s.id = id).map (·.status)

/-- The same statuses of the events of the cycle, of the cycle and of the session. -/
structure SameStatuses (db' : Db) (cycleId runtimeSessionId : Uuid) : Prop where
  events : db.eventStatuses cycleId = db'.eventStatuses cycleId
  cycle : db.cycleStatus cycleId = db'.cycleStatus cycleId
  session : db.sessionStatus runtimeSessionId = db'.sessionStatus runtimeSessionId

end Db

/-- `close_generation` and `complete_event` agree: both stop, or both are fenced off, and they
leave the same statuses. -/
def StopPathsAgree (cycleId runtimeSessionId : Uuid)
    (closed : Except Failure (MutationResult × Db)) (completed : Bool × Db) : Prop :=
  ∃ result db, closed = .ok (result, db) ∧
    ((result.disposition = .applied ∧ completed.1 = true) ∨
      (result.disposition = .fenced ∧ completed.1 = false)) ∧
    db.SameStatuses completed.2 cycleId runtimeSessionId

variable {db db' finished : Db} {c : ClaimedEvent} {payload : SessionStoppedPayload} {j : Joined}

/-- Stopping through `complete_event` is the last part of `close_generation`. -/
theorem completeCycleSuccess_stop (htype : c.eventType = .sessionStopped) :
    completeCycleSuccess j c (db.completeWith c .succeeded none none) = closeRows j c db := by
  have hchat : ¬c.eventType.isHostedChat = true := by
    rw [htype]
    exact Bool.false_ne_true
  rw [completeCycleSuccess, if_neg hchat, if_neg (not_not.2 htype)]
  rfl

/-- It does not matter there what became of decisions, calls and tracked actions. -/
theorem closeRows_sameStatuses (hsessions : finished.sessions = db.sessions)
    (hcycles : finished.cycles = db.cycles) (hevents : finished.events = db.events)
    (cycleId runtimeSessionId : Uuid) :
    (closeRows j c finished).SameStatuses (closeRows j c db) cycleId runtimeSessionId := by
  have hsessions' : (closeRows j c finished).sessions = (closeRows j c db).sessions := by
    change finished.sessions.update _ _ = db.sessions.update _ _
    rw [hsessions]
  have hcycles' : (closeRows j c finished).cycles = (closeRows j c db).cycles := by
    change finished.cycles.update _ _ = db.cycles.update _ _
    rw [hcycles]
  have hevents' : (closeRows j c finished).events = (closeRows j c db).events := by
    change (finished.events.update _ _).update _ _ = (db.events.update _ _).update _ _
    rw [hevents]
  refine ⟨?_, ?_, ?_⟩
  · rw [Db.eventStatuses, hevents', Db.eventStatuses]
  · rw [Db.cycleStatus, Db.cycleById, hcycles', Db.cycleStatus, Db.cycleById]
  · rw [Db.sessionStatus, hsessions', Db.sessionStatus]

theorem mem_eventStatuses {cycleId id : Uuid} {status : EventStatus} :
    (id, status) ∈ db.eventStatuses cycleId ↔
      ∃ e ∈ db.events, e.cycleId = cycleId ∧ e.id = id ∧ e.status = status := by
  simp only [Db.eventStatuses, List.mem_map, Table.mem_select, Prod.mk.injEq, and_assoc]

/-- An event that `complete_event` supersedes has another status. -/
theorem not_sameStatuses_supersedeLocked (hlock : db.lockClaim c = some j)
    (runtimeSessionId : Uuid) :
    ¬db.SameStatuses (db.supersedeLocked j) j.event.cycleId runtimeSessionId := by
  intro hsame
  obtain ⟨hjoins, -, hheld⟩ := lockClaim_eq_some.1 hlock
  have hbefore : (j.event.id, .processing) ∈ db.eventStatuses j.event.cycleId :=
    mem_eventStatuses.2 ⟨j.event, hjoins.event_mem, rfl, rfl, hheld.2.2⟩
  rw [hsame.events] at hbefore
  obtain ⟨e, he, -, hid, hstatus⟩ := mem_eventStatuses.1 hbefore
  cases Table.mem_update.1 he with
  | inl hset =>
    obtain ⟨q, -, -, rfl⟩ := hset
    cases hstatus
  | inr hkept => exact hkept.2 hid

namespace World

variable {config : SystemConfig} {w : World} {token : Uuid} {position : Position}

/-- The condition of `close_generation`. -/
structure StopApplies (w : World) (c : ClaimedEvent) (payload : SessionStoppedPayload) (j : Joined) :
    Prop where
  fence : j.session.fenceVersion = c.claimedFenceVersion
  open_ : w.db.OpenCycle c.cycleId
  tracked : w.db.TracksOpenCalls c.cycleId
  unambiguous : ¬(payload.reason = "stop_hosting_requested" ∧ w.db.AmbiguousStop c.cycleId)

section Examples

open Scenario

/-- The stop of an active cycle and the rejection before it are claimed. -/
def claimedStop : List Action :=
  [submit [sessionStarted "e1" 1 "L1" 1], claim, finish 3,
    submit [plain "e2" 1 2 0 (rejected "d"), plain "e3" 1 3 0 stopped], claim, claim]

end Examples

end World

end LlmGateway
