import LlmGateway.Relational.Transition
import Mathlib.Logic.Function.Basic

/-!
# The triggers of the offline analysis

`schedule_offline_analysis` and `cancel_offline_analysis` (`triggers.py`), any number of calls for
one user. Each command to Redis and each call of Prefect is one step, in any order; the debounce key
does not expire. A call that is refused reads the key once more, for its log only.
-/

namespace LlmGateway

/-- A value of the debounce key: what a call has put there before or after it has submitted. -/
inductive DebounceValue where
  | placeholder (call : ℕ)
  | run (call : ℕ)
deriving DecidableEq, Repr

/-- Where a call of `schedule_offline_analysis` is. -/
inductive SchedulePhase where
  | ready
  /-- It has set its placeholder. -/
  | submitting
  /-- The run is submitted. -/
  | storing
  /-- The submission has failed. -/
  | clearing
  /-- It has returned `None`. -/
  | refused
  /-- It has returned the id of its run. -/
  | scheduled
  /-- It has raised. -/
  | failed
deriving DecidableEq, Repr

/-- The key holds the placeholder of such a call, as far as the call knows. -/
def SchedulePhase.isInFlight : SchedulePhase → Bool
  | submitting | storing | clearing => true
  | ready | refused | scheduled | failed => false

/-- The call has returned or raised. -/
def SchedulePhase.isOver : SchedulePhase → Bool
  | refused | scheduled | failed => true
  | ready | submitting | storing | clearing => false

/-- Where a call of `cancel_offline_analysis` is. -/
inductive CancelPhase where
  | ready
  /-- It has read this value. -/
  | deleting (value : DebounceValue)
  /-- It has deleted the key. -/
  | cancelling (run : ℕ)
  | returned
deriving DecidableEq, Repr

/-- The debounce key, the runs and the calls; runs are named after the calls that submit them. -/
structure OfflineTriggers where
  debounceKey : Option DebounceValue
  /-- The runs that are submitted and not cancelled. -/
  liveRuns : List ℕ
  schedules : ℕ → SchedulePhase
  cancels : ℕ → CancelPhase
  /-- The calls that have set their placeholder. -/
  placed : List ℕ
  /-- Those that had set it when a cancelling call started. -/
  placedBefore : ℕ → List ℕ

namespace OfflineTriggers

def initial : OfflineTriggers where
  debounceKey := none
  liveRuns := []
  schedules := fun _ ↦ .ready
  cancels := fun _ ↦ .ready
  placed := []
  placedBefore := fun _ ↦ []

/-- A command or a call, by the call that makes it. -/
inductive Action where
  /-- `SET key placeholder NX`. -/
  | setPlaceholder (call : ℕ)
  /-- `run_deployment`. -/
  | runDeployment (call : ℕ) (accepted : Bool)
  /-- `SET key flow_run_id`. -/
  | setRun (call : ℕ)
  /-- `DELETE key` after a failure. -/
  | deletePlaceholder (call : ℕ)
  /-- `GET key`. -/
  | getKey (call : ℕ)
  /-- `DELETE key` of a call that cancels. -/
  | deleteKey (call : ℕ)
  /-- `cancel_flow_run`. -/
  | cancelRun (call : ℕ)
deriving Repr

variable (s : OfflineTriggers)

def setPhase (call : ℕ) (phase : SchedulePhase) : OfflineTriggers :=
  { s with schedules := Function.update s.schedules call phase }

def setCancel (call : ℕ) (phase : CancelPhase) : OfflineTriggers :=
  { s with cancels := Function.update s.cancels call phase }

/-- The first command of a cancelling call. -/
def startCancel (call : ℕ) (phase : CancelPhase) : OfflineTriggers :=
  { s.setCancel call phase with placedBefore := Function.update s.placedBefore call s.placed }

/-- A step; one of a call that is somewhere else does nothing. -/
def exec : Action → OfflineTriggers
  | .setPlaceholder call =>
    if s.schedules call = .ready then
      if s.debounceKey = none then
        { s.setPhase call .submitting with
          debounceKey := some (.placeholder call)
          placed := s.placed ++ [call] }
      else s.setPhase call .refused
    else s
  | .runDeployment call accepted =>
    if s.schedules call = .submitting then
      if accepted then { s.setPhase call .storing with liveRuns := s.liveRuns ++ [call] }
      else s.setPhase call .clearing
    else s
  | .setRun call =>
    if s.schedules call = .storing then
      { s.setPhase call .scheduled with debounceKey := some (.run call) }
    else s
  | .deletePlaceholder call =>
    if s.schedules call = .clearing then { s.setPhase call .failed with debounceKey := none }
    else s
  | .getKey call =>
    if s.cancels call = .ready then
      match s.debounceKey with
      | none => s.startCancel call .returned
      | some value => s.startCancel call (.deleting value)
    else s
  | .deleteKey call =>
    match s.cancels call with
    | .deleting (.placeholder _) => { s.setCancel call .returned with debounceKey := none }
    | .deleting (.run run) => { s.setCancel call (.cancelling run) with debounceKey := none }
    | _ => s
  | .cancelRun call =>
    match s.cancels call with
    | .cancelling run => { s.setCancel call .returned with liveRuns := s.liveRuns.erase run }
    | _ => s

end OfflineTriggers

end LlmGateway
