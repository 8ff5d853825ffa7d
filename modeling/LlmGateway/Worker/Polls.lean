import LlmGateway.Relational.Transition

/-!
# The polls of the workers

`EventWorker.run_once` (`event_worker.py`) and `DecisionWorker.run_once` (`decision_worker.py`), as
far as they claim items and process them: what happens from outside is which item a claim call
returns, and how the tasks of the items end, in any order. The event worker fills its free slots
while other items are processed; the decision worker claims first and then sends everything.

An exception in the maintenance before the first claim concerns no item and is left out.
-/

namespace LlmGateway

/-! ## One item -/

/-- How a task ends: it returns, raises an exception or raises `CancelledError`. For the request of
a decision, a transport or protocol error is a return: it is recorded as a failure. -/
inductive TaskOutcome where
  | returned
  | raised
  | interrupted
deriving DecidableEq, Repr

/-- What `_process_one` waits for. -/
inductive SlotTask where
  /-- The processor of an event, or the request of a decision. -/
  | processor
  /-- `_maintain_claim`, which returns when the claim is lost. -/
  | renewal
  /-- The transaction that records the result. -/
  | completion
deriving DecidableEq, Repr

/-- How an item ends. -/
inductive SlotEnding where
  | completed
  | completionFailed
  | processorFailed
  | claimLost
  | renewalFailed
  /-- `CancelledError` from one of the tasks of the item. -/
  | interrupted (task : SlotTask)
  /-- The worker cancels the item. -/
  | cancelled
deriving DecidableEq, Repr

namespace SlotEnding

/-- `_process_one` raises. -/
def escapes : SlotEnding → Bool
  | interrupted _ => true
  | completed | completionFailed | processorFailed | claimLost | renewalFailed | cancelled => false

/-- The processor has run to its end, or the claim is lost. -/
def isServed : SlotEnding → Bool
  | completed | completionFailed | processorFailed | claimLost => true
  | interrupted task => task ≠ .renewal
  | renewalFailed | cancelled => false

end SlotEnding

/-- Where an item is; `run_once` collects it once it has ended. -/
inductive Slot where
  /-- The item has no task yet. -/
  | claimed
  /-- The processor and the renewal are running. -/
  | processing
  | completing
  | ended (ending : SlotEnding) (collected : Bool)
deriving DecidableEq, Repr

namespace Slot

def isEnded : Slot → Bool
  | ended .. => true
  | claimed | processing | completing => false

/-- The item is in `active_tasks`. -/
def isActive : Slot → Bool
  | ended _ collected => !collected
  | claimed | processing | completing => true

/-- The task of the item is done, and collecting it raises. -/
def escapes : Slot → Bool
  | ended ending collected => ending.escapes && !collected
  | claimed | processing | completing => false

def collect : Slot → Slot
  | ended ending _ => ended ending true
  | slot => slot

/-- `_cancel_and_wait`. -/
def cancel : Slot → Slot
  | processing | completing => ended .cancelled true
  | slot => slot

/-- The task of an item is created. -/
def start : Slot → Slot
  | claimed => processing
  | slot => slot

/-- `_process_claimed_event` and `_process_claimed_decision`, when one of its tasks ends. -/
def advance (slot : Slot) (task : SlotTask) (outcome : TaskOutcome) : Slot :=
  match slot, task, outcome with
  | processing, .processor, .returned => completing
  | processing, .processor, .raised => ended .processorFailed false
  | processing, .renewal, .returned => ended .claimLost false
  | processing, .renewal, .raised => ended .renewalFailed false
  | completing, .completion, .returned => ended .completed false
  | completing, .completion, .raised => ended .completionFailed false
  | processing, .processor, .interrupted | processing, .renewal, .interrupted
  | completing, .completion, .interrupted => ended (.interrupted task) false
  | slot, _, _ => slot

end Slot

/-! ## One poll -/

/-- Where `run_once` is suspended, or how it has ended. -/
inductive PollPhase where
  /-- In the claim call. -/
  | claiming
  /-- It waits for the tasks of its items. -/
  | waiting
  | returned
  | raised
deriving DecidableEq, Repr

structure WorkerPoll where
  phase : PollPhase
  /-- `_drain_requested`. -/
  draining : Bool
  /-- `stop` has cancelled the worker. -/
  stopped : Bool
  slots : List Slot
deriving DecidableEq, Repr

/-- What happens to a poll. -/
inductive PollHappening where
  /-- The claim call returns an item. -/
  | claimed
  /-- The claim call returns nothing. -/
  | nothing
  | claimRaises
  /-- A task of an item ends. -/
  | task (slot : ℕ) (task : SlotTask) (outcome : TaskOutcome)
  /-- `asyncio.wait` returns. -/
  | wake
  | drain
  | stop
deriving Repr

namespace WorkerPoll

variable (poll : WorkerPoll)

def isOver : Bool := poll.phase = .returned ∨ poll.phase = .raised

/-- `run_once` raises. -/
def fail : WorkerPoll := { poll with phase := .raised, slots := poll.slots.map Slot.cancel }

def advance (slot : ℕ) (task : SlotTask) (outcome : TaskOutcome) : WorkerPoll :=
  { poll with slots := poll.slots.modify slot (·.advance task outcome) }

/-- A task that is to be collected raises. -/
def Escapes : Prop := ∃ slot ∈ poll.slots, slot.escapes = true

instance : Decidable poll.Escapes := inferInstanceAs (Decidable (∃ slot ∈ poll.slots, _))

end WorkerPoll

namespace EventWorker

variable (maxParallelism : ℕ) (poll : WorkerPoll)

/-- After the inner loop: `if not active_tasks: break`, or `asyncio.wait`. -/
def waitOrReturn : WorkerPoll :=
  { poll with phase := if poll.slots.any Slot.isActive then .waiting else .returned }

/-- The condition of the inner loop. -/
def claimOrWait : WorkerPoll :=
  if poll.slots.countP Slot.isActive < maxParallelism ∧ poll.draining = false then
    { poll with phase := .claiming }
  else waitOrReturn poll

/-- `await asyncio.gather(*completed)`; if it raises, the `finally` cancels the other items. -/
def gather : WorkerPoll :=
  if poll.Escapes then poll.fail
  else claimOrWait maxParallelism { poll with slots := poll.slots.map Slot.collect }

/-- A poll begins. -/
def start (draining : Bool) : WorkerPoll :=
  claimOrWait maxParallelism ⟨.claiming, draining, false, []⟩

/-- `run_once`; what happens where it is not suspended does nothing. -/
def exec : PollHappening → WorkerPoll
  | .claimed =>
    if poll.phase = .claiming then
      gather maxParallelism { poll with slots := poll.slots ++ [.processing] }
    else poll
  | .nothing => if poll.phase = .claiming then waitOrReturn poll else poll
  | .claimRaises => if poll.phase = .claiming then poll.fail else poll
  | .task slot task outcome => poll.advance slot task outcome
  | .wake =>
    if poll.phase = .waiting ∧ ∃ slot ∈ poll.slots, slot.isActive = true ∧ slot.isEnded = true then
      gather maxParallelism poll
    else poll
  | .drain => { poll with draining := true }
  | .stop => if poll.isOver then poll else { poll with stopped := true }.fail

end EventWorker

namespace DecisionWorker

variable (maxParallelism : ℕ) (poll : WorkerPoll)

/-- `if claimed: await asyncio.gather(...)`. -/
def send : WorkerPoll :=
  { poll with
    phase := if poll.slots = [] then .returned else .waiting
    slots := poll.slots.map Slot.start }

/-- The condition of the loop. -/
def claimOrSend : WorkerPoll :=
  if poll.slots.length < maxParallelism ∧ poll.draining = false then
    { poll with phase := .claiming }
  else send poll

/-- What `gather` does when a task ends: it raises at once, and leaves the other tasks running, or
returns when all have ended. -/
def gather : WorkerPoll :=
  if poll.phase = .waiting then
    if poll.Escapes then { poll with phase := .raised }
    else if poll.slots.all Slot.isEnded then { poll with phase := .returned }
    else poll
  else poll

/-- A poll begins. -/
def start (draining : Bool) : WorkerPoll :=
  claimOrSend maxParallelism ⟨.claiming, draining, false, []⟩

/-- `run_once`; what happens where it is not suspended does nothing. -/
def exec : PollHappening → WorkerPoll
  | .claimed =>
    if poll.phase = .claiming then
      claimOrSend maxParallelism { poll with slots := poll.slots ++ [.claimed] }
    else poll
  | .nothing => if poll.phase = .claiming then send poll else poll
  | .claimRaises => if poll.phase = .claiming then { poll with phase := .raised } else poll
  | .task slot task outcome => gather (poll.advance slot task outcome)
  | .wake => poll
  | .drain => { poll with draining := true }
  | .stop => if poll.isOver then poll else { poll with stopped := true }.fail

end DecisionWorker

end LlmGateway
