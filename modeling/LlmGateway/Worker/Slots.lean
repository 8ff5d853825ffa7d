import LlmGateway.Python.Semaphore
import LlmGateway.Relational.Transition
import LlmGateway.Store.Database
import Mathlib.Data.Rat.Defs

/-!
# Bounded slots

`AgentCapacityLimiter` and `EventAdmissionLimiter` have the same code: a caller of `slot()` waits at
a semaphore, for a limited time, and holds a slot while its block runs. The callers are tasks of one
event loop, numbered in the order of their calls. A caller that waits can be timed out or cancelled
at any time, even after a permit was given to it and before it runs again.
-/

namespace LlmGateway

/-- A limiter with the callers that use it. The numbers of those whose waiting has ended are kept in
three logs that no step reads. -/
structure Limiter where
  semaphore : Semaphore ℕ
  limit : ℕ
  active : ℤ
  waiting : ℤ
  rejectedTotal : ℤ
  /-- The callers whose block runs. -/
  holders : List ℕ
  /-- How many callers there have been. -/
  arrived : ℕ
  /-- The callers whose timeout has fired while they waited. -/
  expired : List ℕ
  /-- The callers who were cancelled while they waited. -/
  interrupted : List ℕ
  entered : List ℕ
  rejected : List ℕ
  aborted : List ℕ

/-- `AgentCapacitySnapshot`. -/
structure LimiterSnapshot where
  active : ℤ
  limit : ℕ
  waiting : ℤ
  rejectedTotal : ℤ
deriving DecidableEq

inductive LimiterAction where
  /-- A task calls `slot()`. -/
  | arrive
  /-- The timeout of `wait_for` fires. -/
  | expire (number : ℕ)
  | cancel (number : ℕ)
  /-- A caller whose future is done or cancelled runs again. -/
  | resume (number : ℕ)
  /-- The block of a caller ends, normally or not. -/
  | leave (number : ℕ)
deriving DecidableEq

namespace Limiter

/-- `__init__`. -/
def new (limit : ℤ) (acquireTimeoutSeconds : ℚ) : Except Failure Limiter :=
  if limit ≤ 0 then .error .valueError
  else if acquireTimeoutSeconds ≤ 0 then .error .valueError
  else .ok
    { semaphore := ⟨limit.toNat, []⟩
      limit := limit.toNat
      active := 0
      waiting := 0
      rejectedTotal := 0
      holders := []
      arrived := 0
      expired := []
      interrupted := []
      entered := []
      rejected := []
      aborted := [] }

variable (l : Limiter)

def snapshot : LimiterSnapshot := ⟨l.active, l.limit, l.waiting, l.rejectedTotal⟩

/-- The block of the caller begins: it waits no more. -/
def enter (number : ℕ) (semaphore : Semaphore ℕ) : Limiter :=
  { l with
    semaphore := semaphore
    waiting := l.waiting - 1
    active := l.active + 1
    holders := l.holders ++ [number]
    entered := l.entered ++ [number] }

/-- `slot()` up to its first suspension. -/
def arrive : Limiter :=
  let called := { l with waiting := l.waiting + 1, arrived := l.arrived + 1 }
  match l.semaphore.acquire l.arrived with
  | (true, semaphore) => called.enter l.arrived semaphore
  | (false, semaphore) => { called with semaphore := semaphore }

def waiter? (number : ℕ) : Option (Waiter ℕ) :=
  l.semaphore.waiters.find? fun w ↦ w.id = number

/-- A task that was cancelled gets a `CancelledError` when it runs again. -/
def Cancelled (w : Waiter ℕ) : Prop :=
  w.future = .cancelled ∨ w.id ∈ l.expired ∨ w.id ∈ l.interrupted

instance : DecidablePred l.Cancelled := fun _ ↦ inferInstanceAs (Decidable (_ ∨ _ ∨ _))

/-- `slot()` after `acquire()`: the error of a cancelled task is a timeout if nobody else has
cancelled the task. -/
def resume (w : Waiter ℕ) : Limiter :=
  if l.Cancelled w then
    let gone :=
      { l with semaphore := l.semaphore.resume w true, waiting := l.waiting - 1 }
    if w.id ∈ l.expired ∧ w.id ∉ l.interrupted then
      { gone with rejectedTotal := l.rejectedTotal + 1, rejected := l.rejected ++ [w.id] }
    else { gone with aborted := l.aborted ++ [w.id] }
  else if w.future = .done then l.enter w.id (l.semaphore.resume w false)
  else l

def exec : LimiterAction → Limiter
  | .arrive => l.arrive
  | .expire number =>
    if (l.waiter? number).isSome then
      { l with semaphore := l.semaphore.cancelFuture number, expired := number :: l.expired }
    else l
  | .cancel number =>
    if (l.waiter? number).isSome then
      { l with
        semaphore := l.semaphore.cancelFuture number
        interrupted := number :: l.interrupted }
    else l
  | .resume number => (l.waiter? number).elim l l.resume
  | .leave number =>
    if number ∈ l.holders then
      { l with
        active := l.active - 1
        semaphore := l.semaphore.release
        holders := l.holders.erase number }
    else l

end Limiter

end LlmGateway
