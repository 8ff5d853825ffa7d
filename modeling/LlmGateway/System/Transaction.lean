import LlmGateway.Relational.Search
import LlmGateway.System.World

/-!
# Aborted transactions

The exceptions of a failed transaction refer to each other, possibly in cycles. A state of
PostgreSQL is searched in all of them; a mutation of a repository is tried again when the state
says that the database rolled it back for another transaction.
-/

namespace LlmGateway

open Relational

variable {ι : Type*} [Fintype ι] [DecidableEq ι]

/-- An exception. An attribute that has another type than the expected one counts as absent. -/
structure ErrorObject (ι : Type*) where
  sqlstate : Option String
  pgcode : Option String
  orig : Option ι
  cause : Option ι
  context : Option ι

namespace ErrorObject

/-- The first of `sqlstate` and `pgcode` that is not empty. -/
def postgresState (error : ErrorObject ι) : Option String :=
  (error.sqlstate.filter (· ≠ "")).or (error.pgcode.filter (· ≠ ""))

/-- The exceptions that are pushed, in this order. -/
def nested (error : ErrorObject ι) : List ι :=
  error.orig.toList ++ error.cause.toList ++ error.context.toList

end ErrorObject

/-- `postgres_sqlstate`. -/
def postgresSqlstate (errors : ι → ErrorObject ι) (error : ι) : Option String :=
  search (fun e ↦ (errors e).nested) (fun e ↦ (errors e).postgresState) [error] ∅

/-- `_sqlstate` of the inbox follows `orig or __cause__`, and takes an empty state for one. -/
def inboxSqlstate (errors : ι → ErrorObject ι) (error : ι) : Option String :=
  search (fun e ↦ ((errors e).orig.or (errors e).cause).toList)
    (fun e ↦ (errors e).sqlstate.or (errors e).pgcode) [error] ∅

/-- `is_retryable_transaction_error`. -/
def isRetryableTransactionError (errors : ι → ErrorObject ι) (error : ι) : Bool :=
  postgresSqlstate errors error = some "40P01" ∨ postgresSqlstate errors error = some "40001"

/-! ## Retries -/

/-- How a transaction ends: it is committed, it is rolled back, or it is committed and its caller
does not learn of it. -/
inductive TransactionEnding (ι : Type*) where
  | committed
  | aborted (error : ι)
  | unacknowledged (error : ι)

namespace TransactionEnding

def error? : TransactionEnding ι → Option ι
  | committed => none
  | aborted error | unacknowledged error => some error

/-- The database has executed the transaction. -/
def executes : TransactionEnding ι → Bool
  | committed | unacknowledged _ => true
  | aborted _ => false

end TransactionEnding

/-- One attempt, with what the others do since the last one. -/
structure MutationAttempt (ι : Type*) where
  meanwhile : List Action
  ending : TransactionEnding ι

/-- The result of a call: it returns, it raises, or the loop is left. -/
inductive MutationReturn (ι : Type*) where
  | returned
  | raised (error : ι)
  | loopLeft

/-- The loop of `retry_database_mutation` over the remaining numbers of attempts. -/
def retryLoop (config : SystemConfig) (errors : ι → ErrorObject ι) (a : Action)
    (attempts : ℕ → MutationAttempt ι) : List ℕ → World → World × MutationReturn ι
  | [], w => (w, .loopLeft)
  | attempt :: later, w =>
    let before := run (World.exec config) w (attempts attempt).meanwhile
    let after :=
      if (attempts attempt).ending.executes then before.exec config a else before
    match (attempts attempt).ending.error? with
    | none => (after, .returned)
    | some error =>
      if 3 ≤ attempt ∨ isRetryableTransactionError errors error = false then
        (after, .raised error)
      else retryLoop config errors a attempts later after

/-- `retry_database_mutation`, of a mutation that is one transaction. -/
def retryDatabaseMutation (config : SystemConfig) (errors : ι → ErrorObject ι)
    (a : Action) (attempts : ℕ → MutationAttempt ι) (w : World) : World × MutationReturn ι :=
  retryLoop config errors a attempts (List.range' 1 3) w

end LlmGateway
