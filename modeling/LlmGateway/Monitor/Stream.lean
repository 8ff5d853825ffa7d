import LlmGateway.Relational.Paging
import LlmGateway.Store.Database
import Mathlib.Data.Prod.Lex

/-!
# The monitor stream

`iter_monitor_events` follows the events, the decisions, the skill calls and some audit records of
the gateway. It reads them in pages, ordered by the time of their last change and their id, and
goes on behind the last record that it has sent.

Beside the stream, transactions write rows. A row that is inserted is stamped with the time at
which its transaction has started, and an update stamps it with the time of the update; a page
shows it when the transaction commits.
-/

namespace LlmGateway

open Relational

/-- The part of `monitor_records` that a record comes from. -/
inductive RecordSource where
  | event
  | decision
  | skill
  | audit
deriving DecidableEq, Repr

/-- A row of `monitor_records`; the columns that no condition reads are the `details`. -/
structure MonitorRecord (ι δ : Type*) where
  recordId : ι
  source : RecordSource
  kind : String
  direction : String
  status : Option String
  occurredAt : ℕ
  gatewayId : String
  sessionId : Option String
  decisionId : Option String
  details : δ
deriving DecidableEq

/-- `MonitorCursor`: a time and the id of a record, in this order. -/
abbrev MonitorCursor (ι : Type*) := ℕ ×ₗ ι

inductive MonitorDirection where
  | older
  | newer
deriving DecidableEq, Repr

structure MonitorFilter where
  kind : Option String
  status : Option String
  sessionId : Option String

/-- `MonitorPage`. -/
structure MonitorPage (ι δ : Type*) where
  records : List (MonitorRecord ι δ)
  nextCursor : Option (MonitorCursor ι)
  hasMore : Bool
  recordCursors : List (MonitorCursor ι)

variable {ι δ : Type*} [LinearOrder ι]

namespace MonitorRecord

def cursor (r : MonitorRecord ι δ) : MonitorCursor ι := toLex (r.occurredAt, r.recordId)

/-- An audit record is shown if it is a chat that was sent, or an error that belongs to no stored
decision. -/
def Shown (rows : List (MonitorRecord ι δ)) (r : MonitorRecord ι δ) : Prop :=
  r.source = .audit → (r.kind = "chat" ∧ r.direction = "outbound") ∨
    (r.kind = "error" ∧ ∀ decisionId ∈ r.decisionId, ∀ d ∈ rows,
      ¬(d.source = .decision ∧ d.gatewayId = r.gatewayId ∧ d.decisionId = some decisionId))

instance (rows : List (MonitorRecord ι δ)) : DecidablePred (Shown rows) := fun _ ↦
  inferInstanceAs (Decidable (_ → _ ∨ _ ∧ ∀ _ ∈ _, ∀ _ ∈ _, _))

def Meets (filter : MonitorFilter) (r : MonitorRecord ι δ) : Prop :=
  (∀ kind ∈ filter.kind, r.kind = kind) ∧ (∀ status ∈ filter.status, r.status = some status) ∧
    ∀ sessionId ∈ filter.sessionId, r.sessionId = some sessionId

instance (filter : MonitorFilter) : DecidablePred fun r : MonitorRecord ι δ ↦ r.Meets filter :=
  fun _ ↦ inferInstanceAs (Decidable ((∀ _ ∈ _, _) ∧ (∀ _ ∈ _, _) ∧ ∀ _ ∈ _, _))

end MonitorRecord

/-- `_BASE_RECORDS_SQL` without its limit. -/
def baseRecords (cursor : Option (MonitorCursor ι)) (filter : MonitorFilter)
    (direction : MonitorDirection) (rows : List (MonitorRecord ι δ)) : List (MonitorRecord ι δ) :=
  let selected := rows.filter fun r ↦ r.Shown rows ∧ r.Meets filter
  match direction with
  | .newer => ahead MonitorRecord.cursor cursor selected
  | .older => (selected.filter fun r ↦ ∀ c ∈ cursor, r.cursor < c).insertionSort
      fun a b ↦ b.cursor ≤ a.cursor

/-- `MonitorRepository.list_records`, with the cursor decoded. -/
def listRecords (limit : ℕ) (cursor : Option (MonitorCursor ι)) (filter : MonitorFilter)
    (direction : MonitorDirection) (rows : List (MonitorRecord ι δ)) :
    Except Failure (MonitorPage ι δ) :=
  if ¬(1 ≤ limit ∧ limit ≤ 200) then .error .valueError
  else
    let fetched := (baseRecords cursor filter direction rows).take (limit + 1)
    let selected := fetched.take limit
    .ok
      { records := selected
        nextCursor := nextCursor MonitorRecord.cursor cursor selected
        hasMore := limit < fetched.length
        recordCursors := selected.map MonitorRecord.cursor }

/-! ## Transactions beside the stream -/

/-- A transaction that has not ended, and the rows as it has written them. -/
structure MonitorTransaction (ι δ : Type*) where
  number : ℕ
  startedAt : ℕ
  writes : List (MonitorRecord ι δ)

/-- The stored rows, the transactions that have not ended, and the stream: its cursor and what it
has sent. -/
structure MonitorWorld (ι δ : Type*) where
  now : ℕ
  stored : List (MonitorRecord ι δ)
  transactions : List (MonitorTransaction ι δ)
  cursor : Option (MonitorCursor ι)
  delivered : List (MonitorRecord ι δ)

inductive MonitorAction (ι δ : Type*) where
  | tick (elapsed : ℕ)
  | begin (number : ℕ)
  | write (number : ℕ) (record : MonitorRecord ι δ)
  | commit (number : ℕ)
  | rollback (number : ℕ)
  | poll

/-- Write a row in the place of its earlier version. -/
def putRecord (rows : List (MonitorRecord ι δ)) (r : MonitorRecord ι δ) :
    List (MonitorRecord ι δ) :=
  rows.filter (fun q ↦ q.recordId ≠ r.recordId) ++ [r]

namespace MonitorWorld

variable (s : MonitorWorld ι δ)

/-- Nothing is stored, and the stream starts without a cursor. -/
def start : MonitorWorld ι δ := ⟨0, [], [], none, []⟩

/-- The time that the transaction writes into the row. An audit record comes with its time. -/
def stamp (t : MonitorTransaction ι δ) (r : MonitorRecord ι δ) : ℕ :=
  if r.source = .audit then r.occurredAt
  else if ∃ q ∈ s.stored ++ t.writes, q.recordId = r.recordId then s.now
  else t.startedAt

/-- A row is written unless another transaction has written it, which has to end first. -/
def write (number : ℕ) (r : MonitorRecord ι δ) : MonitorWorld ι δ :=
  if ∃ t ∈ s.transactions, t.number ≠ number ∧ ∃ q ∈ t.writes, q.recordId = r.recordId then s
  else { s with
    transactions := s.transactions.map fun t ↦
      if t.number = number then
        { t with writes := putRecord t.writes { r with occurredAt := s.stamp t r } }
      else t }

def commit (number : ℕ) : MonitorWorld ι δ :=
  { s with
    stored := ((s.transactions.filter fun t ↦ t.number = number).flatMap
      MonitorTransaction.writes).foldl putRecord s.stored
    transactions := s.transactions.filter fun t ↦ t.number ≠ number }

/-- One round of the loop of `iter_monitor_events`, which has no filters. -/
def poll : MonitorWorld ι δ :=
  match listRecords 200 s.cursor ⟨none, none, none⟩ .newer s.stored with
  | .error _ => s
  | .ok page => { s with cursor := page.nextCursor, delivered := s.delivered ++ page.records }

def exec : MonitorAction ι δ → MonitorWorld ι δ
  | .tick elapsed => { s with now := s.now + elapsed }
  | .begin number =>
    if ∃ t ∈ s.transactions, t.number = number then s
    else { s with transactions := s.transactions ++ [⟨number, s.now, []⟩] }
  | .write number r => s.write number r
  | .commit number => s.commit number
  | .rollback number =>
    { s with transactions := s.transactions.filter fun t ↦ t.number ≠ number }
  | .poll => s.poll

end MonitorWorld

end LlmGateway
