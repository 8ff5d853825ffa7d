import LlmGateway.Store.Rows
import Mathlib.Data.List.Sort
import Mathlib.Order.Lex
import Mathlib.Data.List.Lex

/-!
# The database

The state that the repositories work on, the joins that their queries make, and the two
helpers every query uses: a generator of new identifiers and `ORDER BY`.

Each repository method is one serialized transaction, so row locks never wait and
`SKIP LOCKED` skips nothing. `clock_timestamp()` is one instant per transaction.
-/

namespace LlmGateway

open Relational

/-- The gateway tables. `issued` counts the identifiers generated so far, and `entropy`
supplies their random parts. -/
structure Db where
  sessions : Table SessionRow
  cycles : Table CycleRow
  events : Table EventRow
  decisions : Table DecisionRow
  calls : Table CallRow
  tracking : Table TrackingRow
  issued : ℕ
  entropy : ℕ → ℕ

/-- A failed statement or a raised exception; the transaction is rolled back. -/
inductive Failure where
  | valueError
  | dataError
  | runtimeError
deriving DecidableEq, Repr

/-- `_BIGINT_MAX`. -/
def bigintMax : ℕ := 2 ^ 63 - 1

/-! ## Sorting -/

/-- `ORDER BY`, ascending in a composite key. -/
def orderBy {α : Type*} (key : α → List ℤ) (rows : List α) : List α :=
  rows.insertionSort fun a b ↦ key a ≤ key b

theorem mem_orderBy {α : Type*} {key : α → List ℤ} {rows : List α} {a : α} :
    a ∈ orderBy key rows ↔ a ∈ rows :=
  (List.perm_insertionSort _ rows).mem_iff

theorem le_of_cons_le {a b : ℤ} {l m : List ℤ} (h : a :: l ≤ b :: m) : a ≤ b := by
  by_contra hlt
  exact absurd h (not_le.2 (List.cons_lt_cons_iff.2 (Or.inl (not_le.1 hlt))))

theorem key_head_le {α : Type*} {key : α → List ℤ} {rows : List α} {a b : α}
    (ha : (orderBy key rows).head? = some a) (hb : b ∈ rows) : key a ≤ key b := by
  have : Std.Total fun a b : α ↦ key a ≤ key b := ⟨fun a b ↦ le_total (key a) (key b)⟩
  have : IsTrans α fun a b ↦ key a ≤ key b := ⟨fun _ _ _ ↦ le_trans⟩
  have hsorted : (orderBy key rows).Pairwise fun a b ↦ key a ≤ key b :=
    List.pairwise_insertionSort _ rows
  have hb' : b ∈ orderBy key rows := mem_orderBy.2 hb
  rcases horder : orderBy key rows with _ | ⟨c, cs⟩
  · simp [horder] at ha
  · obtain rfl : c = a := by simpa [horder] using ha
    rw [horder] at hsorted hb'
    rcases List.mem_cons.1 hb' with rfl | hmem
    · exact le_refl _
    · exact (List.pairwise_cons.1 hsorted).1 b hmem

/-! ## Joins -/

/-- A row of `events JOIN control_cycles JOIN sessions`. -/
structure Joined where
  event : EventRow
  cycle : CycleRow
  session : SessionRow

namespace Db

variable (db : Db)

def empty (entropy : ℕ → ℕ) : Db where
  sessions := .empty
  cycles := .empty
  events := .empty
  decisions := .empty
  calls := .empty
  tracking := .empty
  issued := 0
  entropy := entropy

/-- The identifier that the next `uuid4()` gives. -/
def nextUuid : Uuid := ⟨db.entropy db.issued, db.issued⟩

/-- `uuid4()` or `gen_random_uuid()` was called. -/
def bumpUuid : Db := { db with issued := db.issued + 1 }

def sessionOf (cycle : CycleRow) : Option SessionRow :=
  db.sessions.find? fun s ↦ s.id = cycle.runtimeSessionId

def cycleById (id : Uuid) : Option CycleRow := db.cycles.find? fun c ↦ c.id = id

def eventById (id : Uuid) : Option EventRow := db.events.find? fun e ↦ e.id = id

def joinEvent (event : EventRow) : Option Joined := do
  let cycle ← db.cycleById event.cycleId
  let session ← db.sessionOf cycle
  some ⟨event, cycle, session⟩

/-- Every row of the three-way join. -/
def joinedEvents : List Joined := db.events.rows.filterMap db.joinEvent

/-- The three rows are stored and refer to each other. -/
structure Joins (j : Joined) : Prop where
  event_mem : j.event ∈ db.events
  cycle_mem : j.cycle ∈ db.cycles
  session_mem : j.session ∈ db.sessions
  cycle_id : j.cycle.id = j.event.cycleId
  session_id : j.session.id = j.cycle.runtimeSessionId

end Db

variable {db : Db}

theorem eventRow_eq_of_id {e e' : EventRow} (he : e ∈ db.events) (he' : e' ∈ db.events)
    (h : e.id = e'.id) : e = e' :=
  Table.eq_of_clashes he he' (EventRow.clashes_of_id h)

theorem cycleRow_eq_of_id {c c' : CycleRow} (hc : c ∈ db.cycles) (hc' : c' ∈ db.cycles)
    (h : c.id = c'.id) : c = c' :=
  Table.eq_of_clashes hc hc' (CycleRow.clashes_of_id h)

theorem sessionRow_eq_of_id {s s' : SessionRow} (hs : s ∈ db.sessions)
    (hs' : s' ∈ db.sessions) (h : s.id = s'.id) : s = s' :=
  Table.eq_of_clashes hs hs' (SessionRow.clashes_of_id h)

theorem eventById_eq_some {id : Uuid} {e : EventRow} :
    db.eventById id = some e ↔ e ∈ db.events ∧ e.id = id :=
  Table.find?_eq_some_iff fun _ _ hq hr ↦ EventRow.clashes_of_id (hq.trans hr.symm)

theorem cycleById_eq_some {id : Uuid} {c : CycleRow} :
    db.cycleById id = some c ↔ c ∈ db.cycles ∧ c.id = id :=
  Table.find?_eq_some_iff fun _ _ hq hr ↦ CycleRow.clashes_of_id (hq.trans hr.symm)

theorem sessionOf_eq_some {c : CycleRow} {s : SessionRow} :
    db.sessionOf c = some s ↔ s ∈ db.sessions ∧ s.id = c.runtimeSessionId :=
  Table.find?_eq_some_iff fun _ _ hq hr ↦ SessionRow.clashes_of_id (hq.trans hr.symm)

theorem joinEvent_eq_some {e : EventRow} {j : Joined} (he : e ∈ db.events) :
    db.joinEvent e = some j ↔ db.Joins j ∧ j.event = e := by
  simp only [Db.joinEvent, Option.bind_eq_bind, Option.bind_eq_some_iff, cycleById_eq_some,
    sessionOf_eq_some, Option.some.injEq]
  constructor
  · rintro ⟨c, ⟨hc, hcid⟩, s, ⟨hs, hsid⟩, rfl⟩
    exact ⟨⟨he, hc, hs, hcid, hsid⟩, rfl⟩
  · rintro ⟨h, rfl⟩
    exact ⟨j.cycle, ⟨h.cycle_mem, h.cycle_id⟩, j.session, ⟨h.session_mem, h.session_id⟩, rfl⟩

theorem mem_joinedEvents {j : Joined} : j ∈ db.joinedEvents ↔ db.Joins j := by
  simp only [Db.joinedEvents, List.mem_filterMap]
  constructor
  · rintro ⟨e, he, hj⟩
    exact ((joinEvent_eq_some he).1 hj).1
  · exact fun h ↦ ⟨j.event, h.event_mem, (joinEvent_eq_some h.event_mem).2 ⟨h, rfl⟩⟩

/-- An event row is joined with one cycle and one session. -/
theorem Db.Joins.unique {j j' : Joined} (h : db.Joins j) (h' : db.Joins j')
    (hevent : j.event = j'.event) : j = j' := by
  have hcycle : j.cycle = j'.cycle := cycleRow_eq_of_id h.cycle_mem h'.cycle_mem
    (by rw [h.cycle_id, h'.cycle_id, hevent])
  have hsession : j.session = j'.session := sessionRow_eq_of_id h.session_mem h'.session_mem
    (by rw [h.session_id, h'.session_id, hcycle])
  rcases j with ⟨e, c, s⟩
  rcases j' with ⟨e', c', s'⟩
  simp only at hevent hcycle hsession
  rw [hevent, hcycle, hsession]

/-! ## Statements on one table -/

namespace Db

variable (db : Db)

def updateSessions (w : SessionRow → Prop) [DecidablePred w] (a : Assignment SessionRow) : Db :=
  { db with sessions := db.sessions.update w a }

def updateCycles (w : CycleRow → Prop) [DecidablePred w] (a : Assignment CycleRow) : Db :=
  { db with cycles := db.cycles.update w a }

def updateEvents (w : EventRow → Prop) [DecidablePred w] (a : Assignment EventRow) : Db :=
  { db with events := db.events.update w a }

def updateDecisions (w : DecisionRow → Prop) [DecidablePred w]
    (a : Assignment DecisionRow) : Db :=
  { db with decisions := db.decisions.update w a }

def updateCalls (w : CallRow → Prop) [DecidablePred w] (a : Assignment CallRow) : Db :=
  { db with calls := db.calls.update w a }

def updateTracking (w : TrackingRow → Prop) [DecidablePred w] (a : Assignment TrackingRow) : Db :=
  { db with tracking := db.tracking.update w a }

end Db

end LlmGateway
