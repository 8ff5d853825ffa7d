import LlmGateway.System.World

/-!
# The analysis and the tracked actions

`tracking_update_node` ends an analysis of a user. In one transaction it selects the actions of
the user that are still tracked, chooses a new status for some of them, and updates these one
after the other, wherever they are by then. Terminal events of the gateway give a status to the
same rows.

The transactions are read committed: a statement sees what is committed when it starts, and it
waits for a row that another transaction has updated and not committed.
-/

namespace LlmGateway

open Relational

/-! ## The status that the analysis chooses -/

/-- What the node is called with, and the time and the deadlines that it reads. -/
structure AnalysisState where
  userId : String
  tenantId : Uuid
  snapshot : List (Text × Json)
  abandonedTrackingIds : List Uuid
  now : ℕ
  deadline : Uuid → Option ℕ

/-- `isinstance(value, (int, float))`. -/
def Json.isNumber : Json → Bool
  | .bool _ | .int _ | .float .. => true
  | _ => false

def numberField (metric : Text) (fields : List (Text × Json)) : Option Json :=
  (fields.lookup metric).filter Json.isNumber

/-- `_extract_metric`. -/
def extractMetric (snapshot : List (Text × Json)) (metric : Text) : Option Json :=
  (numberField metric snapshot).or
    (match snapshot.lookup ("stats" : Text) with
    | some (.obj stats) => numberField metric stats
    | _ => none)

namespace AnalysisState

variable (atLeast : Json → Json → Bool) (state : AnalysisState)

/-- The metric of the goal is known and not below the goal. -/
def GoalReached (metadata : GoalTrackingMetadata) : Prop :=
  metadata.goalMetric ≠ "" ∧ metadata.goalValue ≠ .null ∧
    ∃ value ∈ extractMetric state.snapshot metadata.goalMetric,
      atLeast value metadata.goalValue = true

instance : DecidablePred (state.GoalReached atLeast) := fun _ ↦
  inferInstanceAs (Decidable (_ ∧ _ ∧ ∃ _ ∈ _, _))

/-- `new_status`; numbers are compared by `atLeast`. -/
def newStatus (a : TrackingRow) : Option TrackingStatus :=
  if a.id ∈ state.abandonedTrackingIds then some .abandoned
  else if state.GoalReached atLeast a.metadata then some .completed
  else if ∃ deadline ∈ state.deadline a.id, deadline < state.now then some .timeout
  else none

/-- The query of the node. -/
def Selects (a : TrackingRow) : Prop :=
  a.metadata.userId = state.userId ∧ a.tenantId = state.tenantId ∧ a.status = .tracking

instance : DecidablePred state.Selects := fun _ ↦ inferInstanceAs (Decidable (_ ∧ _))

end AnalysisState

/-! ## Runs of the node beside the gateway -/

/-- One update of a run of the node. -/
structure TrackingWrite where
  run : ℕ
  id : Uuid
  status : TrackingStatus
deriving DecidableEq

/-- The `UPDATE` of the node, once it is committed. -/
def Db.applyWrite (db : Db) (x : TrackingWrite) : Db :=
  db.updateTracking (fun a ↦ a.id = x.id)
    { set a := { a with status := x.status }
      key_set _ := rfl }

/-- The gateway, the updates that runs of the node have chosen, those that they have made and not
committed, and a log of the rows that committed runs have given a status. -/
structure TrackedWorld where
  world : World
  chosen : List TrackingWrite
  written : List TrackingWrite
  analysed : List Uuid

inductive TrackedAction where
  | gateway (a : Action)
  | select (run : ℕ) (state : AnalysisState)
  | update (run : ℕ) (id : Uuid)
  | commit (run : ℕ)
  | rollback (run : ℕ)
  | insert (key : TrackingKey)

namespace TrackedWorld

/-- No run of the node is going on. -/
def start (world : World) : TrackedWorld := ⟨world, [], [], []⟩

variable (config : SystemConfig) (atLeast : Json → Json → Bool) (s : TrackedWorld)

/-- The transaction of the gateway has to wait for a row that a run has updated. -/
def Waits (a : Action) : Prop :=
  ∃ r ∈ s.world.db.tracking, (∃ x ∈ s.written, x.id = r.id) ∧
    ∀ r' ∈ (s.world.exec config a).db.tracking, r' ≠ r

instance : DecidablePred (s.Waits config) := fun _ ↦
  inferInstanceAs (Decidable (∃ _ ∈ _, (∃ _ ∈ _, _) ∧ ∀ _ ∈ _, _))

def gateway (a : Action) : TrackedWorld :=
  if s.Waits config a then s else { s with world := s.world.exec config a }

/-- The `SELECT` of a run, and its choice of updates. -/
def select (run : ℕ) (state : AnalysisState) : TrackedWorld :=
  if ∃ x ∈ s.chosen ++ s.written, x.run = run then s
  else { s with
    chosen := s.chosen ++ (s.world.db.tracking.select state.Selects).filterMap fun a ↦
      (state.newStatus atLeast a).map (⟨run, a.id, ·⟩) }

/-- One `UPDATE` of a run, in any order. -/
def update (run : ℕ) (id : Uuid) : TrackedWorld :=
  match s.chosen.find? fun x ↦ x.run = run ∧ x.id = id with
  | none => s
  | some x =>
    if ∃ y ∈ s.written, y.run ≠ run ∧ y.id = id then s
    else { s with chosen := s.chosen.erase x, written := s.written ++ [x] }

/-- A run ends with all its updates made. -/
def commit (run : ℕ) : TrackedWorld :=
  if ∃ x ∈ s.chosen, x.run = run then s
  else
    let writes := s.written.filter fun x ↦ x.run = run
    { world := { s.world with db := writes.foldl Db.applyWrite s.world.db }
      chosen := s.chosen
      written := s.written.filter fun x ↦ x.run ≠ run
      analysed := s.analysed ++ writes.map TrackingWrite.id }

def rollback (run : ℕ) : TrackedWorld :=
  { s with
    chosen := s.chosen.filter fun x ↦ x.run ≠ run
    written := s.written.filter fun x ↦ x.run ≠ run }

/-- An `INSERT` of the second transaction of the node. -/
def insert (key : TrackingKey) : TrackedWorld :=
  match s.world.db.tracking.insert? ⟨key, .tracking⟩ with
  | none => s
  | some tracking => { s with world := { s.world with db := { s.world.db with tracking := tracking } } }

def exec : TrackedAction → TrackedWorld
  | .gateway a => s.gateway config a
  | .select run state => s.select atLeast run state
  | .update run id => s.update run id
  | .commit run => s.commit run
  | .rollback run => s.rollback run
  | .insert key => s.insert key

end TrackedWorld

end LlmGateway
