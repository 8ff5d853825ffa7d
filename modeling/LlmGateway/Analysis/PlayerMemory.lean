import LlmGateway.Contract.Json
import LlmGateway.Relational.OrderedDict
import Mathlib.Data.Rat.Defs
import Mathlib.Logic.Function.Basic

/-!
# The memory of a player

`_upsert_player_memory` (`decision_nodes.py`): a transaction reads the row of the player, computes
the running means of the profile and the history of the goals, and inserts or updates the row with
them. Numbers are rational.
-/

namespace LlmGateway.PlayerMemory

open Relational

/-! ## The profile -/

inductive SpendTendency where
  | high | medium | low
deriving DecidableEq, Repr

/-- `BehaviorProfileMemory`. -/
structure BehaviorProfile where
  spendTendency : SpendTendency
  avgSpendPerSession : ℚ
  preferredContent : List String
  avgSessionMinutes : ℚ
deriving DecidableEq, Repr

/-- `BehaviorProfileMemory()`. -/
def BehaviorProfile.default : BehaviorProfile := ⟨.medium, 0, [], 0⟩

/-- What is read of the snapshot of a session. -/
structure Session where
  goldSpent : Option ℚ
  sessionMinutes : Option ℚ
deriving DecidableEq, Repr

/-- `float(snapshot.get("gold_spent", 0) or 0)`. -/
def Session.spend (session : Session) : ℚ := session.goldSpent.getD 0

/-- `float(snapshot.get("session_minutes", 0) or 0)`. -/
def Session.minutes (session : Session) : ℚ := session.sessionMinutes.getD 0

/-- `_build_initial_behavior_profile`. -/
def buildInitialBehaviorProfile (session : Session) : BehaviorProfile :=
  { BehaviorProfile.default with
    avgSpendPerSession := session.spend
    avgSessionMinutes := session.minutes }

/-- The mean of `n` numbers, from the mean of the ones before the last. -/
def slidingMean (n : ℕ) (mean new : ℚ) : ℚ :=
  if 0 < n then mean * (n - 1) / n + new / n else new

/-- `_update_behavior_profile`. -/
def updateBehaviorProfile (existing : Option BehaviorProfile) (session : Session) (count : ℕ) :
    BehaviorProfile :=
  let profile := existing.getD BehaviorProfile.default
  let avg := slidingMean count profile.avgSpendPerSession session.spend
  { profile with
    avgSpendPerSession := avg
    avgSessionMinutes := slidingMean count profile.avgSessionMinutes session.minutes
    spendTendency := if 500 < avg then .high else if 100 < avg then .medium else .low }

/-! ## The history of the goals -/

inductive GoalDecision where
  | continuing | downgrade | switch | new
deriving DecidableEq, Repr

/-- What is read of `goal_eval`. -/
structure GoalEvaluation where
  suggestedGoalType : Option String
  goalType : Option String
  decision : Option GoalDecision
  decisionReason : Option String
  goalProgress : Option ℚ
  costDeviation : Option ℚ
deriving DecidableEq, Repr

namespace GoalEvaluation

variable (evaluation : GoalEvaluation)

/-- The type that the evaluation is counted under, if there is one. -/
def countedType : Option String :=
  (evaluation.suggestedGoalType.filter (· ≠ "")).or (evaluation.goalType.filter (· ≠ ""))

/-- The goal is given up or lowered. -/
def Abandons : Prop :=
  evaluation.decision = some .switch ∨ evaluation.decision = some .downgrade

instance : DecidablePred Abandons := fun evaluation ↦
  inferInstanceAs (Decidable (evaluation.decision = _ ∨ evaluation.decision = _))

/-- `goal_eval.get("decision_reason", "")`. -/
def reason : String := evaluation.decisionReason.getD ""

/-- `(goal_eval.get("goal_progress") or 0.0) >= 1.0`. -/
def Succeeds : Prop := 1 ≤ evaluation.goalProgress.getD 0

instance : DecidablePred Succeeds := fun evaluation ↦
  inferInstanceAs (Decidable (1 ≤ evaluation.goalProgress.getD 0))

end GoalEvaluation

/-- The entry of a goal type. -/
structure GoalTypeStats where
  total : ℕ
  success : ℕ
  avgCost : ℚ
  abandonReasons : List String
deriving DecidableEq, Repr

/-- An entry that is not in the history yet. -/
def GoalTypeStats.empty : GoalTypeStats := ⟨0, 0, 0, []⟩

/-- The entry with one evaluation more. -/
def GoalTypeStats.add (entry : GoalTypeStats) (evaluation : GoalEvaluation) : GoalTypeStats :=
  let reasons := entry.abandonReasons ++ [evaluation.reason]
  { total := entry.total + 1
    success := if evaluation.Succeeds then entry.success + 1 else entry.success
    avgCost := (evaluation.costDeviation.map (slidingMean (entry.total + 1) entry.avgCost)).getD
      entry.avgCost
    abandonReasons := if evaluation.Abandons then reasons.drop (reasons.length - 5)
      else entry.abandonReasons }

/-- `_update_goal_history`. -/
def updateGoalHistory (existing : OrderedDict String GoalTypeStats)
    (evaluation : GoalEvaluation) : OrderedDict String GoalTypeStats :=
  match evaluation.countedType with
  | none => existing
  | some goalType =>
    let entry := ((existing.lookup goalType).getD GoalTypeStats.empty).add evaluation
    if 2 ≤ entry.total then existing.insert goalType entry else existing

/-! ## The row -/

/-- The row of a player. -/
structure MemoryRow where
  behaviorProfile : Option BehaviorProfile
  goalHistory : Option (OrderedDict String GoalTypeStats)
  analysisCount : Option ℕ
deriving DecidableEq

/-- The row that `_upsert_player_memory` writes after it has read one or none. -/
def upsertedRow (row : Option MemoryRow) (session : Session) (evaluation : GoalEvaluation) :
    MemoryRow :=
  match row with
  | none => ⟨some (buildInitialBehaviorProfile session), some ∅, some 1⟩
  | some row =>
    let analysisCount := row.analysisCount.getD 0 + 1
    { behaviorProfile := some (updateBehaviorProfile row.behaviorProfile session analysisCount)
      goalHistory := some (updateGoalHistory (row.goalHistory.getD ∅) evaluation)
      analysisCount := some analysisCount }

/-- The row after analyses that are stored one after another. -/
def storedRow (analyses : List (Session × GoalEvaluation)) : Option MemoryRow :=
  analyses.foldl (fun row analysis ↦ some (upsertedRow row analysis.1 analysis.2)) none

/-- `row.goal_history or {}`, and nothing without a row. -/
def goalHistoryOf (row : Option MemoryRow) : OrderedDict String GoalTypeStats :=
  (row.bind (·.goalHistory)).getD ∅

/-- `analysis_count`, or zero without a row. -/
def analysisCountOf (row : Option MemoryRow) : ℕ := (row.bind (·.analysisCount)).getD 0

/-! ## Transactions -/

/-- A transaction that has read. -/
structure Pending where
  found : Option MemoryRow
  session : Session
  evaluation : GoalEvaluation
  /-- How many updates had been committed when it read. -/
  seen : ℕ

/-- The committed row, the transactions that have read and not ended, the one of them that has
written, and a log of the sessions whose update is committed. -/
structure Table where
  row : Option MemoryRow
  pending : ℕ → Option Pending
  writer : Option ℕ
  committed : List Session

inductive Action where
  | read (id : ℕ) (session : Session) (evaluation : GoalEvaluation)
  | write (id : ℕ)
  | commit (id : ℕ)
  | rollback (id : ℕ)

namespace Table

/-- The player has no row. -/
def start : Table := ⟨none, fun _ ↦ none, none, []⟩

variable (s : Table)

/-- The `SELECT`, which sees the committed row. -/
def read (id : ℕ) (session : Session) (evaluation : GoalEvaluation) : Table :=
  if s.pending id = none then
    { s with
      pending := Function.update s.pending id
        (some ⟨s.row, session, evaluation, s.committed.length⟩) }
  else s

/-- The transaction ends without an effect. -/
def rollback (id : ℕ) : Table :=
  { s with
    pending := Function.update s.pending id none
    writer := if s.writer = some id then none else s.writer }

/-- The `INSERT` or the `UPDATE`. It waits for another transaction that has written, and an
`INSERT` beside a committed row violates the uniqueness of the row. -/
def write (id : ℕ) : Table :=
  match s.pending id, s.writer with
  | some p, none =>
    if p.found = none ∧ s.row ≠ none then s.rollback id else { s with writer := some id }
  | _, _ => s

/-- The written row becomes the committed one. -/
def commit (id : ℕ) : Table :=
  match s.pending id with
  | some p =>
    if s.writer = some id then
      { row := some (upsertedRow p.found p.session p.evaluation)
        pending := Function.update s.pending id none
        writer := none
        committed := s.committed ++ [p.session] }
    else s
  | none => s

def exec : Action → Table
  | .read id session evaluation => s.read id session evaluation
  | .write id => s.write id
  | .commit id => s.commit id
  | .rollback id => s.rollback id

end Table

end LlmGateway.PlayerMemory
