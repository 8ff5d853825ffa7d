import LlmGateway.Analysis.PlayerMemory
import LlmGateway.Relational.Transition
import Mathlib.Algebra.BigOperators.Group.List.Basic
import Mathlib.Tactic.FieldSimp
import Mathlib.Tactic.Ring

/-!
# What is remembered of a player

The first evaluation of a goal type leaves nothing in the history, so the history stays empty. The
means are those of the committed updates exactly if each update is committed before another one
reads.
-/

namespace LlmGateway.PlayerMemory

open Relational

/-! ## The history of the goals -/

/-- The evaluations that are counted under a goal type. -/
def countedUnder (evaluations : List GoalEvaluation) (goalType : String) : List GoalEvaluation :=
  evaluations.filter (·.countedType = some goalType)

/-- The entry says what the evaluations were. -/
structure Summarizes (evaluations : List GoalEvaluation) (entry : GoalTypeStats) : Prop where
  total : entry.total = evaluations.length
  success : entry.success = evaluations.countP (·.Succeeds)
  avgCost : ∀ costs : List ℚ, evaluations.map (·.costDeviation) = costs.map some →
    entry.avgCost = costs.sum / costs.length
  abandonReasons : entry.abandonReasons =
    (((evaluations.filter (·.Abandons)).map (·.reason)).reverse.take 5).reverse

/-- A goal type that occurs more than once has its entry, and one that occurs once has none. -/
structure HistoryIsKept (evaluations : List GoalEvaluation)
    (history : OrderedDict String GoalTypeStats) : Prop where
  repeated : ∀ goalType, 2 ≤ (countedUnder evaluations goalType).length →
    ∃ entry, history.lookup goalType = some entry ∧
      Summarizes (countedUnder evaluations goalType) entry
  single : ∀ goalType, (countedUnder evaluations goalType).length = 1 →
    history.lookup goalType = none

section History

variable {evaluation : GoalEvaluation} {session : Session} {row : Option MemoryRow}

/-- A first evaluation is not written. -/
theorem updateGoalHistory_empty : updateGoalHistory ∅ evaluation = ∅ := by
  have htotal : ¬2 ≤ (GoalTypeStats.empty.add evaluation).total := Nat.not_succ_le_self 1
  unfold updateGoalHistory
  cases evaluation.countedType with
  | none => rfl
  | some goalType =>
    simp only [AList.lookup_empty, Option.getD_none]
    exact if_neg htotal

theorem goalHistoryOf_upsertedRow (h : goalHistoryOf row = ∅) :
    goalHistoryOf (some (upsertedRow row session evaluation)) = ∅ := by
  cases row with
  | none => rfl
  | some row =>
    have hhistory : row.goalHistory.getD ∅ = ∅ := h
    show updateGoalHistory (row.goalHistory.getD ∅) evaluation = ∅
    rw [hhistory, updateGoalHistory_empty]

theorem goalHistoryOf_foldl (analyses : List (Session × GoalEvaluation))
    (h : goalHistoryOf row = ∅) : goalHistoryOf (analyses.foldl
      (fun row analysis ↦ some (upsertedRow row analysis.1 analysis.2)) row) = ∅ := by
  induction analyses generalizing row with
  | nil => exact h
  | cons analysis analyses ih => exact ih (goalHistoryOf_upsertedRow h)

/-- The history is right exactly as long as no goal type comes back. -/
theorem historyIsKept_iff (analyses : List (Session × GoalEvaluation)) :
    HistoryIsKept (analyses.map (·.2)) (goalHistoryOf (storedRow analyses)) ↔
      ∀ goalType, (countedUnder (analyses.map (·.2)) goalType).length ≤ 1 := by
  have hempty : goalHistoryOf (storedRow analyses) = ∅ := goalHistoryOf_foldl analyses rfl
  rw [hempty]
  constructor
  · intro h goalType
    by_contra htwo
    obtain ⟨entry, hentry, -⟩ := h.repeated goalType (not_le.1 htwo)
    rw [AList.lookup_empty] at hentry
    cases hentry
  · intro h
    exact ⟨fun goalType htwo ↦ absurd (h goalType) (not_le.2 htwo), fun _ _ ↦ AList.lookup_empty _⟩

end History

/-- Two evaluations of one goal type, of which the second one is a success. -/
def repeatedGoal : List (Session × GoalEvaluation) :=
  [(⟨none, none⟩, ⟨some "pvp_rank", none, some .new, some "a first goal", none, none⟩),
    (⟨none, none⟩, ⟨some "pvp_rank", none, some .continuing, some "reached", some 1, some 1⟩)]

theorem repeatedGoal_forgotten :
    ¬HistoryIsKept (repeatedGoal.map (·.2)) (goalHistoryOf (storedRow repeatedGoal)) := by
  intro h
  obtain ⟨entry, hentry, -⟩ := h.repeated "pvp_rank" (by decide)
  have hempty : (goalHistoryOf (storedRow repeatedGoal)).lookup "pvp_rank" = none := by decide
  cases hempty.symm.trans hentry

/-! ## The means -/

/-- The row counts the committed updates and has the means of their numbers. -/
structure KeepsMeans (s : Table) : Prop where
  count : analysisCountOf s.row = s.committed.length
  means : ∀ row ∈ s.row, ∃ profile ∈ row.behaviorProfile,
    profile.avgSpendPerSession = (s.committed.map Session.spend).sum / s.committed.length ∧
      profile.avgSessionMinutes = (s.committed.map Session.minutes).sum / s.committed.length

namespace Table

variable {s : Table} {a : Action}

/-- No update is committed between the reading of a transaction and its end. -/
def Current (s : Table) : Action → Prop
  | .commit id => ∀ p ∈ s.pending id, s.writer = some id → p.seen = s.committed.length
  | _ => True

/-- A transaction that has read fits the updates that were committed then. -/
structure Pending.Fits (s : Table) (p : Pending) : Prop where
  seen : p.seen ≤ s.committed.length
  count : analysisCountOf p.found ≤ p.seen

/-- Every update is counted, also by those that have read just now. -/
structure Counted (s : Table) : Prop where
  keeps : KeepsMeans s
  fits : ∀ id, ∀ p ∈ s.pending id, Pending.Fits s p
  found : ∀ id, ∀ p ∈ s.pending id, p.seen = s.committed.length → p.found = s.row

/-- An update is lost for good. -/
structure Lost (s : Table) : Prop where
  count : analysisCountOf s.row < s.committed.length
  fits : ∀ id, ∀ p ∈ s.pending id, Pending.Fits s p
  lost : ∀ id, ∀ p ∈ s.pending id,
    analysisCountOf p.found < p.seen ∨ p.seen < s.committed.length

theorem analysisCountOf_upsertedRow {row : Option MemoryRow} {session : Session}
    {evaluation : GoalEvaluation} :
    analysisCountOf (some (upsertedRow row session evaluation)) = analysisCountOf row + 1 := by
  cases row <;> rfl

/-- A step commits the update of the transaction that has written, or it changes nothing that is
committed and takes at most one transaction in. -/
theorem exec_cases (s : Table) (a : Action) :
    (∃ id p, a = .commit id ∧ s.pending id = some p ∧ s.writer = some id ∧
      s.exec a = ⟨some (upsertedRow p.found p.session p.evaluation),
        Function.update s.pending id none, none, s.committed ++ [p.session]⟩) ∨
      ((s.exec a).row = s.row ∧ (s.exec a).committed = s.committed ∧
        (∀ id p, (s.exec a).pending id = some p →
          s.pending id = some p ∨ (p.found = s.row ∧ p.seen = s.committed.length)) ∧
        Current s a) := by
  have hrollback (id : ℕ) : (s.rollback id).row = s.row ∧
      (s.rollback id).committed = s.committed ∧
      ∀ other p, (s.rollback id).pending other = some p → s.pending other = some p := by
    refine ⟨rfl, rfl, fun other p hp ↦ ?_⟩
    simp only [rollback, Function.update_apply] at hp
    split_ifs at hp
    exact hp
  cases a with
  | read id session evaluation =>
    right
    simp only [exec, read]
    split_ifs with hnone
    · refine ⟨rfl, rfl, fun other p hp ↦ ?_, trivial⟩
      simp only [Function.update_apply] at hp
      split_ifs at hp
      · cases hp
        exact Or.inr ⟨rfl, rfl⟩
      · exact Or.inl hp
    · exact ⟨rfl, rfl, fun other p hp ↦ Or.inl hp, trivial⟩
  | write id =>
    right
    simp only [exec, write]
    split
    · split_ifs
      · exact ⟨(hrollback id).1, (hrollback id).2.1,
          fun other p hp ↦ Or.inl ((hrollback id).2.2 other p hp), trivial⟩
      · exact ⟨rfl, rfl, fun other p hp ↦ Or.inl hp, trivial⟩
    · exact ⟨rfl, rfl, fun other p hp ↦ Or.inl hp, trivial⟩
  | commit id =>
    by_cases hwriter : s.writer = some id
    · cases hpending : s.pending id with
      | some p =>
        refine Or.inl ⟨id, p, rfl, hpending, hwriter, ?_⟩
        simp only [exec, commit, hpending, if_pos hwriter]
      | none =>
        right
        simp only [exec, commit, hpending]
        refine ⟨trivial, trivial, fun other p hp ↦ Or.inl hp, fun p hp ↦ ?_⟩
        rw [hpending] at hp
        cases hp
    · right
      have hsame : s.exec (.commit id) = s := by
        simp only [exec, commit]
        split
        · exact if_neg hwriter
        · rfl
      rw [hsame]
      exact ⟨rfl, rfl, fun other p hp ↦ Or.inl hp, fun p hp h ↦ absurd h hwriter⟩
  | rollback id =>
    exact Or.inr ⟨(hrollback id).1, (hrollback id).2.1,
      fun other p hp ↦ Or.inl ((hrollback id).2.2 other p hp), trivial⟩

/-- What is not committed leaves the row as it is, and new transactions read it. -/
theorem Pending.Fits.mono {t : Table} {p : Pending} (h : Pending.Fits s p)
    (hle : s.committed.length ≤ t.committed.length) : Pending.Fits t p :=
  ⟨h.seen.trans hle, h.count⟩

/-- The mean of one number more. -/
theorem slidingMean_eq {n : ℕ} {sum new : ℚ} (hsum : n = 0 → sum = 0) :
    slidingMean (n + 1) (sum / n) new = (sum + new) / (n + 1 : ℕ) := by
  rw [slidingMean, if_pos n.succ_pos]
  cases n with
  | zero => simp [hsum rfl]
  | succ n =>
    have hn : (n + 1 : ℚ) ≠ 0 := Nat.cast_add_one_ne_zero n
    have hn' : ((n + 1 : ℕ) + 1 : ℚ) ≠ 0 := Nat.cast_add_one_ne_zero (n + 1)
    push_cast at hn' ⊢
    field_simp
    ring

/-- An update of the committed row keeps the means. -/
theorem keepsMeans_upsertedRow {session : Session} {evaluation : GoalEvaluation}
    (h : KeepsMeans s) (t : Table) (hrow : t.row = some (upsertedRow s.row session evaluation))
    (hcommitted : t.committed = s.committed ++ [session]) : KeepsMeans t := by
  have hlength : t.committed.length = s.committed.length + 1 := by
    rw [hcommitted, List.length_append, List.length_singleton]
  have hsum (f : Session → ℚ) : (t.committed.map f).sum = (s.committed.map f).sum + f session := by
    rw [hcommitted, List.map_append, List.sum_append, List.map_singleton, List.sum_singleton]
  constructor
  case count => rw [hrow, analysisCountOf_upsertedRow, h.count, hlength]
  case means =>
    intro row hmem
    cases hrow.symm.trans hmem
    rw [hsum, hsum, hlength]
    cases hold : s.row with
    | none =>
      have hzero : s.committed.length = 0 := by rw [← h.count, hold]; rfl
      rw [List.length_eq_zero_iff] at hzero
      refine ⟨_, rfl, ?_, ?_⟩ <;> simp [hzero, buildInitialBehaviorProfile]
    | some row =>
      obtain ⟨profile, hprofile, hspend, hminutes⟩ := h.means row hold
      have hcount : row.analysisCount.getD 0 = s.committed.length := by rw [← h.count, hold]; rfl
      have hnil (f : Session → ℚ) (hzero : s.committed.length = 0) :
          (s.committed.map f).sum = 0 := by
        rw [List.length_eq_zero_iff.1 hzero]
        rfl
      refine ⟨_, rfl, ?_, ?_⟩
      · simp only [updateBehaviorProfile, Option.mem_def.1 hprofile, Option.getD_some, hcount,
          hspend]
        exact slidingMean_eq (hnil _)
      · simp only [updateBehaviorProfile, Option.mem_def.1 hprofile, Option.getD_some, hcount,
          hminutes]
        exact slidingMean_eq (hnil _)

theorem pending_update {id other : ℕ} {p : Pending}
    (h : Function.update s.pending id none other = some p) : s.pending other = some p := by
  rw [Function.update_apply] at h
  split_ifs at h
  exact h

/-- A current step keeps every update counted. -/
theorem Counted.exec (h : Counted s) (hcurrent : Current s a) : Counted (s.exec a) := by
  obtain ⟨id, p, rfl, hpending, hwriter, hexec⟩ | ⟨hrow, hcommitted, hpending, -⟩ := exec_cases s a
  · have hfound : p.found = s.row := h.found id p hpending (hcurrent p hpending hwriter)
    rw [hexec, hfound]
    have hlength : s.committed.length < (s.committed ++ [p.session]).length := by
      rw [List.length_append]
      exact Nat.lt_succ_self _
    constructor
    case keeps => exact keepsMeans_upsertedRow h.keeps _ rfl rfl
    case fits =>
      exact fun other q hq ↦ (h.fits other q (pending_update hq)).mono hlength.le
    case found =>
      intro other q hq hseen
      have hle := (h.fits other q (pending_update hq)).seen
      exact absurd hseen (hle.trans_lt hlength).ne
  · constructor
    case keeps => exact ⟨by rw [hrow, hcommitted, h.keeps.count], by
      rw [hrow, hcommitted]; exact h.keeps.means⟩
    case fits =>
      intro other q hq
      obtain hq | ⟨hfound, hseen⟩ := hpending other q hq
      · exact (h.fits other q hq).mono (by rw [hcommitted])
      · exact ⟨by rw [hseen, hcommitted], by rw [hfound, hseen, h.keeps.count]⟩
    case found =>
      intro other q hq hseen
      rw [hcommitted] at hseen
      rw [hrow]
      obtain hq | ⟨hfound, -⟩ := hpending other q hq
      · exact h.found other q hq hseen
      · exact hfound

/-- A commit beside a later one loses an update. -/
theorem Counted.lost (h : Counted s) (hstale : ¬Current s a) : Lost (s.exec a) := by
  obtain ⟨id, p, rfl, hpending, hwriter, hexec⟩ | ⟨-, -, -, hcurrent⟩ := exec_cases s a
  · have hseen : p.seen < s.committed.length := by
      by_contra hge
      refine hstale fun q hq _ ↦ ?_
      cases hpending.symm.trans hq
      exact le_antisymm (h.fits id p hpending).seen (not_lt.1 hge)
    have hfits := h.fits id p hpending
    rw [hexec]
    have hlength : (s.committed ++ [p.session]).length = s.committed.length + 1 := by
      rw [List.length_append, List.length_singleton]
    constructor
    case count =>
      show analysisCountOf (some (upsertedRow p.found p.session p.evaluation)) <
        (s.committed ++ [p.session]).length
      rw [analysisCountOf_upsertedRow, hlength]
      exact Nat.succ_lt_succ (hfits.count.trans_lt hseen)
    case fits =>
      exact fun other q hq ↦ (h.fits other q (pending_update hq)).mono (by rw [hlength]; omega)
    case lost =>
      intro other q hq
      have hle := (h.fits other q (pending_update hq)).seen
      exact Or.inr (by rw [hlength]; omega)
  · exact absurd hcurrent hstale

/-- A lost update stays lost. -/
theorem Lost.exec (h : Lost s) : Lost (s.exec a) := by
  obtain ⟨id, p, rfl, hpending, hwriter, hexec⟩ | ⟨hrow, hcommitted, hpending, -⟩ := exec_cases s a
  · have hlost := h.lost id p hpending
    have hfits := h.fits id p hpending
    rw [hexec]
    have hlength : (s.committed ++ [p.session]).length = s.committed.length + 1 := by
      rw [List.length_append, List.length_singleton]
    constructor
    case count =>
      show analysisCountOf (some (upsertedRow p.found p.session p.evaluation)) <
        (s.committed ++ [p.session]).length
      rw [analysisCountOf_upsertedRow, hlength]
      have hseen := hfits.seen
      have hcount := hfits.count
      omega
    case fits =>
      exact fun other q hq ↦ (h.fits other q (pending_update hq)).mono (by rw [hlength]; omega)
    case lost =>
      intro other q hq
      have hle := (h.fits other q (pending_update hq)).seen
      exact Or.inr (by rw [hlength]; omega)
  · constructor
    case count => rw [hrow, hcommitted]; exact h.count
    case fits =>
      intro other q hq
      obtain hq | ⟨hfound, hseen⟩ := hpending other q hq
      · exact (h.fits other q hq).mono (by rw [hcommitted])
      · exact ⟨by rw [hseen, hcommitted], by rw [hfound, hseen]; exact h.count.le⟩
    case lost =>
      intro other q hq
      rw [hcommitted]
      obtain hq | ⟨hfound, hseen⟩ := hpending other q hq
      · exact h.lost other q hq
      · rw [hfound, hseen]
        exact Or.inl h.count

theorem counted_start : Counted start := by
  constructor
  case keeps => exact ⟨rfl, fun row hrow ↦ by cases hrow⟩
  case fits => exact fun id p hp ↦ by cases hp
  case found => exact fun id p hp ↦ by cases hp

/-- The row has the means of the committed updates exactly if every commit of the run is current. -/
theorem keepsMeans_iff (actions : List Action) :
    KeepsMeans (run exec start actions) ↔ Guarded exec Current start actions := by
  suffices hrun : ∀ s, Counted s →
      (KeepsMeans (run exec s actions) ↔ Guarded exec Current s actions) from
    hrun start counted_start
  have hlost : ∀ s actions, Lost s → ¬KeepsMeans (run exec s actions) := by
    intro s actions h hkeeps
    have hrun : Lost (run exec s actions) := invariant_run (fun s a h ↦ h.exec) h actions
    exact hrun.count.ne hkeeps.count
  induction actions with
  | nil => exact fun s h ↦ iff_of_true h.keeps trivial
  | cons a actions ih =>
    intro s h
    by_cases hcurrent : Current s a
    · rw [run_cons, ih (s.exec a) (h.exec hcurrent)]
      exact (and_iff_right hcurrent).symm
    · exact iff_of_false (hlost (s.exec a) actions (h.lost hcurrent)) fun hguard ↦ hcurrent hguard.1

/-- After a first analysis two others read the same row, and both write. -/
def overlapping : List Action :=
  let evaluation : GoalEvaluation := ⟨none, none, none, none, none, none⟩
  [.read 1 ⟨some 10, some 5⟩ evaluation, .write 1, .commit 1,
    .read 2 ⟨some 20, some 5⟩ evaluation, .read 3 ⟨some 60, some 5⟩ evaluation,
    .write 2, .commit 2, .write 3, .commit 3]

theorem overlapping_lost : ¬KeepsMeans (run exec start overlapping) := by
  intro h
  have hcount : analysisCountOf (run exec start overlapping).row = 2 ∧
      (run exec start overlapping).committed.length = 3 := by decide
  cases (hcount.1.symm.trans h.count).trans hcount.2

end Table

end LlmGateway.PlayerMemory
