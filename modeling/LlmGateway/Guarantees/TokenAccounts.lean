import LlmGateway.Llm.TokenUsage
import Mathlib.Algebra.BigOperators.Group.List.Basic
import Mathlib.Algebra.BigOperators.Group.Finset.Basic
import Mathlib.Algebra.BigOperators.Group.Finset.Piecewise

/-!
# Token accounts balance

What a scope has counted is a function of the notices that reached it while it was open: every run
it heard of is a model call, and the first notice that completes a run says what is counted for it.
A completed decision adds its counts to the totals once, and the intervals divide the lifetime.
-/

namespace LlmGateway.Llm

open Relational (OrderedDict run)

/-- The runs of which the notices speak. -/
def heardRuns (heard : List Notice) : Finset String := (heard.map (·.key)).toFinset

/-- What the first notice that completes the run says. -/
def outcome (heard : List Notice) (key : String) : Option (Option TokenUsage) :=
  (heard.filter (·.key = key)).findSome? (·.completion)

/-- The usage that is counted for the run. -/
def counted (heard : List Notice) (key : String) : Option TokenUsage := (outcome heard key).join

/-- The scope has counted each run of the notices that reached it once. -/
structure CountsOnce (scope : DecisionTokenScope) (heard : List Notice) : Prop where
  modelCalls : scope.modelCalls = (heardRuns heard).card
  usageReportedCalls :
    scope.usageReportedCalls = ((heardRuns heard).filter fun key ↦ (counted heard key).isSome).card
  usageMissingCalls : scope.completed = false →
    scope.usageMissingCalls = ((heardRuns heard).filter fun key ↦ outcome heard key = some none).card
  inputTokens : scope.inputTokens =
    ∑ key ∈ heardRuns heard, ((counted heard key).map (·.inputTokens)).getD 0
  outputTokens : scope.outputTokens =
    ∑ key ∈ heardRuns heard, ((counted heard key).map (·.outputTokens)).getD 0
  totalTokens : scope.totalTokens =
    ∑ key ∈ heardRuns heard, ((counted heard key).map (·.totalTokens)).getD 0
  divided : scope.completed = true →
    scope.modelCalls = scope.usageReportedCalls + scope.usageMissingCalls

section Notices

variable {heard : List Notice} {notice : Notice} {key : String}

theorem heardRuns_append (heard : List Notice) (notice : Notice) :
    heardRuns (heard ++ [notice]) = insert notice.key (heardRuns heard) := by
  ext key
  simp only [heardRuns, List.map_append, List.map_cons, List.map_nil, List.mem_toFinset,
    List.mem_append, List.mem_singleton, Finset.mem_insert, or_comm]

theorem outcome_append (heard : List Notice) (notice : Notice) (key : String) :
    outcome (heard ++ [notice]) key =
      (outcome heard key).or (if notice.key = key then notice.completion else none) := by
  simp only [outcome, List.filter_append, List.findSome?_append, List.filter_cons, List.filter_nil,
    decide_eq_true_eq]
  split
  · simp only [List.findSome?_cons, List.findSome?_nil]
    cases notice.completion <;> rfl
  · rfl

theorem mem_heardRuns_of_outcome (h : outcome heard key ≠ none) : key ∈ heardRuns heard := by
  obtain ⟨completion, hcompletion⟩ := Option.ne_none_iff_exists'.1 h
  obtain ⟨notice, hnotice, -⟩ := List.exists_of_findSome?_eq_some hcompletion
  obtain ⟨hmem, hkey⟩ := List.mem_filter.1 hnotice
  exact List.mem_toFinset.2 (List.mem_map.2 ⟨notice, hmem, of_decide_eq_true hkey⟩)

/-- The sum of what each run's outcome comes to. -/
def tally (f : Option (Option TokenUsage) → ℕ) (heard : List Notice) : ℕ :=
  ∑ key ∈ heardRuns heard, f (outcome heard key)

/-- A notice adds what it says if it is the first one to complete its run. -/
theorem tally_append {f : Option (Option TokenUsage) → ℕ} (hf : f none = 0) (heard : List Notice)
    (notice : Notice) :
    tally f (heard ++ [notice]) =
      tally f heard + if outcome heard notice.key = none then f notice.completion else 0 := by
  have hother : ∀ key ≠ notice.key, outcome (heard ++ [notice]) key = outcome heard key := by
    intro key hne
    rw [outcome_append, if_neg (Ne.symm hne), Option.or_none]
  have hself : outcome (heard ++ [notice]) notice.key =
      (outcome heard notice.key).or notice.completion := by
    rw [outcome_append, if_pos rfl]
  have hrest : ∑ key ∈ (heardRuns heard).erase notice.key, f (outcome (heard ++ [notice]) key) =
      ∑ key ∈ (heardRuns heard).erase notice.key, f (outcome heard key) :=
    Finset.sum_congr rfl fun key hkey ↦ by rw [hother key (Finset.ne_of_mem_erase hkey)]
  have hsplit : tally f heard =
      f (outcome heard notice.key) +
        ∑ key ∈ (heardRuns heard).erase notice.key, f (outcome heard key) := by
    by_cases hmem : notice.key ∈ heardRuns heard
    · exact (Finset.add_sum_erase _ _ hmem).symm
    · have hnone : outcome heard notice.key = none := by
        by_contra hsome
        exact hmem (mem_heardRuns_of_outcome hsome)
      rw [hnone, hf, Nat.zero_add, Finset.erase_eq_of_notMem hmem]
      rfl
  calc tally f (heard ++ [notice])
      = f ((outcome heard notice.key).or notice.completion) +
          ∑ key ∈ (heardRuns heard).erase notice.key, f (outcome heard key) := by
        rw [tally, heardRuns_append, ← Finset.add_sum_erase _ _ (Finset.mem_insert_self _ _),
          Finset.erase_insert_eq_erase, hself, hrest]
    _ = tally f heard + if outcome heard notice.key = none then f notice.completion else 0 := by
        rw [hsplit]
        cases outcome heard notice.key with
        | none => simp only [Option.none_or, hf, Nat.zero_add, if_true, Nat.add_comm]
        | some completion => simp only [Option.some_or, reduceCtorEq, if_false, Nat.add_zero]

/-- What is counted for an outcome. -/
def reportedOf (outcome : Option (Option TokenUsage)) : ℕ := if outcome.join.isSome then 1 else 0

def missingOf (outcome : Option (Option TokenUsage)) : ℕ := if outcome = some none then 1 else 0

def tokensOf (count : TokenUsage → ℕ) (outcome : Option (Option TokenUsage)) : ℕ :=
  (outcome.join.map count).getD 0

/-- The counters of the scope are the tallies of the notices. -/
structure Tallied (scope : DecisionTokenScope) (heard : List Notice) : Prop where
  modelCalls : scope.modelCalls = (heardRuns heard).card
  usageReportedCalls : scope.usageReportedCalls = tally reportedOf heard
  inputTokens : scope.inputTokens = tally (tokensOf (·.inputTokens)) heard
  outputTokens : scope.outputTokens = tally (tokensOf (·.outputTokens)) heard
  totalTokens : scope.totalTokens = tally (tokensOf (·.totalTokens)) heard

/-- While a scope is open, it also knows which of its runs are completed. -/
structure OpenBooks (scope : DecisionTokenScope) (heard : List Notice) : Prop
    extends Tallied scope heard where
  isOpen : scope.completed = false
  usageMissingCalls : scope.usageMissingCalls = tally missingOf heard
  runs : ∀ key, scope.runs.lookup key =
    if key ∈ heardRuns heard then some { completed := (outcome heard key).isSome } else none

/-- A completed scope has divided its runs. -/
structure ClosedBooks (scope : DecisionTokenScope) (heard : List Notice) : Prop
    extends Tallied scope heard where
  isCompleted : scope.completed = true
  divided : scope.modelCalls = scope.usageReportedCalls + scope.usageMissingCalls

end Notices

section Scopes

variable {scope : DecisionTokenScope} {heard : List Notice} {notice : Notice}

theorem OpenBooks.new (scope : DecisionTokenScope) (hnew : scope.modelCalls = 0 ∧
    scope.usageReportedCalls = 0 ∧ scope.usageMissingCalls = 0 ∧ scope.inputTokens = 0 ∧
    scope.outputTokens = 0 ∧ scope.totalTokens = 0 ∧ scope.runs = ∅ ∧ scope.completed = false) :
    OpenBooks scope [] := by
  obtain ⟨hcalls, hreported, hmissing, hinput, houtput, htotal, hruns, hopen⟩ := hnew
  refine ⟨⟨hcalls, hreported, hinput, houtput, htotal⟩, hopen, hmissing, fun key ↦ ?_⟩
  rw [hruns]
  rfl

/-- Registering a run that is heard of again changes nothing. -/
theorem OpenBooks.register (h : OpenBooks scope heard) (key : String) :
    ((scope.register key).modelCalls = (insert key (heardRuns heard)).card ∧
      ∀ other, (scope.register key).runs.lookup other =
        if other ∈ insert key (heardRuns heard) then
          some { completed := (outcome heard other).isSome } else none) ∧
      scope.register key =
        { scope with
          modelCalls := (scope.register key).modelCalls
          runs := (scope.register key).runs } := by
  have hruns := h.runs key
  unfold DecisionTokenScope.register
  by_cases hmem : key ∈ heardRuns heard
  · rw [if_pos hmem] at hruns
    rw [hruns, Finset.insert_eq_of_mem hmem]
    exact ⟨⟨h.modelCalls, h.runs⟩, rfl⟩
  · rw [if_neg hmem] at hruns
    rw [hruns]
    refine ⟨⟨?_, fun other ↦ ?_⟩, rfl⟩
    · rw [Finset.card_insert_of_notMem hmem, ← h.modelCalls]
    · have hnone : outcome heard key = none := by
        by_contra hsome
        exact hmem (mem_heardRuns_of_outcome hsome)
      by_cases heq : other = key
      · subst heq
        rw [AList.lookup_insert, if_pos (Finset.mem_insert_self _ _), hnone]
        rfl
      · rw [AList.lookup_insert_ne heq, h.runs other]
        simp only [Finset.mem_insert, heq, false_or]

theorem DecisionTokenScope.count_eq (scope : DecisionTokenScope) (usage : Option TokenUsage) :
    scope.count usage =
      { scope with
        usageReportedCalls := scope.usageReportedCalls + reportedOf (some usage)
        usageMissingCalls := scope.usageMissingCalls + missingOf (some usage)
        inputTokens := scope.inputTokens + tokensOf (·.inputTokens) (some usage)
        outputTokens := scope.outputTokens + tokensOf (·.outputTokens) (some usage)
        totalTokens := scope.totalTokens + tokensOf (·.totalTokens) (some usage) } := by
  cases usage <;> rfl

/-- A notice that completes no run leaves the tallies as they are. -/
theorem tally_append_of_not_first {f : Option (Option TokenUsage) → ℕ} (hf : f none = 0)
    (h : notice.completion = none ∨ outcome heard notice.key ≠ none) :
    tally f (heard ++ [notice]) = tally f heard := by
  rw [tally_append hf]
  cases h with
  | inl hstart => rw [hstart, hf, ite_self, Nat.add_zero]
  | inr hknown => rw [if_neg hknown, Nat.add_zero]

theorem OpenBooks.record_of_not_first (h : OpenBooks scope heard)
    (hnotice : notice.completion = none ∨ outcome heard notice.key ≠ none) :
    OpenBooks (scope.register notice.key) (heard ++ [notice]) := by
  obtain ⟨⟨hcalls, hruns⟩, hregister⟩ := h.register notice.key
  rw [hregister]
  refine ⟨⟨?_, ?_, ?_, ?_, ?_⟩, h.isOpen, ?_, fun key ↦ ?_⟩
  · rw [heardRuns_append]
    exact hcalls
  · rw [tally_append_of_not_first rfl hnotice]
    exact h.usageReportedCalls
  · rw [tally_append_of_not_first rfl hnotice]
    exact h.inputTokens
  · rw [tally_append_of_not_first rfl hnotice]
    exact h.outputTokens
  · rw [tally_append_of_not_first rfl hnotice]
    exact h.totalTokens
  · rw [tally_append_of_not_first rfl hnotice]
    exact h.usageMissingCalls
  · have houtcome : (outcome (heard ++ [notice]) key).isSome = (outcome heard key).isSome := by
      rw [outcome_append]
      split
      · rename_i heq
        subst heq
        cases hnotice with
        | inl hstart => rw [hstart, Option.or_none]
        | inr hknown =>
          obtain ⟨completion, hsome⟩ := Option.ne_none_iff_exists'.1 hknown
          rw [hsome, Option.some_or]
      · rw [Option.or_none]
    rw [heardRuns_append, houtcome]
    exact hruns key

theorem OpenBooks.record_of_first {usage : Option TokenUsage} (h : OpenBooks scope heard)
    (hcompletion : notice.completion = some usage) (hfirst : outcome heard notice.key = none) :
    OpenBooks
      { (scope.register notice.key).count usage with
        runs := (scope.register notice.key).runs.insert notice.key { completed := true } }
      (heard ++ [notice]) := by
  obtain ⟨⟨hcalls, hruns⟩, hregister⟩ := h.register notice.key
  have hadds : ∀ {f : Option (Option TokenUsage) → ℕ}, f none = 0 →
      tally f (heard ++ [notice]) = tally f heard + f (some usage) := by
    intro f hf
    rw [tally_append hf, if_pos hfirst, hcompletion]
  have hlookup : ∀ key, ((scope.register notice.key).runs.insert notice.key
      { completed := true }).lookup key =
        if key ∈ heardRuns (heard ++ [notice]) then
          some { completed := (outcome (heard ++ [notice]) key).isSome } else none := by
    intro key
    rw [heardRuns_append, outcome_append]
    by_cases heq : key = notice.key
    · rw [heq, AList.lookup_insert, if_pos (Finset.mem_insert_self _ _), hfirst, if_pos rfl,
        hcompletion]
      rfl
    · rw [AList.lookup_insert_ne heq, if_neg (Ne.symm heq), Option.or_none]
      exact hruns key
  have hcard : (scope.register notice.key).modelCalls = (heardRuns (heard ++ [notice])).card := by
    rw [heardRuns_append]
    exact hcalls
  rw [hregister] at hcard hlookup ⊢
  rw [DecisionTokenScope.count_eq]
  refine ⟨⟨hcard, ?_, ?_, ?_, ?_⟩, h.isOpen, ?_, hlookup⟩
  · rw [hadds rfl, ← h.usageReportedCalls]
  · rw [hadds rfl, ← h.inputTokens]
  · rw [hadds rfl, ← h.outputTokens]
  · rw [hadds rfl, ← h.totalTokens]
  · rw [hadds rfl, ← h.usageMissingCalls]

/-- What a notice does to an open scope follows what is heard. -/
theorem OpenBooks.record (h : OpenBooks scope heard) (notice : Notice) :
    OpenBooks (scope.record notice) (heard ++ [notice]) := by
  unfold DecisionTokenScope.record
  split
  · rename_i hstart
    simp only [DecisionTokenScope.recordStart, h.isOpen, Bool.false_eq_true, if_false]
    exact h.record_of_not_first (Or.inl hstart)
  · rename_i usage hcompletion
    have hlookup := (h.register notice.key).1.2 notice.key
    rw [if_pos (Finset.mem_insert_self _ _)] at hlookup
    simp only [DecisionTokenScope.recordCompletion, h.isOpen, Bool.false_eq_true, if_false, hlookup,
      Option.any_some]
    by_cases hfirst : outcome heard notice.key = none
    · rw [if_neg (by simp [hfirst])]
      exact h.record_of_first hcompletion hfirst
    · rw [if_pos (Option.isSome_iff_ne_none.2 hfirst)]
      exact h.record_of_not_first (Or.inr hfirst)

/-- Completing an open scope divides its runs. -/
theorem OpenBooks.complete (h : OpenBooks scope heard) : ClosedBooks scope.complete heard := by
  refine ⟨⟨h.modelCalls, h.usageReportedCalls, h.inputTokens, h.outputTokens, h.totalTokens⟩, rfl,
    ?_⟩
  have hkeys : scope.runs.keys.toFinset = heardRuns heard := by
    ext key
    rw [List.mem_toFinset, ← AList.mem_keys, ← AList.lookup_isSome, h.runs key]
    split <;> simp_all
  have hopen : scope.runs.entries.countP (fun e ↦ !e.2.completed) =
      ∑ key ∈ heardRuns heard, if outcome heard key = none then 1 else 0 := by
    rw [OrderedDict.countP_entries scope.runs fun run ↦ !run.completed, hkeys, Finset.card_filter]
    refine Finset.sum_congr rfl fun key hkey ↦ ?_
    rw [h.runs key, if_pos hkey]
    cases outcome heard key <;> rfl
  calc scope.modelCalls
      = ∑ key ∈ heardRuns heard, (reportedOf (outcome heard key) +
          (missingOf (outcome heard key) + if outcome heard key = none then 1 else 0)) := by
        rw [h.modelCalls, Finset.card_eq_sum_ones]
        refine Finset.sum_congr rfl fun key _ ↦ ?_
        obtain - | - | usage := outcome heard key <;> rfl
    _ = tally reportedOf heard + (tally missingOf heard +
          ∑ key ∈ heardRuns heard, if outcome heard key = none then 1 else 0) := by
        rw [Finset.sum_add_distrib, Finset.sum_add_distrib]
        rfl
    _ = scope.usageReportedCalls + (scope.usageMissingCalls +
          scope.runs.entries.countP fun e ↦ !e.2.completed) := by
        rw [h.usageReportedCalls, h.usageMissingCalls, hopen]

theorem Tallied.countsOnce (h : Tallied scope heard)
    (hopen : scope.completed = false → scope.usageMissingCalls = tally missingOf heard)
    (hdivided : scope.completed = true →
      scope.modelCalls = scope.usageReportedCalls + scope.usageMissingCalls) :
    CountsOnce scope heard := by
  refine ⟨h.modelCalls, ?_, fun hscope ↦ ?_, h.inputTokens, h.outputTokens, h.totalTokens, hdivided⟩
  · rw [h.usageReportedCalls, Finset.card_filter]
    rfl
  · rw [hopen hscope, Finset.card_filter]
    rfl

end Scopes

section Totals

namespace MutableSummary

instance : Zero MutableSummary := ⟨{}⟩

instance : Add MutableSummary := ⟨fun a b ↦
  { decisionCount := a.decisionCount + b.decisionCount
    modelCalls := a.modelCalls + b.modelCalls
    usageReportedCalls := a.usageReportedCalls + b.usageReportedCalls
    usageMissingCalls := a.usageMissingCalls + b.usageMissingCalls
    inputTokens := a.inputTokens + b.inputTokens
    outputTokens := a.outputTokens + b.outputTokens
    totalTokens := a.totalTokens + b.totalTokens }⟩

instance : AddCommMonoid MutableSummary where
  add_assoc a b c := by ext <;> exact Nat.add_assoc _ _ _
  zero_add a := by ext <;> exact Nat.zero_add _
  add_zero a := by ext <;> exact Nat.add_zero _
  add_comm a b := by ext <;> exact Nat.add_comm _ _
  nsmul := nsmulRec

/-- The totals of one decision. -/
def ofUsage (usage : DecisionTokenUsage) : MutableSummary where
  decisionCount := 1
  modelCalls := usage.modelCalls
  usageReportedCalls := usage.usageReportedCalls
  usageMissingCalls := usage.usageMissingCalls
  inputTokens := usage.inputTokens
  outputTokens := usage.outputTokens
  totalTokens := usage.totalTokens

theorem add_eq (summary : MutableSummary) (usage : DecisionTokenUsage) :
    summary.add usage = summary + ofUsage usage := rfl

/-- Every model call has a usage or misses it. -/
def Divided (summary : MutableSummary) : Prop :=
  summary.modelCalls = summary.usageReportedCalls + summary.usageMissingCalls

theorem Divided.add {summary : MutableSummary} {usage : DecisionTokenUsage}
    (h : summary.Divided)
    (husage : usage.modelCalls = usage.usageReportedCalls + usage.usageMissingCalls) :
    (summary.add usage).Divided := by
  simp only [Divided, MutableSummary.add] at h ⊢
  omega

end MutableSummary

namespace TokenWorld

/-- The notices that reached the scope while it was open. -/
def heardBy (w : TokenWorld) (i : ScopeId) : List Notice :=
  (w.heard.filter fun entry ↦ entry.1 = i).map (·.2)

/-- The usages of the decisions that the tracker completed. -/
def usagesOf (w : TokenWorld) (self : TrackerId) : List DecisionTokenUsage :=
  (w.usages.filter fun entry ↦ entry.1 = self).map (·.2.2)

/-- The snapshots with which the tracker began a new interval. -/
def snapshotsOf (w : TokenWorld) (self : TrackerId) : List TokenUsageSummary :=
  (w.snapshots.filter fun entry ↦ entry.1 = self).map (·.2)

theorem heardBy_append (w : TokenWorld) (i j : ScopeId) (notice : Notice) :
    ({ w with heard := w.heard ++ [(i, notice)] } : TokenWorld).heardBy j =
      if i = j then w.heardBy j ++ [notice] else w.heardBy j := by
  simp only [heardBy, List.filter_append, List.filter_cons, List.filter_nil, decide_eq_true_eq]
  split <;> simp

end TokenWorld

/-- The books of a tracker: its lifetime is the sum of the decisions that it completed, and of its
intervals. -/
structure TrackerBooks (tracker : TokenUsageTracker) (usages : List DecisionTokenUsage)
    (snapshots : List TokenUsageSummary) : Prop where
  lifetime : tracker.lifetime = (usages.map MutableSummary.ofUsage).sum
  intervals : (snapshots.map (·.toMutableSummary)).sum + tracker.interval = tracker.lifetime
  interval_divided : tracker.interval.Divided
  lifetime_divided : tracker.lifetime.Divided
  snapshots_divided : ∀ snapshot ∈ snapshots, snapshot.Divided

variable {tracker : TokenUsageTracker} {usages : List DecisionTokenUsage}
  {snapshots : List TokenUsageSummary}

theorem TrackerBooks.add (h : TrackerBooks tracker usages snapshots) {usage : DecisionTokenUsage}
    (husage : usage.modelCalls = usage.usageReportedCalls + usage.usageMissingCalls) :
    TrackerBooks (tracker.add usage) (usages ++ [usage]) snapshots := by
  refine ⟨?_, ?_, h.interval_divided.add husage, h.lifetime_divided.add husage,
    h.snapshots_divided⟩
  · rw [List.map_append, List.sum_append, ← h.lifetime, List.map_singleton, List.sum_singleton]
    exact MutableSummary.add_eq _ _
  · calc (snapshots.map (·.toMutableSummary)).sum + tracker.interval.add usage
        = (snapshots.map (·.toMutableSummary)).sum + tracker.interval +
            MutableSummary.ofUsage usage := by rw [MutableSummary.add_eq, add_assoc]
      _ = tracker.lifetime.add usage := by rw [h.intervals, MutableSummary.add_eq]

theorem TrackerBooks.reset (h : TrackerBooks tracker usages snapshots) (now : ℚ) :
    TrackerBooks (tracker.snapshotInterval now true).2 usages
      (snapshots ++ [(tracker.snapshotInterval now true).1]) := by
  refine ⟨h.lifetime, ?_, rfl, h.lifetime_divided, ?_⟩
  · calc ((snapshots ++ [(tracker.snapshotInterval now true).1]).map (·.toMutableSummary)).sum + 0
        = (snapshots.map (·.toMutableSummary)).sum + tracker.interval := by
          rw [add_zero, List.map_append, List.sum_append, List.map_singleton, List.sum_singleton]
          rfl
      _ = tracker.lifetime := h.intervals
  · intro snapshot hsnapshot
    cases List.mem_append.1 hsnapshot with
    | inl hbefore => exact h.snapshots_divided snapshot hbefore
    | inr hnew => exact List.mem_singleton.1 hnew ▸ h.interval_divided

/-- The scopes follow what was heard, each completed decision is counted once, and the books of
every tracker balance. -/
structure Balanced (w : TokenWorld) : Prop where
  scopes : ∀ i scope, w.scopes[i]? = some scope →
    OpenBooks scope (w.heardBy i) ∨ ClosedBooks scope (w.heardBy i)
  heard : ∀ entry ∈ w.heard, entry.1 < w.scopes.length
  usages : ∀ entry ∈ w.usages, ∃ scope status now, w.scopes[entry.2.1]? = some scope ∧
    scope.completed = true ∧ entry.2.2 = scope.usage status now
  once : (w.usages.map (·.2.1)).Nodup
  trackers : ∀ self, TrackerBooks (w.trackers self) (w.usagesOf self) (w.snapshotsOf self)

theorem balanced_fresh (startedAt : TrackerId → ℚ) : Balanced (TokenWorld.fresh startedAt) :=
  ⟨fun i scope h ↦ absurd h (by simp [TokenWorld.fresh]),
    fun entry h ↦ absurd h List.not_mem_nil, fun entry h ↦ absurd h List.not_mem_nil,
    List.nodup_nil, fun self ↦ ⟨rfl, rfl, rfl, rfl, fun _ h ↦ absurd h List.not_mem_nil⟩⟩

variable {w : TokenWorld} {i : ScopeId} {scope : DecisionTokenScope}

theorem Balanced.startDecision (h : Balanced w) (new : DecisionTokenScope)
    (hnew : OpenBooks new []) (contexts : ContextId → Option DecisionBinding) :
    Balanced { w with scopes := w.scopes ++ [new], contexts } := by
  refine ⟨fun j scope hscope ↦ ?_, fun entry hentry ↦ ?_, fun entry hentry ↦ ?_, h.once, h.trackers⟩
  · rw [List.getElem?_append] at hscope
    split at hscope
    · exact h.scopes j scope hscope
    · have hnone : w.heardBy j = [] := by
        simp only [TokenWorld.heardBy, List.map_eq_nil_iff, List.filter_eq_nil_iff,
          decide_eq_true_eq]
        intro entry hentry heq
        exact absurd (heq ▸ h.heard entry hentry) ‹_›
      obtain rfl := List.mem_singleton.1 (List.mem_of_getElem? hscope)
      exact Or.inl (hnone ▸ hnew)
  · exact Nat.lt_of_lt_of_le (h.heard entry hentry) (by simp)
  · obtain ⟨scope, status, now, hscope, hcompleted, hentry⟩ := h.usages entry hentry
    refine ⟨scope, status, now, ?_, hcompleted, hentry⟩
    exact List.getElem?_append_left (List.getElem?_eq_some_iff.1 hscope).1 ▸ hscope

theorem DecisionTokenScope.record_of_completed (hcompleted : scope.completed = true)
    (notice : Notice) : scope.record notice = scope := by
  unfold record
  split
  · simp only [recordStart, hcompleted, if_true]
  · simp only [recordCompletion, hcompleted, if_true]

theorem Balanced.notify (h : Balanced w) (self : TrackerId) (context : ContextId)
    (notice : Notice) : Balanced (w.notify self context notice) := by
  unfold TokenWorld.notify
  split
  · exact h
  · rename_i i _
    split
    · exact h
    · rename_i scope hscope
      have hlt : i < w.scopes.length := (List.getElem?_eq_some_iff.1 hscope).1
      cases hcompleted : scope.completed with
      | true =>
        rw [DecisionTokenScope.record_of_completed hcompleted, if_pos rfl]
        have hset : w.scopes.set i scope = w.scopes := by
          obtain ⟨_, rfl⟩ := List.getElem?_eq_some_iff.1 hscope
          exact List.set_getElem_self hlt
        rw [hset]
        exact h
      | false =>
        rw [if_neg (by simp)]
        have hopen : OpenBooks scope (w.heardBy i) := by
          cases h.scopes i scope hscope with
          | inl hopen => exact hopen
          | inr hclosed => exact absurd hclosed.isCompleted (by simp [hcompleted])
        refine ⟨fun j scope' hscope' ↦ ?_, fun entry hentry ↦ ?_, fun entry hentry ↦ ?_, h.once,
          h.trackers⟩
        · have hheard := w.heardBy_append i j notice
          simp only [TokenWorld.heardBy] at hheard h hopen ⊢
          rw [hheard]
          by_cases heq : i = j
          · subst heq
            rw [if_pos rfl]
            rw [List.getElem?_set_self hlt] at hscope'
            obtain rfl := Option.some.inj hscope'
            exact Or.inl (hopen.record notice)
          · rw [if_neg heq]
            rw [List.getElem?_set_ne heq] at hscope'
            exact h.scopes j scope' hscope'
        · rw [List.length_set]
          cases List.mem_append.1 hentry with
          | inl hbefore => exact h.heard entry hbefore
          | inr hnew => exact List.mem_singleton.1 hnew ▸ hlt
        · obtain ⟨other, status, now, hother, hdone, hentry⟩ := h.usages entry hentry
          refine ⟨other, status, now, ?_, hdone, hentry⟩
          have hne : i ≠ entry.2.1 := by
            intro heq
            rw [← heq, hscope] at hother
            obtain rfl := Option.some.inj hother
            exact absurd hdone (by simp [hcompleted])
          rw [List.getElem?_set_ne hne]
          exact hother

/-- Of an open scope no decision has been completed yet. -/
theorem Balanced.not_mem_usages (h : Balanced w) (hscope : w.scopes[i]? = some scope)
    (hopen : scope.completed = false) : i ∉ w.usages.map (·.2.1) := by
  intro hmem
  obtain ⟨entry, hentry, rfl⟩ := List.mem_map.1 hmem
  obtain ⟨other, -, -, hother, hdone, -⟩ := h.usages entry hentry
  rw [hscope] at hother
  obtain rfl := Option.some.inj hother
  exact absurd hdone (by simp [hopen])

/-- A completed scope keeps its books, whatever becomes of its token and of the contexts. -/
theorem Balanced.complete (h : Balanced w) (hscope : w.scopes[i]? = some scope)
    (hopen : scope.completed = false) (self : TrackerId) (status : String) (now : ℚ)
    (token : Option ContextToken) (contexts : ContextId → Option DecisionBinding) :
    Balanced
      { w with
        trackers := Function.update w.trackers self
          ((w.trackers self).add (scope.complete.usage status now))
        scopes := w.scopes.set i { scope.complete with contextToken := token }
        usages := w.usages ++ [(self, i, scope.complete.usage status now)]
        contexts } := by
  have hlt : i < w.scopes.length := (List.getElem?_eq_some_iff.1 hscope).1
  have hnew := h.not_mem_usages hscope hopen
  have hclosed : ClosedBooks scope.complete (w.heardBy i) := by
    cases h.scopes i scope hscope with
    | inl hbooks => exact hbooks.complete
    | inr hclosed => exact absurd hclosed.isCompleted (by simp [hopen])
  refine ⟨fun j other hother ↦ ?_, fun entry hentry ↦ ?_, fun entry hentry ↦ ?_, ?_, fun other ↦ ?_⟩
  · by_cases heq : i = j
    · subst heq
      rw [List.getElem?_set_self hlt] at hother
      obtain rfl := Option.some.inj hother
      exact Or.inr ⟨⟨hclosed.modelCalls, hclosed.usageReportedCalls, hclosed.inputTokens,
        hclosed.outputTokens, hclosed.totalTokens⟩, rfl, hclosed.divided⟩
    · rw [List.getElem?_set_ne heq] at hother
      exact h.scopes j other hother
  · rw [List.length_set]
    exact h.heard entry hentry
  · cases List.mem_append.1 hentry with
    | inl hbefore =>
      obtain ⟨other, status, now, hother, hdone, hentry⟩ := h.usages entry hbefore
      have hne : i ≠ entry.2.1 := fun heq ↦ hnew (heq ▸ List.mem_map_of_mem hbefore)
      exact ⟨other, status, now, (List.getElem?_set_ne hne).trans hother, hdone, hentry⟩
    | inr hlast =>
      obtain rfl := List.mem_singleton.1 hlast
      exact ⟨_, status, now, List.getElem?_set_self hlt, rfl, rfl⟩
  · rw [List.map_append, List.map_singleton]
    refine List.nodup_append.2 ⟨h.once, List.nodup_singleton i, fun j hj k hk heq ↦ ?_⟩
    have hk : k = i := List.mem_singleton.1 hk
    exact hnew (hk ▸ heq ▸ hj)
  · have hbooks := h.trackers other
    simp only [TokenWorld.usagesOf, TokenWorld.snapshotsOf] at hbooks ⊢
    by_cases hself : self = other
    · subst hself
      simp only [Function.update_self, List.filter_append, List.map_append, List.filter_cons,
        List.filter_nil, decide_true, if_true, List.map_cons, List.map_nil]
      exact hbooks.add hclosed.divided
    · simp only [Function.update_of_ne (Ne.symm hself), List.filter_append, List.filter_cons,
        List.filter_nil, decide_eq_true_eq, if_neg hself, List.append_nil]
      exact hbooks

theorem Balanced.takeInterval (h : Balanced w) (self : TrackerId) (now : ℚ) (reset : Bool) :
    Balanced (w.takeInterval self now reset) := by
  refine ⟨h.scopes, h.heard, h.usages, h.once, fun other ↦ ?_⟩
  have hbooks := h.trackers other
  simp only [TokenWorld.usagesOf, TokenWorld.snapshotsOf, TokenWorld.takeInterval] at hbooks ⊢
  by_cases hself : self = other
  · subst hself
    cases reset with
    | false =>
      rw [Function.update_self]
      exact hbooks
    | true =>
      simp only [Function.update_self, if_true, List.filter_append, List.map_append,
        List.filter_cons, List.filter_nil, decide_true, List.map_cons, List.map_nil]
      exact hbooks.reset now
  · rw [Function.update_of_ne (Ne.symm hself)]
    cases reset with
    | false => exact hbooks
    | true =>
      simp only [if_true, List.filter_append, List.filter_cons, List.filter_nil,
        decide_eq_true_eq, if_neg hself, List.append_nil]
      exact hbooks

/-- Every call keeps the books balanced. -/
theorem Balanced.exec (w : TokenWorld) (call : TokenCall) (h : Balanced w) :
    Balanced (w.exec call) := by
  cases call with
  | startDecision self context eventId sessionId controlGeneration decisionLeaseId now =>
    exact h.startDecision _ (OpenBooks.new _ ⟨rfl, rfl, rfl, rfl, rfl, rfl, rfl, rfl⟩) _
  | spawn parent child => exact ⟨h.scopes, h.heard, h.usages, h.once, h.trackers⟩
  | recordModelStart self context runId => exact h.notify self context _
  | recordModelUsage self context runId inputTokens outputTokens totalTokens =>
    simp only [TokenWorld.exec, TokenWorld.recordModelUsage]
    split
    · exact h.notify self context _
    · exact h
  | recordModelUsageMissing self context runId => exact h.notify self context _
  | completeDecision self context i status now =>
    simp only [TokenWorld.exec, TokenWorld.completeDecision]
    split
    · exact h
    · rename_i scope hscope
      cases hcompleted : scope.completed with
      | true => simpa using h
      | false =>
        simp only [Bool.false_eq_true, if_false]
        split
        · exact h.complete hscope hcompleted self status now scope.complete.contextToken w.contexts
        · split
          · exact h.complete hscope hcompleted self status now none _
          · exact h.complete hscope hcompleted self status now scope.complete.contextToken w.contexts
  | snapshotInterval self now reset => exact h.takeInterval self now reset

/-- Two decisions are open at once; a run of the first one is reported from a task of its own, and
reported again. -/
def exampleCalls : List TokenCall :=
  [.startDecision 0 0 "event-1" "session-1" 1 "lease-1" 0,
    .startDecision 0 1 "event-2" "session-2" 1 "lease-2" 1, .spawn 0 2,
    .recordModelStart 0 2 (.str "a"), .recordModelUsage 0 2 (.str "a") (.int 7) (.int 3) (.int 10),
    .recordModelUsageMissing 0 0 (.str "a"), .recordModelStart 0 0 (.str "b"),
    .recordModelUsage 0 1 (.str "a") (.int 1) (.int 1) (.int 2),
    .completeDecision 0 0 0 "planned" 2, .snapshotInterval 0 3 true,
    .recordModelUsage 0 2 (.str "b") (.int 1) (.int 1) (.int 2),
    .completeDecision 0 1 1 "planned" 4]

end Totals

end LlmGateway.Llm
