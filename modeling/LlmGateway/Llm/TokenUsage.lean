import LlmGateway.Relational.OrderedDict
import LlmGateway.Relational.Transition
import Mathlib.Algebra.Group.Defs
import Mathlib.Algebra.Order.Ring.Rat

/-!
# Token usage of decisions

A tracker binds the scope of a decision to the context in which the decision is made. The callbacks
of the model runs reach the scope that is bound in their own context, in any order and more than
once. A completed decision adds what its scope has counted to the open interval and to the
lifetime of the tracker that completes it; a snapshot may begin a new interval.
-/

namespace LlmGateway.Llm

open Relational (OrderedDict)

/-- A value given as a count of tokens. -/
inductive GivenCount
  | bool (value : Bool)
  | int (value : ℤ)
  | other

/-- `_token_count` -/
def tokenCount : GivenCount → Option ℕ
  | .int value => if value < 0 then none else some value.toNat
  | _ => none

/-- A run id as it is given; its key is its text. -/
inductive RunId
  | uuid (text : String)
  | str (text : String)

def runKey : RunId → String
  | .uuid text => text
  | .str text => text

structure TokenUsage where
  inputTokens : ℕ
  outputTokens : ℕ
  totalTokens : ℕ
deriving DecidableEq

@[ext] structure MutableSummary where
  decisionCount : ℕ := 0
  modelCalls : ℕ := 0
  usageReportedCalls : ℕ := 0
  usageMissingCalls : ℕ := 0
  inputTokens : ℕ := 0
  outputTokens : ℕ := 0
  totalTokens : ℕ := 0
deriving DecidableEq

structure DecisionTokenUsage where
  eventId : String
  sessionId : String
  controlGeneration : ℤ
  decisionLeaseId : String
  decisionStatus : String
  modelCalls : ℕ
  usageReportedCalls : ℕ
  usageMissingCalls : ℕ
  inputTokens : ℕ
  outputTokens : ℕ
  totalTokens : ℕ
  elapsedMs : ℚ

def MutableSummary.add (summary : MutableSummary) (usage : DecisionTokenUsage) :
    MutableSummary where
  decisionCount := summary.decisionCount + 1
  modelCalls := summary.modelCalls + usage.modelCalls
  usageReportedCalls := summary.usageReportedCalls + usage.usageReportedCalls
  usageMissingCalls := summary.usageMissingCalls + usage.usageMissingCalls
  inputTokens := summary.inputTokens + usage.inputTokens
  outputTokens := summary.outputTokens + usage.outputTokens
  totalTokens := summary.totalTokens + usage.totalTokens

structure TokenUsageSummary extends MutableSummary where
  windowSeconds : ℚ
  processUptimeSeconds : ℚ

structure ModelRun where
  completed : Bool := false
deriving DecidableEq

/-- A notice of a model run: its key, and the usage that completes it unless it only starts. -/
structure Notice where
  key : String
  completion : Option (Option TokenUsage)
deriving DecidableEq

abbrev TrackerId := ℕ

abbrev ScopeId := ℕ

abbrev ContextId := ℕ

/-- What the context variable holds. -/
structure DecisionBinding where
  tracker : TrackerId
  scope : ScopeId
deriving DecidableEq

/-- The token of an assignment to the context variable. -/
structure ContextToken where
  context : ContextId
  previous : Option DecisionBinding

structure DecisionTokenScope where
  eventId : String
  sessionId : String
  controlGeneration : ℤ
  decisionLeaseId : String
  startedAt : ℚ
  modelCalls : ℕ := 0
  usageReportedCalls : ℕ := 0
  usageMissingCalls : ℕ := 0
  inputTokens : ℕ := 0
  outputTokens : ℕ := 0
  totalTokens : ℕ := 0
  runs : OrderedDict String ModelRun := ∅
  completed : Bool := false
  contextToken : Option ContextToken := none

namespace DecisionTokenScope

/-- The first notice of a run counts the run. -/
def register (scope : DecisionTokenScope) (key : String) : DecisionTokenScope :=
  match scope.runs.lookup key with
  | some _ => scope
  | none =>
    { scope with
      runs := scope.runs.insert key {}
      modelCalls := scope.modelCalls + 1 }

/-- The scope's part of `record_model_start`. -/
def recordStart (scope : DecisionTokenScope) (key : String) : DecisionTokenScope :=
  if scope.completed then scope else scope.register key

/-- The counters that a completed run moves: those of its usage, or that of the missing ones. -/
def count (scope : DecisionTokenScope) : Option TokenUsage → DecisionTokenScope
  | some usage =>
    { scope with
      usageReportedCalls := scope.usageReportedCalls + 1
      inputTokens := scope.inputTokens + usage.inputTokens
      outputTokens := scope.outputTokens + usage.outputTokens
      totalTokens := scope.totalTokens + usage.totalTokens }
  | none => { scope with usageMissingCalls := scope.usageMissingCalls + 1 }

/-- The scope's part of `record_model_usage`, and, without a usage, of
`record_model_usage_missing`. -/
def recordCompletion (scope : DecisionTokenScope) (key : String) (usage : Option TokenUsage) :
    DecisionTokenScope :=
  if scope.completed then scope
  else
    let scope := scope.register key
    if (scope.runs.lookup key).any (·.completed) then scope
    else { scope.count usage with runs := scope.runs.insert key { completed := true } }

/-- What a notice does to the scope. -/
def record (scope : DecisionTokenScope) (notice : Notice) : DecisionTokenScope :=
  match notice.completion with
  | none => scope.recordStart notice.key
  | some usage => scope.recordCompletion notice.key usage

/-- The counters of `complete_decision`: the runs that are still open are missing. -/
def complete (scope : DecisionTokenScope) : DecisionTokenScope :=
  { scope with
    usageMissingCalls :=
      scope.usageMissingCalls + scope.runs.entries.countP fun e ↦ !e.2.completed
    runs := scope.runs.mapValues fun _ ↦ { completed := true }
    completed := true }

def usage (scope : DecisionTokenScope) (decisionStatus : String) (now : ℚ) :
    DecisionTokenUsage where
  eventId := scope.eventId
  sessionId := scope.sessionId
  controlGeneration := scope.controlGeneration
  decisionLeaseId := scope.decisionLeaseId
  decisionStatus := decisionStatus
  modelCalls := scope.modelCalls
  usageReportedCalls := scope.usageReportedCalls
  usageMissingCalls := scope.usageMissingCalls
  inputTokens := scope.inputTokens
  outputTokens := scope.outputTokens
  totalTokens := scope.totalTokens
  elapsedMs := (now - scope.startedAt) * 1000

end DecisionTokenScope

structure TokenUsageTracker where
  processStartedAt : ℚ
  windowStartedAt : ℚ
  interval : MutableSummary := {}
  lifetime : MutableSummary := {}

/-- `_summary_snapshot` -/
def summarySnapshot (source : MutableSummary) (windowSeconds processUptimeSeconds : ℚ) :
    TokenUsageSummary :=
  { source with windowSeconds, processUptimeSeconds }

namespace TokenUsageTracker

def add (tracker : TokenUsageTracker) (usage : DecisionTokenUsage) : TokenUsageTracker :=
  { tracker with
    interval := tracker.interval.add usage
    lifetime := tracker.lifetime.add usage }

def snapshotInterval (tracker : TokenUsageTracker) (now : ℚ) (reset : Bool) :
    TokenUsageSummary × TokenUsageTracker :=
  (summarySnapshot tracker.interval (now - tracker.windowStartedAt)
      (now - tracker.processStartedAt),
    if reset then { tracker with interval := {}, windowStartedAt := now } else tracker)

def snapshotLifetime (tracker : TokenUsageTracker) (now : ℚ) : TokenUsageSummary :=
  summarySnapshot tracker.lifetime (now - tracker.processStartedAt) (now - tracker.processStartedAt)

end TokenUsageTracker

/-- The trackers, the scopes by their numbers, and the contexts of the tasks. The last three fields
record what happened: the notices that reached an open scope, the usages of the decisions that
were completed, and the snapshots that began a new interval. -/
structure TokenWorld where
  trackers : TrackerId → TokenUsageTracker
  scopes : List DecisionTokenScope := []
  contexts : ContextId → Option DecisionBinding := fun _ ↦ none
  heard : List (ScopeId × Notice) := []
  usages : List (TrackerId × ScopeId × DecisionTokenUsage) := []
  snapshots : List (TrackerId × TokenUsageSummary) := []

namespace TokenWorld

/-- The trackers as they are created. -/
def fresh (startedAt : TrackerId → ℚ) : TokenWorld where
  trackers self := { processStartedAt := startedAt self, windowStartedAt := startedAt self }

def startDecision (w : TokenWorld) (self : TrackerId) (context : ContextId)
    (eventId sessionId : String) (controlGeneration : ℤ) (decisionLeaseId : String) (now : ℚ) :
    TokenWorld :=
  { w with
    scopes := w.scopes ++
      [{ eventId, sessionId, controlGeneration, decisionLeaseId, startedAt := now
         contextToken := some { context, previous := w.contexts context } }]
    contexts := Function.update w.contexts context
      (some { tracker := self, scope := w.scopes.length }) }

/-- The scope that the context binds for this tracker. -/
def bound (w : TokenWorld) (self : TrackerId) (context : ContextId) : Option ScopeId :=
  (w.contexts context).bind fun binding ↦
    if binding.tracker = self then some binding.scope else none

/-- A notice to the tracker reaches the scope bound in the caller's context. -/
def notify (w : TokenWorld) (self : TrackerId) (context : ContextId) (notice : Notice) :
    TokenWorld :=
  match w.bound self context with
  | none => w
  | some i =>
    match w.scopes[i]? with
    | none => w
    | some scope =>
      { w with
        scopes := w.scopes.set i (scope.record notice)
        heard := if scope.completed then w.heard else w.heard ++ [(i, notice)] }

def recordModelStart (w : TokenWorld) (self : TrackerId) (context : ContextId) (runId : RunId) :
    TokenWorld :=
  w.notify self context { key := runKey runId, completion := none }

/-- Counts that are not non-negative integers are a value error. -/
def recordModelUsage (w : TokenWorld) (self : TrackerId) (context : ContextId) (runId : RunId)
    (inputTokens outputTokens totalTokens : GivenCount) : TokenWorld :=
  match tokenCount inputTokens, tokenCount outputTokens, tokenCount totalTokens with
  | some inputTokens, some outputTokens, some totalTokens =>
    w.notify self context
      { key := runKey runId, completion := some (some { inputTokens, outputTokens, totalTokens }) }
  | _, _, _ => w

def recordModelUsageMissing (w : TokenWorld) (self : TrackerId) (context : ContextId)
    (runId : RunId) : TokenWorld :=
  w.notify self context { key := runKey runId, completion := some none }

/-- Completing a scope again is a runtime error. The binding is taken back in the context in which
it was made; in another one the token is refused, after the totals are counted. -/
def completeDecision (w : TokenWorld) (self : TrackerId) (context : ContextId) (i : ScopeId)
    (decisionStatus : String) (now : ℚ) : TokenWorld :=
  match w.scopes[i]? with
  | none => w
  | some scope =>
    if scope.completed then w
    else
      let scope := scope.complete
      let usage := scope.usage decisionStatus now
      let counted :=
        { w with
          trackers := Function.update w.trackers self ((w.trackers self).add usage)
          scopes := w.scopes.set i scope
          usages := w.usages ++ [(self, i, usage)] }
      match scope.contextToken with
      | none => counted
      | some token =>
        if token.context = context then
          { counted with
            scopes := w.scopes.set i { scope with contextToken := none }
            contexts := Function.update w.contexts context token.previous }
        else counted

def takeInterval (w : TokenWorld) (self : TrackerId) (now : ℚ) (reset : Bool) : TokenWorld :=
  let taken := (w.trackers self).snapshotInterval now reset
  { w with
    trackers := Function.update w.trackers self taken.2
    snapshots := if reset then w.snapshots ++ [(self, taken.1)] else w.snapshots }

end TokenWorld

/-- A call of a tracker, or a task that begins with a copy of another one's context. -/
inductive TokenCall
  | startDecision (self : TrackerId) (context : ContextId) (eventId sessionId : String)
      (controlGeneration : ℤ) (decisionLeaseId : String) (now : ℚ)
  | spawn (parent child : ContextId)
  | recordModelStart (self : TrackerId) (context : ContextId) (runId : RunId)
  | recordModelUsage (self : TrackerId) (context : ContextId) (runId : RunId)
      (inputTokens outputTokens totalTokens : GivenCount)
  | recordModelUsageMissing (self : TrackerId) (context : ContextId) (runId : RunId)
  | completeDecision (self : TrackerId) (context : ContextId) (scope : ScopeId)
      (decisionStatus : String) (now : ℚ)
  | snapshotInterval (self : TrackerId) (now : ℚ) (reset : Bool)

def TokenWorld.exec (w : TokenWorld) : TokenCall → TokenWorld
  | .startDecision self context eventId sessionId controlGeneration decisionLeaseId now =>
    w.startDecision self context eventId sessionId controlGeneration decisionLeaseId now
  | .spawn parent child =>
    { w with contexts := Function.update w.contexts child (w.contexts parent) }
  | .recordModelStart self context runId => w.recordModelStart self context runId
  | .recordModelUsage self context runId inputTokens outputTokens totalTokens =>
    w.recordModelUsage self context runId inputTokens outputTokens totalTokens
  | .recordModelUsageMissing self context runId => w.recordModelUsageMissing self context runId
  | .completeDecision self context scope decisionStatus now =>
    w.completeDecision self context scope decisionStatus now
  | .snapshotInterval self now reset => w.takeInterval self now reset

end LlmGateway.Llm
