import LlmGateway.Relational.Transition
import Mathlib.Algebra.Order.Ring.Rat

/-!
# The readiness service

A call of `snapshot` answers from the cache, or waits for the lock, looks at the cache again and
probes (`readiness.py`). What it has found goes to the cache unless the service has been enabled,
disabled or invalidated since the probing began. Between its waits a call runs in one stretch.
-/

namespace LlmGateway.Readiness

inductive CheckStatus
  | ready
  | notReady
  | disabled
deriving DecidableEq

structure ReadinessCheck where
  status : CheckStatus
  category : String
  checkedAtMs : ℤ
deriving DecidableEq

/-- The five checks of a snapshot. -/
structure ReadinessChecks where
  database : ReadinessCheck
  eventWorker : ReadinessCheck
  decisionWorker : ReadinessCheck
  embedding : ReadinessCheck
  rerank : ReadinessCheck
deriving DecidableEq

inductive ReadinessStatus
  | ready
  | notReady
deriving DecidableEq

structure ReadinessSnapshot where
  status : ReadinessStatus
  checks : ReadinessChecks
deriving DecidableEq

structure ReadinessSettings where
  v2Enabled : Bool
  embeddingEnabled : Bool
  rerankEnabled : Bool
  workerFreshSeconds : ℚ
  cacheSeconds : ℚ

/-- How a probe ends. -/
inductive ProbeEnd
  | ok
  | timeout
  | probeError (category : String)
  | raised

/-- `_run_probe` -/
def runProbe (failureCategory : String) (checkedAtMs : ℤ) : ProbeEnd → ReadinessCheck
  | .ok => ⟨.ready, "ok", checkedAtMs⟩
  | .timeout => ⟨.notReady, "timeout", checkedAtMs⟩
  | .probeError category => ⟨.notReady, category, checkedAtMs⟩
  | .raised => ⟨.notReady, failureCategory, checkedAtMs⟩

/-- `_run_optional_probe` -/
def runOptionalProbe (enabled : Bool) (failureCategory : String) (checkedAtMs : ℤ)
    (result : ProbeEnd) : ReadinessCheck :=
  if enabled then runProbe failureCategory checkedAtMs result
  else ⟨.disabled, "skipped", checkedAtMs⟩

/-- The snapshot of a worker's registry. -/
structure WorkerStatus where
  running : Bool
  heartbeatMonotonic : Option ℚ
  degraded : Bool

/-- `_check_worker` -/
def checkWorker (settings : ReadinessSettings) (now : ℚ) (checkedAtMs : ℤ) (worker : WorkerStatus) :
    ReadinessCheck :=
  if settings.v2Enabled = false then ⟨.disabled, "skipped", checkedAtMs⟩
  else if worker.running = false then ⟨.notReady, "worker_not_running", checkedAtMs⟩
  else
    match worker.heartbeatMonotonic with
    | none => ⟨.notReady, "heartbeat_missing", checkedAtMs⟩
    | some heartbeat =>
      if settings.workerFreshSeconds < now - heartbeat then
        ⟨.notReady, "heartbeat_stale", checkedAtMs⟩
      else ⟨.ready, if worker.degraded then "degraded" else "ok", checkedAtMs⟩

/-- What the probes of a snapshot find. -/
structure ProbeResults where
  database : ProbeEnd
  embedding : ProbeEnd
  rerank : ProbeEnd
  eventWorker : WorkerStatus
  decisionWorker : WorkerStatus

/-- The snapshot of a service that is not enabled. -/
def unavailableSnapshot (checkedAtMs : ℤ) : ReadinessSnapshot :=
  let unavailable : ReadinessCheck := ⟨.notReady, "service_unavailable", checkedAtMs⟩
  ⟨.notReady, ⟨unavailable, unavailable, unavailable, unavailable, unavailable⟩⟩

/-- The snapshot at the end of the probes. -/
def probedSnapshot (settings : ReadinessSettings) (now : ℚ) (checkedAtMs : ℤ)
    (results : ProbeResults) : ReadinessSnapshot :=
  let database := runProbe "database_unavailable" checkedAtMs results.database
  let embedding := runOptionalProbe settings.embeddingEnabled "embedding_unavailable" checkedAtMs
    results.embedding
  let rerank := runOptionalProbe settings.rerankEnabled "rerank_unavailable" checkedAtMs
    results.rerank
  let eventWorker := checkWorker settings now checkedAtMs results.eventWorker
  let decisionWorker := checkWorker settings now checkedAtMs results.decisionWorker
  let ready := ∀ check ∈ [database, eventWorker, decisionWorker, embedding, rerank],
    check.status ≠ .notReady
  ⟨if ready then .ready else .notReady, ⟨database, eventWorker, decisionWorker, embedding, rerank⟩⟩

/-- Where a call of `snapshot` stands. -/
inductive SnapshotCall
  | waiting
  | probing (generation : ℕ) (checkedAtMs : ℤ)
  /-- It has returned a snapshot from the cache. -/
  | cached (snapshot : ReadinessSnapshot)
  /-- It has returned what it has probed. -/
  | probed (snapshot : ReadinessSnapshot)
  | cancelled
deriving DecidableEq

/-- The service with the monotonic clock, the holder of the lock, and the calls of `snapshot`. -/
structure ReadinessService where
  now : ℚ := 0
  cachedSnapshot : Option ReadinessSnapshot := none
  cachedAtMonotonic : Option ℚ := none
  cacheGeneration : ℕ := 0
  enabled : Bool := true
  lock : Option ℕ := none
  calls : List SnapshotCall := []

namespace ReadinessService

variable (settings : ReadinessSettings) (s : ReadinessService)

/-- `_get_cached_snapshot` -/
def getCachedSnapshot : Option ReadinessSnapshot :=
  match s.cachedSnapshot, s.cachedAtMonotonic with
  | some snapshot, some cachedAt =>
    if settings.cacheSeconds ≤ s.now - cachedAt then none else some snapshot
  | _, _ => none

def invalidate : ReadinessService :=
  { s with
    cacheGeneration := s.cacheGeneration + 1
    cachedSnapshot := none
    cachedAtMonotonic := none }

def enable : ReadinessService := { s with enabled := true }.invalidate

def disable : ReadinessService := { s with enabled := false }.invalidate

/-- A snapshot goes to the cache if nothing was invalidated since this generation. -/
def store (generation : ℕ) (snapshot : ReadinessSnapshot) : ReadinessService :=
  if generation = s.cacheGeneration then
    { s with cachedSnapshot := some snapshot, cachedAtMonotonic := some s.now }
  else s

/-- `snapshot`, up to the lock. -/
def begin : ReadinessService :=
  match s.getCachedSnapshot settings with
  | some snapshot => { s with calls := s.calls ++ [.cached snapshot] }
  | none => { s with calls := s.calls ++ [.waiting] }

/-- The call gets the lock. It holds it as long as it probes; a service that is not enabled is not
probed. -/
def acquire (call : ℕ) (checkedAtMs : ℤ) : ReadinessService :=
  match s.getCachedSnapshot settings with
  | some snapshot => { s with calls := s.calls.set call (.cached snapshot) }
  | none =>
    if s.enabled then
      { s with
        lock := some call
        calls := s.calls.set call (.probing s.cacheGeneration checkedAtMs) }
    else
      { s.store s.cacheGeneration (unavailableSnapshot checkedAtMs) with
        calls := s.calls.set call (.probed (unavailableSnapshot checkedAtMs)) }

/-- The probes of the call have ended. -/
def finish (call generation : ℕ) (checkedAtMs : ℤ) (results : ProbeResults) : ReadinessService :=
  let snapshot := probedSnapshot settings s.now checkedAtMs results
  { s.store generation snapshot with
    lock := none
    calls := s.calls.set call (.probed snapshot) }

end ReadinessService

/-- What happens next: time passes, a call begins, gets the lock, ends its probes or is cancelled,
or the service is changed. -/
inductive Happening
  | pass (elapsed : ℚ) (nonneg : 0 ≤ elapsed)
  | begin
  | acquire (call : ℕ) (checkedAtMs : ℤ)
  | finish (call : ℕ) (results : ProbeResults)
  | cancel (call : ℕ)
  | enable
  | disable
  | invalidate

/-- What cannot happen changes nothing. -/
def ReadinessService.step (settings : ReadinessSettings) (s : ReadinessService) :
    Happening → ReadinessService
  | .pass elapsed _ => { s with now := s.now + elapsed }
  | .begin => s.begin settings
  | .acquire call checkedAtMs =>
    if s.calls[call]? = some .waiting ∧ s.lock = none then s.acquire settings call checkedAtMs else s
  | .finish call results =>
    match s.calls[call]? with
    | some (.probing generation checkedAtMs) => s.finish settings call generation checkedAtMs results
    | _ => s
  | .cancel call =>
    match s.calls[call]? with
    | some .waiting => { s with calls := s.calls.set call .cancelled }
    | some (.probing _ _) => { s with lock := none, calls := s.calls.set call .cancelled }
    | _ => s
  | .enable => s.enable
  | .disable => s.disable
  | .invalidate => s.invalidate

end LlmGateway.Readiness
