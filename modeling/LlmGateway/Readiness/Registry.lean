import LlmGateway.Readiness.Service

/-!
# The registries of the workers

Each worker writes its state and the times of its heartbeats and polls into a registry, which the
readiness service reads (`worker_status.py`). A change of state invalidates the cached snapshot
(`main.py`).
-/

namespace LlmGateway.Readiness

inductive WorkerState
  | starting
  | running
  | draining
  | stopped
deriving DecidableEq

structure WorkerStatusRegistry where
  state : WorkerState := .stopped
  heartbeatMonotonic : Option ℚ := none
  lastSuccessfulPollMonotonic : Option ℚ := none
  deadLetterCount : ℕ := 0
  pollStartedMonotonic : Option ℚ := none
  pollCompletedMonotonic : Option ℚ := none
  lastProgressMonotonic : Option ℚ := none
  lastDatabaseErrorMonotonic : Option ℚ := none

/-- The methods of a registry. -/
inductive RegistryCall
  | setState (state : WorkerState)
  | heartbeat
  | markPollStarted
  | markPollCompleted
  | markProgress
  | markDatabaseError
  | markSuccessfulPoll
  | setDeadLetterCount (count : ℤ)

namespace WorkerStatusRegistry

variable (registry : WorkerStatusRegistry)

/-- One call at a time of the monotonic clock. A negative count raises. -/
def apply (now : ℚ) : RegistryCall → WorkerStatusRegistry
  | .setState state => { registry with state := state }
  | .heartbeat => { registry with heartbeatMonotonic := some now }
  | .markPollStarted =>
    { registry with pollStartedMonotonic := some (registry.heartbeatMonotonic.getD now) }
  | .markPollCompleted =>
    { registry with
      pollCompletedMonotonic :=
        registry.lastSuccessfulPollMonotonic.or registry.heartbeatMonotonic }
  | .markProgress =>
    { registry with lastProgressMonotonic := some (registry.heartbeatMonotonic.getD now) }
  | .markDatabaseError => { registry with lastDatabaseErrorMonotonic := some now }
  | .markSuccessfulPoll =>
    { registry with lastSuccessfulPollMonotonic := some now, pollCompletedMonotonic := some now }
  | .setDeadLetterCount count =>
    if count < 0 then registry else { registry with deadLetterCount := count.toNat }

/-- The call invokes `on_state_change`. -/
def notifies : RegistryCall → Bool
  | .setState state => registry.state ≠ state
  | _ => false

/-- `snapshot`, as far as the readiness service reads it. -/
def snapshot : WorkerStatus :=
  ⟨registry.state = .running, registry.heartbeatMonotonic, 0 < registry.deadLetterCount⟩

end WorkerStatusRegistry

inductive Worker
  | event
  | decision

/-- The readiness service and the registries that it reads. -/
structure ServiceProcess where
  eventWorker : WorkerStatusRegistry := {}
  decisionWorker : WorkerStatusRegistry := {}
  service : ReadinessService := ReadinessService.disable {}

/-- What happens next: a worker calls its registry, or something happens to the service. -/
inductive ProcessStep
  | registry (worker : Worker) (call : RegistryCall)
  | pass (elapsed : ℚ) (nonneg : 0 ≤ elapsed)
  | begin
  | acquire (call : ℕ) (checkedAtMs : ℤ)
  | finish (call : ℕ) (database embedding rerank : ProbeEnd)
  | cancel (call : ℕ)
  | enable
  | disable

namespace ServiceProcess

variable (p : ServiceProcess)

def registry : Worker → WorkerStatusRegistry
  | .event => p.eventWorker
  | .decision => p.decisionWorker

def setRegistry (registry : WorkerStatusRegistry) : Worker → ServiceProcess
  | .event => { p with eventWorker := registry }
  | .decision => { p with decisionWorker := registry }

/-- The registries are read when the probes have ended. -/
def probeResults (database embedding rerank : ProbeEnd) : ProbeResults :=
  ⟨database, embedding, rerank, p.eventWorker.snapshot, p.decisionWorker.snapshot⟩

variable (settings : ReadinessSettings)

/-- A call of a registry; a change of state invalidates the cached snapshot. -/
def callRegistry (worker : Worker) (call : RegistryCall) : ServiceProcess :=
  let registry := p.registry worker
  let changed := p.setRegistry (registry.apply p.service.now call) worker
  if registry.notifies call then { changed with service := p.service.invalidate } else changed

def onService (happening : Happening) : ServiceProcess :=
  { p with service := p.service.step settings happening }

def step : ProcessStep → ServiceProcess
  | .registry worker call => p.callRegistry worker call
  | .pass elapsed nonneg => p.onService settings (.pass elapsed nonneg)
  | .begin => p.onService settings .begin
  | .acquire call checkedAtMs => p.onService settings (.acquire call checkedAtMs)
  | .finish call database embedding rerank =>
    p.onService settings (.finish call (p.probeResults database embedding rerank))
  | .cancel call => p.onService settings (.cancel call)
  | .enable => p.onService settings .enable
  | .disable => p.onService settings .disable

def run : ServiceProcess → List ProcessStep → ServiceProcess
  | p, [] => p
  | p, s :: steps => run (p.step settings s) steps

end ServiceProcess

end LlmGateway.Readiness
