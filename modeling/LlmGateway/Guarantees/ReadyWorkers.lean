import LlmGateway.Guarantees.Readiness
import LlmGateway.Readiness.Registry
import Mathlib.Tactic.Linarith

/-!
# Ready means that the workers run

A change of a worker's state drops the cached snapshot, so a call that finds the service ready
returns while both workers are running, whether the answer was probed or cached.
-/

namespace LlmGateway.Readiness

variable {settings : ReadinessSettings}

/-- The worker is running and has given a heartbeat not long before the time. -/
def WorkerStatusRegistry.Alive (registry : WorkerStatusRegistry) (time within : ℚ) : Prop :=
  registry.state = .running ∧
    ∃ heartbeat, registry.heartbeatMonotonic = some heartbeat ∧ time - heartbeat ≤ within

/-! ## Probes -/

theorem checkWorker_ne_notReady {registry : WorkerStatusRegistry} {now : ℚ} {checkedAtMs : ℤ}
    (hv2 : settings.v2Enabled = true)
    (h : (checkWorker settings now checkedAtMs registry.snapshot).status ≠ .notReady) :
    registry.Alive now settings.workerFreshSeconds := by
  have hdisabled : ¬settings.v2Enabled = false := by rw [hv2]; exact Bool.noConfusion
  unfold checkWorker at h
  rw [if_neg hdisabled] at h
  by_cases hrunning : registry.snapshot.running = false
  · rw [if_pos hrunning] at h
    exact absurd rfl h
  · rw [if_neg hrunning] at h
    have hstate : registry.state = .running := by
      by_contra hne
      exact hrunning (decide_eq_false hne)
    cases hheartbeat : registry.heartbeatMonotonic with
    | none =>
      have hnone : registry.snapshot.heartbeatMonotonic = none := hheartbeat
      rw [hnone] at h
      exact absurd rfl h
    | some heartbeat =>
      have hsome : registry.snapshot.heartbeatMonotonic = some heartbeat := hheartbeat
      rw [hsome] at h
      by_cases hstale : settings.workerFreshSeconds < now - heartbeat
      · simp only [if_pos hstale] at h
        exact absurd rfl h
      · exact ⟨hstate, heartbeat, hheartbeat, not_lt.1 hstale⟩

/-- What is probed is ready only if both workers are alive. -/
theorem alive_of_probed {p : ServiceProcess} {now : ℚ} {checkedAtMs : ℤ}
    {database embedding rerank : ProbeEnd} (hv2 : settings.v2Enabled = true)
    (h : (probedSnapshot settings now checkedAtMs
      (p.probeResults database embedding rerank)).status = .ready) (worker : Worker) :
    (p.registry worker).Alive now settings.workerFreshSeconds := by
  unfold probedSnapshot at h
  simp only at h
  split_ifs at h with hready
  cases worker with
  | event =>
    exact checkWorker_ne_notReady hv2 (hready _ (List.mem_cons_of_mem _ List.mem_cons_self))
  | decision =>
    exact checkWorker_ne_notReady hv2
      (hready _ (List.mem_cons_of_mem _ (List.mem_cons_of_mem _ List.mem_cons_self)))

/-! ## Registries -/

/-- No heartbeat lies in the future. -/
def WorkerStatusRegistry.Past (registry : WorkerStatusRegistry) (now : ℚ) : Prop :=
  ∀ heartbeat ∈ registry.heartbeatMonotonic, heartbeat ≤ now

theorem WorkerStatusRegistry.Past.apply {registry : WorkerStatusRegistry} {now : ℚ}
    (h : registry.Past now) (call : RegistryCall) : (registry.apply now call).Past now := by
  cases call with
  | heartbeat =>
    intro heartbeat hheartbeat
    exact (Option.some.inj hheartbeat).ge
  | setDeadLetterCount count =>
    unfold WorkerStatusRegistry.apply
    simp only
    split_ifs <;> exact h
  | setState _ | markPollStarted | markPollCompleted | markProgress | markDatabaseError
  | markSuccessfulPoll => exact h

/-- A call that does not notify keeps the worker alive. -/
theorem WorkerStatusRegistry.Alive.apply {registry : WorkerStatusRegistry} {time within now : ℚ}
    (h : registry.Alive time within) (hpast : registry.Past now) {call : RegistryCall}
    (hquiet : registry.notifies call = false) : (registry.apply now call).Alive time within := by
  obtain ⟨hstate, heartbeat, hheartbeat, hle⟩ := h
  cases call with
  | setState state =>
    have hsame : registry.state = state := not_not.1 (of_decide_eq_false hquiet)
    exact ⟨hsame ▸ hstate, heartbeat, hheartbeat, hle⟩
  | heartbeat =>
    have hnow := hpast heartbeat hheartbeat
    exact ⟨hstate, now, rfl, by linarith⟩
  | setDeadLetterCount count =>
    unfold WorkerStatusRegistry.apply
    simp only
    split_ifs <;> exact ⟨hstate, heartbeat, hheartbeat, hle⟩
  | markPollStarted | markPollCompleted | markProgress | markDatabaseError | markSuccessfulPoll =>
    exact ⟨hstate, heartbeat, hheartbeat, hle⟩

theorem WorkerStatusRegistry.Alive.mono {registry : WorkerStatusRegistry}
    {time within within' : ℚ} (h : registry.Alive time within) (hle : within ≤ within') :
    registry.Alive time within' := by
  obtain ⟨hstate, heartbeat, hheartbeat, hwithin⟩ := h
  exact ⟨hstate, heartbeat, hheartbeat, hwithin.trans hle⟩

/-! ## Steps -/

theorem le_step_now (s : ReadinessService) (a : Happening) : s.now ≤ (s.step settings a).now := by
  cases a with
  | pass elapsed nonneg => exact le_add_of_nonneg_right nonneg
  | begin =>
    simp only [ReadinessService.step, ReadinessService.begin]
    split <;> exact le_rfl
  | acquire call checkedAtMs =>
    simp only [ReadinessService.step, ReadinessService.acquire]
    split
    · split
      · exact le_rfl
      · split
        · exact le_rfl
        · exact (store_now _ _).ge
    · exact le_rfl
  | finish call results =>
    simp only [ReadinessService.step]
    split
    · exact (store_now _ _).ge
    · exact le_rfl
  | cancel call =>
    simp only [ReadinessService.step]
    split <;> exact le_rfl
  | enable | disable | invalidate => exact le_rfl

namespace ServiceProcess

variable {p : ServiceProcess}

/-- While a ready snapshot is in the cache, the workers it was probed of are running. -/
structure Sound (settings : ReadinessSettings) (p : ServiceProcess) : Prop where
  past : ∀ worker, (p.registry worker).Past p.service.now
  cached : ∀ snapshot, p.service.cachedSnapshot = some snapshot → snapshot.status = .ready →
    ∃ cachedAt, p.service.cachedAtMonotonic = some cachedAt ∧
      ∀ worker, (p.registry worker).Alive cachedAt settings.workerFreshSeconds

/-- The registries are read when the probes end. -/
def Reads (p : ServiceProcess) (a : Happening) : Prop :=
  ∀ call results, a = .finish call results →
    ∃ database embedding rerank, results = p.probeResults database embedding rerank

theorem Sound.onService (hv2 : settings.v2Enabled = true) (h : p.Sound settings) {a : Happening}
    (ha : p.Reads a) : (p.onService settings a).Sound settings := by
  constructor
  · intro worker heartbeat hheartbeat
    have hle : heartbeat ≤ p.service.now := by
      cases worker with
      | event => exact h.past .event heartbeat hheartbeat
      | decision => exact h.past .decision heartbeat hheartbeat
    exact hle.trans (le_step_now _ _)
  · intro snapshot hsnapshot hready
    rcases step_cachedSnapshot hsnapshot with ⟨-, hbefore, hat⟩ | ⟨call, hstores, -, hat, -⟩
    · obtain ⟨cachedAt, hcachedAt, halive⟩ := h.cached snapshot hbefore hready
      refine ⟨cachedAt, hat.trans hcachedAt, fun worker ↦ ?_⟩
      cases worker with
      | event => exact halive .event
      | decision => exact halive .decision
    · refine ⟨p.service.now, hat, fun worker ↦ ?_⟩
      cases hstores with
      | refused _ _ => cases hready
      | ended hprobing =>
        obtain ⟨database, embedding, rerank, rfl⟩ := ha call _ rfl
        cases worker with
        | event => exact alive_of_probed hv2 hready .event
        | decision => exact alive_of_probed hv2 hready .decision

@[simp] theorem setRegistry_service (registry : WorkerStatusRegistry) (worker : Worker) :
    (p.setRegistry registry worker).service = p.service := by
  cases worker <;> rfl

/-- A property of all registries that the call keeps. -/
theorem forall_setRegistry {P : WorkerStatusRegistry → Prop} (h : ∀ worker, P (p.registry worker))
    {registry : WorkerStatusRegistry} (hregistry : P registry) (worker other : Worker) :
    P ((p.setRegistry registry worker).registry other) := by
  cases worker with
  | event =>
    cases other with
    | event => exact hregistry
    | decision => exact h .decision
  | decision =>
    cases other with
    | event => exact h .event
    | decision => exact hregistry

theorem Sound.callRegistry (h : p.Sound settings) (worker : Worker) (call : RegistryCall) :
    (p.callRegistry worker call).Sound settings := by
  have hpast := forall_setRegistry (P := fun registry ↦ registry.Past p.service.now) h.past
    ((h.past worker).apply call) worker
  unfold ServiceProcess.callRegistry
  simp only
  split_ifs with hnotifies
  · refine ⟨fun other ↦ ?_, fun snapshot hsnapshot ↦ by cases hsnapshot⟩
    cases other with
    | event => exact hpast .event
    | decision => exact hpast .decision
  · refine ⟨fun other ↦ ?_, fun snapshot hsnapshot hready ↦ ?_⟩
    · rw [setRegistry_service]
      exact hpast other
    · rw [setRegistry_service] at hsnapshot ⊢
      obtain ⟨cachedAt, hcachedAt, halive⟩ := h.cached snapshot hsnapshot hready
      have hkept := (halive worker).apply (h.past worker) (Bool.eq_false_of_not_eq_true hnotifies)
      exact ⟨cachedAt, hcachedAt, forall_setRegistry
        (P := fun registry ↦ registry.Alive cachedAt settings.workerFreshSeconds) halive hkept
        worker⟩

/-- A step is a call of a registry, or happens to the service. -/
theorem step_cases (p : ServiceProcess) (s : ProcessStep) :
    (∃ worker call, p.step settings s = p.callRegistry worker call) ∨
      ∃ a, p.Reads a ∧ p.step settings s = p.onService settings a := by
  have hreads {a : Happening} (hprobes : ∀ call results, a ≠ .finish call results) : p.Reads a :=
    fun call results heq ↦ absurd heq (hprobes call results)
  cases s with
  | registry worker call => exact Or.inl ⟨worker, call, rfl⟩
  | finish call database embedding rerank =>
    refine Or.inr ⟨_, fun other results heq ↦ ?_, rfl⟩
    cases heq
    exact ⟨database, embedding, rerank, rfl⟩
  | pass _ _ | begin | acquire _ _ | cancel _ | enable | disable =>
    exact Or.inr ⟨_, hreads (fun _ _ heq ↦ by cases heq), rfl⟩

theorem Sound.step (hv2 : settings.v2Enabled = true) (h : p.Sound settings) (s : ProcessStep) :
    (p.step settings s).Sound settings := by
  rcases step_cases p s with ⟨worker, call, hstep⟩ | ⟨a, ha, hstep⟩
  · rw [hstep]
    exact h.callRegistry worker call
  · rw [hstep]
    exact h.onService hv2 ha

theorem sound_init : Sound settings {} := by
  refine ⟨fun worker heartbeat hheartbeat ↦ ?_, fun snapshot hsnapshot ↦ by cases hsnapshot⟩
  cases worker <;> cases hheartbeat

theorem Sound.run (hv2 : settings.v2Enabled = true) (h : p.Sound settings)
    (steps : List ProcessStep) : (p.run settings steps).Sound settings := by
  induction steps generalizing p with
  | nil => exact h
  | cons s steps ih => exact ih (h.step hv2 s)

/-! ## Answers -/

theorem Sound.alive_of_cached (h : p.Sound settings) {snapshot : ReadinessSnapshot}
    (hcached : p.service.getCachedSnapshot settings = some snapshot)
    (hready : snapshot.status = .ready) (worker : Worker) :
    (p.registry worker).Alive p.service.now
      (settings.workerFreshSeconds + max settings.cacheSeconds 0) := by
  obtain ⟨hsnapshot, cachedAt, hcachedAt, hrecent⟩ := getCachedSnapshot_eq_some_iff.1 hcached
  obtain ⟨cachedAt', hcachedAt', halive⟩ := h.cached snapshot hsnapshot hready
  obtain rfl := Option.some.inj (hcachedAt.symm.trans hcachedAt')
  obtain ⟨hstate, heartbeat, hheartbeat, hle⟩ := halive worker
  have hmax := le_max_left settings.cacheSeconds 0
  exact ⟨hstate, heartbeat, hheartbeat, by linarith⟩

theorem callRegistry_calls (worker : Worker) (call : RegistryCall) :
    (p.callRegistry worker call).service.calls = p.service.calls := by
  unfold ServiceProcess.callRegistry
  simp only
  split_ifs
  · rfl
  · rw [setRegistry_service]

/-- The workers when a step of the service returns a ready snapshot. -/
theorem Sound.alive_of_taken (hv2 : settings.v2Enabled = true) (h : p.Sound settings)
    {a : Happening} (ha : p.Reads a) {call : ℕ} {answer : SnapshotCall}
    {snapshot : ReadinessSnapshot} (hready : snapshot.status = .ready)
    (hanswer : answer = .cached snapshot ∨ answer = .probed snapshot)
    (htaken : Taken settings p.service call a answer) (worker : Worker) :
    (p.registry worker).Alive p.service.now
      (settings.workerFreshSeconds + max settings.cacheSeconds 0) := by
  have hcache {found : ReadinessSnapshot}
      (hfound : p.service.getCachedSnapshot settings = some found)
      (hsame : SnapshotCall.cached found = .cached snapshot ∨
        SnapshotCall.cached found = .probed snapshot) : (p.registry worker).Alive p.service.now
          (settings.workerFreshSeconds + max settings.cacheSeconds 0) := by
    obtain rfl : found = snapshot := hsame.elim SnapshotCall.cached.inj fun heq ↦ by cases heq
    exact h.alive_of_cached hfound hready worker
  cases htaken with
  | waits _ | probes _ _ | stops =>
    exact hanswer.elim (fun heq ↦ by cases heq) fun heq ↦ by cases heq
  | answers _ hcached | reads _ hcached => exact hcache hcached hanswer
  | refuses _ _ =>
    have hprobed := hanswer.resolve_left fun heq ↦ by cases heq
    rw [← SnapshotCall.probed.inj hprobed] at hready
    cases hready
  | ends hprobing =>
    have hprobed := hanswer.resolve_left fun heq ↦ by cases heq
    obtain ⟨database, embedding, rerank, rfl⟩ := ha call _ rfl
    rw [← SnapshotCall.probed.inj hprobed] at hready
    exact (alive_of_probed hv2 hready worker).mono (le_add_of_nonneg_right (le_max_right _ _))

/-- In every interleaving, a call that returns a ready snapshot returns it while both workers are
running, each with a heartbeat within the time that a worker counts as fresh and a snapshot stays
in the cache. -/
theorem ready_while_alive (hv2 : settings.v2Enabled = true) (steps : List ProcessStep)
    (s : ProcessStep) {call : ℕ} {answer : SnapshotCall} {snapshot : ReadinessSnapshot}
    (hready : snapshot.status = .ready)
    (hanswer : answer = .cached snapshot ∨ answer = .probed snapshot)
    (hbefore : (run settings {} steps).service.calls[call]? ≠ some answer)
    (hafter : ((run settings {} steps).step settings s).service.calls[call]? = some answer)
    (worker : Worker) :
    ((run settings {} steps).registry worker).Alive (run settings {} steps).service.now
      (settings.workerFreshSeconds + max settings.cacheSeconds 0) := by
  have hsound := sound_init.run hv2 steps
  rcases step_cases (run settings {} steps) s with ⟨other, registryCall, hstep⟩ | ⟨a, ha, hstep⟩
  · rw [hstep, callRegistry_calls] at hafter
    exact absurd hafter hbefore
  · rw [hstep] at hafter
    have htaken := (step_calls hafter).resolve_left hbefore
    exact hsound.alive_of_taken hv2 ha hready hanswer htaken worker

section Example

def pollingSettings : ReadinessSettings := ⟨true, false, false, 2, 5⟩

/-- The workers start, and a first call probes. -/
def startUp : List ProcessStep :=
  [.enable, .registry .event (.setState .running), .registry .decision (.setState .running),
    .registry .event .heartbeat, .registry .decision .heartbeat, .begin, .acquire 0 0,
    .finish 0 .ok .ok .ok]

/-- A second call is answered from the cache. -/
theorem ready_while_alive_cached : ((run pollingSettings {} startUp).registry .event).Alive
    (run pollingSettings {} startUp).service.now (2 + max 5 0) := by
  have hcached : ((run pollingSettings {} startUp).step pollingSettings .begin).service.calls[1]? =
      some (.cached (probedSnapshot pollingSettings 0 0
        ⟨.ok, .ok, .ok, ⟨true, some 0, false⟩, ⟨true, some 0, false⟩⟩)) := by
    decide +kernel
  exact ready_while_alive rfl startUp .begin (by decide +kernel) (Or.inl rfl)
    (by decide) hcached .event

end Example

end ServiceProcess

end LlmGateway.Readiness
