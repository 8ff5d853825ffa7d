import LlmGateway.Readiness.Service
import Mathlib.Data.List.Induction

/-!
# Readiness answers are current

While the service is disabled, the calls that began since then find it not ready. A snapshot that
a call returns from the cache was probed from end to end after the last change of the service, and
not long ago.
-/

namespace LlmGateway.Readiness

open Relational (run)

variable {settings : ReadinessSettings} {s : ReadinessService} {a : Happening} {call : ℕ}

/-- The service is enabled, disabled or invalidated. -/
def Happening.isChange : Happening → Bool
  | .enable | .disable | .invalidate => true
  | _ => false

section Steps

theorem getCachedSnapshot_eq_some_iff {snapshot : ReadinessSnapshot} :
    s.getCachedSnapshot settings = some snapshot ↔ s.cachedSnapshot = some snapshot ∧
      ∃ cachedAt, s.cachedAtMonotonic = some cachedAt ∧ s.now - cachedAt < settings.cacheSeconds := by
  unfold ReadinessService.getCachedSnapshot
  split
  · rename_i found cachedAt hsnapshot hcachedAt
    rw [hsnapshot, hcachedAt]
    split
    · rename_i hle
      simp only [reduceCtorEq, Option.some.injEq, exists_eq_left', false_iff, not_and, not_lt]
      exact fun _ ↦ hle
    · rename_i hlt
      simp only [Option.some.injEq, exists_eq_left', iff_self_and]
      exact fun _ ↦ not_le.1 hlt
  · rename_i hnone
    simp only [reduceCtorEq, false_iff, not_and, not_exists]
    exact fun hsnapshot cachedAt hcachedAt ↦ absurd hcachedAt (hnone snapshot cachedAt hsnapshot)

@[simp] theorem store_enabled (generation : ℕ) (snapshot : ReadinessSnapshot) :
    (s.store generation snapshot).enabled = s.enabled := by
  unfold ReadinessService.store
  split <;> rfl

@[simp] theorem store_cacheGeneration (generation : ℕ) (snapshot : ReadinessSnapshot) :
    (s.store generation snapshot).cacheGeneration = s.cacheGeneration := by
  unfold ReadinessService.store
  split <;> rfl

@[simp] theorem store_now (generation : ℕ) (snapshot : ReadinessSnapshot) :
    (s.store generation snapshot).now = s.now := by
  unfold ReadinessService.store
  split <;> rfl

theorem step_cacheGeneration (s : ReadinessService) (a : Happening) :
    (s.step settings a).cacheGeneration = s.cacheGeneration + if a.isChange then 1 else 0 := by
  cases a with
  | pass elapsed nonneg => rfl
  | begin =>
    simp only [ReadinessService.step, ReadinessService.begin]
    split <;> rfl
  | acquire call checkedAtMs =>
    simp only [ReadinessService.step, ReadinessService.acquire]
    split
    · split
      · rfl
      · split
        · rfl
        · exact store_cacheGeneration _ _
    · rfl
  | finish call results =>
    simp only [ReadinessService.step]
    split
    · exact store_cacheGeneration _ _
    · rfl
  | cancel call =>
    simp only [ReadinessService.step]
    split <;> rfl
  | enable => rfl
  | disable => rfl
  | invalidate => rfl

/-- Where a step takes a call. -/
inductive Taken (settings : ReadinessSettings) (s : ReadinessService) (call : ℕ) :
    Happening → SnapshotCall → Prop
  | waits (hcall : call = s.calls.length) : Taken settings s call .begin .waiting
  | answers {snapshot : ReadinessSnapshot} (hcall : call = s.calls.length)
      (hcached : s.getCachedSnapshot settings = some snapshot) :
      Taken settings s call .begin (.cached snapshot)
  | reads {snapshot : ReadinessSnapshot} {checkedAtMs : ℤ}
      (hwaiting : s.calls[call]? = some .waiting)
      (hcached : s.getCachedSnapshot settings = some snapshot) :
      Taken settings s call (.acquire call checkedAtMs) (.cached snapshot)
  | probes {checkedAtMs : ℤ} (hwaiting : s.calls[call]? = some .waiting)
      (henabled : s.enabled = true) :
      Taken settings s call (.acquire call checkedAtMs) (.probing s.cacheGeneration checkedAtMs)
  | refuses {checkedAtMs : ℤ} (hwaiting : s.calls[call]? = some .waiting)
      (hdisabled : s.enabled = false) :
      Taken settings s call (.acquire call checkedAtMs) (.probed (unavailableSnapshot checkedAtMs))
  | ends {generation : ℕ} {checkedAtMs : ℤ} {results : ProbeResults}
      (hprobing : s.calls[call]? = some (.probing generation checkedAtMs)) :
      Taken settings s call (.finish call results)
        (.probed (probedSnapshot settings s.now checkedAtMs results))
  | stops : Taken settings s call (.cancel call) .cancelled

theorem getElem?_set_cases {l : List SnapshotCall} {other : ℕ} {p q : SnapshotCall}
    (h : (l.set other q)[call]? = some p) : l[call]? = some p ∨ other = call ∧ q = p := by
  by_cases heq : other = call
  · subst heq
    rw [List.getElem?_set_self'] at h
    obtain ⟨_, _, hq⟩ := Option.map_eq_some_iff.1 h
    exact Or.inr ⟨rfl, hq⟩
  · rw [List.getElem?_set_ne heq] at h
    exact Or.inl h

theorem getElem?_append_cases {l : List SnapshotCall} {p q : SnapshotCall}
    (h : (l ++ [q])[call]? = some p) : l[call]? = some p ∨ call = l.length ∧ q = p := by
  rw [List.getElem?_append] at h
  split at h
  · exact Or.inl h
  · have hlt : call - l.length < 1 := (List.getElem?_eq_some_iff.1 h).1
    have hq : p = q := List.mem_singleton.1 (List.mem_of_getElem? h)
    exact Or.inr ⟨by omega, hq.symm⟩

/-- A call stands where it stood, or where this step has taken it. -/
theorem step_calls {p : SnapshotCall} (h : (s.step settings a).calls[call]? = some p) :
    s.calls[call]? = some p ∨ Taken settings s call a p := by
  cases a with
  | pass elapsed nonneg => exact Or.inl h
  | begin =>
    simp only [ReadinessService.step, ReadinessService.begin] at h
    split at h
    · obtain hbefore | ⟨hcall, rfl⟩ := getElem?_append_cases h
      · exact Or.inl hbefore
      · exact Or.inr (Taken.answers hcall ‹_›)
    · obtain hbefore | ⟨hcall, rfl⟩ := getElem?_append_cases h
      · exact Or.inl hbefore
      · exact Or.inr (Taken.waits hcall)
  | acquire other checkedAtMs =>
    simp only [ReadinessService.step, ReadinessService.acquire] at h
    split at h
    · rename_i hwaiting
      split at h
      · obtain hbefore | ⟨rfl, rfl⟩ := getElem?_set_cases h
        · exact Or.inl hbefore
        · exact Or.inr (Taken.reads hwaiting.1 ‹_›)
      · split at h
        · obtain hbefore | ⟨rfl, rfl⟩ := getElem?_set_cases h
          · exact Or.inl hbefore
          · exact Or.inr (Taken.probes hwaiting.1 ‹_›)
        · rename_i hdisabled
          obtain hbefore | ⟨rfl, rfl⟩ := getElem?_set_cases h
          · exact Or.inl hbefore
          · exact Or.inr (Taken.refuses hwaiting.1 (Bool.eq_false_iff.2 hdisabled))
    · exact Or.inl h
  | finish other results =>
    simp only [ReadinessService.step] at h
    split at h
    · obtain hbefore | ⟨rfl, rfl⟩ := getElem?_set_cases h
      · exact Or.inl hbefore
      · exact Or.inr (Taken.ends ‹_›)
    · exact Or.inl h
  | cancel other =>
    simp only [ReadinessService.step] at h
    split at h
    · obtain hbefore | ⟨rfl, rfl⟩ := getElem?_set_cases h
      · exact Or.inl hbefore
      · exact Or.inr Taken.stops
    · obtain hbefore | ⟨rfl, rfl⟩ := getElem?_set_cases h
      · exact Or.inl hbefore
      · exact Or.inr Taken.stops
    · exact Or.inl h
  | enable => exact Or.inl h
  | disable => exact Or.inl h
  | invalidate => exact Or.inl h

/-- How a call puts what it has probed into the cache. -/
inductive Stores (settings : ReadinessSettings) (s : ReadinessService) (call : ℕ) :
    Happening → ReadinessSnapshot → Prop
  | refused {checkedAtMs : ℤ} (hwaiting : s.calls[call]? = some .waiting)
      (hdisabled : s.enabled = false) :
      Stores settings s call (.acquire call checkedAtMs) (unavailableSnapshot checkedAtMs)
  | ended {checkedAtMs : ℤ} {results : ProbeResults}
      (hprobing : s.calls[call]? = some (.probing s.cacheGeneration checkedAtMs)) :
      Stores settings s call (.finish call results)
        (probedSnapshot settings s.now checkedAtMs results)

theorem store_cases {generation : ℕ} {snapshot stored : ReadinessSnapshot}
    (h : (s.store generation stored).cachedSnapshot = some snapshot) :
    (s.cachedSnapshot = some snapshot ∧
      (s.store generation stored).cachedAtMonotonic = s.cachedAtMonotonic) ∨
    generation = s.cacheGeneration ∧ stored = snapshot ∧
      (s.store generation stored).cachedAtMonotonic = some s.now := by
  unfold ReadinessService.store at h ⊢
  split at h
  · rename_i heq
    rw [if_pos heq]
    exact Or.inr ⟨heq, Option.some.inj h, rfl⟩
  · rename_i hne
    rw [if_neg hne]
    exact Or.inl ⟨h, rfl⟩

/-- The cache holds what it held, and nothing was changed, or what a call has just probed. -/
theorem step_cachedSnapshot {snapshot : ReadinessSnapshot}
    (h : (s.step settings a).cachedSnapshot = some snapshot) :
    (a.isChange = false ∧ s.cachedSnapshot = some snapshot ∧
      (s.step settings a).cachedAtMonotonic = s.cachedAtMonotonic) ∨
    ∃ call, Stores settings s call a snapshot ∧
      (s.step settings a).calls[call]? = some (.probed snapshot) ∧
      (s.step settings a).cachedAtMonotonic = some s.now ∧ (s.step settings a).now = s.now := by
  cases a with
  | pass elapsed nonneg => exact Or.inl ⟨rfl, h, rfl⟩
  | begin =>
    simp only [ReadinessService.step, ReadinessService.begin] at h ⊢
    split at h <;> exact Or.inl ⟨rfl, h, by simp only [*]⟩
  | acquire call checkedAtMs =>
    by_cases hcan : s.calls[call]? = some .waiting ∧ s.lock = none
    · cases hcached : s.getCachedSnapshot settings with
      | some found =>
        simp only [ReadinessService.step, if_pos hcan, ReadinessService.acquire, hcached] at h ⊢
        exact Or.inl ⟨rfl, h, trivial⟩
      | none =>
        cases henabled : s.enabled with
        | true =>
          simp only [ReadinessService.step, if_pos hcan, ReadinessService.acquire, hcached,
            henabled, if_true] at h ⊢
          exact Or.inl ⟨rfl, h, trivial⟩
        | false =>
          simp only [ReadinessService.step, if_pos hcan, ReadinessService.acquire, hcached,
            henabled, Bool.false_eq_true, if_false] at h ⊢
          have hlt : call < s.calls.length := (List.getElem?_eq_some_iff.1 hcan.1).1
          obtain ⟨hbefore, hat⟩ | ⟨-, rfl, hat⟩ := store_cases h
          · exact Or.inl ⟨rfl, hbefore, hat⟩
          · exact Or.inr ⟨call, Stores.refused hcan.1 henabled, List.getElem?_set_self hlt, hat,
              store_now _ _⟩
    · simp only [ReadinessService.step, if_neg hcan] at h ⊢
      exact Or.inl ⟨rfl, h, trivial⟩
  | finish call results =>
    simp only [ReadinessService.step] at h ⊢
    split at h
    · rename_i generation checkedAtMs hprobing
      have hlt : call < s.calls.length := (List.getElem?_eq_some_iff.1 hprobing).1
      obtain ⟨hbefore, hat⟩ | ⟨rfl, rfl, hat⟩ := store_cases h
      · exact Or.inl ⟨rfl, hbefore, hat⟩
      · exact Or.inr ⟨call, Stores.ended hprobing, List.getElem?_set_self hlt, hat, store_now _ _⟩
    · exact Or.inl ⟨rfl, h, rfl⟩
  | cancel call =>
    simp only [ReadinessService.step] at h ⊢
    split at h <;> exact Or.inl ⟨rfl, h, by simp only [*]⟩
  | enable => cases h
  | disable => cases h
  | invalidate => cases h

theorem step_enabled_of_ne (h : a ≠ .enable) (hdisabled : s.enabled = false) :
    (s.step settings a).enabled = false := by
  cases a with
  | pass elapsed nonneg => exact hdisabled
  | begin =>
    simp only [ReadinessService.step, ReadinessService.begin]
    split <;> exact hdisabled
  | acquire call checkedAtMs =>
    simp only [ReadinessService.step, ReadinessService.acquire]
    split
    · split
      · exact hdisabled
      · split
        · exact hdisabled
        · exact (store_enabled _ _).trans hdisabled
    · exact hdisabled
  | finish call results =>
    simp only [ReadinessService.step]
    split
    · exact (store_enabled _ _).trans hdisabled
    · exact hdisabled
  | cancel call =>
    simp only [ReadinessService.step]
    split <;> exact hdisabled
  | enable => exact absurd rfl h
  | disable => rfl
  | invalidate => exact hdisabled

end Steps

section Down

/-- The service is disabled. The cache holds what was found since; what older calls still probe is
for an earlier generation, and the calls from the given one on have returned that it is not
ready. -/
structure Down (first : ℕ) (s : ReadinessService) : Prop where
  disabled : s.enabled = false
  cached : ∀ snapshot, s.cachedSnapshot = some snapshot → snapshot.status = .notReady
  older : ∀ call generation checkedAtMs,
    s.calls[call]? = some (.probing generation checkedAtMs) →
      call < first ∧ generation < s.cacheGeneration
  bound : first ≤ s.calls.length
  later : ∀ call snapshot, first ≤ call →
    s.calls[call]? = some (.cached snapshot) ∨ s.calls[call]? = some (.probed snapshot) →
      snapshot.status = .notReady

theorem length_step (s : ReadinessService) (a : Happening) :
    s.calls.length ≤ (s.step settings a).calls.length := by
  cases a with
  | pass elapsed nonneg => exact le_rfl
  | begin =>
    simp only [ReadinessService.step, ReadinessService.begin]
    split <;> simp
  | acquire call checkedAtMs =>
    simp only [ReadinessService.step, ReadinessService.acquire]
    split
    · split
      · exact List.length_set.ge
      · split <;> exact List.length_set.ge
    · exact le_rfl
  | finish call results =>
    simp only [ReadinessService.step]
    split
    · exact List.length_set.ge
    · exact le_rfl
  | cancel call =>
    simp only [ReadinessService.step]
    split
    · exact List.length_set.ge
    · exact List.length_set.ge
    · exact le_rfl
  | enable => exact le_rfl
  | disable => exact le_rfl
  | invalidate => exact le_rfl

theorem Down.step {first : ℕ} (h : Down first s) (ha : a ≠ .enable) :
    Down first (s.step settings a) := by
  refine ⟨step_enabled_of_ne ha h.disabled, fun snapshot hsnapshot ↦ ?_,
    fun call generation checkedAtMs hprobing ↦ ?_, h.bound.trans (length_step s a),
    fun call snapshot hcall hreturned ↦ ?_⟩
  · obtain ⟨-, hbefore, -⟩ | ⟨call, hstores, -, -, -⟩ := step_cachedSnapshot hsnapshot
    · exact h.cached snapshot hbefore
    · cases hstores with
      | refused hwaiting hdisabled => rfl
      | ended hprobing => exact absurd (h.older _ _ _ hprobing).2 (lt_irrefl _)
  · obtain hbefore | htaken := step_calls hprobing
    · obtain ⟨hlt, hgeneration⟩ := h.older call generation checkedAtMs hbefore
      refine ⟨hlt, Nat.lt_of_lt_of_le hgeneration ?_⟩
      rw [step_cacheGeneration]
      exact Nat.le_add_right _ _
    · cases htaken with
      | probes hwaiting henabled => exact absurd (h.disabled ▸ henabled) Bool.false_ne_true
  · have hcached : ∀ {found}, s.getCachedSnapshot settings = some found →
        found.status = .notReady :=
      fun hfound ↦ h.cached _ (getCachedSnapshot_eq_some_iff.1 hfound).1
    cases hreturned with
    | inl hserved =>
      obtain hbefore | htaken := step_calls hserved
      · exact h.later call snapshot hcall (Or.inl hbefore)
      · cases htaken with
        | answers hlast hfound => exact hcached hfound
        | reads hwaiting hfound => exact hcached hfound
    | inr hprobed =>
      obtain hbefore | htaken := step_calls hprobed
      · exact h.later call snapshot hcall (Or.inr hbefore)
      · cases htaken with
        | refuses hwaiting hdisabled => rfl
        | ends hprobing => exact absurd (h.older _ _ _ hprobing).1 (not_lt.2 hcall)

end Down

section History

/-- The service after these happenings. -/
def after (settings : ReadinessSettings) (taken : List Happening) : ReadinessService :=
  run (ReadinessService.step settings) {} taken

/-- The call probes from the beginning to the end of this span: a service that is not enabled is
probed in the stretch in which the call gets the lock. -/
inductive ProbingOf (call : ℕ) : List Happening → Prop
  | atOnce (checkedAtMs : ℤ) : ProbingOf call [.acquire call checkedAtMs]
  | suspended (checkedAtMs : ℤ) (during : List Happening) (results : ProbeResults) :
      ProbingOf call (.acquire call checkedAtMs :: during ++ [.finish call results])

/-- A waiting call has probed the snapshot, has ended at this time, and nothing was changed since it
began to probe. -/
def ProbedSince (settings : ReadinessSettings) (taken : List Happening)
    (snapshot : ReadinessSnapshot) (endedAt : ℚ) : Prop :=
  ∃ before probing rest call, taken = before ++ probing ++ rest ∧ ProbingOf call probing ∧
    (after settings before).calls[call]? = some .waiting ∧
    (after settings (before ++ probing)).calls[call]? = some (.probed snapshot) ∧
    (after settings (before ++ probing)).now = endedAt ∧
    ∀ a ∈ probing ++ rest, a.isChange = false

variable {taken : List Happening}

theorem after_append (taken : List Happening) (a : Happening) :
    after settings (taken ++ [a]) = (after settings taken).step settings a :=
  Relational.run_append ..

/-- What the service knows of its past. -/
structure Recorded (settings : ReadinessSettings) (taken : List Happening) : Prop where
  generation : (after settings taken).cacheGeneration = taken.countP (·.isChange)
  probing : ∀ call generation checkedAtMs,
    (after settings taken).calls[call]? = some (.probing generation checkedAtMs) →
    ∃ before during, taken = before ++ .acquire call checkedAtMs :: during ∧
      (after settings before).calls[call]? = some .waiting ∧
      before.countP (·.isChange) = generation
  cached : ∀ snapshot endedAt, (after settings taken).cachedSnapshot = some snapshot →
    (after settings taken).cachedAtMonotonic = some endedAt →
    ProbedSince settings taken snapshot endedAt

theorem Recorded.append (h : Recorded settings taken) (a : Happening) :
    Recorded settings (taken ++ [a]) := by
  refine ⟨?_, fun call generation checkedAtMs hprobing ↦ ?_,
    fun snapshot endedAt hsnapshot hendedAt ↦ ?_⟩
  · rw [after_append, step_cacheGeneration, h.generation, List.countP_append,
      List.countP_singleton]
  · rw [after_append] at hprobing
    obtain hbefore | htaken := step_calls hprobing
    · obtain ⟨before, during, rfl, hwaiting, hgeneration⟩ := h.probing _ _ _ hbefore
      exact ⟨before, during ++ [a], by simp, hwaiting, hgeneration⟩
    · cases htaken with
      | probes hwaiting henabled =>
        exact ⟨taken, [], rfl, hwaiting, h.generation.symm⟩
  · rw [after_append] at hsnapshot hendedAt
    obtain ⟨hchange, hbefore, hat⟩ | ⟨call, hstores, hprobed, hat, hnow⟩ :=
      step_cachedSnapshot hsnapshot
    · obtain ⟨before, probing, rest, call, rfl, hprobing, hwaiting, hprobed, hended, hnone⟩ :=
        h.cached snapshot endedAt hbefore (hat ▸ hendedAt)
      refine ⟨before, probing, rest ++ [a], call, by simp, hprobing, hwaiting, hprobed, hended, ?_⟩
      intro b hb
      rw [← List.append_assoc, List.mem_append, List.mem_singleton] at hb
      obtain hb | rfl := hb
      · exact hnone b hb
      · exact hchange
    · rw [← after_append] at hprobed
      have hended : (after settings (taken ++ [a])).now = endedAt := by
        rw [after_append, hnow]
        exact Option.some.inj (hat.symm.trans hendedAt)
      cases hstores with
      | refused hwaiting hdisabled =>
        rename_i checkedAtMs
        refine ⟨taken, _, [], call, (List.append_nil _).symm, ProbingOf.atOnce checkedAtMs,
          hwaiting, hprobed, hended, ?_⟩
        simp [Happening.isChange]
      | ended hprobing =>
        rename_i checkedAtMs results
        obtain ⟨before, during, hsplit, hwaiting, hgeneration⟩ := h.probing _ _ _ hprobing
        have hspan : taken ++ [.finish call results] =
            before ++ (.acquire call checkedAtMs :: during ++ [.finish call results]) := by
          rw [hsplit]
          simp
        have hcount : during.countP (·.isChange) = 0 := by
          have hall := h.generation
          have hacquire : Happening.isChange (.acquire call checkedAtMs) = false := rfl
          rw [← hgeneration, hsplit, List.countP_append, List.countP_cons, hacquire] at hall
          simpa using hall
        refine ⟨before, _, [], call, hspan.trans (List.append_nil _).symm,
          ProbingOf.suspended checkedAtMs during results, hwaiting, hspan ▸ hprobed,
          hspan ▸ hended, ?_⟩
        intro b hb
        simp only [List.append_nil, List.cons_append, List.mem_cons, List.mem_append,
          List.not_mem_nil, or_false] at hb
        obtain rfl | hb | rfl := hb
        · rfl
        · exact Bool.eq_false_iff.2 (List.countP_eq_zero.1 hcount b hb)
        · rfl

theorem recorded (settings : ReadinessSettings) (taken : List Happening) :
    Recorded settings taken := by
  induction taken using List.reverseRecOn with
  | nil =>
    refine ⟨rfl, fun call generation checkedAtMs h ↦ ?_, fun snapshot endedAt h ↦ ?_⟩
    · exact absurd h (by simp [after])
    · exact absurd h (by simp [after])
  | append_singleton taken a ih => exact ih.append a

/-- Disabling leaves no call behind whose probes could still go to the cache. -/
theorem down_disable (taken : List Happening) :
    Down (after settings taken).calls.length (after settings taken).disable := by
  refine ⟨rfl, fun snapshot h ↦ absurd h.symm (Option.some_ne_none _),
    fun call generation checkedAtMs hprobing ↦ ?_, le_rfl, fun call snapshot hcall hreturned ↦ ?_⟩
  · obtain ⟨before, during, hsplit, -, hgeneration⟩ :=
      (recorded settings taken).probing _ _ _ hprobing
    refine ⟨(List.getElem?_eq_some_iff.1 hprobing).1, Nat.lt_succ_of_le ?_⟩
    have hprefix : before <+: taken := ⟨_, hsplit.symm⟩
    rw [(recorded settings taken).generation, ← hgeneration]
    exact hprefix.sublist.countP_le
  · have hnone : (after settings taken).disable.calls[call]? = none :=
      List.getElem?_eq_none hcall
    rw [hnone] at hreturned
    simp at hreturned

/-- What a call that began after the service was disabled returns before it is enabled again says
that it is not ready, and what a call returns from the cache has been probed since the last change,
up to a time that is less than `cacheSeconds` ago. -/
theorem snapshots_are_current (settings : ReadinessSettings) (taken : List Happening) :
    (∀ during, (∀ a ∈ during, a ≠ Happening.enable) → ∀ (call : ℕ) snapshot,
      (after settings taken).calls.length ≤ call →
      (after settings (taken ++ .disable :: during)).calls[call]? = some (.cached snapshot) ∨
        (after settings (taken ++ .disable :: during)).calls[call]? = some (.probed snapshot) →
      snapshot.status = .notReady) ∧
    ∀ (a : Happening) (call : ℕ) snapshot,
      (after settings taken).calls[call]? ≠ some (.cached snapshot) →
      (after settings (taken ++ [a])).calls[call]? = some (.cached snapshot) →
      ∃ endedAt, ProbedSince settings taken snapshot endedAt ∧
        (after settings taken).now - endedAt < settings.cacheSeconds := by
  constructor
  · intro during hduring call snapshot hcall hreturned
    have hdown : Down (after settings taken).calls.length
        (after settings (taken ++ .disable :: during)) := by
      have hsplit : after settings (taken ++ .disable :: during) =
          run (ReadinessService.step settings) (after settings taken).disable during :=
        Relational.run_append ..
      rw [hsplit]
      exact List.foldlRecOn during _ (down_disable taken) fun s hs a ha ↦ hs.step (hduring a ha)
    exact hdown.later call snapshot hcall hreturned
  · intro a call snapshot hnot hserved
    rw [after_append] at hserved
    have hcached : (after settings taken).getCachedSnapshot settings = some snapshot := by
      obtain hbefore | htaken := step_calls hserved
      · exact absurd hbefore hnot
      · cases htaken with
        | answers hlast hfound => exact hfound
        | reads hwaiting hfound => exact hfound
    obtain ⟨hsnapshot, endedAt, hendedAt, hlt⟩ := getCachedSnapshot_eq_some_iff.1 hcached
    exact ⟨endedAt, (recorded settings taken).cached snapshot endedAt hsnapshot hendedAt, hlt⟩

def usualSettings : ReadinessSettings where
  v2Enabled := true
  embeddingEnabled := false
  rerankEnabled := false
  workerFreshSeconds := 2
  cacheSeconds := 5

def allReady : ProbeResults where
  database := .ok
  embedding := .ok
  rerank := .ok
  eventWorker := { running := true, heartbeatMonotonic := some 0, degraded := false }
  decisionWorker := { running := true, heartbeatMonotonic := some 0, degraded := false }

/-- A first call has probed the service. -/
def firstCall : List Happening := [.begin, .acquire 0 7, .finish 0 allReady]

theorem snapshots_are_current_twice :
    (unavailableSnapshot 8).status = .notReady ∧
    ∃ endedAt, ProbedSince usualSettings firstCall (probedSnapshot usualSettings 0 7 allReady)
        endedAt ∧ (after usualSettings firstCall).now - endedAt < usualSettings.cacheSeconds :=
  ⟨(snapshots_are_current usualSettings firstCall).1 [.begin, .acquire 1 8] (by simp) 1 _
      (by decide) (Or.inr rfl),
    (snapshots_are_current usualSettings firstCall).2 .begin 1 _ (by decide)
      (by decide +kernel)⟩

end History

end LlmGateway.Readiness
