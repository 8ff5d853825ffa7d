import LlmGateway.Llm.Balancer
import LlmGateway.Relational.Rotation

/-!
# Providers are selected by weight

The counter of a model type goes round the places of the providers that are served. As many
selections in a row as there are places meet every place once, wherever the counter stands when
they begin and whatever else runs between them.
-/

namespace LlmGateway.Llm

open Relational (run Guarded around)

variable {modelType : ModelType} {pool served : List LLMProviderConfig} {b : LoadBalancer}
  {s : Balancing}

/-- The places of the sequence, with their providers. -/
def places (providers : List LLMProviderConfig) : List LLMProviderConfig :=
  providers.flatMap fun p ↦ List.replicate p.weight p

theorem rrSequence_eq (providers : List LLMProviderConfig) :
    rrSequence providers = (places providers).map (·.id) := by
  simp only [rrSequence, places, List.map_flatMap, List.map_replicate]

theorem length_places (providers : List LLMProviderConfig) :
    (places providers).length = (providers.map (·.weight)).sum := by
  simp only [places, List.length_flatMap, List.length_replicate]

theorem mem_places {p : LLMProviderConfig} : p ∈ places pool ↔ p ∈ pool := by
  simp only [places, List.mem_flatMap, List.mem_replicate]
  constructor
  · rintro ⟨q, hq, -, rfl⟩
    exact hq
  · exact fun hp ↦ ⟨p, hp, p.weight_pos.ne', rfl⟩

theorem places_ne_nil (h : pool ≠ []) : places pool ≠ [] := by
  obtain ⟨p, hp⟩ := List.exists_mem_of_ne_nil pool h
  exact List.ne_nil_of_mem (mem_places.2 hp)

/-- A provider has as many places as its weight. -/
theorem count_places (hnodup : pool.Nodup) {p : LLMProviderConfig} (hp : p ∈ pool) :
    (places pool).count p = p.weight := by
  induction pool with
  | nil => exact absurd hp List.not_mem_nil
  | cons q pool ih =>
    obtain ⟨hq, hnodup⟩ := List.nodup_cons.1 hnodup
    have hsplit : places (q :: pool) = List.replicate q.weight q ++ places pool := rfl
    rw [hsplit, List.count_append, List.count_replicate]
    cases List.mem_cons.1 hp with
    | inl heq =>
      subst heq
      rw [List.count_eq_zero_of_not_mem fun hmem ↦ hq (mem_places.1 hmem)]
      simp
    | inr hp =>
      have hne : q ≠ p := fun heq ↦ hq (heq ▸ hp)
      rw [ih hnodup hp, if_neg (by simpa using hne), Nat.zero_add]

/-- The providers of the pool that are chosen by their ids. -/
def Served (pool served : List LLMProviderConfig) : Prop :=
  ∃ f : String → Bool, served = pool.filter fun p ↦ f p.id

theorem served_candidates (readings : String → FailureCount) (pool : List LLMProviderConfig) :
    Served pool (candidates readings pool) := by
  simp only [candidates]
  split
  · exact ⟨fun _ ↦ true, (List.filter_true pool).symm⟩
  · exact ⟨fun id ↦ checkHealth (readings id), rfl⟩

theorem healthy_of_mem_candidates {readings : String → FailureCount} {p : LLMProviderConfig}
    (hp : p ∈ candidates readings pool) :
    checkHealth (readings p.id) ∨ ∀ q ∈ pool, ¬checkHealth (readings q.id) := by
  simp only [candidates] at hp
  split at hp
  · rename_i hnone
    exact Or.inr fun q hq hhealthy ↦ List.filter_eq_nil_iff.1 hnone q hq hhealthy
  · exact Or.inl (List.mem_filter.1 hp).2

theorem candidates_ne_nil (readings : String → FailureCount) (hpool : pool ≠ []) :
    candidates readings pool ≠ [] := by
  simp only [candidates]
  split
  · exact hpool
  · assumption

theorem Served.subset (h : Served pool served) : served ⊆ pool := by
  obtain ⟨f, rfl⟩ := h
  exact List.filter_subset_self _

/-- Of the sequence of the pool, the places of the providers that are served are kept. -/
theorem Served.filter_rrSequence (h : Served pool served) :
    (rrSequence pool).filter (· ∈ served.map (·.id)) = rrSequence served := by
  obtain ⟨f, rfl⟩ := h
  have hkeep : ∀ part : List LLMProviderConfig, part ⊆ pool →
      (rrSequence part).filter (· ∈ (pool.filter fun p ↦ f p.id).map (·.id)) =
        rrSequence (part.filter fun p ↦ f p.id) := by
    intro part hpart
    induction part with
    | nil => rfl
    | cons p part ih =>
      obtain ⟨hp, hpart⟩ := List.cons_subset.1 hpart
      have hsplit : rrSequence (p :: part) = List.replicate p.weight p.id ++ rrSequence part := rfl
      have hmem : p.id ∈ (pool.filter fun p ↦ f p.id).map (·.id) ↔ f p.id = true := by
        constructor
        · intro h
          obtain ⟨q, hq, heq⟩ := List.mem_map.1 h
          exact heq ▸ (List.mem_filter.1 hq).2
        · exact fun h ↦ List.mem_map.2 ⟨p, List.mem_filter.2 ⟨hp, h⟩, rfl⟩
      rw [hsplit, List.filter_append, ih hpart, List.filter_replicate]
      cases hf : f p.id with
      | false => simp only [hmem, hf, List.filter_cons, Bool.false_eq_true, decide_false, if_false,
          List.nil_append]
      | true => simp only [hmem, hf, List.filter_cons, decide_true, if_true]; rfl
  exact hkeep pool (List.Subset.refl pool)

theorem find_reverse_of_mem (hids : (pool.map (·.id)).Nodup) {p : LLMProviderConfig}
    (hp : p ∈ pool) : (pool.reverse.find? fun q ↦ q.id = p.id) = some p := by
  cases hfind : pool.reverse.find? fun q ↦ q.id = p.id with
  | none =>
    have hnone := List.find?_eq_none.1 hfind p (List.mem_reverse.2 hp)
    exact absurd (decide_eq_true rfl) hnone
  | some q =>
    have hq : q ∈ pool := List.mem_reverse.1 (List.mem_of_find?_eq_some hfind)
    have hid : q.id = p.id := by simpa using List.find?_some hfind
    rw [List.inj_on_of_nodup_map hids hq hp hid]

/-- The position of the counter. -/
def LoadBalancer.counter (b : LoadBalancer) (modelType : ModelType) : ℕ :=
  (b.rrCounters modelType).getD 0

/-- The choice falls on the place where the counter stands. -/
theorem weightedSelect_eq (hsequence : b.rrSequences modelType = some (rrSequence pool))
    (hids : (pool.map (·.id)).Nodup) (hserved : Served pool served) (hne : served ≠ []) :
    ∃ p, (places served)[b.counter modelType % (places served).length]? = some p ∧
      b.weightedSelect modelType served = some (p,
        { b with
          rrCounters := Function.update b.rrCounters modelType
            (some (b.counter modelType % (places served).length + 1)) }) := by
  have hplaces := places_ne_nil hne
  have hlt : b.counter modelType % (places served).length < (places served).length :=
    Nat.mod_lt _ (List.length_pos_iff.2 hplaces)
  refine ⟨_, List.getElem?_eq_getElem hlt, ?_⟩
  have hmem : (places served)[b.counter modelType % (places served).length] ∈ served :=
    mem_places.1 (List.getElem_mem hlt)
  have hserved_ids : (served.map (·.id)).Nodup := by
    obtain ⟨f, rfl⟩ := hserved
    exact hids.sublist (List.filter_sublist.map _)
  have hpool_ne : rrSequence pool ≠ [] := by
    rw [rrSequence_eq]
    exact fun h ↦ places_ne_nil (List.ne_nil_of_mem (hserved.subset hmem)) (List.map_eq_nil_iff.1 h)
  have hserved_ne : rrSequence served ≠ [] := by
    rw [rrSequence_eq]
    exact fun h ↦ hplaces (List.map_eq_nil_iff.1 h)
  unfold LoadBalancer.counter at hlt hmem ⊢
  simp only [LoadBalancer.weightedSelect, hsequence, Option.getD_some, if_neg hpool_ne,
    hserved.filter_rrSequence, if_neg hserved_ne]
  simp only [rrSequence_eq, List.length_map, List.getElem?_map,
    List.getElem?_eq_getElem hlt, Option.map_some, Option.bind_some,
    find_reverse_of_mem hserved_ids hmem, Option.some_or]

theorem exists_lookup {filtered : List String} (hfiltered : filtered ≠ []) (hne : served ≠ [])
    (counter : ℕ) (b' : LoadBalancer) :
    ∃ p ∈ served, ∃ b'', (filtered[counter % filtered.length]?.bind fun selectedId ↦
      ((served.reverse.find? fun p ↦ p.id = selectedId).or served.head?).map fun p ↦ (p, b')) =
        some (p, b'') := by
  have hlt : counter % filtered.length < filtered.length :=
    Nat.mod_lt _ (List.length_pos_iff.2 hfiltered)
  rw [List.getElem?_eq_getElem hlt, Option.bind_some]
  cases hfind : served.reverse.find? fun p ↦ p.id = filtered[counter % filtered.length] with
  | none =>
    obtain ⟨first, rest, rfl⟩ := List.exists_cons_of_ne_nil hne
    exact ⟨first, List.mem_cons_self, _, rfl⟩
  | some p => exact ⟨p, List.mem_reverse.1 (List.mem_of_find?_eq_some hfind), _, rfl⟩

/-- A selection always comes to a choice among the providers it is given. -/
theorem exists_weightedSelect (b : LoadBalancer) (modelType : ModelType) (hne : served ≠ []) :
    ∃ p ∈ served, ∃ b', b.weightedSelect modelType served = some (p, b') := by
  simp only [LoadBalancer.weightedSelect]
  split
  · obtain ⟨first, rest, rfl⟩ := List.exists_cons_of_ne_nil hne
    exact ⟨first, List.mem_cons_self, _, rfl⟩
  · exact exists_lookup (by split <;> assumption) hne _ _

section Runs

/-- The sequences are built of the cached providers, and a selection that checks the health of its
providers has some. -/
structure Consistent (s : Balancing) : Prop where
  sequences : ∀ modelType,
    s.balancer.rrSequences modelType = (s.balancer.poolCache modelType).map rrSequence
  checking : ∀ waiting ∈ s.checking, waiting.2 ≠ []

theorem LoadBalancer.weightedSelect_frame {p : LLMProviderConfig} {b' : LoadBalancer}
    (h : b.weightedSelect modelType served = some (p, b')) :
    b'.poolCache = b.poolCache ∧ b'.rrSequences = b.rrSequences ∧
      ∀ other ≠ modelType, b'.rrCounters other = b.rrCounters other := by
  simp only [weightedSelect] at h
  split at h
  · obtain ⟨q, -, heq⟩ := Option.map_eq_some_iff.1 h
    obtain ⟨-, rfl⟩ := Prod.mk.injEq .. ▸ heq
    exact ⟨rfl, rfl, fun _ _ ↦ rfl⟩
  · obtain ⟨selectedId, -, h⟩ := Option.bind_eq_some_iff.1 h
    obtain ⟨q, -, heq⟩ := Option.map_eq_some_iff.1 h
    obtain ⟨-, rfl⟩ := Prod.mk.injEq .. ▸ heq
    exact ⟨rfl, rfl, fun other hne ↦ Function.update_of_ne hne _ _⟩

namespace Balancing

@[simp] theorem check_balancer (s : Balancing) (modelType : ModelType)
    (providers : List LLMProviderConfig) : (s.check modelType providers).balancer = s.balancer := by
  unfold check
  split <;> rfl

@[simp] theorem check_choices (s : Balancing) (modelType : ModelType)
    (providers : List LLMProviderConfig) : (s.check modelType providers).choices = s.choices := by
  unfold check
  split <;> rfl

theorem step_checked_eq {waiting : ℕ} {readings : String → FailureCount}
    {providers : List LLMProviderConfig} {p : LLMProviderConfig}
    (hchecking : s.checking[waiting]? = some (modelType, providers))
    (hselect : s.balancer.weightedSelect modelType (candidates readings providers) = some (p, b)) :
    s.step (.checked waiting readings) =
      { s with
        balancer := b
        checking := s.checking.eraseIdx waiting
        choices := s.choices ++ [(modelType, p)] } := by
  simp only [step, hchecking, hselect]

theorem check_consistent (hs : Consistent s) (modelType : ModelType)
    (providers : List LLMProviderConfig) : Consistent (s.check modelType providers) := by
  unfold check
  split
  · exact hs
  · refine ⟨hs.sequences, fun waiting hwaiting ↦ ?_⟩
    cases List.mem_append.1 hwaiting with
    | inl hbefore => exact hs.checking waiting hbefore
    | inr hnew => exact List.mem_singleton.1 hnew ▸ ‹_›

theorem step_consistent (s : Balancing) (a : Stretch) (hs : Consistent s) :
    Consistent (s.step a) := by
  cases a with
  | start modelType now =>
    simp only [step]
    split
    · exact check_consistent hs _ _
    · exact ⟨hs.sequences, hs.checking⟩
  | loaded waiting table =>
    simp only [step]
    split
    · exact hs
    · apply check_consistent
      refine ⟨fun other ↦ ?_, hs.checking⟩
      simp only [LoadBalancer.store, LoadBalancer.buildRrSequence, Function.update_apply]
      split
      · rfl
      · exact hs.sequences other
  | checked waiting readings =>
    simp only [step]
    split
    · exact hs
    · have hchecking : ∀ w ∈ s.checking.eraseIdx waiting, w.2 ≠ [] :=
        fun w hw ↦ hs.checking w (List.mem_of_mem_eraseIdx hw)
      split
      · exact ⟨hs.sequences, hchecking⟩
      · rename_i hselect
        obtain ⟨hpool, hsequences, -⟩ := LoadBalancer.weightedSelect_frame hselect
        refine ⟨fun other ↦ ?_, hchecking⟩
        rw [hpool, hsequences]
        exact hs.sequences other
  | invalidate => exact ⟨fun _ ↦ rfl, hs.checking⟩

end Balancing

theorem consistent_run (stretches : List Stretch) : Consistent (run Balancing.step {} stretches) :=
  Relational.invariant_run Balancing.step_consistent
    ⟨fun _ ↦ rfl, fun _ h ↦ absurd h List.not_mem_nil⟩ stretches

/-- The stretch leaves the pool as it is, and what it chooses for the model type it chooses among
the given providers of the pool. -/
def Steady (modelType : ModelType) (pool served : List LLMProviderConfig) (s : Balancing) :
    Stretch → Prop
  | .checked waiting readings => ∀ selection ∈ s.checking[waiting]?, selection.1 = modelType →
      selection.2 = pool ∧ candidates readings pool = served
  | a => (s.step a).balancer.poolCache modelType = some pool

/-- A window that began with the choices `before`: its choices go round the places of the
providers, and the counter stands at the next place. -/
structure InWindow (modelType : ModelType) (pool served before : List LLMProviderConfig)
    (s : Balancing) : Prop where
  consistent : Consistent s
  cached : s.balancer.poolCache modelType = some pool
  position : ∃ start k, s.chosen modelType = before ++ around (places served) start k ∧
    s.balancer.counter modelType % (places served).length = (start + k) % (places served).length ∧
    (0 < k → s.balancer.counter modelType ≤ (places served).length)

variable {before : List LLMProviderConfig} {a : Stretch}

theorem LoadBalancer.counter_store (b : LoadBalancer) (modelType : ModelType) (now : ℚ)
    (pool : List LLMProviderConfig) :
    (b.store modelType now pool).counter modelType =
      if (rrSequence pool).length ≤ b.counter modelType then 0 else b.counter modelType := by
  simp only [store, buildRrSequence, counter, Function.update_self, Option.getD_some]
  split
  · rename_i hnone
    simp only [hnone, Option.getD_none, ite_self]
  · rename_i hsome
    simp only [hsome, Option.getD_some]

theorem LoadBalancer.counter_store_of_ne {now : ℚ} (b : LoadBalancer) {other : ModelType}
    (hne : modelType ≠ other) (pool : List LLMProviderConfig) :
    (b.store other now pool).counter modelType = b.counter modelType := by
  simp only [store, buildRrSequence, counter, Function.update_of_ne hne]

/-- What leaves the pool, the choices and the counter of the model type as they are, keeps the
window. -/
theorem InWindow.of_eq {s' : Balancing} (h : InWindow modelType pool served before s)
    (hconsistent : Consistent s')
    (hcached : s'.balancer.poolCache modelType = some pool)
    (hchosen : s'.chosen modelType = s.chosen modelType)
    (hcounter : s'.balancer.counter modelType = s.balancer.counter modelType) :
    InWindow modelType pool served before s' := by
  obtain ⟨start, k, hround, hmod, hle⟩ := h.position
  exact ⟨hconsistent, hcached, start, k, hchosen ▸ hround, hcounter ▸ hmod, hcounter ▸ hle⟩

theorem length_places_le (h : Served pool served) :
    (places served).length ≤ (rrSequence pool).length := by
  rw [← List.length_map (f := (·.id)), ← rrSequence_eq, ← h.filter_rrSequence]
  exact List.length_filter_le _ _

theorem InWindow.step_start {other : ModelType} {now : ℚ}
    (h : InWindow modelType pool served before s) :
    InWindow modelType pool served before (s.step (.start other now)) := by
  apply h.of_eq (Balancing.step_consistent s _ h.consistent) <;> simp only [Balancing.step] <;>
    split
  · simpa only [Balancing.check_balancer] using h.cached
  · exact h.cached
  · simp only [Balancing.chosen, Balancing.check_choices]
  · rfl
  · simp only [Balancing.check_balancer]
  · rfl

/-- Building the sequence of the pool anew, within a round, leaves the counter at the next
place. -/
theorem InWindow.step_loaded {waiting : ℕ} {table : List ProviderRow}
    (hserved : Served pool served) (h : InWindow modelType pool served before s)
    (hcached : (s.step (.loaded waiting table)).balancer.poolCache modelType = some pool) :
    InWindow modelType pool served before (s.step (.loaded waiting table)) := by
  have hconsistent := Balancing.step_consistent s (.loaded waiting table) h.consistent
  cases hloading : s.loading[waiting]? with
  | none =>
    have hstep : s.step (.loaded waiting table) = s := by simp only [Balancing.step, hloading]
    rwa [hstep]
  | some selection =>
    obtain ⟨other, now⟩ := selection
    have hbalancer : (s.step (.loaded waiting table)).balancer =
        s.balancer.store other now (queryProviders other table) := by
      simp only [Balancing.step, hloading, Balancing.check_balancer]
    have hchosen : (s.step (.loaded waiting table)).chosen modelType = s.chosen modelType := by
      simp only [Balancing.step, hloading, Balancing.chosen, Balancing.check_choices]
    by_cases hother : modelType = other
    · subst hother
      have hpool : queryProviders modelType table = pool := by
        rw [hbalancer] at hcached
        simpa [LoadBalancer.store, LoadBalancer.buildRrSequence] using hcached
      have hcounter := hpool ▸ s.balancer.counter_store modelType now
        (queryProviders modelType table)
      obtain ⟨start, k, hround, hmod, hle⟩ := h.position
      by_cases hreset : (rrSequence pool).length ≤ s.balancer.counter modelType
      · rw [if_pos hreset] at hcounter
        have hlength := length_places_le hserved
        cases k with
        | zero =>
          refine ⟨hconsistent, hcached, 0, 0, ?_, ?_, fun hlt ↦ absurd hlt (lt_irrefl 0)⟩
          · rw [hchosen, hround]
            rfl
          · rw [hbalancer, hpool, hcounter]
        | succ k =>
          have hfull : s.balancer.counter modelType = (places served).length :=
            le_antisymm (hle k.succ_pos) (hlength.trans hreset)
          refine ⟨hconsistent, hcached, start, k + 1, hchosen ▸ hround, ?_, fun _ ↦ ?_⟩
          · rw [hbalancer, hpool, hcounter, Nat.zero_mod, ← hmod, hfull, Nat.mod_self]
          · rw [hbalancer, hpool, hcounter]
            exact Nat.zero_le _
      · rw [if_neg hreset] at hcounter
        apply h.of_eq hconsistent hcached hchosen
        rw [hbalancer, hpool, hcounter]
    · apply h.of_eq hconsistent hcached hchosen
      rw [hbalancer, LoadBalancer.counter_store_of_ne _ hother]

theorem InWindow.step_checked {waiting : ℕ} {readings : String → FailureCount}
    (hids : (pool.map (·.id)).Nodup) (hserved : Served pool served)
    (h : InWindow modelType pool served before s)
    (hsteady : Steady modelType pool served s (.checked waiting readings)) :
    InWindow modelType pool served before (s.step (.checked waiting readings)) := by
  have hconsistent := Balancing.step_consistent s (.checked waiting readings) h.consistent
  cases hchecking : s.checking[waiting]? with
  | none =>
    have hstep : s.step (.checked waiting readings) = s := by simp only [Balancing.step, hchecking]
    rwa [hstep]
  | some selection =>
    obtain ⟨other, providers⟩ := selection
    have hproviders : providers ≠ [] := h.consistent.checking _ (List.mem_of_getElem? hchecking)
    by_cases hother : other = modelType
    · subst hother
      obtain ⟨rfl, hcandidates⟩ := hsteady _ hchecking rfl
      have hne : served ≠ [] := hcandidates ▸ candidates_ne_nil readings hproviders
      have hsequence : s.balancer.rrSequences other = some (rrSequence providers) := by
        rw [h.consistent.sequences, h.cached]
        rfl
      obtain ⟨p, hp, hselect⟩ := weightedSelect_eq hsequence hids hserved hne
      have hstep := Balancing.step_checked_eq hchecking
        ((congrArg (s.balancer.weightedSelect other) hcandidates).trans hselect)
      have hlt : s.balancer.counter other % (places served).length < (places served).length :=
        Nat.mod_lt _ (List.length_pos_iff.2 (places_ne_nil hne))
      obtain ⟨start, k, hround, hmod, hle⟩ := h.position
      refine ⟨hconsistent, ?_, start, k + 1, ?_, ?_, fun _ ↦ ?_⟩
      · rw [hstep]
        exact h.cached
      · rw [hstep, around, ← List.append_assoc, ← hround, ← hmod, hp]
        simp only [Balancing.chosen, List.filter_append, List.map_append, List.filter_cons,
          decide_true, if_true, List.filter_nil, List.map_cons, List.map_nil, Option.toList]
      · rw [hstep]
        simp only [LoadBalancer.counter, Function.update_self, Option.getD_some]
        rw [← LoadBalancer.counter, hmod, Nat.mod_add_mod, Nat.add_assoc]
      · rw [hstep]
        simp only [LoadBalancer.counter, Function.update_self, Option.getD_some]
        exact hlt
    · obtain ⟨p, -, b', hselect⟩ := exists_weightedSelect s.balancer other
        (candidates_ne_nil readings hproviders)
      obtain ⟨hpool, -, hcounters⟩ := LoadBalancer.weightedSelect_frame hselect
      have hstep := Balancing.step_checked_eq hchecking hselect
      apply h.of_eq hconsistent
      · rw [hstep, hpool]
        exact h.cached
      · rw [hstep]
        simp only [Balancing.chosen, List.filter_append, List.filter_cons, List.filter_nil,
          decide_eq_true_eq, if_neg hother, List.append_nil]
      · rw [hstep]
        simp only [LoadBalancer.counter, hcounters modelType (Ne.symm hother)]

/-- Each stretch of a window goes on with the round. -/
theorem InWindow.step (hids : (pool.map (·.id)).Nodup) (hserved : Served pool served)
    (h : InWindow modelType pool served before s) (hsteady : Steady modelType pool served s a) :
    InWindow modelType pool served before (s.step a) := by
  cases a with
  | start other now => exact h.step_start
  | loaded waiting table => exact h.step_loaded hserved hsteady
  | checked waiting readings => exact h.step_checked hids hserved hsteady
  | invalidate => exact absurd hsteady (Option.some_ne_none pool).symm

/-- From this state on, any window of as many selections as the weights of the providers that are
served come to chooses each of them as often as its weight. -/
def FairFrom (s : Balancing) (modelType : ModelType) (pool : List LLMProviderConfig) : Prop :=
  ∀ readings window picked,
    Guarded Balancing.step (Steady modelType pool (candidates readings pool)) s window →
    (run Balancing.step s window).chosen modelType = s.chosen modelType ++ picked →
    picked.length = ((candidates readings pool).map (·.weight)).sum →
    ∀ p ∈ candidates readings pool, picked.count p = p.weight

theorem fairFrom_of_cached (hconsistent : Consistent s) (hids : (pool.map (·.id)).Nodup)
    (hcached : s.balancer.poolCache modelType = some pool) : FairFrom s modelType pool := by
  intro readings window picked hguard hpicked hlength p hp
  have hserved := served_candidates readings pool
  have hbegin : InWindow modelType pool (candidates readings pool) (s.chosen modelType) s :=
    ⟨hconsistent, hcached, s.balancer.counter modelType, 0, (List.append_nil _).symm, rfl,
      fun hlt ↦ absurd hlt (lt_irrefl 0)⟩
  have hend := Relational.invariant_guarded (fun _ _ h hsteady ↦ h.step hids hserved hsteady)
    hbegin hguard
  obtain ⟨start, k, hround, -, -⟩ := hend.position
  have hpicked_eq : picked = around (places (candidates readings pool)) start k :=
    List.append_cancel_left (hpicked.symm.trans hround)
  have hk : k = (places (candidates readings pool)).length := by
    rw [length_places, ← hlength, hpicked_eq,
      Relational.length_around (places_ne_nil (List.ne_nil_of_mem hp))]
  have hnodup : (candidates readings pool).Nodup := by
    obtain ⟨f, heq⟩ := hserved
    rw [heq]
    exact (List.Nodup.of_map _ hids).filter _
  rw [hpicked_eq, hk, (Relational.around_perm _ start).count_eq, count_places hnodup hp]

/-- Selections in a row serve the healthy providers of a cached pool by weight, a selection falls
on an unhealthy provider only if none is healthy, and the answer of the database is served by
weight from the moment it is stored. -/
theorem selections_by_weight (stretches : List Stretch) :
    let s := run Balancing.step {} stretches
    (∀ modelType pool, s.balancer.poolCache modelType = some pool → (pool.map (·.id)).Nodup →
      FairFrom s modelType pool) ∧
    (∀ waiting readings modelType providers, s.checking[waiting]? = some (modelType, providers) →
      ∃ p ∈ providers,
        (s.step (.checked waiting readings)).choices = s.choices ++ [(modelType, p)] ∧
        (checkHealth (readings p.id) ∨ ∀ q ∈ providers, ¬checkHealth (readings q.id))) ∧
    ∀ waiting table modelType now, s.loading[waiting]? = some (modelType, now) →
      let stored := s.step (.loaded waiting table)
      stored.balancer.poolCache modelType = some (queryProviders modelType table) ∧
        (((queryProviders modelType table).map (·.id)).Nodup →
          FairFrom stored modelType (queryProviders modelType table)) := by
  intro s
  have hconsistent : Consistent s := consistent_run stretches
  refine ⟨fun modelType pool hcached hids ↦ fairFrom_of_cached hconsistent hids hcached, ?_, ?_⟩
  · intro waiting readings modelType providers hchecking
    have hproviders : providers ≠ [] := hconsistent.checking _ (List.mem_of_getElem? hchecking)
    obtain ⟨p, hp, b', hselect⟩ := exists_weightedSelect s.balancer modelType
      (candidates_ne_nil readings hproviders)
    refine ⟨p, (served_candidates readings providers).subset hp, ?_,
      healthy_of_mem_candidates hp⟩
    rw [Balancing.step_checked_eq hchecking hselect]
  · intro waiting table modelType now hloading stored
    have hcached : stored.balancer.poolCache modelType = some (queryProviders modelType table) := by
      simp only [stored, Balancing.step, hloading, Balancing.check_balancer, LoadBalancer.store,
        LoadBalancer.buildRrSequence, Function.update_self]
    exact ⟨hcached, fun hids ↦
      fairFrom_of_cached (Balancing.step_consistent s _ hconsistent) hids hcached⟩

def exampleRow (id : String) (weight : ℤ) : ProviderRow :=
  { id, name := id, provider := "openai", model := "chat", apiKey := "key", baseUrl := "url"
    weight, modelType := "fast", isActive := true }

/-- Two providers with three places between them, and a third one that is not healthy in the
window. -/
def exampleTable : List ProviderRow := [exampleRow "b" 1, exampleRow "a" 2, exampleRow "c" 1]

def exampleReadings : String → FailureCount := fun id ↦
  if id = "c" then .failures 5 else .absent

/-- A selection among all providers leaves the counter behind the first place. -/
def exampleStart : List Stretch :=
  [.start "fast" 0, .loaded 0 exampleTable, .checked 0 fun _ ↦ .absent, .start "fast" 1,
    .start "fast" 1]

def exampleWindow : List Stretch :=
  [.checked 0 exampleReadings, .start "fast" 2, .checked 1 exampleReadings,
    .checked 0 exampleReadings]

theorem selections_by_weight_window :
    ∀ p ∈ candidates exampleReadings (queryProviders "fast" exampleTable),
      ((run Balancing.step (run Balancing.step {} exampleStart) exampleWindow).chosen
        "fast").tail.count p = p.weight :=
  (selections_by_weight exampleStart).1 "fast" (queryProviders "fast" exampleTable)
    (by decide +kernel) (by decide) exampleReadings exampleWindow _
    ⟨by unfold Steady; decide +kernel, by unfold Steady; decide +kernel,
      by unfold Steady; decide +kernel, by unfold Steady; decide +kernel, trivial⟩
    (by decide +kernel) (by decide +kernel)

end Runs

end LlmGateway.Llm
