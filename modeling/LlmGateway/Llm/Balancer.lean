import LlmGateway.Relational.Transition
import Mathlib.Data.Rat.Defs
import Mathlib.Algebra.Order.Ring.Rat
import Mathlib.Data.List.Sort

/-!
# The load balancer of the model providers

The providers of a model type are read from the database and kept for a while. A sequence that
holds the id of each provider as often as its weight is built of them, and a counter goes round
the part of the sequence whose providers are healthy.

A selection waits for the database and for the failure counts, so that other selections, and the
clearing of the cache, run between its start and its choice.
-/

namespace LlmGateway.Llm

abbrev ModelType := String

structure LLMProviderConfig where
  id : String
  name : String
  provider : String
  model : String
  apiKey : String
  baseUrl : String
  weight : ℕ
  modelType : ModelType
  weight_pos : 0 < weight

namespace LLMProviderConfig

/-- The data of a configuration. -/
def fields (p : LLMProviderConfig) :
    (String × String × String × String) × String × String × ℕ × ModelType :=
  ((p.id, p.name, p.provider, p.model), p.apiKey, p.baseUrl, p.weight, p.modelType)

theorem fields_injective : Function.Injective fields := by
  rintro ⟨⟩ ⟨⟩ h
  simp only [fields, Prod.mk.injEq] at h
  simp only [h]

instance : DecidableEq LLMProviderConfig := fields_injective.decidableEq

end LLMProviderConfig

/-- A row of `llm_providers`. -/
structure ProviderRow where
  id : String
  name : String
  provider : String
  model : String
  apiKey : String
  baseUrl : String
  weight : ℤ
  modelType : ModelType
  isActive : Bool

/-- The configuration of an active row of the model type. -/
def ProviderRow.config? (modelType : ModelType) (row : ProviderRow) : Option LLMProviderConfig :=
  if h : row.isActive = true ∧ row.modelType = modelType ∧ 0 < row.weight then
    some
      { id := row.id
        name := row.name
        provider := row.provider
        model := row.model
        apiKey := row.apiKey
        baseUrl := row.baseUrl
        weight := row.weight.toNat
        modelType := row.modelType
        weight_pos := Int.pos_iff_toNat_pos.1 h.2.2 }
  else none

/-- The query of the active providers, the heaviest first. The order of the table is the order in
which the database meets rows of one weight. -/
def queryProviders (modelType : ModelType) (table : List ProviderRow) : List LLMProviderConfig :=
  (table.filterMap (ProviderRow.config? modelType)).insertionSort fun p q ↦ q.weight ≤ p.weight

/-- What reading the failure count of a provider comes to. -/
inductive FailureCount
  | unavailable
  | absent
  | failures (count : ℤ)
deriving DecidableEq

def unhealthyThreshold : ℤ := 5

def cacheTtl : ℚ := 300

/-- `_check_health`: a count that cannot be read leaves the provider healthy. -/
def checkHealth : FailureCount → Bool
  | .unavailable => true
  | .absent => true
  | .failures count => count < unhealthyThreshold

structure LoadBalancer where
  poolCache : ModelType → Option (List LLMProviderConfig) := fun _ ↦ none
  poolLoadedAt : ModelType → Option ℚ := fun _ ↦ none
  rrSequences : ModelType → Option (List String) := fun _ ↦ none
  rrCounters : ModelType → Option ℕ := fun _ ↦ none

/-- The sequence in which each provider has as many places as its weight. -/
def rrSequence (providers : List LLMProviderConfig) : List String :=
  providers.flatMap fun p ↦ List.replicate p.weight p.id

namespace LoadBalancer

/-- `_build_rr_sequence`: a counter behind the end of the new sequence starts again. -/
def buildRrSequence (b : LoadBalancer) (modelType : ModelType)
    (providers : List LLMProviderConfig) : LoadBalancer :=
  let sequence := rrSequence providers
  let counter :=
    match b.rrCounters modelType with
    | none => 0
    | some counter => if sequence.length ≤ counter then 0 else counter
  { b with
    rrSequences := Function.update b.rrSequences modelType (some sequence)
    rrCounters := Function.update b.rrCounters modelType (some counter) }

/-- The cached providers of `_load_providers`, while they are fresh. -/
def cached (b : LoadBalancer) (modelType : ModelType) (now : ℚ) : Option (List LLMProviderConfig) :=
  (b.poolCache modelType).filter fun _ ↦ now - (b.poolLoadedAt modelType).getD 0 < cacheTtl

/-- The rest of `_load_providers`, with the answer of the database. -/
def store (b : LoadBalancer) (modelType : ModelType) (now : ℚ)
    (providers : List LLMProviderConfig) : LoadBalancer :=
  { b with
    poolCache := Function.update b.poolCache modelType (some providers)
    poolLoadedAt := Function.update b.poolLoadedAt modelType (some now) }.buildRrSequence
      modelType providers

/-- `_weighted_select`; `none` stands for the index error of an empty list. -/
def weightedSelect (b : LoadBalancer) (modelType : ModelType) (providers : List LLMProviderConfig) :
    Option (LLMProviderConfig × LoadBalancer) :=
  let healthyIds := providers.map (·.id)
  let sequence := (b.rrSequences modelType).getD []
  if sequence = [] then providers.head?.map fun p ↦ (p, b)
  else
    let healthy := sequence.filter (· ∈ healthyIds)
    let filtered := if healthy = [] then sequence else healthy
    let idx := (b.rrCounters modelType).getD 0 % filtered.length
    filtered[idx]?.bind fun selectedId ↦
      -- of entries of one id the mapping keeps the last
      ((providers.reverse.find? fun p ↦ p.id = selectedId).or providers.head?).map fun p ↦
        (p, { b with rrCounters := Function.update b.rrCounters modelType (some (idx + 1)) })

def invalidateCache (_ : LoadBalancer) : LoadBalancer := {}

end LoadBalancer

/-- The providers among which `select` chooses: all of them if none is healthy. -/
def candidates (readings : String → FailureCount) (providers : List LLMProviderConfig) :
    List LLMProviderConfig :=
  let healthy := providers.filter fun p ↦ checkHealth (readings p.id)
  if healthy = [] then providers else healthy

/-- The balancer, the selections that wait for the database or for the failure counts, and the
choices made so far. -/
structure Balancing where
  balancer : LoadBalancer := {}
  loading : List (ModelType × ℚ) := []
  checking : List (ModelType × List LLMProviderConfig) := []
  choices : List (ModelType × LLMProviderConfig) := []

/-- A stretch of `select`, or of another caller, that runs without being suspended. -/
inductive Stretch
  | start (modelType : ModelType) (now : ℚ)
  | loaded (waiting : ℕ) (table : List ProviderRow)
  | checked (waiting : ℕ) (readings : String → FailureCount)
  | invalidate

namespace Balancing

/-- A selection with its providers goes on to check their health, unless there are none. -/
def check (s : Balancing) (modelType : ModelType) (providers : List LLMProviderConfig) : Balancing :=
  if providers = [] then s
  else { s with checking := s.checking ++ [(modelType, providers)] }

def step (s : Balancing) : Stretch → Balancing
  | .start modelType now =>
    match s.balancer.cached modelType now with
    | some providers => s.check modelType providers
    | none => { s with loading := s.loading ++ [(modelType, now)] }
  | .loaded waiting table =>
    match s.loading[waiting]? with
    | none => s
    | some (modelType, now) =>
      let providers := queryProviders modelType table
      { s with
        balancer := s.balancer.store modelType now providers
        loading := s.loading.eraseIdx waiting }.check modelType providers
  | .checked waiting readings =>
    match s.checking[waiting]? with
    | none => s
    | some (modelType, providers) =>
      match s.balancer.weightedSelect modelType (candidates readings providers) with
      | none => { s with checking := s.checking.eraseIdx waiting }
      | some (selected, balancer) =>
        { s with
          balancer
          checking := s.checking.eraseIdx waiting
          choices := s.choices ++ [(modelType, selected)] }
  | .invalidate => { s with balancer := s.balancer.invalidateCache }

/-- The providers chosen for the model type, the earliest first. -/
def chosen (s : Balancing) (modelType : ModelType) : List LLMProviderConfig :=
  (s.choices.filter fun choice ↦ choice.1 = modelType).map (·.2)

end Balancing

end LlmGateway.Llm
