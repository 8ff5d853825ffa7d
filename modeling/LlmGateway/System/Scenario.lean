import LlmGateway.Activity.Plan
import LlmGateway.System.World

/-!
# Building blocks of concrete runs

Events of one gateway, with a small lease, a configuration with short times, and an activity
plan of three steps. The counterexamples and witnesses of the later modules are runs of these.
-/

namespace LlmGateway.Scenario

def lease (sessionId : String) (generation : ℕ) (leaseId : String) (version : ℕ) :
    DecisionLeaseContext where
  sessionId := sessionId
  controlGeneration := generation
  decisionLeaseId := leaseId
  stateVersion := version
  leaseKind := "decision"
  allowedActions := [.wait, .noOp]
  allowedSkillName := none
  allowedSkillNames := []
  parentSkillName := none
  actions_ne_nil := by decide
  actions_nodup := by decide
  skillNames_nodup := by decide
  skillName_mem := by decide

def context (version : ℕ) : DecisionContext where
  session := [("Tick", .int version)]
  availableSkills := []
  skillArgumentHints := []
  lastSkillResult := none
  session_ne_nil := List.cons_ne_nil _ _
  skills_nodup := by decide
  hints_nodup := by decide
  hints_mem := by decide

def offer (sessionId : String) (generation : ℕ) (leaseId : String) (version : ℕ) : LeaseOffer :=
  ⟨lease sessionId generation leaseId version, context version⟩

/-- An identifier; a string outside the limits of the contract is read as another one. -/
def name (text : String) : String := if NonEmptyString128 text then text else "x"

theorem name_length (text : String) : NonEmptyString128 (name text) := by
  unfold name
  split
  · assumption
  · decide

/-- A position; a zero is read as one. -/
def position (generation sequence : ℕ) : Position :=
  ⟨max generation 1, max sequence 1, by omega, by omega⟩

def sessionStarted (eventId : String) (generation : ℕ) (leaseId : String) (version : ℕ) :
    GatewayEvent where
  eventId := name eventId
  sessionId := "s"
  stateVersion := version
  decisionLeaseId := some leaseId
  occurredAtMs := 0
  body := .sequenced (position generation 1)
    (.sessionStarted "start" (offer "s" (max generation 1) leaseId version))
  valid := by simp [EventBody.Valid, Payload.offer?, Payload.eventType, offer, lease, position]
  eventId_length := name_length eventId
  sessionId_length := by decide

def observation (eventId : String) (generation sequence : ℕ) (leaseId : String) (version : ℕ) :
    GatewayEvent where
  eventId := name eventId
  sessionId := "s"
  stateVersion := version
  decisionLeaseId := some leaseId
  occurredAtMs := 0
  body := .sequenced (position generation sequence)
    (.observationUpdated none (offer "s" (max generation 1) leaseId version))
  valid := by simp [EventBody.Valid, Payload.offer?, Payload.eventType, offer, lease, position]
  eventId_length := name_length eventId
  sessionId_length := by decide

/-- The payloads without a lease. -/
def Leaseless : Type :=
  { payload : Payload // payload.offer? = none ∧ payload.eventType ≠ .sessionStarted }

def plain (eventId : String) (generation sequence occurredAtMs : ℕ) (payload : Leaseless) :
    GatewayEvent where
  eventId := name eventId
  sessionId := "s"
  stateVersion := 0
  decisionLeaseId := none
  occurredAtMs := occurredAtMs
  body := .sequenced (position generation sequence) payload.1
  valid := by simp [EventBody.Valid, payload.2]
  eventId_length := name_length eventId
  sessionId_length := by decide

/-- An event may end at the instant in which it starts. -/
theorem instant : 0 ≤ 0 := Nat.le_refl 0

def started (decisionId : String) : Leaseless :=
  ⟨.skillStarted ⟨decisionId, "call", "dance", 0⟩, rfl, EventType.noConfusion⟩

def finished (decisionId : String) : Leaseless :=
  ⟨.skillFinished ⟨decisionId, "call", "dance", .success, "done", false, 0, 0, none, le_refl 0⟩,
    rfl, EventType.noConfusion⟩

def timedOut (decisionId : String) : Leaseless :=
  ⟨.skillFinished ⟨decisionId, "call", "dance", .timeout "too late" true, "too late", true, 0, 0,
    none, le_refl 0⟩, rfl, EventType.noConfusion⟩

def rejected (decisionId : String) : Leaseless :=
  ⟨.decisionRejected ⟨decisionId, .wait, none, "reason", 0⟩, rfl, EventType.noConfusion⟩

def stopped : Leaseless := ⟨.sessionStopped ⟨"stop_hosting_requested", 0⟩, rfl, EventType.noConfusion⟩

def chat (eventId : String) : GatewayEvent where
  eventId := name eventId
  sessionId := "s"
  stateVersion := 0
  decisionLeaseId := none
  occurredAtMs := 0
  body := .chat (.chatReceived .null)
  valid := ⟨rfl, rfl⟩
  eventId_length := name_length eventId
  sessionId_length := by decide

def worker : WorkerConfig where
  claimTtlMs := 100
  maxAttempts := 3
  retryBaseMs := 10
  retryMaxMs := 1000
  claimTtl_pos := by decide
  maxAttempts_pos := by decide
  retryBase_pos := by decide
  retryBase_le_retryMax := by decide

theorem noLeaseLifetime_pos : ∀ lifetime ∈ (none : Option ℕ), 0 < lifetime := by decide

theorem byte_pos : 0 < 256 := by decide

def outbox : OutboxConfig where
  worker := worker
  leaseLifetimeMs := none
  sha256 _ _ := ⟨0, byte_pos⟩
  capacityKey _ _ _ := none
  capacityLimit _ _ := none
  activityCapacityTtlMs := 1000
  leaseLifetime_pos := noLeaseLifetime_pos

def config : SystemConfig where
  events := worker
  outbox := outbox
  eventStaleAfterMs := some 50
  sessionIdleTimeoutMs := some 10000
  admissionStaleAfterMs := none

def identity : Identity := ⟨⟨0, 0⟩, "g"⟩

/-- Admit one batch. -/
def submit (events : List GatewayEvent) : Action := .acceptBatch identity "trace" events

/-- A claim pass with every cycle free. -/
def claim : Action := .claimPass "worker" []

/-- The token with a given serial number. -/
def token (serial : ℕ) : Uuid := ⟨0, serial⟩

def finish (serial : ℕ) : Action := .complete (token serial) .success

def giveUp (serial : ℕ) : Action := .complete (token serial) (.giveUp "fence" "claim_lost")

/-- The state after a run from the empty database. -/
def after (actions : List Action) : World :=
  Relational.run (World.exec config) (World.initial fun _ ↦ 0) actions

theorem reachable_after (entropy : ℕ → ℕ) (actions : List Action) :
    World.Reachable config (Relational.run (World.exec config) (World.initial entropy) actions) :=
  ⟨entropy, actions, rfl⟩

/-! ## A role in the plaza -/

/-- A lease to sit down, to dance or to wait. -/
def plazaLease : DecisionLeaseContext where
  sessionId := "s"
  controlGeneration := 1
  decisionLeaseId := "L1"
  stateVersion := 1
  leaseKind := "observation"
  allowedActions := [.callSkill, .wait]
  allowedSkillName := none
  allowedSkillNames := []
  parentSkillName := none
  actions_ne_nil := by decide
  actions_nodup := by decide
  skillNames_nodup := by decide
  skillName_mem := by decide

def argumentField (path : String) : SkillArgumentField :=
  ⟨path, none, none, none, none, none, none, none⟩

/-- A hint that asks for all of some arguments. -/
def hint (skillName : String) (paths : List String) : SkillArgumentHint where
  skillName := skillName
  schemaVersion := "v1"
  argumentStatus := "missing"
  suggestedArgs := []
  allowedArgs := paths.map argumentField
  missingArgs := paths.map argumentField
  warnings := []
  nextSteps := []

def plazaContext : DecisionContext where
  session := [("AccountId", .str "role"), ("SceneId", .int 7)]
  availableSkills :=
    [⟨"seat_sit", "v1", false, 0, none⟩, ⟨"dance_auto_schedule", "v1", false, 0, none⟩]
  skillArgumentHints := [hint "seat_sit" ["sceneId", "chairId"], hint "dance_auto_schedule" ["score"]]
  lastSkillResult := none
  session_ne_nil := List.cons_ne_nil _ _
  skills_nodup := by decide
  hints_nodup := by decide
  hints_mem := by decide

def plazaStarted : GatewayEvent where
  eventId := "e1"
  sessionId := "s"
  stateVersion := 1
  decisionLeaseId := some "L1"
  occurredAtMs := 0
  body := .sequenced (position 1 1) (.sessionStarted "start" ⟨plazaLease, plazaContext⟩)
  valid := by decide
  eventId_length := by decide
  sessionId_length := by decide

/-! ## An activity plan -/

/-- A walk, a dance and a coffee. -/
def wanderProposal : ActivityPlanProposal where
  goalId := "plaza_explore"
  goalSummary := "Explore the plaza"
  steps :=
    [⟨"move", "movement", some "move_to", some "v1", some "scene:7:navigation:1",
        "Walk to a plaza point"⟩,
      ⟨"dance", "activity", some "dance_auto_schedule", some "v1", none, "Dance at the plaza"⟩,
      ⟨"coffee", "activity", some "coffee_auto_schedule", some "v1", none, "Have coffee"⟩]

def wanderSkills : List (String × String) :=
  [("move_to", "v1"), ("dance_auto_schedule", "v1"), ("coffee_auto_schedule", "v1")]

def wanderPlan : ActivityPlan where
  planId := "plan-wander"
  goalId := "plaza_explore"
  goalSummary := "Explore the plaza"
  phase := "movement"
  status := .active
  version := 1
  currentStepId := some "move"
  steps := wanderProposal.steps.map (·.toPlanStep)

theorem materialize_wander :
    materializeActivityPlan wanderProposal "plan-wander" 1 wanderSkills false = .ok wanderPlan := by
  decide +kernel

end LlmGateway.Scenario
