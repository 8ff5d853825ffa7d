import LlmGateway.System.Dispatch
import LlmGateway.Inbox.Admission

/-!
# Runs of the gateway

The state of a run: the database, the clock, the claims that were handed out, and two logs
that no transaction reads, of the batches acknowledged and of the lease contexts persisted.
An action is one transaction of one repository method, by any worker, in any order; a worker
acts only on a claim that was handed out, but may do so at any later time, repeatedly, or
never. A transaction that fails changes nothing.
-/

namespace LlmGateway

open Relational

structure SystemConfig where
  events : WorkerConfig
  outbox : OutboxConfig
  eventStaleAfterMs : Option ℕ
  sessionIdleTimeoutMs : Option ℕ
  admissionStaleAfterMs : Option ℕ

/-- A committed batch and its acknowledgement. -/
structure Acknowledgement where
  identity : Identity
  traceId : String
  events : List GatewayEvent
  acceptance : BatchAcceptance

/-- A lease context that `persist_lease_context` stored. -/
structure PersistEntry where
  claim : ClaimedEvent
  context : AgentContext
deriving DecidableEq

structure World where
  db : Db
  now : ℕ
  claims : List ClaimedEvent
  decisionClaims : List ClaimedDecision
  acknowledged : List Acknowledgement
  persisted : List PersistEntry

inductive Action where
  | tick (ms : ℕ)
  | acceptBatch (identity : Identity) (traceId : String) (events : List GatewayEvent)
  | claimPass (workerId : String) (busy : List Uuid)
  | renew (claimToken : Uuid)
  | complete (claimToken : Uuid) (result : EventProcessResult)
  | persist (claimToken : Uuid)
  | sweep
  | discard
  | stopIdle
  | plan (claimToken : Uuid) (action : AgentAction) (decisionId : String)
  | record (claimToken : Uuid)
  | claimDecision (workerId : String)
  | renewDecision (claimToken : Uuid)
  | failDecision (claimToken : Uuid) (errorStage errorCategory : String)
      (responseBodyJson : Option (List (Text × Json)))
  | recordResponse (claimToken : Uuid) (response : DecisionClientResult)
  | sweepDecisions

namespace World

def initial (entropy : ℕ → ℕ) : World where
  db := .empty entropy
  now := 0
  claims := []
  decisionClaims := []
  acknowledged := []
  persisted := []

variable (config : SystemConfig) (w : World)

def claim? (claimToken : Uuid) : Option ClaimedEvent :=
  w.claims.find? fun c ↦ c.claimToken = claimToken

def decisionClaim? (claimToken : Uuid) : Option ClaimedDecision :=
  w.decisionClaims.find? fun c ↦ c.claimToken = claimToken

/-- Keep the state of a transaction that committed. -/
def commit {α : Type*} (result : Except Failure (α × Db)) : World :=
  match result with
  | .ok (_, db) => { w with db := db }
  | .error _ => w

def acceptBatch (identity : Identity) (traceId : String) (events : List GatewayEvent) : World :=
  match acceptEventBatch config.admissionStaleAfterMs w.now identity traceId events w.db with
  | .error _ => w
  | .ok (acceptance, db) =>
    { w with
      db := db
      acknowledged := w.acknowledged ++ [⟨identity, traceId, events, acceptance⟩] }

def claimPass (workerId : String) (busy : List Uuid) : World :=
  match LlmGateway.claimPass config.events w.now workerId busy w.db with
  | (.claimed claim, db) => { w with db := db, claims := w.claims ++ [claim] }
  | (_, db) => { w with db := db }

/-- `persist_lease_context` with the context built from the event. -/
def persist (c : ClaimedEvent) : World :=
  match buildAgentContext c.event with
  | none => w
  | some context =>
    match persistLeaseContext c context w.db with
    | .ok (true, db) => { w with db := db, persisted := w.persisted ++ [⟨c, context⟩] }
    | .ok (false, db) => { w with db := db }
    | .error _ => w

def discard : World :=
  match discardStaleEvents config.eventStaleAfterMs w.now w.db with
  | .ok db => { w with db := db }
  | .error _ => w

/-- `plan_decision` with the context built from the event. -/
def plan (c : ClaimedEvent) (action : AgentAction) (decisionId : String) : World :=
  match buildAgentContext c.event with
  | none => w
  | some context =>
    { w with db := (planDecision config.outbox w.now c context action decisionId w.db).2 }

/-- The repository call that the dispatcher makes for a terminal event. -/
def recordTerminal (c : ClaimedEvent) : World :=
  match c.event.body with
  | .sequenced _ (.skillStarted payload) =>
    { w with db := (recordSkillStarted w.now c payload w.db).2 }
  | .sequenced _ (.skillFinished payload) => w.commit (recordSkillFinished w.now c payload w.db)
  | .sequenced _ (.decisionRejected payload) =>
    { w with db := (mergeDecisionRejected c payload w.db).2 }
  | .sequenced _ (.sessionStopped payload) => w.commit (closeGeneration c payload w.db)
  | _ => w

def claimDecision (workerId : String) : World :=
  match claimNextDecision config.outbox.worker w.now workerId w.db with
  | (some claim, db) => { w with db := db, decisionClaims := w.decisionClaims ++ [claim] }
  | (none, db) => { w with db := db }

/-- A worker acts on a claim that was handed out. -/
def withClaim (claimToken : Uuid) (f : ClaimedEvent → World) : World :=
  (w.claim? claimToken).elim w f

def withDecisionClaim (claimToken : Uuid) (f : ClaimedDecision → World) : World :=
  (w.decisionClaim? claimToken).elim w f

/-- One transaction. -/
def exec (action : Action) : World :=
  match action with
  | .tick ms => { w with now := w.now + ms }
  | .acceptBatch identity traceId events => w.acceptBatch config identity traceId events
  | .claimPass workerId busy => w.claimPass config workerId busy
  | .renew token => w.withClaim token fun c ↦
      w.commit (renewEventClaim config.events w.now c w.db)
  | .complete token result => w.withClaim token fun c ↦
      { w with db := (completeEvent config.events w.now c result w.db).2 }
  | .persist token => w.withClaim token w.persist
  | .sweep => { w with db := sweepExpiredClaims config.events w.now w.db }
  | .discard => w.discard config
  | .stopIdle => { w with db := stopIdleSessions config.sessionIdleTimeoutMs w.now w.db }
  | .plan token action decisionId => w.withClaim token fun c ↦ w.plan config c action decisionId
  | .record token => w.withClaim token w.recordTerminal
  | .claimDecision workerId => w.claimDecision config workerId
  | .renewDecision token => w.withDecisionClaim token fun c ↦
      { w with db := (renewDecisionClaim config.outbox.worker w.now c w.db).2 }
  | .failDecision token errorStage errorCategory body => w.withDecisionClaim token fun c ↦
      { w with db := (completeDecisionFailure config.outbox.worker w.now c errorStage
          errorCategory body w.db).2 }
  | .recordResponse token response => w.withDecisionClaim token fun c ↦
      w.commit (recordDecisionResponse w.now c response w.db)
  | .sweepDecisions =>
    { w with db := sweepExpiredDecisionClaims config.outbox.worker w.now w.db }

/-- A state that some run reaches from an empty database. -/
def Reachable : Prop :=
  ∃ entropy actions, w = run (exec config) (initial entropy) actions

end World

end LlmGateway
