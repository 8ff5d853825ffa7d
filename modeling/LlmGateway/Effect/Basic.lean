import LlmGateway.Inbox.Admission
import LlmGateway.Outbox.Delivery

/-!
# Effects

What the transactions of the gateway do to sessions, cycles and events, cut into elementary
changes. An `Effect` says which rows a statement may change, what it may change in them, and
what the transaction has checked before; invariants of the inbox are proved once for each
kind of effect, and each transaction is shown to be a chain of effects.

Some branches are taken by some runs only. They are named by `Branch`, and effects are
relative to a predicate on the branches that are taken.
-/

namespace LlmGateway

open Relational

/-- A branch of a transaction, with the rows as the transaction has read them. Claims and
admissions are told apart from all other transactions as well. -/
inductive Branch where
  | chatActivation (j : Joined)
  | wait (j : Joined)
  | fenced (j : Joined)
  | manual (j : Joined)
  | discard (j : Joined)
  | persist (c : ClaimedEvent)
  | claim
  | admission

/-! ## Rows that belong together -/

def SessionRow.Owns (s : SessionRow) (c : CycleKey) : Prop :=
  s.id = c.runtimeSessionId ∧ s.gatewayId = c.gatewayId ∧ s.sessionId = c.sessionId

def CycleRow.Owns (c : CycleRow) (e : EventKey) : Prop :=
  c.id = e.cycleId ∧ c.gatewayId = e.gatewayId ∧ c.sessionId = e.sessionId ∧
    c.controlGeneration = e.controlGeneration

/-- The joined rows are stored and agree on the names of session and generation. -/
structure Db.Linked (db : Db) (j : Joined) : Prop extends db.Joins j where
  cycle_owns : j.cycle.Owns j.event.toEventKey
  session_owns : j.session.Owns j.cycle.toCycleKey

/-- The session has this generation, or a newer one, as its current generation. -/
def Db.Reached (db : Db) (gatewayId sessionId : String) (generation : ℕ) : Prop :=
  ∃ s ∈ db.sessions, s.gatewayId = gatewayId ∧ s.sessionId = sessionId ∧
    ∃ g ∈ s.currentGeneration, generation ≤ g

/-- The generation of the cycle is the current one of its session. -/
def Db.Current (db : Db) (gatewayId sessionId : String) (generation : ℕ) : Prop :=
  ∃ s ∈ db.sessions, s.gatewayId = gatewayId ∧ s.sessionId = sessionId ∧
    s.currentGeneration = some generation

instance (db : Db) (gatewayId sessionId : String) (generation : ℕ) :
    Decidable (db.Reached gatewayId sessionId generation) :=
  inferInstanceAs (Decidable (∃ _ ∈ _, _))

instance (db : Db) (gatewayId sessionId : String) (generation : ℕ) :
    Decidable (db.Current gatewayId sessionId generation) :=
  inferInstanceAs (Decidable (∃ _ ∈ _, _))

/-- No sequenced event of the current generation of the session is being processed. -/
def Db.Quiet (db : Db) (s : SessionRow) : Prop :=
  ∀ e ∈ db.events, e.gatewayId = s.gatewayId → e.sessionId = s.sessionId →
    s.currentGeneration = some e.controlGeneration → e.eventType.isHostedChat = false →
    e.status ≠ .processing

/-! ## New rows -/

def SessionRow.New (s : SessionRow) : Prop := s.currentGeneration = none ∧ s.status = .pending

def CycleRow.New (c : CycleRow) : Prop :=
  c.status = .pending ∧ c.nextEventSequence = 1 ∧ c.latestStateVersion = none ∧
    c.latestDecisionLeaseId = none ∧ c.latestDecisionContext = none

/-- The event is not claimed. -/
structure EventRow.Released (e : EventRow) : Prop where
  status : e.status ≠ .processing
  claimToken : e.claimToken = none
  claimedFenceVersion : e.claimedFenceVersion = none
  lockUntil : e.lockUntil = none
  lockedBy : e.lockedBy = none

structure EventRow.New (now : ℕ) (e : EventRow) : Prop extends e.Released where
  pending : e.status = .pending
  attempts : e.attemptCount = 0
  due : e.nextAttemptAt ≤ now

/-- The columns of an event agree with the event it stores. -/
structure EventKey.Sound (e : EventKey) : Prop where
  eventId : e.eventId = e.eventBody.eventId
  sessionId : e.sessionId = e.eventBody.sessionId
  eventType : e.eventType = e.eventBody.eventType
  contentHash : e.contentHash = eventContentHash e.gatewayId e.eventBody
  position : ∀ position ∈ e.eventBody.position?,
    e.controlGeneration = position.controlGeneration ∧ e.eventSequence = position.eventSequence
  sequence_one : e.eventSequence = 1 ↔ e.eventType = .sessionStarted
  sequence_pos : 0 < e.eventSequence
  chat_floor : e.eventType.isHostedChat = true →
    hostedChatStorageSequenceFloor ≤ e.eventSequence

/-! ## Changed rows -/

structure SessionRow.Grows (s s' : SessionRow) : Prop where
  key_eq : s'.toSessionKey = s.toSessionKey
  generation : ∀ g ∈ s.currentGeneration, ∃ g' ∈ s'.currentGeneration, g ≤ g'

theorem SessionRow.Grows.refl (s : SessionRow) : s.Grows s :=
  ⟨rfl, fun g hg ↦ ⟨g, hg, le_refl g⟩⟩

theorem SessionRow.Grows.trans {s t u : SessionRow} (h : s.Grows t) (h' : t.Grows u) :
    s.Grows u where
  key_eq := h'.key_eq.trans h.key_eq
  generation g hg := by
    obtain ⟨g', hg', hle⟩ := h.generation g hg
    obtain ⟨g'', hg'', hle'⟩ := h'.generation g' hg'
    exact ⟨g'', hg'', hle.trans hle'⟩

/-- What every statement except the claim does to an event: it closes or releases an open
one, or it extends a lock. -/
structure EventRow.Settles (e e' : EventRow) : Prop where
  key_eq : e'.toEventKey = e.toEventKey
  attempts_eq : e'.attemptCount = e.attemptCount
  change : e' = e ∨ (e.status.isOpen = true ∧ e'.Released) ∨
    (e.status = .processing ∧ ∃ t, e' = { e with lockUntil := some t })

theorem EventRow.Settles.refl (e : EventRow) : e.Settles e := ⟨rfl, rfl, Or.inl rfl⟩

/-- The rows that a statement other than the claim may touch. -/
def Db.MaySettle (db : Db) (P : Branch → Prop) (e : EventRow) : Prop :=
  e.status = .processing ∨
    (∃ c ∈ db.cycles, c.id = e.cycleId ∧ c.status ≠ .pending ∧ c.status ≠ .active) ∨
    db.Reached e.gatewayId e.sessionId e.controlGeneration ∨
    ∃ j, P (.discard j) ∧ j.event.toEventKey = e.toEventKey ∧
      ∃ s ∈ db.sessions, j.session.Grows s ∧ s.gatewayId = e.gatewayId ∧ s.sessionId = e.sessionId

/-! ## Decisions -/

variable {db db' db'' : Db}

def Db.ActiveCycle (db : Db) (cycleId : Uuid) : Prop :=
  ∃ c ∈ db.cycles, c.id = cycleId ∧ c.status = .active

/-- A decision is planned, claimed or put back only while its cycle is active. -/
def DecisionRow.Moves (db : Db) (d d' : DecisionRow) : Prop :=
  d'.toDecisionKey = d.toDecisionKey ∧
    (d'.status.isUnsent = true →
      (d'.status = d.status ∧ d'.claimToken = d.claimToken) ∨ db.ActiveCycle d.cycleId)

/-- The decision is one for the latest lease of an active cycle. -/
def DecisionKey.Planned (db : Db) (d : DecisionKey) : Prop :=
  ∃ c ∈ db.cycles, c.id = d.cycleId ∧ c.status = .active ∧
    c.latestDecisionLeaseId = some d.decisionLeaseId ∧ c.latestStateVersion = some d.stateVersion

theorem DecisionRow.Moves.refl (db : Db) (d : DecisionRow) : d.Moves db d :=
  ⟨rfl, fun _ ↦ Or.inl ⟨rfl, rfl⟩⟩

theorem DecisionRow.Moves.trans {d d' d'' : DecisionRow} (h : d.Moves db d')
    (h' : d'.Moves db d'') : d.Moves db d'' := by
  refine ⟨h'.1.trans h.1, fun hunsent ↦ ?_⟩
  rcases h'.2 hunsent with ⟨hstatus, htoken⟩ | hactive
  · rw [hstatus] at hunsent ⊢
    rw [htoken]
    exact h.2 hunsent
  · rw [h.1] at hactive
    exact Or.inr hactive

def Db.DecisionsEvolve (db db' : Db) : Prop :=
  Table.Evolves (DecisionRow.Moves db) (fun d ↦ d.toDecisionKey.Planned db) db.decisions
    db'.decisions

/-- A tracked action belongs to one decision, a call of a skill. -/
structure Db.Tracked (db : Db) : Prop where
  issued : ∀ d ∈ db.decisions, ∀ t ∈ d.actionTrackingId, t.serial < db.issued
  unique : ∀ d ∈ db.decisions, ∀ d' ∈ db.decisions, ∀ t ∈ d.actionTrackingId,
    t ∈ d'.actionTrackingId → d.toDecisionKey = d'.toDecisionKey
  callSkill : ∀ d ∈ db.decisions, d.actionTrackingId.isSome = true → d.action = .callSkill

/-- Tracked actions are told by the keys of the decisions alone. -/
theorem Db.Tracked.of_keys (h : db.Tracked) (hissued : db.issued ≤ db'.issued)
    (hkeys : ∀ d' ∈ db'.decisions, ∃ d ∈ db.decisions, d'.toDecisionKey = d.toDecisionKey) :
    db'.Tracked where
  issued d' hd' t ht := by
    obtain ⟨d, hd, hkey⟩ := hkeys d' hd'
    rw [hkey] at ht
    exact (h.issued d hd t ht).trans_le hissued
  unique d₁' hd₁' d₂' hd₂' t ht₁ ht₂ := by
    obtain ⟨d₁, hd₁, hkey₁⟩ := hkeys d₁' hd₁'
    obtain ⟨d₂, hd₂, hkey₂⟩ := hkeys d₂' hd₂'
    rw [hkey₁] at ht₁ ⊢
    rw [hkey₂] at ht₂ ⊢
    exact h.unique d₁ hd₁ d₂ hd₂ t ht₁ ht₂
  callSkill d' hd' htracked := by
    obtain ⟨d, hd, hkey⟩ := hkeys d' hd'
    rw [hkey] at htracked ⊢
    exact h.callSkill d hd htracked

/-- The call is one of the skill that the decision names. -/
def DecisionRow.Calls (d : DecisionRow) (k : CallKey) : Prop :=
  d.id = k.decisionRowId ∧ d.gatewayId = k.gatewayId ∧ d.decisionId = k.decisionId ∧
    d.sessionId = k.sessionId ∧ d.skillName = some k.skillName

theorem DecisionRow.skillName_congr {d d' : DecisionRow} (h : d'.toDecisionKey = d.toDecisionKey) :
    d'.skillName = d.skillName := by
  unfold DecisionRow.skillName
  rw [h]

theorem DecisionRow.Calls.of_key_eq {d d' : DecisionRow} (h : d'.toDecisionKey = d.toDecisionKey)
    {k : CallKey} (hcalls : d.Calls k) : d'.Calls k := by
  unfold DecisionRow.Calls at hcalls ⊢
  rwa [skillName_congr h, h]

/-- Every call belongs to a decision, which has no other. -/
structure Db.CallsSound (db : Db) : Prop where
  issued : ∀ k ∈ db.calls, k.id.serial < db.issued
  decision : ∀ k ∈ db.calls, ∃ d ∈ db.decisions, d.Calls k.toCallKey
  unique : ∀ k ∈ db.calls, ∀ k' ∈ db.calls, k.decisionRowId = k'.decisionRowId → k = k'

/-- The calls keep their keys, and so do the decisions. -/
theorem Db.CallsSound.of_keys (h : db.CallsSound) (hissued : db.issued ≤ db'.issued)
    (hdecisions : ∀ d ∈ db.decisions, ∃ d' ∈ db'.decisions, d'.toDecisionKey = d.toDecisionKey)
    (hcalls : ∀ k' ∈ db'.calls, ∃ k ∈ db.calls, k'.toCallKey = k.toCallKey) :
    db'.CallsSound where
  issued k' hk' := by
    obtain ⟨k, hk, hkey⟩ := hcalls k' hk'
    rw [hkey]
    exact (h.issued k hk).trans_le hissued
  decision k' hk' := by
    obtain ⟨k, hk, hkey⟩ := hcalls k' hk'
    obtain ⟨d, hd, hdcalls⟩ := h.decision k hk
    obtain ⟨d', hd', hdkey⟩ := hdecisions d hd
    rw [hkey]
    exact ⟨d', hd', hdcalls.of_key_eq hdkey⟩
  unique k₁' hk₁' k₂' hk₂' hdecision := by
    obtain ⟨k₁, hk₁, hkey₁⟩ := hcalls k₁' hk₁'
    obtain ⟨k₂, hk₂, hkey₂⟩ := hcalls k₂' hk₂'
    rw [hkey₁, hkey₂] at hdecision
    have heq : k₁ = k₂ := h.unique k₁ hk₁ k₂ hk₂ hdecision
    refine Table.eq_of_key_eq hk₁' hk₂' ?_
    exact (hkey₁.trans (congrArg CallRow.toCallKey heq)).trans hkey₂.symm

/-- A transaction on decisions, calls and tracked actions. -/
structure Db.OutboxStep (db db' : Db) : Prop where
  sessions_eq : db'.sessions = db.sessions
  cycles_eq : db'.cycles = db.cycles
  events_eq : db'.events = db.events
  issued_le : db.issued ≤ db'.issued
  decisions : db.DecisionsEvolve db'
  tracked : db.Tracked → db'.Tracked
  calls : db.CallsSound → db'.CallsSound

namespace Db.OutboxStep

/-- A transaction that leaves the decisions alone as well, and keeps the calls apart. -/
theorem of_decisions_eq (sessions_eq : db'.sessions = db.sessions)
    (cycles_eq : db'.cycles = db.cycles) (events_eq : db'.events = db.events)
    (issued_le : db.issued ≤ db'.issued) (decisions_eq : db'.decisions = db.decisions)
    (calls : db.CallsSound → db'.CallsSound) : db.OutboxStep db' := by
  refine ⟨sessions_eq, cycles_eq, events_eq, issued_le, ?_, fun h ↦ ?_, calls⟩
  · unfold DecisionsEvolve
    rw [decisions_eq]
    exact .refl (DecisionRow.Moves.refl db) _
  · exact h.of_keys issued_le fun d hd ↦ ⟨d, decisions_eq ▸ hd, rfl⟩

/-- A transaction that leaves the keys of the calls alone. -/
theorem of_calls (sessions_eq : db'.sessions = db.sessions)
    (cycles_eq : db'.cycles = db.cycles) (events_eq : db'.events = db.events)
    (issued_le : db.issued ≤ db'.issued) (decisions_eq : db'.decisions = db.decisions)
    (calls : ∀ k' ∈ db'.calls, ∃ k ∈ db.calls, k'.toCallKey = k.toCallKey) : db.OutboxStep db' :=
  of_decisions_eq sessions_eq cycles_eq events_eq issued_le decisions_eq fun h ↦
    h.of_keys issued_le (fun d hd ↦ ⟨d, decisions_eq ▸ hd, rfl⟩) calls

theorem refl (db : Db) : db.OutboxStep db :=
  of_calls rfl rfl rfl (le_refl _) rfl fun k hk ↦ ⟨k, hk, rfl⟩

theorem bumpUuid (db : Db) : db.OutboxStep db.bumpUuid :=
  of_calls rfl rfl rfl (Nat.le_succ _) rfl fun k hk ↦ ⟨k, hk, rfl⟩

/-- An update of calls. -/
theorem updateCalls (db : Db) (w : CallRow → Prop) [DecidablePred w] (a : Assignment CallRow) :
    db.OutboxStep (db.updateCalls w a) :=
  of_calls rfl rfl rfl (le_refl _) rfl fun _ hk ↦ Table.key_of_mem_update hk

theorem updateTracking (db : Db) (w : TrackingRow → Prop) [DecidablePred w]
    (a : Assignment TrackingRow) : db.OutboxStep (db.updateTracking w a) :=
  of_calls rfl rfl rfl (le_refl _) rfl fun k hk ↦ ⟨k, hk, rfl⟩

theorem trans (h : db.OutboxStep db') (h' : db'.OutboxStep db'') : db.OutboxStep db'' := by
  refine ⟨h'.sessions_eq.trans h.sessions_eq, h'.cycles_eq.trans h.cycles_eq,
    h'.events_eq.trans h.events_eq, h.issued_le.trans h'.issued_le, ?_,
    fun htracked ↦ h'.tracked (h.tracked htracked), fun hcalls ↦ h'.calls (h.calls hcalls)⟩
  have hmoves : DecisionRow.Moves db' = DecisionRow.Moves db := by
    unfold DecisionRow.Moves Db.ActiveCycle
    rw [h.cycles_eq]
  have hplanned : DecisionKey.Planned db' = DecisionKey.Planned db := by
    unfold DecisionKey.Planned
    rw [h.cycles_eq]
  have hrest := h'.decisions
  unfold DecisionsEvolve at hrest
  rw [hmoves, hplanned] at hrest
  refine Table.Evolves.trans (fun h h' ↦ h.trans h') (fun {a b} hnew hmove ↦ ?_) h.decisions hrest
  rwa [hmove.1]

/-- An update of decisions that starts or resumes sending only in active cycles. -/
theorem update (w : DecisionRow → Prop) [DecidablePred w] (a : Assignment DecisionRow)
    (hset : ∀ d ∈ db.decisions, w d → (a.set d).status.isUnsent = true →
      ((a.set d).status = d.status ∧ (a.set d).claimToken = d.claimToken) ∨
        db.ActiveCycle d.cycleId) :
    db.OutboxStep (db.updateDecisions w a) where
  sessions_eq := rfl
  cycles_eq := rfl
  events_eq := rfl
  issued_le := le_refl _
  decisions := .update (DecisionRow.Moves.refl db) fun d hd hw ↦ ⟨a.key_set d, hset d hd hw⟩
  tracked h := h.of_keys (le_refl _) fun _ hd ↦ Table.key_of_mem_update hd
  calls h := h.of_keys (le_refl _) (fun _ hd ↦ Table.exists_mem_update hd) fun k hk ↦ ⟨k, hk, rfl⟩

/-- An update of decisions to statuses in which nothing is left to send. -/
theorem update_sent (w : DecisionRow → Prop) [DecidablePred w] (a : Assignment DecisionRow)
    (hset : ∀ d, w d → (a.set d).status.isUnsent = false) :
    db.OutboxStep (db.updateDecisions w a) :=
  update w a fun d _ hw hunsent ↦ absurd hunsent (by simp [hset d hw])

end Db.OutboxStep

/-! ## Cursors -/

/-- Every position from one place of the cursor up to another holds a closed event. -/
def Db.Passes (db : Db) (cycleId : Uuid) (start stop : ℕ) : Prop :=
  start ≤ stop ∧ ∀ p, start ≤ p → p < stop →
    ∃ e ∈ db.events, e.cycleId = cycleId ∧ e.eventSequence = p ∧ e.status.isOpen = false

theorem Db.Passes.refl (db : Db) (cycleId : Uuid) (n : ℕ) : db.Passes cycleId n n :=
  ⟨le_refl n, fun _ hle hlt ↦ absurd hle (not_le.2 hlt)⟩

theorem Db.Passes.trans {cycleId : Uuid} {m n k : ℕ} (h : db.Passes cycleId m n)
    (h' : db.Passes cycleId n k) : db.Passes cycleId m k := by
  refine ⟨h.1.trans h'.1, fun p hle hlt ↦ ?_⟩
  by_cases hp : p < n
  · exact h.2 p hle hp
  · exact h'.2 p (not_lt.1 hp) hlt

/-! ## Elementary effects -/

/-- The elementary changes. Statements on decisions, calls and tracked actions are all of
the kind `outbox`. -/
inductive Effect (config : WorkerConfig) (now : ℕ) (P : Branch → Prop) : Db → Db → Prop
  | outbox {db db' : Db} (step : db.OutboxStep db') : Effect config now P db db'
  | insertSession {db : Db} {row : SessionRow} {sessions : Table SessionRow}
      (insert_eq : db.sessions.insert? row = some sessions) (id_eq : row.id = db.nextUuid)
      (new : row.New) (taken : P .admission) :
      Effect config now P db { db.bumpUuid with sessions := sessions }
  | insertCycle {db : Db} {row : CycleRow} {cycles : Table CycleRow}
      (insert_eq : db.cycles.insert? row = some cycles) (id_eq : row.id = db.nextUuid)
      (new : row.New) (owned : ∃ s ∈ db.sessions, s.Owns row.toCycleKey)
      (taken : P .admission) :
      Effect config now P db { db.bumpUuid with cycles := cycles }
  | insertEvent {db : Db} {row : EventRow} {events : Table EventRow}
      (insert_eq : db.events.insert? row = some events) (id_eq : row.id = db.nextUuid)
      (new : row.New now) (sound : row.toEventKey.Sound)
      (owned : ∃ c ∈ db.cycles, c.Owns row.toEventKey) (taken : P .admission) :
      Effect config now P db { db.bumpUuid with events := events }
  | touch {db : Db} (w : SessionRow → Prop) [DecidablePred w] (a : Assignment SessionRow)
      (keeps : ∀ s ∈ db.sessions, w s → (a.set s).currentGeneration = s.currentGeneration ∧
        (a.set s).fenceVersion = s.fenceVersion) :
      Effect config now P db (db.updateSessions w a)
  | raiseFence {db : Db} (w : SessionRow → Prop) [DecidablePred w] (a : Assignment SessionRow)
      (keeps : ∀ s ∈ db.sessions, w s → (a.set s).currentGeneration = s.currentGeneration)
      (quiet : ∀ s ∈ db.sessions, w s → db.Quiet s ∨ ∃ j, P (.discard j)) :
      Effect config now P db (db.updateSessions w a)
  | activate {db : Db} {j : Joined} (linked : db.Linked j)
      (disposition : j.disposition = .activateNew) : Effect config now P db (activateNew j db)
  | activatePending {db : Db} {j : Joined} (linked : db.Linked j)
      (disposition : j.disposition = .current)
      (chat : j.event.eventType.isHostedChat = true → j.cycle.status = .pending →
        P (.chatActivation j)) : Effect config now P db (activatePending j db)
  | claim {db : Db} {j : Joined} (workerId : String) (linked : db.Linked j)
      (claimable : j.event.Due config.maxAttempts now)
      (reached : j.event.eventType.isHostedChat = true ∨
        db.Reached j.event.gatewayId j.event.sessionId j.event.controlGeneration)
      (taken : P .claim) :
      Effect config now P db
        (db.bumpUuid.claimEvent config now workerId j.event.id db.nextUuid j.session.fenceVersion)
  | settle {db : Db} (w : EventRow → Prop) [DecidablePred w] (a : Assignment EventRow)
      (settles : ∀ e ∈ db.events, w e → e.Settles (a.set e))
      (may : ∀ e ∈ db.events, w e → db.MaySettle P e) :
      Effect config now P db (db.updateEvents w a)
  | supersede {db : Db} {j : Joined} (linked : db.Linked j)
      (sequenced : j.event.eventType.isHostedChat = false)
      (reason : (j.disposition = .stale ∧ j.InClaimOrder ∧ j.event.Due config.maxAttempts now) ∨
        (j.event.status = .processing ∧ ¬j.ClaimValid j.event.claimedFenceVersion ∧
          P (.fenced j))) : Effect config now P db (db.supersedeLocked j)
  | wait {db : Db} {j : Joined} (linked : db.Linked j) (disposition : j.disposition = .wait)
      (claimable : j.event.Due config.maxAttempts now) (taken : P (.wait j)) :
      Effect config now P db
        ((db.markUnclaimedEventManual j.event.id).markCycleManual j.event.cycleId)
  | markManual {db : Db} {j : Joined} (cycle_mem : j.cycle ∈ db.cycles)
      (current : db.Current j.cycle.gatewayId j.cycle.sessionId j.cycle.controlGeneration)
      (taken : P (.manual j)) : Effect config now P db (db.markCycleManual j.cycle.id)
  | close {db : Db} (w : CycleRow → Prop) [DecidablePred w] (a : Assignment CycleRow)
      (closes : ∀ c ∈ db.cycles, w c → (c.status = .pending ∨ c.status = .active) ∧
        (a.set c).status = .stopped ∧
        (a.set c).latestDecisionLeaseId = c.latestDecisionLeaseId ∧
        (a.set c).latestStateVersion = c.latestStateVersion ∧
        (a.set c).latestDecisionContext = c.latestDecisionContext ∧
        c.nextEventSequence ≤ (a.set c).nextEventSequence)
      (current : ∀ c ∈ db.cycles, w c →
        db.Current c.gatewayId c.sessionId c.controlGeneration) :
      Effect config now P db (db.updateCycles w a)
  | cursor {db : Db} (w : CycleRow → Prop) [DecidablePred w] (a : Assignment CycleRow)
      (moves : ∀ c ∈ db.cycles, w c → ∃ n, a.set c = { c with nextEventSequence := n })
      (reached : ∀ c ∈ db.cycles, w c →
        db.Reached c.gatewayId c.sessionId c.controlGeneration ∨ 1 < c.nextEventSequence)
      (passes : ∀ c ∈ db.cycles, w c →
        db.Passes c.id c.nextEventSequence (a.set c).nextEventSequence) :
      Effect config now P db (db.updateCycles w a)
  | context {db : Db} {c : ClaimedEvent} (context : AgentContext) (taken : P (.persist c)) :
      Effect config now P db (db.persistContext c.cycleId context)

/-- A chain of effects. -/
abbrev Effects (config : WorkerConfig) (now : ℕ) (P : Branch → Prop) : Db → Db → Prop :=
  Relation.ReflTransGen (Effect config now P)

end LlmGateway
