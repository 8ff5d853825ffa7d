import LlmGateway.Inbox.Claim

/-!
# Admission of event batches

`acceptEventBatch` stores the events of a batch or none of them. Sequenced events are
written by one set-based statement, hosted chat events one by one under a savepoint, at a
storage sequence of the cycle that `_SELECT_HOSTED_CHAT_CYCLE` chooses. The caches of
sessions and cycles that were created earlier in the same batch return what the queries
would, so the queries are asked every time.

A result is `Except`: an error rolls the transaction back.
-/

namespace LlmGateway

open Relational

/-- `InboundGatewayIdentity`. -/
structure Identity where
  tenantId : Uuid
  gatewayId : String
deriving DecidableEq

/-- `BatchAcceptance`. -/
structure BatchAcceptance where
  receivedEventIds : List String
  duplicateEventIds : List String
deriving DecidableEq, Repr

/-- `EventAdmissionConflict`, `EventAdmissionUnavailable`, and the exception of a failed
encoding, which nothing catches. -/
inductive AdmissionError where
  | conflict (eventId : String)
  | unavailable
  | unicodeEncodeError
deriving DecidableEq, Repr

/-- What became of one event of a batch; an unresolved event makes the batch a conflict. -/
inductive Classification where
  | received
  | duplicate
  | unresolved
deriving DecidableEq, Repr

/-- `_PreparedEvent`. -/
structure PreparedEvent where
  event : GatewayEvent
  contentHash : ContentHash

/-- Add an event to the prepared ones, unless its id is already among them. The digest is
taken of the canonical bytes. -/
def prepareEvent (gatewayId : String) (prepared : List PreparedEvent) (event : GatewayEvent) :
    Except AdmissionError (List PreparedEvent) :=
  if ¬event.isCanonical then .error .unicodeEncodeError else
  let contentHash := eventContentHash gatewayId event
  match prepared.find? fun p ↦ p.event.eventId = event.eventId with
  | some previous =>
    if previous.contentHash ≠ contentHash then .error (.conflict event.eventId) else .ok prepared
  | none => .ok (prepared ++ [⟨event, contentHash⟩])

/-- `_prepare_batch`. -/
def prepareBatch (gatewayId : String) (events : List GatewayEvent) :
    Except AdmissionError (List PreparedEvent) :=
  events.foldlM (prepareEvent gatewayId) []

/-- `_HOSTED_CHAT_STORAGE_SEQUENCE_FLOOR`. -/
def hostedChatStorageSequenceFloor : ℕ := 2 ^ 62

/-- `_next_hosted_chat_storage_sequence`. -/
def nextHostedChatStorageSequence (maximum : Option ℕ) : Except AdmissionError ℕ :=
  match maximum with
  | none => .ok hostedChatStorageSequenceFloor
  | some maximum => if bigintMax < maximum + 1 then .error .unavailable else .ok (maximum + 1)

namespace Db

variable (db : Db)

/-- `_load_one_hash`, and the lookup of one id in the result of `_load_existing`. -/
def storedHash (gatewayId eventId : String) : Option ContentHash :=
  (db.events.find? fun e ↦ e.gatewayId = gatewayId ∧ e.eventId = eventId).map (·.contentHash)

def sessionByName (gatewayId sessionId : String) : Option SessionRow :=
  db.sessions.find? fun s ↦ s.gatewayId = gatewayId ∧ s.sessionId = sessionId

def cycleByName (gatewayId sessionId : String) (controlGeneration : ℕ) : Option CycleRow :=
  db.cycles.find? fun c ↦ c.gatewayId = gatewayId ∧ c.sessionId = sessionId ∧
    c.controlGeneration = controlGeneration

/-- `_UPSERT_SESSION`: a stored session only gets a new `updated_at`. -/
def upsertSession (now : ℕ) (identity : Identity) (sessionId : String) : Db :=
  match db.sessions.insert?
      { id := db.nextUuid
        tenantId := identity.tenantId
        gatewayId := identity.gatewayId
        sessionId := sessionId
        currentGeneration := none
        fenceVersion := 0
        status := .pending
        lastEventAt := now } with
  | some sessions => { db.bumpUuid with sessions := sessions }
  | none => db

/-- `_UPSERT_CYCLE` for a stored session: a stored cycle only gets a new `updated_at`. -/
def upsertCycle (identity : Identity) (sessionId : String) (controlGeneration : ℕ) : Db :=
  match db.sessionByName identity.gatewayId sessionId with
  | none => db
  | some session =>
    match db.cycles.insert?
        { id := db.nextUuid
          tenantId := identity.tenantId
          runtimeSessionId := session.id
          gatewayId := identity.gatewayId
          sessionId := sessionId
          controlGeneration := controlGeneration
          status := .pending
          nextEventSequence := 1
          latestStateVersion := none
          latestDecisionLeaseId := none
          latestDecisionContext := none } with
    | some cycles => { db.bumpUuid with cycles := cycles }
    | none => db

/-- The row of a newly admitted event. -/
def newEventRow (now : ℕ) (identity : Identity) (traceId : String) (item : PreparedEvent)
    (cycleId : Uuid) (controlGeneration eventSequence : ℕ) : EventRow where
  id := db.nextUuid
  tenantId := identity.tenantId
  cycleId := cycleId
  gatewayId := identity.gatewayId
  sessionId := item.event.sessionId
  eventId := item.event.eventId
  eventType := item.event.eventType
  controlGeneration := controlGeneration
  eventSequence := eventSequence
  contentHash := item.contentHash
  eventBody := item.event
  traceId := traceId
  receivedAt := now
  status := .pending
  attemptCount := 0
  nextAttemptAt := now
  claimToken := none
  claimedFenceVersion := none
  lockUntil := none
  lockedBy := none
  errorStage := none
  errorCategory := none

/-- Insert an event, doing nothing when it clashes with a stored one. -/
def insertEvent (now : ℕ) (identity : Identity) (traceId : String) (item : PreparedEvent)
    (cycleId : Uuid) (controlGeneration eventSequence : ℕ) : Option Db :=
  (db.events.insert? (db.newEventRow now identity traceId item cycleId controlGeneration
    eventSequence)).map fun events ↦ { db.bumpUuid with events := events }

/-! ## Sequenced events -/

/-- The texts of the event fit their columns. -/
def FitsColumns (identity : Identity) (traceId : String) (item : PreparedEvent) : Prop :=
  identity.gatewayId.length ≤ 128 ∧ item.event.sessionId.length ≤ 128 ∧
    item.event.eventId.length ≤ 128 ∧ traceId.length ≤ 128

instance (identity : Identity) (traceId : String) : DecidablePred (FitsColumns identity traceId) :=
  fun _ ↦ inferInstanceAs (Decidable (_ ∧ _))

/-- The columns that are read from the input records fit, and the body can be stored. -/
def Storable (identity : Identity) (traceId : String) (item : PreparedEvent)
    (position : Position) : Prop :=
  position.controlGeneration ≤ bigintMax ∧ position.eventSequence ≤ bigintMax ∧
    item.event.isEncodable ∧ encodable traceId ∧ FitsColumns identity traceId item

/-- `ck_llm_gateway_events_session_started_sequence`. -/
def SequenceCheck (item : PreparedEvent) (position : Position) : Prop :=
  (item.event.eventType = .sessionStarted ∧ position.eventSequence = 1) ∨
    (item.event.eventType ≠ .sessionStarted ∧ 1 < position.eventSequence)

/-- The statement raises no error for the event. Checks come before conflicts. -/
def Insertable (identity : Identity) (traceId : String) (item : PreparedEvent) : Prop :=
  ∀ position ∈ item.event.position?,
    Storable identity traceId item position ∧ SequenceCheck item position

instance (identity : Identity) (traceId : String) : DecidablePred (Insertable identity traceId) :=
  fun item ↦ inferInstanceAs
    (Decidable (∀ position ∈ item.event.position?, (_ ∧ _ ∧ _ ∧ _ ∧ _) ∧ (_ ∨ _)))

/-- One event of `inserted_events`, together with the ids inserted so far. -/
def insertSequenced (now : ℕ) (identity : Identity) (traceId : String)
    (state : List String × Db) (item : PreparedEvent) : List String × Db :=
  match item.event.position? with
  | none => state
  | some position =>
    match state.2.cycleByName identity.gatewayId item.event.sessionId
        position.controlGeneration with
    | none => state
    | some cycle =>
      match state.2.insertEvent now identity traceId item cycle.id position.controlGeneration
          position.eventSequence with
      | none => state
      | some db' => (state.1 ++ [item.event.eventId], db')

def upsertSessionOf (now : ℕ) (identity : Identity) (db : Db) (item : PreparedEvent) : Db :=
  db.upsertSession now identity item.event.sessionId

def upsertCycleOf (identity : Identity) (db : Db) (item : PreparedEvent) : Db :=
  match item.event.position? with
  | none => db
  | some position => db.upsertCycle identity item.event.sessionId position.controlGeneration

/-- `_insert_non_chat_batch`: sessions, then cycles, then events. -/
def insertNonChatBatch (now : ℕ) (identity : Identity) (traceId : String)
    (items : List PreparedEvent) : Except AdmissionError (List String × Db) :=
  if ∃ item ∈ items, ¬Insertable identity traceId item then .error .unavailable
  else .ok (items.foldl (insertSequenced now identity traceId)
    ([], items.foldl (upsertCycleOf identity) (items.foldl (upsertSessionOf now identity) db)))

/-- The check of the events that the statement did not insert. -/
def resolveNonChat (gatewayId : String) (inserted : List String) (item : PreparedEvent) :
    Except AdmissionError Unit :=
  if item.event.eventId ∈ inserted then .ok ()
  else if db.storedHash gatewayId item.event.eventId = some item.contentHash then .ok ()
  else .error (.conflict item.event.eventId)

/-! ## Hosted chat events -/

def hostedChatKey (session : SessionRow) (c : CycleRow) : List ℤ :=
  [if session.currentGeneration = some c.controlGeneration then 0
    else if c.status = .active then 1 else 2, -(c.controlGeneration : ℤ)]

/-- `_SELECT_HOSTED_CHAT_CYCLE`. -/
def selectHostedChatCycle (gatewayId sessionId : String) : Option CycleRow := do
  let session ← db.sessionByName gatewayId sessionId
  (orderBy (hostedChatKey session)
    (db.cycles.select fun c ↦ c.runtimeSessionId = session.id)).head?

/-- `_SELECT_MAX_HOSTED_CHAT_SEQUENCE`. -/
def maxHostedChatSequence (cycleId : Uuid) : Option ℕ :=
  ((db.events.select fun e ↦ e.cycleId = cycleId ∧
    hostedChatStorageSequenceFloor ≤ e.eventSequence).map (·.eventSequence)).max?

/-- The cycle of a chat event, created with generation 1 when the session has none. -/
def ensureHostedChatCycle (now : ℕ) (identity : Identity) (sessionId : String) : Db :=
  match db.selectHostedChatCycle identity.gatewayId sessionId with
  | some _ => db
  | none => (db.upsertSession now identity sessionId).upsertCycle identity sessionId 1

/-- The classification of an event that was not inserted. -/
def classifyStored (gatewayId : String) (item : PreparedEvent) :
    Except AdmissionError Classification :=
  match db.storedHash gatewayId item.event.eventId with
  | none => .ok .unresolved
  | some stored =>
    if stored ≠ item.contentHash then .error (.conflict item.event.eventId) else .ok .duplicate

/-- `_insert_one`. A data error or a clash of positions rolls back to the savepoint; a clash
of ids leaves what was written before it. -/
def insertOne (now : ℕ) (identity : Identity) (traceId : String) (item : PreparedEvent) :
    Except AdmissionError (Classification × Db) :=
  if ¬encodable item.event.sessionId then
    (db.classifyStored identity.gatewayId item).map (·, db)
  else
    let ready := db.ensureHostedChatCycle now identity item.event.sessionId
    match ready.selectHostedChatCycle identity.gatewayId item.event.sessionId with
    | none => .error .unavailable
    | some cycle => do
      let eventSequence ← nextHostedChatStorageSequence (ready.maxHostedChatSequence cycle.id)
      if ¬(item.event.isEncodable ∧ encodable traceId ∧ FitsColumns identity traceId item) then
        (db.classifyStored identity.gatewayId item).map (·, db)
      else
        match ready.insertEvent now identity traceId item cycle.id cycle.controlGeneration
            eventSequence with
        | some db' => .ok (.received, db')
        | none =>
          let db' := if (ready.storedHash identity.gatewayId item.event.eventId).isSome
            then ready else db
          (db'.classifyStored identity.gatewayId item).map (·, db')

/-- `_REFRESH_SESSION_LIVENESS`. -/
def refreshSessionLiveness (now : ℕ) (gatewayId : String) (sessionIds : List String) : Db :=
  db.updateSessions (fun s ↦ s.gatewayId = gatewayId ∧ s.sessionId ∈ sessionIds)
    { set s := { s with lastEventAt := now }
      key_set _ := rfl }

end Db

/-! ## The batch -/

/-- The events whose ids are stored already; one with other content is a conflict. -/
def checkExisting (db : Db) (gatewayId : String) (item : PreparedEvent) :
    Except AdmissionError Unit :=
  match db.storedHash gatewayId item.event.eventId with
  | none => .ok ()
  | some stored =>
    if stored ≠ item.contentHash then .error (.conflict item.event.eventId) else .ok ()

/-- The ids of the events received and of the unresolved ones, and the rows so far. -/
structure Progress where
  received : List String
  unresolved : List String
  db : Db

/-- One hosted chat event of the batch. -/
def insertChat (now : ℕ) (identity : Identity) (traceId : String) (progress : Progress)
    (item : PreparedEvent) : Except AdmissionError Progress := do
  let (classification, db) ← progress.db.insertOne now identity traceId item
  match classification with
  | .received =>
    .ok { progress with received := progress.received ++ [item.event.eventId], db := db }
  | .duplicate => .ok { progress with db := db }
  | .unresolved =>
    .ok { progress with unresolved := progress.unresolved ++ [item.event.eventId], db := db }

/-- An unresolved event makes the whole batch a conflict. -/
def rejectUnresolved (unresolved : List String) (item : PreparedEvent) :
    Except AdmissionError Unit :=
  if item.event.eventId ∈ unresolved then .error (.conflict item.event.eventId) else .ok ()

/-- The sessions for which the batch counts as a sign of life. -/
def liveSessionIds (staleAfterMs : Option ℕ) (now : ℕ) (prepared : List PreparedEvent) :
    List String :=
  (prepared.filter fun p ↦ decide (∀ age ∈ staleAfterMs, now ≤ p.event.occurredAtMs + age)).map
    (·.event.sessionId)

/-- The statements of the transaction, up to the commit. -/
def admitPrepared (staleAfterMs : Option ℕ) (now : ℕ) (identity : Identity) (traceId : String)
    (prepared : List PreparedEvent) (db : Db) : Except AdmissionError (BatchAcceptance × Db) := do
  let gatewayId := identity.gatewayId
  if ∃ p ∈ prepared, ¬encodable p.event.eventId then throw .unavailable
  prepared.forM (checkExisting db gatewayId)
  let existing := prepared.filter fun p ↦ (db.storedHash gatewayId p.event.eventId).isSome
  let pending := prepared.filter fun p ↦ (db.storedHash gatewayId p.event.eventId).isNone
  let nonChat := pending.filter fun p ↦ !p.event.isHostedChat
  let (inserted, db₁) ← db.insertNonChatBatch now identity traceId nonChat
  nonChat.forM (db₁.resolveNonChat gatewayId inserted)
  let progress ← (pending.filter (·.event.isHostedChat)).foldlM
    (insertChat now identity traceId) ⟨inserted, [], db₁⟩
  pending.forM (rejectUnresolved progress.unresolved)
  let acceptance : BatchAcceptance :=
    { receivedEventIds :=
        (pending.filter (·.event.eventId ∈ progress.received)).map (·.event.eventId)
      duplicateEventIds := existing.map (·.event.eventId) ++
        (pending.filter (·.event.eventId ∉ progress.received)).map (·.event.eventId) }
  return (acceptance, progress.db.refreshSessionLiveness now gatewayId
    (liveSessionIds staleAfterMs now prepared))

/-- `accept_event_batch`. -/
def acceptEventBatch (staleAfterMs : Option ℕ) (now : ℕ) (identity : Identity)
    (traceId : String) (events : List GatewayEvent) (db : Db) :
    Except AdmissionError (BatchAcceptance × Db) := do
  let prepared ← prepareBatch identity.gatewayId events
  admitPrepared staleAfterMs now identity traceId prepared db

end LlmGateway
