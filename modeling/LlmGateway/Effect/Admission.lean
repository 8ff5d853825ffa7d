import LlmGateway.Effect.Integrity
import LlmGateway.Relational.Outcome

/-!
# The effects of an admission

A batch that commits inserts sessions, cycles and pending events, and marks sessions alive.
-/

namespace LlmGateway

open Relational

variable {config : WorkerConfig} {now : ℕ} {P : Branch → Prop} {db : Db}

/-! ## Prepared events -/

/-- The hash of a prepared event is its own. -/
def PreparedEvent.Hashed (gatewayId : String) (item : PreparedEvent) : Prop :=
  item.contentHash = eventContentHash gatewayId item.event

theorem prepareEvent_cases {gatewayId : String} {prepared prepared' : List PreparedEvent}
    {event : GatewayEvent} (h : prepareEvent gatewayId prepared event = .ok prepared') :
    (prepared' = prepared ∧ ∃ p ∈ prepared, p.event.eventId = event.eventId ∧
      p.contentHash = eventContentHash gatewayId event) ∨
    (prepared' = prepared ++ [⟨event, eventContentHash gatewayId event⟩] ∧
      ∀ p ∈ prepared, p.event.eventId ≠ event.eventId) := by
  unfold prepareEvent at h
  simp only at h
  split at h
  · cases h
  split at h
  · rename_i previous hfind
    split_ifs at h with hsame
    cases h
    refine Or.inl ⟨rfl, previous, List.mem_of_find?_eq_some hfind, ?_, not_not.1 hsame⟩
    simpa only [decide_eq_true_eq] using List.find?_some hfind
  · rename_i hfind
    cases h
    refine Or.inr ⟨rfl, ?_⟩
    simpa only [List.find?_eq_none, decide_eq_true_eq] using hfind

theorem prepareBatch_hashed {gatewayId : String} {events : List GatewayEvent}
    {prepared : List PreparedEvent} (h : prepareBatch gatewayId events = .ok prepared) :
    ∀ p ∈ prepared, p.Hashed gatewayId := by
  refine foldlM_invariant (I := fun prepared ↦ ∀ p ∈ prepared, p.Hashed gatewayId)
    (fun s event _ s' hs hstep ↦ ?_) (fun p hp ↦ absurd hp List.not_mem_nil) h
  rcases prepareEvent_cases hstep with ⟨rfl, -⟩ | ⟨rfl, -⟩
  · exact hs
  · intro p hp
    rcases List.mem_append.1 hp with hp | hp
    · exact hs p hp
    · rw [List.mem_singleton.1 hp]
      rfl

/-! ## Insertions -/

theorem upsertSession_effects (htaken : P .admission) (identity : Identity) (sessionId : String) :
    Effects config now P db (db.upsertSession now identity sessionId) := by
  unfold Db.upsertSession
  split
  · rename_i sessions hinsert
    exact .single (.insertSession hinsert rfl ⟨rfl, rfl⟩ htaken)
  · exact .refl

theorem upsertCycle_effects (htaken : P .admission) (identity : Identity) (sessionId : String)
    (generation : ℕ) :
    Effects config now P db (db.upsertCycle identity sessionId generation) := by
  unfold Db.upsertCycle
  split
  · exact .refl
  · rename_i session hfind
    split
    · rename_i cycles hinsert
      have hnames := Table.of_find?_eq_some hfind
      exact .single (.insertCycle hinsert rfl ⟨rfl, rfl, rfl, rfl, rfl⟩
        ⟨session, Table.mem_of_find?_eq_some hfind, rfl, hnames.1, hnames.2⟩ htaken)
    · exact .refl

theorem newEventRow_new (identity : Identity) (traceId : String) (item : PreparedEvent)
    (cycleId : Uuid) (generation sequence : ℕ) :
    (db.newEventRow now identity traceId item cycleId generation sequence).New now :=
  ⟨⟨nofun, rfl, rfl, rfl, rfl⟩, rfl, rfl, le_refl now⟩

theorem insertEvent_effect (htaken : P .admission) {db' : Db} {identity : Identity} {traceId : String}
    {item : PreparedEvent} {cycle : CycleRow} {generation sequence : ℕ}
    (hinsert : db.insertEvent now identity traceId item cycle.id generation sequence = some db')
    (hhashed : item.Hashed identity.gatewayId) (hcycle : cycle ∈ db.cycles)
    (hnames : cycle.gatewayId = identity.gatewayId ∧ cycle.sessionId = item.event.sessionId ∧
      cycle.controlGeneration = generation)
    (hposition : ∀ position ∈ item.event.position?,
      generation = position.controlGeneration ∧ sequence = position.eventSequence)
    (hone : sequence = 1 ↔ item.event.eventType = .sessionStarted) (hpos : 0 < sequence)
    (hchat : item.event.isHostedChat = true → hostedChatStorageSequenceFloor ≤ sequence) :
    Effect config now P db db' := by
  obtain ⟨events, hevents, rfl⟩ := Option.map_eq_some_iff.1 hinsert
  exact .insertEvent hevents rfl (newEventRow_new _ _ _ _ _ _)
    ⟨rfl, rfl, rfl, hhashed, hposition, hone, hpos, hchat⟩
    ⟨cycle, hcycle, rfl, hnames.1, hnames.2.1, hnames.2.2⟩ htaken

/-- A position puts an event outside the hosted chat events. -/
theorem GatewayEvent.isHostedChat_of_position {event : GatewayEvent} {position : Position}
    (h : event.position? = some position) : event.isHostedChat = false := by
  have hsome := event.position?_isSome
  rw [h] at hsome
  simpa using hsome.symm

theorem insertSequenced_effects (htaken : P .admission) {identity : Identity} {traceId : String}
    {items : List PreparedEvent} (hhashed : ∀ item ∈ items, item.Hashed identity.gatewayId)
    (hinsertable : ∀ item ∈ items, Db.Insertable identity traceId item) (ids : List String) :
    Effects config now P db
      (items.foldl (Db.insertSequenced now identity traceId) (ids, db)).2 := by
  induction items generalizing ids db with
  | nil => exact .refl
  | cons item items ih =>
    rw [List.foldl_cons]
    have hfirst : Effects config now P db
        (Db.insertSequenced now identity traceId (ids, db) item).2 := by
      unfold Db.insertSequenced
      split
      · exact .refl
      · rename_i position hposition
        split
        · exact .refl
        · rename_i cycle hfind
          split
          · exact .refl
          · rename_i db' hinsert
            have hnames := Table.of_find?_eq_some hfind
            have hcheck := (hinsertable item List.mem_cons_self position hposition).2
            have hseq := GatewayEvent.isHostedChat_of_position hposition
            refine .single (insertEvent_effect htaken hinsert (hhashed item List.mem_cons_self)
              (Table.mem_of_find?_eq_some hfind) hnames ?_ ?_ position.sequence_pos
              fun hchat ↦ absurd hchat (by simp [hseq]))
            · intro p hp
              obtain rfl : position = p := Option.some.inj (hposition.symm.trans hp)
              exact ⟨rfl, rfl⟩
            · rcases hcheck with ⟨htype, hone⟩ | ⟨htype, hlt⟩
              · simp only [htype, hone]
              · simp only [htype, iff_false]
                omega
    refine hfirst.trans ?_
    exact ih (fun item hitem ↦ hhashed item (List.mem_cons_of_mem _ hitem))
      (fun item hitem ↦ hinsertable item (List.mem_cons_of_mem _ hitem)) _

/-- The sessions and cycles of the sequenced events of a batch. -/
def Db.openBatch (db : Db) (now : ℕ) (identity : Identity) (items : List PreparedEvent) : Db :=
  items.foldl (Db.upsertCycleOf identity) (items.foldl (Db.upsertSessionOf now identity) db)

theorem openBatch_effects (htaken : P .admission) (identity : Identity) (db : Db)
    (items : List PreparedEvent) :
    Effects config now P db (db.openBatch now identity items) := by
  have hsessions : Effects config now P db (items.foldl (Db.upsertSessionOf now identity) db) :=
    (chain_foldl (I := fun _ ↦ True)
      (fun _ _ _ _ ↦ ⟨upsertSession_effects htaken identity _, trivial⟩) trivial).1
  refine hsessions.trans (chain_foldl (I := fun _ ↦ True) (fun _ item _ _ ↦ ⟨?_, trivial⟩) trivial).1
  unfold Db.upsertCycleOf
  split
  · exact .refl
  · exact upsertCycle_effects htaken identity _ _

theorem insertNonChatBatch_effects (htaken : P .admission) {identity : Identity} {traceId : String}
    {items : List PreparedEvent} {inserted : List String} {db' : Db}
    (hhashed : ∀ item ∈ items, item.Hashed identity.gatewayId)
    (h : db.insertNonChatBatch now identity traceId items = .ok (inserted, db')) :
    Effects config now P db db' := by
  unfold Db.insertNonChatBatch at h
  split_ifs at h with hbad
  push Not at hbad
  have heq : _ = db' := congrArg Prod.snd (Except.ok.inj h)
  rw [← heq]
  exact (openBatch_effects htaken identity db items).trans
    (insertSequenced_effects htaken hhashed hbad [])

/-! ## Hosted chat events -/

theorem selectHostedChatCycle_names (hI : db.Integrity) {gatewayId sessionId : String}
    {cycle : CycleRow} (h : db.selectHostedChatCycle gatewayId sessionId = some cycle) :
    cycle ∈ db.cycles ∧ cycle.gatewayId = gatewayId ∧ cycle.sessionId = sessionId := by
  simp only [Db.selectHostedChatCycle, Option.bind_eq_bind, Option.bind_eq_some_iff] at h
  obtain ⟨session, hsession, hhead⟩ := h
  obtain ⟨hmem, hid⟩ := Table.mem_select.1 (mem_orderBy.1 (List.mem_of_mem_head? hhead))
  have hnames := Table.of_find?_eq_some hsession
  obtain ⟨s, hs, howns⟩ := hI.cycle_owned cycle hmem
  obtain rfl : s = session :=
    sessionRow_eq_of_id hs (Table.mem_of_find?_eq_some hsession) (howns.1.trans hid)
  exact ⟨hmem, howns.2.1.symm.trans hnames.1, howns.2.2.symm.trans hnames.2⟩

theorem ensureHostedChatCycle_effects (htaken : P .admission) (identity : Identity) (sessionId : String) :
    Effects config now P db (db.ensureHostedChatCycle now identity sessionId) := by
  unfold Db.ensureHostedChatCycle
  split
  · exact .refl
  · exact (upsertSession_effects htaken identity sessionId).trans
      (upsertCycle_effects htaken identity _ 1)

theorem floor_le_nextHostedChatStorageSequence {cycleId : Uuid} {sequence : ℕ}
    (h : nextHostedChatStorageSequence (db.maxHostedChatSequence cycleId) = .ok sequence) :
    hostedChatStorageSequenceFloor ≤ sequence := by
  unfold nextHostedChatStorageSequence at h
  split at h
  · cases h
    exact le_refl _
  · rename_i maximum hmax
    split_ifs at h
    cases h
    have hmem := List.max?_mem hmax
    simp only [List.mem_map, Table.mem_select] at hmem
    obtain ⟨e, ⟨-, -, hfloor⟩, rfl⟩ := hmem
    exact Nat.le_succ_of_le hfloor

/-- A hosted chat event that raises no error is inserted, or classified by what is stored. -/
theorem insertOne_cases {identity : Identity} {traceId : String} {item : PreparedEvent}
    {classification : Classification} {db' : Db}
    (h : db.insertOne now identity traceId item = .ok (classification, db')) :
    (db'.classifyStored identity.gatewayId item = .ok classification ∧
      (db' = db ∨ db' = db.ensureHostedChatCycle now identity item.event.sessionId)) ∨
    (classification = .received ∧ ∃ cycle sequence,
      (db.ensureHostedChatCycle now identity item.event.sessionId).selectHostedChatCycle
        identity.gatewayId item.event.sessionId = some cycle ∧
      nextHostedChatStorageSequence ((db.ensureHostedChatCycle now identity
        item.event.sessionId).maxHostedChatSequence cycle.id) = .ok sequence ∧
      (db.ensureHostedChatCycle now identity item.event.sessionId).insertEvent now identity
        traceId item cycle.id cycle.controlGeneration sequence = some db') := by
  have hclassified {t : Db} (h : (t.classifyStored identity.gatewayId item).map (·, t) =
      .ok (classification, db')) :
      t.classifyStored identity.gatewayId item = .ok classification ∧ db' = t := by
    obtain ⟨c, hc, heq⟩ := map_eq_ok_iff.1 h
    cases heq
    exact ⟨hc, rfl⟩
  unfold Db.insertOne at h
  by_cases hsession : encodable item.event.sessionId
  case neg =>
    rw [if_pos hsession] at h
    obtain ⟨hc, rfl⟩ := hclassified h
    exact Or.inl ⟨hc, Or.inl rfl⟩
  rw [if_neg (not_not.2 hsession)] at h
  simp only at h
  split at h
  · cases h
  rename_i cycle hcycle
  obtain ⟨sequence, hsequence, h⟩ := bind_eq_ok_iff.1 h
  by_cases hstorable : item.event.isEncodable ∧ encodable traceId ∧
      Db.FitsColumns identity traceId item
  case neg =>
    rw [if_pos hstorable] at h
    obtain ⟨hc, rfl⟩ := hclassified h
    exact Or.inl ⟨hc, Or.inl rfl⟩
  rw [if_neg (not_not.2 hstorable)] at h
  split at h
  · rename_i db'' hinsert
    cases h
    exact Or.inr ⟨rfl, cycle, sequence, hcycle, hsequence, hinsert⟩
  · obtain ⟨hc, hdb⟩ := hclassified h
    refine Or.inl ⟨hdb ▸ hc, ?_⟩
    rw [hdb]
    split_ifs
    · exact Or.inr rfl
    · exact Or.inl rfl

theorem insertOne_effects (htaken : P .admission) {identity : Identity} {traceId : String} {item : PreparedEvent}
    {classification : Classification} {db' : Db} (hI : db.Integrity)
    (hhashed : item.Hashed identity.gatewayId) (hchat : item.event.isHostedChat = true)
    (h : db.insertOne now identity traceId item = .ok (classification, db')) :
    Effects config now P db db' := by
  have hready : Effects config now P db (db.ensureHostedChatCycle now identity
      item.event.sessionId) := ensureHostedChatCycle_effects htaken identity item.event.sessionId
  rcases insertOne_cases h with ⟨-, rfl | rfl⟩ | ⟨-, cycle, sequence, hcycle, hsequence, hinsert⟩
  · exact .refl
  · exact hready
  · obtain ⟨hmem, hgateway, hsession⟩ :=
      selectHostedChatCycle_names (hready.integrity hI) hcycle
    have hfloor := floor_le_nextHostedChatStorageSequence hsequence
    have hpos : 1 < sequence := lt_of_lt_of_le (by decide) hfloor
    refine hready.tail (insertEvent_effect htaken hinsert hhashed hmem ⟨hgateway, hsession, rfl⟩ ?_ ?_
      (by omega) fun _ ↦ hfloor)
    · intro position hposition
      rw [GatewayEvent.isHostedChat_of_position hposition] at hchat
      exact absurd hchat (by decide)
    · refine ⟨fun hone ↦ absurd hone (by omega), fun htype ↦ ?_⟩
      rw [GatewayEvent.isHostedChat, htype] at hchat
      exact absurd hchat (by decide)

/-! ## The batch -/

/-- The prepared events whose ids are stored already. -/
def Db.existingOf (db : Db) (gatewayId : String) (prepared : List PreparedEvent) :
    List PreparedEvent :=
  prepared.filter fun p ↦ (db.storedHash gatewayId p.event.eventId).isSome

/-- The prepared events that the transaction tries to insert. -/
def Db.pendingOf (db : Db) (gatewayId : String) (prepared : List PreparedEvent) :
    List PreparedEvent :=
  prepared.filter fun p ↦ (db.storedHash gatewayId p.event.eventId).isNone

/-- The intermediate results of a batch that commits. -/
structure Admission (staleAfterMs : Option ℕ) (now : ℕ) (identity : Identity) (traceId : String)
    (prepared : List PreparedEvent) (db : Db) (acceptance : BatchAcceptance) (db' : Db) where
  inserted : List String
  stored : Db
  progress : Progress
  encodable : ∀ p ∈ prepared, LlmGateway.encodable p.event.eventId
  same : ∀ p ∈ prepared, checkExisting db identity.gatewayId p = .ok ()
  sequenced : db.insertNonChatBatch now identity traceId
    ((db.pendingOf identity.gatewayId prepared).filter fun p ↦ !p.event.isHostedChat) =
      .ok (inserted, stored)
  resolved : ∀ p ∈ (db.pendingOf identity.gatewayId prepared).filter
    fun p ↦ !p.event.isHostedChat, stored.resolveNonChat identity.gatewayId inserted p = .ok ()
  chats : ((db.pendingOf identity.gatewayId prepared).filter (·.event.isHostedChat)).foldlM
    (insertChat now identity traceId) ⟨inserted, [], stored⟩ = .ok progress
  accepted : ∀ p ∈ db.pendingOf identity.gatewayId prepared,
    rejectUnresolved progress.unresolved p = .ok ()
  acceptance_eq : acceptance =
    { receivedEventIds := ((db.pendingOf identity.gatewayId prepared).filter
        (·.event.eventId ∈ progress.received)).map (·.event.eventId)
      duplicateEventIds :=
        (db.existingOf identity.gatewayId prepared).map (·.event.eventId) ++
          ((db.pendingOf identity.gatewayId prepared).filter
            (·.event.eventId ∉ progress.received)).map (·.event.eventId) }
  db_eq : db' = progress.db.refreshSessionLiveness now identity.gatewayId
    (liveSessionIds staleAfterMs now prepared)

theorem admission_of_ok {staleAfterMs : Option ℕ} {identity : Identity} {traceId : String}
    {prepared : List PreparedEvent} {acceptance : BatchAcceptance} {db' : Db}
    (h : admitPrepared staleAfterMs now identity traceId prepared db = .ok (acceptance, db')) :
    Nonempty (Admission staleAfterMs now identity traceId prepared db acceptance db') := by
  unfold admitPrepared at h
  simp only at h
  by_cases hbad : ∃ p ∈ prepared, ¬encodable p.event.eventId
  case pos =>
    rw [if_pos hbad] at h
    exact absurd h nofun
  rw [if_neg hbad] at h
  push Not at hbad
  obtain ⟨⟨⟩, hsame, h⟩ := bind_eq_ok_iff.1 h
  obtain ⟨⟨inserted, stored⟩, hsequenced, h⟩ := bind_eq_ok_iff.1 h
  obtain ⟨⟨⟩, hresolved, h⟩ := bind_eq_ok_iff.1 h
  obtain ⟨progress, hchats, h⟩ := bind_eq_ok_iff.1 h
  obtain ⟨⟨⟩, haccepted, h⟩ := bind_eq_ok_iff.1 h
  cases h
  exact ⟨⟨inserted, stored, progress, hbad, forM_eq_ok_iff.1 hsame, hsequenced,
    forM_eq_ok_iff.1 hresolved, hchats, forM_eq_ok_iff.1 haccepted, rfl, rfl⟩⟩

theorem insertChat_eq_ok {identity : Identity} {traceId : String} {progress progress' : Progress}
    {item : PreparedEvent} (h : insertChat now identity traceId progress item = .ok progress') :
    ∃ classification,
      progress.db.insertOne now identity traceId item = .ok (classification, progress'.db) ∧
      progress'.received = (if classification = .received
        then progress.received ++ [item.event.eventId] else progress.received) ∧
      progress'.unresolved = (if classification = .unresolved
        then progress.unresolved ++ [item.event.eventId] else progress.unresolved) := by
  obtain ⟨⟨classification, db'⟩, hone, h⟩ := bind_eq_ok_iff.1 h
  refine ⟨classification, ?_⟩
  cases classification <;> cases h <;> exact ⟨hone, rfl, rfl⟩

theorem acceptEventBatch_effects (htaken : P .admission) {staleAfterMs : Option ℕ} {identity : Identity}
    {traceId : String} {events : List GatewayEvent} {acceptance : BatchAcceptance} {db' : Db}
    (hI : db.Integrity)
    (h : acceptEventBatch staleAfterMs now identity traceId events db = .ok (acceptance, db')) :
    Effects config now P db db' := by
  obtain ⟨prepared, hprepared, h⟩ := bind_eq_ok_iff.1 h
  obtain ⟨admission⟩ := admission_of_ok h
  have hhashed := prepareBatch_hashed hprepared
  have hpending {p : PreparedEvent} (hp : p ∈ db.pendingOf identity.gatewayId prepared) :
      p.Hashed identity.gatewayId := hhashed p (List.mem_filter.1 hp).1
  have hsequenced : Effects config now P db admission.stored :=
    insertNonChatBatch_effects htaken (fun p hp ↦ hpending (List.mem_filter.1 hp).1) admission.sequenced
  have hchats : Effects config now P db admission.progress.db := by
    refine foldlM_invariant (I := fun progress ↦ Effects config now P db progress.db)
      (fun progress item hitem progress' hchain hstep ↦ ?_) hsequenced admission.chats
    obtain ⟨classification, hone, -⟩ := insertChat_eq_ok hstep
    obtain ⟨hitem, hchat⟩ := List.mem_filter.1 hitem
    exact hchain.trans (insertOne_effects htaken (hchain.integrity hI) (hpending hitem) hchat hone)
  rw [admission.db_eq]
  exact hchats.tail (.touch _ _ fun _ _ _ ↦ ⟨rfl, rfl⟩)

end LlmGateway
