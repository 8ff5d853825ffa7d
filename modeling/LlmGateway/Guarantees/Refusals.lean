import LlmGateway.Effect.ChatSequence
import LlmGateway.Guarantees.Admission

/-!
# Batches that are neither acknowledged nor in conflict

The contract bounds the integers of an event only from below, lets a text contain a zero or
an unpaired surrogate, and lets any type of event stand at the first sequence. The inbox
tables do not. The lengths of the texts agree on both sides. A batch that the contract
accepts is acknowledged or a conflict, except where one of these gaps, or the end of the
range of chat sequences, makes the transaction fail.
-/

namespace LlmGateway

open Relational

variable {config : SystemConfig} {w : World} {now : ℕ} {db db' : Db}

/-! ## The sequenced events of a batch -/

section Sequenced

variable {identity : Identity} {traceId : String} {prepared : List PreparedEvent}

theorem mem_upsertSession {sessionId : String} {s : SessionRow} (hs : s ∈ db.sessions) :
    s ∈ (db.upsertSession now identity sessionId).sessions := by
  unfold Db.upsertSession
  split
  · rename_i hinsert
    exact (Table.mem_of_insert? hinsert).2 (Or.inl hs)
  · exact hs

theorem mem_upsertCycle {sessionId : String} {generation : ℕ} {c : CycleRow}
    (hc : c ∈ db.cycles) : c ∈ (db.upsertCycle identity sessionId generation).cycles := by
  unfold Db.upsertCycle
  split
  · exact hc
  · split
    · rename_i hinsert
      exact (Table.mem_of_insert? hinsert).2 (Or.inl hc)
    · exact hc

theorem upsertCycle_sessions (db : Db) (identity : Identity) (sessionId : String)
    (generation : ℕ) : (db.upsertCycle identity sessionId generation).sessions = db.sessions := by
  unfold Db.upsertCycle
  split
  · rfl
  · split <;> rfl

/-- The cycle of this generation is stored. -/
def Db.HasCycle (db : Db) (gatewayId sessionId : String) (generation : ℕ) : Prop :=
  ∃ c ∈ db.cycles, c.gatewayId = gatewayId ∧ c.sessionId = sessionId ∧
    c.controlGeneration = generation

theorem cycleByName_isSome {gatewayId sessionId : String} {generation : ℕ}
    (h : db.HasCycle gatewayId sessionId generation) :
    ∃ c, db.cycleByName gatewayId sessionId generation = some c := by
  rw [← Option.ne_none_iff_exists']
  intro hnone
  obtain ⟨c, hc, hnames⟩ := h
  exact Table.find?_eq_none.1 hnone c hc hnames

theorem upsertCycle_hasCycle (hI : db.Integrity) {sessionId : String} {session : SessionRow}
    (hsession : db.sessionByName identity.gatewayId sessionId = some session) (generation : ℕ) :
    (db.upsertCycle identity sessionId generation).HasCycle identity.gatewayId sessionId
      generation := by
  unfold Db.upsertCycle
  rw [hsession]
  simp only
  split
  · rename_i cycles hinsert
    exact ⟨_, (Table.mem_of_insert? hinsert).2 (Or.inr rfl), rfl, rfl, rfl⟩
  · rename_i hinsert
    obtain ⟨c, hc, hclash⟩ := Table.insert?_eq_none_iff.1 hinsert
    cases hclash with
    | inl hid =>
      have hlt := hI.cycle_issued c hc
      rw [show c.id = db.nextUuid from hid] at hlt
      exact absurd hlt (lt_irrefl _)
    | inr hnames => exact ⟨c, hc, hnames⟩

/-- Each sequenced event of the batch has its session and its cycle. -/
theorem openBatch_hasCycle (config : WorkerConfig) (hI : db.Integrity)
    {items : List PreparedEvent} : ∀ p ∈ items, ∀ position ∈ p.event.position?,
      (db.openBatch now identity items).HasCycle identity.gatewayId p.event.sessionId
        position.controlGeneration := by
  have hsessions := foldl_forall (I := Db.Integrity) (l := items) (s := db)
    (f := Db.upsertSessionOf now identity)
    (Q := fun p t ↦ ∃ s, t.sessionByName identity.gatewayId p.event.sessionId = some s)
    (fun t p _ ht ↦ by
      have heffects : Effects config now (fun _ ↦ True) t
          (t.upsertSession now identity p.event.sessionId) :=
        upsertSession_effects trivial identity p.event.sessionId
      obtain ⟨⟨s, hs, -⟩, -⟩ :=
        upsertSession_sessionByName now ht identity p.event.sessionId
      exact ⟨heffects.integrity ht, s, hs⟩)
    (fun t p q h ↦ by
      obtain ⟨s, hs⟩ := h
      obtain ⟨hmem, hnames⟩ := sessionByName_eq_some.1 hs
      exact ⟨s, sessionByName_eq_some.2 ⟨mem_upsertSession hmem, hnames⟩⟩) hI
  refine (foldl_forall (f := Db.upsertCycleOf identity)
    (I := fun t : Db ↦ t.Integrity ∧ ∀ p ∈ items,
      ∃ s, t.sessionByName identity.gatewayId p.event.sessionId = some s)
    (Q := fun p t ↦ ∀ position ∈ p.event.position?,
      t.HasCycle identity.gatewayId p.event.sessionId position.controlGeneration)
    (fun t p hp ht ↦ ?_) (fun t p q h position hposition ↦ ?_) hsessions).2
  · unfold Db.upsertCycleOf
    cases hposition : p.event.position? with
    | none => exact ⟨ht, fun position h ↦ absurd h (Option.not_mem_none position)⟩
    | some position =>
      have heffects : Effects config now (fun _ ↦ True) t
          (t.upsertCycle identity p.event.sessionId position.controlGeneration) :=
        upsertCycle_effects trivial identity p.event.sessionId position.controlGeneration
      have hkept := upsertCycle_sessions t identity p.event.sessionId position.controlGeneration
      refine ⟨⟨heffects.integrity ht.1, fun q hq ↦ ?_⟩, fun position' h ↦ ?_⟩
      · unfold Db.sessionByName
        rw [hkept]
        exact ht.2 q hq
      · obtain rfl := Option.some.inj h
        obtain ⟨s, hs⟩ := ht.2 p hp
        exact upsertCycle_hasCycle ht.1 hs _
  · obtain ⟨c, hc, hnames⟩ := h position hposition
    unfold Db.upsertCycleOf
    split
    · exact ⟨c, hc, hnames⟩
    · exact ⟨c, mem_upsertCycle hc, hnames⟩

/-- A new sequenced event meets no stored one at its position. -/
theorem exists_insertEvent (now : ℕ) (traceId : String) {events : List GatewayEvent}
    (hprepared : prepareBatch identity.gatewayId events = .ok prepared)
    (hfree : ¬db.PositionTaken identity.gatewayId events) {t : Db} {ids : List String}
    (hI : t.Integrity) (hadmits : db.Admits identity.gatewayId prepared ids t)
    (hids : ∀ id ∈ ids, ∃ q ∈ prepared, q.event.eventId = id ∧ q.event.isHostedChat = false)
    {p : PreparedEvent} (hp : p ∈ db.pendingOf identity.gatewayId prepared)
    (hnew : p.event.eventId ∉ ids) {position : Position}
    (hposition : p.event.position? = some position) (cycleId : Uuid) :
    ∃ t', t.insertEvent now identity traceId p cycleId position.controlGeneration
      position.eventSequence = some t' := by
  rw [← Option.ne_none_iff_exists', Db.insertEvent, Ne, Option.map_eq_none_iff]
  intro hnone
  obtain ⟨hmem, hpending⟩ := List.mem_filter.1 hp
  have hpending := storedHash_eq_none.1 (Option.isNone_iff_eq_none.1 hpending)
  have hevent := (mem_prepared_iff hprepared).1 ⟨p, hmem, rfl⟩
  obtain ⟨e, he, hclash⟩ := Table.insert?_eq_none_iff.1 hnone
  rcases hclash with hid | ⟨hgateway, hid⟩ | ⟨hgateway, hsession, hgeneration, hsequence⟩
  · have hlt := hI.event_issued e he
    rw [show e.id = t.nextUuid from hid] at hlt
    exact absurd hlt (lt_irrefl _)
  · cases hadmits.old_or_new e he with
    | inl hold => exact hpending e hold hgateway hid
    | inr hin =>
      have hsame : e.eventId = p.event.eventId := hid
      exact hnew (hsame ▸ hin.2)
  · refine hfree ⟨p.event, hevent, position, hposition, ?_⟩
    cases hadmits.old_or_new e he with
    | inl hold =>
      exact Or.inl ⟨e, hold, hgateway, hsession, hgeneration, hsequence, hpending e hold hgateway⟩
    | inr hin =>
      obtain ⟨q, hq, hqid, hqchat⟩ := hids _ hin.2
      obtain ⟨e', he', hgateway', hid', hhash⟩ :=
        storedHash_eq_some.1 (hadmits.stored q hq (hqid ▸ hin.2))
      obtain rfl : e' = e := Table.eq_of_clashes he' he
        (Or.inr (Or.inl ⟨hgateway'.trans hin.1.symm, hid'.trans hqid⟩))
      have hsound := hI.event_sound e' he'
      have hqhash : q.contentHash = eventContentHash identity.gatewayId q.event :=
        prepareBatch_hashed hprepared q hq
      have hbody : e'.eventBody = q.event :=
        congrArg ContentHash.event (hsound.contentHash.symm.trans (hhash.trans hqhash))
      obtain ⟨other, hother⟩ := Option.isSome_iff_exists.1
        (q.event.position?_isSome.trans (by rw [hqchat]; rfl))
      obtain ⟨hother₁, hother₂⟩ := hsound.position other (hbody ▸ hother)
      have heq : other = position := by
        cases other
        cases position
        simp only [Position.mk.injEq]
        exact ⟨hother₁.symm.trans hgeneration, hother₂.symm.trans hsequence⟩
      refine Or.inr ⟨q.event, (mem_prepared_iff hprepared).1 ⟨q, hq, rfl⟩, ?_, heq ▸ hother, ?_⟩
      · rw [← hbody, ← hsound.sessionId]
        exact hsession
      · rw [hqid]
        exact fun h ↦ hnew (h ▸ hin.2)

/-- Where no position is taken, the statement inserts every sequenced event. -/
theorem insertSequenced_ids (now : ℕ) (config : WorkerConfig) {events : List GatewayEvent}
    (hprepared : prepareBatch identity.gatewayId events = .ok prepared)
    (hfree : ¬db.PositionTaken identity.gatewayId events) {rest : List PreparedEvent}
    (hpending : ∀ p ∈ rest, p ∈ db.pendingOf identity.gatewayId prepared ∧
      p.event.isHostedChat = false)
    (hinsertable : ∀ p ∈ rest, Db.Insertable identity traceId p)
    (hdistinct : (rest.map (·.event.eventId)).Nodup) {t : Db} {ids : List String}
    (hI : t.Integrity) (hadmits : db.Admits identity.gatewayId prepared ids t)
    (hcycles : ∀ p ∈ rest, ∀ position ∈ p.event.position?,
      t.HasCycle identity.gatewayId p.event.sessionId position.controlGeneration)
    (hids : ∀ id ∈ ids, ∃ q ∈ prepared, q.event.eventId = id ∧ q.event.isHostedChat = false)
    (hnew : ∀ p ∈ rest, p.event.eventId ∉ ids) :
    (rest.foldl (Db.insertSequenced now identity traceId) (ids, t)).1 =
      ids ++ rest.map (·.event.eventId) := by
  induction rest generalizing ids t with
  | nil => exact (List.append_nil ids).symm
  | cons p rest ih =>
    obtain ⟨hp, hchat⟩ := hpending p List.mem_cons_self
    have hmem := (List.mem_filter.1 hp).1
    obtain ⟨position, hposition⟩ := Option.isSome_iff_exists.1
      (p.event.position?_isSome.trans (by rw [hchat]; rfl))
    obtain ⟨cycle, hcycle⟩ := cycleByName_isSome (hcycles p List.mem_cons_self position hposition)
    obtain ⟨t', hinsert⟩ := exists_insertEvent now traceId hprepared hfree
      hI hadmits hids hp (hnew p List.mem_cons_self) hposition cycle.id
    have hstep : Db.insertSequenced now identity traceId (ids, t) p =
        (ids ++ [p.event.eventId], t') := by
      simp only [Db.insertSequenced, hposition, hcycle, hinsert]
    have heffects : Effects config now (fun _ ↦ True) t t' := by
      have hone : Effects config now (fun _ ↦ True) t
          ([p].foldl (Db.insertSequenced now identity traceId) (ids, t)).2 :=
        insertSequenced_effects trivial
        (List.forall_mem_singleton.2 (prepareBatch_hashed hprepared p hmem))
        (List.forall_mem_singleton.2 (hinsertable p List.mem_cons_self)) ids
      rw [List.foldl_cons, hstep] at hone
      exact hone
    have hnodup := List.nodup_cons.1 hdistinct
    have hkept : t'.cycles = t.cycles := by
      obtain ⟨events, -, rfl⟩ := Option.map_eq_some_iff.1 hinsert
      rfl
    rw [List.foldl_cons, hstep, ih (fun q hq ↦ hpending q (List.mem_cons_of_mem p hq))
      (fun q hq ↦ hinsertable q (List.mem_cons_of_mem p hq)) hnodup.2 (heffects.integrity hI)
      (hadmits.insert (fun a ha b hb ↦ prepared_eq_of_id hprepared ha hb) hp rfl hinsert)]
    · simp only [List.append_assoc, List.map_cons, List.singleton_append]
    · unfold Db.HasCycle
      rw [hkept]
      exact fun q hq ↦ hcycles q (List.mem_cons_of_mem p hq)
    · exact List.forall_mem_append.2 ⟨hids, List.forall_mem_singleton.2 ⟨p, hmem, rfl, hchat⟩⟩
    · intro q hq hin
      cases List.mem_append.1 hin with
      | inl hin => exact hnew q (List.mem_cons_of_mem p hq) hin
      | inr heq =>
        rw [List.mem_singleton] at heq
        exact hnodup.1 (List.mem_map.2 ⟨q, hq, heq⟩)

end Sequenced

/-! ## Room for the chat events of a batch -/

/-- The sequence belongs to a stored event of the generation, or to a new one of the batch. -/
def Db.SequenceTaken (db : Db) (gatewayId sessionId : String) (generation : ℕ)
    (sequenced : List PreparedEvent) (sequence : ℕ) : Prop :=
  (∃ e ∈ db.events, e.gatewayId = gatewayId ∧ e.sessionId = sessionId ∧
    e.controlGeneration = generation ∧ e.eventSequence = sequence) ∨
  ∃ p ∈ sequenced, p.event.sessionId = sessionId ∧ ∃ position ∈ p.event.position?,
    position.controlGeneration = generation ∧ position.eventSequence = sequence

/-- The new sequenced events of the batch. -/
def Db.sequencedOf (db : Db) (gatewayId : String) (prepared : List PreparedEvent) :
    List PreparedEvent :=
  (db.pendingOf gatewayId prepared).filter fun p ↦ !p.event.isHostedChat

/-- The new chat events of the batch. -/
def Db.chatsOf (db : Db) (gatewayId : String) (prepared : List PreparedEvent) :
    List PreparedEvent :=
  (db.pendingOf gatewayId prepared).filter (·.event.isHostedChat)

/-- Each new chat event of the batch finds a sequence in range, after the sequences of the
cycle that it goes to and after the chat events before it. -/
def Db.ChatRoom (db : Db) (now : ℕ) (identity : Identity) (traceId : String)
    (prepared : List PreparedEvent) : Prop :=
  let sequenced := db.sequencedOf identity.gatewayId prepared
  ∀ before item after, db.chatsOf identity.gatewayId prepared = before ++ item :: after →
    encodable item.event.sessionId →
    let sessionId := item.event.sessionId
    let generation := (db.openBatch now identity sequenced).chatGeneration identity.gatewayId
      sessionId
    let earlier := Db.chatsTaken identity traceId before sessionId
    hostedChatStorageSequenceFloor + earlier ≤ bigintMax ∧
      ∀ sequence, db.SequenceTaken identity.gatewayId sessionId generation sequenced sequence →
        sequence + 1 + earlier ≤ bigintMax

section Batch

variable {identity : Identity} {traceId : String} {prepared : List PreparedEvent}
  {events : List GatewayEvent} {stored : Db} {inserted : List String}

/-- The insertion of events leaves sessions and cycles alone. -/
theorem insertSequenced_frame (now : ℕ) (identity : Identity) (traceId : String)
    (items : List PreparedEvent) (ids : List String) (t : Db) :
    (items.foldl (Db.insertSequenced now identity traceId) (ids, t)).2.sessions = t.sessions ∧
      (items.foldl (Db.insertSequenced now identity traceId) (ids, t)).2.cycles = t.cycles := by
  refine List.foldlRecOn (motive := fun state : List String × Db ↦
    state.2.sessions = t.sessions ∧ state.2.cycles = t.cycles) items _ ⟨rfl, rfl⟩
    fun state hstate item _ ↦ ?_
  unfold Db.insertSequenced
  split
  · exact hstate
  · split
    · exact hstate
    · split
      · exact hstate
      · rename_i hinsert
        obtain ⟨events, -, rfl⟩ := Option.map_eq_some_iff.1 hinsert
        exact hstate

theorem chatGeneration_congr {gatewayId sessionId : String} (hsessions : db'.sessions = db.sessions)
    (hcycles : db'.cycles = db.cycles) :
    db'.chatGeneration gatewayId sessionId = db.chatGeneration gatewayId sessionId := by
  unfold Db.chatGeneration Db.selectHostedChatCycle Db.sessionByName
  rw [hsessions, hcycles]

/-- The sequences of a cycle after the sequenced events of the batch are stored. -/
theorem sequenceTaken_iff (hprepared : prepareBatch identity.gatewayId events = .ok prepared)
    (hI : stored.Integrity) (hadmits : db.Admits identity.gatewayId prepared inserted stored)
    (hids : ∀ id, id ∈ inserted ↔ ∃ p ∈ db.sequencedOf identity.gatewayId prepared,
      p.event.eventId = id) {sessionId : String} {generation sequence : ℕ} :
    (∃ e ∈ stored.events, e.gatewayId = identity.gatewayId ∧ e.sessionId = sessionId ∧
      e.controlGeneration = generation ∧ e.eventSequence = sequence) ↔
    db.SequenceTaken identity.gatewayId sessionId generation
      (db.sequencedOf identity.gatewayId prepared) sequence := by
  have hrow {p : PreparedEvent} (hp : p ∈ db.sequencedOf identity.gatewayId prepared) :
      ∃ e ∈ stored.events, e.gatewayId = identity.gatewayId ∧ e.eventId = p.event.eventId ∧
        e.eventBody = p.event := by
    have hmem := (List.mem_filter.1 (List.mem_filter.1 hp).1).1
    have hhash : p.contentHash = eventContentHash identity.gatewayId p.event :=
      prepareBatch_hashed hprepared p hmem
    have hholds : stored.Holds identity.gatewayId p.event :=
      (hadmits.stored p hmem ((hids _).2 ⟨p, hp, rfl⟩)).trans (congrArg some hhash)
    exact hholds.exists_row hI
  constructor
  · intro h
    obtain ⟨e, he, hgateway, hsession, hgeneration, hsequence⟩ := h
    cases hadmits.old_or_new e he with
    | inl hold => exact Or.inl ⟨e, hold, hgateway, hsession, hgeneration, hsequence⟩
    | inr hin =>
      obtain ⟨p, hp, hid⟩ := (hids _).1 hin.2
      obtain ⟨e', he', hgateway', hid', hbody⟩ := hrow hp
      obtain rfl : e' = e := Table.eq_of_clashes he' he
        (Or.inr (Or.inl ⟨hgateway'.trans hin.1.symm, hid'.trans hid⟩))
      have hsound := hI.event_sound e' he'
      obtain ⟨position, hposition⟩ := Option.isSome_iff_exists.1
        (p.event.position?_isSome.trans (List.mem_filter.1 hp).2)
      obtain ⟨hgeneration', hsequence'⟩ := hsound.position position (hbody ▸ hposition)
      refine Or.inr ⟨p, hp, ?_, position, hposition, hgeneration'.symm.trans hgeneration,
        hsequence'.symm.trans hsequence⟩
      rw [← hbody, ← hsound.sessionId]
      exact hsession
  · intro h
    cases h with
    | inl h =>
      obtain ⟨e, he, hrest⟩ := h
      exact ⟨e, hadmits.kept e he, hrest⟩
    | inr h =>
      obtain ⟨p, hp, hsession, position, hposition, hgeneration, hsequence⟩ := h
      obtain ⟨e, he, hgateway, -, hbody⟩ := hrow hp
      have hsound := hI.event_sound e he
      obtain ⟨hgeneration', hsequence'⟩ := hsound.position position (hbody ▸ hposition)
      refine ⟨e, he, hgateway, ?_, hgeneration'.trans hgeneration, hsequence'.trans hsequence⟩
      rw [hsound.sessionId, hbody]
      exact hsession

theorem chatDue_add_le_iff {gatewayId sessionId : String} {n m : ℕ} :
    db.chatDue gatewayId sessionId + n ≤ m ↔ hostedChatStorageSequenceFloor + n ≤ m ∧
      ∀ e ∈ db.events, db.ChatPartition gatewayId sessionId e → e.eventSequence + 1 + n ≤ m := by
  constructor
  · intro h
    have hfloor := floor_le_chatDue db gatewayId sessionId
    refine ⟨by omega, fun e he hpartition ↦ ?_⟩
    have hlt := lt_chatDue he hpartition
    omega
  · intro h
    have hdue : db.chatDue gatewayId sessionId ≤ m - n := by
      apply chatDue_le_iff.2
      refine ⟨by omega, fun e he hpartition ↦ ?_⟩
      have hfits := h.2 e he hpartition
      omega
    have hle := h.1
    omega

/-- The statement inserted the sequenced events of the batch, and no others. -/
structure Db.SequencedStored (db : Db) (now : ℕ) (identity : Identity)
    (prepared : List PreparedEvent) (inserted : List String) (stored : Db) : Prop where
  integrity : stored.Integrity
  admits : db.Admits identity.gatewayId prepared inserted stored
  ids : ∀ id, id ∈ inserted ↔ ∃ p ∈ db.sequencedOf identity.gatewayId prepared,
    p.event.eventId = id
  sessions_eq : stored.sessions =
    (db.openBatch now identity (db.sequencedOf identity.gatewayId prepared)).sessions
  cycles_eq : stored.cycles =
    (db.openBatch now identity (db.sequencedOf identity.gatewayId prepared)).cycles

/-- The condition on the sequences that the insertion of the chat events meets. -/
theorem chatRoom_iff (hprepared : prepareBatch identity.gatewayId events = .ok prepared)
    (hstored : db.SequencedStored now identity prepared inserted stored) :
    (∀ before item after, db.chatsOf identity.gatewayId prepared = before ++ item :: after →
      encodable item.event.sessionId →
        stored.chatDue identity.gatewayId item.event.sessionId +
          Db.chatsTaken identity traceId before item.event.sessionId ≤ bigintMax) ↔
      db.ChatRoom now identity traceId prepared := by
  unfold Db.ChatRoom
  simp only
  apply forall₅_congr
  intro before item after _ _
  rw [chatDue_add_le_iff]
  apply and_congr_right
  intro _
  simp only [← sequenceTaken_iff hprepared hstored.integrity hstored.admits hstored.ids,
    ← chatGeneration_congr hstored.sessions_eq hstored.cycles_eq]
  constructor
  · intro h sequence htaken
    obtain ⟨e, he, hgateway, hsession, hgeneration, rfl⟩ := htaken
    exact h e he ⟨hgateway, hsession, hgeneration⟩
  · exact fun h e he hpartition ↦
      h e.eventSequence ⟨e, he, hpartition.1, hpartition.2.1, hpartition.2.2, rfl⟩

/-- The chat events of a batch whose sequenced events are stored. -/
theorem foldlM_chats (traceId : String) (config : WorkerConfig)
    (hprepared : prepareBatch identity.gatewayId events = .ok prepared)
    (hstored : db.SequencedStored now identity prepared inserted stored) :
    ((∃ progress, (db.chatsOf identity.gatewayId prepared).foldlM
        (insertChat now identity traceId) ⟨inserted, [], stored⟩ = .ok progress) ∨
      (db.chatsOf identity.gatewayId prepared).foldlM
        (insertChat now identity traceId) ⟨inserted, [], stored⟩ = .error .unavailable) ∧
    ((∃ progress, (db.chatsOf identity.gatewayId prepared).foldlM
        (insertChat now identity traceId) ⟨inserted, [], stored⟩ = .ok progress) ↔
      db.ChatRoom now identity traceId prepared) := by
  have hsublist : (db.chatsOf identity.gatewayId prepared).Sublist prepared :=
    List.filter_sublist.trans List.filter_sublist
  have hnodup : ((db.chatsOf identity.gatewayId prepared).map (·.event.eventId)).Nodup := by
    refine (hsublist.map _).nodup ?_
    rw [prepareBatch_ids hprepared]
    exact nodup_firstSeen _
  have hnew : ∀ p ∈ db.chatsOf identity.gatewayId prepared,
      stored.storedHash identity.gatewayId p.event.eventId = none := by
    intro p hp
    obtain ⟨hpending, hchat⟩ := List.mem_filter.1 hp
    rw [← Option.not_isSome_iff_eq_none]
    intro hsome
    obtain ⟨q, hq, hid⟩ := (hstored.ids _).1 (hstored.admits.mem_of_stored hpending hsome)
    have hqchat := (List.mem_filter.1 hq).2
    rw [prepared_eq_of_id hprepared (List.mem_filter.1 (List.mem_filter.1 hq).1).1
      (hsublist.subset hp) hid, hchat] at hqchat
    exact absurd hqchat Bool.false_ne_true
  rw [← chatRoom_iff hprepared hstored]
  exact insertChats_iff config (fun p hp ↦ (List.mem_filter.1 hp).2)
    (fun p hp ↦ prepareBatch_hashed hprepared p (hsublist.subset hp)) hnodup hstored.integrity hnew

/-- Where all checks hold and no position is taken, the statement stores the sequenced events. -/
theorem sequencedStored_of_not_positionTaken (config : WorkerConfig) (hI : db.Integrity)
    (hprepared : prepareBatch identity.gatewayId events = .ok prepared)
    (hfree : ¬db.PositionTaken identity.gatewayId events)
    (hinsert : db.insertNonChatBatch now identity traceId
      (db.sequencedOf identity.gatewayId prepared) = .ok (inserted, stored)) :
    db.SequencedStored now identity prepared inserted stored := by
  have hdistinct : ∀ p ∈ prepared, ∀ q ∈ prepared, p.event.eventId = q.event.eventId → p = q :=
    fun p hp q hq ↦ prepared_eq_of_id hprepared hp hq
  have hmem {p : PreparedEvent} (hp : p ∈ db.sequencedOf identity.gatewayId prepared) :
      p ∈ db.pendingOf identity.gatewayId prepared ∧ p.event.isHostedChat = false :=
    ⟨(List.mem_filter.1 hp).1, by simpa using (List.mem_filter.1 hp).2⟩
  have hhashed : ∀ p ∈ db.sequencedOf identity.gatewayId prepared,
      p.Hashed identity.gatewayId := fun p hp ↦
    prepareBatch_hashed hprepared p (List.mem_filter.1 (hmem hp).1).1
  have hadmits := insertNonChatBatch_admits hdistinct (fun p hp ↦ (hmem hp).1) hinsert
  have heffects : Effects config now (fun _ ↦ True) db stored :=
    insertNonChatBatch_effects trivial hhashed hinsert
  unfold Db.insertNonChatBatch at hinsert
  split_ifs at hinsert with hbad
  push Not at hbad
  have hfold := Except.ok.inj hinsert
  have hopen : Effects config now (fun _ ↦ True) db
      (db.openBatch now identity (db.sequencedOf identity.gatewayId prepared)) :=
    openBatch_effects trivial identity db _
  have hids := insertSequenced_ids now config hprepared hfree
    (fun p hp ↦ hmem hp) hbad
    (by
      have hsublist : (db.sequencedOf identity.gatewayId prepared).Sublist prepared :=
        List.filter_sublist.trans List.filter_sublist
      refine (hsublist.map _).nodup ?_
      rw [prepareBatch_ids hprepared]
      exact nodup_firstSeen _)
    (hopen.integrity hI) ((Db.Admits.start db _ _).of_events_eq (openBatch_events now identity db _))
    (openBatch_hasCycle config hI) (fun id h ↦ absurd h List.not_mem_nil)
    (fun p _ ↦ List.not_mem_nil)
  have hframe := insertSequenced_frame now identity traceId
    (db.sequencedOf identity.gatewayId prepared) []
    (db.openBatch now identity (db.sequencedOf identity.gatewayId prepared))
  unfold Db.openBatch at hids hframe
  rw [hfold] at hids hframe
  have hall : inserted = (db.sequencedOf identity.gatewayId prepared).map (·.event.eventId) := hids
  refine ⟨heffects.integrity hI, hadmits, fun id ↦ ?_, hframe.1, hframe.2⟩
  rw [hall, List.mem_map]

end Batch

/-! ## Batches of the contract -/

/-- The gaps between the contract and the inbox tables that an event falls into. Its lengths
are none: every text that has a bounded column is at most as long in the contract. -/
def GatewayEvent.WithinTables (event : GatewayEvent) (traceId : String) : Prop :=
  ∀ position ∈ event.position?, position.controlGeneration ≤ bigintMax ∧
    position.eventSequence ≤ bigintMax ∧ event.isEncodable ∧ encodable traceId ∧
      (position.eventSequence = 1 → event.eventType = .sessionStarted)

/-- An event of the contract satisfies the ranges, lengths and checks of the tables exactly
outside these gaps. -/
theorem insertable_iff {envelope : BatchEnvelope} {tenantId : Uuid} {event : GatewayEvent}
    {contentHash : ContentHash} :
    Db.Insertable ⟨tenantId, envelope.gatewayId⟩ envelope.traceId ⟨event, contentHash⟩ ↔
      event.WithinTables envelope.traceId := by
  have hfits : Db.FitsColumns ⟨tenantId, envelope.gatewayId⟩ envelope.traceId
      ⟨event, contentHash⟩ :=
    ⟨envelope.gatewayId_length.2, event.sessionId_length.2, event.eventId_length.2,
      envelope.traceId_length.2⟩
  unfold Db.Insertable GatewayEvent.WithinTables
  apply forall₂_congr
  intro position hposition
  have hpos := position.sequence_pos
  constructor
  · intro h
    obtain ⟨⟨hgeneration, hsequence, hbody, htrace, -⟩, hcheck⟩ := h
    refine ⟨hgeneration, hsequence, hbody, htrace, fun hone ↦ ?_⟩
    cases hcheck with
    | inl hstart => exact hstart.1
    | inr hlater => exact absurd hone hlater.2.ne'
  · intro h
    obtain ⟨hgeneration, hsequence, hbody, htrace, hone⟩ := h
    refine ⟨⟨hgeneration, hsequence, hbody, htrace, hfits⟩, ?_⟩
    by_cases htype : event.eventType = .sessionStarted
    · exact Or.inl ⟨htype, GatewayEvent.eventSequence_of_sessionStarted hposition htype⟩
    · refine Or.inr ⟨htype, ?_⟩
      have hne : position.eventSequence ≠ 1 := fun h ↦ htype (hone h)
      omega

/-- The batch makes the transaction fail: it has no canonical bytes, an identifier or a new
sequenced event that the tables refuse before a clash is found, or, without any clash, a chat
event whose sequence is out of range. -/
def Db.Refuses (db : Db) (now : ℕ) (identity : Identity) (traceId : String)
    (events : List GatewayEvent) : Prop :=
  db.HidesClash identity traceId events ∨
    ∃ prepared, prepareBatch identity.gatewayId events = .ok prepared ∧
      ¬db.ContentTaken identity.gatewayId events ∧ ¬db.PositionTaken identity.gatewayId events ∧
        ¬db.ChatRoom now identity traceId prepared

/-- The batch is acknowledged or a conflict. -/
def Db.Settles (db : Db) (staleAfterMs : Option ℕ) (now : ℕ) (identity : Identity)
    (traceId : String) (events : List GatewayEvent) : Prop :=
  (∃ acceptance db', acceptEventBatch staleAfterMs now identity traceId events db =
    .ok (acceptance, db')) ∨
  ∃ id, acceptEventBatch staleAfterMs now identity traceId events db = .error (.conflict id)

section Settling

variable {staleAfterMs : Option ℕ} {identity : Identity} {traceId : String}
  {events : List GatewayEvent}

theorem not_settles_of_error {error : AdmissionError} (hne : ∀ id, error ≠ .conflict id)
    (h : acceptEventBatch staleAfterMs now identity traceId events db = .error error) :
    ¬db.Settles staleAfterMs now identity traceId events := by
  intro hsettles
  cases hsettles with
  | inl hok =>
    obtain ⟨acceptance, db', hok⟩ := hok
    rw [h] at hok
    cases hok
  | inr hconflict =>
    obtain ⟨id, hconflict⟩ := hconflict
    rw [h] at hconflict
    exact hne id (Except.error.inj hconflict)

/-- Without a clash, a chat event that finds no sequence makes the batch unavailable. -/
theorem unavailable_of_not_chatRoom (config : WorkerConfig) (hI : db.Integrity)
    {prepared : List PreparedEvent}
    (hprepared : prepareBatch identity.gatewayId events = .ok prepared)
    (hhidden : ¬db.HidesClash identity traceId events)
    (hcontent : ¬db.ContentTaken identity.gatewayId events)
    (hfree : ¬db.PositionTaken identity.gatewayId events)
    (hroom : ¬db.ChatRoom now identity traceId prepared) :
    acceptEventBatch staleAfterMs now identity traceId events db = .error .unavailable := by
  simp only [Db.HidesClash, not_exists, not_and, not_or] at hhidden
  obtain ⟨hencodable, hinsertable⟩ := hhidden.2 prepared hprepared
  have hgood : ¬∃ p ∈ prepared, ¬encodable p.event.eventId := by
    intro hbad
    obtain ⟨p, hp, hbad⟩ := hbad
    exact hencodable p hp hbad
  have hchecks : ¬∃ p ∈ db.sequencedOf identity.gatewayId prepared,
      ¬Db.Insertable identity traceId p := by
    intro hbad
    obtain ⟨p, hp, hnot⟩ := hbad
    obtain ⟨hpending, hchat⟩ := List.mem_filter.1 hp
    exact hinsertable hcontent p hpending (by simpa using hchat) hnot
  obtain ⟨inserted, stored, hinsert⟩ : ∃ inserted stored,
      db.insertNonChatBatch now identity traceId (db.sequencedOf identity.gatewayId prepared) =
        .ok (inserted, stored) := by
    unfold Db.insertNonChatBatch
    rw [if_neg hchecks]
    exact ⟨_, _, rfl⟩
  have hstored := sequencedStored_of_not_positionTaken config hI hprepared hfree hinsert
  have hresolved : ∀ p ∈ db.sequencedOf identity.gatewayId prepared,
      stored.resolveNonChat identity.gatewayId inserted p = .ok () := by
    intro p hp
    unfold Db.resolveNonChat
    rw [if_pos ((hstored.ids _).2 ⟨p, hp, rfl⟩)]
  obtain ⟨hresult, hiff⟩ := foldlM_chats traceId config hprepared hstored
  have hfail := hresult.resolve_left fun hok ↦ hroom (hiff.1 hok)
  refine bind_eq_error_iff.2 (Or.inr ⟨prepared, hprepared, ?_⟩)
  unfold admitPrepared
  simp only
  rw [if_neg hgood]
  have hsame : prepared.forM (checkExisting db identity.gatewayId) = .ok () :=
    forM_eq_ok_iff.2 ((checkExisting_ok_iff hprepared).2 hcontent)
  refine bind_eq_error_iff.2 (Or.inr ⟨(), hsame, ?_⟩)
  refine bind_eq_error_iff.2 (Or.inr ⟨(inserted, stored), hinsert, ?_⟩)
  refine bind_eq_error_iff.2 (Or.inr ⟨(), forM_eq_ok_iff.2 hresolved, ?_⟩)
  exact bind_eq_error_iff.2 (Or.inl hfail)

/-- A batch is acknowledged or a conflict exactly when it does not make the transaction fail. -/
theorem settles_iff (config : WorkerConfig) (hI : db.Integrity) :
    db.Settles staleAfterMs now identity traceId events ↔
      ¬db.Refuses now identity traceId events := by
  constructor
  · intro hsettles hrefuses
    have hfails {error : AdmissionError} (hne : ∀ id, error ≠ .conflict id)
        (h : acceptEventBatch staleAfterMs now identity traceId events db = .error error) : False :=
      not_settles_of_error hne h hsettles
    by_cases hhidden : db.HidesClash identity traceId events
    · cases hhidden with
      | inl hencode =>
        exact hfails (fun _ ↦ AdmissionError.noConfusion) (acceptEventBatch_of_prepareBatch hencode)
      | inr hhidden =>
        obtain ⟨prepared, hprepared, hhidden⟩ := hhidden
        exact hfails (fun _ ↦ AdmissionError.noConfusion) (unavailable_of_hidden hprepared hhidden)
    · obtain ⟨prepared, hprepared, hcontent, hfree, hroom⟩ := hrefuses.resolve_left hhidden
      exact hfails (fun _ ↦ AdmissionError.noConfusion)
        (unavailable_of_not_chatRoom config hI hprepared hhidden hcontent hfree hroom)
  · intro hnot
    obtain ⟨hhidden, hroom⟩ := not_or.1 hnot
    cases hresult : acceptEventBatch staleAfterMs now identity traceId events db with
    | ok result => exact Or.inl ⟨_, _, hresult⟩
    | error error =>
      refine Or.inr ?_
      rcases bind_eq_error_iff.1 hresult with h | ⟨prepared, hprepared, h⟩
      · cases error_of_prepareBatch h with
        | inl hencode => exact absurd (Or.inl (hencode ▸ h)) hhidden
        | inr hconflict =>
          obtain ⟨id, rfl⟩ := hconflict
          exact ⟨id, hresult⟩
      cases error_of_admitPrepared hprepared hhidden h with
      | inl hconflict =>
        obtain ⟨id, rfl⟩ := hconflict
        exact ⟨id, hresult⟩
      | inr hchats =>
        obtain ⟨hcontent, inserted, stored, hinsert, hresolved, hchats⟩ := hchats
        have hfree :=
          not_positionTaken_of_resolved config hI hprepared hcontent hinsert hresolved
        have hstored := sequencedStored_of_not_positionTaken config hI hprepared hfree hinsert
        have hroom : db.ChatRoom now identity traceId prepared := by
          by_contra hnone
          exact hroom ⟨prepared, hprepared, hcontent, hfree, hnone⟩
        obtain ⟨progress, hok⟩ := (foldlM_chats traceId config hprepared hstored).2.2 hroom
        have hboth := hok.symm.trans hchats
        cases hboth

end Settling

namespace World

section Runs

open Scenario

/-- A chat message with an unpaired surrogate. -/
def surrogateChat : GatewayEvent :=
  { chat "c1" with
    body := .chat (.chatReceived (.str ⟨[⟨0xD800, by decide⟩]⟩))
    valid := ⟨rfl, rfl⟩ }

def envelope (event : GatewayEvent) : BatchEnvelope :=
  ⟨"trace", "g", [event], by decide, by decide, List.cons_ne_nil _ _⟩

end Runs

end World

end LlmGateway
