import LlmGateway.Effect.Admission
import LlmGateway.Relational.Distinct

/-!
# What a committed batch has stored

A batch that commits has a row for each of its events, with the content of the event. The
rows it adds are those of the identifiers it reports as received, which are exactly the ones
that were not stored before.
-/

namespace LlmGateway

open Relational

variable {config : WorkerConfig} {now : ℕ} {P : Branch → Prop} {db db' : Db}

/-! ## Prepared events -/

/-- The identifiers of a list of events. -/
def eventIds (events : List GatewayEvent) : List String := events.map (·.eventId)

/-- The prepared events are the distinct ones, in the order in which they are first seen. -/
theorem prepareBatch_ids {gatewayId : String} {events : List GatewayEvent}
    {prepared : List PreparedEvent} (h : prepareBatch gatewayId events = .ok prepared) :
    prepared.map (·.event.eventId) = firstSeen (eventIds events) := by
  have hfold (events : List GatewayEvent) (before : List PreparedEvent)
      (h : events.foldlM (prepareEvent gatewayId) before = .ok prepared) :
      prepared.map (·.event.eventId) =
        (eventIds events).foldl keepNew (before.map (·.event.eventId)) := by
    induction events generalizing before with
    | nil =>
      cases h
      rfl
    | cons event events ih =>
      obtain ⟨next, hfirst, hrest⟩ := foldlM_cons_eq_ok_iff.1 h
      rw [ih next hrest]
      change _ = (eventIds events).foldl keepNew
        (keepNew (before.map (·.event.eventId)) event.eventId)
      congr 1
      unfold keepNew
      rcases prepareEvent_cases hfirst with ⟨rfl, p, hp, hid, -⟩ | ⟨rfl, hnew⟩
      · rw [if_pos (List.mem_map.2 ⟨p, hp, hid⟩)]
      · rw [if_neg, List.map_append, List.map_singleton]
        intro hmem
        obtain ⟨p, hp, hid⟩ := List.mem_map.1 hmem
        exact hnew p hp hid
  exact hfold events [] h

/-- Every event of a batch is prepared, and every prepared event is one of the batch. -/
theorem mem_prepared_iff {gatewayId : String} {events : List GatewayEvent}
    {prepared : List PreparedEvent} (h : prepareBatch gatewayId events = .ok prepared)
    {event : GatewayEvent} : (∃ p ∈ prepared, p.event = event) ↔ event ∈ events := by
  have hhashed := prepareBatch_hashed h
  have hinvariant : (∀ p ∈ prepared, p.event ∈ events) ∧ ∀ event ∈ events, ∃ p ∈ prepared,
      p.contentHash = eventContentHash gatewayId event := by
    refine foldlM_forall
      (I := fun prepared : List PreparedEvent ↦ ∀ p ∈ prepared, p.event ∈ events)
      (Q := fun event prepared ↦ ∃ p ∈ prepared, p.contentHash = eventContentHash gatewayId event)
      (fun s event hevent s' hs hstep ↦ ?_) (fun s event _ s' hstep event' hp ↦ ?_)
      (fun p hp ↦ absurd hp List.not_mem_nil) h
    · rcases prepareEvent_cases hstep with ⟨rfl, p, hp, -, hhash⟩ | ⟨rfl, -⟩
      · exact ⟨hs, p, hp, hhash⟩
      · refine ⟨List.forall_mem_append.2 ⟨hs, List.forall_mem_singleton.2 hevent⟩, ?_⟩
        exact ⟨_, List.mem_append_right _ List.mem_cons_self, rfl⟩
    · obtain ⟨p, hp, hhash⟩ := hp
      rcases prepareEvent_cases hstep with ⟨rfl, -⟩ | ⟨rfl, -⟩
      · exact ⟨p, hp, hhash⟩
      · exact ⟨p, List.mem_append_left _ hp, hhash⟩
  constructor
  · rintro ⟨p, hp, rfl⟩
    exact hinvariant.1 p hp
  · intro hevent
    obtain ⟨p, hp, hhash⟩ := hinvariant.2 event hevent
    refine ⟨p, hp, ?_⟩
    have heq : eventContentHash gatewayId p.event = eventContentHash gatewayId event :=
      (hhashed p hp).symm.trans hhash
    exact congrArg ContentHash.event heq

/-- A prepared event is determined by its identifier. -/
theorem prepared_eq_of_id {gatewayId : String} {events : List GatewayEvent}
    {prepared : List PreparedEvent} (h : prepareBatch gatewayId events = .ok prepared)
    {p q : PreparedEvent} (hp : p ∈ prepared) (hq : q ∈ prepared)
    (hid : p.event.eventId = q.event.eventId) : p = q := by
  have hnodup : (prepared.map (·.event.eventId)).Nodup := by
    rw [prepareBatch_ids h]
    exact nodup_firstSeen _
  exact List.inj_on_of_nodup_map hnodup hp hq hid

/-! ## Stored events -/

theorem storedHash_eq_some {gatewayId eventId : String} {hash : ContentHash} :
    db.storedHash gatewayId eventId = some hash ↔ ∃ e ∈ db.events,
      e.gatewayId = gatewayId ∧ e.eventId = eventId ∧ e.contentHash = hash := by
  have hclash (e e' : EventRow) (h : e.gatewayId = gatewayId ∧ e.eventId = eventId)
      (h' : e'.gatewayId = gatewayId ∧ e'.eventId = eventId) : Keyed.Clashes e e' :=
    Or.inr (Or.inl ⟨h.1.trans h'.1.symm, h.2.trans h'.2.symm⟩)
  have hfind {e : EventRow} := Table.find?_eq_some_iff (t := db.events) hclash (r := e)
  simp only [Db.storedHash, Option.map_eq_some_iff, hfind]
  constructor
  · rintro ⟨e, ⟨he, hg, hid⟩, hhash⟩
    exact ⟨e, he, hg, hid, hhash⟩
  · rintro ⟨e, he, hg, hid, hhash⟩
    exact ⟨e, ⟨he, hg, hid⟩, hhash⟩

theorem storedHash_eq_none {gatewayId eventId : String} :
    db.storedHash gatewayId eventId = none ↔
      ∀ e ∈ db.events, e.gatewayId = gatewayId → e.eventId ≠ eventId := by
  rw [← Option.not_isSome_iff_eq_none, Option.isSome_iff_exists]
  simp only [storedHash_eq_some]
  constructor
  · exact fun h e he hg hid ↦ h ⟨e.contentHash, e, he, hg, hid, rfl⟩
  · rintro h ⟨-, e, he, hg, hid, -⟩
    exact h e he hg hid

/-- The event is stored with its content. -/
def Db.Holds (db : Db) (gatewayId : String) (event : GatewayEvent) : Prop :=
  db.storedHash gatewayId event.eventId = some (eventContentHash gatewayId event)

/-- The row of a stored event carries it. -/
theorem Db.Holds.exists_row {gatewayId : String} {event : GatewayEvent}
    (h : db.Holds gatewayId event) (hI : db.Integrity) :
    ∃ e ∈ db.events, e.gatewayId = gatewayId ∧ e.eventId = event.eventId ∧
      e.eventBody = event := by
  obtain ⟨e, he, hg, hid, hhash⟩ := storedHash_eq_some.1 h
  exact ⟨e, he, hg, hid, congrArg ContentHash.event
    ((hI.event_sound e he).contentHash.symm.trans hhash)⟩

/-- From `db` on, exactly the events of these identifiers were inserted, and nothing else
happened to the stored events. -/
structure Db.Admits (db : Db) (gatewayId : String) (prepared : List PreparedEvent)
    (ids : List String) (db' : Db) : Prop where
  kept : ∀ e ∈ db.events, e ∈ db'.events
  old_or_new : ∀ e ∈ db'.events, e ∈ db.events ∨ (e.gatewayId = gatewayId ∧ e.eventId ∈ ids)
  stored : ∀ p ∈ prepared, p.event.eventId ∈ ids →
    db'.storedHash gatewayId p.event.eventId = some p.contentHash
  fresh : ∀ id ∈ ids, ∃ p ∈ db.pendingOf gatewayId prepared, p.event.eventId = id

namespace Db.Admits

variable {gatewayId : String} {prepared : List PreparedEvent} {ids : List String}

theorem start (db : Db) (gatewayId : String) (prepared : List PreparedEvent) :
    db.Admits gatewayId prepared [] db where
  kept _ he := he
  old_or_new _ he := Or.inl he
  stored _ _ hid := absurd hid List.not_mem_nil
  fresh _ hid := absurd hid List.not_mem_nil

theorem of_events_eq (h : db.Admits gatewayId prepared ids db') {db'' : Db}
    (hevents : db''.events = db'.events) : db.Admits gatewayId prepared ids db'' := by
  refine ⟨?_, ?_, ?_, h.fresh⟩
  · rw [hevents]
    exact h.kept
  · rw [hevents]
    exact h.old_or_new
  · unfold storedHash
    rw [hevents]
    exact h.stored

/-- The insertion of one more prepared event. -/
theorem insert (h : db.Admits gatewayId prepared ids db')
    (hdistinct : ∀ p ∈ prepared, ∀ q ∈ prepared, p.event.eventId = q.event.eventId → p = q)
    {item : PreparedEvent} (hitem : item ∈ db.pendingOf gatewayId prepared) {identity : Identity}
    (hgateway : identity.gatewayId = gatewayId) {traceId : String} {cycleId : Uuid}
    {generation sequence : ℕ} {db'' : Db} (hinsert :
      db'.insertEvent now identity traceId item cycleId generation sequence = some db'') :
    db.Admits gatewayId prepared (ids ++ [item.event.eventId]) db'' := by
  obtain ⟨events, hevents, rfl⟩ := Option.map_eq_some_iff.1 hinsert
  have hmem {e : EventRow} := Table.mem_of_insert? hevents (r := e)
  refine ⟨fun e he ↦ hmem.2 (Or.inl (h.kept e he)), fun e he ↦ ?_, fun p hp hid ↦ ?_, ?_⟩
  · rcases hmem.1 he with he | rfl
    · exact (h.old_or_new e he).imp_right fun ⟨hg, hid⟩ ↦ ⟨hg, List.mem_append_left _ hid⟩
    · exact Or.inr ⟨hgateway, List.mem_append_right _ List.mem_cons_self⟩
  · rw [storedHash_eq_some]
    rcases List.mem_append.1 hid with hid | hid
    · obtain ⟨e, he, hrest⟩ := storedHash_eq_some.1 (h.stored p hp hid)
      exact ⟨e, hmem.2 (Or.inl he), hrest⟩
    · obtain rfl := hdistinct p hp item (List.mem_filter.1 hitem).1 (List.mem_singleton.1 hid)
      exact ⟨_, hmem.2 (Or.inr rfl), hgateway, rfl, rfl⟩
  · exact List.forall_mem_append.2 ⟨h.fresh,
      List.forall_mem_singleton.2 ⟨item, hitem, rfl⟩⟩

/-- A pending event that is stored now was inserted. -/
theorem mem_of_stored (h : db.Admits gatewayId prepared ids db') {p : PreparedEvent}
    (hp : p ∈ db.pendingOf gatewayId prepared)
    (hstored : (db'.storedHash gatewayId p.event.eventId).isSome = true) :
    p.event.eventId ∈ ids := by
  obtain ⟨hash, hhash⟩ := Option.isSome_iff_exists.1 hstored
  obtain ⟨e, he, hg, hid, -⟩ := storedHash_eq_some.1 hhash
  have hnone := Option.isNone_iff_eq_none.1 (by simpa using (List.mem_filter.1 hp).2)
  rcases h.old_or_new e he with he | ⟨-, hmem⟩
  · exact absurd hid (storedHash_eq_none.1 hnone e he hg)
  · exact hid ▸ hmem

end Db.Admits

/-! ## The two ways of insertion -/

theorem upsertSession_events (db : Db) (identity : Identity) (sessionId : String) :
    (db.upsertSession now identity sessionId).events = db.events := by
  unfold Db.upsertSession
  split <;> rfl

theorem upsertCycle_events (db : Db) (identity : Identity) (sessionId : String)
    (generation : ℕ) : (db.upsertCycle identity sessionId generation).events = db.events := by
  unfold Db.upsertCycle
  split
  · rfl
  · split <;> rfl

theorem ensureHostedChatCycle_events (db : Db) (identity : Identity) (sessionId : String) :
    (db.ensureHostedChatCycle now identity sessionId).events = db.events := by
  unfold Db.ensureHostedChatCycle
  split
  · rfl
  · rw [upsertCycle_events, upsertSession_events]

/-- Opening the sessions and cycles of a batch stores no event. -/
theorem openBatch_events (now : ℕ) (identity : Identity) (db : Db) (items : List PreparedEvent) :
    (db.openBatch now identity items).events = db.events := by
  have hsessions : (items.foldl (Db.upsertSessionOf now identity) db).events = db.events :=
    List.foldlRecOn (motive := fun t : Db ↦ t.events = db.events) items _ rfl
      fun t ht item _ ↦ (upsertSession_events t identity _).trans ht
  refine List.foldlRecOn (motive := fun t : Db ↦ t.events = db.events) items _ hsessions
    fun t ht item _ ↦ ?_
  unfold Db.upsertCycleOf
  split
  · exact ht
  · exact (upsertCycle_events t identity _ _).trans ht

/-- The sequenced events that the statement did not insert make the batch fail. -/
theorem mem_of_resolved {gatewayId : String} {prepared : List PreparedEvent}
    {inserted : List String}
    (hadmits : db.Admits gatewayId prepared inserted db') {p : PreparedEvent}
    (hp : p ∈ db.pendingOf gatewayId prepared)
    (hresolved : db'.resolveNonChat gatewayId inserted p = .ok ()) :
    p.event.eventId ∈ inserted := by
  unfold Db.resolveNonChat at hresolved
  split_ifs at hresolved with hmem hstored
  · exact hmem
  · exact hadmits.mem_of_stored hp (by rw [hstored]; rfl)

section Insertions

variable {identity : Identity} {traceId : String} {prepared : List PreparedEvent}
  (hdistinct : ∀ p ∈ prepared, ∀ q ∈ prepared, p.event.eventId = q.event.eventId → p = q)

include hdistinct

theorem insertNonChatBatch_admits {items : List PreparedEvent} {inserted : List String}
    (hitems : ∀ item ∈ items, item ∈ db.pendingOf identity.gatewayId prepared)
    (h : db.insertNonChatBatch now identity traceId items = .ok (inserted, db')) :
    db.Admits identity.gatewayId prepared inserted db' := by
  unfold Db.insertNonChatBatch at h
  split_ifs at h
  have hfold := Except.ok.inj h
  have hcycles := openBatch_events now identity db items
  have hadmits : db.Admits identity.gatewayId prepared (items.foldl
      (Db.insertSequenced now identity traceId) ([], items.foldl (Db.upsertCycleOf identity)
        (items.foldl (Db.upsertSessionOf now identity) db))).1 (items.foldl
      (Db.insertSequenced now identity traceId) ([], items.foldl (Db.upsertCycleOf identity)
        (items.foldl (Db.upsertSessionOf now identity) db))).2 := by
    refine List.foldlRecOn (motive := fun state : List String × Db ↦
      db.Admits identity.gatewayId prepared state.1 state.2) items _
      ((Db.Admits.start db _ _).of_events_eq hcycles) fun state hstate item hitem ↦ ?_
    unfold Db.insertSequenced
    split
    · exact hstate
    · split
      · exact hstate
      · split
        · exact hstate
        · rename_i hinsert
          exact hstate.insert hdistinct (hitems item hitem) rfl hinsert
  rw [hfold] at hadmits
  exact hadmits

theorem insertChat_admits {progress progress' : Progress} {item : PreparedEvent}
    (hadmits : db.Admits identity.gatewayId prepared progress.received progress.db)
    (hitem : item ∈ db.pendingOf identity.gatewayId prepared)
    (h : insertChat now identity traceId progress item = .ok progress') :
    db.Admits identity.gatewayId prepared progress'.received progress'.db ∧
      (item.event.eventId ∈ progress'.received ∨ item.event.eventId ∈ progress'.unresolved) := by
  obtain ⟨classification, hone, hreceived, hunresolved⟩ := insertChat_eq_ok h
  rw [hreceived, hunresolved]
  have hensure : (progress.db.ensureHostedChatCycle now identity item.event.sessionId).events =
      progress.db.events := ensureHostedChatCycle_events _ _ _
  rcases insertOne_cases hone with ⟨hclass, hdb⟩ | ⟨rfl, cycle, sequence, -, -, hinsert⟩
  · have hevents : progress'.db.events = progress.db.events := by
      rcases hdb with hdb | hdb
      · rw [hdb]
      · rw [hdb, hensure]
    have hadmits' := hadmits.of_events_eq hevents
    unfold Db.classifyStored at hclass
    split at hclass
    · cases hclass
      exact ⟨hadmits', Or.inr (List.mem_append_right _ List.mem_cons_self)⟩
    · rename_i hash hhash
      split_ifs at hclass
      cases hclass
      exact ⟨hadmits', Or.inl (hadmits'.mem_of_stored hitem (by rw [hhash]; rfl))⟩
  · rw [if_pos rfl]
    exact ⟨(hadmits.of_events_eq hensure).insert hdistinct hitem rfl hinsert,
      Or.inl (List.mem_append_right _ List.mem_cons_self)⟩

end Insertions

/-! ## The receipt -/

theorem Db.Admits.congr {gatewayId : String} {prepared : List PreparedEvent}
    {ids ids' : List String} (h : db.Admits gatewayId prepared ids db')
    (hids : ∀ id, id ∈ ids ↔ id ∈ ids') : db.Admits gatewayId prepared ids' db' where
  kept := h.kept
  old_or_new e he := (h.old_or_new e he).imp_right fun ⟨hg, hid⟩ ↦ ⟨hg, (hids _).1 hid⟩
  stored p hp hid := h.stored p hp ((hids _).2 hid)
  fresh id hid := h.fresh id ((hids id).2 hid)

/-- The stored events that are not pending have the content of the batch. -/
theorem storedHash_of_existing {gatewayId : String} {prepared : List PreparedEvent}
    (hsame : ∀ p ∈ prepared, checkExisting db gatewayId p = .ok ()) {p : PreparedEvent}
    (hp : p ∈ prepared) (hnot : p ∉ db.pendingOf gatewayId prepared) :
    db.storedHash gatewayId p.event.eventId = some p.contentHash := by
  have hcheck := hsame p hp
  unfold checkExisting at hcheck
  split at hcheck
  · rename_i hnone
    exact absurd (List.mem_filter.2 ⟨hp, by rw [hnone]; rfl⟩) hnot
  · rename_i hash hhash
    split_ifs at hcheck with heq
    rw [hhash, not_not.1 heq]

theorem Db.Admits.storedHash_eq {gatewayId : String} {prepared : List PreparedEvent}
    {ids : List String} (h : db.Admits gatewayId prepared ids db')
    (hsame : ∀ p ∈ prepared, checkExisting db gatewayId p = .ok ()) {p : PreparedEvent}
    (hp : p ∈ prepared)
    (hreceived : p ∈ db.pendingOf gatewayId prepared → p.event.eventId ∈ ids) :
    db'.storedHash gatewayId p.event.eventId = some p.contentHash := by
  by_cases hpending : p ∈ db.pendingOf gatewayId prepared
  · exact h.stored p hp (hreceived hpending)
  · obtain ⟨e, he, hrest⟩ := storedHash_eq_some.1 (storedHash_of_existing hsame hp hpending)
    exact storedHash_eq_some.2 ⟨e, h.kept e he, hrest⟩

/-- What a batch that commits has done. -/
structure Receipt (identity : Identity) (events : List GatewayEvent) (db : Db)
    (acceptance : BatchAcceptance) (db' : Db) (prepared : List PreparedEvent) : Prop where
  prepared_eq : prepareBatch identity.gatewayId events = .ok prepared
  encodable : ∀ p ∈ prepared, LlmGateway.encodable p.event.eventId
  acceptance_eq : acceptance =
    { receivedEventIds := (db.pendingOf identity.gatewayId prepared).map (·.event.eventId)
      duplicateEventIds := (db.existingOf identity.gatewayId prepared).map (·.event.eventId) }
  admits : db.Admits identity.gatewayId prepared acceptance.receivedEventIds db'
  holds : ∀ event ∈ events, db'.Holds identity.gatewayId event

theorem Admission.received {staleAfterMs : Option ℕ} {identity : Identity} {traceId : String}
    {prepared : List PreparedEvent} {acceptance : BatchAcceptance}
    (admission : Admission staleAfterMs now identity traceId prepared db acceptance db')
    (hdistinct : ∀ p ∈ prepared, ∀ q ∈ prepared, p.event.eventId = q.event.eventId → p = q) :
    db.Admits identity.gatewayId prepared admission.progress.received admission.progress.db ∧
      ∀ p ∈ db.pendingOf identity.gatewayId prepared,
        p.event.eventId ∈ admission.progress.received := by
  have hstored := insertNonChatBatch_admits hdistinct
    (fun item hitem ↦ (List.mem_filter.1 hitem).1) admission.sequenced
  have hgrows {progress progress' : Progress} {item : PreparedEvent}
      (h : insertChat now identity traceId progress item = .ok progress') :
      progress.received ⊆ progress'.received ∧ progress.unresolved ⊆ progress'.unresolved := by
    obtain ⟨classification, -, hreceived, hunresolved⟩ := insertChat_eq_ok h
    rw [hreceived, hunresolved]
    constructor
    · split_ifs
      · exact List.subset_append_left _ _
      · exact List.Subset.refl _
    · split_ifs
      · exact List.subset_append_left _ _
      · exact List.Subset.refl _
  obtain ⟨⟨hadmits, hsub⟩, hchats⟩ := foldlM_forall
    (I := fun progress : Progress ↦
      db.Admits identity.gatewayId prepared progress.received progress.db ∧
        admission.inserted ⊆ progress.received)
    (Q := fun item progress ↦ item.event.eventId ∈ progress.received ∨
      item.event.eventId ∈ progress.unresolved)
    (fun progress item hitem progress' hI hstep ↦ by
      obtain ⟨hadmits, hresult⟩ := insertChat_admits hdistinct hI.1 (List.mem_filter.1 hitem).1 hstep
      exact ⟨⟨hadmits, List.Subset.trans hI.2 (hgrows hstep).1⟩, hresult⟩)
    (fun progress item _ progress' hstep other hother ↦
      hother.imp (fun h ↦ (hgrows hstep).1 h) fun h ↦ (hgrows hstep).2 h)
    ⟨hstored, List.Subset.refl _⟩ admission.chats
  refine ⟨hadmits, fun p hp ↦ ?_⟩
  by_cases hchat : p.event.isHostedChat = true
  · refine (hchats p (List.mem_filter.2 ⟨hp, hchat⟩)).resolve_right fun hunresolved ↦ ?_
    have haccepted := admission.accepted p hp
    simp only [rejectUnresolved, hunresolved, if_true] at haccepted
    cases haccepted
  · have hp' : p ∈ (db.pendingOf identity.gatewayId prepared).filter
        fun p ↦ !p.event.isHostedChat :=
      List.mem_filter.2 ⟨hp, by simpa using hchat⟩
    exact hsub (mem_of_resolved hstored hp (admission.resolved p hp'))

/-- A batch that commits has stored all its events, and reports each as received or as a
duplicate according to whether it was stored before. -/
theorem acceptEventBatch_receipt {staleAfterMs : Option ℕ} {identity : Identity}
    {traceId : String} {events : List GatewayEvent} {acceptance : BatchAcceptance}
    (h : acceptEventBatch staleAfterMs now identity traceId events db = .ok (acceptance, db')) :
    ∃ prepared, Receipt identity events db acceptance db' prepared := by
  obtain ⟨prepared, hprepared, h⟩ := bind_eq_ok_iff.1 h
  obtain ⟨admission⟩ := admission_of_ok h
  obtain ⟨hadmits, hreceived⟩ := admission.received fun p hp q hq ↦ prepared_eq_of_id hprepared hp hq
  have hacceptance : acceptance =
      { receivedEventIds := (db.pendingOf identity.gatewayId prepared).map (·.event.eventId)
        duplicateEventIds := (db.existingOf identity.gatewayId prepared).map (·.event.eventId) } := by
    rw [admission.acceptance_eq, List.filter_eq_self.2 fun p hp ↦ decide_eq_true (hreceived p hp),
      List.filter_eq_nil_iff.2 fun p hp ↦ by simp [hreceived p hp], List.map_nil, List.append_nil]
  have hids (id : String) : id ∈ admission.progress.received ↔
      id ∈ acceptance.receivedEventIds := by
    rw [congrArg BatchAcceptance.receivedEventIds hacceptance, List.mem_map]
    constructor
    · exact hadmits.fresh id
    · rintro ⟨p, hp, rfl⟩
      exact hreceived p hp
  have hadmits' : db.Admits identity.gatewayId prepared acceptance.receivedEventIds db' := by
    rw [admission.db_eq]
    exact (hadmits.congr hids).of_events_eq rfl
  refine ⟨prepared, hprepared, admission.encodable, hacceptance, hadmits', fun event hevent ↦ ?_⟩
  obtain ⟨p, hp, rfl⟩ := (mem_prepared_iff hprepared).2 hevent
  have hhash : p.contentHash = eventContentHash identity.gatewayId p.event :=
    prepareBatch_hashed hprepared p hp
  unfold Db.Holds
  rw [← hhash]
  exact hadmits'.storedHash_eq admission.same hp fun hpending ↦ (hids _).1 (hreceived p hpending)

end LlmGateway
