import LlmGateway.Effect.Receipt
import LlmGateway.System.Run
import LlmGateway.System.Scenario

/-!
# Admission of batches

Over any run, a batch is stored whole or not at all, its identifiers are received or
duplicates, an identifier is received once and has one row, and a batch that was acknowledged
is a duplicate ever after. A batch that clashes with stored content or with an occupied
position is never stored; it is reported as a conflict except where the insertion of another
of its events fails first.
-/

namespace LlmGateway

open Relational

variable {config : SystemConfig} {w : World} {db db' : Db}

/-! ## Clashes -/

/-- An identifier of the batch is stored with other content. -/
def Db.ContentTaken (db : Db) (gatewayId : String) (events : List GatewayEvent) : Prop :=
  ∃ event ∈ events, ∃ e ∈ db.events, e.gatewayId = gatewayId ∧ e.eventId = event.eventId ∧
    e.contentHash ≠ eventContentHash gatewayId event

/-- A position of the batch is occupied by another identifier, stored or in the batch. -/
def Db.PositionTaken (db : Db) (gatewayId : String) (events : List GatewayEvent) : Prop :=
  ∃ event ∈ events, ∃ position ∈ event.position?,
    (∃ e ∈ db.events, e.gatewayId = gatewayId ∧ e.sessionId = event.sessionId ∧
      e.controlGeneration = position.controlGeneration ∧
      e.eventSequence = position.eventSequence ∧ e.eventId ≠ event.eventId) ∨
    ∃ other ∈ events, other.sessionId = event.sessionId ∧ other.position? = some position ∧
      other.eventId ≠ event.eventId

/-- An event of the batch makes the transaction fail before the clash is found: a text without
canonical bytes, an identifier that is no text of the database, or a new sequenced event that
violates a constraint of its table, unless some identifier is stored with other content. -/
def Db.HidesClash (db : Db) (identity : Identity) (traceId : String)
    (events : List GatewayEvent) : Prop :=
  prepareBatch identity.gatewayId events = .error .unicodeEncodeError ∨
  ∃ prepared, prepareBatch identity.gatewayId events = .ok prepared ∧
    ((∃ p ∈ prepared, ¬encodable p.event.eventId) ∨
      (¬db.ContentTaken identity.gatewayId events ∧
        ∃ p ∈ db.pendingOf identity.gatewayId prepared, p.event.isHostedChat = false ∧
          ¬Db.Insertable identity traceId p))

/-- The check of the stored events finds exactly the identifiers with other content. -/
theorem checkExisting_ok_iff {gatewayId : String} {events : List GatewayEvent}
    {prepared : List PreparedEvent} (h : prepareBatch gatewayId events = .ok prepared) :
    (∀ p ∈ prepared, checkExisting db gatewayId p = .ok ()) ↔
      ¬db.ContentTaken gatewayId events := by
  have hcheck (p : PreparedEvent) (hp : p ∈ prepared) :
      checkExisting db gatewayId p = .ok () ↔ ∀ hash,
        db.storedHash gatewayId p.event.eventId = some hash →
          hash = eventContentHash gatewayId p.event := by
    have hhashed : p.contentHash = eventContentHash gatewayId p.event := prepareBatch_hashed h p hp
    rw [← hhashed]
    unfold checkExisting
    rcases db.storedHash gatewayId p.event.eventId with _ | hash
    · simp only [reduceCtorEq, false_implies, implies_true]
    · simp only [Option.some.injEq, forall_eq']
      split_ifs with hne
      · simp only [hne]
      · simp only [not_not.1 hne]
  constructor
  · rintro hok ⟨event, hevent, e, he, hg, hid, hne⟩
    obtain ⟨p, hp, rfl⟩ := (mem_prepared_iff h).2 hevent
    exact hne ((hcheck p hp).1 (hok p hp) _ (storedHash_eq_some.2 ⟨e, he, hg, hid, rfl⟩))
  · intro hnot p hp
    rw [hcheck p hp]
    intro hash hhash
    obtain ⟨e, he, hg, hid, rfl⟩ := storedHash_eq_some.1 hhash
    by_contra hne
    exact hnot ⟨p.event, (mem_prepared_iff h).1 ⟨p, hp, rfl⟩, e, he, hg, hid, hne⟩

/-- No position is occupied twice once all sequenced events of the batch are stored. -/
theorem not_positionTaken {gatewayId : String} {events : List GatewayEvent}
    (hI : db'.Integrity) (hkept : ∀ e ∈ db.events, e ∈ db'.events)
    (hholds : ∀ event ∈ events, event.isHostedChat = false → db'.Holds gatewayId event) :
    ¬db.PositionTaken gatewayId events := by
  have hrow {event : GatewayEvent} (hevent : event ∈ events) {position : Position}
      (hposition : event.position? = some position) : ∃ e ∈ db'.events,
        e.gatewayId = gatewayId ∧ e.eventId = event.eventId ∧ e.sessionId = event.sessionId ∧
        e.controlGeneration = position.controlGeneration ∧
        e.eventSequence = position.eventSequence := by
    obtain ⟨e, he, hg, hid, hbody⟩ :=
      (hholds event hevent (GatewayEvent.isHostedChat_of_position hposition)).exists_row hI
    have hsound := hI.event_sound e he
    rw [← hbody] at hposition
    obtain ⟨hgeneration, hsequence⟩ := hsound.position position hposition
    exact ⟨e, he, hg, hid, hbody ▸ hsound.sessionId, hgeneration, hsequence⟩
  rintro ⟨event, hevent, position, hposition, hother⟩
  obtain ⟨e, he, hg, hid, hs, hgeneration, hsequence⟩ := hrow hevent hposition
  have hclash {e' : EventRow} (he' : e' ∈ db'.events) (hg' : e'.gatewayId = gatewayId)
      (hs' : e'.sessionId = event.sessionId)
      (hgeneration' : e'.controlGeneration = position.controlGeneration)
      (hsequence' : e'.eventSequence = position.eventSequence) : e' = e :=
    Table.eq_of_clashes he' he (Or.inr (Or.inr ⟨hg'.trans hg.symm, hs'.trans hs.symm,
      hgeneration'.trans hgeneration.symm, hsequence'.trans hsequence.symm⟩))
  rcases hother with ⟨e', he', hg', hs', hgeneration', hsequence', hne⟩ |
      ⟨other, hother, hs', hposition', hne⟩
  · obtain rfl := hclash (hkept e' he') hg' hs' hgeneration' hsequence'
    exact hne hid
  · obtain ⟨e', he', hg', hid', hs'', hgeneration', hsequence'⟩ := hrow hother hposition'
    obtain rfl := hclash he' hg' (hs''.trans hs') hgeneration' hsequence'
    exact hne (hid'.symm.trans hid)

/-! ## Failures of the transaction -/

section Failures

variable {staleAfterMs : Option ℕ} {now : ℕ} {identity : Identity} {traceId : String}
  {events : List GatewayEvent} {prepared : List PreparedEvent} {error : AdmissionError}

theorem error_of_prepareBatch {gatewayId : String}
    (h : prepareBatch gatewayId events = .error error) :
    error = .unicodeEncodeError ∨ ∃ id, error = .conflict id := by
  obtain ⟨s, event, -, hstep⟩ := exists_of_foldlM_eq_error h
  unfold prepareEvent at hstep
  simp only at hstep
  split at hstep
  · cases hstep
    exact Or.inl rfl
  split at hstep
  · split_ifs at hstep
    cases hstep
    exact Or.inr ⟨_, rfl⟩
  · cases hstep

theorem conflict_of_checkExisting {gatewayId : String} {p : PreparedEvent}
    (h : checkExisting db gatewayId p = .error error) : ∃ id, error = .conflict id := by
  unfold checkExisting at h
  split at h
  · cases h
  · split_ifs at h
    cases h
    exact ⟨_, rfl⟩

theorem conflict_of_resolveNonChat {gatewayId : String} {inserted : List String}
    {p : PreparedEvent} (h : db.resolveNonChat gatewayId inserted p = .error error) :
    ∃ id, error = .conflict id := by
  unfold Db.resolveNonChat at h
  split_ifs at h
  cases h
  exact ⟨_, rfl⟩

theorem conflict_of_rejectUnresolved {unresolved : List String} {p : PreparedEvent}
    (h : rejectUnresolved unresolved p = .error error) : ∃ id, error = .conflict id := by
  unfold rejectUnresolved at h
  split_ifs at h
  cases h
  exact ⟨_, rfl⟩

/-- Where nothing hides a clash, a batch that fails is a conflict, or all its sequenced events
are inserted and a chat event fails. -/
theorem error_of_admitPrepared
    (hprepared : prepareBatch identity.gatewayId events = .ok prepared)
    (hhidden : ¬db.HidesClash identity traceId events)
    (h : admitPrepared staleAfterMs now identity traceId prepared db = .error error) :
    (∃ id, error = .conflict id) ∨ ¬db.ContentTaken identity.gatewayId events ∧
      ∃ inserted stored, db.insertNonChatBatch now identity traceId
          ((db.pendingOf identity.gatewayId prepared).filter fun p ↦ !p.event.isHostedChat) =
            .ok (inserted, stored) ∧
        (∀ p ∈ (db.pendingOf identity.gatewayId prepared).filter fun p ↦ !p.event.isHostedChat,
          stored.resolveNonChat identity.gatewayId inserted p = .ok ()) ∧
        ((db.pendingOf identity.gatewayId prepared).filter (·.event.isHostedChat)).foldlM
          (insertChat now identity traceId) ⟨inserted, [], stored⟩ = .error error := by
  simp only [Db.HidesClash, not_exists, not_and, not_or] at hhidden
  obtain ⟨hencodable, hinsertable⟩ := hhidden.2 prepared hprepared
  have hgood : ¬∃ p ∈ prepared, ¬encodable p.event.eventId := fun ⟨p, hp, hbad⟩ ↦ hencodable p hp hbad
  unfold admitPrepared at h
  simp only at h
  rw [if_neg hgood] at h
  rcases bind_eq_error_iff.1 h with h | ⟨⟨⟩, hsame, h⟩
  · obtain ⟨p, -, hp⟩ := exists_of_forM_eq_error h
    exact Or.inl (conflict_of_checkExisting hp)
  have hcontent := (checkExisting_ok_iff hprepared).1 (forM_eq_ok_iff.1 hsame)
  rcases bind_eq_error_iff.1 h with h | ⟨⟨inserted, stored⟩, hsequenced, h⟩
  · unfold Db.insertNonChatBatch at h
    split_ifs at h with hbad
    obtain ⟨p, hp, hnot⟩ := hbad
    obtain ⟨hpending, hchat⟩ := List.mem_filter.1 hp
    exact absurd hnot (hinsertable hcontent p hpending (by simpa using hchat))
  rcases bind_eq_error_iff.1 h with h | ⟨⟨⟩, hresolved, h⟩
  · obtain ⟨p, -, hp⟩ := exists_of_forM_eq_error h
    exact Or.inl (conflict_of_resolveNonChat hp)
  rcases bind_eq_error_iff.1 h with h | ⟨progress, -, h⟩
  · exact Or.inr ⟨hcontent, inserted, stored, hsequenced, forM_eq_ok_iff.1 hresolved, h⟩
  rcases bind_eq_error_iff.1 h with h | ⟨⟨⟩, -, h⟩
  · obtain ⟨p, -, hp⟩ := exists_of_forM_eq_error h
    exact Or.inl (conflict_of_rejectUnresolved hp)
  · cases h

/-- No position is taken once all sequenced events of the batch are inserted. -/
theorem not_positionTaken_of_resolved (config : WorkerConfig) (hI : db.Integrity)
    (hprepared : prepareBatch identity.gatewayId events = .ok prepared)
    (hcontent : ¬db.ContentTaken identity.gatewayId events) {inserted : List String} {stored : Db}
    (hsequenced : db.insertNonChatBatch now identity traceId
      ((db.pendingOf identity.gatewayId prepared).filter fun p ↦ !p.event.isHostedChat) =
        .ok (inserted, stored))
    (hresolved : ∀ p ∈ (db.pendingOf identity.gatewayId prepared).filter
      fun p ↦ !p.event.isHostedChat, stored.resolveNonChat identity.gatewayId inserted p = .ok ()) :
    ¬db.PositionTaken identity.gatewayId events := by
  have hsame : ∀ p ∈ prepared, checkExisting db identity.gatewayId p = .ok () :=
    (checkExisting_ok_iff hprepared).2 hcontent
  have hdistinct : ∀ p ∈ prepared, ∀ q ∈ prepared, p.event.eventId = q.event.eventId → p = q :=
    fun p hp q hq ↦ prepared_eq_of_id hprepared hp hq
  have hadmits := insertNonChatBatch_admits hdistinct
    (fun item hitem ↦ (List.mem_filter.1 hitem).1) hsequenced
  have heffects : Effects config now (fun _ ↦ True) db stored :=
    insertNonChatBatch_effects trivial
      (fun p hp ↦ prepareBatch_hashed hprepared p (List.mem_filter.1 (List.mem_filter.1 hp).1).1)
      hsequenced
  have hholds : ∀ event ∈ events, event.isHostedChat = false →
      stored.Holds identity.gatewayId event := by
    intro event hevent hchat
    obtain ⟨p, hp, rfl⟩ := (mem_prepared_iff hprepared).2 hevent
    have hhash : p.contentHash = eventContentHash identity.gatewayId p.event :=
      prepareBatch_hashed hprepared p hp
    unfold Db.Holds
    rw [← hhash]
    refine hadmits.storedHash_eq hsame hp fun hpending ↦ ?_
    refine mem_of_resolved hadmits hpending (hresolved p ?_)
    exact List.mem_filter.2 ⟨hpending, by simpa using hchat⟩
  exact not_positionTaken (heffects.integrity hI) hadmits.kept hholds

/-- A batch that fails although nothing hides a clash is a conflict, or has no clash. -/
theorem conflict_of_admitPrepared (config : WorkerConfig) (hI : db.Integrity)
    (hprepared : prepareBatch identity.gatewayId events = .ok prepared)
    (hclash : db.ContentTaken identity.gatewayId events ∨
      db.PositionTaken identity.gatewayId events)
    (hhidden : ¬db.HidesClash identity traceId events)
    (h : admitPrepared staleAfterMs now identity traceId prepared db = .error error) :
    ∃ id, error = .conflict id := by
  cases error_of_admitPrepared hprepared hhidden h with
  | inl hconflict => exact hconflict
  | inr hchats =>
    obtain ⟨hcontent, inserted, stored, hsequenced, hresolved, -⟩ := hchats
    have hfree := not_positionTaken_of_resolved config hI hprepared hcontent hsequenced hresolved
    exact absurd (hclash.resolve_left hcontent) hfree

/-- The digest of a text without canonical bytes fails the admission. -/
theorem acceptEventBatch_of_prepareBatch
    (h : prepareBatch identity.gatewayId events = .error error) :
    acceptEventBatch staleAfterMs now identity traceId events db = .error error :=
  bind_eq_error_iff.2 (Or.inl h)

/-- An identifier that is no text of the database, or a sequenced event that the insertion
refuses, makes the admission unavailable. -/
theorem unavailable_of_hidden (hprepared : prepareBatch identity.gatewayId events = .ok prepared)
    (hhidden : (∃ p ∈ prepared, ¬encodable p.event.eventId) ∨
      (¬db.ContentTaken identity.gatewayId events ∧
        ∃ p ∈ db.pendingOf identity.gatewayId prepared, p.event.isHostedChat = false ∧
          ¬Db.Insertable identity traceId p)) :
    acceptEventBatch staleAfterMs now identity traceId events db = .error .unavailable := by
  refine bind_eq_error_iff.2 (Or.inr ⟨prepared, hprepared, ?_⟩)
  unfold admitPrepared
  simp only
  by_cases hbad : ∃ p ∈ prepared, ¬encodable p.event.eventId
  · rw [if_pos hbad]
    rfl
  · rw [if_neg hbad]
    obtain ⟨hcontent, p, hp, hchat, hnot⟩ := hhidden.resolve_left hbad
    have hsame := forM_eq_ok_iff.2 ((checkExisting_ok_iff hprepared).2 hcontent)
    refine bind_eq_error_iff.2 (Or.inr ⟨(), hsame, bind_eq_error_iff.2 (Or.inl ?_)⟩)
    unfold Db.insertNonChatBatch
    exact if_pos ⟨p, List.mem_filter.2 ⟨hp, by simp [hchat]⟩, hnot⟩

/-- A batch with a clash is a conflict, except where something hides the clash. -/
theorem conflict_iff (config : WorkerConfig) (hI : db.Integrity)
    (hclash : db.ContentTaken identity.gatewayId events ∨
      db.PositionTaken identity.gatewayId events) :
    (∃ id, acceptEventBatch staleAfterMs now identity traceId events db =
      .error (.conflict id)) ↔ ¬db.HidesClash identity traceId events := by
  constructor
  · intro hconflict hhidden
    obtain ⟨id, hconflict⟩ := hconflict
    rcases hhidden with hencode | ⟨prepared, hprepared, hhidden⟩
    · rw [acceptEventBatch_of_prepareBatch hencode] at hconflict
      cases hconflict
    · rw [unavailable_of_hidden hprepared hhidden] at hconflict
      cases hconflict
  intro hhidden
  rcases hresult : acceptEventBatch staleAfterMs now identity traceId events db with
    error | ⟨acceptance, db'⟩
  · rcases bind_eq_error_iff.1 hresult with h | ⟨prepared, hprepared, h⟩
    · rcases error_of_prepareBatch h with rfl | ⟨id, rfl⟩
      · exact absurd (Or.inl h) hhidden
      · exact ⟨id, rfl⟩
    · obtain ⟨id, rfl⟩ := conflict_of_admitPrepared config hI hprepared hclash hhidden h
      exact ⟨id, rfl⟩
  · obtain ⟨prepared, hreceipt⟩ := acceptEventBatch_receipt hresult
    have heffects : Effects config now (fun _ ↦ True) db db' :=
      acceptEventBatch_effects trivial hI hresult
    rcases hclash with ⟨event, hevent, e, he, hg, hid, hne⟩ | hposition
    · obtain ⟨e', he', hg', hid', hhash⟩ := storedHash_eq_some.1 (hreceipt.holds event hevent)
      obtain rfl : e = e' := Table.eq_of_clashes (hreceipt.admits.kept e he) he'
        (Or.inr (Or.inl ⟨hg.trans hg'.symm, hid.trans hid'.symm⟩))
      exact absurd hhash hne
    · exact absurd hposition (not_positionTaken (heffects.integrity hI) hreceipt.admits.kept
        fun event hevent _ ↦ hreceipt.holds event hevent)

/-- A batch whose events are all stored is accepted, and all its identifiers are duplicates. -/
theorem acceptEventBatch_of_holds
    (hprepared : prepareBatch identity.gatewayId events = .ok prepared)
    (hencodable : ∀ p ∈ prepared, encodable p.event.eventId)
    (hholds : ∀ event ∈ events, db.Holds identity.gatewayId event) :
    ∃ db', acceptEventBatch staleAfterMs now identity traceId events db =
      .ok (⟨[], firstSeen (eventIds events)⟩, db') := by
  have hstored (p : PreparedEvent) (hp : p ∈ prepared) :
      (db.storedHash identity.gatewayId p.event.eventId).isSome = true := by
    rw [hholds p.event ((mem_prepared_iff hprepared).1 ⟨p, hp, rfl⟩)]
    rfl
  have hsame : ¬db.ContentTaken identity.gatewayId events := by
    rintro ⟨event, hevent, e, he, hg, hid, hne⟩
    obtain ⟨e', he', hg', hid', hhash⟩ := storedHash_eq_some.1 (hholds event hevent)
    obtain rfl : e = e' := Table.eq_of_clashes he he'
      (Or.inr (Or.inl ⟨hg.trans hg'.symm, hid.trans hid'.symm⟩))
    exact hne hhash
  have hexisting : (prepared.filter fun p ↦
      (db.storedHash identity.gatewayId p.event.eventId).isSome) = prepared :=
    List.filter_eq_self.2 hstored
  have hpending : (prepared.filter fun p ↦
      (db.storedHash identity.gatewayId p.event.eventId).isNone) = [] :=
    List.filter_eq_nil_iff.2 fun p hp ↦ by
      rw [Option.isNone_eq_false_iff.2 (hstored p hp)]
      exact Bool.false_ne_true
  have hgood : ¬∃ p ∈ prepared, ¬encodable p.event.eventId := fun ⟨p, hp, hbad⟩ ↦
    hbad (hencodable p hp)
  have hinsert : db.insertNonChatBatch now identity traceId [] = .ok ([], db) := by
    simp [Db.insertNonChatBatch]
  refine ⟨db.refreshSessionLiveness now identity.gatewayId (liveSessionIds staleAfterMs now prepared),
    bind_eq_ok_iff.2 ⟨prepared, hprepared, ?_⟩⟩
  unfold admitPrepared
  simp only
  rw [if_neg hgood, hexisting, hpending]
  refine bind_eq_ok_iff.2 ⟨(), forM_eq_ok_iff.2 ((checkExisting_ok_iff hprepared).2 hsame), ?_⟩
  refine bind_eq_ok_iff.2 ⟨([], db), hinsert, ?_⟩
  simp only [List.filter_nil, List.map_nil, List.append_nil, ← prepareBatch_ids hprepared]
  rfl

end Failures

/-! ## Acknowledgements over a run -/

/-- The batch was acknowledged with the identifier as received. -/
def Acknowledgement.Received (a : Acknowledgement) (gatewayId eventId : String) : Prop :=
  a.identity.gatewayId = gatewayId ∧ eventId ∈ a.acceptance.receivedEventIds

instance (a : Acknowledgement) (gatewayId eventId : String) :
    Decidable (a.Received gatewayId eventId) := inferInstanceAs (Decidable (_ ∧ _))

/-- An acknowledged batch is stored whole, and its distinct identifiers are received or
duplicates, each in the order in which they are first seen. -/
structure Acknowledgement.Kept (a : Acknowledgement) (db : Db) : Prop where
  received_order : a.acceptance.receivedEventIds.Sublist (firstSeen (eventIds a.events))
  duplicate_order : a.acceptance.duplicateEventIds.Sublist (firstSeen (eventIds a.events))
  exactly_one : ∀ id ∈ eventIds a.events,
    (id ∈ a.acceptance.receivedEventIds ↔ id ∉ a.acceptance.duplicateEventIds)
  stored : ∀ event ∈ a.events, db.Holds a.identity.gatewayId event
  repeatable : ∃ prepared, prepareBatch a.identity.gatewayId a.events = .ok prepared ∧
    ∀ p ∈ prepared, encodable p.event.eventId

theorem Db.Holds.later {gatewayId : String} {event : GatewayEvent}
    (h : db.Holds gatewayId event) (hlater : db.Later db') : db'.Holds gatewayId event := by
  obtain ⟨e, he, hg, hid, hhash⟩ := storedHash_eq_some.1 h
  obtain ⟨e', he', hlater⟩ := hlater.events e he
  refine storedHash_eq_some.2 ⟨e', he', ?_, ?_, ?_⟩
  · rw [hlater.key_eq, hg]
  · rw [hlater.key_eq, hid]
  · rw [hlater.key_eq, hhash]

theorem Acknowledgement.Kept.later {a : Acknowledgement} (h : a.Kept db)
    (hlater : db.Later db') : a.Kept db' :=
  { h with stored := fun event hevent ↦ (h.stored event hevent).later hlater }

/-- An identifier that was received is stored. -/
theorem Acknowledgement.Kept.isSome {a : Acknowledgement} (h : a.Kept db) {gatewayId eventId : String}
    (hreceived : a.Received gatewayId eventId) : (db.storedHash gatewayId eventId).isSome = true := by
  obtain ⟨rfl, hid⟩ := hreceived
  obtain ⟨event, hevent, rfl⟩ := List.mem_map.1 (mem_firstSeen.1 (h.received_order.subset hid))
  rw [h.stored event hevent]
  rfl

theorem Receipt.kept {identity : Identity} {traceId : String} {events : List GatewayEvent}
    {acceptance : BatchAcceptance} {prepared : List PreparedEvent}
    (h : Receipt identity events db acceptance db' prepared) :
    Acknowledgement.Kept ⟨identity, traceId, events, acceptance⟩ db' where
  received_order := by
    rw [h.acceptance_eq, ← prepareBatch_ids h.prepared_eq]
    exact List.filter_sublist.map _
  duplicate_order := by
    rw [h.acceptance_eq, ← prepareBatch_ids h.prepared_eq]
    exact List.filter_sublist.map _
  exactly_one id hid := by
    obtain ⟨event, hevent, rfl⟩ := List.mem_map.1 hid
    obtain ⟨p, hp, rfl⟩ := (mem_prepared_iff h.prepared_eq).2 hevent
    have hsame {q : PreparedEvent} (hq : q ∈ prepared)
        (hqid : q.event.eventId = p.event.eventId) : q = p :=
      prepared_eq_of_id h.prepared_eq hq hp hqid
    rw [h.acceptance_eq]
    simp only [List.mem_map, Db.pendingOf, Db.existingOf, List.mem_filter]
    constructor
    · rintro ⟨q, ⟨hq, hnone⟩, hqid⟩ ⟨r, ⟨hr, hsome⟩, hrid⟩
      rw [hsame hq hqid] at hnone
      rw [hsame hr hrid] at hsome
      simp [Option.isNone_iff_eq_none.1 hnone] at hsome
    · intro hnot
      refine ⟨p, ⟨hp, ?_⟩, rfl⟩
      by_contra hsome
      exact hnot ⟨p, ⟨hp, by simpa [Option.isSome_iff_ne_none] using hsome⟩, rfl⟩
  stored := h.holds
  repeatable := ⟨prepared, h.prepared_eq, h.encodable⟩

namespace World

/-- The acknowledgements agree with what is stored. -/
structure Receipts (w : World) : Prop where
  kept : ∀ a ∈ w.acknowledged, a.Kept w.db
  once : ∀ e ∈ w.db.events, w.acknowledged.countP (·.Received e.gatewayId e.eventId) = 1

theorem exec_acceptBatch_error {identity : Identity} {traceId : String}
    {events : List GatewayEvent} {error : AdmissionError}
    (h : acceptEventBatch config.admissionStaleAfterMs w.now identity traceId events w.db =
      .error error) : w.exec config (.acceptBatch identity traceId events) = w := by
  simp only [exec, acceptBatch, h]

theorem exec_acceptBatch_ok {identity : Identity} {traceId : String}
    {events : List GatewayEvent} {acceptance : BatchAcceptance} {db' : Db}
    (h : acceptEventBatch config.admissionStaleAfterMs w.now identity traceId events w.db =
      .ok (acceptance, db')) :
    w.exec config (.acceptBatch identity traceId events) =
      { w with
        db := db'
        acknowledged := w.acknowledged ++ [⟨identity, traceId, events, acceptance⟩] } := by
  simp only [exec, acceptBatch, h]

theorem Receipts.acceptBatch (hw : w.Sound config) (h : w.Receipts) (identity : Identity)
    (traceId : String) (events : List GatewayEvent) :
    (w.exec config (.acceptBatch identity traceId events)).Receipts := by
  rcases hresult : acceptEventBatch config.admissionStaleAfterMs w.now identity traceId events
    w.db with error | ⟨acceptance, db'⟩
  · rw [exec_acceptBatch_error hresult]
    exact h
  obtain ⟨prepared, hreceipt⟩ := acceptEventBatch_receipt hresult
  have hlater : w.db.Later db' := by
    have heffects : Effects config.events w.now (fun _ ↦ True) w.db db' :=
      acceptEventBatch_effects trivial hw.integrity hresult
    exact heffects.later
  have hfresh {id : String} (hid : id ∈ acceptance.receivedEventIds) :
      w.db.storedHash identity.gatewayId id = none := by
    obtain ⟨p, hp, rfl⟩ := hreceipt.admits.fresh id hid
    exact Option.isNone_iff_eq_none.1 (List.mem_filter.1 hp).2
  rw [exec_acceptBatch_ok hresult]
  refine ⟨?_, fun e he ↦ ?_⟩
  · exact List.forall_mem_append.2 ⟨fun a ha ↦ (h.kept a ha).later hlater,
      List.forall_mem_singleton.2 hreceipt.kept⟩
  rw [List.countP_append, List.countP_singleton]
  rcases hreceipt.admits.old_or_new e he with hold | ⟨hg, hid⟩
  · rw [h.once e hold, if_neg]
    rw [decide_eq_true_eq]
    rintro ⟨hg, hid⟩
    exact storedHash_eq_none.1 (hfresh hid) e hold hg.symm rfl
  · have hnever : w.acknowledged.countP (·.Received e.gatewayId e.eventId) = 0 := by
      rw [List.countP_eq_zero]
      intro a ha hreceived
      have hsome := (h.kept a ha).isSome (of_decide_eq_true hreceived)
      rw [hg, hfresh hid] at hsome
      exact Bool.false_ne_true hsome
    rw [hnever, if_pos (decide_eq_true ⟨hg.symm, hid⟩)]

theorem exec_receipts {a : Action} (hw : w.Sound config) (h : w.Receipts) :
    (w.exec config a).Receipts := by
  by_cases haccept : ∃ identity traceId events, a = .acceptBatch identity traceId events
  · obtain ⟨identity, traceId, events, rfl⟩ := haccept
    exact h.acceptBatch hw identity traceId events
  have heffects := exec_effects (P := w.Takes config a) hw fun _ hb ↦ hb
  have hbatch : ¬w.Takes config a .admission := by
    intro hb
    cases hb
    exact haccept ⟨_, _, _, rfl⟩
  have hlog : (w.exec config a).acknowledged = w.acknowledged :=
    exec_acknowledged fun identity traceId events h ↦ haccept ⟨identity, traceId, events, h⟩
  refine ⟨?_, fun e' he' ↦ ?_⟩
  · rw [hlog]
    exact fun b hb ↦ (h.kept b hb).later heffects.later
  · obtain ⟨e, he, hkey, -⟩ := heffects.events_back hbatch e' he'
    rw [hlog, ← hkey]
    exact h.once e he

theorem Reachable.receipts (h : w.Reachable config) : w.Receipts := by
  obtain ⟨entropy, actions, rfl⟩ := h
  have hinit : (initial entropy).Receipts :=
    ⟨fun _ ha ↦ absurd ha List.not_mem_nil, fun _ he ↦ absurd he (Table.not_mem_empty _)⟩
  exact (invariant_run (I := fun v : World ↦ v.Sound config ∧ v.Receipts)
    (fun _ _ hv ↦ ⟨exec_sound hv.1, exec_receipts hv.1 hv.2⟩)
    ⟨initial_sound entropy, hinit⟩ actions).2

/-- What admission guarantees in a state. -/
structure Admitting (config : SystemConfig) (w : World) : Prop where
  kept : ∀ a ∈ w.acknowledged, a.Kept w.db
  received_once : ∀ e ∈ w.db.events,
    w.acknowledged.countP (·.Received e.gatewayId e.eventId) = 1
  one_row : ∀ a ∈ w.acknowledged, ∀ id ∈ a.acceptance.receivedEventIds,
    ∃! e, e ∈ w.db.events ∧ e.gatewayId = a.identity.gatewayId ∧ e.eventId = id
  resubmitted : ∀ a ∈ w.acknowledged, ∀ traceId, ∃ db',
    acceptEventBatch config.admissionStaleAfterMs w.now a.identity traceId a.events w.db =
      .ok (⟨[], firstSeen (eventIds a.events)⟩, db')
  failed : ∀ identity traceId events error,
    acceptEventBatch config.admissionStaleAfterMs w.now identity traceId events w.db =
      .error error → w.exec config (.acceptBatch identity traceId events) = w
  conflict : ∀ identity traceId events,
    w.db.ContentTaken identity.gatewayId events ∨ w.db.PositionTaken identity.gatewayId events →
      ((∃ id, acceptEventBatch config.admissionStaleAfterMs w.now identity traceId events w.db =
        .error (.conflict id)) ↔ ¬w.db.HidesClash identity traceId events)

section Runs

open Scenario

/-- The position of the session start is claimed by an observation. -/
def clashingObservation : GatewayEvent :=
  observation "e2" 1 1 "L2" 2

/-- A batch with a repeated event and a chat message, resubmitted after its first claim. -/
def resubmission : List Action :=
  [submit [sessionStarted "e1" 1 "L1" 1, chat "c1",
    sessionStarted "e1" 1 "L1" 1], claim, submit [chat "c1", chat "c2"]]

end Runs

end World

end LlmGateway
