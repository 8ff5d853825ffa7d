import LlmGateway.Effect.ChatSequence
import LlmGateway.System.Run
import LlmGateway.System.Scenario

/-!
# Storage sequences of chat events over a run

In every reachable state the chat events of a cycle have increasing sequences in the range
that is kept for them, apart from the sequences of all other events of the cycle. The
sequence of the next one is bounded by `bigint`: a chat event is admitted exactly while no
event of its cycle has the largest sequence, which a sequenced event may bring along.
-/

namespace LlmGateway

open Relational

variable {config : SystemConfig} {w : World} {now : ℕ} {db db' : Db}

/-! ## The order of the stored events -/

/-- A chat event comes after the events of its cycle that were stored before it. -/
def EventKey.Precedes (k k' : EventKey) : Prop :=
  k'.eventType.isHostedChat = true → k.cycleId = k'.cycleId → k.eventSequence < k'.eventSequence

/-- The stored events in the order of their insertion. -/
def Db.eventKeys (db : Db) : List EventKey := db.events.rows.map (·.toEventKey)

structure Db.ChatsOrdered (db : Db) : Prop where
  increasing : db.eventKeys.Pairwise EventKey.Precedes
  bounded : ∀ k ∈ db.eventKeys, k.eventSequence ≤ bigintMax

theorem mem_eventKeys {k : EventKey} : k ∈ db.eventKeys ↔ ∃ e ∈ db.events, e.toEventKey = k :=
  List.mem_map

/-- Without an admission the events stay the same, in the same order. -/
theorem Effect.eventKeys_eq {config : WorkerConfig} {P : Branch → Prop}
    (h : Effect config now P db db') (hP : ¬P .admission) : db'.eventKeys = db.eventKeys := by
  have hupdate (w : EventRow → Prop) [DecidablePred w] (a : Assignment EventRow) :
      ((db.events.update w a).rows.map fun e ↦ e.toEventKey) =
        db.events.rows.map fun e ↦ e.toEventKey := Table.map_key_update db.events w a
  unfold Db.eventKeys
  cases h with
  | outbox hstep => rw [hstep.events_eq]
  | insertEvent _ _ _ _ _ htaken => exact absurd htaken hP
  | activatePending => rw [activatePending_events]
  | claim => exact hupdate _ _
  | settle w a => exact hupdate w a
  | supersede => exact hupdate _ _
  | wait => exact hupdate _ _
  | _ => rfl

theorem Effects.eventKeys_eq {config : WorkerConfig} {P : Branch → Prop}
    (h : Effects config now P db db') (hP : ¬P .admission) : db'.eventKeys = db.eventKeys :=
  invariant_chain (I := fun d : Db ↦ d.eventKeys = db.eventKeys)
    (fun _ _ heff hd ↦ (heff.eventKeys_eq hP).trans hd) h rfl

/-! ## Admissions -/

section Admission

variable {identity : Identity} {traceId : String} {item : PreparedEvent}

/-- The insertion of an event that comes after the stored events of its cycle. -/
theorem Db.ChatsOrdered.insertEvent (h : db.ChatsOrdered) {cycleId : Uuid}
    {generation sequence : ℕ}
    (hinsert : db.insertEvent now identity traceId item cycleId generation sequence = some db')
    (hlater : item.event.isHostedChat = true → ∀ e ∈ db.events, e.cycleId = cycleId →
      e.eventSequence < sequence)
    (hbound : sequence ≤ bigintMax) : db'.ChatsOrdered := by
  obtain ⟨events, hevents, rfl⟩ := Option.map_eq_some_iff.1 hinsert
  have hkeys : ({ db.bumpUuid with events := events } : Db).eventKeys = db.eventKeys ++
      [(db.newEventRow now identity traceId item cycleId generation sequence).toEventKey] := by
    simp only [Db.eventKeys, (Table.insert?_eq_some_iff.1 hevents).2, List.map_append,
      List.map_singleton]
  constructor
  · rw [hkeys]
    refine List.pairwise_append.2 ⟨h.increasing, List.pairwise_singleton _ _, ?_⟩
    intro k hk k' hk' hchat hcycle
    obtain rfl := List.mem_singleton.1 hk'
    obtain ⟨e, he, rfl⟩ := mem_eventKeys.1 hk
    exact hlater hchat e he hcycle
  · rw [hkeys]
    exact List.forall_mem_append.2 ⟨h.bounded, List.forall_mem_singleton.2 hbound⟩

theorem Db.ChatsOrdered.of_eventKeys_eq (h : db.ChatsOrdered)
    (hkeys : db'.eventKeys = db.eventKeys) : db'.ChatsOrdered where
  increasing := by
    rw [hkeys]
    exact h.increasing
  bounded := by
    rw [hkeys]
    exact h.bounded

theorem Db.ChatsOrdered.of_events_eq (h : db.ChatsOrdered) (hevents : db'.events = db.events) :
    db'.ChatsOrdered := by
  apply h.of_eventKeys_eq
  unfold Db.eventKeys
  rw [hevents]

theorem insertSequenced_chatsOrdered {items : List PreparedEvent}
    (hchat : ∀ item ∈ items, item.event.isHostedChat = false)
    (hinsertable : ∀ item ∈ items, Db.Insertable identity traceId item) (ids : List String)
    (h : db.ChatsOrdered) :
    (items.foldl (Db.insertSequenced now identity traceId) (ids, db)).2.ChatsOrdered := by
  refine List.foldlRecOn (motive := fun state : List String × Db ↦ state.2.ChatsOrdered) items _ h
    fun state hstate item hitem ↦ ?_
  unfold Db.insertSequenced
  split
  · exact hstate
  · rename_i position hposition
    split
    · exact hstate
    · split
      · exact hstate
      · rename_i hinsert
        apply hstate.insertEvent hinsert
        · intro htrue
          rw [hchat item hitem] at htrue
          exact absurd htrue Bool.false_ne_true
        · exact (hinsertable item hitem position hposition).1.2.1

theorem insertNonChatBatch_chatsOrdered {items : List PreparedEvent} {inserted : List String}
    (hchat : ∀ item ∈ items, item.event.isHostedChat = false)
    (hinsert : db.insertNonChatBatch now identity traceId items = .ok (inserted, db'))
    (h : db.ChatsOrdered) : db'.ChatsOrdered := by
  unfold Db.insertNonChatBatch at hinsert
  split_ifs at hinsert with hbad
  push Not at hbad
  have heq : _ = db' := congrArg Prod.snd (Except.ok.inj hinsert)
  rw [← heq]
  apply insertSequenced_chatsOrdered hchat hbad
  apply h.of_events_eq
  exact openBatch_events now identity db items

/-- A chat event is stored after all events of its cycle. -/
theorem insertOne_chatsOrdered (hI : db.Integrity) {classification : Classification}
    (hone : db.insertOne now identity traceId item = .ok (classification, db'))
    (h : db.ChatsOrdered) : db'.ChatsOrdered := by
  have hevents : (db.ensureHostedChatCycle now identity item.event.sessionId).events =
      db.events := ensureHostedChatCycle_events db identity item.event.sessionId
  have hready := h.of_events_eq hevents
  rcases insertOne_cases hone with ⟨-, rfl | rfl⟩ | ⟨-, cycle, sequence, hcycle, hsequence, hinsert⟩
  · exact h
  · exact hready
  · have hallocated := (allocated_eq hI hcycle).symm.trans hsequence
    split_ifs at hallocated with hfits
    cases hallocated
    apply hready.insertEvent hinsert
    · intro _ e he hid
      have hpartition := (cycle_eq_iff_chatPartition
        (ensureHostedChatCycle_integrity now hI identity _) hcycle e he).1 hid
      have hlt := lt_chatDue he hpartition
      rwa [ensureHostedChatCycle_chatDue hI] at hlt
    · exact not_lt.1 hfits

theorem acceptEventBatch_chatsOrdered {staleAfterMs : Option ℕ} {events : List GatewayEvent}
    {acceptance : BatchAcceptance} (config : WorkerConfig) (hI : db.Integrity)
    (haccept : acceptEventBatch staleAfterMs now identity traceId events db =
      .ok (acceptance, db')) (h : db.ChatsOrdered) : db'.ChatsOrdered := by
  obtain ⟨prepared, hprepared, haccept⟩ := bind_eq_ok_iff.1 haccept
  obtain ⟨admission⟩ := admission_of_ok haccept
  have hhashed := prepareBatch_hashed hprepared
  have hpending {p : PreparedEvent} (hp : p ∈ db.pendingOf identity.gatewayId prepared) :
      p.Hashed identity.gatewayId := hhashed p (List.mem_filter.1 hp).1
  have hsequenced : Effects config now (fun _ ↦ True) db admission.stored :=
    insertNonChatBatch_effects trivial (fun p hp ↦ hpending (List.mem_filter.1 hp).1)
      admission.sequenced
  have hstored : admission.stored.ChatsOrdered :=
    insertNonChatBatch_chatsOrdered (fun p hp ↦ by simpa using (List.mem_filter.1 hp).2)
      admission.sequenced h
  have hchats := foldlM_invariant
    (I := fun progress : Progress ↦ Effects config now (fun _ ↦ True) db progress.db ∧
      progress.db.ChatsOrdered)
    (fun progress item hitem progress' hprogress hstep ↦ by
      obtain ⟨classification, hone, -⟩ := insertChat_eq_ok hstep
      obtain ⟨hitem, hchat⟩ := List.mem_filter.1 hitem
      have hI' := hprogress.1.integrity hI
      exact ⟨hprogress.1.trans (insertOne_effects trivial hI' (hpending hitem) hchat hone),
        insertOne_chatsOrdered hI' hone hprogress.2⟩)
    ⟨hsequenced, hstored⟩ admission.chats
  rw [admission.db_eq]
  exact hchats.2.of_events_eq rfl

end Admission

/-! ## A single chat event -/

section Single

variable {staleAfterMs : Option ℕ} {identity : Identity} {traceId : String} {event : GatewayEvent}

/-- A batch of one new chat event is its insertion. -/
theorem admitPrepared_chat {p : PreparedEvent} (hid : encodable p.event.eventId)
    (hchat : p.event.isHostedChat = true)
    (hnew : db.storedHash identity.gatewayId p.event.eventId = none) :
    admitPrepared staleAfterMs now identity traceId [p] db =
      (db.insertOne now identity traceId p >>= fun result ↦
        match result.1 with
        | .received => .ok (⟨[p.event.eventId], []⟩, result.2.refreshSessionLiveness now
            identity.gatewayId (liveSessionIds staleAfterMs now [p]))
        | .duplicate => .ok (⟨[], [p.event.eventId]⟩, result.2.refreshSessionLiveness now
            identity.gatewayId (liveSessionIds staleAfterMs now [p]))
        | .unresolved => .error (.conflict p.event.eventId)) := by
  have hinsert : db.insertNonChatBatch now identity traceId [] = .ok ([], db) := by
    simp [Db.insertNonChatBatch]
  have hcheck : checkExisting db identity.gatewayId p = .ok () := by
    unfold checkExisting
    rw [hnew]
  unfold admitPrepared
  cases hone : db.insertOne now identity traceId p with
  | error e => simp [hid, hcheck, hinsert, insertChat, hone, hnew, hchat, bind, Except.bind, pure, Except.pure]
  | ok result =>
    obtain ⟨classification, db'⟩ := result
    cases classification <;>
      simp [hid, hcheck, hinsert, insertChat, hone, hnew, hchat, rejectUnresolved, bind,
        Except.bind, pure, Except.pure]

/-- A new chat event that can be stored is received while the next sequence is in range. -/
theorem acceptEventBatch_chat_iff (hI : db.Integrity) (hchat : event.isHostedChat = true)
    (hstorable : Db.StorableChat identity traceId ⟨event, eventContentHash identity.gatewayId event⟩)
    (hnew : db.storedHash identity.gatewayId event.eventId = none) :
    (∃ db', acceptEventBatch staleAfterMs now identity traceId [event] db =
      .ok (⟨[event.eventId], []⟩, db')) ↔
        db.chatDue identity.gatewayId event.sessionId ≤ bigintMax := by
  obtain ⟨hcanonical, hid, -⟩ := GatewayEvent.of_isEncodable hstorable.2.1
  have hprepared : prepareBatch identity.gatewayId [event] =
      .ok [⟨event, eventContentHash identity.gatewayId event⟩] := by
    simp [prepareBatch, prepareEvent, hcanonical]
  have haccept : acceptEventBatch staleAfterMs now identity traceId [event] db =
      admitPrepared staleAfterMs now identity traceId
        [⟨event, eventContentHash identity.gatewayId event⟩] db := by
    unfold acceptEventBatch
    rw [hprepared]
    rfl
  rw [haccept, admitPrepared_chat hid hchat hnew]
  constructor
  · intro h
    obtain ⟨db', h⟩ := h
    by_contra hlarge
    rw [insertOne_of_exhausted hI hstorable.1 (not_le.1 hlarge)] at h
    cases h
  · intro hdue
    obtain ⟨classification, db', hone, hstored⟩ :=
      insertOne_of_room now identity traceId ⟨event, eventContentHash identity.gatewayId event⟩ hI
        hnew fun _ ↦ hdue
    have hreceived : classification = .received :=
      hstored.classification_eq.trans (if_pos hstorable)
    rw [hone, hreceived]
    exact ⟨_, rfl⟩

end Single

/-! ## Runs -/

namespace World

theorem exec_chatsOrdered {a : Action} (hw : w.Sound config) (h : w.db.ChatsOrdered) :
    (w.exec config a).db.ChatsOrdered := by
  by_cases haccept : ∃ identity traceId events, a = .acceptBatch identity traceId events
  · obtain ⟨identity, traceId, events, rfl⟩ := haccept
    simp only [exec, acceptBatch]
    split
    · exact h
    · rename_i hok
      exact acceptEventBatch_chatsOrdered config.events hw.integrity hok h
  · have hbatch : ¬w.Takes config a .admission := by
      intro htakes
      cases htakes
      exact haccept ⟨_, _, _, rfl⟩
    exact h.of_eventKeys_eq ((exec_effects hw fun _ hb ↦ hb).eventKeys_eq hbatch)

theorem Reachable.chatsOrdered (h : w.Reachable config) : w.db.ChatsOrdered := by
  obtain ⟨entropy, actions, rfl⟩ := h
  have hinit : (initial entropy).db.ChatsOrdered :=
    ⟨List.Pairwise.nil, fun _ hk ↦ absurd hk List.not_mem_nil⟩
  exact (invariant_run (I := fun v : World ↦ v.Sound config ∧ v.db.ChatsOrdered)
    (fun _ _ hv ↦ ⟨exec_sound hv.1, exec_chatsOrdered hv.1 hv.2⟩)
    ⟨initial_sound entropy, hinit⟩ actions).2

/-- The sequences of chat events in a state, and the admission of a further chat event. -/
structure ChatSequencing (config : SystemConfig) (w : World) (identity : Identity)
    (traceId : String) (event : GatewayEvent) : Prop where
  in_range : ∀ e ∈ w.db.events, e.eventType.isHostedChat = true →
    2 ^ 62 ≤ e.eventSequence ∧ e.eventSequence < 2 ^ 63
  increasing : w.db.events.rows.Pairwise fun e e' ↦ e.eventType.isHostedChat = true →
    e'.eventType.isHostedChat = true → e.cycleId = e'.cycleId → e.eventSequence < e'.eventSequence
  apart : ∀ e ∈ w.db.events, ∀ e' ∈ w.db.events, e.eventType.isHostedChat = true →
    e'.eventType.isHostedChat = false → e.cycleId = e'.cycleId →
      e.eventSequence ≠ e'.eventSequence
  admitted : ∃ db', acceptEventBatch config.admissionStaleAfterMs w.now identity traceId [event]
    w.db = .ok (⟨[event.eventId], []⟩, db')

/-- An event of the chat cycle of the session has the largest sequence. -/
def SequencesExhausted (w : World) (gatewayId sessionId : String) : Prop :=
  ∃ e ∈ w.db.events, w.db.ChatPartition gatewayId sessionId e ∧ e.eventSequence = bigintMax

instance (w : World) (gatewayId sessionId : String) :
    Decidable (w.SequencesExhausted gatewayId sessionId) :=
  inferInstanceAs (Decidable (∃ _ ∈ _, _))

theorem Reachable.chatDue_le_iff (hw : w.Reachable config) {gatewayId sessionId : String} :
    w.db.chatDue gatewayId sessionId ≤ bigintMax ↔ ¬w.SequencesExhausted gatewayId sessionId := by
  have hbounded {e : EventRow} (he : e ∈ w.db.events) : e.eventSequence ≤ bigintMax :=
    hw.chatsOrdered.bounded _ (mem_eventKeys.2 ⟨e, he, rfl⟩)
  rw [LlmGateway.chatDue_le_iff]
  constructor
  · intro h hexhausted
    obtain ⟨e, he, hpartition, hmax⟩ := hexhausted
    exact absurd hmax (h.2 e he hpartition).ne
  · intro h
    refine ⟨by decide, fun e he hpartition ↦ lt_of_le_of_ne (hbounded he) fun hmax ↦ ?_⟩
    exact h ⟨e, he, hpartition, hmax⟩

/-- In a reachable state the chat events are in range, in order and apart from all others, and
one more is admitted exactly while no event of its cycle has the largest sequence. -/
theorem chatSequencing_iff (hw : w.Reachable config) {identity : Identity} {traceId : String}
    {event : GatewayEvent} (hchat : event.isHostedChat = true)
    (hstorable : Db.StorableChat identity traceId ⟨event, eventContentHash identity.gatewayId event⟩)
    (hnew : w.db.storedHash identity.gatewayId event.eventId = none) :
    w.ChatSequencing config identity traceId event ↔
      ¬w.SequencesExhausted identity.gatewayId event.sessionId := by
  rw [← hw.chatDue_le_iff]
  constructor
  · intro h
    exact (acceptEventBatch_chat_iff hw.sound.integrity hchat hstorable hnew).1 h.admitted
  · intro hdue
    refine ⟨fun e he hchat ↦ ⟨?_, ?_⟩, ?_, ?_, ?_⟩
    · exact (hw.sound.integrity.event_sound e he).chat_floor hchat
    · have hbounded := hw.chatsOrdered.bounded _ (mem_eventKeys.2 ⟨e, he, rfl⟩)
      exact Nat.lt_of_le_sub_one (by decide) hbounded
    · have hincreasing := List.pairwise_map.1 hw.chatsOrdered.increasing
      refine hincreasing.imp ?_
      intro e e' hprecedes _ hchat hcycle
      exact hprecedes hchat hcycle
    · intro e he e' he' hchat hsequenced hcycle hsequence
      obtain rfl := hw.sound.integrity.eventRow_eq_of_position he he' hcycle hsequence
      rw [hchat] at hsequenced
      exact Bool.noConfusion hsequenced
    · exact (acceptEventBatch_chat_iff hw.sound.integrity hchat hstorable hnew).2 hdue

section Runs

open Scenario

/-- An observation at the largest sequence that the database stores. -/
def largestObservation : GatewayEvent := observation "e1" 1 (2 ^ 63 - 1) "L1" 1

theorem chat_refused_after_largest :
    let w := after [submit [largestObservation]]
    w.acknowledged.map (·.acceptance) = [⟨["e1"], []⟩] ∧
      acceptEventBatch none w.now identity "trace" [chat "c1"] w.db = .error .unavailable ∧
      ¬w.ChatSequencing Scenario.config identity "trace" (chat "c1") := by
  have hrefused : acceptEventBatch none (after [submit [largestObservation]]).now identity "trace"
      [chat "c1"] (after [submit [largestObservation]]).db = .error .unavailable := by rfl
  refine ⟨by decide, hrefused, fun h ↦ ?_⟩
  obtain ⟨db', hadmitted⟩ := h.admitted
  exact absurd (hrefused.symm.trans hadmitted) nofun

theorem chats_admitted_after_start :
    (after [submit [sessionStarted "e1" 1 "L1" 1, chat "c1"]]).ChatSequencing Scenario.config
      identity "trace" (chat "c2") :=
  (chatSequencing_iff (reachable_after _ _) rfl (by decide) (by decide)).2
    (by decide)

end Runs

end World

end LlmGateway
