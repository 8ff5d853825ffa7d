import LlmGateway.Effect.Receipt

/-!
# Storage sequences of hosted chat events

A hosted chat event goes to the chat cycle of its session, at the sequence after the largest
one of that cycle, and not below the floor. `chatDue` is this sequence as a function of the
stored rows. One insertion raises it by one for its own session and leaves it for all others.
-/

namespace LlmGateway

open Relational

variable {now : ℕ} {db db' : Db}

namespace Db

/-- The generation that a chat event of the session goes to. -/
def chatGeneration (db : Db) (gatewayId sessionId : String) : ℕ :=
  ((db.selectHostedChatCycle gatewayId sessionId).map (·.controlGeneration)).getD 1

/-- The event shares the sequence with the chat events of the session. -/
def ChatPartition (db : Db) (gatewayId sessionId : String) (e : EventRow) : Prop :=
  e.gatewayId = gatewayId ∧ e.sessionId = sessionId ∧
    e.controlGeneration = db.chatGeneration gatewayId sessionId

instance (db : Db) (gatewayId sessionId : String) :
    DecidablePred (db.ChatPartition gatewayId sessionId) := fun _ ↦
  inferInstanceAs (Decidable (_ ∧ _))

/-- The sequence that the next chat event of the session is to be stored at. -/
def chatDue (db : Db) (gatewayId sessionId : String) : ℕ :=
  ((db.events.select (db.ChatPartition gatewayId sessionId)).map (·.eventSequence + 1)).foldr max
    hostedChatStorageSequenceFloor

end Db

/-! ## The next sequence -/

theorem foldr_max_le_iff {a n : ℕ} {l : List ℕ} : l.foldr max a ≤ n ↔ a ≤ n ∧ ∀ x ∈ l, x ≤ n := by
  induction l with
  | nil => simp
  | cons x l ih =>
    simp only [List.foldr_cons, Nat.max_le, ih, List.forall_mem_cons]
    constructor
    · exact fun h ↦ ⟨h.2.1, h.1, h.2.2⟩
    · exact fun h ↦ ⟨h.2.1, h.1, h.2.2⟩

theorem chatDue_le_iff {gatewayId sessionId : String} {n : ℕ} :
    db.chatDue gatewayId sessionId ≤ n ↔ hostedChatStorageSequenceFloor ≤ n ∧
      ∀ e ∈ db.events, db.ChatPartition gatewayId sessionId e → e.eventSequence < n := by
  simp only [Db.chatDue, foldr_max_le_iff, List.forall_mem_map, Table.mem_select,
    Nat.add_one_le_iff]
  constructor
  · exact fun h ↦ ⟨h.1, fun e he hpartition ↦ h.2 e ⟨he, hpartition⟩⟩
  · exact fun h ↦ ⟨h.1, fun e he ↦ h.2 e he.1 he.2⟩

theorem floor_le_chatDue (db : Db) (gatewayId sessionId : String) :
    hostedChatStorageSequenceFloor ≤ db.chatDue gatewayId sessionId :=
  (chatDue_le_iff.1 (le_refl _)).1

theorem lt_chatDue {gatewayId sessionId : String} {e : EventRow} (he : e ∈ db.events)
    (hpartition : db.ChatPartition gatewayId sessionId e) :
    e.eventSequence < db.chatDue gatewayId sessionId :=
  (chatDue_le_iff.1 (le_refl _)).2 e he hpartition

/-- Two databases with the same bounds on the next sequence have the same next sequence. -/
theorem eq_of_forall_chatDue_le {m n : ℕ} (h : ∀ k, m ≤ k ↔ n ≤ k) : m = n :=
  le_antisymm ((h n).2 (le_refl n)) ((h m).1 (le_refl m))

/-- The allocator computes the next sequence from the largest one that is not below the floor. -/
theorem nextHostedChatStorageSequence_eq {gatewayId sessionId : String} {cycleId : Uuid}
    (hrows : ∀ e ∈ db.events, e.cycleId = cycleId ↔ db.ChatPartition gatewayId sessionId e) :
    nextHostedChatStorageSequence (db.maxHostedChatSequence cycleId) =
      if bigintMax < db.chatDue gatewayId sessionId then .error .unavailable
      else .ok (db.chatDue gatewayId sessionId) := by
  have hmem {n : ℕ} : n ∈ (db.events.select fun e ↦ e.cycleId = cycleId ∧
      hostedChatStorageSequenceFloor ≤ e.eventSequence).map (·.eventSequence) ↔
      ∃ e ∈ db.events, db.ChatPartition gatewayId sessionId e ∧
        hostedChatStorageSequenceFloor ≤ e.eventSequence ∧ e.eventSequence = n := by
    simp only [List.mem_map, Table.mem_select]
    constructor
    · intro h
      obtain ⟨e, ⟨he, hcycle, hfloor⟩, heq⟩ := h
      exact ⟨e, he, (hrows e he).1 hcycle, hfloor, heq⟩
    · intro h
      obtain ⟨e, he, hpartition, hfloor, heq⟩ := h
      exact ⟨e, ⟨he, (hrows e he).2 hpartition, hfloor⟩, heq⟩
  unfold nextHostedChatStorageSequence Db.maxHostedChatSequence
  cases hmax : ((db.events.select fun e ↦ e.cycleId = cycleId ∧
      hostedChatStorageSequenceFloor ≤ e.eventSequence).map (·.eventSequence)).max? with
  | none =>
    have hempty := List.max?_eq_none_iff.1 hmax
    have hdue : db.chatDue gatewayId sessionId = hostedChatStorageSequenceFloor := by
      apply le_antisymm _ (floor_le_chatDue db _ _)
      apply chatDue_le_iff.2
      refine ⟨le_refl _, fun e he hpartition ↦ ?_⟩
      by_contra hlarge
      have hsome := hmem.2 ⟨e, he, hpartition, not_lt.1 hlarge, rfl⟩
      rw [hempty] at hsome
      exact absurd hsome List.not_mem_nil
    have hfits : ¬bigintMax < hostedChatStorageSequenceFloor := by decide
    rw [hdue, if_neg hfits]
  | some maximum =>
    obtain ⟨hin, hlargest⟩ := List.max?_eq_some_iff.1 hmax
    obtain ⟨e, he, hpartition, hfloor, rfl⟩ := hmem.1 hin
    have hdue : db.chatDue gatewayId sessionId = e.eventSequence + 1 := by
      apply le_antisymm _ (lt_chatDue he hpartition)
      apply chatDue_le_iff.2
      refine ⟨Nat.le_succ_of_le hfloor, fun e' he' hpartition' ↦ ?_⟩
      by_contra hlarge
      have hle := hlargest _ (hmem.2 ⟨e', he', hpartition', by omega, rfl⟩)
      omega
    rw [hdue]

/-! ## The chat cycle -/

theorem sessionByName_eq_some {gatewayId sessionId : String} {s : SessionRow} :
    db.sessionByName gatewayId sessionId = some s ↔
      s ∈ db.sessions ∧ s.gatewayId = gatewayId ∧ s.sessionId = sessionId := by
  have hclash (q r : SessionRow) (hq : q.gatewayId = gatewayId ∧ q.sessionId = sessionId)
      (hr : r.gatewayId = gatewayId ∧ r.sessionId = sessionId) : Keyed.Clashes q r :=
    Or.inr ⟨hq.1.trans hr.1.symm, hq.2.trans hr.2.symm⟩
  exact Table.find?_eq_some_iff hclash

/-- The rows of the chat cycle are those that share its sequence. -/
theorem cycle_eq_iff_chatPartition (hI : db.Integrity) {gatewayId sessionId : String}
    {cycle : CycleRow} (h : db.selectHostedChatCycle gatewayId sessionId = some cycle) :
    ∀ e ∈ db.events, e.cycleId = cycle.id ↔ db.ChatPartition gatewayId sessionId e := by
  obtain ⟨hmem, hgateway, hsession⟩ := selectHostedChatCycle_names hI h
  have hgeneration : db.chatGeneration gatewayId sessionId = cycle.controlGeneration := by
    unfold Db.chatGeneration
    rw [h]
    rfl
  intro e he
  obtain ⟨c, hc, howns⟩ := hI.event_owned e he
  constructor
  · intro hcycle
    obtain rfl : c = cycle := cycleRow_eq_of_id hc hmem (howns.1.trans hcycle)
    exact ⟨howns.2.1.symm.trans hgateway, howns.2.2.1.symm.trans hsession,
      howns.2.2.2.symm.trans hgeneration.symm⟩
  · intro hpartition
    have heq : c = cycle := cycleRow_eq_of_names hc hmem
      (howns.2.1.trans (hpartition.1.trans hgateway.symm))
      (howns.2.2.1.trans (hpartition.2.1.trans hsession.symm))
      (howns.2.2.2.trans (hpartition.2.2.trans hgeneration))
    rw [← heq, howns.1]

theorem selectHostedChatCycle_eq_none {gatewayId sessionId : String} :
    db.selectHostedChatCycle gatewayId sessionId = none ↔
      ∀ s ∈ db.sessionByName gatewayId sessionId, ∀ c ∈ db.cycles, c.runtimeSessionId ≠ s.id := by
  unfold Db.selectHostedChatCycle
  cases db.sessionByName gatewayId sessionId with
  | none => simp
  | some session =>
    simp only [Option.bind_eq_bind, Option.bind_some, List.head?_eq_none_iff, Option.mem_def,
      Option.some.injEq, forall_eq', List.eq_nil_iff_forall_not_mem, mem_orderBy,
      Table.mem_select, not_and]

/-- The choice depends on the session and its cycles only. -/
theorem selectHostedChatCycle_congr {gatewayId sessionId : String}
    (hsession : db'.sessionByName gatewayId sessionId = db.sessionByName gatewayId sessionId)
    (hcycles : ∀ s ∈ db.sessionByName gatewayId sessionId,
      (db'.cycles.select fun c ↦ c.runtimeSessionId = s.id) =
        db.cycles.select fun c ↦ c.runtimeSessionId = s.id) :
    db'.selectHostedChatCycle gatewayId sessionId =
      db.selectHostedChatCycle gatewayId sessionId := by
  unfold Db.selectHostedChatCycle
  rw [hsession]
  cases hfound : db.sessionByName gatewayId sessionId with
  | none => rfl
  | some session =>
    simp only [Option.bind_eq_bind, Option.bind_some]
    rw [hcycles session hfound]

theorem selectHostedChatCycle_of_select {gatewayId sessionId : String} {session : SessionRow}
    {cycle : CycleRow} (hsession : db.sessionByName gatewayId sessionId = some session)
    (hcycles : (db.cycles.select fun c ↦ c.runtimeSessionId = session.id) = [cycle]) :
    db.selectHostedChatCycle gatewayId sessionId = some cycle := by
  unfold Db.selectHostedChatCycle
  rw [hsession]
  simp only [Option.bind_eq_bind, Option.bind_some, hcycles]
  rfl

/-- A session without cycles gets one of generation 1, and nothing else changes. -/
structure Db.Opens (db : Db) (gatewayId sessionId : String) (db' : Db) : Prop where
  chosen : ∃ c, db'.selectHostedChatCycle gatewayId sessionId = some c ∧ c.controlGeneration = 1
  others : ∀ gatewayId' sessionId', ¬(gatewayId = gatewayId' ∧ sessionId = sessionId') →
    db'.selectHostedChatCycle gatewayId' sessionId' =
      db.selectHostedChatCycle gatewayId' sessionId'

theorem upsertSession_sessionByName (now : ℕ) (hI : db.Integrity) (identity : Identity) (sessionId : String) :
    (∃ s, (db.upsertSession now identity sessionId).sessionByName identity.gatewayId sessionId =
      some s ∧ (db.sessionByName identity.gatewayId sessionId = some s ∨ s.id = db.nextUuid)) ∧
    ∀ gatewayId' sessionId', ¬(identity.gatewayId = gatewayId' ∧ sessionId = sessionId') →
      (db.upsertSession now identity sessionId).sessionByName gatewayId' sessionId' =
        db.sessionByName gatewayId' sessionId' := by
  unfold Db.upsertSession
  split
  · rename_i sessions hinsert
    have hfind (gatewayId' sessionId' : String) := Table.find?_of_insert?
      (w := fun s : SessionRow ↦ s.gatewayId = gatewayId' ∧ s.sessionId = sessionId') hinsert
    constructor
    · have hnone : (db.sessions.find? fun s ↦
          s.gatewayId = identity.gatewayId ∧ s.sessionId = sessionId) = none :=
        Table.find?_eq_none.2 fun s hs hnames ↦
          (Table.insert?_eq_some_iff.1 hinsert).1 s hs (Or.inr hnames)
      have hfound := hfind identity.gatewayId sessionId
      rw [hnone, if_pos ⟨rfl, rfl⟩, Option.none_or] at hfound
      exact ⟨_, hfound, Or.inr rfl⟩
    · intro gatewayId' sessionId' hne
      have hfound := hfind gatewayId' sessionId'
      rw [if_neg hne, Option.or_none] at hfound
      exact hfound
  · rename_i hinsert
    refine ⟨?_, fun _ _ _ ↦ rfl⟩
    obtain ⟨s, hs, hclash⟩ := Table.insert?_eq_none_iff.1 hinsert
    cases hclash with
    | inl hid =>
      have hlt := hI.session_issued s hs
      rw [show s.id = db.nextUuid from hid] at hlt
      exact absurd hlt (lt_irrefl _)
    | inr hnames =>
      have hfound := sessionByName_eq_some.2 ⟨hs, hnames⟩
      exact ⟨s, hfound, Or.inl hfound⟩

theorem upsertSession_cycles (db : Db) (now : ℕ) (identity : Identity) (sessionId : String) :
    (db.upsertSession now identity sessionId).cycles = db.cycles := by
  unfold Db.upsertSession
  split <;> rfl

theorem upsertSession_issued_le (db : Db) (now : ℕ) (identity : Identity) (sessionId : String) :
    db.issued ≤ (db.upsertSession now identity sessionId).issued := by
  unfold Db.upsertSession
  split
  · exact Nat.le_succ _
  · exact le_refl _

/-- A session that has no cycle gets its first one. -/
theorem ensureHostedChatCycle_opens (now : ℕ) (hI : db.Integrity) {identity : Identity} {sessionId : String}
    (hnone : db.selectHostedChatCycle identity.gatewayId sessionId = none) :
    db.Opens identity.gatewayId sessionId
      (db.ensureHostedChatCycle now identity sessionId) := by
  obtain ⟨⟨session, hsession, hold⟩, hothers⟩ :=
    upsertSession_sessionByName now hI identity sessionId
  have hissued := upsertSession_issued_le db now identity sessionId
  have hcycles := upsertSession_cycles db now identity sessionId
  have hfree : ∀ c ∈ db.cycles, c.runtimeSessionId ≠ session.id := by
    intro c hc hid
    cases hold with
    | inl hfound => exact selectHostedChatCycle_eq_none.1 hnone session hfound c hc hid
    | inr hnew =>
      obtain ⟨s, hs, howns⟩ := hI.cycle_owned c hc
      have hlt := hI.session_issued s hs
      rw [howns.1, hid, hnew] at hlt
      exact absurd hlt (lt_irrefl _)
  unfold Db.ensureHostedChatCycle
  rw [hnone]
  simp only
  generalize db.upsertSession now identity sessionId = ready at *
  unfold Db.upsertCycle
  rw [hsession]
  simp only
  split
  · rename_i cycles hinsert
    constructor
    · have hempty : (db.cycles.select fun c ↦ c.runtimeSessionId = session.id) = [] :=
        List.eq_nil_iff_forall_not_mem.2 fun c hc ↦
          hfree c (Table.mem_select.1 hc).1 (Table.mem_select.1 hc).2
      have hselect := Table.select_of_insert?
        (w := fun c : CycleRow ↦ c.runtimeSessionId = session.id) hinsert
      rw [hcycles, hempty, if_pos rfl, List.nil_append] at hselect
      exact ⟨_, selectHostedChatCycle_of_select hsession hselect, rfl⟩
    · intro gatewayId' sessionId' hne
      have hname := hothers gatewayId' sessionId' hne
      refine selectHostedChatCycle_congr hname fun s hs ↦ ?_
      rw [Table.select_of_insert? hinsert, hcycles, if_neg, List.append_nil]
      intro hid
      have hs' := sessionByName_eq_some.1 (hname.trans hs)
      obtain ⟨hmem, hnames⟩ := sessionByName_eq_some.1 hsession
      obtain rfl := sessionRow_eq_of_id hmem hs'.1 hid
      exact hne ⟨hnames.1.symm.trans hs'.2.1, hnames.2.symm.trans hs'.2.2⟩
  · rename_i hinsert
    obtain ⟨c, hc, hclash⟩ := Table.insert?_eq_none_iff.1 hinsert
    rw [hcycles] at hc
    cases hclash with
    | inl hid =>
      have hlt := hI.cycle_issued c hc
      rw [show c.id = ready.nextUuid from hid] at hlt
      exact absurd (lt_of_lt_of_le hlt hissued) (lt_irrefl _)
    | inr hnames =>
      obtain ⟨s, hs, howns⟩ := hI.cycle_owned c hc
      have hfound := sessionByName_eq_some.2
        ⟨hs, howns.2.1.trans hnames.1, howns.2.2.trans hnames.2.1⟩
      exact absurd howns.1.symm (selectHostedChatCycle_eq_none.1 hnone s hfound c hc)

/-- The cycle of a chat event exists once it is made ready, and has the generation that the
stored rows tell. -/
theorem ensureHostedChatCycle_ready (now : ℕ) (hI : db.Integrity) (identity : Identity) (sessionId : String) :
    ∃ c, (db.ensureHostedChatCycle now identity sessionId).selectHostedChatCycle
      identity.gatewayId sessionId = some c ∧
      c.controlGeneration = db.chatGeneration identity.gatewayId sessionId := by
  cases hchosen : db.selectHostedChatCycle identity.gatewayId sessionId with
  | none =>
    obtain ⟨c, hc, hone⟩ := (ensureHostedChatCycle_opens now hI hchosen).chosen
    refine ⟨c, hc, ?_⟩
    unfold Db.chatGeneration
    rw [hone, hchosen]
    rfl
  | some c =>
    refine ⟨c, ?_, ?_⟩
    · unfold Db.ensureHostedChatCycle
      rw [hchosen]
      exact hchosen
    · unfold Db.chatGeneration
      rw [hchosen]
      rfl

theorem ensureHostedChatCycle_chatGeneration (hI : db.Integrity) (identity : Identity)
    (sessionId gatewayId' sessionId' : String) :
    (db.ensureHostedChatCycle now identity sessionId).chatGeneration gatewayId' sessionId' =
      db.chatGeneration gatewayId' sessionId' := by
  by_cases hsame : identity.gatewayId = gatewayId' ∧ sessionId = sessionId'
  · obtain ⟨c, hc, hgeneration⟩ := ensureHostedChatCycle_ready now hI identity sessionId
    rw [← hsame.1, ← hsame.2, ← hgeneration]
    unfold Db.chatGeneration
    rw [hc]
    rfl
  · unfold Db.chatGeneration
    cases hchosen : db.selectHostedChatCycle identity.gatewayId sessionId with
    | none => rw [(ensureHostedChatCycle_opens now hI hchosen).others _ _ hsame]
    | some c =>
      unfold Db.ensureHostedChatCycle
      rw [hchosen]

/-! ## One insertion -/

theorem chatDue_congr {gatewayId sessionId : String} (hevents : db'.events = db.events)
    (hgeneration : db'.chatGeneration gatewayId sessionId = db.chatGeneration gatewayId sessionId) :
    db'.chatDue gatewayId sessionId = db.chatDue gatewayId sessionId := by
  apply eq_of_forall_chatDue_le
  intro n
  rw [chatDue_le_iff, chatDue_le_iff, hevents]
  unfold Db.ChatPartition
  rw [hgeneration]

theorem ensureHostedChatCycle_chatDue (hI : db.Integrity) (identity : Identity)
    (sessionId gatewayId' sessionId' : String) :
    (db.ensureHostedChatCycle now identity sessionId).chatDue gatewayId' sessionId' =
      db.chatDue gatewayId' sessionId' :=
  chatDue_congr (ensureHostedChatCycle_events db identity sessionId)
    (ensureHostedChatCycle_chatGeneration hI identity sessionId gatewayId' sessionId')

/-- A row stored at the next sequence of its session moves that sequence by one. -/
theorem chatDue_insert {gatewayId sessionId : String} {row : EventRow} {events : Table EventRow}
    (hinsert : db.events.insert? row = some events)
    (hpartition : db.ChatPartition gatewayId sessionId row)
    (hsequence : row.eventSequence = db.chatDue gatewayId sessionId)
    (gatewayId' sessionId' : String) :
    ({ db.bumpUuid with events := events } : Db).chatDue gatewayId' sessionId' =
      db.chatDue gatewayId' sessionId' +
        if gatewayId = gatewayId' ∧ sessionId = sessionId' then 1 else 0 := by
  apply eq_of_forall_chatDue_le
  intro n
  have hle : ({ db.bumpUuid with events := events } : Db).chatDue gatewayId' sessionId' ≤ n ↔
      db.chatDue gatewayId' sessionId' ≤ n ∧
        (db.ChatPartition gatewayId' sessionId' row → row.eventSequence < n) := by
    rw [chatDue_le_iff, chatDue_le_iff]
    simp only [Table.mem_of_insert? hinsert, or_imp, forall_and, forall_eq]
    exact and_assoc.symm
  rw [hle]
  by_cases hsame : gatewayId = gatewayId' ∧ sessionId = sessionId'
  · rw [if_pos hsame, ← hsame.1, ← hsame.2, hsequence]
    constructor
    · exact fun h ↦ h.2 hpartition
    · exact fun h ↦ ⟨Nat.le_of_succ_le h, fun _ ↦ h⟩
  · rw [if_neg hsame, Nat.add_zero]
    constructor
    · exact And.left
    · exact fun h ↦ ⟨h, fun h' ↦
        absurd ⟨hpartition.1.symm.trans h'.1, hpartition.2.1.symm.trans h'.2.1⟩ hsame⟩

/-- The texts of a chat event can be stored. -/
def Db.StorableChat (identity : Identity) (traceId : String) (item : PreparedEvent) : Prop :=
  encodable item.event.sessionId ∧ item.event.isEncodable ∧ encodable traceId ∧
    Db.FitsColumns identity traceId item

instance (identity : Identity) (traceId : String) : DecidablePred (Db.StorableChat identity traceId) :=
  fun _ ↦ inferInstanceAs (Decidable (_ ∧ _))

section InsertOne

variable {identity : Identity} {traceId : String} {item : PreparedEvent}

/-- What the insertion of one new chat event has done to the next sequences. -/
structure Db.ChatStored (db : Db) (identity : Identity) (traceId : String) (item : PreparedEvent)
    (classification : Classification) (db' : Db) : Prop where
  classification_eq : classification =
    if Db.StorableChat identity traceId item then .received else .unresolved
  fresh : ∀ eventId, eventId ≠ item.event.eventId →
    db.storedHash identity.gatewayId eventId = none →
      db'.storedHash identity.gatewayId eventId = none
  due : ∀ sessionId, db'.chatDue identity.gatewayId sessionId =
    db.chatDue identity.gatewayId sessionId +
      if Db.StorableChat identity traceId item ∧ item.event.sessionId = sessionId then 1 else 0

theorem classifyStored_of_new (hnew : db.storedHash identity.gatewayId item.event.eventId = none) :
    db.classifyStored identity.gatewayId item = .ok .unresolved := by
  unfold Db.classifyStored
  rw [hnew]

theorem ensureHostedChatCycle_integrity (now : ℕ) (hI : db.Integrity) (identity : Identity)
    (sessionId : String) : (db.ensureHostedChatCycle now identity sessionId).Integrity := by
  let config : WorkerConfig :=
    ⟨1, 1, 1, 1, Nat.one_pos, Nat.one_pos, Nat.one_pos, le_refl 1⟩
  have heffects : Effects config now (fun _ ↦ True) db
      (db.ensureHostedChatCycle now identity sessionId) :=
    ensureHostedChatCycle_effects trivial identity sessionId
  exact heffects.integrity hI

/-- The sequence that the allocator gives to a chat event. -/
theorem allocated_eq (hI : db.Integrity) {cycle : CycleRow}
    (hcycle : (db.ensureHostedChatCycle now identity item.event.sessionId).selectHostedChatCycle
      identity.gatewayId item.event.sessionId = some cycle) :
    nextHostedChatStorageSequence ((db.ensureHostedChatCycle now identity
        item.event.sessionId).maxHostedChatSequence cycle.id) =
      if bigintMax < db.chatDue identity.gatewayId item.event.sessionId then .error .unavailable
      else .ok (db.chatDue identity.gatewayId item.event.sessionId) := by
  have hready := ensureHostedChatCycle_integrity now hI identity item.event.sessionId
  rw [nextHostedChatStorageSequence_eq (cycle_eq_iff_chatPartition hready hcycle),
    ensureHostedChatCycle_chatDue hI]

/-- A chat event whose sequence is out of range makes the batch unavailable. -/
theorem insertOne_of_exhausted (hI : db.Integrity) (hsession : encodable item.event.sessionId)
    (hdue : bigintMax < db.chatDue identity.gatewayId item.event.sessionId) :
    db.insertOne now identity traceId item = .error .unavailable := by
  obtain ⟨cycle, hcycle, -⟩ :=
    ensureHostedChatCycle_ready now hI identity item.event.sessionId
  unfold Db.insertOne
  rw [if_neg (not_not.2 hsession)]
  simp only
  rw [hcycle]
  simp only
  rw [allocated_eq hI hcycle, if_pos hdue]
  rfl

/-- A new chat event clashes with no stored one. -/
theorem insertEvent_of_due (now : ℕ) (identity : Identity) (traceId : String)
    (item : PreparedEvent) (hI : db.Integrity)
    (hnew : db.storedHash identity.gatewayId item.event.eventId = none) {cycle : CycleRow}
    (hcycle : db.selectHostedChatCycle identity.gatewayId item.event.sessionId = some cycle) :
    ∃ events, db.events.insert? (db.newEventRow now identity traceId item cycle.id
      cycle.controlGeneration (db.chatDue identity.gatewayId item.event.sessionId)) =
        some events := by
  rw [← Option.isSome_iff_exists, ← Option.not_isNone, Bool.not_eq_true', Option.isNone_eq_false_iff,
    ← Option.ne_none_iff_isSome]
  intro hnone
  obtain ⟨e, he, hclash⟩ := Table.insert?_eq_none_iff.1 hnone
  rcases hclash with hid | hid | hposition
  · have hlt := hI.event_issued e he
    rw [show e.id = db.nextUuid from hid] at hlt
    exact absurd hlt (lt_irrefl _)
  · exact storedHash_eq_none.1 hnew e he hid.1 hid.2
  · have hgeneration : db.chatGeneration identity.gatewayId item.event.sessionId =
        cycle.controlGeneration := by
      unfold Db.chatGeneration
      rw [hcycle]
      rfl
    have hlt := lt_chatDue he ⟨hposition.1, hposition.2.1, hposition.2.2.1.trans hgeneration.symm⟩
    exact absurd hposition.2.2.2 hlt.ne

/-- Any other new chat event is stored, or left unresolved. -/
theorem insertOne_of_room (now : ℕ) (identity : Identity) (traceId : String)
    (item : PreparedEvent) (hI : db.Integrity)
    (hnew : db.storedHash identity.gatewayId item.event.eventId = none)
    (hdue : encodable item.event.sessionId →
      db.chatDue identity.gatewayId item.event.sessionId ≤ bigintMax) :
    ∃ classification db', db.insertOne now identity traceId item = .ok (classification, db') ∧
      db.ChatStored identity traceId item classification db' := by
  have hunresolved (hbad : ¬Db.StorableChat identity traceId item)
      (hone : db.insertOne now identity traceId item = .ok (.unresolved, db)) :
      ∃ classification db', db.insertOne now identity traceId item = .ok (classification, db') ∧
        db.ChatStored identity traceId item classification db' := by
    refine ⟨_, _, hone, ?_, fun _ _ h ↦ h, fun sessionId ↦ ?_⟩
    · rw [if_neg hbad]
    · rw [if_neg fun h ↦ hbad h.1, Nat.add_zero]
  have hclassified := classifyStored_of_new hnew
  by_cases hsession : encodable item.event.sessionId
  case neg =>
    refine hunresolved (fun h ↦ hsession h.1) ?_
    unfold Db.insertOne
    rw [if_pos hsession, hclassified]
    rfl
  obtain ⟨cycle, hcycle, hgeneration⟩ :=
    ensureHostedChatCycle_ready now hI identity item.event.sessionId
  have hdue' := hdue hsession
  have hallocated := (allocated_eq hI hcycle).trans (if_neg (not_lt.2 hdue'))
  by_cases hstorable : item.event.isEncodable ∧ encodable traceId ∧
      Db.FitsColumns identity traceId item
  case neg =>
    refine hunresolved (fun h ↦ hstorable h.2) ?_
    unfold Db.insertOne
    rw [if_neg (not_not.2 hsession)]
    simp only
    rw [hcycle]
    apply bind_eq_ok_iff.2
    refine ⟨_, hallocated, ?_⟩
    rw [if_pos hstorable, hclassified]
    rfl
  have hevents : (db.ensureHostedChatCycle now identity item.event.sessionId).events =
      db.events := ensureHostedChatCycle_events db identity item.event.sessionId
  have hready := ensureHostedChatCycle_integrity now hI identity item.event.sessionId
  have hnew' : (db.ensureHostedChatCycle now identity item.event.sessionId).storedHash
      identity.gatewayId item.event.eventId = none := by
    unfold Db.storedHash
    rw [hevents]
    exact hnew
  obtain ⟨events, hinsert⟩ :=
    insertEvent_of_due now identity traceId item hready hnew' hcycle
  rw [ensureHostedChatCycle_chatDue hI] at hinsert
  have hone : db.insertOne now identity traceId item = .ok (.received,
      { (db.ensureHostedChatCycle now identity item.event.sessionId).bumpUuid with
        events := events }) := by
    unfold Db.insertOne
    rw [if_neg (not_not.2 hsession)]
    simp only
    rw [hcycle]
    apply bind_eq_ok_iff.2
    refine ⟨_, hallocated, ?_⟩
    rw [if_neg (not_not.2 hstorable), Db.insertEvent, hinsert]
    rfl
  have hpartition : (db.ensureHostedChatCycle now identity item.event.sessionId).ChatPartition
      identity.gatewayId item.event.sessionId
      ((db.ensureHostedChatCycle now identity item.event.sessionId).newEventRow now identity
        traceId item cycle.id cycle.controlGeneration
        (db.chatDue identity.gatewayId item.event.sessionId)) :=
    ⟨rfl, rfl, hgeneration.trans (ensureHostedChatCycle_chatGeneration hI identity _ _ _).symm⟩
  refine ⟨_, _, hone, ?_, fun eventId hne hnone ↦ ?_, fun sessionId ↦ ?_⟩
  · rw [if_pos ⟨hsession, hstorable⟩]
  · apply storedHash_eq_none.2
    intro e he hgateway hid
    cases (Table.mem_of_insert? hinsert).1 he with
    | inl he =>
      rw [hevents] at he
      exact storedHash_eq_none.1 hnone e he hgateway hid
    | inr heq => exact hne (hid.symm.trans (congrArg (fun e : EventRow ↦ e.eventId) heq))
  · rw [chatDue_insert hinsert hpartition (ensureHostedChatCycle_chatDue hI identity _ _ _).symm,
      ensureHostedChatCycle_chatDue hI]
    have hstored : Db.StorableChat identity traceId item := ⟨hsession, hstorable⟩
    simp only [hstored, true_and]

/-! ## The chat events of a batch -/

/-- The chat events of the session that get a sequence. -/
def Db.chatsTaken (identity : Identity) (traceId : String) (items : List PreparedEvent)
    (sessionId : String) : ℕ :=
  items.countP fun p ↦ Db.StorableChat identity traceId p ∧ p.event.sessionId = sessionId

theorem chatsTaken_cons (p : PreparedEvent) (items : List PreparedEvent) (sessionId : String) :
    Db.chatsTaken identity traceId (p :: items) sessionId =
      Db.chatsTaken identity traceId items sessionId +
        if Db.StorableChat identity traceId p ∧ p.event.sessionId = sessionId then 1 else 0 := by
  simp only [Db.chatsTaken, List.countP_cons, decide_eq_true_eq]

/-- The new chat events of a batch are inserted exactly when the sequence of each is in range;
otherwise the batch is unavailable. -/
theorem insertChats_iff {items : List PreparedEvent} (config : WorkerConfig)
    (hchat : ∀ p ∈ items, p.event.isHostedChat = true)
    (hhashed : ∀ p ∈ items, p.Hashed identity.gatewayId)
    (hdistinct : (items.map (·.event.eventId)).Nodup) {progress : Progress}
    (hI : progress.db.Integrity)
    (hnew : ∀ p ∈ items, progress.db.storedHash identity.gatewayId p.event.eventId = none) :
    ((∃ progress', items.foldlM (insertChat now identity traceId) progress = .ok progress') ∨
      items.foldlM (insertChat now identity traceId) progress = .error .unavailable) ∧
    ((∃ progress', items.foldlM (insertChat now identity traceId) progress = .ok progress') ↔
      ∀ before item after, items = before ++ item :: after → encodable item.event.sessionId →
        progress.db.chatDue identity.gatewayId item.event.sessionId +
          Db.chatsTaken identity traceId before item.event.sessionId ≤ bigintMax) := by
  induction items generalizing progress with
  | nil =>
    refine ⟨Or.inl ⟨progress, rfl⟩, fun _ before item after h ↦ ?_, fun _ ↦ ⟨progress, rfl⟩⟩
    exact absurd h (List.append_ne_nil_of_right_ne_nil before (List.cons_ne_nil item after)).symm
  | cons p items ih =>
    simp only [List.foldlM_cons]
    by_cases hroom : encodable p.event.sessionId →
        progress.db.chatDue identity.gatewayId p.event.sessionId ≤ bigintMax
    case neg =>
      push Not at hroom
      have hfail : insertChat now identity traceId progress p = .error .unavailable :=
        bind_eq_error_iff.2 (Or.inl (insertOne_of_exhausted hI hroom.1 hroom.2))
      rw [hfail]
      refine ⟨Or.inr rfl, ⟨fun h ↦ ?_, fun h ↦ ?_⟩⟩
      · obtain ⟨progress', h⟩ := h
        cases h
      · have hfits := h [] p items rfl hroom.1
        exact absurd (le_trans (Nat.le_add_right _ _) hfits) (not_le.2 hroom.2)
    obtain ⟨classification, db₁, hone, hstored⟩ :=
      insertOne_of_room now identity traceId p hI (hnew p List.mem_cons_self) hroom
    obtain ⟨progress₁, hinsert, hdb⟩ : ∃ progress₁,
        insertChat now identity traceId progress p = .ok progress₁ ∧ progress₁.db = db₁ := by
      unfold insertChat
      rw [hone]
      cases classification <;> exact ⟨_, rfl, rfl⟩
    have heffects : Effects config now (fun _ ↦ True) progress.db db₁ :=
      insertOne_effects trivial hI (hhashed p List.mem_cons_self) (hchat p List.mem_cons_self) hone
    have hnodup := List.nodup_cons.1 hdistinct
    have hI₁ : progress₁.db.Integrity := by
      rw [hdb]
      exact heffects.integrity hI
    have hrest := ih (fun q hq ↦ hchat q (List.mem_cons_of_mem p hq))
      (fun q hq ↦ hhashed q (List.mem_cons_of_mem p hq)) hnodup.2 hI₁ (fun q hq ↦ by
        rw [hdb]
        apply hstored.fresh _ _ (hnew q (List.mem_cons_of_mem p hq))
        exact fun hid ↦ hnodup.1 (List.mem_map.2 ⟨q, hq, hid⟩))
    have hdue (sessionId : String) (before : List PreparedEvent) :
        progress₁.db.chatDue identity.gatewayId sessionId +
          Db.chatsTaken identity traceId before sessionId =
        progress.db.chatDue identity.gatewayId sessionId +
          Db.chatsTaken identity traceId (p :: before) sessionId := by
      rw [hdb, hstored.due, chatsTaken_cons]
      omega
    rw [hinsert]
    change (_ ∨ _) ∧ ((∃ progress', items.foldlM (insertChat now identity traceId) progress₁ =
      .ok progress') ↔ _)
    refine ⟨hrest.1, hrest.2.trans ⟨fun h before item after hsplit hsession ↦ ?_,
      fun h before item after hsplit hsession ↦ ?_⟩⟩
    · cases before with
      | nil =>
        obtain ⟨rfl, -⟩ := List.cons.inj hsplit
        exact hroom hsession
      | cons q before =>
        obtain ⟨hhead, htail⟩ := List.cons.inj hsplit
        rw [← hhead, ← hdue]
        exact h before item after htail hsession
    · rw [hdue]
      exact h (p :: before) item after (congrArg (p :: ·) hsplit) hsession

end InsertOne

end LlmGateway
