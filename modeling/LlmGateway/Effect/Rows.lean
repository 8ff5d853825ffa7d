import LlmGateway.Effect.Basic

/-!
# Rows under effects

How each table evolves under one effect: generations grow, keys never change, and an event
settles, is claimed, or stays as it is. Closed events stay as they are.
-/

namespace LlmGateway

open Relational

variable {config : WorkerConfig} {now : ℕ} {P : Branch → Prop} {db db' : Db}

theorem Db.Linked.eq_session {j : Joined} (h : db.Linked j) {s : SessionRow}
    (hs : s ∈ db.sessions) (hid : s.id = j.session.id) : s = j.session :=
  sessionRow_eq_of_id hs h.session_mem hid

theorem Db.Linked.eq_event {j : Joined} (h : db.Linked j) {e : EventRow} (he : e ∈ db.events)
    (hid : e.id = j.event.id) : e = j.event :=
  eventRow_eq_of_id he h.event_mem hid

theorem Db.Linked.eq_cycle {j : Joined} (h : db.Linked j) {c : CycleRow} (hc : c ∈ db.cycles)
    (hid : c.id = j.event.cycleId) : c = j.cycle :=
  cycleRow_eq_of_id hc h.cycle_mem (hid.trans h.cycle_id.symm)

/-- The names of a session determine its row. -/
theorem sessionRow_eq_of_names {s s' : SessionRow} (hs : s ∈ db.sessions)
    (hs' : s' ∈ db.sessions) (hg : s.gatewayId = s'.gatewayId)
    (hn : s.sessionId = s'.sessionId) : s = s' :=
  Table.eq_of_clashes hs hs' (Or.inr ⟨hg, hn⟩)

/-- The names of a cycle determine its row. -/
theorem cycleRow_eq_of_names {c c' : CycleRow} (hc : c ∈ db.cycles) (hc' : c' ∈ db.cycles)
    (hg : c.gatewayId = c'.gatewayId) (hn : c.sessionId = c'.sessionId)
    (hgen : c.controlGeneration = c'.controlGeneration) : c = c' :=
  Table.eq_of_clashes hc hc' (Or.inr ⟨hg, hn, hgen⟩)

@[simp] theorem activatePending_events (j : Joined) (db : Db) :
    (activatePending j db).events = db.events := by
  unfold activatePending
  split_ifs <;> rfl

@[simp] theorem activatePending_entropy (j : Joined) (db : Db) :
    (activatePending j db).entropy = db.entropy := by
  unfold activatePending
  split_ifs <;> rfl

@[simp] theorem activatePending_issued (j : Joined) (db : Db) :
    (activatePending j db).issued = db.issued := by
  unfold activatePending
  split_ifs <;> rfl

/-! ## Generations and sequences of a disposition -/

theorem Joined.disposition_of_sequenced {j : Joined}
    (h : j.event.eventType.isHostedChat = false) :
    j.disposition = classifyGeneration j.session.currentGeneration j.event.controlGeneration
      j.event.eventType j.event.eventSequence := by
  simp only [disposition, h, Bool.false_eq_true, if_false]

/-- A disposition fixes how the generation of the event compares with the current one. -/
theorem classifyGeneration_cases (current : Option ℕ) (generation : ℕ) (type : EventType)
    (sequence : ℕ) :
    match classifyGeneration current generation type sequence with
    | .activateNew => (∀ g ∈ current, g < generation) ∧ type = .sessionStarted ∧ sequence = 1
    | .wait => (∀ g ∈ current, g < generation) ∧ ¬(type = .sessionStarted ∧ sequence = 1)
    | .current => current = some generation
    | .historicalRecovery => (∃ g ∈ current, generation < g) ∧ type.isConvergence = true
    | .stale => (∃ g ∈ current, generation < g) ∧ type.isConvergence = false := by
  unfold classifyGeneration
  have hlater (h : ¬∀ g ∈ current, g < generation) (hne : current ≠ some generation) :
      ∃ g ∈ current, generation < g := by
    push Not at h
    obtain ⟨g, hg, hle⟩ := h
    refine ⟨g, hg, lt_of_le_of_ne hle ?_⟩
    rintro rfl
    exact hne (Option.mem_def.1 hg)
  split_ifs with hnew htype hcurrent hconvergence
  · exact ⟨hnew, htype⟩
  · exact ⟨hnew, htype⟩
  · exact hcurrent
  · exact ⟨hlater hnew hcurrent, hconvergence⟩
  · exact ⟨hlater hnew hcurrent, by simpa only [Bool.not_eq_true] using hconvergence⟩

section Dispositions

variable {j : Joined}

theorem Joined.sequenced_of_disposition (h : j.disposition ≠ .current) :
    j.event.eventType.isHostedChat = false := by
  by_contra hchat
  exact h (by simp only [disposition, Bool.not_eq_false] at hchat ⊢; rw [if_pos hchat])

theorem Joined.generation_of_activateNew (h : j.disposition = .activateNew) :
    (∀ g ∈ j.session.currentGeneration, g < j.event.controlGeneration) ∧
      j.event.eventType = .sessionStarted ∧ j.event.eventSequence = 1 := by
  rw [disposition_of_sequenced (sequenced_of_disposition (by simp [h]))] at h
  have hcases := classifyGeneration_cases j.session.currentGeneration j.event.controlGeneration
    j.event.eventType j.event.eventSequence
  rwa [h] at hcases

theorem Joined.generation_of_wait (h : j.disposition = .wait) :
    (∀ g ∈ j.session.currentGeneration, g < j.event.controlGeneration) ∧
      ¬(j.event.eventType = .sessionStarted ∧ j.event.eventSequence = 1) := by
  rw [disposition_of_sequenced (sequenced_of_disposition (by simp [h]))] at h
  have hcases := classifyGeneration_cases j.session.currentGeneration j.event.controlGeneration
    j.event.eventType j.event.eventSequence
  rwa [h] at hcases

theorem Joined.generation_of_stale (h : j.disposition = .stale) :
    (∃ g ∈ j.session.currentGeneration, j.event.controlGeneration < g) ∧
      j.event.eventType.isConvergence = false := by
  rw [disposition_of_sequenced (sequenced_of_disposition (by simp [h]))] at h
  have hcases := classifyGeneration_cases j.session.currentGeneration j.event.controlGeneration
    j.event.eventType j.event.eventSequence
  rwa [h] at hcases

theorem Joined.generation_of_historicalRecovery (h : j.disposition = .historicalRecovery) :
    (∃ g ∈ j.session.currentGeneration, j.event.controlGeneration < g) ∧
      j.event.eventType.isConvergence = true := by
  rw [disposition_of_sequenced (sequenced_of_disposition (by simp [h]))] at h
  have hcases := classifyGeneration_cases j.session.currentGeneration j.event.controlGeneration
    j.event.eventType j.event.eventSequence
  rwa [h] at hcases

theorem Joined.generation_of_current (h : j.disposition = .current)
    (hchat : j.event.eventType.isHostedChat = false) :
    j.session.currentGeneration = some j.event.controlGeneration := by
  rw [disposition_of_sequenced hchat] at h
  have hcases := classifyGeneration_cases j.session.currentGeneration j.event.controlGeneration
    j.event.eventType j.event.eventSequence
  rwa [h] at hcases

end Dispositions

/-- The identifier was generated by the effect. -/
def Db.Fresh (db db' : Db) (id : Uuid) : Prop := id = db.nextUuid ∧ db.issued < db'.issued

/-! ## Sessions -/

/-- One effect lets generations grow and inserts sessions without one. -/
theorem Effect.sessions_evolve (h : Effect config now P db db') :
    Table.Evolves SessionRow.Grows (fun s ↦ s.New ∧ db.Fresh db' s.id) db.sessions
      db'.sessions := by
  have hrefl := SessionRow.Grows.refl
  cases h with
  | outbox hstep =>
    rw [hstep.sessions_eq]
    exact .refl hrefl _
  | insertSession hinsert hid hnew _ =>
    exact .insert hrefl ⟨hnew, hid, Nat.lt_succ_self _⟩ hinsert
  | touch w a hkeeps =>
    refine .update hrefl fun s hs hw ↦ ⟨a.key_set s, fun g hg ↦ ⟨g, ?_, le_refl g⟩⟩
    rwa [(hkeeps s hs hw).1]
  | raiseFence w a hkeeps _ =>
    refine .update hrefl fun s hs hw ↦ ⟨a.key_set s, fun g hg ↦ ⟨g, ?_, le_refl g⟩⟩
    rwa [hkeeps s hs hw]
  | @activate j hlinked hdisp =>
    refine .update hrefl fun s hs hid ↦ ⟨rfl, fun g hg ↦ ⟨j.event.controlGeneration, rfl, ?_⟩⟩
    rw [hlinked.eq_session hs hid] at hg
    exact ((Joined.generation_of_activateNew hdisp).1 g hg).le
  | @activatePending j _ _ _ =>
    unfold LlmGateway.activatePending
    split_ifs
    · exact .update hrefl fun s _ _ ↦ ⟨rfl, fun g hg ↦ ⟨g, hg, le_refl g⟩⟩
    · exact .refl hrefl _
  | _ => exact .refl hrefl _

theorem Db.Current.reached {gatewayId sessionId : String} {generation : ℕ}
    (h : db.Current gatewayId sessionId generation) :
    db.Reached gatewayId sessionId generation := by
  obtain ⟨s, hs, hg, hn, hcur⟩ := h
  exact ⟨s, hs, hg, hn, generation, hcur, le_refl _⟩

/-! ## Cycles -/

/-- One effect keeps the key of every cycle. -/
theorem Effect.cycles_evolve (h : Effect config now P db db') :
    Table.Evolves (fun c c' : CycleRow ↦ c'.toCycleKey = c.toCycleKey)
      (fun c ↦ c.New ∧ db.Fresh db' c.id ∧ ∃ s ∈ db.sessions, s.Owns c.toCycleKey)
      db.cycles db'.cycles := by
  have hrefl (c : CycleRow) : c.toCycleKey = c.toCycleKey := rfl
  cases h with
  | outbox hstep =>
    rw [hstep.cycles_eq]
    exact .refl hrefl _
  | insertCycle hinsert hid hnew howned _ =>
    exact .insert hrefl ⟨hnew, ⟨hid, Nat.lt_succ_self _⟩, howned⟩ hinsert
  | @activate j _ _ =>
    have htrans : Table.Evolves (fun c c' : CycleRow ↦ c'.toCycleKey = c.toCycleKey)
        (fun _ ↦ False) db.cycles (activateNew j db).cycles :=
      .trans (fun h h' ↦ h'.trans h) (fun h _ ↦ h) (.update hrefl fun _ _ _ ↦ rfl)
        (.update hrefl fun _ _ _ ↦ rfl)
    exact htrans.mono (fun _ _ h ↦ h) fun _ h ↦ h.elim
  | @activatePending j _ _ _ =>
    unfold LlmGateway.activatePending
    split_ifs
    · exact .update hrefl fun _ _ _ ↦ rfl
    · exact .refl hrefl _
  | supersede => exact .update hrefl fun _ _ _ ↦ rfl
  | wait => exact .update hrefl fun _ _ _ ↦ rfl
  | markManual => exact .update hrefl fun _ _ _ ↦ rfl
  | close w a _ _ => exact .update hrefl fun c _ _ ↦ a.key_set c
  | cursor w a _ _ _ => exact .update hrefl fun c _ _ ↦ a.key_set c
  | context => exact .update hrefl fun _ _ _ ↦ rfl
  | _ => exact .refl hrefl _

/-! ## Events -/

/-- A due event that is handed out under a new token. -/
structure EventRow.Claims (config : WorkerConfig) (now : ℕ) (token : Uuid) (e e' : EventRow) :
    Prop where
  due : e.Due config.maxAttempts now
  key_eq : e'.toEventKey = e.toEventKey
  status : e'.status = .processing
  attempts : e'.attemptCount = e.attemptCount + 1
  claimToken : e'.claimToken = some token
  claimedFenceVersion : e'.claimedFenceVersion.isSome
  lockUntil : e'.lockUntil.isSome
  lockedBy : e'.lockedBy.isSome

theorem EventRow.Due.isOpen {maxAttempts : ℕ} {e : EventRow} (h : e.Due maxAttempts now) :
    e.status.isOpen = true := by
  rcases h.2 with ⟨hs | hs, -⟩ | ⟨hs, -⟩ <;> simp [hs, EventStatus.isOpen]

theorem closeEvent_released {status : EventStatus} {stage category : Option String}
    (h : status ≠ .processing) (e : EventRow) :
    ((Db.closeEvent status stage category).set e).Released :=
  ⟨h, rfl, rfl, rfl, rfl⟩

theorem closeEvent_settles {status : EventStatus} {stage category : Option String}
    (h : status ≠ .processing) {e : EventRow} (hopen : e.status.isOpen = true) :
    e.Settles ((Db.closeEvent status stage category).set e) :=
  ⟨rfl, rfl, Or.inr (Or.inl ⟨hopen, closeEvent_released h e⟩)⟩

theorem supersedeKeepingError_settles {e : EventRow} (hopen : e.status.isOpen = true) :
    e.Settles (Db.supersedeKeepingError.set e) :=
  ⟨rfl, rfl, Or.inr (Or.inl ⟨hopen, ⟨nofun, rfl, rfl, rfl, rfl⟩⟩)⟩

theorem EventRow.isOpen_of_processing {e : EventRow} (h : e.status = .processing) :
    e.status.isOpen = true := by
  rw [h]
  rfl

/-- What an effect that issues a token may do to an event; only one event is handed out. -/
def Effect.EventStep (config : WorkerConfig) (now : ℕ) (P : Branch → Prop) (db db' : Db)
    (rowId : Uuid) (e e' : EventRow) : Prop :=
  e.Settles e' ∨ (P .claim ∧ e.id = rowId ∧ e.Claims config now db.nextUuid e' ∧
    db.issued < db'.issued)

/-- The rows of events that an effect may insert. -/
def Effect.EventNew (now : ℕ) (P : Branch → Prop) (db db' : Db) (e : EventRow) : Prop :=
  P .admission ∧ e.New now ∧ db.Fresh db' e.id ∧ e.toEventKey.Sound ∧ ∃ c ∈ db.cycles, c.Owns e.toEventKey

/-- One effect settles an event, hands it out, or keeps it. -/
theorem Effect.events_evolve (h : Effect config now P db db') :
    ∃ rowId, Table.Evolves (Effect.EventStep config now P db db' rowId)
      (Effect.EventNew now P db db') db.events db'.events := by
  have hrefl (rowId : Uuid) (e : EventRow) : Effect.EventStep config now P db db' rowId e e :=
    Or.inl (.refl e)
  cases h with
  | outbox hstep =>
    rw [hstep.events_eq]
    exact ⟨db.nextUuid, .refl (hrefl _) _⟩
  | insertEvent hinsert hid hnew hsound howned htaken =>
    exact ⟨db.nextUuid, .insert (hrefl _) 
      ⟨htaken, hnew, ⟨hid, Nat.lt_succ_self _⟩, hsound, howned⟩ hinsert⟩
  | activatePending =>
    refine ⟨db.nextUuid, ?_⟩
    rw [activatePending_events]
    exact .refl (hrefl _) _
  | @claim j _ _ _ _ htaken =>
    exact ⟨j.event.id, .update (hrefl _) fun e _ hw ↦
      Or.inr ⟨htaken, hw.1, ⟨hw.2, rfl, rfl, rfl, rfl, rfl, rfl, rfl⟩, Nat.lt_succ_self _⟩⟩
  | settle w a hsettles _ =>
    exact ⟨db.nextUuid, .update (hrefl _) fun e he hw ↦ Or.inl (hsettles e he hw)⟩
  | @supersede j hlinked hseq hreason =>
    refine ⟨db.nextUuid, .update (hrefl _) fun e he hid ↦
      Or.inl (closeEvent_settles (by decide) ?_)⟩
    rw [hlinked.eq_event he hid]
    rcases hreason with ⟨-, -, hdue⟩ | ⟨hproc, -⟩
    · exact hdue.isOpen
    · exact EventRow.isOpen_of_processing hproc
  | wait hlinked _ hdue _ =>
    refine ⟨db.nextUuid, .update (hrefl _) fun e he hid ↦
      Or.inl (closeEvent_settles (by decide) ?_)⟩
    rw [hlinked.eq_event he hid]
    exact hdue.isOpen
  | _ => exact ⟨db.nextUuid, .refl (hrefl _) _⟩

theorem Effect.EventStep.key_eq {rowId : Uuid} {e e' : EventRow}
    (h : Effect.EventStep config now P db db' rowId e e') : e'.toEventKey = e.toEventKey := by
  rcases h with h | ⟨-, -, h, -⟩
  · exact h.key_eq
  · exact h.key_eq

theorem Effect.issued_le (h : Effect config now P db db') : db.issued ≤ db'.issued := by
  cases h with
  | outbox hstep => exact hstep.issued_le
  | insertSession => exact Nat.le_succ _
  | insertCycle => exact Nat.le_succ _
  | insertEvent => exact Nat.le_succ _
  | claim => exact Nat.le_succ _
  | activatePending => rw [activatePending_issued]
  | _ => exact le_refl _

theorem EventRow.Settles.eq_of_closed {e e' : EventRow} (h : e.Settles e')
    (hclosed : e.status.isOpen = false) : e' = e := by
  rcases h.change with heq | ⟨hopen, -⟩ | ⟨hproc, -⟩
  · exact heq
  · simp [hclosed] at hopen
  · simp [hproc, EventStatus.isOpen] at hclosed

/-- An event that is processed after it settled was so before, under the same claim. -/
theorem EventRow.Settles.of_processing {e e' : EventRow} (h : e.Settles e')
    (hproc : e'.status = .processing) :
    e.status = .processing ∧ e'.claimToken = e.claimToken ∧
      e'.claimedFenceVersion = e.claimedFenceVersion := by
  rcases h.change with rfl | ⟨-, hreleased⟩ | ⟨hstatus, t, rfl⟩
  · exact ⟨hproc, rfl, rfl⟩
  · exact absurd hproc hreleased.status
  · exact ⟨hstatus, rfl, rfl⟩

/-- Without an admission, every event was stored before, and open ones were open. -/
theorem Effects.events_back (h : Effects config now P db db') (hbatch : ¬P .admission) :
    ∀ e' ∈ db'.events, ∃ e ∈ db.events, e.toEventKey = e'.toEventKey ∧
      (e'.status.isOpen = true → e.status.isOpen = true) := by
  refine invariant_chain (I := fun d ↦ ∀ e' ∈ d.events, ∃ e ∈ db.events,
    e.toEventKey = e'.toEventKey ∧ (e'.status.isOpen = true → e.status.isOpen = true))
    (fun d d' heff hd e' he' ↦ ?_) h fun e he ↦ ⟨e, he, rfl, id⟩
  obtain ⟨rowId, hevents⟩ := heff.events_evolve
  rcases hevents.backward e' he' with ⟨e, he, hstep⟩ | ⟨hP, -⟩
  · obtain ⟨e₀, he₀, hkey₀, hopen₀⟩ := hd e he
    refine ⟨e₀, he₀, hkey₀.trans hstep.key_eq.symm, fun hopen ↦ hopen₀ ?_⟩
    rcases hstep with hsettles | ⟨-, -, hclaims, -⟩
    · by_contra hclosed
      rw [Bool.not_eq_true] at hclosed
      rw [hsettles.eq_of_closed hclosed, hclosed] at hopen
      exact Bool.false_ne_true hopen
    · exact hclaims.due.isOpen
  · exact absurd hP hbatch

/-- Without a claim, an event that is processed was so before, under the same claim. -/
theorem Effects.processing_back (h : Effects config now P db db') (hclaim : ¬P .claim) :
    ∀ e' ∈ db'.events, e'.status = .processing → ∃ e ∈ db.events, e.status = .processing ∧
      e.toEventKey = e'.toEventKey ∧ e.claimToken = e'.claimToken ∧
      e.claimedFenceVersion = e'.claimedFenceVersion := by
  refine invariant_chain (I := fun d ↦ ∀ e' ∈ d.events, e'.status = .processing →
    ∃ e ∈ db.events, e.status = .processing ∧ e.toEventKey = e'.toEventKey ∧
      e.claimToken = e'.claimToken ∧ e.claimedFenceVersion = e'.claimedFenceVersion)
    (fun d d' heff hd e' he' hproc ↦ ?_) h fun e he hproc ↦ ⟨e, he, hproc, rfl, rfl, rfl⟩
  obtain ⟨rowId, hevents⟩ := heff.events_evolve
  rcases hevents.backward e' he' with ⟨e, he, hsettles | ⟨hP, -⟩⟩ | ⟨-, hnew, -⟩
  · obtain ⟨hproc', htoken, hfence⟩ := hsettles.of_processing hproc
    obtain ⟨e₀, he₀, hproc₀, hkey₀, htoken₀, hfence₀⟩ := hd e he hproc'
    exact ⟨e₀, he₀, hproc₀, hkey₀.trans hsettles.key_eq.symm, htoken₀.trans htoken.symm,
      hfence₀.trans hfence.symm⟩
  · exact absurd hP hclaim
  · exact absurd hproc hnew.status

end LlmGateway
