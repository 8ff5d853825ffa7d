import LlmGateway.Effect.Integrity

/-!
# Why a row changes

An effect changes the generation or fence of a session, the status of a cycle, or an event,
for one of a few reasons. The inversion lemmas of this module list them row by row, together
with what the transaction has checked.
-/

namespace LlmGateway

open Relational

variable {config : WorkerConfig} {now : ℕ} {P : Branch → Prop} {db db' : Db}

/-! ## Sessions -/

/-- How an effect may change a session. -/
inductive SessionChange (P : Branch → Prop) (db db' : Db) (s s' : SessionRow) : Prop
  | keeps (generation_eq : s'.currentGeneration = s.currentGeneration)
      (fence_eq : s'.fenceVersion = s.fenceVersion)
  | raised (generation_eq : s'.currentGeneration = s.currentGeneration)
      (quiet : db.Quiet s ∨ ∃ j, P (.discard j)) (events_eq : db'.events = db.events)
  | activated (j : Joined) (linked : db.Linked j) (disposition : j.disposition = .activateNew)
      (db_eq : db' = activateNew j db) (session_eq : s = j.session)
      (generation_eq : s'.currentGeneration = some j.event.controlGeneration)

theorem Effect.sessions_change (h : Effect config now P db db') :
    Table.Evolves (fun s s' ↦ s'.toSessionKey = s.toSessionKey ∧ SessionChange P db db' s s')
      SessionRow.New db.sessions db'.sessions := by
  have hrefl (s : SessionRow) : s.toSessionKey = s.toSessionKey ∧ SessionChange P db db' s s :=
    ⟨rfl, .keeps rfl rfl⟩
  cases h with
  | outbox hstep =>
    rw [hstep.sessions_eq]
    exact .refl hrefl _
  | insertSession hinsert _ hnew _ => exact .insert hrefl hnew hinsert
  | touch w a hkeeps =>
    exact .update hrefl fun s hs hw ↦ ⟨a.key_set s, .keeps (hkeeps s hs hw).1 (hkeeps s hs hw).2⟩
  | raiseFence w a hkeeps hquiet =>
    exact .update hrefl fun s hs hw ↦
      ⟨a.key_set s, .raised (hkeeps s hs hw) (hquiet s hs hw) rfl⟩
  | @activate j hlinked hdisp =>
    exact .update hrefl fun s hs hid ↦
      ⟨rfl, .activated j hlinked hdisp rfl (hlinked.eq_session hs hid) rfl⟩
  | @activatePending j _ _ _ =>
    unfold LlmGateway.activatePending
    split_ifs
    · exact .update (fun s ↦ ⟨rfl, .keeps rfl rfl⟩) fun s _ _ ↦ ⟨rfl, .keeps rfl rfl⟩
    · exact .refl (fun s ↦ ⟨rfl, .keeps rfl rfl⟩) _
  | _ => exact .refl hrefl _

/-! ## Cycles -/

/-- The reasons for which a locked event is superseded. -/
def Joined.SupersedeReason (j : Joined) (P : Branch → Prop) : Prop :=
  (j.disposition = .stale ∧ j.InClaimOrder) ∨
    (j.event.status = .processing ∧ ¬j.ClaimValid j.event.claimedFenceVersion ∧ P (.fenced j))

/-- How an effect may change the status and the cursor of a cycle. -/
inductive CycleChange (P : Branch → Prop) (db db' : Db) (c c' : CycleRow) : Prop
  | keeps (status_eq : c'.status = c.status)
      (cursor : c'.nextEventSequence = c.nextEventSequence ∨
        db.Reached c.gatewayId c.sessionId c.controlGeneration ∨ 1 < c.nextEventSequence)
  | activated (j : Joined) (linked : db.Linked j) (disposition : j.disposition = .activateNew)
      (db_eq : db' = activateNew j db) (cycle_eq : c = j.cycle) (status_eq : c'.status = .active)
  | outdated (j : Joined) (linked : db.Linked j) (disposition : j.disposition = .activateNew)
      (db_eq : db' = activateNew j db) (session_eq : c.runtimeSessionId = j.session.id)
      (older : c.controlGeneration < j.event.controlGeneration)
      (status_eq : c'.status = .superseded) (open_ : c.status = .pending ∨ c.status = .active)
  | opened (j : Joined) (linked : db.Linked j) (disposition : j.disposition = .current)
      (chat : j.event.eventType.isHostedChat = true → P (.chatActivation j))
      (cycle_eq : c = j.cycle) (pending : c.status = .pending) (status_eq : c'.status = .active)
      (cursor_eq : c'.nextEventSequence = c.nextEventSequence)
  | superseded (j : Joined) (linked : db.Linked j)
      (sequenced : j.event.eventType.isHostedChat = false) (reason : j.SupersedeReason P)
      (cycle_eq : c = j.cycle) (cursor : c.nextEventSequence = j.event.eventSequence)
      (status_eq : c'.status =
        if j.event.eventType = .sessionStopped then .stopped else .superseded)
  | waited (j : Joined) (linked : db.Linked j) (disposition : j.disposition = .wait)
      (taken : P (.wait j)) (cycle_eq : c = j.cycle) (status_eq : c'.status = .manual)
  | manual (j : Joined) (current : db.Current c.gatewayId c.sessionId c.controlGeneration)
      (taken : P (.manual j)) (cycle_eq : c = j.cycle) (status_eq : c'.status = .manual)
  | closed (current : db.Current c.gatewayId c.sessionId c.controlGeneration)
      (open_ : c.status = .pending ∨ c.status = .active) (status_eq : c'.status = .stopped)

theorem Effect.cycles_change (h : Effect config now P db db') :
    Table.Evolves (fun c c' ↦ c'.toCycleKey = c.toCycleKey ∧ CycleChange P db db' c c')
      CycleRow.New db.cycles db'.cycles := by
  have hrefl (c : CycleRow) : c.toCycleKey = c.toCycleKey ∧ CycleChange P db db' c c :=
    ⟨rfl, .keeps rfl (Or.inl rfl)⟩
  cases h with
  | outbox hstep =>
    rw [hstep.cycles_eq]
    exact .refl hrefl _
  | insertCycle hinsert _ hnew _ _ => exact .insert hrefl hnew hinsert
  | @activate j hlinked hdisp =>
    refine ⟨fun c hc ↦ ?_, fun c' hc' ↦ Or.inl ?_⟩
    · by_cases hold : c.runtimeSessionId = j.session.id ∧ c.id ≠ j.event.cycleId ∧
          c.controlGeneration < j.event.controlGeneration ∧
          (c.status = .pending ∨ c.status = .active)
      · refine ⟨{ c with status := .superseded }, ?_, rfl,
          .outdated j hlinked hdisp rfl hold.1 hold.2.2.1 rfl hold.2.2.2⟩
        exact Table.mem_update_of_not (Table.set_mem_update (a := Db.setCycleStatus .superseded)
          hc hold) hold.2.1
      · by_cases hid : c.id = j.event.cycleId
        · refine ⟨{ c with status := .active }, ?_, rfl,
            .activated j hlinked hdisp rfl (hlinked.eq_cycle hc hid) rfl⟩
          exact Table.set_mem_update (a := Db.setCycleStatus .active)
            (Table.mem_update_of_not hc hold) hid
        · exact ⟨c, Table.mem_update_of_not (Table.mem_update_of_not hc hold) hid, hrefl c⟩
    · rcases Table.mem_update.1 hc' with ⟨c, hc, hid, rfl⟩ | ⟨hc', hid⟩
      · rcases Table.mem_update.1 hc with ⟨c, hc, hw, rfl⟩ | ⟨hc, -⟩
        · exact absurd hid hw.2.1
        · exact ⟨c, hc, rfl, .activated j hlinked hdisp rfl (hlinked.eq_cycle hc hid) rfl⟩
      · rcases Table.mem_update.1 hc' with ⟨c, hc, hw, rfl⟩ | ⟨hc, -⟩
        · exact ⟨c, hc, rfl, .outdated j hlinked hdisp rfl hw.1 hw.2.2.1 rfl hw.2.2.2⟩
        · exact ⟨c', hc, hrefl c'⟩
  | @activatePending j hlinked hdisp hchat =>
    have hrefl' (c : CycleRow) : c.toCycleKey = c.toCycleKey ∧
        CycleChange P db (LlmGateway.activatePending j db) c c := ⟨rfl, .keeps rfl (Or.inl rfl)⟩
    by_cases hpending : j.cycle.status = .pending
    · have hcycles : (LlmGateway.activatePending j db).cycles =
          (db.activateCycle j.event.cycleId).cycles := by
        rw [LlmGateway.activatePending, if_pos hpending]
        rfl
      rw [hcycles]
      refine .update hrefl' fun c hc hid ↦ ⟨rfl, ?_⟩
      have heq := hlinked.eq_cycle hc hid
      exact .opened j hlinked hdisp (fun h ↦ hchat h hpending) heq (heq ▸ hpending) rfl rfl
    · have hcycles : (LlmGateway.activatePending j db).cycles = db.cycles := by
        rw [LlmGateway.activatePending, if_neg hpending]
      rw [hcycles]
      exact .refl hrefl' _
  | @supersede j hlinked hseq hreason =>
    refine .update hrefl fun c hc hw ↦ ⟨rfl, .superseded j hlinked hseq ?_
      (hlinked.eq_cycle hc hw.1) hw.2 ?_⟩
    · exact hreason.imp_left fun h ↦ ⟨h.1, h.2.1⟩
    · simp only [decide_eq_true_eq]
  | @wait j hlinked hdisp _ htaken =>
    exact .update hrefl fun c hc hid ↦
      ⟨rfl, .waited j hlinked hdisp htaken (hlinked.eq_cycle hc hid) rfl⟩
  | @markManual j hmem hcurrent htaken =>
    refine .update hrefl fun c hc hid ↦ ⟨rfl, ?_⟩
    obtain rfl := cycleRow_eq_of_id hc hmem hid
    exact .manual j hcurrent htaken rfl rfl
  | close w a hcloses hcurrent =>
    exact .update hrefl fun c hc hw ↦ ⟨a.key_set c,
      .closed (hcurrent c hc hw) (hcloses c hc hw).1 (hcloses c hc hw).2.1⟩
  | cursor w a hmoves hreached _ =>
    refine .update hrefl fun c hc hw ↦ ⟨a.key_set c, .keeps ?_ (Or.inr (hreached c hc hw))⟩
    obtain ⟨n, hset⟩ := hmoves c hc hw
    rw [hset]
  | context => exact .update hrefl fun c _ _ ↦ ⟨rfl, .keeps rfl (Or.inl rfl)⟩
  | _ => exact .refl hrefl _

/-! ## Events -/

/-- How an effect may change an event. -/
inductive EventChange (config : WorkerConfig) (now : ℕ) (P : Branch → Prop) (db : Db)
    (e e' : EventRow) : Prop
  | same (eq : e' = e)
  | settled (settles : e.Settles e') (may : db.MaySettle P e)
  | superseded (j : Joined) (linked : db.Linked j) (event_eq : e = j.event)
      (sequenced : e.eventType.isHostedChat = false) (reason : j.SupersedeReason P)
      (settles : e.Settles e')
  | waited (j : Joined) (linked : db.Linked j) (event_eq : e = j.event)
      (disposition : j.disposition = .wait) (taken : P (.wait j)) (settles : e.Settles e')
  | claimed (j : Joined) (linked : db.Linked j) (event_eq : e = j.event)
      (reached : e.eventType.isHostedChat = true ∨
        db.Reached e.gatewayId e.sessionId e.controlGeneration)
      (claims : e.Claims config now db.nextUuid e')
      (fence_eq : e'.claimedFenceVersion = some j.session.fenceVersion)

theorem EventChange.key_eq {e e' : EventRow} (h : EventChange config now P db e e') :
    e'.toEventKey = e.toEventKey := by
  cases h with
  | same eq => rw [eq]
  | settled settles _ => exact settles.key_eq
  | superseded _ _ _ _ _ settles => exact settles.key_eq
  | waited _ _ _ _ _ settles => exact settles.key_eq
  | claimed _ _ _ _ claims _ => exact claims.key_eq

theorem Effect.events_change (h : Effect config now P db db') :
    Table.Evolves (EventChange config now P db) (EventRow.New now) db.events db'.events := by
  have hrefl (e : EventRow) : EventChange config now P db e e := .same rfl
  cases h with
  | outbox hstep =>
    rw [hstep.events_eq]
    exact .refl hrefl _
  | insertEvent hinsert _ hnew _ _ _ => exact .insert hrefl hnew hinsert
  | activatePending =>
    rw [activatePending_events]
    exact .refl hrefl _
  | @claim j workerId hlinked hdue hreached _ =>
    refine .update hrefl fun e he hw ↦ ?_
    have heq := hlinked.eq_event he hw.1
    exact .claimed j hlinked heq (heq ▸ hreached) ⟨hw.2, rfl, rfl, rfl, rfl, rfl, rfl, rfl⟩ rfl
  | settle w a hsettles hmay =>
    exact .update hrefl fun e he hw ↦ .settled (hsettles e he hw) (hmay e he hw)
  | @supersede j hlinked hseq hreason =>
    refine .update hrefl fun e he hid ↦ ?_
    have heq := hlinked.eq_event he hid
    refine .superseded j hlinked heq (heq ▸ hseq) (hreason.imp_left fun h ↦ ⟨h.1, h.2.1⟩)
      (closeEvent_settles (by decide) ?_)
    rw [heq]
    rcases hreason with ⟨-, -, hdue⟩ | ⟨hproc, -⟩
    · exact hdue.isOpen
    · exact EventRow.isOpen_of_processing hproc
  | @wait j hlinked hdisp hdue htaken =>
    refine .update hrefl fun e he hid ↦ ?_
    have heq := hlinked.eq_event he hid
    exact .waited j hlinked heq hdisp htaken (closeEvent_settles (by decide) (heq ▸ hdue.isOpen))
  | _ => exact .refl hrefl _

/-! ## Decisions -/

/-- Apart from the transactions on decisions, an effect only cancels some. -/
theorem Effect.decisions_change (h : Effect config now P db db') : db.DecisionsEvolve db' := by
  have hrefl := DecisionRow.Moves.refl db
  cases h with
  | outbox hstep => exact hstep.decisions
  | activate =>
    exact .update hrefl fun d _ _ ↦ ⟨rfl, fun hunsent ↦ absurd hunsent Bool.false_ne_true⟩
  | @activatePending j _ _ _ =>
    unfold Db.DecisionsEvolve LlmGateway.activatePending
    split_ifs <;> exact .refl hrefl _
  | _ => exact .refl hrefl _

theorem Effect.tracked (heff : Effect config now P db db') (h : db.Tracked) : db'.Tracked := by
  have hissued := heff.issued_le
  cases heff with
  | outbox hstep => exact hstep.tracked h
  | activate => exact h.of_keys hissued fun _ hd ↦ Table.key_of_mem_update hd
  | activatePending =>
    refine h.of_keys hissued fun d hd ↦ ⟨d, ?_, rfl⟩
    unfold LlmGateway.activatePending at hd
    split_ifs at hd <;> exact hd
  | _ => exact h.of_keys hissued fun d hd ↦ ⟨d, hd, rfl⟩

theorem Effect.callsSound (heff : Effect config now P db db') (h : db.CallsSound) :
    db'.CallsSound := by
  have hissued := heff.issued_le
  have hdecisions (d : DecisionRow) (hd : d ∈ db.decisions) :
      ∃ d' ∈ db'.decisions, d'.toDecisionKey = d.toDecisionKey := by
    obtain ⟨d', hd', hmoves⟩ := heff.decisions_change.forward d hd
    exact ⟨d', hd', hmoves.1⟩
  cases heff with
  | outbox hstep => exact hstep.calls h
  | activatePending =>
    refine h.of_keys hissued hdecisions fun k hk ↦ ⟨k, ?_, rfl⟩
    unfold LlmGateway.activatePending at hk
    split_ifs at hk <;> exact hk
  | _ => exact h.of_keys hissued hdecisions fun k hk ↦ ⟨k, hk, rfl⟩

/-- The decisions stay, under their keys. -/
theorem Effects.decisions_forward (h : Effects config now P db db') :
    ∀ d ∈ db.decisions, ∃ d' ∈ db'.decisions, d'.toDecisionKey = d.toDecisionKey := by
  refine invariant_chain (I := fun t : Db ↦ ∀ d ∈ db.decisions, ∃ d' ∈ t.decisions,
    d'.toDecisionKey = d.toDecisionKey) (fun t t' heff ht d hd ↦ ?_) h fun d hd ↦ ⟨d, hd, rfl⟩
  obtain ⟨d', hd', hkey⟩ := ht d hd
  obtain ⟨d'', hd'', hmoves⟩ := heff.decisions_change.forward d' hd'
  exact ⟨d'', hd'', hmoves.1.trans hkey⟩

end LlmGateway
