import LlmGateway.Effect.Cursor
import LlmGateway.Guarantees.Recovery
import LlmGateway.System.Scenario

/-!
# The life of the rows

Along a run no row is lost and none changes its identity. An event that is closed is never touched
again, and its attempts only grow until then. A decision that was sent or given up can only be
rejected or given to an operator. The outcome of a call, once recorded, stays, unless the call is
given to an operator, which is final; so is the outcome of a tracked action.
-/

namespace LlmGateway

open Relational

variable {config : SystemConfig} {w : World} {db db' db'' : Db}

/-- The outcome of a call that has come to an end stays, or an operator takes the call over. -/
structure CallRow.Holds (k k' : CallRow) : Prop where
  key_eq : k'.toCallKey = k.toCallKey
  ended : k.status.isRunning = false →
    (k'.terminal = k.terminal ∧ k'.terminalEventId = k.terminalEventId) ∨ k'.status = .manual
  manual : k.status = .manual → k'.status = .manual

namespace CallRow.Holds

theorem refl (k : CallRow) : k.Holds k := ⟨rfl, fun _ ↦ Or.inl ⟨rfl, rfl⟩, id⟩

theorem trans {k k' k'' : CallRow} (h : k.Holds k') (h' : k'.Holds k'') : k.Holds k'' where
  key_eq := h'.key_eq.trans h.key_eq
  ended hended := by
    rcases h.ended hended with ⟨hterminal, hevent⟩ | hmanual
    · have hstatus : k'.status = k.status := congrArg TerminalRecord.status hterminal
      refine (h'.ended (hstatus ▸ hended)).imp_left fun hkept ↦ ?_
      exact ⟨hkept.1.trans hterminal, hkept.2.trans hevent⟩
    · exact Or.inr (h'.manual hmanual)
  manual hmanual := h'.manual (h.manual hmanual)

/-- A call that is running may end in any way. -/
theorem of_running {k k' : CallRow} (hkey : k'.toCallKey = k.toCallKey)
    (hrunning : k.status.isRunning = true) : k.Holds k' := by
  refine ⟨hkey, fun hended ↦ ?_, fun hmanual ↦ ?_⟩
  · rw [hrunning] at hended
    cases hended
  · rw [hmanual] at hrunning
    cases hrunning

theorem of_manual {k k' : CallRow} (hkey : k'.toCallKey = k.toCallKey)
    (hmanual : k'.status = .manual) : k.Holds k' :=
  ⟨hkey, fun _ ↦ Or.inr hmanual, fun _ ↦ hmanual⟩

end CallRow.Holds

/-- What a transaction may do to the calls. -/
def Db.CallsHold (db db' : Db) : Prop :=
  Table.Evolves CallRow.Holds (fun _ ↦ True) db.calls db'.calls

namespace Db.CallsHold

theorem of_eq (h : db'.calls = db.calls) : db.CallsHold db' := by
  rw [CallsHold, h]
  exact .refl CallRow.Holds.refl _

theorem refl (db : Db) : db.CallsHold db := of_eq rfl

theorem trans (h : db.CallsHold db') (h' : db'.CallsHold db'') : db.CallsHold db'' :=
  Table.Evolves.trans (fun h h' ↦ h.trans h') (fun _ _ ↦ trivial) h h'

theorem update {w : CallRow → Prop} [DecidablePred w] {a : Assignment CallRow}
    (hset : ∀ k ∈ db.calls, w k → k.Holds (a.set k)) : db.CallsHold (db.updateCalls w a) :=
  Table.Evolves.update CallRow.Holds.refl hset

theorem insert (row : CallRow) : db.CallsHold (db.insertCall row) := by
  cases calls_of_insertCall row with
  | inl heq => exact of_eq heq
  | inr hinsert => exact Table.Evolves.insert CallRow.Holds.refl trivial hinsert

/-! ### Transactions -/

variable {now : ℕ}

theorem applyEffect {callId : Uuid} {trackingId : Option Uuid} {status : CallStatus}
    (h : LlmGateway.applyEffect callId trackingId status db = .ok db') : db.CallsHold db' := by
  unfold LlmGateway.applyEffect at h
  split at h
  · cases h
    exact .refl db
  · obtain ⟨applied, happlied, h⟩ := bind_eq_ok_iff.1 h
    split_ifs at h
    cases h
    obtain ⟨tracked, -, -, rfl⟩ := applyTerminalEffect_cases happlied
    exact .trans (of_eq rfl) (.update fun k _ _ ↦ ⟨rfl, fun _ ↦ Or.inl ⟨rfl, rfl⟩, id⟩)

theorem recordSkillStarted (c : ClaimedEvent) (payload : SkillStartedPayload) :
    db.CallsHold (LlmGateway.recordSkillStarted now c payload db).2 := by
  unfold LlmGateway.recordSkillStarted
  split
  · exact .refl db
  · exact .insert _
  · split
    · exact .update fun k _ hw ↦ .of_running rfl (by rw [hw.2]; rfl)
    · exact .refl db
    · exact .refl db

theorem recordSkillFinished {c : ClaimedEvent} {payload : SkillFinishedPayload}
    {result : MutationResult}
    (h : LlmGateway.recordSkillFinished now c payload db = .ok (result, db')) :
    db.CallsHold db' := by
  unfold LlmGateway.recordSkillFinished at h
  simp only at h
  split at h
  · cases h
    exact .refl db
  · split at h
    · obtain ⟨applied, happlied, h⟩ := bind_eq_ok_iff.1 h
      cases h
      exact .trans (.insert _) (.applyEffect happlied)
    · split at h
      · cases h
        exact .refl db
      · cases h
        exact .update fun _ _ _ ↦ .of_manual rfl rfl
      · obtain ⟨applied, happlied, h⟩ := bind_eq_ok_iff.1 h
        cases h
        exact .trans (.update fun _ _ hw ↦ .of_running rfl hw.2) (.applyEffect happlied)

theorem finishOpenCall {c : ClaimedEvent} {reason : String} {open_ : OpenCall}
    (h : LlmGateway.finishOpenCall c reason db open_ = .ok db') : db.CallsHold db' := by
  have hfinish {t : Db} {status : CallStatus} {terminalEventId : Option Uuid} {text : String}
      {effectStatus : EffectStatus} : t.CallsHold
        (t.finishStopCall open_.call.id status terminalEventId text effectStatus) :=
    .update fun _ _ hw ↦ .of_running rfl hw.2
  unfold LlmGateway.finishOpenCall at h
  split at h
  · cases h
    exact hfinish
  · split at h
    · cases h
      exact hfinish
    · obtain ⟨applied, happlied, h⟩ := bind_eq_ok_iff.1 h
      cases h
      obtain ⟨tracked, -, -, rfl⟩ := applyTerminalEffect_cases happlied
      exact .trans (of_eq rfl) hfinish

theorem closeGeneration {c : ClaimedEvent} {payload : SessionStoppedPayload}
    {result : MutationResult} (h : LlmGateway.closeGeneration c payload db = .ok (result, db')) :
    db.CallsHold db' := by
  unfold LlmGateway.closeGeneration at h
  split at h
  · cases h
    exact .refl db
  · simp only at h
    split at h
    · cases h
      refine .trans (of_eq rfl) (List.foldlRecOn _ _ (.refl _) fun t ht o _ ↦ ht.trans ?_)
      exact .update fun _ _ hw ↦ .of_running rfl hw.2
    · obtain ⟨finished, hfinished, h⟩ := bind_eq_ok_iff.1 h
      split_ifs at h
      cases h
      have hcalls := foldlM_invariant (I := (db.cancelUnsentDecisions c.cycleId).CallsHold)
        (fun s o _ s' hs hstep ↦ hs.trans (.finishOpenCall hstep)) (.refl _) hfinished
      exact .trans (of_eq rfl) (hcalls.trans (of_eq rfl))

theorem discardStaleEvents {staleAfterMs : Option ℕ}
    (h : LlmGateway.discardStaleEvents staleAfterMs now db = .ok db') : db.CallsHold db' := by
  have hrow (t : Db) (j : Joined) : t.CallsHold (discardRow t j) := by
    have hcancel : t.CallsHold (((t.markStaleEvent j.event.id).cancelStaleDecisions
        j.event.id).cancelStaleSkillCalls j.event.id) :=
      .trans (of_eq rfl) (.update fun _ _ hw ↦ .of_running rfl hw.1)
    unfold discardRow
    split_ifs
    · exact hcancel.trans (of_eq rfl)
    · exact hcancel
    · exact .refl t
  unfold LlmGateway.discardStaleEvents at h
  split at h
  · cases h
    exact .refl db
  · split_ifs at h
    cases h
    refine invariant_iterate (I := db.CallsHold) (fun t t' hbody ht ↦ ?_) (.refl db)
    unfold discardBody at hbody
    split_ifs at hbody
    obtain rfl := Option.some.inj hbody
    exact List.foldlRecOn _ _ ht fun u hu j _ ↦ hu.trans (hrow u j)

theorem stopIdleSessions (idleTimeoutMs : Option ℕ) :
    db.CallsHold (LlmGateway.stopIdleSessions idleTimeoutMs now db) := by
  have hrow (t : Db) (session : SessionRow) : t.CallsHold (stopIdleRow t session) :=
    .trans (of_eq rfl) (.trans (.update fun _ _ hw ↦ .of_running rfl hw.1) (of_eq rfl))
  unfold LlmGateway.stopIdleSessions
  split
  · exact .refl db
  · exact List.foldlRecOn _ _ (.refl db) fun t ht session _ ↦ ht.trans (hrow t session)

end Db.CallsHold

namespace World

theorem withClaim_callsHold {token : Uuid} {f : ClaimedEvent → World}
    (h : ∀ c, w.db.CallsHold (f c).db) : w.db.CallsHold (w.withClaim token f).db := by
  unfold withClaim
  cases w.claim? token with
  | none => exact .refl w.db
  | some c => exact h c

theorem commit_callsHold {α : Type*} {result : Except Failure (α × Db)}
    (h : ∀ a db', result = .ok (a, db') → w.db.CallsHold db') :
    w.db.CallsHold (w.commit result).db := by
  unfold commit
  split
  · rename_i a db'
    exact h a db' rfl
  · exact .refl w.db

theorem recordTerminal_callsHold (c : ClaimedEvent) : w.db.CallsHold (w.recordTerminal c).db := by
  unfold recordTerminal
  split
  · exact .recordSkillStarted c _
  · exact commit_callsHold fun _ _ h ↦ .recordSkillFinished h
  · exact .of_eq (mergeDecisionRejected_calls c _)
  · exact commit_callsHold fun _ _ h ↦ .closeGeneration h
  · exact .refl w.db

/-- One transaction keeps the outcomes of the calls. -/
theorem exec_callsHold (hw : w.Reachable config) (a : Action) :
    w.db.CallsHold (w.exec config a).db := by
  cases a with
  | record token => exact withClaim_callsHold recordTerminal_callsHold
  | discard =>
    simp only [exec, discard]
    split
    · rename_i h
      exact .discardStaleEvents h
    · exact .refl w.db
  | stopIdle => exact .stopIdleSessions config.sessionIdleTimeoutMs
  | recordResponse token response =>
    simp only [exec, withDecisionClaim]
    cases hclaim : w.decisionClaim? token with
    | none => exact .refl w.db
    | some c =>
      refine commit_callsHold fun _ _ h ↦ ?_
      have hdesc := hw.sound.decisionClaims c (List.mem_of_find?_eq_some hclaim)
      refine (recordDecisionResponse_calls hw.callsSound hdesc h).mono ?_ fun _ _ ↦ trivial
      rintro k k' ⟨hkey, rfl | ⟨-, hmanual⟩⟩
      · exact .refl k'
      · exact .of_manual hkey hmanual
  | _ =>
    refine .of_eq (exec_calls id (fun token h ↦ ?_) fun token response h ↦ ?_)
    · cases h
    · cases h

end World

/-! ## All rows -/

/-- The cursor of a cycle moves forward, and a cycle whose generation was current does not open
again. -/
structure CycleRow.Continues (db : Db) (c c' : CycleRow) : Prop where
  key_eq : c'.toCycleKey = c.toCycleKey
  cursor_le : c.nextEventSequence ≤ c'.nextEventSequence
  ended : db.Reached c.gatewayId c.sessionId c.controlGeneration →
    c.status.isOpen = false → c'.status.isOpen = false

/-- A later version of an event was tried at least as often. -/
structure EventRow.Continues (e e' : EventRow) : Prop extends e.Later e' where
  attempts_le : e.attemptCount ≤ e'.attemptCount

/-- No row is lost, and each of them is changed only in ways that its life allows. -/
structure Db.Continues (db db' : Db) : Prop where
  sessions : ∀ s ∈ db.sessions, ∃ s' ∈ db'.sessions, s.Grows s'
  cycles : ∀ c ∈ db.cycles, ∃ c' ∈ db'.cycles, CycleRow.Continues db c c'
  events : ∀ e ∈ db.events, ∃ e' ∈ db'.events, e.Continues e'
  decisions : ∀ d ∈ db.decisions, ∃ d' ∈ db'.decisions, d'.toDecisionKey = d.toDecisionKey ∧
    d.status.Next d'.status
  calls : ∀ k ∈ db.calls, ∃ k' ∈ db'.calls, k.Holds k'
  tracking : ∀ a ∈ db.tracking, ∃ a' ∈ db'.tracking, a.Proceeds a'

/-- Related rows of related tables. -/
theorem forward_trans {ρ : Type*} [Keyed ρ] {R S T : ρ → ρ → Prop} {t t' t'' : Table ρ}
    (htrans : ∀ a b c, R a b → S b c → T a c) (h : ∀ a ∈ t, ∃ b ∈ t', R a b)
    (h' : ∀ b ∈ t', ∃ c ∈ t'', S b c) : ∀ a ∈ t, ∃ c ∈ t'', T a c := by
  intro a ha
  obtain ⟨b, hb, hR⟩ := h a ha
  obtain ⟨c, hc, hS⟩ := h' b hb
  exact ⟨c, hc, htrans a b c hR hS⟩

theorem EventRow.Continues.trans {e e' e'' : EventRow} (h : e.Continues e')
    (h' : e'.Continues e'') : e.Continues e'' where
  key_eq := h'.key_eq.trans h.key_eq
  closed hclosed := by
    obtain rfl := h.closed hclosed
    exact h'.closed hclosed
  attempts_le := h.attempts_le.trans h'.attempts_le

theorem CycleRow.Continues.trans {c c' c'' : CycleRow} (h : CycleRow.Continues db c c')
    (hlater : db.Later db') (h' : CycleRow.Continues db' c' c'') :
    CycleRow.Continues db c c'' where
  key_eq := h'.key_eq.trans h.key_eq
  cursor_le := h.cursor_le.trans h'.cursor_le
  ended hreached hended := by
    have hreached' : db'.Reached c'.gatewayId c'.sessionId c'.controlGeneration := by
      have hkey := h.key_eq
      rw [congrArg CycleKey.gatewayId hkey, congrArg CycleKey.sessionId hkey,
        congrArg CycleKey.controlGeneration hkey]
      exact hlater.reached hreached
    exact h'.ended hreached' (h.ended hreached hended)

/-! ### Effects -/

section Effects

variable {worker : WorkerConfig} {now : ℕ} {P : Branch → Prop}

theorem Effects.cycles_continue (h : Effects worker now P db db')
    (hreached : db.GenerationsReached) :
    ∀ c ∈ db.cycles, ∃ c' ∈ db'.cycles, CycleRow.Continues db c c' := by
  induction h with
  | refl => exact fun c hc ↦ ⟨c, hc, rfl, le_rfl, fun _ ↦ id⟩
  | @tail t t' hchain hlast ih =>
    have hlater : db.Later t := Effects.later hchain
    have hproc : t.ProcessingReached :=
      (invariant_chain (fun _ _ heff ↦ heff.generationsReached) hchain hreached).processing
    refine forward_trans (R := CycleRow.Continues db) (S := CycleRow.Continues t)
      (fun _ _ _ h h' ↦ h.trans hlater h') ih fun c hc ↦ ?_
    obtain ⟨c', hc', hkey, hcursor⟩ := (hlast.cursor_change hproc).forward c hc
    refine ⟨c', hc', hkey, hcursor.cursor_le, fun hreached hended ↦ ?_⟩
    cases hcursor with
    | stays _ hopens =>
      rw [Bool.eq_false_iff]
      intro hopen
      cases hopens hopen with
      | inl hbefore =>
        rw [hended] at hbefore
        cases hbefore
      | inr hnot => exact hnot hreached
    | passes hstatus _ _ => rwa [hstatus]
    | closes hclosed _ _ => exact hclosed

theorem Effects.events_continue (h : Effects worker now P db db') :
    ∀ e ∈ db.events, ∃ e' ∈ db'.events, e.Continues e' := by
  induction h with
  | refl => exact fun e he ↦ ⟨e, he, ⟨rfl, fun _ ↦ rfl⟩, le_rfl⟩
  | tail _ hlast ih =>
    refine forward_trans (R := EventRow.Continues) (fun _ _ _ h h' ↦ h.trans h') ih fun e he ↦ ?_
    obtain ⟨rowId, hevents⟩ := hlast.events_evolve
    obtain ⟨e', he', hstep⟩ := hevents.forward e he
    cases hstep with
    | inl hsettles =>
      exact ⟨e', he', ⟨hsettles.key_eq, hsettles.eq_of_closed⟩, hsettles.attempts_eq.ge⟩
    | inr hclaims =>
      obtain ⟨-, -, hclaims, -⟩ := hclaims
      refine ⟨e', he', ⟨hclaims.key_eq, fun hclosed ↦ ?_⟩, ?_⟩
      · rw [hclaims.due.isOpen] at hclosed
        cases hclosed
      · rw [hclaims.attempts]
        exact Nat.le_succ _

end Effects

/-! ### Runs -/

namespace Db.Continues

theorem refl (db : Db) : db.Continues db where
  sessions s hs := ⟨s, hs, .refl s⟩
  cycles c hc := ⟨c, hc, rfl, le_rfl, fun _ ↦ id⟩
  events e he := ⟨e, he, ⟨rfl, fun _ ↦ rfl⟩, le_rfl⟩
  decisions d hd := ⟨d, hd, rfl, Or.inl rfl⟩
  calls k hk := ⟨k, hk, .refl k⟩
  tracking a ha := ⟨a, ha, .refl a⟩

theorem later (h : db.Continues db') : db.Later db' where
  sessions := h.sessions
  cycles c hc := by
    obtain ⟨c', hc', hcontinues⟩ := h.cycles c hc
    exact ⟨c', hc', hcontinues.key_eq⟩
  events e he := by
    obtain ⟨e', he', hcontinues⟩ := h.events e he
    exact ⟨e', he', hcontinues.toLater⟩

theorem trans (h : db.Continues db') (h' : db'.Continues db'') : db.Continues db'' where
  sessions := forward_trans (fun _ _ _ h h' ↦ h.trans h') h.sessions h'.sessions
  cycles := forward_trans (R := CycleRow.Continues db) (S := CycleRow.Continues db')
    (fun _ _ _ hR hS ↦ hR.trans h.later hS) h.cycles h'.cycles
  events := forward_trans (fun _ _ _ h h' ↦ h.trans h') h.events h'.events
  decisions := forward_trans (fun _ _ _ hR hS ↦ ⟨hS.1.trans hR.1, hR.2.trans hS.2⟩) h.decisions
    h'.decisions
  calls := forward_trans (fun _ _ _ h h' ↦ h.trans h') h.calls h'.calls
  tracking := forward_trans (fun _ _ _ h h' ↦ h.trans h') h.tracking h'.tracking

end Db.Continues

namespace World

/-- One transaction continues the life of every row. -/
theorem exec_continues (hw : w.Reachable config) (a : Action) :
    w.db.Continues (w.exec config a).db := by
  have heffects := exec_effects (a := a) (P := fun _ ↦ True) hw.sound fun _ _ ↦ trivial
  have hdelivers := exec_delivers config w a
  refine ⟨heffects.later.sessions, Effects.cycles_continue heffects hw.sound.reached,
    Effects.events_continue heffects, fun d hd ↦ ?_, (exec_callsHold hw a).forward,
    hdelivers.tracking.forward⟩
  obtain ⟨d', hd', hstep⟩ := hdelivers.decisions.forward d hd
  exact ⟨d', hd', hstep.key_eq, hstep.next⟩

/-- Along a run no row is lost: generations and cursors grow, a cycle that ended does not open
again, a closed event stays as it is, no event is tried too often, and no outcome is taken
back. -/
theorem run_continues (hw : w.Reachable config) (actions : List Action) :
    w.db.Continues (run (exec config) w actions).db ∧
      ∀ e ∈ (run (exec config) w actions).db.events,
        e.attemptCount ≤ config.events.maxAttempts := by
  refine ⟨?_, fun e he ↦ ((hw.run actions).sound.shape e he).attempts⟩
  exact rel_run (R := fun v u : World ↦ v.db.Continues u.db) (fun v ↦ .refl v.db)
    (fun h h' ↦ h.trans h') (fun _ a hv ↦ exec_continues hv a) (fun _ a hv ↦ hv.run [a]) hw
    actions

section Example

open Scenario

/-- However the run goes on, a dance that has succeeded stays so, or is given to an operator. -/
theorem run_continues_dance : ∃ k ∈ (after danceFinished).db.calls, k.status = .succeeded ∧
    ∀ actions, ∃ k' ∈ (run (exec Scenario.config) (after danceFinished) actions).db.calls,
      k'.toCallKey = k.toCallKey ∧ (k'.status = .succeeded ∨ k'.status = .manual) := by
  have hclosed : ∃ k ∈ (after danceFinished).db.calls, k.status = .succeeded := by
    decide
  obtain ⟨k, hk, hstatus⟩ := hclosed
  refine ⟨k, hk, hstatus, fun actions ↦ ?_⟩
  have hcontinues := (run_continues (reachable_after (fun _ ↦ 0) danceFinished) actions).1
  obtain ⟨k', hk', hholds⟩ := hcontinues.calls k hk
  refine ⟨k', hk', hholds.key_eq, (hholds.ended (by rw [hstatus]; rfl)).imp_left fun hkept ↦ ?_⟩
  exact (congrArg TerminalRecord.status hkept.1).trans hstatus

end Example

end World

end LlmGateway
