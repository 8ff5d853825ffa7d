import LlmGateway.Effect.OutboxDelivery
import LlmGateway.Effect.Response

/-!
# The terminal events of calls

A call is explained when it is open and names no terminal event, or when it is closed and names a
`skill_finished` event of its session. The transactions that close a call without such an event
are the stop of a session, the stop of an idle session, the discarding of stale events, and a
response that names the call of another decision.
-/

namespace LlmGateway

open Relational

variable {config : WorkerConfig} {now : ℕ} {db db' : Db}

/-- The event tells how a skill of the session ended. -/
def EventKey.Finishes (e : EventKey) (k : CallKey) : Prop :=
  e.eventType = .skillFinished ∧ e.gatewayId = k.gatewayId ∧ e.sessionId = k.sessionId

/-- The status of the call and its terminal event agree. -/
structure Db.Explains (db : Db) (k : CallRow) : Prop where
  running : k.status.isRunning = true → k.terminalEventId = none
  closed : k.status.isRunning = false → ∃ e ∈ db.events, k.terminalEventId = some e.id ∧
    e.toEventKey.Finishes k.toCallKey

def Db.CallsExplained (db : Db) : Prop := ∀ k ∈ db.calls, db.Explains k

/-- The call stays open, or stays closed, with its terminal event. -/
structure CallRow.Retains (k k' : CallRow) : Prop where
  key_eq : k'.toCallKey = k.toCallKey
  terminal_eq : k'.terminalEventId = k.terminalEventId
  running_eq : k'.status.isRunning = k.status.isRunning

theorem CallRow.Retains.refl (k : CallRow) : k.Retains k := ⟨rfl, rfl, rfl⟩

theorem Db.Explains.retain {k k' : CallRow} (h : db.Explains k) (hretains : k.Retains k')
    (hevents : ∀ e ∈ db.events, ∃ e' ∈ db'.events, e'.toEventKey = e.toEventKey) :
    db'.Explains k' where
  running hrunning := by
    rw [hretains.terminal_eq]
    exact h.running (hretains.running_eq ▸ hrunning)
  closed hclosed := by
    obtain ⟨e, he, hterminal, hfinishes⟩ := h.closed (hretains.running_eq ▸ hclosed)
    obtain ⟨e', he', hkey⟩ := hevents e he
    refine ⟨e', he', ?_, ?_⟩
    · rw [hretains.terminal_eq, hterminal, hkey]
    · rw [hkey, hretains.key_eq]
      exact hfinishes

/-- A new call is open. -/
theorem Db.Explains.of_new {k : CallRow} (hrunning : k.status.isRunning = true)
    (hterminal : k.terminalEventId = none) : db.Explains k where
  running _ := hterminal
  closed hclosed := by
    rw [hrunning] at hclosed
    cases hclosed

/-- A transaction that changes no event, and of the calls only what need not be explained. -/
theorem Db.CallsExplained.of_evolves {N : CallRow → Prop} (h : db.CallsExplained)
    (hcalls : Table.Evolves CallRow.Retains N db.calls db'.calls)
    (hevents : ∀ e ∈ db.events, ∃ e' ∈ db'.events, e'.toEventKey = e.toEventKey)
    (hnew : ∀ k, N k → db'.Explains k) : db'.CallsExplained := by
  intro k' hk'
  cases hcalls.backward k' hk' with
  | inl hold =>
    obtain ⟨k, hk, hretains⟩ := hold
    exact (h k hk).retain hretains hevents
  | inr hfresh => exact hnew k' hfresh

theorem Db.CallsExplained.of_calls_eq (h : db.CallsExplained) (hcalls : db'.calls = db.calls)
    (hevents : ∀ e ∈ db.events, ∃ e' ∈ db'.events, e'.toEventKey = e.toEventKey) :
    db'.CallsExplained := by
  apply h.of_evolves (N := fun _ ↦ False) _ hevents fun _ ↦ False.elim
  rw [hcalls]
  exact .refl CallRow.Retains.refl _

/-! ## Transactions that leave the calls alone -/

theorem claimPass_calls (workerId : String) (busy : List Uuid) :
    (claimPass config now workerId busy db).2.calls = db.calls := by
  unfold claimPass
  split
  · rfl
  · rename_i j _
    unfold claimLocked
    split
    · exact (supersedeLocked_same db j).calls_eq
    · rfl
    · rfl
    · have hpending : (activatePending j db).calls = db.calls := by
        unfold activatePending
        split_ifs <;> rfl
      exact hpending
    · rfl

theorem persistLeaseContext_calls {c : ClaimedEvent} {context : AgentContext} {stored : Bool}
    (h : persistLeaseContext c context db = .ok (stored, db')) : db'.calls = db.calls := by
  cases persistLeaseContext_cases h with
  | inl hlost => rw [hlost.2]
  | inr hstored =>
    obtain ⟨-, j, -, -, -, rfl⟩ := hstored
    rfl

theorem planDecision_calls (config : OutboxConfig) (c : ClaimedEvent) (context : AgentContext)
    (action : AgentAction) (decisionId : String) :
    (planDecision config now c context action decisionId db).2.calls = db.calls := by
  cases planDecision_cases config now c context action decisionId db with
  | inl hplanned =>
    cases hplanned.2 with
    | inl hfound => rw [hfound.1]
    | inr hnew => exact hnew.calls_eq
  | inr hfailed =>
    obtain ⟨error, -, hdb⟩ := hfailed
    cases hdb with
    | inl hsame => rw [hsame]
    | inr hmarked =>
      obtain ⟨rowId, category, hdb⟩ := hmarked
      rw [hdb]
      rfl

theorem claimNextDecision_calls (workerId : String) :
    (claimNextDecision config now workerId db).2.calls = db.calls := by
  cases claimNextDecision_cases config now workerId db with
  | inl hnone => exact hnone.2.calls_eq
  | inr hclaimed =>
    obtain ⟨c, t, j, -, hhands⟩ := hclaimed
    rw [hhands.db_eq]
    exact hhands.cancels.calls_eq

theorem renewDecisionClaim_calls (c : ClaimedDecision) :
    (renewDecisionClaim config now c db).2.calls = db.calls := by
  unfold renewDecisionClaim
  split
  · rfl
  · split_ifs <;> rfl

theorem completeDecisionFailure_calls (c : ClaimedDecision) (stage category : String)
    (body : Option (List (Text × Json))) :
    (completeDecisionFailure config now c stage category body db).2.calls = db.calls := by
  unfold completeDecisionFailure
  split
  · rfl
  · split
    · rfl
    · split_ifs <;> rfl

theorem sweepExpiredDecisionClaims_calls :
    (sweepExpiredDecisionClaims config now db).calls = db.calls := by
  refine invariant_iterate (I := fun t : Db ↦ t.calls = db.calls) (fun t t' hbody ht ↦ ?_) rfl
  obtain ⟨d, -, rfl⟩ := Option.map_eq_some_iff.1 hbody
  exact ht

theorem mergeDecisionRejected_calls (c : ClaimedEvent) (payload : DecisionRejectedPayload) :
    (mergeDecisionRejected c payload db).2.calls = db.calls := by
  unfold mergeDecisionRejected
  split
  · rfl
  · split_ifs <;> rfl

/-! ## Transactions that find no open call -/

theorem discardRow_calls {j : Joined} (hnone : ∀ k ∈ db.calls, k.status.isRunning = true →
      ∀ d ∈ db.decisions, k.decisionRowId = d.id → d.sourceEventId ≠ j.event.id) :
    (discardRow db j).calls = db.calls := by
  have hcancel : (((db.markStaleEvent j.event.id).cancelStaleDecisions
      j.event.id).cancelStaleSkillCalls j.event.id).calls = db.calls := by
    apply Table.update_eq_self
    rintro k hk ⟨hrunning, d', hd', hown, hsource⟩
    obtain ⟨d, hd, hkey⟩ := Table.key_of_mem_update hd'
    apply hnone k hk hrunning d hd
    · exact hown.trans (congrArg DecisionKey.id hkey)
    · exact (congrArg DecisionKey.sourceEventId hkey).symm.trans hsource
  unfold discardRow
  split_ifs
  · exact hcancel
  · exact hcancel
  · rfl

/-- The discarding leaves the calls alone when no stale event has an open call. -/
theorem discardStaleEvents_calls {staleAfterMs : Option ℕ}
    (hnone : ∀ maxAgeMs ∈ staleAfterMs, ¬db.StaleCastFails →
      ∀ key, ¬db.DiscardsCall maxAgeMs now key)
    (h : discardStaleEvents staleAfterMs now db = .ok db') : db'.calls = db.calls := by
  unfold discardStaleEvents at h
  split at h
  · cases h
    rfl
  · rename_i maxAgeMs
    split_ifs at h with hcasts
    cases h
    have hkey := hnone maxAgeMs rfl hcasts
    have hrow {t u : Db} {j : Joined} (ht : db.Discards maxAgeMs now t)
        (hu : db.Discards maxAgeMs now u ∧ u.calls = db.calls)
        (hj : j ∈ t.selectStaleEvents maxAgeMs now) :
        db.Discards maxAgeMs now (discardRow u j) ∧ (discardRow u j).calls = db.calls := by
      obtain ⟨hjoins, hstale⟩ := mem_selectStaleEvents hj
      refine ⟨hu.1.discardRow ht hj, (discardRow_calls ?_).trans hu.2⟩
      intro k hk hrunning d hd hown hsource
      obtain ⟨d₀, hd₀, hstep⟩ := hu.1.delivers.decision_back id hd
      apply hkey k.toCallKey
      refine ⟨⟨k, hu.2 ▸ hk, rfl, hrunning⟩, j.event, ht.stale j.event hjoins.event_mem hstale,
        hstale, d₀, hd₀, hown.trans (congrArg DecisionKey.id hstep.key_eq), ?_⟩
      exact (congrArg DecisionKey.sourceEventId hstep.key_eq).symm.trans hsource
    have hbody (t t' : Db) (hbody : discardBody maxAgeMs now t = some t')
        (ht : db.Discards maxAgeMs now t ∧ t.calls = db.calls) :
        db.Discards maxAgeMs now t' ∧ t'.calls = db.calls := by
      unfold discardBody at hbody
      split_ifs at hbody
      obtain rfl := Option.some.inj hbody
      exact List.foldlRecOn
        (motive := fun u : Db ↦ db.Discards maxAgeMs now u ∧ u.calls = db.calls) _ _ ht
        fun u hu j hj ↦ hrow ht.1 hu hj
    exact (invariant_iterate hbody (n := db.events.rows.length + 1) (s := db)
      ⟨⟨.refl db, fun e he _ ↦ he, fun k hk _ ↦ hk⟩, rfl⟩).2

theorem stopIdleRow_calls {session : SessionRow} (hnone : ∀ k ∈ db.calls,
      k.status.isRunning = true → ∀ d ∈ db.decisions, k.decisionRowId = d.id →
      ∀ c ∈ db.cycles, d.cycleId = c.id → ¬Db.IdleCycle session c) :
    (stopIdleRow db session).calls = db.calls := by
  apply Table.update_eq_self
  rintro k hk ⟨hrunning, d', hd', hown, c', hc', hcycle, hidle⟩
  obtain ⟨d, hd, hkey⟩ := Table.key_of_mem_update hd'
  obtain ⟨c, hc, hckey⟩ := Table.key_of_mem_update hc'
  refine hnone k hk hrunning d hd (hown.trans (congrArg DecisionKey.id hkey)) c hc ?_
    (idleCycle_of_key_eq hidle hckey)
  calc d.cycleId = d'.cycleId := (congrArg DecisionKey.cycleId hkey).symm
    _ = c'.id := hcycle
    _ = c.id := congrArg CycleKey.id hckey

theorem stopIdleSessions_calls {idleTimeoutMs : Option ℕ}
    (hnone : ∀ timeoutMs ∈ idleTimeoutMs, ∀ key, ¬db.IdlesCall timeoutMs now key) :
    (stopIdleSessions idleTimeoutMs now db).calls = db.calls := by
  unfold stopIdleSessions
  split
  · rfl
  · rename_i timeoutMs
    have hkey := hnone timeoutMs rfl
    have hloop := List.foldlRecOn
      (motive := fun t : Db ↦ db.Idles timeoutMs now t ∧ t.calls = db.calls)
      (db.selectIdleSessions timeoutMs now) stopIdleRow (b := db)
      ⟨⟨.refl db, fun c hc ↦ ⟨c, hc, rfl⟩, fun k hk _ ↦ hk⟩, rfl⟩ ?_
    · exact hloop.2
    · intro t ht session hsession
      refine ⟨ht.1.stopIdleRow hsession, (stopIdleRow_calls ?_).trans ht.2⟩
      intro k hk hrunning d hd hown c hc hcycle hidle
      obtain ⟨d₀, hd₀, hstep⟩ := ht.1.delivers.decision_back id hd
      obtain ⟨c₀, hc₀, hckey⟩ := ht.1.cycles c hc
      apply hkey k.toCallKey
      refine ⟨⟨k, ht.2 ▸ hk, rfl, hrunning⟩, session, hsession, d₀, hd₀,
        hown.trans (congrArg DecisionKey.id hstep.key_eq), c₀, hc₀, ?_,
        idleCycle_of_key_eq hidle hckey⟩
      calc d₀.cycleId = d.cycleId := (congrArg DecisionKey.cycleId hstep.key_eq).symm
        _ = c.id := hcycle
        _ = c₀.id := congrArg CycleKey.id hckey

/-- A stop that finds no open call leaves the calls alone. -/
theorem closeGeneration_calls {c : ClaimedEvent} {payload : SessionStoppedPayload}
    {result : MutationResult} (hnone : db.HoldsCurrent c → db.lockOpenCalls c.cycleId = [])
    (h : closeGeneration c payload db = .ok (result, db')) : db'.calls = db.calls := by
  by_cases hholds : db.HoldsCurrent c
  swap
  · rw [closeGeneration_of_fenced hholds] at h
    cases h
    rfl
  have hempty : (db.cancelUnsentDecisions c.cycleId).lockOpenCalls c.cycleId = [] := by
    apply List.eq_nil_iff_forall_not_mem.2
    intro o ho
    obtain ⟨o', ho', -⟩ := lockOpenCalls_cancel ho
    rw [hnone hholds] at ho'
    exact absurd ho' List.not_mem_nil
  obtain ⟨j, -, -, hfilter⟩ := hholds.lock_eq
  unfold closeGeneration at h
  simp only [hfilter, hempty, List.filter_nil, List.length_nil, List.foldlM_nil] at h
  rw [if_neg (by omega)] at h
  obtain ⟨finished, hfinished, h⟩ := bind_eq_ok_iff.1 h
  cases hfinished
  split_ifs at h
  cases h
  rfl

/-! ## Transactions on the call of a decision -/

theorem insertCall_explained {row : CallRow} (h : db.CallsExplained) (hrow : db.Explains row) :
    (db.insertCall row).CallsExplained := by
  have hevents : ∀ e ∈ db.events, ∃ e' ∈ (db.insertCall row).events,
      e'.toEventKey = e.toEventKey := by
    intro e he
    refine ⟨e, ?_, rfl⟩
    unfold Db.insertCall
    split
    · exact he
    · exact he
  intro k hk
  cases calls_of_insertCall row with
  | inl hsame => exact (h k (hsame ▸ hk)).retain (.refl k) hevents
  | inr hinsert =>
    cases (Table.mem_of_insert? hinsert).1 hk with
    | inl hold => exact (h k hold).retain (.refl k) hevents
    | inr hnew =>
      rw [hnew]
      exact hrow.retain (.refl row) hevents

theorem updateCalls_explained {w : CallRow → Prop} [DecidablePred w] {a : Assignment CallRow}
    (h : db.CallsExplained) (hset : ∀ k ∈ db.calls, w k → db.Explains (a.set k)) :
    (db.updateCalls w a).CallsExplained := by
  have hevents : ∀ e ∈ db.events, ∃ e' ∈ (db.updateCalls w a).events,
      e'.toEventKey = e.toEventKey := fun e he ↦ ⟨e, he, rfl⟩
  intro k hk
  cases Table.mem_update.1 hk with
  | inl hset' =>
    obtain ⟨q, hq, hw, rfl⟩ := hset'
    exact (hset q hq hw).retain (.refl _) hevents
  | inr hkept => exact (h k hkept.1).retain (.refl k) hevents

theorem recordSkillStarted_explained (h : db.CallsExplained) (c : ClaimedEvent)
    (payload : SkillStartedPayload) :
    (recordSkillStarted now c payload db).2.CallsExplained := by
  unfold recordSkillStarted
  split
  · exact h
  · exact insertCall_explained h (.of_new rfl rfl)
  · split
    · apply updateCalls_explained h
      rintro k hk ⟨-, hpending⟩
      apply Db.Explains.of_new rfl
      apply (h k hk).running
      rw [hpending]
      rfl
    · exact h
    · exact h

theorem applyEffect_explained {callId : Uuid} {trackingId : Option Uuid} {status : CallStatus}
    (happly : applyEffect callId trackingId status db = .ok db') (h : db.CallsExplained) :
    db'.CallsExplained := by
  cases trackingId with
  | none =>
    cases happly
    exact h
  | some trackingId =>
    simp only [applyEffect] at happly
    obtain ⟨applied, happlied, happly⟩ := bind_eq_ok_iff.1 happly
    split_ifs at happly
    cases happly
    have hsame : applied.calls = db.calls ∧ applied.events = db.events := by
      unfold applyTerminalEffect at happlied
      split at happlied
      · cases happlied
      · split_ifs at happlied
        cases happlied
        exact ⟨rfl, rfl⟩
    have hexplained : applied.CallsExplained :=
      h.of_calls_eq hsame.1 fun e he ↦ ⟨e, hsame.2 ▸ he, rfl⟩
    apply updateCalls_explained hexplained
    exact fun k hk _ ↦ (hexplained k hk).retain ⟨rfl, rfl, rfl⟩ fun e he ↦ ⟨e, he, rfl⟩

/-- A `skill_finished` event explains the call that it closes. -/
theorem recordSkillFinished_explained {c : ClaimedEvent} {payload : SkillFinishedPayload}
    {result : MutationResult} (h : db.CallsExplained) (hcalls : db.CallsSound)
    (hevent : ∃ e ∈ db.events, e.id = c.rowId ∧ e.eventType = .skillFinished ∧
      e.gatewayId = c.gatewayId ∧ e.sessionId = c.sessionId)
    (hsession : c.sessionId = c.event.sessionId)
    (hrecord : recordSkillFinished now c payload db = .ok (result, db')) : db'.CallsExplained := by
  obtain ⟨e, he, hid, htype, hgateway, hname⟩ := hevent
  have hclosed := (normalizeSkillTerminal_closed payload.terminal).1
  -- the row of a call of this session that the event closes
  have hexplains {k : CallRow} (hstatus : k.status = (normalizeSkillTerminal payload.terminal).status)
      (hterminal : k.terminalEventId = some c.rowId) (hkgateway : k.gatewayId = c.gatewayId)
      (hksession : k.sessionId = c.sessionId) : db.Explains k := by
    constructor
    · intro hrunning
      rw [hstatus, hclosed] at hrunning
      cases hrunning
    · exact fun _ ↦ ⟨e, he, hterminal.trans (congrArg some hid.symm), htype,
        hgateway.trans hkgateway.symm, hname.trans hksession.symm⟩
  unfold recordSkillFinished at hrecord
  simp only at hrecord
  split at hrecord
  · cases hrecord
    exact h
  · rename_i d call hlookup
    rw [lookUpCall_eq_ok] at hlookup
    cases call with
    | none =>
      simp only at hrecord
      obtain ⟨applied, happlied, hrecord⟩ := bind_eq_ok_iff.1 hrecord
      cases hrecord
      exact applyEffect_explained happlied (insertCall_explained h (hexplains rfl rfl rfl rfl))
    | some k =>
      have hmem : k ∈ db.calls := hlookup.call_mem rfl
      have hidentity := hlookup.call_matches k rfl
      obtain ⟨d', hd', hown⟩ := hcalls.decision k hmem
      obtain rfl := decisionRow_eq_of_id hd' hlookup.decision_mem
        (hown.1.trans hidentity.1)
      have hkgateway : k.gatewayId = c.gatewayId := hown.2.1.symm.trans hlookup.gatewayId
      have hksession : k.sessionId = c.sessionId := hidentity.2.2.1.trans hsession.symm
      simp only at hrecord
      by_cases hrunning : k.status.isRunning = true
      · rw [resolve_of_running hrunning] at hrecord
        simp only at hrecord
        obtain ⟨applied, happlied, hrecord⟩ := bind_eq_ok_iff.1 hrecord
        cases hrecord
        apply applyEffect_explained happlied
        apply updateCalls_explained h
        rintro q hq ⟨hqid, -⟩
        obtain rfl := Table.eq_of_clashes hq hmem (CallRow.clashes_of_id hqid)
        exact hexplains rfl rfl hkgateway hksession
      · rw [Bool.not_eq_true] at hrunning
        by_cases hsame : k.terminal = normalizeSkillTerminal payload.terminal
        · rw [(resolve_of_closed hrunning).1 hsame] at hrecord
          cases hrecord
          exact h
        · rw [(resolve_of_closed hrunning).2 hsame] at hrecord
          cases hrecord
          apply updateCalls_explained h
          intro q hq hqid
          obtain rfl := Table.eq_of_clashes hq hmem (CallRow.clashes_of_id hqid)
          exact (h q hq).retain ⟨rfl, rfl, hrunning.symm⟩ fun e he ↦ ⟨e, he, rfl⟩

/-- The response names an open call of another decision, and its own decision has none. -/
def Db.Usurps (db : Db) (now : ℕ) (c : ClaimedDecision) (response : DecisionClientResult) : Prop :=
  (∃ j ∈ db.lockClaimedDecision c, j.fenceError now j.decision.claimedFenceVersion = none ∧
      j.decision.skillName.isSome) ∧
    ¬response.isIdempotencyConflict ∧ response.status = .accepted ∧
    (c.action = .callSkill ∨ c.action = .stopHosting) ∧ db.callForDecision c.rowId = none ∧
    ∃ skillCallId ∈ response.skillCallId, ∃ k ∈ db.callByName c.gatewayId skillCallId,
      k.status.isRunning = true

theorem bindResponseCall_explained {c : ClaimedDecision} {d : DecisionRow} {skillCallId : String}
    (h : db.CallsExplained) (hcalls : db.CallsSound) (hd : d ∈ db.decisions)
    (hdesc : c.Describes d.toDecisionKey)
    (hnot : d.skillName.isSome → db.callForDecision c.rowId = none →
      ∀ k ∈ db.callByName c.gatewayId skillCallId, k.status.isRunning = false) :
    (bindResponseCall now c d skillCallId db).2.CallsExplained := by
  unfold bindResponseCall
  simp only
  split
  · exact h
  · rename_i skillName hskill
    split
    · exact h
    · rename_i hown
      split
      · exact insertCall_explained h (.of_new rfl rfl)
      · rename_i call hcall
        have hmem : call ∈ db.calls := Table.mem_of_find?_eq_some hcall
        split_ifs with hmatches
        · exact h
        · exact h
        · apply updateCalls_explained h
          intro q hq hqid
          obtain rfl := Table.eq_of_clashes hq hmem (CallRow.clashes_of_id hqid)
          -- a call of the decision itself would match
          have hforeign : db.callForDecision c.rowId = none := by
            cases hfind : db.callForDecision c.rowId with
            | none => rfl
            | some other =>
              have hother : other ∈ db.calls := Table.mem_of_find?_eq_some hfind
              have hrow : other.decisionRowId = c.rowId :=
                Table.of_find?_eq_some (w := fun k : CallRow ↦ k.decisionRowId = c.rowId) hfind
              have hname : other.skillCallId = skillCallId := by
                by_contra hne
                rw [hfind, Option.filter_eq_none_iff] at hown
                exact hown other rfl (decide_eq_true hne)
              have hnamed := Table.of_find?_eq_some (w := fun k : CallRow ↦
                k.gatewayId = c.gatewayId ∧ k.skillCallId = skillCallId) hcall
              obtain ⟨d', hd', hdcalls⟩ := hcalls.decision other hother
              obtain rfl := decisionRow_eq_of_id hd' hd (hdcalls.1.trans (hrow.trans hdesc.rowId))
              have hgateway : other.gatewayId = q.gatewayId :=
                hdcalls.2.1.symm.trans (hdesc.gatewayId.symm.trans hnamed.1.symm)
              obtain rfl := Table.eq_of_clashes hother hq
                (Or.inr ⟨hgateway, hname.trans hnamed.2.symm⟩)
              exact absurd (hcalls.responseMatches hd hdesc hskill hq
                (hrow.trans hdesc.rowId)) hmatches
          have hclosed := hnot (by rw [hskill]; rfl) hforeign q hcall
          exact (h q hq).retain ⟨rfl, rfl, hclosed.symm⟩ fun e he ↦ ⟨e, he, rfl⟩

theorem recordDecisionResponse_explained {c : ClaimedDecision} {response : DecisionClientResult}
    {recorded : Bool} (h : db.CallsExplained) (hcalls : db.CallsSound)
    (hdesc : ∃ d ∈ db.decisions, c.Describes d.toDecisionKey) (hnot : ¬db.Usurps now c response)
    (hrecord : recordDecisionResponse now c response db = .ok (recorded, db')) :
    db'.CallsExplained := by
  have hcomplete {t : Db} (ht : t.CallsExplained) (record : ResponseRecord) :
      (t.completeDecisionResponse c response record).CallsExplained :=
    ht.of_calls_eq rfl fun e he ↦ ⟨e, he, rfl⟩
  unfold recordDecisionResponse at hrecord
  split at hrecord
  · cases hrecord
    exact h
  · rename_i j hlock
    split_ifs at hrecord with hfence hconflict haccepted
    · cases hrecord
      exact h
    · cases hrecord
      exact hcomplete h _
    · split at hrecord
      · cases hrecord
      · rename_i skillCallId hid
        cases hrecord
        obtain ⟨hd, hrow, -⟩ := lockClaimedDecision_eq_some hlock
        obtain ⟨d, hd', hdesc⟩ := hdesc
        obtain rfl := decisionRow_eq_of_id hd' hd (hdesc.rowId.symm.trans hrow.symm)
        refine hcomplete (bindResponseCall_explained h hcalls hd hdesc fun hskill hown k hk ↦ ?_) _
        by_contra hrunning
        rw [Bool.not_eq_false] at hrunning
        refine hnot ⟨⟨j, hlock, ?_, hskill⟩, hconflict, haccepted.1, haccepted.2, hown,
          skillCallId, hid, k, hk, hrunning⟩
        rwa [Option.isSome_iff_ne_none, ne_eq, not_not] at hfence
    all_goals
      cases hrecord
      exact hcomplete h _

end LlmGateway
