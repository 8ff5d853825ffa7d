import LlmGateway.Effect.Delivery
import LlmGateway.Effect.SkillCall

/-!
# How the outbox delivers

The transactions on decisions and calls, as changes of rows. Planning adds a decision of a
current claim for a lease that has none; the claim of a decision cancels the candidates whose
fence has changed and hands out the first one that remains.
-/

namespace LlmGateway

open Relational

variable {config : WorkerConfig} {now : ℕ} {db db' : Db}
  {starts : DecisionStatus → Prop} {plans : Prop} {closes : CallKey → Prop}

/-! ## Planning -/

theorem joins_of_planFence {c : ClaimedEvent} {context : AgentContext} {j : Joined}
    (h : (db.lockPlanSource c).filter (fun j ↦ j.PlanFenceMatches c context) = some j) :
    db.Joins j ∧ j.event.id = c.rowId ∧ j.PlanFenceMatches c context := by
  simp only [Option.filter_eq_some_iff, decide_eq_true_eq] at h
  obtain ⟨e, he, hj⟩ := Option.bind_eq_some_iff.1 h.1
  obtain ⟨hmem, hid⟩ := eventById_eq_some.1 he
  obtain ⟨hjoins, hevent⟩ := (joinEvent_eq_some hmem).1 hj
  exact ⟨hjoins, by rw [hevent, hid], h.2⟩

/-- A planning that adds a decision. -/
structure Db.PlansNew (config : OutboxConfig) (now : ℕ) (c : ClaimedEvent) (context : AgentContext)
    (action : AgentAction) (decisionId : String) (db db' : Db) : Prop where
  source : ∃ j, db.Joins j ∧ j.event.id = c.rowId ∧ j.PlanFenceMatches c context
  room : ¬CapacityFull db now (reservationFor config c context action)
  reserved : (reservationFor config c context action).key.isSome =
    (reservationFor config c context action).limit.isSome
  decisions : ∃ body, freezeDecision config decisionId c.traceId context action = .ok body ∧
    db.decisions.insert? (plannedRow config now c context action
      (reservationFor config c context action) body decisionId (db.trackAction c action).1
      (db.trackAction c action).2.nextUuid) = some db'.decisions
  calls_eq : db'.calls = db.calls
  tracking_eq : db'.tracking = (db.trackAction c action).2.tracking

theorem trackAction_calls (db : Db) (c : ClaimedEvent) (action : AgentAction) :
    (db.trackAction c action).2.calls = db.calls := by
  unfold Db.trackAction
  split
  · unfold Db.insertActionTracking
    split <;> rfl
  · rfl

/-- The row of a tracked action is new and tracked. -/
theorem trackAction_tracking (db : Db) (c : ClaimedEvent) (action : AgentAction) :
    ((db.trackAction c action).1 = none ∧ (db.trackAction c action).2.tracking = db.tracking) ∨
      ∃ row : TrackingRow, (db.trackAction c action).1 = some row.id ∧ row.status = .tracking ∧
        db.tracking.insert? row = some (db.trackAction c action).2.tracking := by
  unfold Db.trackAction
  split
  · unfold Db.insertActionTracking
    split
    · rename_i tracking hinsert
      exact Or.inr ⟨_, rfl, rfl, hinsert⟩
    · exact Or.inl ⟨rfl, rfl⟩
  · exact Or.inl ⟨rfl, rfl⟩

/-- A planning finds the decision of its event, adds one, or fails; then it marks a decision for
an operator at most. -/
theorem planDecision_cases (config : OutboxConfig) (now : ℕ) (c : ClaimedEvent)
    (context : AgentContext) (action : AgentAction) (decisionId : String) (db : Db) :
    ((planDecision config now c context action decisionId db).1 = .ok () ∧
        (((planDecision config now c context action decisionId db).2 = db ∧
            ∃ d, db.decisionBySource c.rowId = some d) ∨
          db.PlansNew config now c context action decisionId
            (planDecision config now c context action decisionId db).2)) ∨
      ∃ error, (planDecision config now c context action decisionId db).1 = .error error ∧
        ((planDecision config now c context action decisionId db).2 = db ∨ ∃ rowId category,
          (planDecision config now c context action decisionId db).2 =
            db.markPlanManual rowId category) := by
  unfold planDecision
  split
  · exact Or.inr ⟨_, rfl, Or.inl rfl⟩
  rename_i j hlock
  simp only [planFenced]
  split
  · rename_i existing hexisting
    split_ifs
    · exact Or.inl ⟨rfl, Or.inl ⟨rfl, existing, hexisting⟩⟩
    · exact Or.inr ⟨_, rfl, Or.inr ⟨_, _, rfl⟩⟩
  · split_ifs with hlease hfull
    · exact Or.inr ⟨_, rfl, Or.inl rfl⟩
    · exact Or.inr ⟨_, rfl, Or.inl rfl⟩
    · split
      · exact Or.inr ⟨_, rfl, Or.inl rfl⟩
      rename_i body hbody
      split
      · exact Or.inr ⟨_, rfl, Or.inr ⟨_, _, rfl⟩⟩
      · unfold insertPlanned
        simp only
        split_ifs with hdeadline hreserved
        · exact Or.inr ⟨_, rfl, Or.inl rfl⟩
        · exact Or.inr ⟨_, rfl, Or.inl rfl⟩
        · split
          · rename_i decisions hinsert
            rw [trackAction_decisions] at hinsert
            exact Or.inl ⟨rfl, Or.inr ⟨⟨j, joins_of_planFence hlock⟩, hfull, not_not.1 hreserved,
              ⟨body, hbody, hinsert⟩, trackAction_calls db c action, rfl⟩⟩
          · exact Or.inr ⟨_, rfl, Or.inl rfl⟩

theorem markPlanManual_delivers (rowId : Uuid) (category : String) :
    db.Delivers starts plans closes (db.markPlanManual rowId category) :=
  .updateDecisions _ fun _ _ _ ↦ .of_closed rfl (Or.inr rfl)

theorem Db.PlansNew.delivers {config : OutboxConfig} {c : ClaimedEvent} {context : AgentContext}
    {action : AgentAction} {decisionId : String}
    (h : db.PlansNew config now c context action decisionId db') (hplans : plans) :
    db.Delivers starts plans closes db' where
  decisions := by
    obtain ⟨body, -, hinsert⟩ := h.decisions
    exact .insert DecisionRow.Proceeds.refl hplans hinsert
  calls := by
    rw [h.calls_eq]
    exact .refl CallRow.Proceeds.refl _
  tracking := by
    rw [h.tracking_eq]
    cases trackAction_tracking db c action with
    | inl hnone =>
      rw [hnone.2]
      exact .refl TrackingRow.Proceeds.refl _
    | inr hnew =>
      obtain ⟨row, -, -, hinsert⟩ := hnew
      exact .insert TrackingRow.Proceeds.refl hplans hinsert

/-- A planning adds no decision, or the one that it returns. -/
theorem planDecision_adds {config : OutboxConfig} (c : ClaimedEvent) (context : AgentContext)
    (action : AgentAction) (decisionId : String) :
    db.Delivers starts plans closes (planDecision config now c context action decisionId db).2 ∨
      db.PlansNew config now c context action decisionId
        (planDecision config now c context action decisionId db).2 := by
  cases planDecision_cases config now c context action decisionId db with
  | inl hplanned =>
    apply hplanned.2.imp_left
    intro hfound
    rw [hfound.1]
    exact .refl db
  | inr hfailed =>
    obtain ⟨error, -, hdb⟩ := hfailed
    apply Or.inl
    cases hdb with
    | inl hsame =>
      rw [hsame]
      exact .refl db
    | inr hmarked =>
      obtain ⟨rowId, category, hdb⟩ := hmarked
      rw [hdb]
      exact markPlanManual_delivers rowId category

/-! ## Claims of decisions -/

theorem DecisionRow.Due.isUnsent {maxAttempts : ℕ} {d : DecisionRow} (h : d.Due maxAttempts now) :
    d.status.isUnsent = true := by
  cases h.2 with
  | inl hidle =>
    cases hidle.1 with
    | inl hplanned =>
      rw [hplanned]
      rfl
    | inr hretry =>
      rw [hretry]
      rfl
  | inr hexpired =>
    rw [hexpired.1]
    rfl

theorem decisionCandidate_due {maxAttempts : ℕ} {j : JoinedDecision}
    (h : db.decisionCandidate maxAttempts now = some j) :
    j.decision ∈ db.decisions ∧ j.decision.Due maxAttempts now ∧ db.CycleFree j.decision := by
  obtain ⟨d, hd, hj⟩ := List.mem_filterMap.1 (List.mem_of_mem_head? h)
  obtain ⟨rfl, -⟩ := joinDecision_eq_some hj
  obtain ⟨hmem, hdue⟩ := Table.mem_select.1 (mem_orderBy.1 hd)
  exact ⟨hmem, hdue.1, hdue.2⟩

theorem joinDecision_session {d : DecisionRow} {j : JoinedDecision}
    (h : db.joinDecision d = some j) :
    j.session ∈ db.sessions ∧ j.session.id = j.cycle.runtimeSessionId := by
  simp only [Db.joinDecision, Option.bind_eq_bind, Option.bind_eq_some_iff, sessionOf_eq_some,
    Option.some.injEq] at h
  obtain ⟨cycle, -, session, hsession, event, -, rfl⟩ := h
  exact hsession

/-- A decision has no fence error if its cycle is active and follows it, under its fence, and its
lease is current. -/
theorem JoinedDecision.fenceError_eq_none_iff {j : JoinedDecision} {claimedFence : Option ℕ} :
    j.fenceError now claimedFence = none ↔ j.cycle.status = .active ∧
      j.session.currentGeneration = some j.decision.controlGeneration ∧
      (∀ f ∈ claimedFence, j.session.fenceVersion = f) ∧
      j.cycle.latestDecisionLeaseId = some j.decision.decisionLeaseId ∧
      j.cycle.latestStateVersion = some j.decision.stateVersion ∧ j.decision.LeaseCurrent now := by
  unfold fenceError
  constructor
  · intro h
    split_ifs at h with hcycle hgeneration hfence hlease hversion hcurrent
    push Not at hfence
    exact ⟨not_not.1 hcycle, not_not.1 hgeneration, hfence, not_not.1 hlease, not_not.1 hversion,
      hcurrent⟩
  · intro ⟨hcycle, hgeneration, hfence, hlease, hversion, hcurrent⟩
    have hkept : ¬∃ f ∈ claimedFence, j.session.fenceVersion ≠ f := by
      push Not
      exact hfence
    rw [if_neg (not_not.2 hcycle), if_neg (not_not.2 hgeneration), if_neg hkept,
      if_neg (not_not.2 hlease), if_neg (not_not.2 hversion), if_neg (not_not.2 hcurrent)]

theorem decisionCandidate_session {maxAttempts : ℕ} {j : JoinedDecision}
    (h : db.decisionCandidate maxAttempts now = some j) :
    j.session ∈ db.sessions ∧ j.session.id = j.cycle.runtimeSessionId := by
  obtain ⟨d, hd, hj⟩ := List.mem_filterMap.1 (List.mem_of_mem_head? h)
  exact joinDecision_session hj

/-- Only decisions differ, and no decision is handed out. -/
structure Db.Cancels (db db' : Db) : Prop where
  sessions_eq : db'.sessions = db.sessions
  cycles_eq : db'.cycles = db.cycles
  calls_eq : db'.calls = db.calls
  delivers : db.Delivers (fun _ ↦ False) False (fun _ ↦ False) db'

theorem cancelFencedCandidates (config : WorkerConfig) (now n : ℕ) (db : Db) :
    db.Cancels (iterate (cancelFencedCandidate config now) n db) := by
  refine invariant_iterate (I := db.Cancels) (fun t t' hbody ht ↦ ?_) ⟨rfl, rfl, rfl, .refl db⟩
  simp only [cancelFencedCandidate, Option.bind_eq_bind, Option.bind_eq_some_iff,
    Option.some.injEq] at hbody
  obtain ⟨j, hcandidate, category, -, rfl⟩ := hbody
  obtain ⟨hmem, hdue, -⟩ := decisionCandidate_due hcandidate
  refine ⟨ht.sessions_eq, ht.cycles_eq, ht.calls_eq, ht.delivers.trans (.updateDecisions _ ?_)⟩
  intro d hd hid
  rw [decisionRow_eq_of_id hd hmem hid]
  exact .of_unsent rfl hdue.isUnsent rfl

/-- The claim of a decision, after the fenced candidates have been cancelled. -/
structure HandsOut (config : WorkerConfig) (now : ℕ) (workerId : String) (db db' : Db)
    (c : ClaimedDecision) (t : Db) (j : JoinedDecision) : Prop where
  cancels : db.Cancels t
  candidate : t.decisionCandidate config.maxAttempts now = some j
  fence : j.fenceError now none = none
  claim_eq : c = buildClaimedDecision config now workerId j t.nextUuid
  db_eq : db' = t.bumpUuid.claimDecision config now workerId j.decision.id t.nextUuid
    j.session.fenceVersion

theorem claimNextDecision_cases (config : WorkerConfig) (now : ℕ) (workerId : String) (db : Db) :
    ((claimNextDecision config now workerId db).1 = none ∧
        db.Cancels (claimNextDecision config now workerId db).2) ∨
      ∃ c t j, (claimNextDecision config now workerId db).1 = some c ∧
        HandsOut config now workerId db (claimNextDecision config now workerId db).2 c t j := by
  have hcancels := cancelFencedCandidates config now (db.decisions.rows.length + 1) db
  unfold claimNextDecision handOutDecision
  split
  · exact Or.inl ⟨rfl, hcancels⟩
  · rename_i j hcandidate
    split_ifs with hfence
    · exact Or.inl ⟨rfl, hcancels⟩
    · simp only [Option.isSome_iff_ne_none, ne_eq, not_not] at hfence
      exact Or.inr ⟨_, _, j, rfl, hcancels, hcandidate, hfence, rfl, rfl⟩

theorem HandsOut.delivers {workerId : String} {c : ClaimedDecision} {t : Db} {j : JoinedDecision}
    (h : HandsOut config now workerId db db' c t j) (hstarts : starts .sending) :
    db.Delivers starts plans closes db' := by
  rw [h.db_eq]
  have hcancels : db.Delivers starts plans closes t :=
    h.cancels.delivers.mono (fun _ ↦ False.elim) False.elim fun _ ↦ False.elim
  refine hcancels.trans (.trans ?_ (.updateDecisions _ ?_))
  · exact .of_same ⟨rfl, rfl, rfl⟩
  · exact fun d _ hw ↦ ⟨rfl, Or.inr (Or.inl hw.2.isUnsent), fun _ ↦ Or.inr hstarts⟩

theorem claimNextDecision_delivers (workerId : String) (hstarts : starts .sending) :
    db.Delivers starts plans closes (claimNextDecision config now workerId db).2 := by
  cases claimNextDecision_cases config now workerId db with
  | inl hnone => exact hnone.2.delivers.mono (fun _ ↦ False.elim) False.elim fun _ ↦ False.elim
  | inr hclaimed =>
    obtain ⟨c, t, j, -, hhands⟩ := hclaimed
    exact hhands.delivers hstarts

/-! ## Claimed decisions -/

theorem renewDecisionClaim_delivers (c : ClaimedDecision) :
    db.Delivers starts plans closes (renewDecisionClaim config now c db).2 := by
  unfold renewDecisionClaim
  split
  · exact .refl db
  · split_ifs
    · exact .updateDecisions _ fun d _ _ ↦ ⟨rfl, Or.inl rfl, fun _ ↦ Or.inl ⟨rfl, rfl, rfl⟩⟩
    · exact .refl db

theorem DecisionRow.HeldBy.isUnsent {d : DecisionRow} {c : ClaimedDecision} (h : d.HeldBy c) :
    d.status.isUnsent = true := by
  rw [h.1]
  rfl

theorem completeDecisionFailure_delivers (c : ClaimedDecision) (stage category : String)
    (body : Option (List (Text × Json))) :
    db.Delivers starts plans closes (completeDecisionFailure config now c stage category body db).2 := by
  unfold completeDecisionFailure
  split
  · exact .refl db
  · rename_i j hlock
    obtain ⟨hmem, hid, hheld, -⟩ := lockClaimedDecision_eq_some hlock
    split
    · refine .updateDecisions _ fun d hd hw ↦ ?_
      rw [decisionRow_eq_of_id hd hmem (hw.trans hid.symm)]
      exact .of_unsent rfl hheld.isUnsent rfl
    · split_ifs
      · exact .updateDecisions _ fun _ _ hw ↦ .of_unsent rfl hw.2.isUnsent rfl
      · exact .updateDecisions _ fun _ _ hw ↦ .of_unsent rfl hw.2.isUnsent rfl

theorem bindResponseCall_delivers (c : ClaimedDecision) (d : DecisionRow) (skillCallId : String) :
    db.Delivers starts plans closes (bindResponseCall now c d skillCallId db).2 := by
  unfold bindResponseCall
  simp only
  split
  · exact .refl db
  · split
    · exact .refl db
    · split
      · exact .insertCall _ fun hterminal ↦ Bool.noConfusion hterminal
      · split_ifs
        · exact .refl db
        · exact .refl db
        · exact .updateCalls _ fun _ _ _ ↦ .of_manual rfl rfl

theorem bindResponseCall_status (now : ℕ) (c : ClaimedDecision) (d : DecisionRow)
    (skillCallId : String) (db : Db) :
    (bindResponseCall now c d skillCallId db).1.status = .accepted ∨
      (bindResponseCall now c d skillCallId db).1.status = .manual := by
  unfold bindResponseCall
  simp only
  split
  · exact Or.inr rfl
  · split
    · exact Or.inr rfl
    · split
      · exact Or.inl rfl
      · split_ifs <;> simp only [or_true, true_or]

theorem bindResponseCall_status_ne (now : ℕ) (c : ClaimedDecision) (d : DecisionRow)
    (skillCallId : String) (db : Db) :
    (bindResponseCall now c d skillCallId db).1.status ≠ .sending := by
  cases bindResponseCall_status now c d skillCallId db with
  | inl haccepted =>
    rw [haccepted]
    exact DecisionStatus.noConfusion
  | inr hmanual =>
    rw [hmanual]
    exact DecisionStatus.noConfusion

theorem DecisionStatus.eq_accepted {s : DecisionStatus} (htaken : s.isTaken = true)
    (hs : s ≠ .sending) : s = .accepted := by
  cases s
  case accepted => rfl
  case sending => exact absurd rfl hs
  all_goals cases htaken

theorem completeDecisionResponse_delivers (c : ClaimedDecision) (response : DecisionClientResult)
    {record : ResponseRecord} (hrecord : record.status ≠ .sending) (hstarts : starts .accepted) :
    db.Delivers starts plans closes (db.completeDecisionResponse c response record) := by
  refine .updateDecisions _ fun d _ hw ↦ ⟨rfl, Or.inr (Or.inl hw.2.isUnsent), fun htaken ↦ ?_⟩
  have haccepted : record.status = .accepted := DecisionStatus.eq_accepted htaken hrecord
  apply Or.inr
  rw [← haccepted] at hstarts
  exact hstarts

theorem recordDecisionResponse_delivers {c : ClaimedDecision} {response : DecisionClientResult}
    {recorded : Bool} (hstarts : starts .accepted)
    (h : recordDecisionResponse now c response db = .ok (recorded, db')) :
    db.Delivers starts plans closes db' := by
  unfold recordDecisionResponse at h
  split at h
  · cases h
    exact .refl db
  · rename_i j _
    split_ifs at h
    · cases h
      exact .refl db
    · cases h
      exact completeDecisionResponse_delivers c response DecisionStatus.noConfusion hstarts
    · split at h
      · cases h
      · rename_i skillCallId _
        cases h
        apply (bindResponseCall_delivers c j.decision skillCallId).trans
        refine completeDecisionResponse_delivers c response ?_ hstarts
        exact bindResponseCall_status_ne now c j.decision skillCallId db
    all_goals
      cases h
      exact completeDecisionResponse_delivers c response DecisionStatus.noConfusion hstarts

theorem sweepExpiredDecisionClaims_delivers :
    db.Delivers starts plans closes (sweepExpiredDecisionClaims config now db) := by
  refine invariant_iterate (I := db.Delivers starts plans closes) (fun t t' hbody ht ↦ ht.trans ?_)
    (.refl db)
  obtain ⟨d, -, rfl⟩ := Option.map_eq_some_iff.1 hbody
  refine .updateDecisions _ fun d' _ hw ↦ .of_unsent rfl ?_ rfl
  rw [hw.2.1]
  rfl

/-! ## Terminal events -/

theorem recordSkillStarted_delivers (c : ClaimedEvent) (payload : SkillStartedPayload) :
    db.Delivers starts plans closes (recordSkillStarted now c payload db).2 := by
  unfold recordSkillStarted
  split
  · exact .refl db
  · exact .insertCall _ fun hterminal ↦ Bool.noConfusion hterminal
  · split
    · refine .updateCalls _ fun k _ hw ↦ ⟨rfl, fun _ ↦ ?_, fun hterminal ↦ Bool.noConfusion hterminal⟩
      rw [hw.2]
      rfl
    · exact .refl db
    · exact .refl db

theorem trackingStatusForTerminal_ne {status : CallStatus} {tracked : TrackingStatus}
    (h : trackingStatusForTerminal status = some tracked) : tracked ≠ .tracking := by
  cases status <;> cases h <;> exact TrackingStatus.noConfusion

/-- An effect that is applied settles the tracked action, which was tracked before. -/
theorem applyTerminalEffect_cases {trackingId : Uuid} {status : CallStatus}
    (h : applyTerminalEffect trackingId status db = .ok db') :
    ∃ tracked, trackingStatusForTerminal status = some tracked ∧
      (∃ a ∈ db.tracking, a.id = trackingId ∧ a.status = .tracking) ∧
      db' = db.updateTracking (fun a ↦ a.id = trackingId ∧ a.status = .tracking)
        { set a := { a with status := tracked }, key_set _ := rfl } := by
  unfold applyTerminalEffect at h
  split at h
  · cases h
  · rename_i tracked htracked
    split_ifs at h with hexists
    cases h
    exact ⟨tracked, htracked, hexists, rfl⟩

theorem applyTerminalEffect_delivers {trackingId : Uuid} {status : CallStatus}
    (h : applyTerminalEffect trackingId status db = .ok db') : db.Delivers starts plans closes db' := by
  obtain ⟨tracked, -, -, rfl⟩ := applyTerminalEffect_cases h
  refine ⟨.refl DecisionRow.Proceeds.refl _, .refl CallRow.Proceeds.refl _, ?_⟩
  exact .update TrackingRow.Proceeds.refl fun a _ hw ↦ ⟨rfl, fun hsettled ↦ absurd hw.2 hsettled⟩

theorem applyEffect_delivers {callId : Uuid} {trackingId : Option Uuid} {status : CallStatus}
    (h : applyEffect callId trackingId status db = .ok db') : db.Delivers starts plans closes db' := by
  unfold applyEffect at h
  split at h
  · cases h
    exact .refl db
  · obtain ⟨applied, happlied, h⟩ := bind_eq_ok_iff.1 h
    split_ifs at h
    cases h
    refine (applyTerminalEffect_delivers happlied).trans (.updateCalls _ fun _ _ _ ↦ ?_)
    exact ⟨rfl, id, fun hterminal ↦ Or.inl ⟨hterminal, fun _ ↦ rfl⟩⟩

theorem recordSkillFinished_delivers {c : ClaimedEvent} {payload : SkillFinishedPayload}
    {result : MutationResult} (h : recordSkillFinished now c payload db = .ok (result, db'))
    (hcloses : ∀ d call, CallLookUp c ⟨payload.decisionId, payload.skillCallId, payload.skillName⟩
      db d call → ∀ key : CallKey, key.decisionRowId = d.id → closes key) :
    db.Delivers starts plans closes db' := by
  unfold recordSkillFinished at h
  simp only at h
  split at h
  · cases h
    exact .refl db
  · rename_i d call hlookup
    rw [lookUpCall_eq_ok] at hlookup
    have hclose := hcloses d call hlookup
    split at h
    · obtain ⟨applied, happlied, h⟩ := bind_eq_ok_iff.1 h
      cases h
      exact .trans (.insertCall _ fun _ ↦ hclose _ rfl) (applyEffect_delivers happlied)
    · rename_i k
      split at h
      · cases h
        exact .refl db
      · cases h
        exact .updateCalls _ fun _ _ _ ↦ .of_manual rfl rfl
      · obtain ⟨applied, happlied, h⟩ := bind_eq_ok_iff.1 h
        cases h
        refine .trans (.updateCalls _ fun k' hk' hw ↦ ?_) (applyEffect_delivers happlied)
        have heq : k' = k := Table.eq_of_clashes hk' (hlookup.call_mem rfl) (Or.inl hw.1)
        have hown : k'.decisionRowId = d.id := by
          rw [heq]
          exact (hlookup.call_matches k rfl).1
        exact .of_closed rfl hw.2 (hclose k'.toCallKey hown)

theorem resolveDecisionRejection_status (status : DecisionStatus) (stored : Option String)
    (incoming : String) : (resolveDecisionRejection status stored incoming).status = .rejected ∨
      (resolveDecisionRejection status stored incoming).status = .manual := by
  cases status
  case accepted => exact Or.inr rfl
  case deadLetter => exact Or.inr rfl
  case manual => exact Or.inr rfl
  all_goals exact Or.inl rfl

theorem mergeDecisionRejected_delivers (c : ClaimedEvent) (payload : DecisionRejectedPayload) :
    db.Delivers starts plans closes (mergeDecisionRejected c payload db).2 := by
  unfold mergeDecisionRejected
  split
  · exact .refl db
  · rename_i decision _
    split_ifs
    · refine .updateDecisions _ fun d _ _ ↦ .of_closed rfl ?_
      exact resolveDecisionRejection_status decision.status decision.responseReason payload.reason
    · exact .refl db

theorem finishOpenCall_delivers {c : ClaimedEvent} {reason : String} {open_ : OpenCall}
    (h : finishOpenCall c reason db open_ = .ok db')
    (hcloses : ∀ key : CallKey, key.id = open_.call.id → closes key) :
    db.Delivers starts plans closes db' := by
  have hfinish {t : Db} {status : CallStatus} {terminalEventId : Option Uuid} {text : String}
      {effectStatus : EffectStatus} : t.Delivers starts plans closes
        (t.finishStopCall open_.call.id status terminalEventId text effectStatus) :=
    .updateCalls _ fun k _ hw ↦ .of_closed rfl hw.2 (hcloses k.toCallKey hw.1)
  unfold finishOpenCall at h
  split at h
  · cases h
    exact hfinish
  · split at h
    · cases h
      exact hfinish
    · obtain ⟨applied, happlied, h⟩ := bind_eq_ok_iff.1 h
      cases h
      exact (applyTerminalEffect_delivers happlied).trans hfinish

theorem closeGeneration_delivers {c : ClaimedEvent} {payload : SessionStoppedPayload}
    {result : MutationResult} (h : closeGeneration c payload db = .ok (result, db'))
    (hcloses : ∀ key, closes key) : db.Delivers starts plans closes db' := by
  have hcancel : db.Delivers starts plans closes (db.cancelUnsentDecisions c.cycleId) :=
    .updateDecisions _ fun _ _ hw ↦ .of_unsent rfl hw.2 rfl
  unfold closeGeneration at h
  split at h
  · cases h
    exact .refl db
  · simp only at h
    split at h
    · cases h
      refine hcancel.trans (List.foldlRecOn _ _ (.refl _) fun t ht o _ ↦ ht.trans ?_)
      exact .updateCalls _ fun _ _ _ ↦ .of_manual rfl rfl
    · obtain ⟨finished, hfinished, h⟩ := bind_eq_ok_iff.1 h
      split_ifs at h
      cases h
      have hcalls := foldlM_invariant
        (I := (db.cancelUnsentDecisions c.cycleId).Delivers starts plans closes)
        (fun s o _ s' hs hstep ↦ hs.trans (finishOpenCall_delivers hstep fun key _ ↦ hcloses key))
        (.refl _) hfinished
      exact hcancel.trans (hcalls.trans (.of_same ⟨rfl, rfl, rfl⟩))

end LlmGateway
