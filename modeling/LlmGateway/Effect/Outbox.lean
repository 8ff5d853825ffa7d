import LlmGateway.Effect.Maintenance
import LlmGateway.Outbox.Closing
import LlmGateway.Relational.Outcome

/-!
# Transactions on decisions and calls

Most transactions of the outbox and of the terminal repository leave sessions, cycles and
events alone. A decision becomes or stays unsent only as it was, or while its cycle is
active; a new decision is planned from the latest lease of an active cycle.
-/

namespace LlmGateway

open Relational

variable {config : WorkerConfig} {now : ℕ} {P : Branch → Prop} {db db' db'' : Db}

/-- A new call under a new identifier, for a decision that has none. -/
theorem Db.CallsSound.insert {row : CallRow} {calls : Table CallRow} (h : db.CallsSound)
    (hinsert : db.calls.insert? row = some calls) (hid : row.id = db.nextUuid)
    (hdecision : ∃ d ∈ db.decisions, d.Calls row.toCallKey)
    (hfree : ∀ k ∈ db.calls, k.decisionRowId ≠ row.decisionRowId) :
    ({ db.bumpUuid with calls := calls } : Db).CallsSound := by
  have hmem {k : CallRow} (hk : k ∈ calls) : k ∈ db.calls ∨ k = row :=
    (Table.mem_of_insert? hinsert).1 hk
  refine ⟨fun k hk ↦ ?_, fun k hk ↦ ?_, fun k hk k' hk' hdid ↦ ?_⟩
  · cases hmem hk with
    | inl hold => exact (h.issued k hold).trans (Nat.lt_succ_self _)
    | inr heq =>
      rw [heq, hid]
      exact Nat.lt_succ_self _
  · cases hmem hk with
    | inl hold => exact h.decision k hold
    | inr heq => exact heq ▸ hdecision
  · cases hmem hk with
    | inl hold =>
      cases hmem hk' with
      | inl hold' => exact h.unique k hold k' hold' hdid
      | inr heq' => exact absurd (hdid.trans (by rw [heq'])) (hfree k hold)
    | inr heq =>
      cases hmem hk' with
      | inl hold' => exact absurd (hdid.symm.trans (by rw [heq])) (hfree k' hold')
      | inr heq' => rw [heq, heq']

theorem insertCall_step {row : CallRow}
    (hrow : db.CallsSound → row.id = db.nextUuid ∧ (∃ d ∈ db.decisions, d.Calls row.toCallKey) ∧
      ∀ k ∈ db.calls, k.decisionRowId ≠ row.decisionRowId) :
    db.OutboxStep (db.insertCall row) := by
  unfold Db.insertCall
  split
  · rename_i calls hinsert
    refine .of_decisions_eq rfl rfl rfl (Nat.le_succ _) rfl fun h ↦ ?_
    obtain ⟨hid, hdecision, hfree⟩ := hrow h
    exact h.insert hinsert hid hdecision hfree
  · exact .refl db

/-! ## Planning -/

theorem trackAction_step (c : ClaimedEvent) (action : AgentAction) :
    db.OutboxStep (db.trackAction c action).2 := by
  unfold Db.trackAction
  split
  · unfold Db.insertActionTracking
    split
    · exact .of_calls rfl rfl rfl (Nat.le_succ _) rfl fun k hk ↦ ⟨k, hk, rfl⟩
    · exact .refl db
  · exact .refl db

theorem trackAction_decisions (c : ClaimedEvent) (action : AgentAction) :
    (db.trackAction c action).2.decisions = db.decisions := by
  unfold Db.trackAction
  split
  · unfold Db.insertActionTracking
    split <;> rfl
  · rfl

/-- A tracked action is stored for a call of a skill, under a new identifier. -/
theorem trackAction_cases (db : Db) (c : ClaimedEvent) (action : AgentAction) :
    (db.trackAction c action).1 = none ∨
      ((db.trackAction c action).1 = some db.nextUuid ∧ action.kind.action = .callSkill ∧
        (db.trackAction c action).2.issued = db.issued + 1) := by
  unfold Db.trackAction
  cases hkind : action.kind with
  | callSkill skillName schemaVersion arguments tracking =>
    cases tracking with
    | none => exact Or.inl rfl
    | some metadata =>
      simp only [ActionKind.tracking?, Db.insertActionTracking]
      split
      · exact Or.inr ⟨rfl, rfl, rfl⟩
      · exact Or.inl rfl
  | wait => exact Or.inl rfl
  | noOp => exact Or.inl rfl
  | stopHosting => exact Or.inl rfl

/-- A new decision keeps the tracked actions apart when its own one is new. -/
theorem Db.Tracked.insert {decisions : Table DecisionRow} {row : DecisionRow} (h : db.Tracked)
    (hinsert : db'.decisions.insert? row = some decisions) (hdecisions : db'.decisions = db.decisions)
    (hissued : db.issued ≤ db'.issued)
    (hrow : ∀ t ∈ row.actionTrackingId, db.issued ≤ t.serial ∧ t.serial < db'.issued ∧
      row.action = .callSkill) :
    ({ db'.bumpUuid with decisions := decisions } : Db).Tracked := by
  have hmem {d : DecisionRow} (hd : d ∈ decisions) : d ∈ db.decisions ∨ d = row := by
    rw [← hdecisions]
    exact (Table.mem_of_insert? hinsert).1 hd
  have hbump : db.issued ≤ db'.issued + 1 := hissued.trans (Nat.le_succ _)
  have hnew {d : DecisionRow} {t : Uuid} (hd : d ∈ db.decisions) (ht : t ∈ d.actionTrackingId)
      (htrow : t ∈ row.actionTrackingId) : False :=
    absurd (h.issued d hd t ht) (not_lt.2 (hrow t htrow).1)
  refine ⟨?_, ?_, ?_⟩
  · intro d hd t ht
    cases hmem hd with
    | inl hold => exact (h.issued d hold t ht).trans_le hbump
    | inr heq =>
      rw [heq] at ht
      exact (hrow t ht).2.1.trans (Nat.lt_succ_self _)
  · intro d₁ hd₁ d₂ hd₂ t ht₁ ht₂
    cases hmem hd₁ with
    | inl hold₁ =>
      cases hmem hd₂ with
      | inl hold₂ => exact h.unique d₁ hold₁ d₂ hold₂ t ht₁ ht₂
      | inr heq₂ => exact (hnew hold₁ ht₁ (heq₂ ▸ ht₂)).elim
    | inr heq₁ =>
      cases hmem hd₂ with
      | inl hold₂ => exact (hnew hold₂ ht₂ (heq₁ ▸ ht₁)).elim
      | inr heq₂ => rw [heq₁, heq₂]
  · intro d hd htracked
    cases hmem hd with
    | inl hold => exact h.callSkill d hold htracked
    | inr heq =>
      rw [heq] at htracked ⊢
      obtain ⟨t, ht⟩ := Option.isSome_iff_exists.1 htracked
      exact (hrow t ht).2.2

theorem insertPlanned_step {config : OutboxConfig} {c : ClaimedEvent} {context : AgentContext}
    {action : AgentAction} {reservation : Reservation} {body : DecisionBody} {decisionId : String}
    (hplanned : ∃ cycle ∈ db.cycles, cycle.id = c.cycleId ∧ cycle.status = .active ∧
      cycle.latestDecisionLeaseId = some context.decisionLeaseId ∧
      cycle.latestStateVersion = some context.stateVersion) :
    db.OutboxStep (insertPlanned config now c context action reservation body decisionId db).2 := by
  unfold insertPlanned
  have hstep : db.OutboxStep (db.trackAction c action).2 := trackAction_step c action
  simp only
  split_ifs
  · exact .refl db
  · exact .refl db
  · split
    · rename_i decisions hinsert
      have hdecisions : (db.trackAction c action).2.decisions = db.decisions :=
        trackAction_decisions c action
      refine ⟨hstep.sessions_eq, hstep.cycles_eq, hstep.events_eq,
        hstep.issued_le.trans (Nat.le_succ _), ?_, fun htracked ↦ ?_, fun hcalls ↦ ?_⟩
      · rw [hdecisions] at hinsert
        refine Table.Evolves.insert (DecisionRow.Moves.refl _) ?_ hinsert
        exact hplanned
      · refine htracked.insert hinsert hdecisions hstep.issued_le fun t ht ↦ ?_
        cases trackAction_cases db c action with
        | inl hnone => exact absurd (hnone.symm.trans ht) (Option.some_ne_none t).symm
        | inr htrack =>
          obtain ⟨hid, haction, hissued⟩ := htrack
          have heq : db.nextUuid = t := Option.some.inj (hid.symm.trans ht)
          rw [hissued, ← heq]
          exact ⟨le_refl _, Nat.lt_succ_self _, haction⟩
      · refine (hstep.calls hcalls).of_keys (Nat.le_succ _) (fun d hd ↦ ?_) fun k hk ↦ ⟨k, hk, rfl⟩
        exact ⟨d, (Table.mem_of_insert? hinsert).2 (Or.inl hd), rfl⟩
    · exact .refl db

theorem planDecision_step {config : OutboxConfig} {c : ClaimedEvent} {context : AgentContext}
    {action : AgentAction} {decisionId : String} :
    db.OutboxStep (planDecision config now c context action decisionId db).2 := by
  unfold planDecision
  split
  · exact .refl db
  rename_i j hlock
  simp only [Option.filter_eq_some_iff, decide_eq_true_eq] at hlock
  obtain ⟨hsource, -, -, hcid, hactive, hlease, hversion, -⟩ := hlock
  obtain ⟨e, he, hj⟩ := Option.bind_eq_some_iff.1 hsource
  have hjoins := ((joinEvent_eq_some (eventById_eq_some.1 he).1).1 hj).1
  simp only [planFenced]
  split
  · split_ifs
    · exact .refl db
    · exact .update_sent _ _ fun _ _ ↦ rfl
  · split_ifs
    · exact .refl db
    · exact .refl db
    · split
      · exact .refl db
      split
      · exact .update_sent _ _ fun _ _ ↦ rfl
      · exact insertPlanned_step ⟨j.cycle, hjoins.cycle_mem, hcid, hactive, hlease, hversion⟩

/-! ## Delivery -/

theorem JoinedDecision.active_of_fenceError {j : JoinedDecision} {claimedFence : Option ℕ}
    (h : j.fenceError now claimedFence = none) : j.cycle.status = .active := by
  by_contra hstatus
  simp [fenceError, hstatus] at h

theorem joinDecision_eq_some {d : DecisionRow} {j : JoinedDecision}
    (h : db.joinDecision d = some j) :
    j.decision = d ∧ j.cycle ∈ db.cycles ∧ j.cycle.id = d.cycleId := by
  simp only [Db.joinDecision, Option.bind_eq_bind, Option.bind_eq_some_iff, cycleById_eq_some,
    Option.some.injEq] at h
  obtain ⟨cycle, ⟨hmem, hid⟩, _, -, _, -, rfl⟩ := h
  exact ⟨rfl, hmem, hid⟩

theorem decisionCandidate_eq_some {maxAttempts : ℕ} {j : JoinedDecision}
    (h : db.decisionCandidate maxAttempts now = some j) :
    j.decision ∈ db.decisions ∧ j.cycle ∈ db.cycles ∧ j.cycle.id = j.decision.cycleId := by
  obtain ⟨d, hd, hj⟩ := List.mem_filterMap.1 (List.mem_of_mem_head? h)
  obtain ⟨rfl, hcycle, hid⟩ := joinDecision_eq_some hj
  exact ⟨(Table.mem_select.1 (mem_orderBy.1 hd)).1, hcycle, hid⟩

theorem decisionRow_eq_of_id {d d' : DecisionRow} (hd : d ∈ db.decisions)
    (hd' : d' ∈ db.decisions) (h : d.id = d'.id) : d = d' :=
  Table.eq_of_clashes hd hd' (DecisionRow.clashes_of_id h)

/-- The claim repeats the key of its decision. -/
structure ClaimedDecision.Describes (c : ClaimedDecision) (d : DecisionKey) : Prop where
  rowId : c.rowId = d.id
  cycleId : c.cycleId = d.cycleId
  gatewayId : c.gatewayId = d.gatewayId
  sessionId : c.sessionId = d.sessionId
  decisionId : c.decisionId = d.decisionId
  action : c.action = d.action
  requestBody : c.requestBody = d.requestBody

/-- A decision that is handed out is described by its claim. -/
theorem claimNextDecision_describes {workerId : String} {c : ClaimedDecision}
    (h : claimNextDecision config now workerId db = (some c, db')) :
    ∃ d ∈ db'.decisions, c.Describes d.toDecisionKey := by
  unfold claimNextDecision handOutDecision at h
  split at h
  · cases h
  · rename_i j hcandidate
    split_ifs at h
    · cases h
    · cases h
      obtain ⟨hd, -⟩ := decisionCandidate_eq_some hcandidate
      have hdesc (d : DecisionRow) (hkey : d.toDecisionKey = j.decision.toDecisionKey) :
          (buildClaimedDecision config now workerId j
            (iterate (cancelFencedCandidate config now) (db.decisions.rows.length + 1) db).nextUuid
            ).Describes d.toDecisionKey := by
        rw [hkey]
        exact ⟨rfl, rfl, rfl, rfl, rfl, rfl, rfl⟩
      exact Exists.imp (fun d h ↦ ⟨h.1, hdesc d h.2⟩) (Table.exists_mem_update hd)

theorem claimNextDecision_step (workerId : String) :
    db.OutboxStep (claimNextDecision config now workerId db).2 := by
  have hloop (n : ℕ) : db.OutboxStep (iterate (cancelFencedCandidate config now) n db) := by
    refine invariant_iterate (fun s s' hbody hs ↦ hs.trans ?_) (.refl db)
    simp only [cancelFencedCandidate, Option.bind_eq_bind, Option.bind_eq_some_iff,
      Option.some.injEq] at hbody
    obtain ⟨j, -, category, -, rfl⟩ := hbody
    exact .update_sent _ _ fun _ _ ↦ rfl
  unfold claimNextDecision
  refine (hloop (db.decisions.rows.length + 1)).trans ?_
  unfold handOutDecision
  split
  · exact .refl _
  · rename_i j hcandidate
    split_ifs with hfence
    · exact .refl _
    · simp only [Option.isSome_iff_ne_none, ne_eq, not_not] at hfence
      obtain ⟨hd, hcycle, hid⟩ := decisionCandidate_eq_some hcandidate
      refine (Db.OutboxStep.bumpUuid _).trans (.update _ _ fun d hdmem hw _ ↦ Or.inr ⟨j.cycle, hcycle, ?_,
        JoinedDecision.active_of_fenceError hfence⟩)
      rw [hid, decisionRow_eq_of_id hdmem hd hw.1]

theorem lockClaimedDecision_eq_some {c : ClaimedDecision} {j : JoinedDecision}
    (h : db.lockClaimedDecision c = some j) :
    j.decision ∈ db.decisions ∧ j.decision.id = c.rowId ∧ j.decision.HeldBy c ∧
      j.cycle ∈ db.cycles ∧ j.cycle.id = j.decision.cycleId := by
  simp only [Db.lockClaimedDecision, Option.bind_eq_some_iff, Option.filter_eq_some_iff,
    decide_eq_true_eq] at h
  obtain ⟨d, ⟨hfind, hheld⟩, hj⟩ := h
  obtain ⟨rfl, hcycle, hid⟩ := joinDecision_eq_some hj
  have hrow : j.decision.id = c.rowId :=
    Table.of_find?_eq_some (w := fun d : DecisionRow ↦ d.id = c.rowId) hfind
  exact ⟨Table.mem_of_find?_eq_some hfind, hrow, hheld, hcycle, hid⟩

theorem renewDecisionClaim_step (c : ClaimedDecision) :
    db.OutboxStep (renewDecisionClaim config now c db).2 := by
  unfold renewDecisionClaim
  split
  · exact .refl db
  · split_ifs
    · exact .update _ _ fun _ _ _ _ ↦ Or.inl ⟨rfl, rfl⟩
    · exact .refl db

theorem completeDecisionFailure_step (c : ClaimedDecision) (stage category : String)
    (body : Option (List (Text × Json))) :
    db.OutboxStep (completeDecisionFailure config now c stage category body db).2 := by
  unfold completeDecisionFailure
  split
  · exact .refl db
  · rename_i j hlock
    split
    · exact .update_sent _ _ fun _ _ ↦ rfl
    · rename_i hfence
      obtain ⟨hd, hid, -, hcycle, hcid⟩ := lockClaimedDecision_eq_some hlock
      split_ifs
      · exact .update_sent _ _ fun _ _ ↦ rfl
      · refine .update _ _ fun d hdmem hw _ ↦ Or.inr ⟨j.cycle, hcycle, ?_,
          JoinedDecision.active_of_fenceError hfence⟩
        rw [hcid, decisionRow_eq_of_id hdmem hd (hw.1.trans hid.symm)]

theorem callForDecision_eq_none {rowId : Uuid} (h : db.callForDecision rowId = none) :
    ∀ k ∈ db.calls, k.decisionRowId ≠ rowId :=
  Table.find?_eq_none.1 h

theorem callByName_eq_none {gatewayId skillCallId : String}
    (h : db.callByName gatewayId skillCallId = none) :
    ∀ k ∈ db.calls, ¬(k.gatewayId = gatewayId ∧ k.skillCallId = skillCallId) :=
  Table.find?_eq_none.1 h

/-- A decision whose call is unknown by its name has no call of that name, and no other. -/
theorem Db.CallsSound.free (h : db.CallsSound) {d : DecisionRow} (hd : d ∈ db.decisions)
    {skillCallId : String} (hnone : db.callByName d.gatewayId skillCallId = none)
    (hown : ∀ k ∈ db.callForDecision d.id, k.skillCallId = skillCallId) :
    ∀ k ∈ db.calls, k.decisionRowId ≠ d.id := by
  cases hfind : db.callForDecision d.id with
  | none => exact callForDecision_eq_none hfind
  | some k =>
    obtain ⟨d', hd', hcalls⟩ := h.decision k (Table.mem_of_find?_eq_some hfind)
    have hrow : k.decisionRowId = d.id :=
      Table.of_find?_eq_some (w := fun k : CallRow ↦ k.decisionRowId = d.id) hfind
    obtain rfl := decisionRow_eq_of_id hd' hd (hcalls.1.trans hrow)
    refine absurd ⟨hcalls.2.1.symm, hown k hfind⟩ (callByName_eq_none hnone k ?_)
    exact Table.mem_of_find?_eq_some hfind

theorem bindResponseCall_step {c : ClaimedDecision} {d : DecisionRow} (hd : d ∈ db.decisions)
    (hdesc : c.Describes d.toDecisionKey) (skillCallId : String) :
    db.OutboxStep (bindResponseCall now c d skillCallId db).2 ∧
      (bindResponseCall now c d skillCallId db).1.status.isUnsent = false := by
  unfold bindResponseCall
  simp only
  split
  · exact ⟨.refl db, rfl⟩
  · rename_i skillName hskill
    split
    · exact ⟨.refl db, rfl⟩
    · rename_i hother
      split
      · rename_i hnone
        refine ⟨insertCall_step fun hcalls ↦ ⟨rfl, ⟨d, hd, ?_⟩, ?_⟩, rfl⟩
        · exact ⟨hdesc.rowId.symm, hdesc.gatewayId.symm, hdesc.decisionId.symm,
            hdesc.sessionId.symm, hskill⟩
        · rw [hdesc.gatewayId] at hnone
          rw [hdesc.rowId] at hother
          simp only [hdesc.rowId]
          refine hcalls.free hd hnone fun k hk ↦ ?_
          have hsame := (Option.filter_eq_none_iff.1 hother) k hk
          simpa only [decide_eq_true_eq, ne_eq, not_not] using hsame
      · split_ifs
        · exact ⟨.refl db, rfl⟩
        · exact ⟨.refl db, rfl⟩
        · exact ⟨.updateCalls _ _ _, rfl⟩

theorem completeDecisionResponse_step (c : ClaimedDecision) (response : DecisionClientResult)
    {record : ResponseRecord} (hrecord : record.status.isUnsent = false) :
    db.OutboxStep (db.completeDecisionResponse c response record) :=
  .update_sent _ _ fun _ _ ↦ hrecord

theorem recordDecisionResponse_step {c : ClaimedDecision} {response : DecisionClientResult}
    {recorded : Bool} (hdesc : ∃ d ∈ db.decisions, c.Describes d.toDecisionKey)
    (h : recordDecisionResponse now c response db = .ok (recorded, db')) :
    db.OutboxStep db' := by
  unfold recordDecisionResponse at h
  split at h
  · cases h
    exact .refl db
  · rename_i j hlock
    split_ifs at h with hfence hconflict haccepted
    · cases h
      exact .refl db
    · cases h
      exact completeDecisionResponse_step c response rfl
    · split at h
      · cases h
      · cases h
        obtain ⟨hd, hid, -⟩ := lockClaimedDecision_eq_some hlock
        obtain ⟨d, hd', hdesc⟩ := hdesc
        obtain rfl := decisionRow_eq_of_id hd' hd (hdesc.rowId.symm.trans hid.symm)
        obtain ⟨hstep, hstatus⟩ := bindResponseCall_step hd hdesc _
        exact hstep.trans (completeDecisionResponse_step c response hstatus)
    all_goals
      cases h
      exact completeDecisionResponse_step c response rfl

theorem sweepExpiredDecisionClaims_step :
    db.OutboxStep (sweepExpiredDecisionClaims config now db) := by
  refine invariant_iterate (fun s s' hbody hs ↦ hs.trans ?_) (.refl db)
  obtain ⟨d, -, rfl⟩ := Option.map_eq_some_iff.1 hbody
  exact .update_sent _ _ fun _ _ ↦ rfl

/-! ## Terminal events -/

/-- The decision that an event names, and the call that it speaks about. -/
structure CallLookUp (c : ClaimedEvent) (reference : CallReference) (db : Db) (d : DecisionRow)
    (call : Option CallRow) : Prop where
  decision_mem : d ∈ db.decisions
  gatewayId : d.gatewayId = c.gatewayId
  decisionId : d.decisionId = reference.decisionId
  skillName : d.skillName = some reference.skillName
  sessionId : d.sessionId = c.event.sessionId
  own : ∀ k ∈ db.callForDecision d.id, k.skillCallId = reference.skillCallId
  call_eq : call = (db.callForDecision d.id).or (db.callByName c.gatewayId reference.skillCallId)
  call_matches : ∀ k ∈ call, k.MatchesIdentity d c.event.sessionId reference.skillName

theorem lookUpCall_eq_ok {c : ClaimedEvent} {reference : CallReference} {d : DecisionRow}
    {call : Option CallRow} : lookUpCall c reference db = .ok (d, call) ↔
      CallLookUp c reference db d call := by
  unfold lookUpCall
  simp only
  cases hname : db.decisionByName c.gatewayId reference.decisionId with
  | none =>
    simp only [reduceCtorEq, false_iff]
    intro h
    exact absurd ⟨h.gatewayId, h.decisionId⟩ (Table.find?_eq_none.1 hname d h.decision_mem)
  | some decision =>
    have hmem : decision ∈ db.decisions := Table.mem_of_find?_eq_some hname
    have hnames : decision.gatewayId = c.gatewayId ∧ decision.decisionId = reference.decisionId :=
      Table.of_find?_eq_some (w := fun d : DecisionRow ↦
        d.gatewayId = c.gatewayId ∧ d.decisionId = reference.decisionId) hname
    have hsame (h : CallLookUp c reference db d call) : d = decision :=
      Table.eq_of_clashes h.decision_mem hmem (Or.inr (Or.inl
        ⟨h.gatewayId.trans hnames.1.symm, h.decisionId.trans hnames.2.symm⟩))
    simp only
    cases hskill : decision.skillName with
    | none =>
      simp only [reduceCtorEq, false_iff]
      intro h
      rw [← hsame h, h.skillName] at hskill
      cases hskill
    | some skillName =>
      simp only
      constructor
      · intro h
        split_ifs at h with hidentity hown hmatches
        obtain ⟨rfl, hcall⟩ : decision = d ∧ _ = call := by
          simpa only [Except.ok.injEq, Prod.mk.injEq] using h
        push Not at hidentity hown hmatches
        refine ⟨hmem, hnames.1, hnames.2, ?_, hidentity.1, hown, hcall.symm, ?_⟩
        · rw [hskill, hidentity.2]
        · rw [← hcall]
          exact hmatches
      · intro h
        obtain rfl := hsame h
        have hskillName : reference.skillName = skillName :=
          Option.some.inj (h.skillName.symm.trans hskill)
        rw [if_neg (by push Not; exact ⟨h.sessionId, hskillName⟩),
          if_neg (by push Not; exact h.own), ← h.call_eq,
          if_neg (by push Not; exact h.call_matches)]

/-- The row that is inserted when the event is the first to speak about its call. -/
theorem newCallRow_step {c : ClaimedEvent} {reference : CallReference} {d : DecisionRow}
    (hsession : c.sessionId = c.event.sessionId)
    (hlookup : CallLookUp c reference db d none) (record : TerminalRecord)
    (terminalEventId : Option Uuid) (effectStatus : EffectStatus) :
    db.OutboxStep (db.insertCall (db.newCallRow now c d reference.skillCallId reference.skillName
      record terminalEventId effectStatus)) := by
  refine insertCall_step fun _ ↦ ⟨rfl, ⟨d, hlookup.decision_mem, ?_⟩, ?_⟩
  · exact ⟨rfl, hlookup.gatewayId, rfl, hlookup.sessionId.trans hsession.symm, hlookup.skillName⟩
  · exact callForDecision_eq_none (Option.or_eq_none_iff.1 hlookup.call_eq.symm).1

theorem recordSkillStarted_step {c : ClaimedEvent} (hsession : c.sessionId = c.event.sessionId)
    (payload : SkillStartedPayload) : db.OutboxStep (recordSkillStarted now c payload db).2 := by
  unfold recordSkillStarted
  split
  · exact .refl db
  · rename_i hlookup
    exact newCallRow_step hsession (lookUpCall_eq_ok.1 hlookup) _ _ _
  · split
    · exact .updateCalls _ _ _
    · exact .refl db
    · exact .refl db

theorem applyTerminalEffect_step {trackingId : Uuid} {status : CallStatus}
    (h : applyTerminalEffect trackingId status db = .ok db') : db.OutboxStep db' := by
  unfold applyTerminalEffect at h
  split at h
  · cases h
  · split_ifs at h
    cases h
    exact .updateTracking _ _ _

theorem applyEffect_step {callId : Uuid} {trackingId : Option Uuid} {status : CallStatus}
    (h : applyEffect callId trackingId status db = .ok db') : db.OutboxStep db' := by
  unfold applyEffect at h
  split at h
  · cases h
    exact .refl db
  · obtain ⟨applied, happlied, h⟩ := bind_eq_ok_iff.1 h
    split_ifs at h
    cases h
    exact (applyTerminalEffect_step happlied).trans
      (.updateCalls _ _ _)

theorem updateTerminal_step (rowId eventId : Uuid) (record : TerminalRecord)
    (effectStatus : EffectStatus) :
    db.OutboxStep (db.updateTerminal rowId eventId record effectStatus) := .updateCalls _ _ _

theorem recordSkillFinished_step {c : ClaimedEvent} {payload : SkillFinishedPayload}
    {result : MutationResult} (hsession : c.sessionId = c.event.sessionId)
    (h : recordSkillFinished now c payload db = .ok (result, db')) : db.OutboxStep db' := by
  unfold recordSkillFinished at h
  simp only at h
  split at h
  · cases h
    exact .refl db
  · rename_i hlookup
    split at h
    · obtain ⟨applied, happlied, h⟩ := bind_eq_ok_iff.1 h
      cases h
      exact (newCallRow_step hsession (lookUpCall_eq_ok.1 hlookup) _ _ _).trans
        (applyEffect_step happlied)
    · split at h
      · cases h
        exact .refl db
      · cases h
        exact .updateCalls _ _ _
      · obtain ⟨applied, happlied, h⟩ := bind_eq_ok_iff.1 h
        cases h
        exact (updateTerminal_step _ _ _ _).trans (applyEffect_step happlied)

theorem resolveDecisionRejection_sent (status : DecisionStatus) (stored : Option String)
    (incoming : String) : (resolveDecisionRejection status stored incoming).status.isUnsent =
      false := by
  cases status <;> rfl

theorem mergeDecisionRejected_step (c : ClaimedEvent) (payload : DecisionRejectedPayload) :
    db.OutboxStep (mergeDecisionRejected c payload db).2 := by
  unfold mergeDecisionRejected
  split
  · exact .refl db
  · split_ifs
    · exact .update_sent _ _ fun _ _ ↦ resolveDecisionRejection_sent _ _ _
    · exact .refl db

/-! ## Closing a generation -/

theorem finishOpenCall_step {c : ClaimedEvent} {reason : String} {open_ : OpenCall}
    (h : finishOpenCall c reason db open_ = .ok db') : db.OutboxStep db' := by
  unfold finishOpenCall at h
  split at h
  · cases h
    exact .updateCalls _ _ _
  · split at h
    · cases h
      exact .updateCalls _ _ _
    · obtain ⟨applied, happlied, h⟩ := bind_eq_ok_iff.1 h
      cases h
      exact (applyTerminalEffect_step happlied).trans
        (.updateCalls _ _ _)

/-- A closing that commits changes nothing, marks ambiguous calls, or stops the generation
after it has cancelled its decisions and ended its calls. -/
theorem closeGeneration_cases {c : ClaimedEvent} {payload : SessionStoppedPayload}
    {result : MutationResult} (h : closeGeneration c payload db = .ok (result, db')) :
    db' = db ∨ ∃ j, db.lockClaim c = some j ∧ j.IsCurrentClaim c ∧
      (db.OutboxStep db' ∨
        ∃ finished, db.OutboxStep finished ∧ db' = closeRows j c finished) := by
  unfold closeGeneration at h
  rcases hlock : (db.lockClaim c).filter fun j ↦ j.IsCurrentClaim c with _ | j
  · simp only [hlock] at h
    cases h
    exact Or.inl rfl
  simp only [hlock] at h
  simp only [Option.filter_eq_some_iff, decide_eq_true_eq] at hlock
  refine Or.inr ⟨j, hlock.1, hlock.2, ?_⟩
  have hcancel : db.OutboxStep (db.cancelUnsentDecisions c.cycleId) :=
    .update_sent _ _ fun _ _ ↦ rfl
  split at h
  · cases h
    refine Or.inl (hcancel.trans ?_)
    exact List.foldlRecOn _ _ (.refl _) fun t ht _ _ ↦
      ht.trans (.updateCalls _ _ _)
  · obtain ⟨finished, hfinished, h⟩ := bind_eq_ok_iff.1 h
    split_ifs at h
    cases h
    refine Or.inr ⟨finished, hcancel.trans ?_, rfl⟩
    exact foldlM_invariant (I := fun t ↦ (db.cancelUnsentDecisions c.cycleId).OutboxStep t)
      (fun s o _ s' hs hstep ↦ hs.trans (finishOpenCall_step hstep)) (.refl _) hfinished

end LlmGateway
