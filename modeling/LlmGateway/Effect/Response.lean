import LlmGateway.Effect.SkillCall

/-!
# Responses

What an accepted response does. For an action without a skill it makes the decision accepted; for
a skill action it does so when the call that the response names is free or the own call of the
decision, and else it gives the decision to an operator.
-/

namespace LlmGateway

open Relational

variable {now : ℕ} {db db' : Db} {c : ClaimedDecision} {d : DecisionRow}

/-- The response may name this call for the decision. -/
structure Db.BindsCall (db : Db) (d : DecisionRow) (skillCallId : String) : Prop where
  skill : d.skillName.isSome = true
  own : ∀ k ∈ db.calls, k.decisionRowId = d.id → k.skillCallId = skillCallId
  named : ∀ k ∈ db.calls, k.gatewayId = d.gatewayId → k.skillCallId = skillCallId →
    k.decisionRowId = d.id ∧ k.status ≠ .manual

/-- The call has the name that the response gives, and belongs to the decision. -/
def Db.HasCall (db : Db) (rowId : Uuid) (skillCallId : String) : Prop :=
  ∃ k ∈ db.calls, k.decisionRowId = rowId ∧ k.skillCallId = skillCallId

/-- An own call of the decision matches the response that names it. -/
theorem Db.CallsSound.responseMatches (hcalls : db.CallsSound) (hd : d ∈ db.decisions)
    (hdesc : c.Describes d.toDecisionKey) {skillName : String}
    (hskill : d.skillName = some skillName) {k : CallRow} (hk : k ∈ db.calls)
    (hown : k.decisionRowId = d.id) : k.ResponseMatches c skillName := by
  obtain ⟨d', hd', hcall⟩ := hcalls.decision k hk
  obtain rfl : d' = d := decisionRow_eq_of_id hd' hd (hcall.1.trans hown)
  refine ⟨hown.trans hdesc.rowId.symm, hcall.2.2.1.symm.trans hdesc.decisionId.symm, ?_⟩
  exact Option.some.inj (hcall.2.2.2.2.symm.trans hskill)

theorem bindResponseCall_spec (hcalls : db.CallsSound) (hd : d ∈ db.decisions)
    (hdesc : c.Describes d.toDecisionKey) (now : ℕ) (skillCallId : String) :
    (db.BindsCall d skillCallId ∧ (bindResponseCall now c d skillCallId db).1.status = .accepted ∧
        (bindResponseCall now c d skillCallId db).2.HasCall d.id skillCallId) ∨
      (¬db.BindsCall d skillCallId ∧
        (bindResponseCall now c d skillCallId db).1.status = .manual) := by
  unfold bindResponseCall
  simp only
  split
  · rename_i hskill
    refine Or.inr ⟨fun hbinds ↦ ?_, rfl⟩
    have hsome := hbinds.skill
    rw [hskill] at hsome
    cases hsome
  · rename_i skillName hskill
    have hsome : d.skillName.isSome = true := by
      rw [hskill]
      rfl
    split
    · rename_i other hother
      obtain ⟨hfind, hne⟩ := Option.filter_eq_some_iff.1 hother
      have hrow : other.decisionRowId = c.rowId :=
        Table.of_find?_eq_some (w := fun k : CallRow ↦ k.decisionRowId = c.rowId) hfind
      refine Or.inr ⟨fun hbinds ↦ of_decide_eq_true hne ?_, rfl⟩
      exact hbinds.own other (Table.mem_of_find?_eq_some hfind) (hrow.trans hdesc.rowId)
    · rename_i hother
      have hown : ∀ k ∈ db.calls, k.decisionRowId = d.id → k.skillCallId = skillCallId := by
        intro k hk hrow
        have hfind := hcalls.callForDecision_eq hk (hrow.trans hdesc.rowId.symm)
        have hsame := Option.filter_eq_none_iff.1 hother k hfind
        simpa only [decide_eq_true_eq, ne_eq, not_not] using hsame
      split
      · rename_i hnone
        have hfree := callByName_eq_none hnone
        refine Or.inl ⟨⟨hsome, hown, fun k hk hgateway hname ↦ ?_⟩, rfl, ?_⟩
        · exact absurd ⟨hgateway.trans hdesc.gatewayId.symm, hname⟩ (hfree k hk)
        · exact ⟨_, insertCall_mem hcalls rfl hfree, hdesc.rowId, rfl⟩
      · rename_i call hcall
        have hmem : call ∈ db.calls := Table.mem_of_find?_eq_some hcall
        have hname : call.gatewayId = c.gatewayId ∧ call.skillCallId = skillCallId :=
          Table.of_find?_eq_some (w := fun k : CallRow ↦
            k.gatewayId = c.gatewayId ∧ k.skillCallId = skillCallId) hcall
        split_ifs with hmatches hmanual
        · refine Or.inr ⟨fun hbinds ↦ ?_, rfl⟩
          exact (hbinds.named call hmem (hname.1.trans hdesc.gatewayId) hname.2).2 hmanual
        · have hrow : call.decisionRowId = d.id := hmatches.1.trans hdesc.rowId
          refine Or.inl ⟨⟨hsome, hown, fun k hk hgateway hkname ↦ ?_⟩, rfl, call, hmem, hrow, hname.2⟩
          have heq : k = call := by
            apply Table.eq_of_clashes hk hmem
            exact Or.inr ⟨hgateway.trans (hname.1.trans hdesc.gatewayId).symm,
              hkname.trans hname.2.symm⟩
          rw [heq]
          exact ⟨hrow, hmanual⟩
        · refine Or.inr ⟨fun hbinds ↦ hmatches ?_, rfl⟩
          have hrow := (hbinds.named call hmem (hname.1.trans hdesc.gatewayId) hname.2).1
          exact hcalls.responseMatches hd hdesc hskill hmem hrow

theorem bindResponseCall_decisions (now : ℕ) (c : ClaimedDecision) (d : DecisionRow)
    (skillCallId : String) (db : Db) :
    (bindResponseCall now c d skillCallId db).2.decisions = db.decisions := by
  unfold bindResponseCall
  simp only
  split
  · rfl
  · split
    · rfl
    · split
      · unfold Db.insertPendingSkillCall Db.insertCall
        split
        · rfl
        · rfl
      · split_ifs <;> rfl

/-! ## Recording a response -/

/-- The action starts a skill. -/
def DecisionAction.isSkill (action : DecisionAction) : Prop :=
  action = .callSkill ∨ action = .stopHosting

instance : DecidablePred DecisionAction.isSkill := fun _ ↦ inferInstanceAs (Decidable (_ ∨ _))

/-- A response that passes the fence checks. -/
structure Responds (now : ℕ) (c : ClaimedDecision) (response : DecisionClientResult) (db db' : Db)
    (j : JoinedDecision) (record : ResponseRecord) (t : Db) : Prop where
  lock_eq : db.lockClaimedDecision c = some j
  fence : j.fenceError now j.decision.claimedFenceVersion = none
  db_eq : db' = t.completeDecisionResponse c response record
  skill : response.status = .accepted → c.action.isSkill → ∃ skillCallId,
    response.skillCallId = some skillCallId ∧
      (record, t) = bindResponseCall now c j.decision skillCallId db
  other : ¬(response.status = .accepted ∧ c.action.isSkill) →
    t = db ∧ (record.status = .accepted ↔ response.status = .accepted)

/-- The binding of a call leaves decisions alone. -/
theorem Responds.decisions_eq {response : DecisionClientResult} {j : JoinedDecision}
    {record : ResponseRecord} {t : Db} (h : Responds now c response db db' j record t) :
    t.decisions = db.decisions := by
  by_cases hskill : response.status = .accepted ∧ c.action.isSkill
  · obtain ⟨skillCallId, -, hbind⟩ := h.skill hskill.1 hskill.2
    rw [show t = _ from congrArg Prod.snd hbind, bindResponseCall_decisions]
  · rw [(h.other hskill).1]

theorem not_idempotencyConflict {response : DecisionClientResult}
    (h : response.status = .accepted) : ¬response.isIdempotencyConflict = true := by
  unfold DecisionClientResult.isIdempotencyConflict
  simp only [h, reduceCtorEq, false_and, decide_false, Bool.false_eq_true, not_false_eq_true]

/-- A response is discarded without a change, or it passes the fence checks. -/
theorem recordDecisionResponse_cases {response : DecisionClientResult} {recorded : Bool}
    (h : recordDecisionResponse now c response db = .ok (recorded, db')) :
    (recorded = false ∧ db' = db ∧ ∀ j, db.lockClaimedDecision c = some j →
        (j.fenceError now j.decision.claimedFenceVersion).isSome = true) ∨
      (recorded = true ∧ ∃ j record t, Responds now c response db db' j record t) := by
  unfold recordDecisionResponse at h
  split at h
  · rename_i hnone
    cases h
    refine Or.inl ⟨rfl, rfl, fun j hj ↦ ?_⟩
    rw [hnone] at hj
    cases hj
  · rename_i j hlock
    split_ifs at h with hfence hconflict hskill haccepted
    · cases h
      refine Or.inl ⟨rfl, rfl, fun j' hj' ↦ ?_⟩
      rw [hlock] at hj'
      cases hj'
      exact hfence
    all_goals
      simp only [Option.isSome_iff_ne_none, ne_eq, not_not] at hfence
    · cases h
      have hrejected : response.status ≠ .accepted := fun h ↦ not_idempotencyConflict h hconflict
      refine Or.inr ⟨rfl, j, _, db, hlock, hfence, rfl, fun h ↦ absurd h hrejected, fun _ ↦ ⟨rfl, ?_⟩⟩
      exact iff_of_false DecisionStatus.noConfusion hrejected
    · split at h
      · cases h
      · rename_i skillCallId hid
        cases h
        exact Or.inr ⟨rfl, j, _, _, hlock, hfence, rfl, fun _ _ ↦ ⟨skillCallId, hid, rfl⟩,
          fun hnot ↦ absurd hskill hnot⟩
    · cases h
      exact Or.inr ⟨rfl, j, _, db, hlock, hfence, rfl, fun h h' ↦ absurd ⟨h, h'⟩ hskill,
        fun _ ↦ ⟨rfl, iff_of_true rfl haccepted⟩⟩
    · cases h
      exact Or.inr ⟨rfl, j, _, db, hlock, hfence, rfl, fun h h' ↦ absurd ⟨h, h'⟩ hskill,
        fun _ ↦ ⟨rfl, iff_of_false DecisionStatus.noConfusion haccepted⟩⟩

/-- A response is only refused when it names no call for a skill. -/
theorem recordDecisionResponse_ok (now : ℕ) (db : Db) {response : DecisionClientResult}
    (hcall : response.status = .accepted → c.action.isSkill → response.skillCallId.isSome = true) :
    ∃ recorded db', recordDecisionResponse now c response db = .ok (recorded, db') := by
  unfold recordDecisionResponse
  split
  · exact ⟨_, _, rfl⟩
  · split_ifs with hfence hconflict hskill
    · exact ⟨_, _, rfl⟩
    · exact ⟨_, _, rfl⟩
    · obtain ⟨skillCallId, hid⟩ := Option.isSome_iff_exists.1 (hcall hskill.1 hskill.2)
      rw [hid]
      exact ⟨_, _, rfl⟩
    all_goals exact ⟨_, _, rfl⟩

/-- A decision on a skill that is accepted after a response was accepted before, or has a call. -/
theorem recordDecisionResponse_accepted {response : DecisionClientResult} {recorded : Bool}
    (h : recordDecisionResponse now c response db = .ok (recorded, db')) (hcalls : db.CallsSound)
    (hdesc : ∀ d ∈ db.decisions, d.id = c.rowId → c.Describes d.toDecisionKey) {d' : DecisionRow}
    (hd' : d' ∈ db'.decisions) (haccepted : d'.status = .accepted) (hskill : d'.action.isSkill) :
    (∃ d ∈ db.decisions, d.toDecisionKey = d'.toDecisionKey ∧ d.status = .accepted) ∨
      ∃ skillCallId, db'.HasCall d'.id skillCallId := by
  cases recordDecisionResponse_cases h with
  | inl hdropped =>
    rw [hdropped.2.1] at hd'
    exact Or.inl ⟨d', hd', rfl, haccepted⟩
  | inr hrecorded =>
    obtain ⟨-, j, record, t, hresponds⟩ := hrecorded
    obtain ⟨hmem, hrow, -⟩ := lockClaimedDecision_eq_some hresponds.lock_eq
    have hj := hdesc j.decision hmem hrow
    rw [hresponds.db_eq] at hd'
    cases Table.mem_update.1 hd' with
    | inr hkept =>
      rw [hresponds.decisions_eq] at hkept
      exact Or.inl ⟨d', hkept.1, rfl, haccepted⟩
    | inl hset =>
      obtain ⟨d, hd, hw, rfl⟩ := hset
      rw [hresponds.decisions_eq] at hd
      obtain rfl : d = j.decision := decisionRow_eq_of_id hd hmem (hw.1.trans hrow.symm)
      have hcskill : c.action.isSkill := hj.action ▸ hskill
      apply Or.inr
      by_cases hstatus : response.status = .accepted
      · obtain ⟨skillCallId, -, hbind⟩ := hresponds.skill hstatus hcskill
        have ht : t = _ := congrArg Prod.snd hbind
        have hrecord : record = _ := congrArg Prod.fst hbind
        refine ⟨skillCallId, ?_⟩
        rw [hresponds.db_eq]
        cases bindResponseCall_spec hcalls hmem hj now skillCallId with
        | inl hbinds =>
          rw [← ht] at hbinds
          exact hbinds.2.2
        | inr hconflict =>
          rw [← hrecord] at hconflict
          cases haccepted.symm.trans hconflict.2
      · have hother := (hresponds.other fun hboth ↦ hstatus hboth.1).2
        exact absurd (hother.1 haccepted) hstatus

end LlmGateway
