import LlmGateway.Effect.Outbox

/-!
# What the three writers do to a call

`skill_started` and the accepted response only open a call, and leave every call that is
closed; `skill_finished` closes the call of its decision with the terminal of the event.
-/

namespace LlmGateway

open Relational

variable {now : ℕ} {db db' : Db}

/-! ## Opening a call -/

theorem Db.insertCall_tracking (row : CallRow) : (db.insertCall row).tracking = db.tracking := by
  unfold Db.insertCall
  split <;> rfl

theorem calls_of_insertCall (row : CallRow) :
    (db.insertCall row).calls = db.calls ∨
      db.calls.insert? row = some (db.insertCall row).calls := by
  unfold Db.insertCall
  split
  · rename_i calls hinsert
    exact Or.inr hinsert
  · exact Or.inl rfl

/-- How `record_skill_started` may change a call. -/
def CallRow.Starts (k k' : CallRow) : Prop :=
  k'.toCallKey = k.toCallKey ∧ (k' = k ∨ (k.status = .pending ∧ k'.status = .started))

theorem recordSkillStarted_calls (c : ClaimedEvent) (payload : SkillStartedPayload) :
    Table.Evolves CallRow.Starts (fun k ↦ k.status = .started) db.calls
      (recordSkillStarted now c payload db).2.calls := by
  have hrefl (k : CallRow) : k.Starts k := ⟨rfl, Or.inl rfl⟩
  unfold recordSkillStarted
  split
  · exact .refl hrefl _
  · cases calls_of_insertCall _ with
    | inl heq =>
      rw [heq]
      exact .refl hrefl _
    | inr hinsert =>
      refine .insert hrefl ?_ hinsert
      rfl
  · split
    · rename_i hpending
      refine .update hrefl fun k hk hw ↦ ⟨rfl, Or.inr ⟨hw.2, rfl⟩⟩
    · exact .refl hrefl _
    · exact .refl hrefl _

/-- How an accepted response for a decision may change a call: it gives up a call of another
decision that has the name of the new one. -/
def CallRow.Responds (rowId : Uuid) (k k' : CallRow) : Prop :=
  k'.toCallKey = k.toCallKey ∧ (k' = k ∨ (k.decisionRowId ≠ rowId ∧ k'.status = .manual))

theorem bindResponseCall_calls {c : ClaimedDecision} {d : DecisionRow} {skillCallId : String}
    (hcalls : db.CallsSound) (hd : d ∈ db.decisions) (hdesc : c.Describes d.toDecisionKey) :
    Table.Evolves (CallRow.Responds c.rowId) (fun k ↦ k.status = .pending) db.calls
      (bindResponseCall now c d skillCallId db).2.calls := by
  have hrefl (k : CallRow) : k.Responds c.rowId k := ⟨rfl, Or.inl rfl⟩
  unfold bindResponseCall
  simp only
  split
  · exact .refl hrefl _
  · rename_i skillName hskill
    split
    · exact .refl hrefl _
    · split
      · cases calls_of_insertCall _ with
        | inl heq =>
          unfold Db.insertPendingSkillCall
          rw [heq]
          exact .refl hrefl _
        | inr hinsert =>
          refine .insert hrefl ?_ hinsert
          rfl
      · rename_i call hcall
        have hmem : call ∈ db.calls := Table.mem_of_find?_eq_some hcall
        split_ifs with hmatches
        · exact .refl hrefl _
        · exact .refl hrefl _
        · refine .update hrefl fun k hk hid ↦ ⟨rfl, Or.inr ⟨fun hrow ↦ hmatches ?_, rfl⟩⟩
          -- The call of the decision itself matches, since it was opened for it.
          obtain rfl : k = call := Table.eq_of_clashes hk hmem (CallRow.clashes_of_id hid)
          obtain ⟨d', hd', hown⟩ := hcalls.decision k hk
          obtain rfl := decisionRow_eq_of_id hd' hd
            (hown.1.trans (hrow.trans hdesc.rowId))
          refine ⟨hrow, hown.2.2.1.symm.trans hdesc.decisionId.symm, ?_⟩
          exact Option.some.inj (hown.2.2.2.2.symm.trans hskill)

theorem recordDecisionResponse_calls {c : ClaimedDecision} {response : DecisionClientResult}
    {recorded : Bool} (hcalls : db.CallsSound)
    (hdesc : ∃ d ∈ db.decisions, c.Describes d.toDecisionKey)
    (h : recordDecisionResponse now c response db = .ok (recorded, db')) :
    Table.Evolves (CallRow.Responds c.rowId) (fun k ↦ k.status = .pending) db.calls db'.calls := by
  have hrefl (k : CallRow) : k.Responds c.rowId k := ⟨rfl, Or.inl rfl⟩
  unfold recordDecisionResponse at h
  split at h
  · cases h
    exact .refl hrefl _
  · rename_i j hlock
    split_ifs at h
    · cases h
      exact .refl hrefl _
    · cases h
      exact .refl hrefl _
    · split at h
      · cases h
      · cases h
        obtain ⟨hd, hid, -⟩ := lockClaimedDecision_eq_some hlock
        obtain ⟨d, hd', hdesc⟩ := hdesc
        obtain rfl := decisionRow_eq_of_id hd' hd (hdesc.rowId.symm.trans hid.symm)
        exact bindResponseCall_calls hcalls hd hdesc
    all_goals
      cases h
      exact .refl hrefl _

/-! ## Closing a call -/

/-- The effect status of a closed call: the tracked action, if there is one, was settled. -/
def settledEffect (actionTrackingId : Option Uuid) : EffectStatus :=
  if actionTrackingId.isSome then .applied else .notApplicable

theorem applyTerminalEffect_calls {trackingId : Uuid} {status : CallStatus}
    (h : applyTerminalEffect trackingId status db = .ok db') : db'.calls = db.calls := by
  unfold applyTerminalEffect at h
  split at h
  · cases h
  · split_ifs at h
    cases h
    rfl

theorem updateTerminal_mem {k : CallRow} (hk : k ∈ db.calls) (hrunning : k.status.isRunning = true)
    {terminalEventId : Uuid} {record : TerminalRecord} {effectStatus : EffectStatus} :
    { k with
      terminalEventId := some terminalEventId
      status := record.status
      failureCategory := record.failureCategory
      reason := record.reason
      retryable := record.retryable
      effectStatus := effectStatus } ∈
      (db.updateTerminal k.id terminalEventId record effectStatus).calls :=
  Table.set_mem_update hk ⟨rfl, hrunning⟩

theorem applyEffect_settles {callId : Uuid} {trackingId : Option Uuid} {status : CallStatus}
    {k : CallRow} (h : applyEffect callId trackingId status db = .ok db') (hk : k ∈ db.calls)
    (hid : k.id = callId)
    (heffect : k.effectStatus = if trackingId.isSome then .pending else .notApplicable) :
    { k with effectStatus := settledEffect trackingId } ∈ db'.calls := by
  cases trackingId with
  | none =>
    cases h
    have hsame : { k with effectStatus := settledEffect none } = k := by
      rw [show settledEffect none = k.effectStatus from heffect.symm]
    rwa [hsame]
  | some trackingId =>
    simp only [applyEffect] at h
    obtain ⟨applied, happlied, h⟩ := bind_eq_ok_iff.1 h
    split_ifs at h
    cases h
    have hcalls := applyTerminalEffect_calls happlied
    exact Table.set_mem_update (hcalls ▸ hk) ⟨hid, heffect⟩

/-- The call that an event speaks about is the stored call of its decision. -/
theorem CallLookUp.call_mem {c : ClaimedEvent} {reference : CallReference} {d : DecisionRow}
    {call : Option CallRow} (hlookup : CallLookUp c reference db d call) {k : CallRow}
    (hk : k ∈ call) : k ∈ db.calls := by
  rw [hlookup.call_eq, Option.mem_def, Option.or_eq_some_iff] at hk
  cases hk with
  | inl hown => exact Table.mem_of_find?_eq_some hown
  | inr hnamed => exact Table.mem_of_find?_eq_some hnamed.2

theorem CallLookUp.call_name {c : ClaimedEvent} {reference : CallReference} {d : DecisionRow}
    {call : Option CallRow} (hlookup : CallLookUp c reference db d call) {k : CallRow}
    (hk : k ∈ call) : k.skillCallId = reference.skillCallId := by
  have hcall := hlookup.call_eq
  rw [Option.mem_def.1 hk] at hcall
  cases Option.or_eq_some_iff.1 hcall.symm with
  | inl hown => exact hlookup.own k hown
  | inr hnamed =>
    exact (Table.of_find?_eq_some (w := fun k : CallRow ↦
      k.gatewayId = c.gatewayId ∧ k.skillCallId = reference.skillCallId) hnamed.2).2

/-- A call under a new identifier and a new name is inserted. -/
theorem insertCall_mem {row : CallRow} (hcalls : db.CallsSound) (hid : row.id = db.nextUuid)
    (hname : ∀ k ∈ db.calls, ¬(k.gatewayId = row.gatewayId ∧ k.skillCallId = row.skillCallId)) :
    row ∈ (db.insertCall row).calls := by
  cases hinsert : db.calls.insert? row with
  | none =>
    obtain ⟨k, hk, hclash⟩ := Table.insert?_eq_none_iff.1 hinsert
    cases hclash with
    | inl hsame =>
      have hissued := hcalls.issued k hk
      rw [show k.id = row.id from hsame, hid] at hissued
      exact absurd hissued (lt_irrefl _)
    | inr hsame => exact absurd hsame (hname k hk)
  | some calls =>
    unfold Db.insertCall
    rw [hinsert]
    exact (Table.mem_of_insert? hinsert).2 (Or.inr rfl)

/-- A call that is new for its decision and its name is inserted. -/
theorem CallLookUp.insert_mem {c : ClaimedEvent} {reference : CallReference} {d : DecisionRow}
    (hlookup : CallLookUp c reference db d none) (hcalls : db.CallsSound) {row : CallRow}
    (hid : row.id = db.nextUuid) (hgateway : row.gatewayId = c.gatewayId)
    (hname : row.skillCallId = reference.skillCallId) : row ∈ (db.insertCall row).calls := by
  have hbyName := callByName_eq_none (Option.or_eq_none_iff.1 hlookup.call_eq.symm).2
  apply insertCall_mem hcalls hid
  intro k hk hsame
  exact hbyName k hk ⟨hsame.1.trans hgateway, hsame.2.trans hname⟩

/-- The call is closed by an event with this terminal. -/
structure CallRow.ClosedAs (k : CallRow) (d : DecisionKey) (skillCallId : String)
    (record : TerminalRecord) : Prop where
  decisionRowId : k.decisionRowId = d.id
  skillCallId : k.skillCallId = skillCallId
  terminal : k.terminal = record
  effectStatus : k.effectStatus = settledEffect d.actionTrackingId

theorem normalizeSkillTerminal_closed (terminal : SkillTerminal) :
    (normalizeSkillTerminal terminal).status.isRunning = false ∧
      (normalizeSkillTerminal terminal).status ≠ .manual := by
  cases terminal <;> exact ⟨rfl, CallStatus.noConfusion⟩

theorem resolve_of_running {k : CallRow} {incoming : TerminalRecord}
    (h : k.status.isRunning = true) :
    (resolveTerminalTransition k.terminal incoming).disposition = .applied := by
  have hterminal : k.terminal.status.isRunning = true := h
  rw [resolveTerminalTransition, if_pos hterminal]

theorem resolve_of_closed {k : CallRow} {incoming : TerminalRecord}
    (h : k.status.isRunning = false) :
    (k.terminal = incoming →
        (resolveTerminalTransition k.terminal incoming).disposition = .idempotent) ∧
      (k.terminal ≠ incoming →
        (resolveTerminalTransition k.terminal incoming).disposition = .conflict) := by
  have hterminal : ¬k.terminal.status.isRunning = true := by
    rw [Bool.not_eq_true]
    exact h
  refine ⟨fun hsame ↦ ?_, fun hother ↦ ?_⟩
  · rw [resolveTerminalTransition, if_neg hterminal, if_pos hsame]
  · rw [resolveTerminalTransition, if_neg hterminal, if_neg hother]
    split_ifs <;> rfl

/-- An event that is refused reports a missing decision or a conflict. -/
theorem lookUpCall_refused {c : ClaimedEvent} {reference : CallReference} {refused : MutationResult}
    (h : lookUpCall c reference db = .error refused) :
    refused.disposition = .missing ∨ refused.disposition = .conflict := by
  unfold lookUpCall at h
  simp only at h
  split at h
  · cases h
    exact Or.inl rfl
  · split at h
    · cases h
      exact Or.inr rfl
    · split_ifs at h
      all_goals
        cases h
        exact Or.inr rfl

/-- An event that closes a call leaves it closed with its terminal; an event that repeats the
terminal of a closed call changes nothing. -/
theorem recordSkillFinished_closes {c : ClaimedEvent} {payload : SkillFinishedPayload}
    {result : MutationResult} (hcalls : db.CallsSound)
    (h : recordSkillFinished now c payload db = .ok (result, db'))
    (hresult : result.disposition = .applied ∨ result.disposition = .idempotent) :
    ∃ d call, CallLookUp c ⟨payload.decisionId, payload.skillCallId, payload.skillName⟩ db d call ∧
      ((db' = db ∧ ∃ k ∈ call, k.status.isRunning = false ∧
          k.terminal = normalizeSkillTerminal payload.terminal) ∨
        ((∀ k ∈ call, k.status.isRunning = true) ∧ ∃ k ∈ db'.calls,
          k.ClosedAs d.toDecisionKey payload.skillCallId
            (normalizeSkillTerminal payload.terminal))) := by
  unfold recordSkillFinished at h
  simp only at h
  split at h
  · rename_i refused hrefused
    cases h
    cases lookUpCall_refused hrefused with
    | inl hmissing => simp only [hmissing, reduceCtorEq, or_self] at hresult
    | inr hconflict => simp only [hconflict, reduceCtorEq, or_self] at hresult
  · rename_i d call hlookup
    rw [lookUpCall_eq_ok] at hlookup
    refine ⟨d, call, hlookup, ?_⟩
    cases call with
    | none =>
      simp only at h
      obtain ⟨applied, happlied, h⟩ := bind_eq_ok_iff.1 h
      cases h
      refine Or.inr ⟨fun k hk ↦ absurd hk (Option.not_mem_none k), ?_⟩
      refine ⟨_, applyEffect_settles happlied (hlookup.insert_mem hcalls rfl rfl rfl) rfl rfl, ?_⟩
      exact ⟨rfl, rfl, rfl, rfl⟩
    | some k =>
      have hmem : k ∈ db.calls := hlookup.call_mem rfl
      have hidentity := hlookup.call_matches k rfl
      have hname : k.skillCallId = payload.skillCallId := hlookup.call_name rfl
      simp only at h
      by_cases hrunning : k.status.isRunning = true
      · rw [resolve_of_running hrunning] at h
        simp only at h
        obtain ⟨applied, happlied, h⟩ := bind_eq_ok_iff.1 h
        cases h
        refine Or.inr ⟨fun k' hk' ↦ ?_, ?_⟩
        · rw [← Option.some.inj hk']
          exact hrunning
        · exact ⟨_, applyEffect_settles happlied (updateTerminal_mem hmem hrunning) rfl rfl,
            hidentity.1, hname, rfl, rfl⟩
      · rw [Bool.not_eq_true] at hrunning
        by_cases hsame : k.terminal = normalizeSkillTerminal payload.terminal
        · rw [(resolve_of_closed hrunning).1 hsame] at h
          cases h
          exact Or.inl ⟨rfl, k, rfl, hrunning, hsame⟩
        · rw [(resolve_of_closed hrunning).2 hsame] at h
          cases h
          simp only [reduceCtorEq, or_self] at hresult

/-! ## The call of a `stop_hosting` decision -/

/-- The call of a `stop_hosting` decision is open. -/
structure Db.OpenStop (db : Db) (d : DecisionRow) (k : CallRow) : Prop where
  decision_mem : d ∈ db.decisions
  action : d.action = .stopHosting
  call_mem : k ∈ db.calls
  own : k.decisionRowId = d.id
  running : k.status.isRunning = true

/-- The event says that the call of the decision has succeeded. -/
structure ClaimedEvent.Finishes (c : ClaimedEvent) (payload : SkillFinishedPayload)
    (d : DecisionRow) (k : CallRow) : Prop where
  body : ∃ position, c.event.body = .sequenced position (.skillFinished payload)
  success : payload.terminal = .success
  gatewayId : c.gatewayId = d.gatewayId
  sessionId : c.event.sessionId = d.sessionId
  decisionId : payload.decisionId = d.decisionId
  skillCallId : payload.skillCallId = k.skillCallId
  skillName : payload.skillName = k.skillName

theorem ClaimedEvent.Finishes.of_key {c : ClaimedEvent} {payload : SkillFinishedPayload}
    {d d' : DecisionRow} {k : CallRow} (h : c.Finishes payload d k) (hkey : d'.toDecisionKey = d.toDecisionKey) :
    c.Finishes payload d' k where
  body := h.body
  success := h.success
  gatewayId := h.gatewayId.trans (congrArg DecisionKey.gatewayId hkey).symm
  sessionId := h.sessionId.trans (congrArg DecisionKey.sessionId hkey).symm
  decisionId := h.decisionId.trans (congrArg DecisionKey.decisionId hkey).symm
  skillCallId := h.skillCallId
  skillName := h.skillName

theorem Db.CallsSound.callForDecision_eq (h : db.CallsSound) {k : CallRow} (hk : k ∈ db.calls)
    {rowId : Uuid} (hown : k.decisionRowId = rowId) : db.callForDecision rowId = some k := by
  cases hfind : db.callForDecision rowId with
  | none => exact absurd hown (Table.find?_eq_none.1 hfind k hk)
  | some k' =>
    have hmem : k' ∈ db.calls := Table.mem_of_find?_eq_some hfind
    have hown' : k'.decisionRowId = rowId :=
      Table.of_find?_eq_some (w := fun k : CallRow ↦ k.decisionRowId = rowId) hfind
    rw [h.unique k' hmem k hk (hown'.trans hown.symm)]

theorem ClaimedEvent.Finishes.lookUp {c : ClaimedEvent} {payload : SkillFinishedPayload}
    {d : DecisionRow} {k : CallRow} (h : c.Finishes payload d k) (hcalls : db.CallsSound)
    (hd : d ∈ db.decisions) (hk : k ∈ db.calls) (hown : k.decisionRowId = d.id) :
    lookUpCall c ⟨payload.decisionId, payload.skillCallId, payload.skillName⟩ db =
      .ok (d, some k) := by
  have hfind := hcalls.callForDecision_eq hk hown
  obtain ⟨d', hd', hcall⟩ := hcalls.decision k hk
  obtain rfl : d' = d := decisionRow_eq_of_id hd' hd (hcall.1.trans hown)
  refine lookUpCall_eq_ok.2 ⟨hd, h.gatewayId.symm, h.decisionId.symm, ?_, h.sessionId.symm, ?_,
    ?_, ?_⟩
  · exact hcall.2.2.2.2.trans (congrArg some h.skillName.symm)
  · intro k' hk'
    rw [← Option.some.inj (hfind.symm.trans hk')]
    exact h.skillCallId.symm
  · rw [hfind, Option.some_or]
  · intro k' hk'
    rw [← Option.some.inj hk']
    exact ⟨hown, hcall.2.2.1.symm, hcall.2.2.2.1.symm.trans h.sessionId.symm, h.skillName.symm⟩

/-- The open call of a `stop_hosting` decision succeeds; it tracks no action. -/
theorem recordSkillFinished_of_openStop {c : ClaimedEvent} {payload : SkillFinishedPayload}
    {d : DecisionRow} {k : CallRow} (h : c.Finishes payload d k) (hopen : db.OpenStop d k)
    (hcalls : db.CallsSound) (htracked : db.Tracked) (now : ℕ) :
    recordSkillFinished now c payload db = .ok (⟨.applied, none⟩,
      db.updateTerminal k.id c.rowId ⟨.succeeded, none, none, none⟩ .notApplicable) := by
  have hlookup := h.lookUp hcalls hopen.decision_mem hopen.call_mem hopen.own
  have hnone : d.actionTrackingId = none := by
    cases hid : d.actionTrackingId with
    | none => rfl
    | some trackingId =>
      have hskill := htracked.callSkill d hopen.decision_mem (by rw [hid]; rfl)
      exact DecisionAction.noConfusion (hopen.action.symm.trans hskill)
  unfold recordSkillFinished
  rw [hlookup, h.success]
  simp only [normalizeSkillTerminal, resolve_of_running hopen.running, hnone]
  rfl

/-- An event that repeats or contradicts the terminal of a closed call is not applied again. -/
theorem recordSkillFinished_of_closed {c : ClaimedEvent} {payload : SkillFinishedPayload}
    {d : DecisionRow} {k : CallRow} (h : c.Finishes payload d k) (hcalls : db.CallsSound)
    (hd : d ∈ db.decisions) (hk : k ∈ db.calls) (hown : k.decisionRowId = d.id)
    (hclosed : k.status.isRunning = false) (hreason : k.reason.isSome = true) :
    ∃ db', recordSkillFinished now c payload db =
      .ok (⟨.conflict, some "terminal_conflict"⟩, db') := by
  have hlookup := h.lookUp hcalls hd hk hown
  have hne : k.terminal ≠ normalizeSkillTerminal payload.terminal := by
    rw [h.success]
    intro hsame
    have hnone : k.reason = none := congrArg TerminalRecord.reason hsame
    rw [hnone] at hreason
    cases hreason
  refine ⟨db.markTerminalConflict k.id, ?_⟩
  unfold recordSkillFinished
  rw [hlookup]
  simp only [(resolve_of_closed hclosed).2 hne]

end LlmGateway
