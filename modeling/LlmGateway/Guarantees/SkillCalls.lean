import LlmGateway.Effect.SkillCall
import LlmGateway.System.Scenario
import LlmGateway.System.Terminal

/-!
# Skill calls

Three transactions write the call of a decision: the accepted response, `skill_started` and
`skill_finished`. They may be applied in any order and repeatedly. Once all of them have been
applied there is one call, closed as the last of them says, whatever the order was.
-/

namespace LlmGateway

open Relational

variable {db db' : Db} {rowId : Uuid} {skillCallId : String} {terminal : SkillTerminal}

/-! ## The stages of a call -/

/-- The call was closed for the decision of this row. -/
def Db.Closed (db : Db) (rowId : Uuid) (skillCallId : String) (terminal : SkillTerminal)
    (k : CallRow) : Prop :=
  ∃ d ∈ db.decisions, d.id = rowId ∧
    k.ClosedAs d.toDecisionKey skillCallId (normalizeSkillTerminal terminal)

theorem Db.Closed.not_running {k : CallRow} (h : db.Closed rowId skillCallId terminal k) :
    k.status.isRunning = false := by
  obtain ⟨d, -, -, hclosed⟩ := h
  have hstatus : k.status = (normalizeSkillTerminal terminal).status :=
    congrArg TerminalRecord.status hclosed.terminal
  rw [hstatus]
  exact (normalizeSkillTerminal_closed terminal).1

theorem Db.Closed.own {k : CallRow} (h : db.Closed rowId skillCallId terminal k) :
    k.decisionRowId = rowId := by
  obtain ⟨d, -, hid, hclosed⟩ := h
  exact hclosed.decisionRowId.trans hid

theorem Db.Closed.forward {k : CallRow} (h : db.Closed rowId skillCallId terminal k)
    (hdecisions : ∀ d ∈ db.decisions, ∃ d' ∈ db'.decisions, d'.toDecisionKey = d.toDecisionKey) :
    db'.Closed rowId skillCallId terminal k := by
  obtain ⟨d, hd, hid, hclosed⟩ := h
  obtain ⟨d', hd', hkey⟩ := hdecisions d hd
  rw [← hkey] at hclosed
  exact ⟨d', hd', (congrArg DecisionKey.id hkey).trans hid, hclosed⟩

/-- The calls of the decision are open or closed as the event says. -/
def Db.CallStage (db : Db) (rowId : Uuid) (skillCallId : String) (terminal : SkillTerminal) :
    Prop :=
  ∀ k ∈ db.calls, k.decisionRowId = rowId →
    k.status.isRunning = true ∨ db.Closed rowId skillCallId terminal k

def Db.CallDone (db : Db) (rowId : Uuid) (skillCallId : String) (terminal : SkillTerminal) :
    Prop :=
  ∃ k ∈ db.calls, db.Closed rowId skillCallId terminal k

section Opening

variable {R : CallRow → CallRow → Prop} {N : CallRow → Prop}

/-- A change that opens new calls and keeps the calls of the decision keeps their stage. -/
theorem Db.CallStage.opens (h : db.CallStage rowId skillCallId terminal)
    (hdecisions : ∀ d ∈ db.decisions, ∃ d' ∈ db'.decisions, d'.toDecisionKey = d.toDecisionKey)
    (hevolves : Table.Evolves R N db.calls db'.calls)
    (hkeeps : ∀ k k', R k k' → k'.decisionRowId = rowId →
      k' = k ∨ (k.status.isRunning = true ∧ k'.status.isRunning = true))
    (hnew : ∀ k, N k → k.status.isRunning = true) : db'.CallStage rowId skillCallId terminal := by
  intro k' hk' hown
  cases hevolves.backward k' hk' with
  | inr hopen => exact Or.inl (hnew k' hopen)
  | inl hold =>
    obtain ⟨k, hk, hR⟩ := hold
    cases hkeeps k k' hR hown with
    | inl heq =>
      rw [heq] at hown ⊢
      exact (h k hk hown).imp_right fun hclosed ↦ hclosed.forward hdecisions
    | inr hrunning => exact Or.inl hrunning.2

theorem Db.CallDone.opens (h : db.CallDone rowId skillCallId terminal)
    (hdecisions : ∀ d ∈ db.decisions, ∃ d' ∈ db'.decisions, d'.toDecisionKey = d.toDecisionKey)
    (hevolves : Table.Evolves R N db.calls db'.calls)
    (hkeeps : ∀ k k', R k k' → k.decisionRowId = rowId →
      k' = k ∨ (k.status.isRunning = true ∧ k'.status.isRunning = true)) :
    db'.CallDone rowId skillCallId terminal := by
  obtain ⟨k, hk, hclosed⟩ := h
  obtain ⟨k', hk', hR⟩ := hevolves.forward k hk
  cases hkeeps k k' hR hclosed.own with
  | inl heq => exact ⟨k, heq ▸ hk', hclosed.forward hdecisions⟩
  | inr hrunning =>
    rw [hclosed.not_running] at hrunning
    exact Bool.noConfusion hrunning.1

end Opening

theorem CallRow.Starts.keeps {k k' : CallRow} (h : k.Starts k') :
    k' = k ∨ (k.status.isRunning = true ∧ k'.status.isRunning = true) := by
  refine h.2.imp_right fun hstarts ↦ ?_
  rw [hstarts.1, hstarts.2]
  exact ⟨rfl, rfl⟩

theorem CallRow.Responds.keeps {k k' : CallRow} (h : k.Responds rowId k')
    (hown : k.decisionRowId = rowId) : k' = k :=
  h.2.resolve_right fun hother ↦ hother.1 hown

namespace World

/-! ## The three writers -/

inductive CallWriter where
  | response
  | started
  | finished

variable (config : SystemConfig) (w : World)

/-- The decision is stored under this row, gateway and name. -/
def Names (rowId : Uuid) (gatewayId decisionId : String) : Prop :=
  ∃ d ∈ w.db.decisions, d.id = rowId ∧ d.gatewayId = gatewayId ∧ d.decisionId = decisionId

instance (rowId : Uuid) (gatewayId decisionId : String) :
    Decidable (w.Names rowId gatewayId decisionId) :=
  inferInstanceAs (Decidable (∃ _ ∈ _, _))

/-- The action applies one of the three transactions to the call of a decision. -/
inductive Writes (rowId : Uuid) (skillCallId : String) (terminal : SkillTerminal) :
    Action → CallWriter → Prop
  | response {token : Uuid} {c : ClaimedDecision} {response : DecisionClientResult} {db : Db}
      (claimed : w.decisionClaim? token = some c) (row : c.rowId = rowId)
      (accepted : response.status = .accepted) (named : response.skillCallId = some skillCallId)
      (recorded : recordDecisionResponse w.now c response w.db = .ok (true, db)) :
      Writes rowId skillCallId terminal (.recordResponse token response) .response
  | started {token : Uuid} {c : ClaimedEvent} {position : Position} {payload : SkillStartedPayload}
      (claimed : w.claim? token = some c)
      (body : c.event.body = .sequenced position (.skillStarted payload))
      (decision : w.Names rowId c.gatewayId payload.decisionId)
      (named : payload.skillCallId = skillCallId)
      (applied : (recordSkillStarted w.now c payload w.db).1.disposition = .applied ∨
        (recordSkillStarted w.now c payload w.db).1.disposition = .idempotent) :
      Writes rowId skillCallId terminal (.record token) .started
  | finished {token : Uuid} {c : ClaimedEvent} {position : Position}
      {payload : SkillFinishedPayload} {result : MutationResult} {db : Db}
      (claimed : w.claim? token = some c)
      (body : c.event.body = .sequenced position (.skillFinished payload))
      (decision : w.Names rowId c.gatewayId payload.decisionId)
      (named : payload.skillCallId = skillCallId)
      (same : normalizeSkillTerminal payload.terminal = normalizeSkillTerminal terminal)
      (recorded : recordSkillFinished w.now c payload w.db = .ok (result, db))
      (applied : result.disposition = .applied ∨ result.disposition = .idempotent) :
      Writes rowId skillCallId terminal (.record token) .finished

/-- There is one call of the decision, and one of that name, and it is closed. -/
def CallConverged (rowId : Uuid) (skillCallId : String) (terminal : SkillTerminal) : Prop :=
  ∃ d ∈ w.db.decisions, d.id = rowId ∧ ∃ k ∈ w.db.calls,
    k.ClosedAs d.toDecisionKey skillCallId (normalizeSkillTerminal terminal) ∧
    ∀ k' ∈ w.db.calls, k'.decisionRowId = rowId ∨
      (k'.gatewayId = d.gatewayId ∧ k'.skillCallId = skillCallId) → k' = k

/-- From here on the three writers may be applied in any order, as often as they like, and
among any other actions, to a call that does not exist yet. -/
def CallsConverge : Prop :=
  ∀ rowId skillCallId terminal, (∀ k ∈ w.db.calls, k.decisionRowId ≠ rowId) → ∀ actions,
    Guarded (exec config) (fun v a ↦ (∃ writer, v.Writes rowId skillCallId terminal a writer) ∨
      v.KeepsCalls config rowId a) w actions →
    (∀ writer, Occurs (exec config) (fun v a ↦ v.Writes rowId skillCallId terminal a writer)
      w actions) →
    (run (exec config) w actions).CallConverged rowId skillCallId terminal

/-- The first two writers leave closed calls closed, those of their own decision as they are. -/
structure NeverReopened : Prop where
  started : ∀ token c position payload, w.claim? token = some c →
    c.event.body = .sequenced position (.skillStarted payload) →
    ∀ k ∈ w.db.calls, k.status.isRunning = false → k ∈ (w.exec config (.record token)).db.calls
  response : ∀ token c response, w.decisionClaim? token = some c →
    ∀ k ∈ w.db.calls, k.status.isRunning = false →
      ∃ k' ∈ (w.exec config (.recordResponse token response)).db.calls,
        k'.id = k.id ∧ k'.status.isRunning = false ∧ (k.decisionRowId = c.rowId → k' = k)

variable {config w}

/-! ## Steps -/

/-- What a run keeps while the three writers are applied. -/
structure CallInvariant (config : SystemConfig) (rowId : Uuid) (skillCallId : String)
    (terminal : SkillTerminal) (w : World) : Prop where
  sound : w.Sound config
  calls : w.db.CallsSound
  stage : w.db.CallStage rowId skillCallId terminal

/-- The event that closes the call leaves it closed, also when it is repeated. -/
theorem CallInvariant.finished (h : CallInvariant config rowId skillCallId terminal w)
    {c : ClaimedEvent} {payload : SkillFinishedPayload} {result : MutationResult} {db : Db}
    (hnames : w.Names rowId c.gatewayId payload.decisionId)
    (hnamed : payload.skillCallId = skillCallId)
    (hsame : normalizeSkillTerminal payload.terminal = normalizeSkillTerminal terminal)
    (hrecorded : recordSkillFinished w.now c payload w.db = .ok (result, db))
    (hresult : result.disposition = .applied ∨ result.disposition = .idempotent)
    (hdecisions : ∀ d ∈ w.db.decisions, ∃ d' ∈ db.decisions, d'.toDecisionKey = d.toDecisionKey) :
    db.CallDone rowId skillCallId terminal := by
  obtain ⟨d, call, hlookup, hcases⟩ := recordSkillFinished_closes h.calls hrecorded hresult
  obtain ⟨d₀, hd₀, hid, hgateway, hdecisionId⟩ := hnames
  have hd : d = d₀ := Table.eq_of_clashes hlookup.decision_mem hd₀ (Or.inr (Or.inl
    ⟨hlookup.gatewayId.trans hgateway.symm, hlookup.decisionId.trans hdecisionId.symm⟩))
  rw [hnamed, hsame] at hcases
  cases hcases with
  | inl hrepeated =>
    obtain ⟨rfl, k, hk, hclosed, -⟩ := hrepeated
    have hmem := hlookup.call_mem hk
    have hown : k.decisionRowId = rowId := by
      rw [(hlookup.call_matches k hk).1, hd, hid]
    refine ⟨k, hmem, (h.stage k hmem hown).resolve_left ?_⟩
    rw [hclosed]
    exact Bool.false_ne_true
  | inr hclosed =>
    obtain ⟨-, k, hk, hclosed⟩ := hclosed
    obtain ⟨d', hd', hkey⟩ := hdecisions d hlookup.decision_mem
    refine ⟨k, hk, d', hd', (congrArg DecisionKey.id hkey).trans (hd ▸ hid), ?_⟩
    rwa [hkey]

/-- Once a call of the decision is closed, it is the only one. -/
theorem stage_of_done {db : Db} (hcalls : db.CallsSound)
    (hdone : db.CallDone rowId skillCallId terminal) : db.CallStage rowId skillCallId terminal := by
  obtain ⟨k, hk, hclosed⟩ := hdone
  intro k' hk' hown
  rw [hcalls.unique k' hk' k hk (hown.trans hclosed.own.symm)]
  exact Or.inr hclosed

theorem CallInvariant.writes_finished (h : CallInvariant config rowId skillCallId terminal w)
    {a : Action} (ha : w.Writes rowId skillCallId terminal a .finished) :
    (w.exec config a).db.CallDone rowId skillCallId terminal := by
  have hdecisions := exec_decisions_forward h.sound a
  cases ha with
  | @finished token c position payload result db hclaimed hbody hnames hnamed hsame hrecorded
      hresult =>
    have hdb : (w.exec config (.record token)).db = db := by
      rw [record_finished hclaimed hbody, hrecorded]
      rfl
    rw [hdb] at hdecisions ⊢
    exact h.finished hnames hnamed hsame hrecorded hresult hdecisions

/-- The stage of the call after a step, and that a closed call stays closed. -/
theorem CallInvariant.step (h : CallInvariant config rowId skillCallId terminal w) {a : Action}
    (ha : (∃ writer, w.Writes rowId skillCallId terminal a writer) ∨ w.KeepsCalls config rowId a) :
    (w.exec config a).db.CallStage rowId skillCallId terminal ∧
      (w.db.CallDone rowId skillCallId terminal →
        (w.exec config a).db.CallDone rowId skillCallId terminal) := by
  have hdecisions := exec_decisions_forward h.sound a
  cases ha with
  | inr hkeeps =>
    refine ⟨fun k hk hown ↦ ?_, fun hdone ↦ ?_⟩
    · exact (h.stage k ((hkeeps k hown).1 hk) hown).imp_right fun hclosed ↦
        hclosed.forward hdecisions
    · obtain ⟨k, hk, hclosed⟩ := hdone
      exact ⟨k, (hkeeps k hclosed.own).2 hk, hclosed.forward hdecisions⟩
  | inl hwrites =>
    obtain ⟨writer, hwrites⟩ := hwrites
    cases writer with
    | finished =>
      have hdone := h.writes_finished hwrites
      exact ⟨stage_of_done (exec_callsSound h.sound h.calls a) hdone, fun _ ↦ hdone⟩
    | started =>
      cases hwrites with
      | @started token c position payload hclaimed hbody _ _ _ =>
        rw [record_started hclaimed hbody] at hdecisions ⊢
        have hevolves : Table.Evolves CallRow.Starts (fun k ↦ k.status = .started) w.db.calls
            (recordSkillStarted w.now c payload w.db).2.calls := recordSkillStarted_calls c payload
        refine ⟨h.stage.opens hdecisions hevolves (fun _ _ hR _ ↦ hR.keeps) fun k hnew ↦ ?_,
          fun hdone ↦ hdone.opens hdecisions hevolves fun _ _ hR _ ↦ hR.keeps⟩
        rw [hnew]
        rfl
    | response =>
      cases hwrites with
      | @response token c response db hclaimed hrow _ _ hrecorded =>
        have hdb : (w.exec config (.recordResponse token response)).db = db := by
          rw [record_response hclaimed, hrecorded]
          rfl
        rw [hdb] at hdecisions ⊢
        have hdesc := h.sound.decisionClaims c (mem_decisionClaims hclaimed)
        have hevolves := recordDecisionResponse_calls h.calls hdesc hrecorded
        rw [hrow] at hevolves
        refine ⟨h.stage.opens hdecisions hevolves (fun k k' hR hown ↦ Or.inl ?_) fun k hnew ↦ ?_,
          fun hdone ↦ hdone.opens hdecisions hevolves fun _ _ hR hown ↦ Or.inl (hR.keeps hown)⟩
        · exact hR.keeps ((congrArg CallKey.decisionRowId hR.1).symm.trans hown)
        · rw [hnew]
          rfl

/-! ## Runs -/

theorem neverReopened (hw : w.Sound config) (hcalls : w.db.CallsSound) :
    w.NeverReopened config where
  started token c position payload hclaimed hbody k hk hclosed := by
    rw [record_started hclaimed hbody]
    obtain ⟨k', hk', hstarts⟩ := (recordSkillStarted_calls c payload).forward k hk
    cases hstarts.keeps with
    | inl heq => exact heq ▸ hk'
    | inr hrunning =>
      rw [hclosed] at hrunning
      exact Bool.noConfusion hrunning.1
  response token c response hclaimed k hk hclosed := by
    rw [record_response hclaimed]
    cases hrecorded : recordDecisionResponse w.now c response w.db with
    | error failure => exact ⟨k, hk, rfl, hclosed, fun _ ↦ rfl⟩
    | ok committed =>
      have hdesc := hw.decisionClaims c (mem_decisionClaims hclaimed)
      obtain ⟨k', hk', hresponds⟩ :=
        (recordDecisionResponse_calls hcalls hdesc hrecorded).forward k hk
      refine ⟨k', hk', congrArg CallKey.id hresponds.1, ?_, fun hown ↦ hresponds.keeps hown⟩
      cases hresponds.2 with
      | inl heq => rw [heq, hclosed]
      | inr hother =>
        rw [hother.2]
        rfl

theorem callsConverge (hw : w.Sound config) (hcalls : w.db.CallsSound) :
    w.CallsConverge config := by
  intro rowId skillCallId terminal hnone actions hguard hoccurs
  have hstart : CallInvariant config rowId skillCallId terminal w :=
    ⟨hw, hcalls, fun k hk hown ↦ absurd hown (hnone k hk)⟩
  have hstep (v : World) (a : Action) (hv : CallInvariant config rowId skillCallId terminal v)
      (ha : (∃ writer, v.Writes rowId skillCallId terminal a writer) ∨
        v.KeepsCalls config rowId a) :
      CallInvariant config rowId skillCallId terminal (v.exec config a) :=
    ⟨exec_sound hv.sound, exec_callsSound hv.sound hv.calls a, (hv.step ha).1⟩
  have hafter := invariant_guarded hstep hstart hguard
  have hdone : (run (exec config) w actions).db.CallDone rowId skillCallId terminal := by
    refine of_occurs (I := CallInvariant config rowId skillCallId terminal)
      (Q := fun v ↦ v.db.CallDone rowId skillCallId terminal) (fun v a hv ha ↦ ?_) hstart hguard
      (Or.inl (hoccurs .finished))
    refine ⟨hstep v a hv ha, fun hor ↦ ?_⟩
    exact hor.elim (fun hwrites ↦ hv.writes_finished hwrites) (hv.step ha).2
  obtain ⟨k, hk, hclosed⟩ := hdone
  have hone := hclosed
  obtain ⟨d, hd, hid, has⟩ := hone
  refine ⟨d, hd, hid, k, hk, has, fun k' hk' hsame ↦ ?_⟩
  cases hsame with
  | inl hown => exact hafter.calls.unique k' hk' k hk (hown.trans hclosed.own.symm)
  | inr hnames =>
    obtain ⟨d', hd', hcalls'⟩ := hafter.calls.decision k hk
    have heq : d' = d := decisionRow_eq_of_id hd' hd
      (hcalls'.1.trans (hclosed.own.trans hid.symm))
    refine Table.eq_of_clashes hk' hk (Or.inr ⟨?_, hnames.2.trans has.skillCallId.symm⟩)
    exact hnames.1.trans (heq ▸ hcalls'.2.1)

/-- In every reachable state the three writers of a call converge, whatever their order, and
neither a start nor an accepted response opens a closed call again. -/
theorem skillCalls_converge (hw : w.Reachable config) :
    w.CallsConverge config ∧ w.NeverReopened config :=
  ⟨callsConverge hw.sound hw.callsSound, neverReopened hw.sound hw.callsSound⟩

section Example

open Scenario

/-- A decision is being sent, and both events of its call have been claimed. -/
def sent : World :=
  after [submit [sessionStarted "e1" 1 "L1" 1], claim, .persist (token 3),
    .plan (token 3) ⟨"dance", 100, .callSkill "dance" "1" [] none⟩ "d", finish 3,
    .claimDecision "worker", submit [plain "e2" 1 2 0 (started "d"),
      plain "e3" 1 3 0 (finished "d")], claim, claim]

def acceptance : DecisionClientResult := ⟨200, .accepted, "ok", some "call", none⟩

/-- The events overtake the response, the last of them first. -/
theorem skillCalls_converge_backwards :
    (run (exec Scenario.config) sent [.record (token 8), .record (token 9),
      .recordResponse (token 5) acceptance]).CallConverged (token 4) "call" .success ∧
      sent.NeverReopened Scenario.config := by
  have hreachable : sent.Reachable Scenario.config := reachable_after _ _
  have hfinished : sent.Writes (token 4) "call" .success (.record (token 8)) .finished := by
    have hclaim : ∃ c ∈ sent.claims, sent.claim? (token 8) = some c ∧
        c.event.body = .sequenced (position 1 3) (finished "d").1 ∧
        sent.Names (token 4) c.gatewayId "d" ∧
        ∃ recorded ∈ (recordSkillFinished sent.now c
            ⟨"d", "call", "dance", .success, "done", false, 0, 0, none, le_refl 0⟩
            sent.db).toOption, recorded.1.disposition = .applied := by
      decide
    obtain ⟨c, -, hc, hbody, hnames, recorded, hrecorded, happlied⟩ := hclaim
    exact .finished hc hbody hnames rfl rfl (mem_toOption hrecorded) (Or.inl happlied)
  have hstarted : (run (exec Scenario.config) sent [.record (token 8)]).Writes (token 4) "call"
      .success (.record (token 9)) .started := by
    have hclaim : ∃ c ∈ (run (exec Scenario.config) sent [.record (token 8)]).claims,
        (run (exec Scenario.config) sent [.record (token 8)]).claim? (token 9) = some c ∧
        c.event.body = .sequenced (position 1 2) (started "d").1 ∧
        (run (exec Scenario.config) sent [.record (token 8)]).Names (token 4) c.gatewayId "d" ∧
        (recordSkillStarted (run (exec Scenario.config) sent [.record (token 8)]).now c
          ⟨"d", "call", "dance", 0⟩
          (run (exec Scenario.config) sent [.record (token 8)]).db).1.disposition =
            .idempotent := by
      decide
    obtain ⟨c, -, hc, hbody, hnames, happlied⟩ := hclaim
    exact .started hc hbody hnames rfl (Or.inr happlied)
  have hresponse : (run (exec Scenario.config) sent [.record (token 8), .record (token 9)]).Writes
      (token 4) "call" .success (.recordResponse (token 5) acceptance) .response := by
    have hclaim : ∃ c ∈ (run (exec Scenario.config) sent
          [.record (token 8), .record (token 9)]).decisionClaims,
        (run (exec Scenario.config) sent
          [.record (token 8), .record (token 9)]).decisionClaim? (token 5) = some c ∧
        c.rowId = token 4 ∧ ∃ recorded ∈ (recordDecisionResponse
          (run (exec Scenario.config) sent [.record (token 8), .record (token 9)]).now c acceptance
          (run (exec Scenario.config) sent
            [.record (token 8), .record (token 9)]).db).toOption, recorded.1 = true := by
      decide
    obtain ⟨c, -, hc, hrow, ⟨recorded, db⟩, hrecorded, rfl⟩ := hclaim
    exact .response hc hrow rfl rfl (mem_toOption hrecorded)
  refine ⟨(skillCalls_converge hreachable).1 (token 4) "call" .success (by decide) _
    ⟨Or.inl ⟨_, hfinished⟩, Or.inl ⟨_, hstarted⟩, Or.inl ⟨_, hresponse⟩, trivial⟩ ?_,
    (skillCalls_converge hreachable).2⟩
  intro writer
  cases writer with
  | finished => exact Or.inl hfinished
  | started => exact Or.inr (Or.inl hstarted)
  | response => exact Or.inr (Or.inr (Or.inl hresponse))

end Example

end World

end LlmGateway
