import LlmGateway.Effect.DecisionClaims
import LlmGateway.Effect.Folding
import LlmGateway.System.Run
import LlmGateway.System.Scenario

/-!
# Terminals in any order

The `skill_finished` events of one call, in any order and with any repetitions: the call ends
with what its terminals amount to, and its tracked action is settled by the first of them.
-/

namespace LlmGateway

open Relational

/-- A `skill_finished` event that a worker records at some time. -/
structure Ending where
  now : ℕ
  claimed : ClaimedEvent
  payload : SkillFinishedPayload

abbrev Ending.terminal (e : Ending) : SkillTerminal := e.payload.terminal

/-- The event names this call of the decision. -/
structure Ending.Names (e : Ending) (d : DecisionRow) (skillCallId : String) : Prop where
  claimed : e.claimed.sessionId = e.claimed.event.sessionId
  gatewayId : e.claimed.gatewayId = d.gatewayId
  sessionId : e.claimed.event.sessionId = d.sessionId
  decisionId : e.payload.decisionId = d.decisionId
  skillCallId : e.payload.skillCallId = skillCallId
  skillName : d.skillName = some e.payload.skillName

namespace Db

/-- The transaction of one event; a transaction that fails changes nothing. -/
def finish (db : Db) (e : Ending) : Db :=
  match recordSkillFinished e.now e.claimed e.payload db with
  | .ok (_, db') => db'
  | .error _ => db

def finishAll (db : Db) (ends : List Ending) : Db := ends.foldl finish db

/-- The record of the call of a decision, pending before there is one. -/
def terminalOf (db : Db) (d : DecisionRow) : TerminalRecord :=
  (db.callForDecision d.id).elim .pending CallRow.terminal

/-- The effect of the call can be applied: its action, if it has one, is tracked. -/
def EffectDue (db : Db) (d : DecisionRow) : Prop :=
  ∀ t ∈ d.actionTrackingId, ∃ a ∈ db.tracking, a.id = t ∧ a.status = .tracking

/-- The call of the decision is open, or is not known yet and its name is free. -/
structure OpenFor (db : Db) (d : DecisionRow) (skillCallId : String) : Prop where
  decision : d ∈ db.decisions
  own : ∀ k ∈ db.callForDecision d.id, k.skillCallId = skillCallId ∧ k.status.isRunning = true
  free : db.callForDecision d.id = none → db.callByName d.gatewayId skillCallId = none

/-- The call of the decision is closed, with a terminal or with a conflict. -/
structure ClosedFor (db : Db) (d : DecisionRow) (skillCallId : String) (k : CallRow) : Prop where
  decision : d ∈ db.decisions
  sound : db.CallsSound
  call : k ∈ db.calls
  own : k.decisionRowId = d.id
  skillCallId : k.skillCallId = skillCallId
  closed : k.status.isRunning = false
  manual : k.status = .manual → k.terminal = terminalConflict

end Db

variable {db db' : Db} {d : DecisionRow} {skillCallId : String} {k : CallRow} {e : Ending}
variable {ends : List Ending}

theorem Db.finishAll_append (db : Db) (ends more : List Ending) :
    db.finishAll (ends ++ more) = (db.finishAll ends).finishAll more :=
  List.foldl_append

theorem Db.finish_of_ok {result : MutationResult}
    (h : recordSkillFinished e.now e.claimed e.payload db = .ok (result, db')) :
    db.finish e = db' := by
  rw [Db.finish, h]

theorem Db.finish_of_error {f : Failure}
    (h : recordSkillFinished e.now e.claimed e.payload db = .error f) : db.finish e = db := by
  rw [Db.finish, h]

/-! ## The call that an event names -/

/-- The event finds the decision and its call. -/
theorem Ending.Names.lookUp (h : e.Names d skillCallId) (hcalls : db.CallsSound)
    (hd : d ∈ db.decisions) {call : Option CallRow} (hcall : db.callForDecision d.id = call)
    (hname : ∀ k ∈ call, k.skillCallId = skillCallId)
    (hfree : call = none → db.callByName d.gatewayId skillCallId = none) :
    lookUpCall e.claimed ⟨e.payload.decisionId, e.payload.skillCallId, e.payload.skillName⟩ db =
      .ok (d, call) := by
  apply lookUpCall_eq_ok.2
  refine ⟨hd, h.gatewayId.symm, h.decisionId.symm, h.skillName, h.sessionId.symm, ?_, ?_, ?_⟩
  · intro k hk
    rw [hcall] at hk
    exact (hname k hk).trans h.skillCallId.symm
  · cases call with
    | some k => rw [hcall, Option.some_or]
    | none =>
      rw [hcall, Option.none_or]
      calc none = db.callByName d.gatewayId skillCallId := (hfree rfl).symm
        _ = db.callByName e.claimed.gatewayId e.payload.skillCallId := by
          rw [h.gatewayId, h.skillCallId]
  · intro k hk
    have hfind : db.callForDecision d.id = some k := hcall.trans hk
    have hown : k.decisionRowId = d.id :=
      Table.of_find?_eq_some (w := fun k : CallRow ↦ k.decisionRowId = d.id) hfind
    have hmem : k ∈ db.calls := Table.mem_of_find?_eq_some hfind
    obtain ⟨d', hd', hdcalls⟩ := hcalls.decision k hmem
    obtain rfl : d' = d := decisionRow_eq_of_id hd' hd (hdcalls.1.trans hown)
    have hskill : k.skillName = e.payload.skillName :=
      Option.some.inj (hdcalls.2.2.2.2.symm.trans h.skillName)
    exact ⟨hown, hdcalls.2.2.1.symm, hdcalls.2.2.2.1.symm.trans h.sessionId.symm, hskill⟩

namespace Db

theorem ClosedFor.find (h : db.ClosedFor d skillCallId k) : db.callForDecision d.id = some k :=
  h.sound.callForDecision_eq h.call h.own

theorem ClosedFor.terminalOf (h : db.ClosedFor d skillCallId k) :
    db.terminalOf d = k.terminal := by
  rw [Db.terminalOf, h.find, Option.elim_some]

theorem OpenFor.running (h : db.OpenFor d skillCallId) :
    (db.terminalOf d).status.isRunning = true := by
  unfold Db.terminalOf
  cases hcall : db.callForDecision d.id with
  | none => rfl
  | some k => exact (h.own k hcall).2

/-! ## Applying the effect -/

theorem applyTerminalEffect_of_due {trackingId : Uuid} (terminal : SkillTerminal)
    (hdue : ∃ a ∈ db.tracking, a.id = trackingId ∧ a.status = .tracking) :
    ∃ db', applyTerminalEffect trackingId (normalizeSkillTerminal terminal).status db = .ok db' := by
  have hstatus : ∃ tracked,
      trackingStatusForTerminal (normalizeSkillTerminal terminal).status = some tracked := by
    cases terminal <;> exact ⟨_, rfl⟩
  obtain ⟨tracked, htracked⟩ := hstatus
  unfold applyTerminalEffect
  rw [htracked]
  simp only [if_pos hdue]
  exact ⟨_, rfl⟩

/-- The effect of a terminal is applied when it is due. -/
theorem applyEffect_of_due {trackingId : Option Uuid} (terminal : SkillTerminal)
    (hk : k ∈ db.calls)
    (heffect : k.effectStatus = if trackingId.isSome then .pending else .notApplicable)
    (hdue : ∀ t ∈ trackingId, ∃ a ∈ db.tracking, a.id = t ∧ a.status = .tracking) :
    ∃ db', applyEffect k.id trackingId (normalizeSkillTerminal terminal).status db = .ok db' := by
  cases trackingId with
  | none => exact ⟨db, rfl⟩
  | some t =>
    obtain ⟨applied, happlied⟩ := applyTerminalEffect_of_due terminal (hdue t rfl)
    have hpending : ∃ k' ∈ applied.calls, k'.id = k.id ∧ k'.effectStatus = .pending := by
      rw [applyTerminalEffect_calls happlied]
      exact ⟨k, hk, rfl, heffect⟩
    refine ⟨applied.markEffectApplied k.id, ?_⟩
    unfold applyEffect
    simp only [happlied]
    exact if_pos hpending

/-- The transaction fails when the effect is not due. -/
theorem applyEffect_of_not_due (db : Db) (callId : Uuid) (status : CallStatus)
    {trackingId : Option Uuid}
    (h : ¬∀ t ∈ trackingId, ∃ a ∈ db.tracking, a.id = t ∧ a.status = .tracking) :
    ∃ f, applyEffect callId trackingId status db = .error f := by
  cases happly : applyEffect callId trackingId status db with
  | error f => exact ⟨f, rfl⟩
  | ok db' =>
    refine absurd ?_ h
    intro t ht
    rw [Option.mem_def.1 ht] at happly
    simp only [applyEffect] at happly
    obtain ⟨applied, happlied, -⟩ := bind_eq_ok_iff.1 happly
    obtain ⟨-, -, hdue, -⟩ := applyTerminalEffect_cases happlied
    exact hdue

/-! ## The first event -/

theorem OpenFor.lookUp (h : db.OpenFor d skillCallId) (hcalls : db.CallsSound)
    (he : e.Names d skillCallId) :
    lookUpCall e.claimed ⟨e.payload.decisionId, e.payload.skillCallId, e.payload.skillName⟩ db =
      .ok (d, db.callForDecision d.id) :=
  he.lookUp hcalls h.decision rfl (fun k hk ↦ (h.own k hk).1) h.free

/-- The transaction commits when the effect is due. -/
theorem OpenFor.applied (h : db.OpenFor d skillCallId) (hcalls : db.CallsSound)
    (he : e.Names d skillCallId) (hdue : db.EffectDue d) :
    ∃ db', recordSkillFinished e.now e.claimed e.payload db = .ok (⟨.applied, none⟩, db') := by
  have hlookup := h.lookUp hcalls he
  unfold recordSkillFinished
  simp only [hlookup]
  cases hcall : db.callForDecision d.id with
  | none =>
    rw [hcall] at hlookup
    have hspec := lookUpCall_eq_ok.1 hlookup
    have hdue' : ∀ t ∈ d.actionTrackingId, ∃ a ∈ (db.insertCall (db.newCallRow e.now e.claimed d
        e.payload.skillCallId e.payload.skillName (normalizeSkillTerminal e.payload.terminal)
        (some e.claimed.rowId) (if d.actionTrackingId.isSome then .pending
          else .notApplicable))).tracking, a.id = t ∧ a.status = .tracking := by
      rw [insertCall_tracking]
      exact hdue
    obtain ⟨applied, happlied⟩ := applyEffect_of_due e.payload.terminal
      (hspec.insert_mem hcalls rfl rfl rfl) rfl hdue'
    exact ⟨applied, bind_eq_ok_iff.2 ⟨applied, happlied, rfl⟩⟩
  | some k =>
    have hrunning := (h.own k hcall).2
    have hmem : k ∈ db.calls := Table.mem_of_find?_eq_some hcall
    simp only [resolve_of_running hrunning]
    obtain ⟨applied, happlied⟩ := applyEffect_of_due e.payload.terminal
      (updateTerminal_mem hmem hrunning) rfl hdue
    exact ⟨applied, bind_eq_ok_iff.2 ⟨applied, happlied, rfl⟩⟩

/-- The first event closes the call with its terminal, and applies the effect. -/
theorem OpenFor.finish_of_due (h : db.OpenFor d skillCallId) (hcalls : db.CallsSound)
    (he : e.Names d skillCallId) (hdue : db.EffectDue d) :
    ∃ k, (db.finish e).ClosedFor d skillCallId k ∧
      k.terminal = normalizeSkillTerminal e.payload.terminal ∧
      k.effectStatus = settledEffect d.actionTrackingId := by
  obtain ⟨db', hrecord⟩ := h.applied hcalls he hdue
  have hclosed := normalizeSkillTerminal_closed e.payload.terminal
  rw [finish_of_ok hrecord]
  obtain ⟨d', call, hlookup, hcases⟩ := recordSkillFinished_closes hcalls hrecord (Or.inl rfl)
  have hfound := (h.lookUp hcalls he).symm.trans (lookUpCall_eq_ok.2 hlookup)
  simp only [Except.ok.injEq, Prod.mk.injEq] at hfound
  rw [← hfound.1, ← hfound.2] at hcases
  cases hcases with
  | inl hrepeats =>
    obtain ⟨-, k, hk, hnot, -⟩ := hrepeats
    rw [(h.own k hk).2] at hnot
    cases hnot
  | inr hcloses =>
    obtain ⟨-, k, hk, has⟩ := hcloses
    have hstatus : k.status = (normalizeSkillTerminal e.payload.terminal).status :=
      congrArg TerminalRecord.status has.terminal
    refine ⟨k, ⟨?_, ?_, hk, has.decisionRowId, ?_, ?_, ?_⟩, has.terminal, has.effectStatus⟩
    · rw [recordSkillFinished_decisions hrecord]
      exact h.decision
    · exact (recordSkillFinished_step he.claimed hrecord).calls hcalls
    · exact has.skillCallId.trans he.skillCallId
    · rw [hstatus]
      exact hclosed.1
    · intro hmanual
      exact absurd (hstatus.symm.trans hmanual) hclosed.2

/-- An event whose effect is not due changes nothing. -/
theorem OpenFor.finish_of_not_due (h : db.OpenFor d skillCallId) (hcalls : db.CallsSound)
    (he : e.Names d skillCallId) (hdue : ¬db.EffectDue d) : db.finish e = db := by
  have hlookup := h.lookUp hcalls he
  suffices hfails : ∃ f, recordSkillFinished e.now e.claimed e.payload db = .error f by
    obtain ⟨f, hf⟩ := hfails
    exact finish_of_error hf
  unfold recordSkillFinished
  simp only [hlookup]
  cases hcall : db.callForDecision d.id with
  | none =>
    have hdue' : ¬∀ t ∈ d.actionTrackingId, ∃ a ∈ (db.insertCall (db.newCallRow e.now e.claimed d
        e.payload.skillCallId e.payload.skillName (normalizeSkillTerminal e.payload.terminal)
        (some e.claimed.rowId) (if d.actionTrackingId.isSome then .pending
          else .notApplicable))).tracking, a.id = t ∧ a.status = .tracking := by
      rw [insertCall_tracking]
      exact hdue
    obtain ⟨f, hf⟩ := applyEffect_of_not_due _ db.nextUuid
      (normalizeSkillTerminal e.payload.terminal).status hdue'
    exact ⟨f, by rw [hf]; rfl⟩
  | some k =>
    simp only [resolve_of_running (h.own k hcall).2]
    obtain ⟨f, hf⟩ := applyEffect_of_not_due
      (db.updateTerminal k.id e.claimed.rowId (normalizeSkillTerminal e.payload.terminal)
        (if d.actionTrackingId.isSome then .pending else .notApplicable)) k.id
      (normalizeSkillTerminal e.payload.terminal).status hdue
    exact ⟨f, by rw [hf]; rfl⟩

/-! ## The later events -/

/-- A later event resolves its terminal against the record and leaves the effect alone. -/
theorem ClosedFor.finish (h : db.ClosedFor d skillCallId k) (he : e.Names d skillCallId) :
    ∃ k', (db.finish e).ClosedFor d skillCallId k' ∧
      k'.terminal = resolveTerminal k.terminal e.payload.terminal ∧
      k'.effectStatus = k.effectStatus ∧ (db.finish e).tracking = db.tracking := by
  have hlookup := he.lookUp h.sound h.decision h.find
    (fun k' hk' ↦ (Option.some.inj hk') ▸ h.skillCallId) (fun hnone ↦ absurd hnone (Option.some_ne_none k))
  have hclosed := normalizeSkillTerminal_closed e.payload.terminal
  have hresolve : resolveTerminal k.terminal e.payload.terminal =
      if normalizeSkillTerminal e.payload.terminal = k.terminal then k.terminal
      else terminalConflict := by
    by_cases hmanual : k.status = .manual
    · rw [resolveTerminal_of_manual (show k.terminal.status = .manual from hmanual),
        h.manual hmanual, ite_self]
    · exact resolveTerminal_of_closed h.closed hmanual e.payload.terminal
  by_cases hsame : normalizeSkillTerminal e.payload.terminal = k.terminal
  · have hrecord : recordSkillFinished e.now e.claimed e.payload db =
        .ok (⟨.idempotent, none⟩, db) := by
      unfold recordSkillFinished
      simp only [hlookup, (resolve_of_closed h.closed).1 hsame.symm]
    rw [finish_of_ok hrecord, hresolve, if_pos hsame]
    exact ⟨k, h, rfl, rfl, rfl⟩
  · have hrecord : recordSkillFinished e.now e.claimed e.payload db =
        .ok (⟨.conflict, some "terminal_conflict"⟩, db.markTerminalConflict k.id) := by
      unfold recordSkillFinished
      simp only [hlookup, (resolve_of_closed h.closed).2 (Ne.symm hsame)]
    rw [finish_of_ok hrecord, hresolve, if_neg hsame]
    refine ⟨_, ⟨h.decision, ?_, Table.set_mem_update h.call rfl, h.own, h.skillCallId, rfl,
      fun _ ↦ rfl⟩, rfl, rfl, rfl⟩
    exact (recordSkillFinished_step he.claimed hrecord).calls h.sound

/-- The later events together. -/
theorem ClosedFor.finishAll (h : db.ClosedFor d skillCallId k)
    (hnames : ∀ e ∈ ends, e.Names d skillCallId) :
    ∃ k', (db.finishAll ends).ClosedFor d skillCallId k' ∧
      k'.terminal = foldTerminals k.terminal (ends.map Ending.terminal) ∧
      k'.effectStatus = k.effectStatus ∧ (db.finishAll ends).tracking = db.tracking := by
  induction ends generalizing db k with
  | nil => exact ⟨k, h, rfl, rfl, rfl⟩
  | cons e ends ih =>
    obtain ⟨k₁, hk₁, hterminal, heffect, htracking⟩ := h.finish (hnames e List.mem_cons_self)
    obtain ⟨k', hk', hterminal', heffect', htracking'⟩ :=
      ih hk₁ fun e' he' ↦ hnames e' (List.mem_cons_of_mem e he')
    refine ⟨k', hk', ?_, heffect'.trans heffect, htracking'.trans htracking⟩
    rw [hterminal', hterminal]
    rfl

/-! ## All events of a call -/

/-- What the events of a call do: the call takes the record that their terminals amount to, and
its effect is applied once, by the first of them. When the effect is not due, every transaction
fails and nothing changes. -/
structure FinishesOnce (db : Db) (d : DecisionRow) (ends : List Ending) : Prop where
  terminal : db.EffectDue d → (db.finishAll ends).terminalOf d =
    foldTerminals (db.terminalOf d) (ends.map Ending.terminal)
  effect : db.EffectDue d → ends ≠ [] → ∃ k ∈ (db.finishAll ends).calls,
    k.decisionRowId = d.id ∧ k.effectStatus = settledEffect d.actionTrackingId
  once : ∀ first rest, ends = first ++ rest → first ≠ [] →
    (db.finishAll ends).tracking = (db.finishAll first).tracking
  refused : ¬db.EffectDue d → db.finishAll ends = db

theorem OpenFor.finishAll_of_not_due (h : db.OpenFor d skillCallId) (hcalls : db.CallsSound)
    (hnames : ∀ e ∈ ends, e.Names d skillCallId) (hdue : ¬db.EffectDue d) :
    db.finishAll ends = db := by
  induction ends with
  | nil => rfl
  | cons e ends ih =>
    calc db.finishAll (e :: ends) = (db.finish e).finishAll ends := rfl
      _ = db.finishAll ends := by
        rw [h.finish_of_not_due hcalls (hnames e List.mem_cons_self) hdue]
      _ = db := ih fun e' he' ↦ hnames e' (List.mem_cons_of_mem e he')

/-- Some events close the call with what their terminals amount to. -/
theorem OpenFor.finishAll_of_due (h : db.OpenFor d skillCallId) (hcalls : db.CallsSound)
    (hnames : ∀ e ∈ ends, e.Names d skillCallId) (hdue : db.EffectDue d) (hne : ends ≠ []) :
    ∃ k, (db.finishAll ends).ClosedFor d skillCallId k ∧
      k.terminal = foldTerminals (db.terminalOf d) (ends.map Ending.terminal) ∧
      k.effectStatus = settledEffect d.actionTrackingId := by
  cases ends with
  | nil => exact absurd rfl hne
  | cons e rest =>
    obtain ⟨k₁, hk₁, hterminal, heffect⟩ :=
      h.finish_of_due hcalls (hnames e List.mem_cons_self) hdue
    obtain ⟨k, hk, hfold, hsame, -⟩ :=
      hk₁.finishAll fun e' he' ↦ hnames e' (List.mem_cons_of_mem e he')
    refine ⟨k, hk, ?_, hsame.trans heffect⟩
    rw [hfold, hterminal, ← resolveTerminal_of_running h.running]
    rfl

theorem OpenFor.finishesOnce (h : db.OpenFor d skillCallId) (hcalls : db.CallsSound)
    (hnames : ∀ e ∈ ends, e.Names d skillCallId) : db.FinishesOnce d ends where
  terminal hdue := by
    by_cases hne : ends = []
    · rw [hne]
      rfl
    · obtain ⟨k, hk, hterminal, -⟩ := h.finishAll_of_due hcalls hnames hdue hne
      rw [hk.terminalOf, hterminal]
  effect hdue hne := by
    obtain ⟨k, hk, -, heffect⟩ := h.finishAll_of_due hcalls hnames hdue hne
    exact ⟨k, hk.call, hk.own, heffect⟩
  once first rest heq hne := by
    rw [heq] at hnames
    have hfirst : ∀ e ∈ first, e.Names d skillCallId :=
      fun e he ↦ hnames e (List.mem_append_left rest he)
    have hrest : ∀ e ∈ rest, e.Names d skillCallId :=
      fun e he ↦ hnames e (List.mem_append_right first he)
    by_cases hdue : db.EffectDue d
    · obtain ⟨k, hk, -⟩ := h.finishAll_of_due hcalls hfirst hdue hne
      obtain ⟨-, -, -, -, htracking⟩ := hk.finishAll hrest
      rw [heq, finishAll_append, htracking]
    · rw [heq, h.finishAll_of_not_due hcalls hnames hdue, h.finishAll_of_not_due hcalls hfirst hdue]
  refused hdue := h.finishAll_of_not_due hcalls hnames hdue

end Db

namespace World

/-- The terminals of an open call in any order: the record is the common terminal or a conflict,
whatever the order, and the effect is applied at most once. The record of a call that something
else has closed counts as one more terminal. -/
theorem terminals_fold {config : SystemConfig} {w : World} (hw : w.Reachable config)
    {d : DecisionRow} {skillCallId : String} (hopen : w.db.OpenFor d skillCallId)
    (ends : List Ending) (hnames : ∀ e ∈ ends, e.Names d skillCallId) :
    Resolves (w.db.terminalOf d) (ends.map Ending.terminal) ∧ w.db.FinishesOnce d ends ∧
      ∀ closed : TerminalRecord, closed.status.isRunning = false → closed.status ≠ .manual →
        foldTerminals closed (ends.map Ending.terminal) =
          if ∀ t ∈ ends.map Ending.terminal, normalizeSkillTerminal t = closed then closed
          else terminalConflict :=
  ⟨resolves_of_running hopen.running _, hopen.finishesOnce hw.callsSound hnames,
    fun _ hclosed hmanual ↦ foldTerminals_of_closed hclosed hmanual _⟩

section Example

open Scenario

/-- The call of a dance is reported twice, as a success and as a timeout. -/
def contradicted : World :=
  after [submit [sessionStarted "e1" 1 "L1" 1], claim, .persist (token 3),
    .plan (token 3) ⟨"dance", 100, .callSkill "dance" "1" [] none⟩ "d", finish 3,
    submit [plain "e2" 1 2 0 (finished "d"), plain "e3" 1 3 0 (timedOut "d")], claim, claim]

/-- The two reports, when a worker has claimed them. -/
def reports (c c' : ClaimedEvent) : List Ending :=
  [⟨0, c, "d", "call", "dance", .success, "done", false, 0, 0, none, instant⟩,
    ⟨0, c', "d", "call", "dance", .timeout "too late" true, "too late", true, 0, 0, none, instant⟩]

theorem terminals_fold_dance : ∃ d ∈ contradicted.db.decisions, ∃ ends,
    ends.map Ending.terminal = [.success, .timeout "too late" true] ∧
      Resolves (contradicted.db.terminalOf d) (ends.map Ending.terminal) ∧
      contradicted.db.FinishesOnce d ends := by
  have hreports : ∃ d ∈ contradicted.db.decisions, d.decisionId = "d" ∧
      d.skillName = some "dance" ∧ (contradicted.db.callForDecision d.id).isNone = true ∧
      (contradicted.db.callByName d.gatewayId "call").isNone = true ∧
      ∃ c ∈ contradicted.claims, (c.event.eventId = "e2" ∧
        c.sessionId = c.event.sessionId ∧ c.gatewayId = d.gatewayId ∧
        c.event.sessionId = d.sessionId) ∧
      ∃ c' ∈ contradicted.claims, c'.event.eventId = "e3" ∧
        c'.sessionId = c'.event.sessionId ∧ c'.gatewayId = d.gatewayId ∧
        c'.event.sessionId = d.sessionId := by
    decide
  obtain ⟨d, hd, hname, hskill, hown, hfree, c, -, ⟨-, hc₁, hc₂, hc₃⟩, c', -, -, hc₁', hc₂', hc₃'⟩ :=
    hreports
  rw [Option.isNone_iff_eq_none] at hown hfree
  have hopen : contradicted.db.OpenFor d "call" := by
    refine ⟨hd, fun k hk ↦ ?_, fun _ ↦ hfree⟩
    rw [hown] at hk
    exact absurd hk (Option.not_mem_none k)
  have hnames : ∀ e ∈ reports c c', e.Names d "call" := by
    refine List.forall_mem_cons.2 ⟨⟨hc₁, hc₂, hc₃, hname.symm, rfl, hskill⟩, ?_⟩
    refine List.forall_mem_cons.2 ⟨⟨hc₁', hc₂', hc₃', hname.symm, rfl, hskill⟩, ?_⟩
    exact fun e he ↦ absurd he List.not_mem_nil
  have hfold := terminals_fold (reachable_after _ _) hopen _ hnames
  exact ⟨d, hd, reports c c', rfl, hfold.1, hfold.2.1⟩

end Example

end World

end LlmGateway
