import LlmGateway.Effect.Settling
import LlmGateway.System.Delivery
import LlmGateway.System.Scenario
import LlmGateway.System.Terminal

/-!
# Tracked actions

A terminal event and the stopping of a session apply the effect of every call that they close to
the action that its decision tracks. The discarding of stale events and the stopping of idle
sessions cancel open calls without it. In runs in which these two find no open call with a tracked
action, every call that has come to an end has its effect applied, and each effect was applied
once.
-/

namespace LlmGateway

open Relational

/-- The decision of the call tracks an action. -/
def Db.TracksCall (db : Db) (key : CallKey) : Prop :=
  ∃ d ∈ db.decisions, d.id = key.decisionRowId ∧ d.actionTrackingId.isSome = true

namespace World

variable {config : SystemConfig} {w : World} {a : Action} {t : Uuid}

/-- Stale events or idle sessions leave an open call behind that has a tracked action. -/
def AbandonsTracked (config : SystemConfig) (w : World) : Action → Prop
  | .discard => ¬w.db.StaleCastFails ∧ ∃ maxAgeMs ∈ config.eventStaleAfterMs,
      ∃ k ∈ w.db.calls, w.db.DiscardsCall maxAgeMs w.now k.toCallKey ∧ w.db.TracksCall k.toCallKey
  | .stopIdle => ∃ timeoutMs ∈ config.sessionIdleTimeoutMs,
      ∃ k ∈ w.db.calls, w.db.IdlesCall timeoutMs w.now k.toCallKey ∧ w.db.TracksCall k.toCallKey
  | _ => False

/-- The action changes the status of the tracked action. -/
def AppliesEffect (config : SystemConfig) (t : Uuid) (w : World) (a : Action) : Prop :=
  ∃ r ∈ w.db.tracking, r.id = t ∧
    ∃ r' ∈ (w.exec config a).db.tracking, r'.id = t ∧ r'.status ≠ r.status

instance (t : Uuid) (w : World) (a : Action) : Decidable (w.AppliesEffect config t a) :=
  inferInstanceAs (Decidable (∃ _ ∈ _, _))

/-! ## Effects of calls -/

theorem recordTerminal_effectsApplied {c : ClaimedEvent} (h : w.db.EffectsApplied)
    (hcalls : w.db.CallsSound) (htracked : w.db.Tracked)
    (hcalls' : (w.recordTerminal c).db.CallsSound) : (w.recordTerminal c).db.EffectsApplied := by
  unfold recordTerminal at hcalls' ⊢
  split at hcalls'
  · rename_i payload _
    have hdelivers : w.db.Delivers (fun _ ↦ False) False (fun _ ↦ False)
        (recordSkillStarted w.now c payload w.db).2 := recordSkillStarted_delivers c payload
    exact h.of_delivers hcalls hdelivers fun _ _ ↦ False.elim
  · rename_i payload _
    cases hresult : recordSkillFinished w.now c payload w.db with
    | error failure => exact h
    | ok recorded =>
      rw [hresult] at hcalls'
      exact recordSkillFinished_effectsApplied h hcalls hcalls' hresult
  · rename_i payload _
    have hdelivers : w.db.Delivers (fun _ ↦ False) False (fun _ ↦ False)
        (mergeDecisionRejected c payload w.db).2 := mergeDecisionRejected_delivers c payload
    exact h.of_delivers hcalls hdelivers fun _ _ ↦ False.elim
  · rename_i payload _
    cases hresult : closeGeneration c payload w.db with
    | error failure => exact h
    | ok recorded => exact closeGeneration_effectsApplied h hcalls htracked hresult
  · exact h

theorem exec_effectsApplied (hw : w.Reachable config) (h : w.db.EffectsApplied)
    (hkeeps : ¬w.AbandonsTracked config a) : (w.exec config a).db.EffectsApplied := by
  have hcalls := hw.callsSound
  have hdelivers := exec_delivers config w a
  have huntracked {k : CallRow} (hk : k ∈ w.db.calls) (hnot : ¬w.db.TracksCall k.toCallKey)
      {k' : CallRow} (hkey : k'.toCallKey = k.toCallKey) :
      (w.exec config a).db.EffectApplied k' := by
    intro d' hd' hid t ht
    obtain ⟨d, hd, hown, hsame⟩ := hdelivers.decision_of_call hcalls hk hd'
      (hid.trans (congrArg CallKey.decisionRowId hkey))
    refine absurd ⟨d, hd, hown, ?_⟩ hnot
    rw [← hsame, Option.mem_def.1 ht]
    rfl
  cases a with
  | record token =>
    have hcalls' := exec_callsSound hw.sound hcalls (.record token)
    simp only [exec, withClaim] at hcalls' ⊢
    cases hc : w.claim? token with
    | none => exact h
    | some c =>
      rw [hc] at hcalls'
      exact recordTerminal_effectsApplied h hcalls hw.tracked hcalls'
  | discard =>
    refine h.of_delivers hcalls hdelivers fun k' hk' hcloses _ ↦ ?_
    obtain ⟨hcasts, maxAgeMs, hage, hdiscards⟩ := hcloses
    obtain ⟨k, hk, hkey, -⟩ := hdiscards.1
    refine huntracked hk (fun htracks ↦ hkeeps ⟨hcasts, maxAgeMs, hage, k, hk, ?_, htracks⟩)
      hkey.symm
    rwa [hkey]
  | stopIdle =>
    refine h.of_delivers hcalls hdelivers fun k' hk' hcloses _ ↦ ?_
    obtain ⟨timeoutMs, htimeout, hidles⟩ := hcloses
    obtain ⟨k, hk, hkey, -⟩ := hidles.1
    refine huntracked hk (fun htracks ↦ hkeeps ⟨timeoutMs, htimeout, k, hk, ?_, htracks⟩) hkey.symm
    rwa [hkey]
  | _ => exact h.of_delivers hcalls hdelivers fun _ _ ↦ False.elim

/-! ## Each effect once -/

theorem not_appliesEffect_of_settled (h : w.db.Settled t) :
    ¬w.AppliesEffect config t a ∧ (w.exec config a).db.Settled t := by
  have hdelivers := exec_delivers config w a
  refine ⟨fun happlies ↦ ?_, h.forward hdelivers⟩
  obtain ⟨r, hr, hid, r', hr', hid', hne⟩ := happlies
  obtain ⟨s, hs, hsid, hstatus⟩ := h
  obtain rfl : s = r := Table.eq_of_clashes hs hr (hsid.trans hid.symm)
  obtain ⟨s', hs', hstep⟩ := hdelivers.tracking.forward s hs
  have heq : r' = s' := by
    apply Table.eq_of_clashes hr' hs'
    calc r'.id = t := hid'
      _ = s.id := hsid.symm
      _ = s'.id := (congrArg TrackingKey.id hstep.key_eq).symm
  rw [heq] at hne
  exact hne (hstep.settled hstatus)

/-- An action settles a tracked action exactly if it changes its status. -/
theorem appliesEffect_iff_settles (h : ¬w.db.Settled t) :
    w.AppliesEffect config t a ↔ (w.exec config a).db.Settled t := by
  have hactive {r : TrackingRow} (hr : r ∈ w.db.tracking) (hid : r.id = t) :
      r.status = .tracking := by
    by_contra hstatus
    exact h ⟨r, hr, hid, hstatus⟩
  constructor
  · intro happlies
    obtain ⟨r, hr, hid, r', hr', hid', hne⟩ := happlies
    rw [hactive hr hid] at hne
    exact ⟨r', hr', hid', hne⟩
  · intro hsettled
    obtain ⟨r', hr', hid', hne⟩ := hsettled
    cases exec_adds config w a with
    | inl hdelivers =>
      obtain ⟨r, hr, hstep⟩ := (hdelivers.tracking.backward r' hr').resolve_right id
      have hid : r.id = t := (congrArg TrackingKey.id hstep.key_eq).symm.trans hid'
      refine ⟨r, hr, hid, r', hr', hid', ?_⟩
      rwa [hactive hr hid]
    | inr hadds =>
      obtain ⟨token, c, context, action, decisionId, hadds⟩ := hadds
      rw [hadds.new.tracking_eq] at hr'
      cases trackAction_tracking w.db c action with
      | inl hnone =>
        rw [hnone.2] at hr'
        exact absurd ⟨r', hr', hid', hne⟩ h
      | inr hnew =>
        obtain ⟨row, -, hstatus, hinsert⟩ := hnew
        cases (Table.mem_of_insert? hinsert).1 hr' with
        | inl hold => exact absurd ⟨r', hold, hid', hne⟩ h
        | inr heq =>
          rw [heq] at hne
          exact absurd hstatus hne

/-- In a run in which stale events and idle sessions leave no open call with a tracked action
behind, every call that has come to an end has its effect applied, exactly once. -/
theorem effects_applied_once {entropy : ℕ → ℕ} {actions : List Action}
    (hkeeps : Guarded (exec config) (fun v a ↦ ¬v.AbandonsTracked config a) (initial entropy)
      actions) {taken : List Action} (htaken : taken <+: actions) :
    ∀ k ∈ (run (exec config) (initial entropy) taken).db.calls, k.status.isTerminal = true →
      ∀ d ∈ (run (exec config) (initial entropy) taken).db.decisions, d.id = k.decisionRowId →
        ∀ t ∈ d.actionTrackingId, k.effectStatus = .applied ∧
          (run (exec config) (initial entropy) taken).db.Settled t ∧
          occurrences (exec config) (AppliesEffect config t) (initial entropy) taken = 1 := by
  obtain ⟨later, rfl⟩ := htaken
  have hstep (v : World) (a : Action) (hv : v.Reachable config ∧ v.db.EffectsApplied)
      (ha : ¬v.AbandonsTracked config a) :
      (v.exec config a).Reachable config ∧ (v.exec config a).db.EffectsApplied :=
    ⟨hv.1.run [a], exec_effectsApplied hv.1 hv.2 ha⟩
  have hempty : (initial entropy).db.EffectsApplied := fun k hk ↦ absurd hk (Table.not_mem_empty k)
  have happlied := (invariant_guarded (C := fun (v : World) a ↦ ¬v.AbandonsTracked config a) hstep
    ⟨⟨entropy, [], rfl⟩, hempty⟩ (guarded_append.1 hkeeps).1).2
  intro k hk hterminal d hd hid t ht
  obtain ⟨heffect, hsettled⟩ := happlied k hk hterminal d hd hid t ht
  refine ⟨heffect, hsettled, ?_⟩
  apply occurrences_eq_one (P := fun v : World ↦ v.db.Settled t)
  · exact fun v a ↦ not_appliesEffect_of_settled
  · exact fun v a ↦ appliesEffect_iff_settles
  · intro hinitial
    obtain ⟨r, hr, -⟩ := hinitial
    exact Table.not_mem_empty r hr
  · exact hsettled

section Example

open Scenario

/-- A dance that counts towards a goal. -/
def trackedDance : AgentAction :=
  ⟨"dance", 100, .callSkill "dance" "v1" [] (some ⟨"u", "dance", "count", .int 1, .int 0, 24⟩)⟩

/-- The dance is planned and accepted. -/
def acceptTracked : List Action :=
  [submit [sessionStarted "e1" 1 "L1" 1], claim, .persist (Scenario.token 3),
    .plan (Scenario.token 3) trackedDance "d", finish 3, .claimDecision "worker",
    .recordResponse (Scenario.token 6) ⟨200, .accepted, "ok", some "call", none⟩]

/-- The dance is finished, and so is the tracked action, by the last but one of the actions. -/
theorem effects_applied_once_dance :
    let actions := acceptTracked ++ [submit [plain "e2" 1 2 0 (finished "d")], claim,
      .record (Scenario.token 9), finish 9]
    ∃ k ∈ (after actions).db.calls, k.effectStatus = .applied ∧
      ∃ t, (after actions).db.Settled t ∧ occurrences (exec Scenario.config)
        (AppliesEffect Scenario.config t) (initial fun _ ↦ 0) actions = 1 := by
  intro actions
  have hkeeps : Guarded (exec Scenario.config) (fun v a ↦ ¬v.AbandonsTracked Scenario.config a)
      (initial fun _ ↦ 0) actions := by
    refine ⟨id, id, id, id, id, id, id, id, id, id, id, trivial⟩
  have hclosed : ∃ k ∈ (after actions).db.calls, k.status.isTerminal = true ∧
      ∃ d ∈ (after actions).db.decisions, d.id = k.decisionRowId ∧
        d.actionTrackingId = some (Scenario.token 4) := by
    decide
  obtain ⟨k, hk, hterminal, d, hd, hid, ht⟩ := hclosed
  have hall := effects_applied_once hkeeps (List.prefix_refl actions) k hk hterminal d hd hid _ ht
  exact ⟨k, hk, hall.1, _, hall.2⟩

/-- The dance is accepted, and then the session falls silent: its call is cancelled, but the
tracked action is still tracked. -/
theorem idle_session_abandons_dance :
    ∃ k ∈ (after (acceptTracked ++ [.tick 10000, .stopIdle])).db.calls, k.status = .cancelled ∧
      ∃ d ∈ (after (acceptTracked ++ [.tick 10000, .stopIdle])).db.decisions,
        d.id = k.decisionRowId ∧ ∃ t ∈ d.actionTrackingId, k.effectStatus ≠ .applied ∧
          ¬(after (acceptTracked ++ [.tick 10000, .stopIdle])).db.Settled t := by
  decide

end Example

end World

end LlmGateway
