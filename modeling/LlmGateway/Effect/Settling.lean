import LlmGateway.Effect.OutboxDelivery

/-!
# Settling tracked actions

A tracked action is settled when its status is not `tracking` any more. The effect of a call that
has come to an end is applied when the call says so and the tracked action of its decision is
settled. `recordSkillFinished` and `closeGeneration` apply the effect of each call that they close.
-/

namespace LlmGateway

open Relational

variable {now : ℕ} {db db' : Db} {starts : DecisionStatus → Prop} {plans : Prop}
  {closes : CallKey → Prop}

def Db.Settled (db : Db) (trackingId : Uuid) : Prop :=
  ∃ a ∈ db.tracking, a.id = trackingId ∧ a.status ≠ .tracking

instance (db : Db) : DecidablePred db.Settled := fun _ ↦ inferInstanceAs (Decidable (∃ _ ∈ _, _))

/-- The effect of the call is applied to the action that its decision tracks. -/
def Db.EffectApplied (db : Db) (k : CallRow) : Prop :=
  ∀ d ∈ db.decisions, d.id = k.decisionRowId → ∀ t ∈ d.actionTrackingId,
    k.effectStatus = .applied ∧ db.Settled t

instance (db : Db) : DecidablePred db.EffectApplied := fun _ ↦
  inferInstanceAs (Decidable (∀ _ ∈ _, _))

/-- The effects of all calls that have come to an end are applied. -/
def Db.EffectsApplied (db : Db) : Prop :=
  ∀ k ∈ db.calls, k.status.isTerminal = true → db.EffectApplied k

theorem Db.Settled.forward {t : Uuid} (h : db.Settled t)
    (hdelivers : db.Delivers starts plans closes db') : db'.Settled t := by
  obtain ⟨a, ha, hid, hstatus⟩ := h
  obtain ⟨a', ha', hstep⟩ := hdelivers.tracking.forward a ha
  refine ⟨a', ha', (congrArg TrackingKey.id hstep.key_eq).trans hid, ?_⟩
  rwa [hstep.settled hstatus]

/-- The decision of a stored call was there before the transaction. -/
theorem Db.Delivers.decision_of_call (h : db.Delivers starts plans closes db')
    (hcalls : db.CallsSound) {k : CallRow} (hk : k ∈ db.calls) {d' : DecisionRow}
    (hd' : d' ∈ db'.decisions) (hown : d'.id = k.decisionRowId) :
    ∃ d ∈ db.decisions, d.id = k.decisionRowId ∧ d'.toDecisionKey = d.toDecisionKey := by
  obtain ⟨d, hd, hcall⟩ := hcalls.decision k hk
  obtain ⟨d'', hd'', hstep⟩ := h.decisions.forward d hd
  have hrow : d'.id = d''.id := by
    calc d'.id = k.decisionRowId := hown
      _ = d.id := hcall.1.symm
      _ = d''.id := (congrArg DecisionKey.id hstep.key_eq).symm
  rw [decisionRow_eq_of_id hd' hd'' hrow]
  exact ⟨d, hd, hcall.1, hstep.key_eq⟩

/-- A transaction that keeps a call and its effect keeps the effect applied. -/
theorem Db.EffectApplied.forward {k k' : CallRow} (h : db.EffectApplied k) (hcalls : db.CallsSound)
    (hdelivers : db.Delivers starts plans closes db') (hk : k ∈ db.calls)
    (hkey : k'.toCallKey = k.toCallKey)
    (heffect : k.effectStatus = .applied → k'.effectStatus = .applied) : db'.EffectApplied k' := by
  intro d' hd' hid t ht
  obtain ⟨d, hd, hown, hsame⟩ := hdelivers.decision_of_call hcalls hk hd'
    (hid.trans (congrArg CallKey.decisionRowId hkey))
  rw [hsame] at ht
  obtain ⟨happlied, hsettled⟩ := h d hd hown t ht
  exact ⟨heffect happlied, hsettled.forward hdelivers⟩

/-- A transaction keeps the effects applied if it applies those of the calls that it closes. -/
theorem Db.EffectsApplied.of_delivers (h : db.EffectsApplied) (hcalls : db.CallsSound)
    (hdelivers : db.Delivers starts plans closes db') (hclosed : ∀ k' ∈ db'.calls,
      closes k'.toCallKey → k'.status.isTerminal = true → db'.EffectApplied k') :
    db'.EffectsApplied := by
  intro k' hk' hterminal
  cases hdelivers.calls.backward k' hk' with
  | inr hnew => exact hclosed k' hk' (hnew hterminal) hterminal
  | inl hold =>
    obtain ⟨k, hk, hstep⟩ := hold
    cases hstep.terminal hterminal with
    | inl hkept => exact (h k hk hkept.1).forward hcalls hdelivers hk hstep.key_eq hkept.2
    | inr hcloses =>
      apply hclosed k' hk' ?_ hterminal
      rw [hstep.key_eq]
      exact hcloses.2

/-! ## Applying an effect -/

theorem applyTerminalEffect_settled {trackingId : Uuid} {status : CallStatus}
    (h : applyTerminalEffect trackingId status db = .ok db') : db'.Settled trackingId := by
  obtain ⟨tracked, htracked, ⟨a, ha, hid, hactive⟩, rfl⟩ := applyTerminalEffect_cases h
  refine ⟨_, Table.set_mem_update ha ⟨hid, hactive⟩, hid, ?_⟩
  exact trackingStatusForTerminal_ne htracked

theorem applyEffect_settled {callId : Uuid} {trackingId : Option Uuid} {status : CallStatus}
    (h : applyEffect callId trackingId status db = .ok db') : ∀ t ∈ trackingId, db'.Settled t := by
  intro t ht
  rw [Option.mem_def.1 ht] at h
  simp only [applyEffect] at h
  obtain ⟨applied, happlied, h⟩ := bind_eq_ok_iff.1 h
  split_ifs at h
  cases h
  obtain ⟨a, ha, hid, hstatus⟩ := applyTerminalEffect_settled happlied
  exact ⟨a, ha, hid, hstatus⟩

theorem settledEffect_of_mem {trackingId : Option Uuid} {t : Uuid} (ht : t ∈ trackingId) :
    settledEffect trackingId = .applied := by
  rw [Option.mem_def.1 ht]
  rfl

/-- A terminal event closes no call, or it closes the call of its decision and applies its
effect. -/
theorem recordSkillFinished_settles {c : ClaimedEvent} {payload : SkillFinishedPayload}
    {result : MutationResult} (hcalls : db.CallsSound)
    (h : recordSkillFinished now c payload db = .ok (result, db')) :
    (∀ k' ∈ db'.calls, k'.status.isTerminal = true → k' ∈ db.calls) ∨
      ∃ d call, CallLookUp c ⟨payload.decisionId, payload.skillCallId, payload.skillName⟩ db d
          call ∧
        (∃ k ∈ db'.calls, k.decisionRowId = d.id ∧
          k.effectStatus = settledEffect d.actionTrackingId) ∧
        ∀ t ∈ d.actionTrackingId, db'.Settled t := by
  unfold recordSkillFinished at h
  simp only at h
  split at h
  · cases h
    exact Or.inl fun k hk _ ↦ hk
  · rename_i d call hlookup
    rw [lookUpCall_eq_ok] at hlookup
    split at h
    · obtain ⟨applied, happlied, h⟩ := bind_eq_ok_iff.1 h
      cases h
      refine Or.inr ⟨d, none, hlookup, ⟨_, applyEffect_settles happlied
        (hlookup.insert_mem hcalls rfl rfl rfl) rfl rfl, rfl, rfl⟩, applyEffect_settled happlied⟩
    · rename_i k
      split at h
      · cases h
        exact Or.inl fun k hk _ ↦ hk
      · cases h
        apply Or.inl
        intro k' hk' hterminal
        cases Table.mem_update.1 hk' with
        | inl hset =>
          obtain ⟨q, -, -, rfl⟩ := hset
          cases hterminal
        | inr hkept => exact hkept.1
      · rename_i hidempotent hconflict
        obtain ⟨applied, happlied, h⟩ := bind_eq_ok_iff.1 h
        cases h
        have hmem : k ∈ db.calls := hlookup.call_mem rfl
        have hrunning : k.status.isRunning = true := by
          by_contra hclosed
          rw [Bool.not_eq_true] at hclosed
          by_cases hsame : k.terminal = normalizeSkillTerminal payload.terminal
          · exact hidempotent ((resolve_of_closed hclosed).1 hsame)
          · exact hconflict ((resolve_of_closed hclosed).2 hsame)
        exact Or.inr ⟨d, some k, hlookup, ⟨_, applyEffect_settles happlied
          (updateTerminal_mem hmem hrunning) rfl rfl, (hlookup.call_matches k rfl).1, rfl⟩,
          applyEffect_settled happlied⟩

theorem recordSkillFinished_effectsApplied {c : ClaimedEvent} {payload : SkillFinishedPayload}
    {result : MutationResult} (h : db.EffectsApplied) (hcalls : db.CallsSound)
    (hcalls' : db'.CallsSound) (hrecord : recordSkillFinished now c payload db = .ok (result, db')) :
    db'.EffectsApplied := by
  have hdelivers : db.Delivers (fun _ ↦ False) False (fun key ↦ ∃ d call, CallLookUp c
      ⟨payload.decisionId, payload.skillCallId, payload.skillName⟩ db d call ∧
        key.decisionRowId = d.id) db' :=
    recordSkillFinished_delivers hrecord fun d call hlookup key hown ↦ ⟨d, call, hlookup, hown⟩
  apply h.of_delivers hcalls hdelivers
  intro k' hk' hcloses hterminal
  cases recordSkillFinished_settles hcalls hrecord with
  | inl hkept =>
    have hk := hkept k' hk' hterminal
    exact (h k' hk hterminal).forward hcalls hdelivers hk rfl id
  | inr hsettles =>
    obtain ⟨d, call, hlookup, ⟨k, hk, hown, heffect⟩, hsettled⟩ := hsettles
    obtain ⟨d₁, call₁, hlookup₁, hown₁⟩ := hcloses
    have hsame : d₁ = d := Table.eq_of_clashes hlookup₁.decision_mem hlookup.decision_mem
      (Or.inr (Or.inl ⟨hlookup₁.gatewayId.trans hlookup.gatewayId.symm,
        hlookup₁.decisionId.trans hlookup.decisionId.symm⟩))
    rw [hsame] at hown₁
    rw [hcalls'.unique k' hk' k hk (hown₁.trans hown.symm)]
    intro d' hd' hid t ht
    obtain ⟨d₂, hd₂, hstep⟩ := hdelivers.decisions.forward d hlookup.decision_mem
    have hrow : d' = d₂ := decisionRow_eq_of_id hd' hd₂
      (hid.trans (hown.trans (congrArg DecisionKey.id hstep.key_eq).symm))
    rw [hrow, hstep.key_eq] at ht
    exact ⟨heffect.trans (settledEffect_of_mem ht), hsettled t ht⟩

/-! ## Closing a generation -/

/-- Ending an open call applies its effect. -/
theorem finishOpenCall_effectsApplied {c : ClaimedEvent} {reason : String} {o : OpenCall}
    (h : db.EffectsApplied) (hcalls : db.CallsSound) (htracked : db.Tracked)
    (hd : o.decision ∈ db.decisions)
    (hown : ∀ k ∈ db.calls, k.id = o.call.id → k.decisionRowId = o.decision.id)
    (hfinish : finishOpenCall c reason db o = .ok db') : db'.EffectsApplied := by
  have hdelivers : db.Delivers (fun _ ↦ False) False (fun key ↦ key.id = o.call.id) db' :=
    finishOpenCall_delivers hfinish fun _ ↦ id
  have hspec := finishOpenCall_spec hfinish
  apply h.of_delivers hcalls hdelivers
  intro k' hk' hcloses hterminal d' hd' hid t ht
  obtain ⟨k, hk, hkey⟩ := hspec.calls_keys hk'
  have hrow : k'.decisionRowId = o.decision.id := by
    rw [hkey]
    exact hown k hk ((congrArg CallKey.id hkey).symm.trans hcloses)
  rw [hspec.decisions_eq] at hd'
  rw [decisionRow_eq_of_id hd' hd (hid.trans hrow)] at ht
  have haction : o.decision.action = .callSkill := by
    apply htracked.callSkill o.decision hd
    rw [Option.mem_def.1 ht]
    rfl
  have hstatus : sessionStopSkillStatus o.decision.action reason = .cancelled := by
    unfold sessionStopSkillStatus
    rw [haction, if_neg fun hstop ↦ DecisionAction.noConfusion hstop.1]
  unfold finishOpenCall at hfinish
  simp only [hstatus, Option.mem_def.1 ht] at hfinish
  obtain ⟨applied, happlied, hfinish⟩ := bind_eq_ok_iff.1 hfinish
  cases hfinish
  cases Table.mem_update.1 hk' with
  | inl hset =>
    obtain ⟨q, -, -, rfl⟩ := hset
    obtain ⟨a, ha, haid, hsettled⟩ := applyTerminalEffect_settled happlied
    exact ⟨rfl, a, ha, haid, hsettled⟩
  | inr hkept =>
    have hk₀ : k' ∈ db.calls := applyTerminalEffect_calls happlied ▸ hkept.1
    have hforward := (h k' hk₀ hterminal).forward hcalls hdelivers hk₀ rfl id
    exact hforward d' (hspec.decisions_eq ▸ hd') hid t
      (decisionRow_eq_of_id hd' hd (hid.trans hrow) ▸ ht)

theorem closeGeneration_effectsApplied {c : ClaimedEvent} {payload : SessionStoppedPayload}
    {result : MutationResult} (h : db.EffectsApplied) (hcalls : db.CallsSound)
    (htracked : db.Tracked) (hclose : closeGeneration c payload db = .ok (result, db')) :
    db'.EffectsApplied := by
  have hstep : db.OutboxStep (db.cancelUnsentDecisions c.cycleId) :=
    .update_sent _ _ fun _ _ ↦ rfl
  have hcancel : db.Delivers (fun _ ↦ False) False (fun _ ↦ False)
      (db.cancelUnsentDecisions c.cycleId) :=
    .updateDecisions _ fun _ _ hw ↦ .of_unsent rfl hw.2 rfl
  have hcancelled := h.of_delivers hcalls hcancel fun _ _ ↦ False.elim
  unfold closeGeneration at hclose
  split at hclose
  · cases hclose
    exact h
  · simp only at hclose
    split at hclose
    · cases hclose
      have hmarks (calls : List OpenCall) : (db.cancelUnsentDecisions c.cycleId).Delivers
          (fun _ ↦ False) False (fun _ ↦ False) (calls.foldl (fun db o ↦ db.finishStopCall o.call.id
            .manual none "ambiguous_stop_hosting_call" .manual)
              (db.cancelUnsentDecisions c.cycleId)) := by
        refine List.foldlRecOn _ _ (.refl _) fun t ht o _ ↦ ht.trans ?_
        exact .updateCalls _ fun _ _ _ ↦ .of_manual rfl rfl
      exact hcancelled.of_delivers (hstep.calls hcalls) (hmarks _) fun _ _ ↦ False.elim
    · obtain ⟨finished, hfinished, hclose⟩ := bind_eq_ok_iff.1 hclose
      split_ifs at hclose
      cases hclose
      have hall := foldlM_invariant (I := fun t : Db ↦ t.EffectsApplied ∧
        (db.cancelUnsentDecisions c.cycleId).OutboxStep t ∧
        t.decisions = (db.cancelUnsentDecisions c.cycleId).decisions ∧
        ∀ k ∈ t.calls, ∃ q ∈ (db.cancelUnsentDecisions c.cycleId).calls, k.toCallKey = q.toCallKey)
        (fun t o ho t' ht hfinish ↦ ?_) ⟨hcancelled, .refl _, rfl, fun k hk ↦ ⟨k, hk, rfl⟩⟩ hfinished
      · obtain ⟨happlied, -⟩ := hall
        exact happlied
      · obtain ⟨happlied, hsteps, hdecisions, hkeys⟩ := ht
        have hspec := finishOpenCall_spec hfinish
        obtain ⟨hcall, -, hdecision, hid, -⟩ := mem_lockOpenCalls.1 ho
        refine ⟨?_, hsteps.trans (finishOpenCall_step hfinish),
          hspec.decisions_eq.trans hdecisions, fun k hk ↦ ?_⟩
        · apply finishOpenCall_effectsApplied happlied (hsteps.calls (hstep.calls hcalls))
            (hsteps.tracked (hstep.tracked htracked)) (hdecisions ▸ hdecision) ?_ hfinish
          intro k hk hkid
          obtain ⟨q, hq, hkey⟩ := hkeys k hk
          have heq : q = o.call :=
            Table.eq_of_clashes hq hcall (Or.inl ((congrArg CallKey.id hkey).symm.trans hkid))
          rw [hkey, heq, hid]
        · obtain ⟨q, hq, hkey⟩ := hspec.calls_keys hk
          obtain ⟨r, hr, hkey'⟩ := hkeys q hq
          exact ⟨r, hr, hkey.trans hkey'⟩

end LlmGateway
