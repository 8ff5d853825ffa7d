import LlmGateway.Guarantees.Ownership
import LlmGateway.System.Delivery
import LlmGateway.System.Scenario

/-!
# Claims that were lost

A worker may go on with a claim that it has lost: the lock has expired and another worker has the
row, or the row is closed. A lost claim is never held again, and what a worker does under it changes
nothing: it neither renews nor completes the event, stores no lease context, plans no decision and
closes no generation; a decision is neither renewed nor failed, and its response is not recorded.
Only the terminal events of skills and rejections are recorded without the claim.
-/

namespace LlmGateway

open Relational

variable {config : SystemConfig} {w : World}

/-- The transaction works on the claimed event, and needs its claim. -/
def ClaimedEvent.Governs (c : ClaimedEvent) : Action → Prop
  | .renew token => token = c.claimToken
  | .complete token _ => token = c.claimToken
  | .persist token => token = c.claimToken
  | .plan token _ _ => token = c.claimToken
  | .record token => token = c.claimToken ∧
      ∃ position payload, c.event.body = .sequenced position (.sessionStopped payload)
  | _ => False

/-- A claim of a decision is lost when the decision is not being sent under it. -/
def ClaimedDecision.Lost (c : ClaimedDecision) (db : Db) : Prop :=
  ∀ d ∈ db.decisions, d.id = c.rowId → ¬d.HeldBy c

/-- The transaction works on the claimed decision. -/
def ClaimedDecision.Governs (c : ClaimedDecision) : Action → Prop
  | .renewDecision token => token = c.claimToken
  | .failDecision token _ _ _ => token = c.claimToken
  | .recordResponse token _ => token = c.claimToken
  | _ => False

/-! ## Events -/

/-- A claim that an event holds after an effect was held before, or is new. -/
theorem Effect.token_back {now : ℕ} {P : Branch → Prop} {db db' : Db}
    (h : Effect config.events now P db db') {e' : EventRow} (he' : e' ∈ db'.events) {t : Uuid}
    (ht : t ∈ e'.claimToken) :
    (∃ e ∈ db.events, e.id = e'.id ∧ t ∈ e.claimToken) ∨ db.issued ≤ t.serial := by
  rcases h.events_change.backward e' he' with ⟨e, he, hchange⟩ | hnew
  swap
  · rw [hnew.claimToken] at ht
    cases ht
  have hid : e.id = e'.id := (congrArg EventKey.id hchange.key_eq).symm
  have hsettled (hs : e.Settles e') : t ∈ e.claimToken := by
    rcases hs.change with rfl | ⟨-, hreleased⟩ | ⟨-, _, rfl⟩
    · exact ht
    · rw [hreleased.claimToken] at ht
      cases ht
    · exact ht
  cases hchange with
  | same eq => exact Or.inl ⟨e, he, hid, eq ▸ ht⟩
  | settled hs _ => exact Or.inl ⟨e, he, hid, hsettled hs⟩
  | superseded _ _ _ _ _ hs => exact Or.inl ⟨e, he, hid, hsettled hs⟩
  | waited _ _ _ _ _ hs => exact Or.inl ⟨e, he, hid, hsettled hs⟩
  | claimed _ _ _ _ hclaims _ =>
    rw [hclaims.claimToken, Option.mem_some] at ht
    rw [← ht]
    exact Or.inr (le_refl _)

/-- Who holds a decision after a transaction that sends none held it before. -/
theorem DecisionRow.Proceeds.heldBy {starts : DecisionStatus → Prop} {d d' : DecisionRow}
    (h : d.Proceeds starts d') {c : ClaimedDecision} (hheld : d'.HeldBy c)
    (hstarts : ¬starts .sending) : d.HeldBy c := by
  obtain ⟨hstatus, htoken, hfence⟩ := hheld
  have hkeeps := (h.taken (by rw [hstatus]; rfl)).resolve_right (hstatus ▸ hstarts)
  exact ⟨hkeeps.1.symm.trans hstatus, hkeeps.2.1.symm.trans htoken, hkeeps.2.2.symm.trans hfence⟩

namespace World

/-- A lost claim stays lost. -/
theorem lost_exec (hw : w.Sound config) {c : ClaimedEvent} (hc : c ∈ w.claims) (hlost : c.Lost w.db)
    (a : Action) : c.Lost (w.exec config a).db := by
  have heffects := exec_effects (a := a) (P := fun _ ↦ True) hw fun _ _ ↦ trivial
  refine (invariant_chain (I := fun db ↦ w.db.issued ≤ db.issued ∧ c.Lost db)
    (fun db db' heff h ↦ ⟨h.1.trans heff.issued_le, fun e' he' hid ht ↦ ?_⟩) heffects
    ⟨le_refl _, hlost⟩).2
  rcases heff.token_back he' ht with ⟨e, he, hid', ht'⟩ | hnew
  · exact h.2 e he (hid'.trans hid) ht'
  · exact absurd (hw.issued c hc) (not_lt.2 (h.1.trans hnew))

theorem lockPlanSource_of_lost {c : ClaimedEvent} (hlost : c.Lost w.db) (context : AgentContext) :
    ((w.db.lockPlanSource c).filter fun j ↦ j.PlanFenceMatches c context) = none := by
  rw [Option.filter_eq_none_iff]
  intro j hj hmatches
  obtain ⟨e, he, hjoin⟩ := Option.bind_eq_some_iff.1 hj
  obtain ⟨hmem, hid⟩ := eventById_eq_some.1 he
  obtain ⟨-, rfl⟩ := (joinEvent_eq_some hmem).1 hjoin
  exact hlost j.event hmem hid (of_decide_eq_true hmatches).1.1

/-- A worker that acts under a lost claim changes nothing. -/
theorem exec_of_lost (hw : w.Sound config) {c : ClaimedEvent} (hc : c ∈ w.claims)
    (hlost : c.Lost w.db) {a : Action} (ha : c.Governs a) : w.exec config a = w := by
  have hlock := lockClaim_eq_none hlost
  have hclaim {token : Uuid} (htoken : token = c.claimToken) (f : ClaimedEvent → World) :
      w.withClaim token f = f c := by
    have hsome : (w.claim? token).isSome = true :=
      List.find?_isSome.2 ⟨c, hc, decide_eq_true htoken.symm⟩
    obtain ⟨c', hc'⟩ := Option.isSome_iff_exists.1 hsome
    have hfound : w.claim? token = some c := by
      have hfind : w.claims.find? (fun c ↦ c.claimToken = token) = some c' := hc'
      have hfirst : c'.claimToken = token := by simpa using List.find?_some hfind
      rw [hc', hw.claim_eq (mem_claims_of_claim? hc') hc (hfirst.trans htoken)]
    rw [withClaim, hfound, Option.elim_some]
  cases a with
  | renew token =>
    rw [exec, hclaim ha, (renew_complete_of_lost hlost config.events w.now .success).1]
    rfl
  | complete token result =>
    rw [exec, hclaim ha, (renew_complete_of_lost hlost config.events w.now result).2]
  | persist token =>
    rw [exec, hclaim ha, persist]
    cases buildAgentContext c.event with
    | none => rfl
    | some context =>
      simp only [persistLeaseContext, hlock, Option.filter_none]
      split_ifs <;> rfl
  | plan token action decisionId =>
    rw [exec, hclaim ha, plan]
    cases buildAgentContext c.event with
    | none => rfl
    | some context => simp only [planDecision, lockPlanSource_of_lost hlost context]
  | record token =>
    obtain ⟨htoken, position, payload, hbody⟩ := ha
    rw [exec, hclaim htoken, recordTerminal, hbody]
    simp only [closeGeneration, hlock, Option.filter_none, commit]
  | _ => exact ha.elim

theorem mem_claims_exec {c : ClaimedEvent} (hc : c ∈ w.claims) (a : Action) :
    c ∈ (w.exec config a).claims := by
  by_cases hclaim : w.Takes config a .claim
  · obtain ⟨-, -, -, c', -, -, -, -, -, hclaims, -⟩ := exec_claimed hclaim
    rw [hclaims]
    exact List.mem_append_left _ hc
  · rwa [exec_claims hclaim]

/-- Once a worker has lost its claim of an event, no interleaving gives the claim back to it, and
nothing that it does under the claim has an effect. -/
theorem lost_claim_inert (hw : w.Reachable config) {c : ClaimedEvent} (hc : c ∈ w.claims)
    (hlost : c.Lost w.db) (actions : List Action) :
    c.Lost (run (exec config) w actions).db ∧ ∀ a, c.Governs a →
      (run (exec config) w actions).exec config a = run (exec config) w actions := by
  have hkept := invariant_run (I := fun v : World ↦ v.Sound config ∧ c ∈ v.claims ∧ c.Lost v.db)
    (fun v a hv ↦ ⟨exec_sound hv.1, mem_claims_exec hv.2.1 a, lost_exec hv.1 hv.2.1 hv.2.2 a⟩)
    ⟨hw.sound, hc, hlost⟩ actions
  exact ⟨hkept.2.2, fun a ha ↦ exec_of_lost hkept.1 hkept.2.1 hkept.2.2 ha⟩

section Example

open Scenario

/-- A claim that has expired is lost once another worker has claimed the event. -/
theorem lost_claim_inert_reclaimed :
    let w := after [submit [sessionStarted "e1" 1 "L1" 1], claim, .tick 100, claim]
    ∃ c ∈ w.claims, ∀ actions, c.Lost (run (exec Scenario.config) w actions).db ∧
      ∀ a, c.Governs a → (run (exec Scenario.config) w actions).exec Scenario.config a =
        run (exec Scenario.config) w actions := by
  intro w
  have hlost : ∃ c ∈ w.claims, c.Lost w.db := by
    unfold ClaimedEvent.Lost
    decide
  obtain ⟨c, hc, hlost⟩ := hlost
  exact ⟨c, hc, lost_claim_inert (reachable_after _ _) hc hlost⟩

end Example

/-! ## Decisions -/

/-- The claims of decisions that were handed out have different tokens, all issued. -/
structure DecisionTokens (w : World) : Prop where
  issued : ∀ c ∈ w.decisionClaims, c.claimToken.serial < w.db.issued
  distinct : w.decisionClaims.Pairwise fun c c' ↦ c.claimToken ≠ c'.claimToken

/-- The token of a claim identifies it. -/
theorem DecisionTokens.claim_eq (h : w.DecisionTokens) {c c' : ClaimedDecision}
    (hc : c ∈ w.decisionClaims) (hc' : c' ∈ w.decisionClaims)
    (htoken : c.claimToken = c'.claimToken) : c = c' := by
  by_contra hne
  have : Std.Symm fun c c' : ClaimedDecision ↦ c.claimToken ≠ c'.claimToken :=
    ⟨fun _ _ ↦ Ne.symm⟩
  exact h.distinct.forall hc hc' hne htoken

theorem exec_issued (hw : w.Sound config) (a : Action) :
    w.db.issued ≤ (w.exec config a).db.issued :=
  invariant_chain (I := fun db ↦ w.db.issued ≤ db.issued)
    (fun _ _ heff h ↦ h.trans heff.issued_le)
    (exec_effects (a := a) (P := fun _ ↦ True) hw fun _ _ ↦ trivial) (le_refl _)

theorem cancelFencedCandidates_issued (config : WorkerConfig) (now n : ℕ) (db : Db) :
    (iterate (cancelFencedCandidate config now) n db).issued = db.issued := by
  refine invariant_iterate (I := fun t : Db ↦ t.issued = db.issued) (fun t t' hbody ht ↦ ?_) rfl
  simp only [cancelFencedCandidate, Option.bind_eq_bind, Option.bind_eq_some_iff,
    Option.some.injEq] at hbody
  obtain ⟨j, -, category, -, rfl⟩ := hbody
  exact ht

/-- A claim of a decision comes with a new token. -/
theorem claimNextDecision_token {config : WorkerConfig} {now : ℕ} {workerId : String} {db : Db}
    {c : ClaimedDecision} (h : (claimNextDecision config now workerId db).1 = some c) :
    c.claimToken.serial = db.issued ∧
      (claimNextDecision config now workerId db).2.issued = db.issued + 1 := by
  have hissued := cancelFencedCandidates_issued config now (db.decisions.rows.length + 1) db
  unfold claimNextDecision handOutDecision at h ⊢
  split at h
  · cases h
  · split_ifs at h ⊢ with hfence
    obtain rfl := Option.some.inj h
    exact ⟨hissued, congrArg (· + 1) hissued⟩

/-- Who holds a decision after the claim of one held it before, or has a new token. -/
theorem claimNextDecision_held {config : WorkerConfig} {now : ℕ} {workerId : String} {db : Db}
    {d' : DecisionRow} (hd' : d' ∈ (claimNextDecision config now workerId db).2.decisions)
    {c : ClaimedDecision} (hheld : d'.HeldBy c) :
    (∃ d ∈ db.decisions, d.id = d'.id ∧ d.HeldBy c) ∨ c.claimToken.serial = db.issued := by
  have hcancelled {t : Db} (hcancels : db.Cancels t) {d : DecisionRow} (hd : d ∈ t.decisions)
      (hheld : d.HeldBy c) : ∃ d₀ ∈ db.decisions, d₀.id = d.id ∧ d₀.HeldBy c := by
    obtain ⟨d₀, hd₀, hstep⟩ := hcancels.delivers.decision_back id hd
    exact ⟨d₀, hd₀, (congrArg DecisionKey.id hstep.key_eq).symm, hstep.heldBy hheld id⟩
  rcases claimNextDecision_cases config now workerId db with
    ⟨-, hcancels⟩ | ⟨c₀, t, j, hsome, hhands⟩
  · exact Or.inl (hcancelled hcancels hd' hheld)
  · rw [hhands.db_eq] at hd'
    rcases Table.mem_update.1 hd' with ⟨d, hd, hw, rfl⟩ | ⟨hd, -⟩
    · have htoken : t.nextUuid = c.claimToken := Option.some.inj hheld.2.1
      have hserial := (claimNextDecision_token hsome).1
      rw [hhands.claim_eq] at hserial
      rw [← htoken]
      exact Or.inr hserial
    · exact Or.inl (hcancelled hhands.cancels hd hheld)

theorem decisionTokens_exec (hw : w.Sound config) (h : w.DecisionTokens) (a : Action) :
    (w.exec config a).DecisionTokens := by
  have hissued := exec_issued hw a
  by_cases hclaim : ∃ workerId, a = .claimDecision workerId
  · obtain ⟨workerId, rfl⟩ := hclaim
    cases hresult : claimNextDecision config.outbox.worker w.now workerId w.db with
    | mk result db' =>
      cases result with
      | none =>
        have hexec : w.exec config (.claimDecision workerId) = { w with db := db' } := by
          rw [exec, claimDecision, hresult]
        rw [hexec] at hissued ⊢
        exact ⟨fun c hc ↦ (h.issued c hc).trans_le hissued, h.distinct⟩
      | some c =>
        have hexec : w.exec config (.claimDecision workerId) =
            { w with db := db', decisionClaims := w.decisionClaims ++ [c] } := by
          rw [exec, claimDecision, hresult]
        have htoken := claimNextDecision_token (congrArg Prod.fst hresult)
        rw [hresult] at htoken
        rw [hexec] at hissued ⊢
        refine ⟨fun c' hc' ↦ ?_,
          List.pairwise_append.2 ⟨h.distinct, List.pairwise_singleton _ _, ?_⟩⟩
        · cases List.mem_append.1 hc' with
          | inl hold => exact (h.issued c' hold).trans_le hissued
          | inr hnew =>
            rw [List.mem_singleton.1 hnew, htoken.1]
            exact htoken.2 ▸ Nat.lt_succ_self _
        · intro c₀ hc₀ c₁ hc₁ heq
          rw [List.mem_singleton.1 hc₁] at heq
          have hbefore := h.issued c₀ hc₀
          rw [heq, htoken.1] at hbefore
          exact lt_irrefl _ hbefore
  · have hkept : (w.exec config a).decisionClaims = w.decisionClaims :=
      exec_decisionClaims fun workerId heq ↦ hclaim ⟨workerId, heq⟩
    exact ⟨fun c hc ↦ (h.issued c (hkept ▸ hc)).trans_le hissued, hkept ▸ h.distinct⟩

theorem Reachable.decisionTokens (hw : w.Reachable config) : w.DecisionTokens := by
  obtain ⟨entropy, actions, rfl⟩ := hw
  exact (invariant_run (I := fun v : World ↦ v.Sound config ∧ v.DecisionTokens)
    (fun v a hv ↦ ⟨exec_sound hv.1, decisionTokens_exec hv.1 hv.2 a⟩)
    ⟨initial_sound entropy, fun c hc ↦ absurd hc List.not_mem_nil, .nil⟩ actions).2

theorem exec_claimDecision_db (workerId : String) :
    (w.exec config (.claimDecision workerId)).db =
      (claimNextDecision config.outbox.worker w.now workerId w.db).2 := by
  simp only [exec, claimDecision]
  split
  · rename_i h
    rw [h]
  · rename_i h
    rw [h]

/-- A lost claim of a decision stays lost. -/
theorem decision_lost_exec (htokens : w.DecisionTokens) {c : ClaimedDecision}
    (hc : c ∈ w.decisionClaims) (hlost : c.Lost w.db) (a : Action) :
    c.Lost (w.exec config a).db := by
  intro d' hd' hid hheld
  by_cases hclaim : ∃ workerId, a = .claimDecision workerId
  · obtain ⟨workerId, rfl⟩ := hclaim
    rw [exec_claimDecision_db] at hd'
    rcases claimNextDecision_held hd' hheld with ⟨d, hd, hid', hheld'⟩ | hserial
    · exact hlost d hd (hid'.trans hid) hheld'
    · exact absurd hserial (htokens.issued c hc).ne
  · have hstarts : ¬Starts a .sending := by
      rintro (⟨-, hworker⟩ | ⟨heq, -⟩)
      · exact hclaim hworker
      · cases heq
    rcases exec_adds config w a with hdelivers | ⟨token, c', context, action, decisionId, hadds⟩
    · obtain ⟨d, hd, hstep⟩ := hdelivers.decision_back id hd'
      exact hlost d hd ((congrArg DecisionKey.id hstep.key_eq).symm.trans hid)
        (hstep.heldBy hheld hstarts)
    · obtain ⟨body, -, hinsert⟩ := hadds.new.decisions
      rcases (Table.mem_of_insert? hinsert).1 hd' with hold | rfl
      · exact hlost d' hold hid hheld
      · cases hheld.1

theorem lockClaimedDecision_of_lost {c : ClaimedDecision} {db : Db} (hlost : c.Lost db) :
    db.lockClaimedDecision c = none := by
  cases hlock : db.lockClaimedDecision c with
  | none => rfl
  | some j =>
    obtain ⟨hmem, hid, hheld, -⟩ := lockClaimedDecision_eq_some hlock
    exact absurd hheld (hlost j.decision hmem hid)

theorem exec_of_decision_lost (htokens : w.DecisionTokens) {c : ClaimedDecision}
    (hc : c ∈ w.decisionClaims) (hlost : c.Lost w.db) {a : Action} (ha : c.Governs a) :
    w.exec config a = w := by
  have hlock := lockClaimedDecision_of_lost hlost
  have hclaim {token : Uuid} (htoken : token = c.claimToken) (f : ClaimedDecision → World) :
      w.withDecisionClaim token f = f c := by
    have hsome : (w.decisionClaim? token).isSome = true :=
      List.find?_isSome.2 ⟨c, hc, decide_eq_true htoken.symm⟩
    obtain ⟨c', hc'⟩ := Option.isSome_iff_exists.1 hsome
    have hfind : w.decisionClaims.find? (fun c ↦ c.claimToken = token) = some c' := hc'
    have hfirst : c'.claimToken = token := by simpa using List.find?_some hfind
    rw [withDecisionClaim, hc', Option.elim_some,
      htokens.claim_eq (List.mem_of_find?_eq_some hfind) hc (hfirst.trans htoken)]
  cases a with
  | renewDecision token => rw [exec, hclaim ha, renewDecisionClaim, hlock]
  | failDecision token stage category body =>
    rw [exec, hclaim ha, completeDecisionFailure, hlock]
  | recordResponse token response =>
    rw [exec, hclaim ha, recordDecisionResponse, hlock]
    rfl
  | _ => exact ha.elim

/-- Once a worker has lost its claim of a decision, no interleaving gives the claim back to it, and
nothing that it does under the claim has an effect. -/
theorem lost_decision_claim_inert (hw : w.Reachable config) {c : ClaimedDecision}
    (hc : c ∈ w.decisionClaims) (hlost : c.Lost w.db) (actions : List Action) :
    c.Lost (run (exec config) w actions).db ∧ ∀ a, c.Governs a →
      (run (exec config) w actions).exec config a = run (exec config) w actions := by
  have hmem (v : World) (a : Action) (hv : c ∈ v.decisionClaims) :
      c ∈ (v.exec config a).decisionClaims := by
    by_cases hclaim : ∃ workerId, a = .claimDecision workerId
    · obtain ⟨workerId, rfl⟩ := hclaim
      simp only [exec, claimDecision]
      split
      · exact List.mem_append_left _ hv
      · exact hv
    · rwa [exec_decisionClaims fun workerId heq ↦ hclaim ⟨workerId, heq⟩]
  have hkept := invariant_run
    (I := fun v : World ↦ (v.Sound config ∧ v.DecisionTokens) ∧ c ∈ v.decisionClaims ∧ c.Lost v.db)
    (fun v a hv ↦ ⟨⟨exec_sound hv.1.1, decisionTokens_exec hv.1.1 hv.1.2 a⟩, hmem v a hv.2.1,
      decision_lost_exec hv.1.2 hv.2.1 hv.2.2 a⟩)
    ⟨⟨hw.sound, hw.decisionTokens⟩, hc, hlost⟩ actions
  exact ⟨hkept.2.2, fun a ha ↦ exec_of_decision_lost hkept.1.2 hkept.2.1 hkept.2.2 ha⟩

section Example

open Scenario

/-- The decision is claimed again after its lock has expired. -/
theorem lost_decision_claim_inert_reclaimed :
    let w := after [submit [sessionStarted "e1" 1 "L1" 1], claim, .persist (token 3),
      .plan (token 3) ⟨"rest", 100, .wait 5⟩ "d", finish 3, .claimDecision "first", .tick 200,
      .claimDecision "second"]
    ∃ c ∈ w.decisionClaims, ∀ actions, c.Lost (run (exec Scenario.config) w actions).db ∧
      ∀ a, c.Governs a → (run (exec Scenario.config) w actions).exec Scenario.config a =
        run (exec Scenario.config) w actions := by
  intro w
  have hlost : ∃ c ∈ w.decisionClaims, c.Lost w.db := by
    unfold ClaimedDecision.Lost
    decide
  obtain ⟨c, hc, hlost⟩ := hlost
  exact ⟨c, hc, lost_decision_claim_inert (reachable_after _ _) hc hlost⟩

end Example

end World

end LlmGateway
