import LlmGateway.Effect.Completion

/-!
# The effects of maintenance

The sweep, the discarding of stale events and the stopping of idle sessions, as chains of
effects. The loops keep the integrity of the rows, and what a loop has read before it
changes a row is compared with what the row has become.
-/

namespace LlmGateway

open Relational

variable {config : WorkerConfig} {now : ℕ} {P : Branch → Prop} {db : Db}

/-! ## Expired claims -/

theorem cleanup_effect : Effect config now P db db.cleanupClosedCycleEvents := by
  refine .settle _ _ (fun e _ hw ↦ ?_) fun e _ ⟨c, hc, hcid, hstatus, _⟩ ↦
    Or.inr (Or.inl ⟨c, hc, hcid.symm, ?_⟩)
  · obtain ⟨c, -, -, -, hstatus⟩ := hw
    refine closeEvent_settles (by split_ifs <;> decide) ?_
    rcases hstatus with (hs | hs) | ⟨-, hs⟩ <;> rw [hs] <;> rfl
  · rcases hstatus with (hs | hs) | ⟨hs, -⟩ <;> rw [hs] <;> decide

theorem lockExhaustedClaim_eq_some {maxAttempts : ℕ} {j : Joined}
    (h : db.lockExhaustedClaim maxAttempts now = some j) :
    db.Joins j ∧ j.event.Exhausted maxAttempts now := by
  have hmem := mem_orderBy.1 (List.mem_of_mem_head? h)
  simpa only [List.mem_filter, mem_joinedEvents, decide_eq_true_eq] using hmem

theorem deadLetterExpired_effect (j : Joined) :
    Effect config now P db (db.deadLetterExpired j) :=
  .settle _ _ (fun _ _ hw ↦ closeEvent_settles (by decide)
    (EventRow.isOpen_of_processing hw.2.2.2)) fun _ _ hw ↦ Or.inl hw.2.2.2

theorem sweepRow_effects {j : Joined} (hI : db.Integrity) (hlinked : db.Linked j)
    (hproc : j.event.status = .processing)
    (hfenced : ¬j.ClaimValid j.event.claimedFenceVersion → P (.fenced j)) :
    Effects config now P db (sweepRow j db) := by
  unfold sweepRow
  split_ifs with hvalid
  · have hdead : Effect config now P db (db.deadLetterExpired j) := deadLetterExpired_effect j
    exact .head hdead (skipFrom_effects hI hlinked hvalid hdead.later fun _ ↦ rfl)
  · have hseq : j.event.eventType.isHostedChat = false := by
      rw [← Bool.not_eq_true]
      exact fun hchat ↦ hvalid (Or.inl hchat)
    exact .single (.supersede hlinked hseq (Or.inr ⟨hproc, hvalid, hfenced hvalid⟩))

/-- The states in which the sweep looks for an exhausted claim. -/
def sweepTrail (config : WorkerConfig) (now : ℕ) (db : Db) : List Db :=
  trail (sweepBody config.maxAttempts now) (db.events.rows.length + 1) db.cleanupClosedCycleEvents

theorem sweepExpiredClaims_effects (hI : db.Integrity)
    (hfenced : ∀ t ∈ sweepTrail config now db, ∀ j,
      t.lockExhaustedClaim config.maxAttempts now = some j →
      ¬j.ClaimValid j.event.claimedFenceVersion → P (.fenced j)) :
    Effects config now P db (sweepExpiredClaims config now db) := by
  have hcleanup : Effect config now P db db.cleanupClosedCycleEvents := cleanup_effect
  refine .head hcleanup (chain_iterate (fun _ _ heff hI ↦ heff.integrity hI)
    (hcleanup.integrity hI) ?_)
  intro t ht hIt t' hbody
  obtain ⟨j, hlock, rfl⟩ := Option.map_eq_some_iff.1 hbody
  obtain ⟨hjoins, hexhausted⟩ := lockExhaustedClaim_eq_some hlock
  exact sweepRow_effects hIt (hIt.linked hjoins) hexhausted.1 (hfenced t ht j hlock)

/-! ## Stale events -/

theorem mem_selectStaleEvents {maxAgeMs : ℕ} {j : Joined}
    (h : j ∈ db.selectStaleEvents maxAgeMs now) :
    db.Joins j ∧ j.event.Stale maxAgeMs now := by
  have hmem := mem_orderBy.1 (List.mem_of_mem_take h)
  simpa only [List.mem_filter, mem_joinedEvents, decide_eq_true_eq] using hmem

theorem discardRow_effects {db₀ : Db} {j : Joined} (hlinked : db₀.Linked j)
    (hlater : db₀.Later db) (htaken : P (.discard j)) :
    Effects config now P db (discardRow db j) := by
  unfold discardRow
  by_cases hopen : ∃ e ∈ db.events, e.id = j.event.id ∧ e.status.isOpen
  case neg =>
    rw [if_neg hopen]
  case pos =>
    rw [if_pos hopen]
    have hmark : Effect config now P db (db.markStaleEvent j.event.id) := by
      refine .settle _ _ (fun e _ hw ↦ closeEvent_settles (by decide) hw.2) fun e he hw ↦ ?_
      obtain ⟨e', he', hkey⟩ := hlater.events j.event hlinked.event_mem
      obtain ⟨s, hs, hgrow⟩ := hlater.sessions j.session hlinked.session_mem
      have heq : e = e' :=
        eventRow_eq_of_id he he' (hw.1.trans (congrArg EventKey.id hkey.key_eq).symm)
      have hekey : j.event.toEventKey = e.toEventKey := heq ▸ hkey.key_eq.symm
      refine Or.inr (Or.inr (Or.inr ⟨j, htaken, hekey, s, hs, hgrow, ?_, ?_⟩))
      · rw [hgrow.key_eq, ← hekey]
        exact hlinked.session_names.1
      · rw [hgrow.key_eq, ← hekey]
        exact hlinked.session_names.2
    have houtbox : Effect config now P (db.markStaleEvent j.event.id)
        (((db.markStaleEvent j.event.id).cancelStaleDecisions
          j.event.id).cancelStaleSkillCalls j.event.id) :=
      .outbox ((Db.OutboxStep.update_sent _ _ fun _ _ ↦ rfl).trans
        (.updateCalls _ _ _))
    refine .head hmark (.head houtbox ?_)
    simp only
    split_ifs
    · exact .single (.raiseFence _ _ (fun _ _ _ ↦ rfl) fun _ _ _ ↦ Or.inr ⟨j, htaken⟩)
    · exact .refl

/-- The states in which the discarding selects a batch of stale events. -/
def discardTrail (maxAgeMs now : ℕ) (db : Db) : List Db :=
  trail (discardBody maxAgeMs now) (db.events.rows.length + 1) db

theorem discardBody_effects {maxAgeMs : ℕ} {db' : Db} (hI : db.Integrity)
    (htaken : ∀ j ∈ db.selectStaleEvents maxAgeMs now, P (.discard j))
    (h : discardBody maxAgeMs now db = some db') : Effects config now P db db' := by
  unfold discardBody at h
  split_ifs at h
  obtain rfl := Option.some.inj h
  refine (chain_foldl (I := db.Later) (fun t j hj hlater ↦ ?_) (.refl db)).1
  have heffects : Effects config now P t (discardRow t j) :=
    discardRow_effects (hI.linked (mem_selectStaleEvents hj).1) hlater (htaken j hj)
  exact ⟨heffects, hlater.trans heffects.later⟩

theorem discardStaleEvents_effects {staleAfterMs : Option ℕ} {db' : Db} (hI : db.Integrity)
    (htaken : ∀ maxAgeMs ∈ staleAfterMs, ¬db.StaleCastFails →
      ∀ t ∈ discardTrail maxAgeMs now db, ∀ j ∈ t.selectStaleEvents maxAgeMs now,
        P (.discard j))
    (h : discardStaleEvents staleAfterMs now db = .ok db') : Effects config now P db db' := by
  unfold discardStaleEvents at h
  rcases staleAfterMs with _ | maxAgeMs
  · cases h
    exact .refl
  · simp only at h
    split_ifs at h with hcasts
    cases h
    exact chain_iterate (fun _ _ heff hI ↦ heff.integrity hI) hI fun t ht hIt t' hbody ↦
      discardBody_effects hIt (htaken maxAgeMs rfl hcasts t ht) hbody

/-- The states of the loop are reached by discarding. -/
theorem effects_of_mem_discardTrail {maxAgeMs : ℕ} (hI : db.Integrity)
    (hP : ∀ j, P (.discard j)) {t : Db} (ht : t ∈ discardTrail maxAgeMs now db) :
    t.Integrity ∧ Effects config now P db t := by
  refine forall_mem_trail (I := fun t ↦ t.Integrity ∧ Effects config now P db t)
    (fun t t' hbody ⟨hIt, hchain⟩ ↦ ?_) ⟨hI, .refl⟩ t ht
  have heffects : Effects config now P t t' := discardBody_effects hIt (fun j _ ↦ hP j) hbody
  exact ⟨heffects.integrity hIt, hchain.trans heffects⟩

/-! ## What the discarding leaves -/

theorem discardRow_events (db : Db) (j : Joined) :
    (discardRow db j).events = (db.markStaleEvent j.event.id).events := by
  unfold discardRow
  by_cases hopen : ∃ e ∈ db.events, e.id = j.event.id ∧ e.status.isOpen
  · rw [if_pos hopen]
    simp only
    split_ifs <;> rfl
  · rw [if_neg hopen]
    exact (Table.update_eq_self fun e he hw ↦ hopen ⟨e, he, hw⟩).symm

/-- A row is discarded together with the claims of its session, if it was processed. -/
theorem discardRow_sessions {j : Joined} {s' : SessionRow}
    (hs' : s' ∈ (discardRow db j).sessions) :
    ∃ s ∈ db.sessions, s'.toSessionKey = s.toSessionKey ∧
      s'.currentGeneration = s.currentGeneration ∧
      (s'.fenceVersion = s.fenceVersion ∨
        (j.event.status = .processing ∧ s.id = j.session.id)) := by
  unfold discardRow at hs'
  split_ifs at hs' with hopen hproc
  · rcases Table.mem_update.1 hs' with ⟨s, hs, hw, rfl⟩ | ⟨hs, -⟩
    · exact ⟨s, hs, rfl, rfl, Or.inr ⟨hproc, hw.1⟩⟩
    · exact ⟨s', hs, rfl, rfl, Or.inl rfl⟩
  · exact ⟨s', hs', rfl, rfl, Or.inl rfl⟩
  · exact ⟨s', hs', rfl, rfl, Or.inl rfl⟩

/-- The number of events that may still be closed. -/
def Db.openCount (db : Db) : ℕ := db.events.rows.countP fun e ↦ e.status.isOpen

theorem discardRow_openCount_le (db : Db) (j : Joined) :
    (discardRow db j).openCount ≤ db.openCount := by
  unfold Db.openCount
  rw [discardRow_events]
  exact Table.countP_update_le fun _ _ ↦ rfl

theorem foldl_discardRow_openCount_le (batch : List Joined) (db : Db) :
    (batch.foldl discardRow db).openCount ≤ db.openCount := by
  induction batch generalizing db with
  | nil => exact le_refl _
  | cons j batch ih => exact (ih (discardRow db j)).trans (discardRow_openCount_le db j)

/-- Each batch closes its first row at least. -/
theorem discardBody_openCount_lt {maxAgeMs : ℕ} {db' : Db}
    (h : discardBody maxAgeMs now db = some db') : db'.openCount < db.openCount := by
  unfold discardBody at h
  split_ifs at h with hempty
  obtain rfl := Option.some.inj h
  rcases hbatch : db.selectStaleEvents maxAgeMs now with _ | ⟨j, batch⟩
  · simp [hbatch] at hempty
  · obtain ⟨hjoins, hstale⟩ := mem_selectStaleEvents (hbatch ▸ List.mem_cons_self)
    refine (foldl_discardRow_openCount_le batch (discardRow db j)).trans_lt ?_
    unfold Db.openCount
    rw [discardRow_events]
    exact Table.countP_update_lt (fun _ _ ↦ rfl) hjoins.event_mem ⟨rfl, hstale.1⟩ hstale.1

/-- After the discarding no stale event is open. -/
theorem discardStaleEvents_clears {maxAgeMs : ℕ} {db' : Db} (hI : db'.Integrity)
    (h : discardStaleEvents (some maxAgeMs) now db = .ok db') :
    ∀ e ∈ db'.events, ¬e.Stale maxAgeMs now := by
  intro e he hstale
  have hnone : discardBody maxAgeMs now db' = none := by
    unfold discardStaleEvents at h
    split_ifs at h
    cases h
    refine body_iterate_eq_none Db.openCount (fun _ _ ↦ discardBody_openCount_lt) ?_
    exact Nat.lt_succ_of_le List.countP_le_length
  obtain ⟨j, hlinked, rfl⟩ := hI.exists_linked he
  have hmem : j ∈ db'.joinedEvents.filter fun j ↦ j.event.Stale maxAgeMs now := by
    simpa only [List.mem_filter, mem_joinedEvents, decide_eq_true_eq] using
      ⟨hlinked.toJoins, hstale⟩
  have hempty : db'.selectStaleEvents maxAgeMs now = [] := by
    unfold discardBody at hnone
    split_ifs at hnone with hempty
    exact List.isEmpty_iff.1 hempty
  have hnil : orderBy (fun j : Joined ↦ j.event.arrivalKey)
      (db'.joinedEvents.filter fun j ↦ j.event.Stale maxAgeMs now) = [] := by
    exact (List.take_eq_nil_iff.1 hempty).resolve_left (by decide)
  exact List.not_mem_nil (hnil ▸ mem_orderBy.2 hmem)

/-- The event and the session have the same names. -/
def EventRow.InSession (e : EventRow) (s : SessionRow) : Prop :=
  e.gatewayId = s.gatewayId ∧ e.sessionId = s.sessionId

instance (s : SessionRow) : DecidablePred fun e : EventRow ↦ e.InSession s := fun _ ↦
  inferInstanceAs (Decidable (_ ∧ _))

/-- Every session keeps its generation, and also its fence unless a stale event of it was being
processed. -/
def Db.FencesFrom (maxAgeMs now : ℕ) (db db' : Db) : Prop :=
  ∀ s' ∈ db'.sessions, ∃ s ∈ db.sessions, s'.toSessionKey = s.toSessionKey ∧
    s'.currentGeneration = s.currentGeneration ∧
    (s'.fenceVersion = s.fenceVersion ∨
      ∃ e ∈ db.events, e.status = .processing ∧ e.Stale maxAgeMs now ∧ e.InSession s)

theorem discardBody_fences {maxAgeMs : ℕ} {t t' : Db} (hI : t.Integrity)
    (hchain : Effects config now (fun b ↦ b ≠ .claim) db t) (h : db.FencesFrom maxAgeMs now t)
    (hbody : discardBody maxAgeMs now t = some t') : db.FencesFrom maxAgeMs now t' := by
  unfold discardBody at hbody
  split_ifs at hbody
  obtain rfl := Option.some.inj hbody
  refine List.foldlRecOn _ _ h fun d hd j hj s' hs' ↦ ?_
  obtain ⟨hjoins, hstale⟩ := mem_selectStaleEvents hj
  have hlinked := hI.linked hjoins
  obtain ⟨s, hs, hkey, hgen, hfence⟩ := discardRow_sessions hs'
  obtain ⟨s₀, hs₀, hkey₀, hgen₀, hfence₀⟩ := hd s hs
  refine ⟨s₀, hs₀, hkey.trans hkey₀, hgen.trans hgen₀, ?_⟩
  rcases hfence with hfence | ⟨hproc, hid⟩
  · exact hfence₀.imp_left hfence.trans
  -- The fence was raised because of `j`, whose row was processed from the beginning.
  obtain ⟨e, he, hproc₀, hekey, -⟩ :=
    hchain.processing_back (fun h ↦ h rfl) j.event hjoins.event_mem hproc
  obtain ⟨s₁, hs₁, hkey₁, -, -⟩ := h j.session hjoins.session_mem
  have heq : s₁ = s₀ := by
    refine sessionRow_eq_of_id hs₁ hs₀ ?_
    rw [← hkey₀, hid, hkey₁]
  refine Or.inr ⟨e, he, hproc₀, ⟨EventRow.isOpen_of_processing hproc₀, ?_⟩, ?_, ?_⟩
  · rw [hekey]
    exact hstale.2
  · rw [hekey, ← hlinked.session_names.1, hkey₁, heq]
  · rw [hekey, ← hlinked.session_names.2, hkey₁, heq]

theorem discardStaleEvents_fences (config : WorkerConfig) {maxAgeMs : ℕ} {db' : Db}
    (hI : db.Integrity) (h : discardStaleEvents (some maxAgeMs) now db = .ok db') :
    db.FencesFrom maxAgeMs now db' := by
  unfold discardStaleEvents at h
  split_ifs at h
  cases h
  refine (invariant_iterate (I := fun t ↦ t.Integrity ∧
    Effects config now (fun b ↦ b ≠ .claim) db t ∧ db.FencesFrom maxAgeMs now t)
    (fun t t' hbody ⟨hIt, hchain, hfences⟩ ↦ ?_)
    ⟨hI, .refl, fun s hs ↦ ⟨s, hs, rfl, rfl, Or.inl rfl⟩⟩).2.2
  have heffects : Effects config now (fun b ↦ b ≠ .claim) t t' :=
    discardBody_effects hIt (fun _ _ ↦ nofun) hbody
  exact ⟨heffects.integrity hIt, hchain.trans heffects, discardBody_fences hIt hchain hfences hbody⟩

/-! ## Idle sessions -/

/-- The session still has the generation it was selected with. -/
def Db.KeepsGeneration (db : Db) (s : SessionRow) : Prop :=
  ∃ s' ∈ db.sessions, s'.toSessionKey = s.toSessionKey ∧
    s'.currentGeneration = s.currentGeneration

theorem stopIdleRow_keepsGeneration {session s : SessionRow} (h : db.KeepsGeneration s) :
    (stopIdleRow db session).KeepsGeneration s := by
  obtain ⟨s', hs', hkey, hgen⟩ := h
  by_cases hw : s'.id = session.id ∧ s'.status = .active ∧ s'.currentGeneration.isSome ∧
      s'.currentGeneration = session.currentGeneration ∧ s'.fenceVersion = session.fenceVersion
  · exact ⟨_, Table.set_mem_update hs' hw, hkey, hgen⟩
  · exact ⟨s', Table.mem_update_of_not hs' hw, hkey, hgen⟩

/-- A cycle of the generation with which a session was selected is current. -/
theorem Db.KeepsGeneration.current {session : SessionRow} (h : db.KeepsGeneration session)
    (hI : db.Integrity) {c : CycleRow} (hc : c ∈ db.cycles) (hidle : Db.IdleCycle session c) :
    db.Current c.gatewayId c.sessionId c.controlGeneration := by
  obtain ⟨s, hs, hkey, hgen⟩ := h
  obtain ⟨s', hs', howns⟩ := hI.cycle_owned c hc
  have heq : s' = s := by
    refine sessionRow_eq_of_id hs' hs (howns.1.trans (hidle.1.trans ?_))
    rw [hkey]
  obtain rfl := heq
  exact ⟨s', hs', howns.2.1, howns.2.2, hgen.trans hidle.2.symm⟩

theorem stopIdleRow_effects {session : SessionRow} (hI : db.Integrity)
    (hkeeps : db.KeepsGeneration session) : Effects config now P db (stopIdleRow db session) := by
  have hclose : Effect config now P db (db.stopIdleCycles session) :=
    .close _ _ (fun _ _ hw ↦ ⟨hw.2, rfl, rfl, rfl, rfl, le_refl _⟩)
      fun c hc hw ↦ hkeeps.current hI hc hw.1
  have hI₁ := hclose.integrity hI
  have hsettle : Effect config now P (db.stopIdleCycles session)
      ((db.stopIdleCycles session).supersedeIdleEvents session) := by
    refine .settle _ _ (fun e _ hw ↦ closeEvent_settles (by decide) hw.1) fun e he hw ↦ ?_
    obtain ⟨-, c, hc, hcid, hidle⟩ := hw
    obtain ⟨c', hc', howns⟩ := hI₁.event_owned e he
    obtain rfl := cycleRow_eq_of_id hc hc' (hcid.symm.trans howns.1.symm)
    have hkeeps₁ : (db.stopIdleCycles session).KeepsGeneration session := hkeeps
    have hcurrent := hkeeps₁.current hI₁ hc hidle
    rw [howns.2.1, howns.2.2.1, howns.2.2.2] at hcurrent
    exact Or.inr (Or.inr (Or.inl hcurrent.reached))
  have houtbox : Effect config now P ((db.stopIdleCycles session).supersedeIdleEvents session)
      ((((db.stopIdleCycles session).supersedeIdleEvents session).cancelIdleDecisions
        session).cancelIdleSkillCalls session) :=
    .outbox ((Db.OutboxStep.update_sent _ _ fun _ _ ↦ rfl).trans
      (.updateCalls _ _ _))
  refine .head hclose (.head hsettle (.head houtbox (.single ?_)))
  refine .raiseFence _ _ (fun _ _ _ ↦ rfl) fun s hs hw ↦ Or.inl ?_
  intro e he hgateway hsession hcur _ hproc
  have hI₂ := hsettle.integrity hI₁
  obtain ⟨c, hc, howns⟩ := hI₂.event_owned e he
  obtain ⟨s', hs', hsowns⟩ := hI₂.cycle_owned c hc
  have heq : s' = s := by
    refine sessionRow_eq_of_names hs' hs ?_ ?_
    · rw [hsowns.2.1, howns.2.1, hgateway]
    · rw [hsowns.2.2, howns.2.2.1, hsession]
  have hidle : Db.IdleCycle session c := by
    refine ⟨hsowns.1.symm.trans (heq ▸ hw.1), ?_⟩
    rw [← hw.2.2.2.1, hcur, howns.2.2.2]
  rcases Table.mem_update.1 he with ⟨e₀, -, -, rfl⟩ | ⟨-, hnot⟩
  · exact absurd hproc (by simp [Db.closeEvent])
  · exact hnot ⟨EventRow.isOpen_of_processing hproc, c, hc, howns.1.symm, hidle⟩

theorem stopIdleSessions_effects (idleTimeoutMs : Option ℕ) (hI : db.Integrity) :
    Effects config now P db (stopIdleSessions idleTimeoutMs now db) := by
  unfold stopIdleSessions
  rcases idleTimeoutMs with _ | idleTimeoutMs
  · exact .refl
  refine (chain_foldl (I := fun t ↦ t.Integrity ∧ ∀ s ∈ db.sessions, t.KeepsGeneration s)
    (fun t session hsession ⟨hIt, hkeeps⟩ ↦ ?_)
    ⟨hI, fun s hs ↦ ⟨s, hs, rfl, rfl⟩⟩).1
  have hmem : session ∈ db.sessions := by
    have := mem_orderBy.1 (List.mem_of_mem_take hsession)
    exact (Table.mem_select.1 this).1
  have heffects : Effects config now P t (stopIdleRow t session) :=
    stopIdleRow_effects hIt (hkeeps session hmem)
  exact ⟨heffects, heffects.integrity hIt,
    fun s hs ↦ stopIdleRow_keepsGeneration (hkeeps s hs)⟩

end LlmGateway
