import LlmGateway.System.Run
import LlmGateway.System.Scenario

/-!
# Superseded cycles

The discarding of a stale event raises the fence of the session, and a fence that does not
match is read as a newer generation. In runs in which no stale event is discarded beside
another event that is processed in the current generation, a superseded cycle is older than
the current generation of its session, and what is processed in the current generation keeps
a valid claim.
-/

namespace LlmGateway

open Relational

/-- A superseded cycle is older than the current generation of its session. -/
def Db.SupersededIsOld (db : Db) : Prop :=
  ∀ c ∈ db.cycles, c.status = .superseded →
    db.Reached c.gatewayId c.sessionId (c.controlGeneration + 1)

/-- Sequenced events that are processed in the current generation hold the current fence. -/
def Db.ClaimsCurrent (db : Db) : Prop :=
  ∀ e ∈ db.events, e.status = .processing → e.eventType.isHostedChat = false →
    ∀ s ∈ db.sessions, e.InSession s → s.currentGeneration = some e.controlGeneration →
      e.claimedFenceVersion = some s.fenceVersion

section Step

variable {config : WorkerConfig} {now : ℕ} {P : Branch → Prop} {db db' : Db}

/-- Unless it discards, an effect keeps the claims of the current generation current. -/
theorem Effect.claimsCurrent (heff : Effect config now P db db') (hproc : db.ProcessingReached)
    (hP : ∀ j, ¬P (.discard j)) (h : db.ClaimsCurrent) : db'.ClaimsCurrent := by
  intro e' he' hproc' hseq s' hs' hin hcurrent
  rcases heff.sessions_change.backward s' hs' with ⟨s, hs, hkey, hchange⟩ | hnew
  swap
  · simp [hnew.1] at hcurrent
  have hin' : e'.InSession s := ⟨hin.1.trans (congrArg SessionKey.gatewayId hkey),
    hin.2.trans (congrArg SessionKey.sessionId hkey)⟩
  cases hchange with
  | keeps hgen hfence =>
    rw [hgen] at hcurrent
    rw [hfence]
    rcases heff.events_change.backward e' he' with ⟨e, he, hevent⟩ | hnew
    swap
    · exact absurd hproc' hnew.status
    have hekey := hevent.key_eq
    unfold EventRow.InSession at hin'
    rw [hekey] at hseq hcurrent hin'
    rcases hevent.of_processing hproc' with ⟨hproc₀, hfence₀⟩ | ⟨j, hlinked, heq, -, hfence₀, -⟩
    · exact hfence₀.trans (h e he hproc₀ hseq s hs hin' hcurrent)
    · have hsession : s = j.session := by
        refine sessionRow_eq_of_names hs hlinked.session_mem ?_ ?_
        · rw [hlinked.session_names.1, ← heq, hin'.1]
        · rw [hlinked.session_names.2, ← heq, hin'.2]
      rw [hfence₀, hsession]
  | raised hgen hquiet hevents =>
    rw [hevents] at he'
    rw [hgen] at hcurrent
    rcases hquiet with hquiet | ⟨j, hj⟩
    · exact absurd hproc' (hquiet e' he' hin'.1 hin'.2 hcurrent hseq)
    · exact absurd hj (hP j)
  | activated j hlinked hdisp hdb hsession hgen =>
    rw [hdb] at he'
    obtain ⟨s₀, hs₀, hg, hn, g, hg', hle⟩ := hproc e' he' hproc' hseq
    have heq : s₀ = j.session := hsession ▸
      sessionRow_eq_of_names hs₀ hs (hg.trans hin'.1) (hn.trans hin'.2)
    have hlt := (Joined.generation_of_activateNew hdisp).1 g (heq ▸ hg')
    rw [hgen, Option.some.injEq] at hcurrent
    omega

/-- A claim that is held in the current generation under the current fence is valid. -/
theorem Db.ClaimsCurrent.claimValid (h : db.ClaimsCurrent) {j : Joined} (hlinked : db.Linked j)
    (hproc : j.event.status = .processing)
    (hcurrent : j.session.currentGeneration = some j.event.controlGeneration) :
    j.ClaimValid j.event.claimedFenceVersion := by
  by_cases hchat : j.event.eventType.isHostedChat = true
  · exact Or.inl hchat
  rw [Bool.not_eq_true] at hchat
  refine Or.inr (Or.inr ⟨?_, ?_⟩)
  · rw [Joined.disposition_of_sequenced hchat, classifyGeneration, hcurrent]
    simp
  · exact h j.event hlinked.event_mem hproc hchat j.session hlinked.session_mem
      ⟨hlinked.session_names.1.symm, hlinked.session_names.2.symm⟩ hcurrent

/-- A superseded event is older than the current generation. -/
theorem Joined.SupersedeReason.old {j : Joined} (hreason : j.SupersedeReason P)
    (hlinked : db.Linked j) (hseq : j.event.eventType.isHostedChat = false)
    (hproc : db.ProcessingReached) (hfenced : (∀ j, ¬P (.fenced j)) ∨ db.ClaimsCurrent) :
    ∃ g ∈ j.session.currentGeneration, j.event.controlGeneration + 1 ≤ g := by
  rcases hreason with ⟨hstale, -⟩ | ⟨hstatus, hinvalid, htaken⟩
  · exact (Joined.generation_of_stale hstale).1
  · have hclaims : db.ClaimsCurrent := hfenced.resolve_left fun h ↦ h j htaken
    obtain ⟨g, hg, hle⟩ := hproc.linked hlinked hstatus hseq
    refine ⟨g, hg, lt_of_le_of_ne hle fun heq ↦ hinvalid ?_⟩
    exact hclaims.claimValid hlinked hstatus (heq ▸ hg)

/-- An effect supersedes only cycles that are older than the current generation. -/
theorem Effect.supersededIsOld (heff : Effect config now P db db') (hI : db.Integrity)
    (hproc : db.ProcessingReached) (hfenced : (∀ j, ¬P (.fenced j)) ∨ db.ClaimsCurrent)
    (h : db.SupersededIsOld) : db'.SupersededIsOld := by
  intro c' hc' hsuperseded
  rcases heff.cycles_change.backward c' hc' with ⟨c, hc, hkey, hchange⟩ | hnew
  swap
  · simp [hnew.1] at hsuperseded
  rw [hkey]
  cases hchange with
  | keeps hstatus _ => exact (h c hc (hstatus ▸ hsuperseded)).step heff
  | outdated j hlinked hdisp hdb hsession hlt _ _ =>
    obtain ⟨s, hs, howns⟩ := hI.cycle_owned c hc
    have heq := hlinked.eq_session hs (howns.1.trans hsession)
    have hcurrent := current_of_activated hlinked
    rw [← hdb] at hcurrent
    obtain ⟨s', hs', hg, hn, hgen⟩ := hcurrent
    refine ⟨s', hs', ?_, ?_, j.cycle.controlGeneration, hgen, ?_⟩
    · rw [hg, ← hlinked.session_owns.2.1, ← heq, howns.2.1]
    · rw [hn, ← hlinked.session_owns.2.2, ← heq, howns.2.2]
    · rw [hlinked.generation_eq]
      exact hlt
  | superseded j hlinked hseq hreason hcycle _ _ =>
    refine Db.Reached.step ?_ heff
    rw [hcycle, hlinked.cycle_owns.2.1, hlinked.cycle_owns.2.2.1, hlinked.cycle_owns.2.2.2,
      hlinked.reached_iff]
    exact hreason.old hlinked hseq hproc hfenced
  | activated _ _ _ _ _ hstatus => simp [hstatus] at hsuperseded
  | opened _ _ _ _ _ _ hstatus _ => simp [hstatus] at hsuperseded
  | waited _ _ _ _ _ hstatus => simp [hstatus] at hsuperseded
  | manual _ _ _ _ hstatus => simp [hstatus] at hsuperseded
  | closed _ _ hstatus => simp [hstatus] at hsuperseded

end Step

namespace World

variable {config : SystemConfig} {w : World}

/-- The discarding closes a stale event of a session that is being processed, while another
event of its current generation is processed as well. -/
def DiscardsBeside (config : SystemConfig) (w : World) : Action → Prop
  | .discard => ¬w.db.StaleCastFails ∧ ∃ maxAgeMs ∈ config.eventStaleAfterMs,
      ∃ s ∈ w.db.sessions,
        (∃ e ∈ w.db.events, e.status = .processing ∧ e.Stale maxAgeMs w.now ∧ e.InSession s) ∧
        ∃ e ∈ w.db.events, e.status = .processing ∧ ¬e.Stale maxAgeMs w.now ∧ e.InSession s ∧
          e.eventType.isHostedChat = false ∧ s.currentGeneration = some e.controlGeneration
  | _ => False

instance (config : SystemConfig) (w : World) (a : Action) :
    Decidable (w.DiscardsBeside config a) := by
  unfold DiscardsBeside
  split <;> infer_instance

/-- After a discarding that closes all it fences off, the claims are current. -/
theorem discard_claimsCurrent (hw : w.Sound config) (h : ¬w.DiscardsBeside config .discard)
    (hclaims : w.db.ClaimsCurrent) : (w.exec config .discard).db.ClaimsCurrent := by
  have heffects := exec_effects (P := w.Takes config .discard) hw fun _ hb ↦ hb
  have hI := (exec_sound (a := .discard) hw).integrity
  rcases hdiscard : discardStaleEvents config.eventStaleAfterMs w.now w.db with _ | db'
  · simpa only [exec, discard, hdiscard] using hclaims
  have hdb : (w.exec config .discard).db = db' := by
    simp only [exec, discard, hdiscard]
  rw [hdb] at heffects hI ⊢
  rcases hage : config.eventStaleAfterMs with _ | maxAgeMs
  · rw [hage] at hdiscard
    cases hdiscard
    exact hclaims
  rw [hage] at hdiscard
  have hclears := discardStaleEvents_clears hI hdiscard
  have hfences := discardStaleEvents_fences config.events hw.integrity hdiscard
  have hcast : ¬w.db.StaleCastFails := by
    intro hfails
    simp [discardStaleEvents, hfails] at hdiscard
  intro e' he' hproc hseq s' hs' hin hcurrent
  obtain ⟨e, he, hproc₀, hekey, -, hfence₀⟩ :=
    heffects.processing_back (fun hb ↦ by cases hb) e' he' hproc
  obtain ⟨s, hs, hkey, hgen, hfence⟩ := hfences s' hs'
  have hin₀ : e.InSession s := by
    refine ⟨?_, ?_⟩
    · rw [hekey, hin.1, hkey]
    · rw [hekey, hin.2, hkey]
  rw [← hekey] at hseq hcurrent
  rw [hgen] at hcurrent
  rcases hfence with hfence | hstale
  · rw [← hfence₀, hfence]
    exact hclaims e he hproc₀ hseq s hs hin₀ hcurrent
  · refine absurd ⟨hcast, maxAgeMs, hage, s, hs, hstale, e, he, hproc₀, fun hold ↦ ?_, hin₀, hseq,
      hcurrent⟩ h
    refine hclears e' he' ⟨EventRow.isOpen_of_processing hproc, ?_⟩
    rw [← hekey]
    exact hold.2

/-- A step of the runs considered keeps both invariants. -/
theorem exec_supersededIsOld {a : Action} (hw : w.Sound config)
    (h : ¬w.DiscardsBeside config a) (hclaims : w.db.ClaimsCurrent)
    (hold : w.db.SupersededIsOld) :
    (w.exec config a).db.ClaimsCurrent ∧ (w.exec config a).db.SupersededIsOld := by
  have heffects := exec_effects (P := w.Takes config a) hw fun _ hb ↦ hb
  by_cases hdiscard : a = .discard
  · subst hdiscard
    refine ⟨discard_claimsCurrent hw h hclaims, ?_⟩
    refine (invariant_chain (I := fun d ↦ d.Integrity ∧ d.GenerationsReached ∧ d.SupersededIsOld)
      (fun d d' heff hd ↦ ?_) heffects ⟨hw.integrity, hw.reached, hold⟩).2.2
    exact ⟨heff.integrity hd.1, heff.generationsReached hd.2.1,
      heff.supersededIsOld hd.1 hd.2.1.processing (Or.inl fun j hj ↦ by cases hj) hd.2.2⟩
  · have hnot (j : Joined) : ¬w.Takes config a (.discard j) := by
      intro hj
      cases hj
      exact hdiscard rfl
    refine (invariant_chain (I := fun d ↦ d.Integrity ∧ d.GenerationsReached ∧ d.ClaimsCurrent ∧
      d.SupersededIsOld) (fun d d' heff hd ↦ ?_) heffects
      ⟨hw.integrity, hw.reached, hclaims, hold⟩).2.2
    exact ⟨heff.integrity hd.1, heff.generationsReached hd.2.1,
      heff.claimsCurrent hd.2.1.processing hnot hd.2.2.1,
      heff.supersededIsOld hd.1 hd.2.1.processing (Or.inr hd.2.2.1) hd.2.2.2⟩

/-- In a run in which nothing is discarded beside an event in flight in the current
generation, a superseded cycle is older than the current generation of its session, and every
event in flight in the current generation has a valid claim, so that neither its completion
nor a sweep supersedes it. -/
theorem superseded_is_old_of_run (entropy : ℕ → ℕ) (actions : List Action)
    (hrun : Guarded (exec config) (fun w a ↦ ¬w.DiscardsBeside config a) (initial entropy)
      actions) :
    let w := run (exec config) (initial entropy) actions
    (∀ c ∈ w.db.cycles, c.status = .superseded → ∃ s ∈ w.db.sessions,
      s.gatewayId = c.gatewayId ∧ s.sessionId = c.sessionId ∧
        ∃ g ∈ s.currentGeneration, c.controlGeneration < g) ∧
    ∀ j ∈ w.db.joinedEvents, j.event.status = .processing →
      j.session.currentGeneration = some j.event.controlGeneration →
        j.ClaimValid j.event.claimedFenceVersion := by
  have hstep (v : World) (a : Action)
      (hv : v.Sound config ∧ v.db.ClaimsCurrent ∧ v.db.SupersededIsOld)
      (ha : ¬v.DiscardsBeside config a) : (v.exec config a).Sound config ∧
        (v.exec config a).db.ClaimsCurrent ∧ (v.exec config a).db.SupersededIsOld :=
    ⟨exec_sound hv.1, exec_supersededIsOld hv.1 ha hv.2.1 hv.2.2⟩
  have hinit : (initial entropy).db.ClaimsCurrent ∧ (initial entropy).db.SupersededIsOld :=
    ⟨fun _ he ↦ absurd he (Table.not_mem_empty _), fun _ hc ↦ absurd hc (Table.not_mem_empty _)⟩
  obtain ⟨hsound, hclaims, hold⟩ :=
    invariant_guarded hstep ⟨initial_sound entropy, hinit⟩ hrun
  exact ⟨hold, fun j hj hproc hcurrent ↦
    hclaims.claimValid (hsound.integrity.linked (mem_joinedEvents.1 hj)) hproc hcurrent⟩

section Runs

open Scenario

/-- The start and the result of a skill are processed at the same time, and the result, which
has no lease and occurred earlier, has become stale. -/
def discardBesideStart : List Action :=
  [submit [sessionStarted "e1" 1 "L1" 1], claim, finish 3, .tick 60,
    submit [plain "e2" 1 2 50 (started "d"),
      plain "e3" 1 3 0 (finished "d")],
    claim, claim, .discard, finish 6, finish 7]

theorem current_cycle_superseded_beside_discard :
    let w := after discardBesideStart
    ∃ c ∈ w.db.cycles, c.status = .superseded ∧
      w.db.Current c.gatewayId c.sessionId c.controlGeneration := by
  unfold Db.Current
  decide

/-- A stale event is discarded alone, and a second generation starts. -/
def discardAlone : List Action :=
  [submit [sessionStarted "e1" 1 "L1" 1], claim, .tick 60, .discard, finish 3,
    submit [sessionStarted "e2" 2 "L2" 1], claim]

theorem superseded_is_old_discardAlone :
    let w := after discardAlone
    (∃ c ∈ w.db.cycles, c.status = .superseded) ∧
    ∀ c ∈ w.db.cycles, c.status = .superseded → ∃ s ∈ w.db.sessions,
      s.gatewayId = c.gatewayId ∧ s.sessionId = c.sessionId ∧
        ∃ g ∈ s.currentGeneration, c.controlGeneration < g :=
  ⟨by decide, (@superseded_is_old_of_run Scenario.config (fun _ ↦ 0) discardAlone
    (by decide)).1⟩

end Runs

end World

end LlmGateway
