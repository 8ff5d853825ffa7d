import LlmGateway.Effect.Change
import LlmGateway.System.Run
import LlmGateway.System.Scenario

/-!
# The active cycle is the current one

A hosted chat event may activate a pending cycle without making its generation current. In
runs in which no claim pass does so, an active cycle belongs to the current generation of its
session, and a session has at most one. The current generation never decreases.
-/

namespace LlmGateway

open Relational

variable {config : SystemConfig} {w : World}

/-- Every active cycle is of the current generation of its session. -/
def Db.ActiveIsCurrent (db : Db) : Prop :=
  ∀ c ∈ db.cycles, c.status = .active → db.Current c.gatewayId c.sessionId c.controlGeneration

/-- No cycle is activated by a hosted chat event. -/
def Branch.NotChatActivation : Branch → Prop
  | .chatActivation _ => False
  | _ => True

section Step

variable {config : WorkerConfig} {now : ℕ} {P : Branch → Prop} {db db' : Db}

/-- An activation supersedes the active cycle of the generation before. -/
theorem activateNew_activeIsCurrent {j : Joined} (hI : db.Integrity) (hlinked : db.Linked j)
    (hdisp : j.disposition = .activateNew) (h : db.ActiveIsCurrent) :
    (activateNew j db).ActiveIsCurrent := by
  intro c' hc' hactive
  rcases Table.mem_update.1 hc' with ⟨c, hc, hid, rfl⟩ | ⟨hc, -⟩
  · rcases Table.mem_update.1 hc with ⟨c, -, hw, rfl⟩ | ⟨hc, -⟩
    · exact absurd hid hw.2.1
    · obtain rfl := hlinked.eq_cycle hc hid
      exact current_of_activated hlinked
  rcases Table.mem_update.1 hc with ⟨c, -, -, rfl⟩ | ⟨hc, hspared⟩
  · exact absurd hactive (by simp [Db.setCycleStatus])
  -- A cycle that stays active belongs to another session: of this one it would be older.
  obtain ⟨s, hs, hg, hn, hgen⟩ := h c' hc hactive
  obtain ⟨s₀, hs₀, howns⟩ := hI.cycle_owned c' hc
  obtain rfl : s₀ = s := sessionRow_eq_of_names hs₀ hs (howns.2.1.trans hg.symm)
    (howns.2.2.trans hn.symm)
  by_cases hid : s₀.id = j.session.id
  · have hsession := hlinked.eq_session hs hid
    have hlt := (Joined.generation_of_activateNew hdisp).1 _ (hsession ▸ hgen)
    refine absurd ⟨howns.1.symm.trans hid, fun hcid ↦ ?_, hlt, Or.inr hactive⟩ hspared
    rw [hlinked.eq_cycle hc hcid, hlinked.generation_eq] at hlt
    exact lt_irrefl _ hlt
  · exact ⟨s₀, Table.mem_update_of_not hs hid, hg, hn, hgen⟩

/-- Without an activation by chat, an effect keeps the active cycles current. -/
theorem Effect.activeIsCurrent (heff : Effect config now P db db') (hI : db.Integrity)
    (hP : ∀ b, P b → b.NotChatActivation) (h : db.ActiveIsCurrent) : db'.ActiveIsCurrent := by
  by_cases hact : ∃ j, db.Linked j ∧ j.disposition = .activateNew ∧ db' = activateNew j db
  · obtain ⟨j, hlinked, hdisp, rfl⟩ := hact
    exact activateNew_activeIsCurrent hI hlinked hdisp h
  intro c' hc' hactive
  rcases heff.cycles_change.backward c' hc' with ⟨c, hc, hkey, hchange⟩ | hnew
  swap
  · rw [hnew.1] at hactive
    cases hactive
  rw [hkey]
  refine Db.Current.step ?_ heff hact
  cases hchange with
  | keeps hstatus _ => exact h c hc (hstatus ▸ hactive)
  | activated j hlinked hdisp hdb _ _ => exact absurd ⟨j, hlinked, hdisp, hdb⟩ hact
  | opened j hlinked hdisp hchat hcycle _ _ _ =>
    have hseq : j.event.eventType.isHostedChat = false := by
      rw [← Bool.not_eq_true]
      exact fun h ↦ hP _ (hchat h)
    rw [hcycle, hlinked.cycle_owns.2.1, hlinked.cycle_owns.2.2.1, hlinked.cycle_owns.2.2.2]
    exact hlinked.current_iff.2 (Joined.generation_of_current hdisp hseq)
  | outdated _ _ _ _ _ _ hstatus _ => simp [hstatus] at hactive
  | superseded _ _ _ _ _ _ hstatus =>
    rw [hstatus] at hactive
    split_ifs at hactive
  | waited _ _ _ _ _ hstatus => simp [hstatus] at hactive
  | manual _ _ _ _ hstatus => simp [hstatus] at hactive
  | closed _ _ hstatus => simp [hstatus] at hactive

end Step

namespace World

/-- The pass takes a hosted chat event whose cycle is still pending. -/
def ChatOpensCycle (config : SystemConfig) (w : World) : Action → Prop
  | .claimPass _ busy => ∃ j ∈ w.db.claimCandidate config.events.maxAttempts w.now busy,
      j.event.eventType.isHostedChat = true ∧ j.cycle.status = .pending
  | _ => False

instance (config : SystemConfig) (w : World) (a : Action) :
    Decidable (w.ChatOpensCycle config a) :=
  match a with
  | .claimPass .. => inferInstanceAs (Decidable (∃ _ ∈ _, _))
  | .tick .. | .acceptBatch .. | .renew .. | .complete .. | .persist .. | .sweep | .discard
  | .stopIdle | .plan .. | .record .. | .claimDecision .. | .renewDecision .. | .failDecision ..
  | .recordResponse .. | .sweepDecisions => instDecidableFalse

theorem notChatActivation_of_takes {a : Action} (h : ¬w.ChatOpensCycle config a) {b : Branch}
    (hb : w.Takes config a b) : b.NotChatActivation := by
  cases hb with
  | chatActivation hcandidate hchat hpending =>
    exact h ⟨_, hcandidate, hchat, hpending⟩
  | _ => trivial

/-- At most one cycle of a session is active. -/
theorem active_unique {db : Db} (h : db.ActiveIsCurrent) {c c' : CycleRow} (hc : c ∈ db.cycles)
    (hc' : c' ∈ db.cycles) (hg : c.gatewayId = c'.gatewayId) (hn : c.sessionId = c'.sessionId)
    (hactive : c.status = .active) (hactive' : c'.status = .active) : c = c' := by
  obtain ⟨s, hs, hsg, hsn, hgen⟩ := h c hc hactive
  obtain ⟨s', hs', hsg', hsn', hgen'⟩ := h c' hc' hactive'
  obtain rfl := sessionRow_eq_of_names hs hs' (hsg.trans (hg.trans hsg'.symm))
    (hsn.trans (hn.trans hsn'.symm))
  exact cycleRow_eq_of_names hc hc' hg hn (Option.some.inj (hgen.symm.trans hgen'))

/-- In a run in which no chat event opens a pending cycle, the active cycles are the current
ones, one for each session at most, and current generations never decrease. -/
theorem active_is_current_of_run (entropy : ℕ → ℕ) (actions : List Action)
    (hrun : Guarded (exec config) (fun w a ↦ ¬w.ChatOpensCycle config a) (initial entropy)
      actions) :
    let w := run (exec config) (initial entropy) actions
    (∀ c ∈ w.db.cycles, c.status = .active →
      w.db.Current c.gatewayId c.sessionId c.controlGeneration) ∧
    (∀ c ∈ w.db.cycles, ∀ c' ∈ w.db.cycles, c.gatewayId = c'.gatewayId →
      c.sessionId = c'.sessionId → c.status = .active → c'.status = .active → c = c') ∧
    ∀ later, ∀ s ∈ w.db.sessions, ∃ s' ∈ (run (exec config) w later).db.sessions,
      s'.toSessionKey = s.toSessionKey ∧
        ∀ g ∈ s.currentGeneration, ∃ g' ∈ s'.currentGeneration, g ≤ g' := by
  have hactive : (run (exec config) (initial entropy) actions).db.ActiveIsCurrent :=
    invariant_of_effects (P := Branch.NotChatActivation)
      (fun _ _ _ heff hI h ↦ heff.activeIsCurrent hI (fun _ hb ↦ hb) h)
      (fun _ _ h _ hb ↦ notChatActivation_of_takes h hb) (initial_sound entropy)
      (fun _ hc ↦ absurd hc (Table.not_mem_empty _)) hrun
  refine ⟨hactive, fun c hc c' hc' ↦ active_unique hactive hc hc', fun later s hs ↦ ?_⟩
  obtain ⟨s', hs', hgrow⟩ :=
    ((run_sound (initial_sound entropy) actions).later later).sessions s hs
  exact ⟨s', hs', hgrow.key_eq, hgrow.generation⟩

section Runs

open Scenario

/-- An observation of generation 2 comes early, chat is stored in its pending cycle, and
generation 1 starts. -/
def chatBeforeStart : List Action :=
  [submit [observation "e2" 2 2 "L2" 2], submit [chat "c1"],
    submit [sessionStarted "e1" 1 "L1" 1], claim, claim]

/-- The chat event activates the pending cycle next to the current one. -/
theorem chat_opens_second_cycle :
    let w := after chatBeforeStart
    (∃ c ∈ w.db.cycles, c.status = .active ∧
      ¬w.db.Current c.gatewayId c.sessionId c.controlGeneration) ∧
    ∃ c ∈ w.db.cycles, ∃ c' ∈ w.db.cycles, c.gatewayId = c'.gatewayId ∧
      c.sessionId = c'.sessionId ∧ c.status = .active ∧ c'.status = .active ∧ c ≠ c' := by
  unfold Db.Current
  decide

/-- Chat in an active cycle, and a second generation. -/
def chatAfterStart : List Action :=
  [submit [sessionStarted "e1" 1 "L1" 1, chat "c1"], claim, claim,
    submit [sessionStarted "e2" 2 "L2" 1], claim]

theorem active_is_current_chatAfterStart :
    (∃ c ∈ (after chatAfterStart).db.cycles, c.status = .active ∧ c.controlGeneration = 2) ∧
    ∀ c ∈ (after chatAfterStart).db.cycles, c.status = .active →
      (after chatAfterStart).db.Current c.gatewayId c.sessionId c.controlGeneration :=
  ⟨by decide, (@active_is_current_of_run Scenario.config (fun _ ↦ 0)
    chatAfterStart (by decide)).1⟩

end Runs

end World

end LlmGateway
