import LlmGateway.System.Run
import LlmGateway.System.Scenario

/-!
# Stopped cycles

A completion may take a cycle out of the status `stopped`: by marking it manual, or by
superseding it together with a fenced event at its cursor. In runs without such a step a
stopped cycle stays stopped, and none of its decisions is planned, claimed or put back.
-/

namespace LlmGateway

open Relational

/-- The fenced event stands at the cursor of a stopped cycle, which it takes along. -/
def Joined.SupersedesStopped (j : Joined) : Prop :=
  j.cycle.status = .stopped ∧ j.cycle.nextEventSequence = j.event.eventSequence ∧
    j.event.eventType ≠ .sessionStopped

instance : DecidablePred Joined.SupersedesStopped := fun _ ↦ inferInstanceAs (Decidable (_ ∧ _))

/-- The branches that leave a stopped cycle alone. -/
def Branch.KeepsStopped (cycleId : Uuid) : Branch → Prop
  | .fenced j => j.cycle.id = cycleId → ¬j.SupersedesStopped
  | .manual j => j.cycle.status ≠ .stopped
  | _ => True

section Step

variable {config : WorkerConfig} {now : ℕ} {P : Branch → Prop} {db db' : Db}

def Db.StoppedCycle (db : Db) (cycleId : Uuid) : Prop :=
  ∃ c ∈ db.cycles, c.id = cycleId ∧ c.status = .stopped

/-- No decision of the cycle was planned, claimed or put back since the earlier state. -/
def Db.NothingSent (cycleId : Uuid) (db db' : Db) : Prop :=
  ∀ d' ∈ db'.decisions, d'.cycleId = cycleId → d'.status.isUnsent = true →
    ∃ d ∈ db.decisions, d.toDecisionKey = d'.toDecisionKey ∧ d.status = d'.status ∧
      d.claimToken = d'.claimToken

theorem Db.NothingSent.refl (cycleId : Uuid) (db : Db) : db.NothingSent cycleId db :=
  fun d hd _ _ ↦ ⟨d, hd, rfl, rfl, rfl⟩

theorem Db.NothingSent.trans {cycleId : Uuid} {db'' : Db} (h : Db.NothingSent cycleId db db')
    (h' : Db.NothingSent cycleId db' db'') : Db.NothingSent cycleId db db'' := by
  intro d'' hd'' hcycle hunsent
  obtain ⟨d', hd', hkey', hstatus', htoken'⟩ := h' d'' hd'' hcycle hunsent
  obtain ⟨d, hd, hkey, hstatus, htoken⟩ := h d' hd' (by rw [hkey', hcycle])
    (by rw [hstatus', hunsent])
  exact ⟨d, hd, hkey.trans hkey', hstatus.trans hstatus', htoken.trans htoken'⟩

theorem Db.StoppedCycle.not_active {cycleId : Uuid} (h : db.StoppedCycle cycleId) {c : CycleRow}
    (hc : c ∈ db.cycles) (hid : c.id = cycleId) : c.status ≠ .active := by
  obtain ⟨c₀, hc₀, hid₀, hstopped⟩ := h
  rw [cycleRow_eq_of_id hc hc₀ (hid.trans hid₀.symm), hstopped]
  decide

/-- While a cycle is stopped, an effect sends none of its decisions. -/
theorem Effect.nothingSent (heff : Effect config now P db db') {cycleId : Uuid}
    (h : db.StoppedCycle cycleId) : Db.NothingSent cycleId db db' := by
  intro d' hd' hcycle hunsent
  rcases heff.decisions_change.backward d' hd' with ⟨d, hd, hkey, hmoves⟩ | ⟨c, hc, hid, hactive, -⟩
  · rcases hmoves hunsent with ⟨hstatus, htoken⟩ | ⟨c, hc, hid, hactive⟩
    · exact ⟨d, hd, hkey.symm, hstatus.symm, htoken.symm⟩
    · refine absurd hactive (h.not_active hc (hid.trans ?_))
      rw [← hcycle, hkey]
  · exact absurd hactive (h.not_active hc (hid.trans hcycle))

/-- The generation of a stopped cycle is not newer than the current one. -/
theorem Db.StoppedReached.linked (h : db.StoppedReached) {j : Joined} (hlinked : db.Linked j)
    (hstopped : j.cycle.status = .stopped) :
    ∃ g ∈ j.session.currentGeneration, j.event.controlGeneration ≤ g := by
  have hreached := h j.cycle hlinked.cycle_mem hstopped
  rw [hlinked.cycle_owns.2.1, hlinked.cycle_owns.2.2.1, hlinked.cycle_owns.2.2.2] at hreached
  exact hlinked.reached_iff.1 hreached

/-- A stale candidate never comes from a stopped cycle. -/
theorem Joined.not_stopped_of_stale {j : Joined} (hstale : j.disposition = .stale)
    (horder : j.InClaimOrder) : j.cycle.status ≠ .stopped := by
  intro hstopped
  have hseq := sequenced_of_disposition (j := j) (by simp [hstale])
  have hconvergence := (generation_of_stale hstale).2
  rcases horder with ⟨hs | hs | hs, -⟩ | h | h | ⟨-, hs⟩ | ⟨-, hs⟩
  · simp [hs] at hstopped
  · simp [hs] at hstopped
  · simp [hs] at hstopped
  · simp [hconvergence] at h
  · simp [hseq] at h
  · simp [hs] at hstopped
  · simp [hs] at hstopped

/-- An effect that takes only branches which leave the stopped cycle alone does so. -/
theorem Effect.stoppedCycle (heff : Effect config now P db db') (hreached : db.StoppedReached)
    {cycleId : Uuid} (hP : ∀ b, P b → b.KeepsStopped cycleId) (h : db.StoppedCycle cycleId) :
    db'.StoppedCycle cycleId := by
  obtain ⟨c, hc, hid, hstopped⟩ := h
  obtain ⟨c', hc', hkey, hchange⟩ := heff.cycles_change.forward c hc
  refine ⟨c', hc', (congrArg CycleKey.id hkey).trans hid, ?_⟩
  have hnot_newer {j : Joined} (hlinked : db.Linked j) (hcycle : c = j.cycle)
      (hnew : ∀ g ∈ j.session.currentGeneration, g < j.event.controlGeneration) : False := by
    obtain ⟨g, hg, hle⟩ := hreached.linked hlinked (hcycle ▸ hstopped)
    exact absurd (hnew g hg) (not_lt.2 hle)
  cases hchange with
  | keeps hstatus _ => rw [hstatus, hstopped]
  | activated j hlinked hdisp _ hcycle _ =>
    exact (hnot_newer hlinked hcycle (Joined.generation_of_activateNew hdisp).1).elim
  | waited j hlinked hdisp _ hcycle _ =>
    exact (hnot_newer hlinked hcycle (Joined.generation_of_wait hdisp).1).elim
  | outdated _ _ _ _ _ _ _ hopen => simp [hstopped] at hopen
  | opened _ _ _ _ _ hpending _ _ => simp [hstopped] at hpending
  | closed _ hopen _ => simp [hstopped] at hopen
  | manual j _ htaken hcycle _ => exact absurd (hcycle ▸ hstopped) (hP _ htaken)
  | superseded j _ _ hreason hcycle hcursor hstatus =>
    rcases hreason with ⟨hstale, horder⟩ | ⟨-, -, htaken⟩
    · exact absurd (hcycle ▸ hstopped) (Joined.not_stopped_of_stale hstale horder)
    · by_cases htype : j.event.eventType = .sessionStopped
      · rw [hstatus, if_pos htype]
      · exact absurd ⟨hcycle ▸ hstopped, hcycle ▸ hcursor, htype⟩ (hP _ htaken (hcycle ▸ hid))

/-- The sweep first closes what is processed in a stopped cycle. -/
theorem sweepTrail_stopped (hI : db.Integrity) {cycleId : Uuid} (h : db.StoppedCycle cycleId) :
    ∀ t ∈ sweepTrail config now db, t.Integrity ∧ ∀ e ∈ t.events, e.cycleId = cycleId →
      e.status ≠ .processing := by
  obtain ⟨c, hc, hid, hstopped⟩ := h
  have hstart : db.cleanupClosedCycleEvents.Integrity ∧
      ∀ e ∈ db.cleanupClosedCycleEvents.events, e.cycleId = cycleId → e.status ≠ .processing := by
    have heff : Effect config now (fun _ ↦ False) db db.cleanupClosedCycleEvents := cleanup_effect
    refine ⟨heff.integrity hI, fun e' he' hcycle ↦ ?_⟩
    rcases Table.mem_update.1 he' with ⟨e, -, -, rfl⟩ | ⟨he, hspared⟩
    · simp only [Db.closeEvent]
      split_ifs <;> decide
    · exact fun hproc ↦ hspared ⟨c, hc, hcycle.trans hid.symm, Or.inl (Or.inl hstopped),
        Or.inr ⟨Or.inl hstopped, hproc⟩⟩
  refine forall_mem_trail (fun t t' hbody ht ↦ ?_) hstart
  obtain ⟨hIt, hidle⟩ := ht
  obtain ⟨j, hlock, rfl⟩ := Option.map_eq_some_iff.1 hbody
  obtain ⟨hjoins, hexhausted⟩ := lockExhaustedClaim_eq_some hlock
  have heffects : Effects config now (fun b ↦ b ≠ Branch.claim) t (sweepRow j t) :=
    sweepRow_effects hIt (hIt.linked hjoins) hexhausted.1 fun _ ↦ Branch.noConfusion
  refine ⟨heffects.integrity hIt, fun e' he' hcycle hproc ↦ ?_⟩
  obtain ⟨e, he, hproc', hkey, -⟩ := heffects.processing_back (fun h ↦ h rfl) e' he' hproc
  exact hidle e he ((congrArg EventKey.cycleId hkey).trans hcycle) hproc'

end Step

namespace World

variable {config : SystemConfig} {w : World}

/-- The completion takes a stopped cycle out of its status: it completes as manual a valid
claim that is not a historical recovery, or supersedes a fenced event at the cursor. -/
def LeavesStopped (w : World) : Action → Prop
  | .complete token result => ∃ c ∈ w.claim? token, ∃ j ∈ w.db.lockClaim c,
      (¬j.ClaimValid j.event.claimedFenceVersion ∧ j.SupersedesStopped) ∨
      (j.ClaimValid j.event.claimedFenceVersion ∧ result.outcome = .manual ∧
        j.disposition ≠ .historicalRecovery ∧ j.event.eventType.isHostedChat = false ∧
        j.cycle.status = .stopped)
  | _ => False

instance (w : World) (a : Action) : Decidable (w.LeavesStopped a) := by
  unfold LeavesStopped
  split <;> infer_instance

theorem keepsStopped_of_takes {a : Action} (hw : w.Sound config) (h : ¬w.LeavesStopped a)
    {cycleId : Uuid} (hstopped : w.db.StoppedCycle cycleId) {b : Branch}
    (hb : w.Takes config a b) : b.KeepsStopped cycleId := by
  cases hb with
  | fenced hissued hlocked hinvalid =>
    exact fun _ hsupersedes ↦ h ⟨_, hissued, _, hlocked, Or.inl ⟨hinvalid, hsupersedes⟩⟩
  | @sweptFenced t j hmem hlocked hinvalid =>
    intro hid _
    obtain ⟨hjoins, hexhausted⟩ := lockExhaustedClaim_eq_some hlocked
    exact (sweepTrail_stopped hw.integrity hstopped t hmem).2 j.event hjoins.event_mem
      (hjoins.cycle_id.symm.trans hid) hexhausted.1
  | manual hissued hlocked hvalid houtcome hdisp hseq =>
    exact fun hstopped ↦
      h ⟨_, hissued, _, hlocked, Or.inr ⟨hvalid, houtcome, hdisp, hseq, hstopped⟩⟩
  | _ => trivial

/-- A step of the runs considered keeps a stopped cycle stopped and sends nothing of it. -/
theorem exec_stoppedCycle {a : Action} (hw : w.Sound config) (h : ¬w.LeavesStopped a)
    {cycleId : Uuid} (hstopped : w.db.StoppedCycle cycleId) :
    (w.exec config a).db.StoppedCycle cycleId ∧
      Db.NothingSent cycleId w.db (w.exec config a).db := by
  refine (invariant_chain (I := fun d ↦ d.GenerationsReached ∧ d.StoppedCycle cycleId ∧
    Db.NothingSent cycleId w.db d) (fun d d' heff hd ↦ ?_)
    (exec_effects hw fun b hb ↦ keepsStopped_of_takes hw h hstopped hb)
    ⟨hw.reached, hstopped, .refl cycleId w.db⟩).2
  exact ⟨heff.generationsReached hd.1, heff.stoppedCycle hd.1.stopped (fun _ hb ↦ hb) hd.2.1,
    hd.2.2.trans (heff.nothingSent hd.2.1)⟩

/-- From any reachable state on, as long as no step takes a stopped cycle out of its status, a
stopped cycle stays stopped and none of its decisions is planned, claimed or put back. -/
theorem stopped_stays_of_run (hw : w.Reachable config) {actions : List Action}
    (hrun : Guarded (exec config) (fun w a ↦ ¬w.LeavesStopped a) w actions)
    {c : CycleRow} (hc : c ∈ w.db.cycles) (hstopped : c.status = .stopped) :
    (∃ c' ∈ (run (exec config) w actions).db.cycles, c'.id = c.id ∧ c'.status = .stopped) ∧
      Db.NothingSent c.id w.db (run (exec config) w actions).db := by
  have hstep (v : World) (a : Action)
      (hv : v.Sound config ∧ v.db.StoppedCycle c.id ∧ Db.NothingSent c.id w.db v.db)
      (ha : ¬v.LeavesStopped a) :
      (v.exec config a).Sound config ∧ (v.exec config a).db.StoppedCycle c.id ∧
        Db.NothingSent c.id w.db (v.exec config a).db := by
    obtain ⟨hstays, hsent⟩ := exec_stoppedCycle hv.1 ha hv.2.1
    exact ⟨exec_sound hv.1, hstays, hv.2.2.trans hsent⟩
  exact (invariant_guarded hstep ⟨hw.sound, ⟨c, hc, rfl, hstopped⟩, .refl c.id w.db⟩ hrun).2

section Runs

open Scenario

/-- The generation is stopped. -/
def stopGeneration : List Action :=
  [submit [sessionStarted "e1" 1 "L1" 1, plain "e2" 1 2 0 stopped], claim, finish 4, claim, finish 5]

/-- A late result of a skill is claimed in the stopped cycle, and given up. -/
def giveUpAfterStop : List Action :=
  [submit [plain "e3" 1 3 0 (finished "d")], claim, giveUp 7]

theorem manual_after_stop :
    ∃ c ∈ (after stopGeneration).db.cycles, c.status = .stopped ∧
      ∃ c' ∈ (run (exec Scenario.config) (after stopGeneration) giveUpAfterStop).db.cycles,
        c'.id = c.id ∧ c'.status = .manual := by
  decide

/-- The late result is recorded, and a new generation starts. -/
def finishAfterStop : List Action :=
  [submit [plain "e3" 1 3 0 (finished "d")], claim, finish 7,
    submit [sessionStarted "e4" 2 "L2" 1], claim, .sweep, .discard]

theorem stopped_stays_finishAfterStop :
    ∃ c ∈ (after stopGeneration).db.cycles, c.status = .stopped ∧
      (∃ c' ∈ (run (exec Scenario.config) (after stopGeneration) finishAfterStop).db.cycles,
        c'.id = c.id ∧ c'.status = .stopped) ∧
      Db.NothingSent c.id (after stopGeneration).db
        (run (exec Scenario.config) (after stopGeneration) finishAfterStop).db := by
  have hstopped : ∃ c ∈ (after stopGeneration).db.cycles, c.status = .stopped := by
    decide
  obtain ⟨c, hc, hstatus⟩ := hstopped
  exact ⟨c, hc, hstatus, stopped_stays_of_run (reachable_after _ _) (by decide) hc hstatus⟩

end Runs

end World

end LlmGateway
