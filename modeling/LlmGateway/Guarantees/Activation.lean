import LlmGateway.System.Run
import LlmGateway.System.Scenario

/-!
# Activation of a generation

A claim pass that takes another event than the session start of a generation that was not
reached yet marks the event and its cycle manual, and the session start is not claimable any
more. In runs without such a pass, and without the discarding of events of generations that
were not reached, all sequenced events of such a generation wait, its session start is
claimable as soon as it is stored, and the pass that takes it activates the generation.
-/

namespace LlmGateway

open Relational

/-- A cycle whose generation was not reached is open, at its first position. -/
def Db.CyclesAwait (db : Db) : Prop :=
  ∀ c ∈ db.cycles, ¬db.Reached c.gatewayId c.sessionId c.controlGeneration →
    (c.status = .pending ∨ c.status = .active) ∧ c.nextEventSequence = 1

/-- The event was never claimed, and is due. -/
structure EventRow.Waits (now : ℕ) (e : EventRow) : Prop where
  pending : e.status = .pending
  attempts : e.attemptCount = 0
  claimToken : e.claimToken = none
  due : e.nextAttemptAt ≤ now

/-- A sequenced event whose generation was not reached waits. -/
def Db.EventsAwait (now : ℕ) (db : Db) : Prop :=
  ∀ e ∈ db.events, e.eventType.isHostedChat = false →
    ¬db.Reached e.gatewayId e.sessionId e.controlGeneration → e.Waits now

/-- The branches that leave the events of a generation that was not reached alone. -/
def Branch.HoldsBack : Branch → Prop
  | .wait _ => False
  | .discard j => j.event.eventType.isHostedChat = true ∨
      ∃ g ∈ j.session.currentGeneration, j.event.controlGeneration ≤ g
  | _ => True

section Step

variable {config : WorkerConfig} {now : ℕ} {P : Branch → Prop} {db db' : Db}

theorem Effect.cyclesAwait (heff : Effect config now P db db') (hI : db.Integrity)
    (hproc : db.ProcessingReached) (hP : ∀ b, P b → b.HoldsBack) (h : db.CyclesAwait) :
    db'.CyclesAwait := by
  intro c' hc' hnot
  rcases heff.cycles_change.backward c' hc' with ⟨c, hc, hkey, hchange⟩ | hnew
  swap
  · exact ⟨Or.inl hnew.1, hnew.2.1⟩
  rw [hkey] at hnot
  have hnot₀ : ¬db.Reached c.gatewayId c.sessionId c.controlGeneration :=
    fun hreached ↦ hnot (hreached.step heff)
  obtain ⟨hopen, hone⟩ := h c hc hnot₀
  cases hchange with
  | keeps hstatus hcursor =>
    rw [hstatus]
    rcases hcursor with hcursor | hreached | hlt
    · exact ⟨hopen, hcursor.trans hone⟩
    · exact absurd hreached hnot₀
    · omega
  | opened j _ _ _ _ _ hstatus hcursor => exact ⟨Or.inr hstatus, hcursor.trans hone⟩
  | activated j hlinked hdisp hdb hcycle _ =>
    have hcurrent := current_of_activated hlinked
    rw [← hdb, ← hcycle] at hcurrent
    exact absurd hcurrent.reached hnot
  | outdated j hlinked _ hdb hsession hlt _ _ =>
    obtain ⟨s, hs, howns⟩ := hI.cycle_owned c hc
    have heq := hlinked.eq_session hs (howns.1.trans hsession)
    have hcurrent := current_of_activated hlinked
    rw [← hdb, ← hlinked.session_owns.2.1, ← hlinked.session_owns.2.2, ← heq, howns.2.1,
      howns.2.2, hlinked.generation_eq] at hcurrent
    obtain ⟨s', hs', hg, hn, hgen⟩ := hcurrent
    exact absurd ⟨s', hs', hg, hn, _, hgen, hlt.le⟩ hnot
  | superseded j hlinked hseq hreason hcycle _ _ =>
    have hreached := hreason.reached hproc hlinked hseq
    rw [hcycle, hlinked.cycle_owns.2.1, hlinked.cycle_owns.2.2.1,
      hlinked.cycle_owns.2.2.2] at hnot₀
    exact absurd hreached hnot₀
  | waited j _ _ htaken _ _ => exact (hP _ htaken).elim
  | manual j hcurrent _ _ _ => exact absurd hcurrent.reached hnot₀
  | closed hcurrent _ _ => exact absurd hcurrent.reached hnot₀

/-- Nothing but a discarding could settle an event that waits. -/
theorem Db.MaySettle.not_waiting {e : EventRow} (h : db.MaySettle P e) (hI : db.Integrity)
    (hP : ∀ b, P b → b.HoldsBack) (hcycles : db.CyclesAwait) (he : e ∈ db.events)
    (hseq : e.eventType.isHostedChat = false) (hpending : e.status = .pending)
    (hnot : ¬db.Reached e.gatewayId e.sessionId e.controlGeneration) : False := by
  rcases h with hproc | ⟨c, hc, hid, hclosed⟩ | hreached | ⟨j, hj, hkey, s, hs, hgrow, hg, hn⟩
  · simp [hpending] at hproc
  · obtain ⟨c', hc', howns⟩ := hI.event_owned e he
    obtain rfl := cycleRow_eq_of_id hc hc' (hid.trans howns.1.symm)
    rw [← howns.2.1, ← howns.2.2.1, ← howns.2.2.2] at hnot
    rcases (hcycles c hc hnot).1 with hs | hs
    · exact hclosed.1 hs
    · exact hclosed.2 hs
  · exact hnot hreached
  · rcases hP _ hj with hchat | ⟨g, hg', hle⟩
    · rw [hkey, hseq] at hchat
      exact Bool.false_ne_true hchat
    · obtain ⟨g', hg'', hle'⟩ := hgrow.generation g hg'
      rw [hkey] at hle
      exact hnot ⟨s, hs, hg, hn, g', hg'', hle.trans hle'⟩

theorem Effect.eventsAwait (heff : Effect config now P db db') (hI : db.Integrity)
    (hproc : db.ProcessingReached) (hP : ∀ b, P b → b.HoldsBack) (hcycles : db.CyclesAwait)
    (h : db.EventsAwait now) : db'.EventsAwait now := by
  intro e' he' hseq hnot
  rcases heff.events_change.backward e' he' with ⟨e, he, hchange⟩ | hnew
  swap
  · exact ⟨hnew.pending, hnew.attempts, hnew.claimToken, hnew.due⟩
  rw [hchange.key_eq] at hseq hnot
  have hnot₀ : ¬db.Reached e.gatewayId e.sessionId e.controlGeneration :=
    fun hreached ↦ hnot (hreached.step heff)
  have hwaits := h e he hseq hnot₀
  cases hchange with
  | same heq => exact heq ▸ hwaits
  | settled _ hmay => exact (hmay.not_waiting hI hP hcycles he hseq hwaits.pending hnot₀).elim
  | superseded j hlinked heq hseq' hreason _ =>
    subst heq
    exact absurd (hreason.reached hproc hlinked hseq') hnot₀
  | waited j _ _ _ htaken _ => exact (hP _ htaken).elim
  | claimed j _ _ hreached _ _ =>
    exact absurd (hreached.resolve_left (by simp [hseq])) hnot₀

end Step

/-! ## The session start -/

section Start

variable {db : Db} {maxAttempts now : ℕ} {j : Joined}

/-- A session start that waits is claimable, and opens its generation. -/
theorem Joined.claimable_of_waits (hsound : j.event.toEventKey.Sound)
    (htype : j.event.eventType = .sessionStarted) (hmax : 0 < maxAttempts)
    (hopen : j.cycle.status = .pending ∨ j.cycle.status = .active)
    (hone : j.cycle.nextEventSequence = 1) (hwaits : j.event.Waits now) :
    j.Claimable maxAttempts now := by
  have hsequence : j.event.eventSequence = 1 := hsound.sequence_one.2 htype
  refine ⟨Or.inl ⟨?_, hsequence.trans hone.symm⟩, ?_, Or.inl ⟨Or.inl hwaits.pending, hwaits.due⟩⟩
  · exact hopen.imp_right Or.inl
  · rw [hwaits.attempts]
    exact hmax

theorem Joined.activateNew_of_not_reached (hlinked : db.Linked j)
    (hsound : j.event.toEventKey.Sound) (htype : j.event.eventType = .sessionStarted)
    (hnot : ¬db.Reached j.event.gatewayId j.event.sessionId j.event.controlGeneration) :
    j.disposition = .activateNew := by
  have hseq : j.event.eventType.isHostedChat = false := by
    rw [htype]
    rfl
  rw [hlinked.reached_iff] at hnot
  push Not at hnot
  rw [Joined.disposition_of_sequenced hseq, classifyGeneration, if_pos hnot,
    if_pos ⟨htype, hsound.sequence_one.2 htype⟩]

/-- In a pending cycle nothing is claimed before the session start. -/
theorem Joined.rank_of_pending (hsound : j.event.toEventKey.Sound)
    (horder : j.InClaimOrder) (hpending : j.cycle.status = .pending)
    (hone : j.cycle.nextEventSequence = 1) (hrank : j.cycleRank ≤ 1) :
    j.event.eventType = .sessionStarted := by
  by_contra htype
  have hother : j.event.eventType.isConvergence = true ∨ j.event.eventType.isHostedChat = true := by
    rcases horder with ⟨-, hseq⟩ | h | h | ⟨-, h⟩ | ⟨-, h⟩
    · exact absurd (hsound.sequence_one.1 (hseq.trans hone)) htype
    · exact Or.inl h
    · exact Or.inr h
    · simp [hpending] at h
    · simp [hpending] at h
  have hobservation : j.event.eventType ≠ .observationUpdated := by
    intro h
    simp [h, EventType.isConvergence, EventType.isHostedChat] at hother
  have hstopped : j.event.eventType ≠ .sessionStopped := by
    intro h
    simp [h, EventType.isConvergence, EventType.isHostedChat] at hother
  simp [Joined.cycleRank, hpending, htype, hobservation, hstopped] at hrank

/-- The first claimable event of a pending cycle is its session start. -/
theorem lockClaimCandidate_start (hI : db.Integrity) (hlinked : db.Linked j)
    (htype : j.event.eventType = .sessionStarted) (hpending : j.cycle.status = .pending)
    (hone : j.cycle.nextEventSequence = 1) (hclaimable : j.Claimable maxAttempts now) :
    db.lockClaimCandidate maxAttempts now j.cycle.id = some j := by
  have hmem : j ∈ (db.claimable maxAttempts now).filter
      fun i ↦ i.event.cycleId = j.cycle.id := by
    rw [List.mem_filter]
    exact ⟨mem_claimable.2 ⟨hlinked.toJoins, hclaimable⟩, decide_eq_true hlinked.cycle_id.symm⟩
  rcases hhead : db.lockClaimCandidate maxAttempts now j.cycle.id with _ | i
  · have hnil := List.head?_eq_none_iff.1 hhead
    exact absurd (hnil ▸ mem_orderBy.2 hmem) List.not_mem_nil
  obtain ⟨⟨hjoins, hclaimable'⟩, hcycleId⟩ := lockClaimCandidate_eq_some hhead
  have hlinked' := hI.linked hjoins
  have hcycle : i.cycle = j.cycle := cycleRow_eq_of_id hjoins.cycle_mem hlinked.cycle_mem
    (hjoins.cycle_id.trans hcycleId)
  have hsound := hI.event_sound i.event hjoins.event_mem
  have hsound' := hI.event_sound j.event hlinked.event_mem
  have hle := key_head_le hhead hmem
  simp only [Joined.claimKey, List.cons_append] at hle
  have hrank : i.cycleRank ≤ 1 := by
    refine (le_of_cons_le hle).trans (le_of_eq ?_)
    simp [Joined.cycleRank, hpending, htype, hsound'.sequence_one.2 htype]
  have htype' := Joined.rank_of_pending hsound hclaimable'.1 (hcycle ▸ hpending) (hcycle ▸ hone)
    hrank
  have hgateway : i.event.gatewayId = j.event.gatewayId := by
    rw [← hlinked'.cycle_owns.2.1, hcycle, hlinked.cycle_owns.2.1]
  have hsession : i.event.sessionId = j.event.sessionId := by
    rw [← hlinked'.cycle_owns.2.2.1, hcycle, hlinked.cycle_owns.2.2.1]
  have hgeneration : i.event.controlGeneration = j.event.controlGeneration := by
    rw [← hlinked'.cycle_owns.2.2.2, hcycle, hlinked.cycle_owns.2.2.2]
  have hsequence : i.event.eventSequence = j.event.eventSequence := by
    rw [hsound.sequence_one.2 htype', hsound'.sequence_one.2 htype]
  have hevent : i.event = j.event := Table.eq_of_clashes hjoins.event_mem hlinked.event_mem
    (Or.inr (Or.inr ⟨hgateway, hsession, hgeneration, hsequence⟩))
  rw [hjoins.unique hlinked.toJoins hevent]

end Start

namespace World

variable {config : SystemConfig} {w : World}

/-- A claim pass takes an event that came before its session start, or the discarding closes
an event of a generation that was not reached. -/
def GivesUpEarly (config : SystemConfig) (w : World) : Action → Prop
  | .claimPass _ busy => ∃ j ∈ w.db.claimCandidate config.events.maxAttempts w.now busy,
      j.disposition = .wait
  | .discard => ¬w.db.StaleCastFails ∧ ∃ maxAgeMs ∈ config.eventStaleAfterMs,
      ∃ e ∈ w.db.events, e.Stale maxAgeMs w.now ∧ e.eventType.isHostedChat = false ∧
        ¬w.db.Reached e.gatewayId e.sessionId e.controlGeneration
  | _ => False

instance (config : SystemConfig) (w : World) (a : Action) :
    Decidable (w.GivesUpEarly config a) := by
  unfold GivesUpEarly
  split <;> infer_instance

theorem holdsBack_of_takes {a : Action} (hw : w.Sound config) (h : ¬w.GivesUpEarly config a)
    {b : Branch} (hb : w.Takes config a b) : b.HoldsBack := by
  cases hb with
  | wait hcandidate hdisp => exact h ⟨_, hcandidate, hdisp⟩
  | @discard maxAgeMs t j hage hcasts hmem hselected =>
    have htrail : t.Integrity ∧ Effects config.events w.now (· ≠ .admission) w.db t :=
      effects_of_mem_discardTrail hw.integrity (fun _ ↦ nofun) hmem
    obtain ⟨hIt, hchain⟩ := htrail
    obtain ⟨hjoins, hstale⟩ := mem_selectStaleEvents hselected
    obtain ⟨e, he, hkey, hopen⟩ :=
      hchain.events_back (fun hne ↦ hne rfl) j.event hjoins.event_mem
    by_contra hnot
    simp only [Branch.HoldsBack, not_or, Bool.not_eq_true] at hnot
    refine h ⟨hcasts, maxAgeMs, hage, e, he, ⟨hopen hstale.1, ?_⟩, ?_, fun hreached ↦ hnot.2 ?_⟩
    · rw [hkey]
      exact hstale.2
    · rw [hkey]
      exact hnot.1
    · rw [hkey] at hreached
      exact (hIt.linked hjoins).reached_iff.1 (hchain.later.reached hreached)
  | _ => trivial

theorem exec_await {a : Action} (hw : w.Sound config) (h : ¬w.GivesUpEarly config a)
    (hcycles : w.db.CyclesAwait) (hevents : w.db.EventsAwait w.now) :
    (w.exec config a).db.CyclesAwait ∧ (w.exec config a).db.EventsAwait (w.exec config a).now := by
  have hchain := exec_effects (P := Branch.HoldsBack) hw fun b hb ↦ holdsBack_of_takes hw h hb
  obtain ⟨-, -, hcycles', hevents'⟩ := invariant_chain
    (I := fun d ↦ d.Integrity ∧ d.GenerationsReached ∧ d.CyclesAwait ∧ d.EventsAwait w.now)
    (fun d d' heff hd ↦ ⟨heff.integrity hd.1, heff.generationsReached hd.2.1,
      heff.cyclesAwait hd.1 hd.2.1.processing (fun _ hb ↦ hb) hd.2.2.1,
      heff.eventsAwait hd.1 hd.2.1.processing (fun _ hb ↦ hb) hd.2.2.1 hd.2.2.2⟩)
    hchain ⟨hw.integrity, hw.reached, hcycles, hevents⟩
  refine ⟨hcycles', fun e he hseq hnot ↦ ?_⟩
  have hwaits := hevents' e he hseq hnot
  exact ⟨hwaits.pending, hwaits.attempts, hwaits.claimToken,
    hwaits.due.trans (exec_now config w a)⟩

/-- The step makes the generation of the cycle current and hands out its session start. -/
structure Activates (config : SystemConfig) (w : World) (a : Action) (c : CycleRow)
    (start : EventRow) : Prop where
  current : (w.exec config a).db.Current c.gatewayId c.sessionId c.controlGeneration
  active : ∃ c' ∈ (w.exec config a).db.cycles, c'.toCycleKey = c.toCycleKey ∧ c'.status = .active
  handed : ∃ claim, (w.exec config a).claims = w.claims ++ [claim] ∧ claim.rowId = start.id

theorem activates_of_candidate {j : Joined} (hlinked : w.db.Linked j)
    (hdisp : j.disposition = .activateNew) (workerId : String) {busy : List Uuid}
    (hcandidate : w.db.claimCandidate config.events.maxAttempts w.now busy = some j) :
    w.Activates config (.claimPass workerId busy) j.cycle j.event := by
  have hactivated := linked_activated hlinked
  have hpass : LlmGateway.claimPass config.events w.now workerId busy w.db =
      handOut config.events w.now workerId j (j.session.fenceVersion + 1) false
        (activateNew j w.db) := by
    simp only [LlmGateway.claimPass, hcandidate, claimLocked, hdisp]
  have hexec : w.exec config (.claimPass workerId busy) =
      { w with
        db := (handOut config.events w.now workerId j (j.session.fenceVersion + 1) false
          (activateNew j w.db)).2
        claims := w.claims ++ [buildClaimedEvent config.events w.now workerId j
          (activateNew j w.db).nextUuid (j.session.fenceVersion + 1) false] } := by
    simp only [exec, claimPass, hpass, handOut]
  refine ⟨?_, ?_, ?_⟩
  · rw [hexec]
    exact current_of_activated hlinked
  · rw [hexec]
    exact ⟨j.activated.cycle, hactivated.cycle_mem, rfl, rfl⟩
  · rw [hexec]
    exact ⟨_, rfl, rfl⟩

/-- What holds of a cycle whose generation was not reached: everything waits for the session
start, which is claimable, and comes first while the cycle is pending. -/
structure AwaitsStart (config : SystemConfig) (w : World) (c : CycleRow) : Prop where
  status : c.status = .pending ∨ c.status = .active
  cursor : c.nextEventSequence = 1
  waits : ∀ e ∈ w.db.events, e.cycleId = c.id → e.eventType.isHostedChat = false →
    e.Waits w.now
  claimable : ∀ j ∈ w.db.joinedEvents, j.cycle = c → j.event.eventType = .sessionStarted →
    j.Claimable config.events.maxAttempts w.now
  taken : ∀ j ∈ w.db.joinedEvents, j.cycle = c → j.event.eventType = .sessionStarted →
    ∀ workerId busy, w.db.claimCandidate config.events.maxAttempts w.now busy = some j →
      w.Activates config (.claimPass workerId busy) c j.event
  chosen : ∀ j ∈ w.db.joinedEvents, j.cycle = c → j.event.eventType = .sessionStarted →
    c.status = .pending → ∀ workerId busy,
      (w.db.selectClaimCycle config.events.maxAttempts w.now).find? (· ∉ busy) = some c.id →
        w.Activates config (.claimPass workerId busy) c j.event
  alone : ∀ j ∈ w.db.joinedEvents, j.cycle = c → j.event.eventType = .sessionStarted →
    c.status = .pending →
      (∀ i ∈ w.db.claimable config.events.maxAttempts w.now, i.event.cycleId = c.id) →
        ∀ workerId busy, c.id ∉ busy → w.Activates config (.claimPass workerId busy) c j.event

/-- When only one cycle has claimable events, a pass for which it is free chooses it. -/
theorem chosen_of_alone {db : Db} {maxAttempts now : ℕ} {cycleId : Uuid} {j : Joined}
    (hj : j ∈ db.claimable maxAttempts now)
    (halone : ∀ i ∈ db.claimable maxAttempts now, i.event.cycleId = cycleId)
    {busy : List Uuid} (hfree : cycleId ∉ busy) :
    (db.selectClaimCycle maxAttempts now).find? (· ∉ busy) = some cycleId := by
  have hsorted : j ∈ orderBy Joined.claimKey (db.claimable maxAttempts now) := mem_orderBy.2 hj
  unfold Db.selectClaimCycle
  rcases horder : orderBy Joined.claimKey (db.claimable maxAttempts now) with _ | ⟨i, rest⟩
  · rw [horder] at hsorted
    exact absurd hsorted List.not_mem_nil
  · have hi : i.event.cycleId = cycleId :=
      halone i (mem_orderBy.1 (horder ▸ List.mem_cons_self))
    simp [List.take_succ_cons, hi, hfree]

theorem awaitsStart (hw : w.Sound config) (hcycles : w.db.CyclesAwait)
    (hevents : w.db.EventsAwait w.now) {c : CycleRow} (hc : c ∈ w.db.cycles)
    (hnot : ¬w.db.Reached c.gatewayId c.sessionId c.controlGeneration) :
    w.AwaitsStart config c := by
  have hI := hw.integrity
  obtain ⟨hopen, hone⟩ := hcycles c hc hnot
  have hwaits (e : EventRow) (he : e ∈ w.db.events) (hid : e.cycleId = c.id)
      (hseq : e.eventType.isHostedChat = false) : e.Waits w.now := by
    obtain ⟨c', hc', howns⟩ := hI.event_owned e he
    obtain rfl := cycleRow_eq_of_id hc' hc (howns.1.trans hid)
    refine hevents e he hseq ?_
    rwa [← howns.2.1, ← howns.2.2.1, ← howns.2.2.2]
  have hclaimable (j : Joined) (hj : j ∈ w.db.joinedEvents) (hcycle : j.cycle = c)
      (htype : j.event.eventType = .sessionStarted) :
      j.Claimable config.events.maxAttempts w.now := by
    have hjoins := mem_joinedEvents.1 hj
    refine Joined.claimable_of_waits (hI.event_sound j.event hjoins.event_mem) htype
      config.events.maxAttempts_pos (hcycle ▸ hopen) (hcycle ▸ hone)
      (hwaits j.event hjoins.event_mem (hcycle ▸ hjoins.cycle_id.symm) ?_)
    rw [htype]
    rfl
  have htaken (j : Joined) (hj : j ∈ w.db.joinedEvents) (hcycle : j.cycle = c)
      (htype : j.event.eventType = .sessionStarted) (workerId : String) (busy : List Uuid)
      (hcandidate : w.db.claimCandidate config.events.maxAttempts w.now busy = some j) :
      w.Activates config (.claimPass workerId busy) c j.event := by
    have hlinked := hI.linked (mem_joinedEvents.1 hj)
    subst hcycle
    refine activates_of_candidate hlinked (Joined.activateNew_of_not_reached hlinked
      (hI.event_sound j.event hlinked.event_mem) htype ?_) workerId hcandidate
    rwa [← hlinked.cycle_owns.2.1, ← hlinked.cycle_owns.2.2.1, ← hlinked.cycle_owns.2.2.2]
  have hchosen (j : Joined) (hj : j ∈ w.db.joinedEvents) (hcycle : j.cycle = c)
      (htype : j.event.eventType = .sessionStarted) (hpending : c.status = .pending)
      (workerId : String) (busy : List Uuid)
      (hfind : (w.db.selectClaimCycle config.events.maxAttempts w.now).find? (· ∉ busy) =
        some c.id) : w.Activates config (.claimPass workerId busy) c j.event := by
    refine htaken j hj hcycle htype workerId busy ?_
    have hstart := lockClaimCandidate_start hI (hI.linked (mem_joinedEvents.1 hj)) htype
      (hcycle ▸ hpending) (hcycle ▸ hone) (hclaimable j hj hcycle htype)
    unfold Db.claimCandidate
    rw [hfind, Option.bind_some, ← hcycle]
    exact hstart
  refine ⟨hopen, hone, hwaits, hclaimable, htaken, hchosen, ?_⟩
  intro j hj hcycle htype hpending halone workerId busy hfree
  exact hchosen j hj hcycle htype hpending workerId busy (chosen_of_alone
    (mem_claimable.2 ⟨mem_joinedEvents.1 hj, hclaimable j hj hcycle htype⟩) halone hfree)

/-- In a run in which nothing is given up early, every cycle of a generation that was not
reached waits for its session start. -/
theorem awaits_start_of_run (entropy : ℕ → ℕ) (actions : List Action)
    (hrun : Guarded (exec config) (fun w a ↦ ¬w.GivesUpEarly config a) (initial entropy)
      actions) :
    let w := run (exec config) (initial entropy) actions
    ∀ c ∈ w.db.cycles, ¬w.db.Reached c.gatewayId c.sessionId c.controlGeneration →
      w.AwaitsStart config c := by
  have hstep (v : World) (a : Action)
      (hv : v.Sound config ∧ v.db.CyclesAwait ∧ v.db.EventsAwait v.now)
      (ha : ¬v.GivesUpEarly config a) : (v.exec config a).Sound config ∧
        (v.exec config a).db.CyclesAwait ∧
        (v.exec config a).db.EventsAwait (v.exec config a).now :=
    ⟨exec_sound hv.1, exec_await hv.1 ha hv.2.1 hv.2.2⟩
  have hinit : (initial entropy).db.CyclesAwait ∧ (initial entropy).db.EventsAwait 0 :=
    ⟨fun _ hc ↦ absurd hc (Table.not_mem_empty _), fun _ he ↦ absurd he (Table.not_mem_empty _)⟩
  obtain ⟨hsound, hcycles, hevents⟩ :=
    invariant_guarded hstep ⟨initial_sound entropy, hinit⟩ hrun
  exact fun c hc hnot ↦ awaitsStart hsound hcycles hevents hc hnot

section Runs

open Scenario

/-- The start of a skill is claimed before the session start of its generation arrives. -/
def skillBeforeStart : List Action :=
  [submit [plain "e2" 1 2 0 (started "d")], claim,
    submit [sessionStarted "e1" 1 "L1" 1]]

theorem manual_before_start :
    let w := after skillBeforeStart
    (∃ c ∈ w.db.cycles, c.status = .manual ∧
      ¬w.db.Reached c.gatewayId c.sessionId c.controlGeneration) ∧
    (∃ e ∈ w.db.events, e.eventType = .skillStarted ∧ e.status = .manual) ∧
    (∃ e ∈ w.db.events, e.eventType = .sessionStarted ∧ e.status = .pending) ∧
    w.db.claimCandidate worker.maxAttempts w.now [] = none := by
  unfold Db.Reached
  decide

/-- An observation arrives before the session start. -/
def observationBeforeStart : List Action :=
  [submit [observation "e2" 1 2 "L2" 2], claim, .tick 5,
    submit [sessionStarted "e1" 1 "L1" 1]]

theorem awaits_start_observationBeforeStart :
    ∃ c ∈ (after observationBeforeStart).db.cycles, c.status = .pending ∧
      (after observationBeforeStart).AwaitsStart Scenario.config c := by
  have hcycle : ∃ c ∈ (after observationBeforeStart).db.cycles, c.status = .pending ∧
      ¬(after observationBeforeStart).db.Reached c.gatewayId c.sessionId c.controlGeneration := by
    unfold Db.Reached
    decide
  obtain ⟨c, hc, hpending, hnot⟩ := hcycle
  exact ⟨c, hc, hpending, @awaits_start_of_run Scenario.config (fun _ ↦ 0) observationBeforeStart
    (by decide) c hc hnot⟩

end Runs

end World

end LlmGateway
