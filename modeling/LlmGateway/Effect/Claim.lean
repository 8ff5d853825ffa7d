import LlmGateway.Effect.Integrity

/-!
# The effects of a claim pass

A pass does one of four things with its candidate: it supersedes a stale one, gives up one
that came before its session start, or activates what has to be activated and hands the
candidate out.
-/

namespace LlmGateway

open Relational

variable {config : WorkerConfig} {now : ℕ} {P : Branch → Prop} {db : Db}

/-! ## The candidate -/

theorem mem_claimable {maxAttempts : ℕ} {j : Joined} :
    j ∈ db.claimable maxAttempts now ↔ db.Joins j ∧ j.Claimable maxAttempts now := by
  simp only [Db.claimable, List.mem_filter, mem_joinedEvents, decide_eq_true_eq]

theorem lockClaimCandidate_eq_some {maxAttempts : ℕ} {cycleId : Uuid} {j : Joined}
    (h : db.lockClaimCandidate maxAttempts now cycleId = some j) :
    (db.Joins j ∧ j.Claimable maxAttempts now) ∧ j.event.cycleId = cycleId := by
  have hmem := mem_orderBy.1 (List.mem_of_mem_head? h)
  simpa only [List.mem_filter, mem_claimable, decide_eq_true_eq] using hmem

theorem claimCandidate_eq_some {maxAttempts : ℕ} {busy : List Uuid} {j : Joined}
    (h : db.claimCandidate maxAttempts now busy = some j) :
    db.Joins j ∧ j.Claimable maxAttempts now := by
  obtain ⟨cycleId, -, hj⟩ := Option.bind_eq_some_iff.1 h
  exact (lockClaimCandidate_eq_some hj).1

/-! ## Rows after an activation -/

/-- The candidate, as it is joined after its generation was activated. -/
def Joined.activated (j : Joined) : Joined where
  event := j.event
  cycle := { j.cycle with status := .active }
  session := { j.session with
    currentGeneration := some j.event.controlGeneration
    fenceVersion := j.session.fenceVersion + 1
    status := .active }

theorem linked_activated {j : Joined} (h : db.Linked j) :
    (activateNew j db).Linked j.activated where
  event_mem := h.event_mem
  cycle_mem := by
    refine Table.set_mem_update (a := Db.setCycleStatus .active) ?_ h.cycle_id
    exact Table.mem_update_of_not h.cycle_mem fun hw ↦ hw.2.1 h.cycle_id
  session_mem := Table.set_mem_update h.session_mem rfl
  cycle_id := h.cycle_id
  session_id := h.session_id
  cycle_owns := h.cycle_owns
  session_owns := h.session_owns

/-- The candidate, as it is joined after its pending cycle was activated. -/
def Joined.opened (j : Joined) : Joined where
  event := j.event
  cycle := if j.cycle.status = .pending then { j.cycle with status := .active } else j.cycle
  session := if j.cycle.status = .pending ∧
      j.session.currentGeneration = some j.event.controlGeneration
    then { j.session with status := .active } else j.session

theorem Joined.opened_session_fenceVersion (j : Joined) :
    j.opened.session.fenceVersion = j.session.fenceVersion := by
  simp only [opened]
  split_ifs <;> rfl

theorem linked_opened {j : Joined} (h : db.Linked j) : (activatePending j db).Linked j.opened := by
  unfold activatePending Joined.opened
  by_cases hpending : j.cycle.status = .pending
  · simp only [hpending, if_true, true_and]
    have hcycle : { j.cycle with status := .active } ∈
        ((db.activateCycle j.event.cycleId).markRuntimeActive j.session.id
          j.event.controlGeneration).cycles :=
      Table.set_mem_update (a := Db.setCycleStatus .active) h.cycle_mem h.cycle_id
    by_cases hcurrent : j.session.currentGeneration = some j.event.controlGeneration
    · rw [if_pos hcurrent]
      exact ⟨⟨h.event_mem, hcycle, Table.set_mem_update h.session_mem ⟨rfl, hcurrent⟩,
        h.cycle_id, h.session_id⟩, h.cycle_owns, h.session_owns⟩
    · rw [if_neg hcurrent]
      exact ⟨⟨h.event_mem, hcycle, Table.mem_update_of_not h.session_mem fun hw ↦ hcurrent hw.2,
        h.cycle_id, h.session_id⟩, h.cycle_owns, h.session_owns⟩
  · simp only [hpending, false_and, if_false]
    exact h

/-! ## The pass -/

theorem handOut_effect {j : Joined} (workerId : String) (historical : Bool)
    (hlinked : db.Linked j) (hdue : j.event.Due config.maxAttempts now)
    (hreached : j.event.eventType.isHostedChat = true ∨
      ∃ g ∈ j.session.currentGeneration, j.event.controlGeneration ≤ g) (htaken : P .claim) :
    Effect config now P db
      (handOut config now workerId j j.session.fenceVersion historical db).2 :=
  .claim workerId hlinked hdue (hreached.imp_right hlinked.reached_iff.2) htaken

/-- A pass on a claimable candidate is a chain of effects. -/
theorem claimLocked_effects {j : Joined} (workerId : String) (hlinked : db.Linked j)
    (hclaimable : j.Claimable config.maxAttempts now)
    (hchat : j.event.eventType.isHostedChat = true → j.cycle.status = .pending →
      P (.chatActivation j))
    (hwait : j.disposition = .wait → P (.wait j))
    (hclaim : ∀ c, (claimLocked config now workerId j db).1 = .claimed c → P .claim) :
    Effects config now P db (claimLocked config now workerId j db).2 := by
  unfold claimLocked at hclaim ⊢
  rcases hdisp : j.disposition with _ | _ | _ | _ | _
  all_goals rw [hdisp] at hclaim
  case stale =>
    exact .single (.supersede hlinked (j.sequenced_of_disposition (by simp [hdisp]))
      (Or.inl ⟨hdisp, hclaimable⟩))
  case wait => exact .single (.wait hlinked hdisp hclaimable.2 (hwait hdisp))
  case activateNew =>
    refine .head (.activate hlinked hdisp) (.single ?_)
    exact handOut_effect (j := j.activated) workerId false (linked_activated hlinked)
      hclaimable.2 (Or.inr ⟨j.event.controlGeneration, rfl, le_refl _⟩) (hclaim _ rfl)
  case current =>
    refine .head (.activatePending hlinked hdisp hchat) (.single ?_)
    rw [← j.opened_session_fenceVersion]
    refine handOut_effect (j := j.opened) workerId false (linked_opened hlinked) hclaimable.2 ?_
      (hclaim _ rfl)
    rw [or_iff_not_imp_left, Bool.not_eq_true]
    intro hseq
    refine ⟨j.event.controlGeneration, ?_, le_refl _⟩
    have hcurrent := Joined.generation_of_current hdisp hseq
    simp only [Joined.opened]
    split_ifs
    · exact hcurrent
    · exact hcurrent
  case historicalRecovery =>
    obtain ⟨⟨g, hg, hlt⟩, -⟩ := Joined.generation_of_historicalRecovery hdisp
    exact .single (handOut_effect workerId true hlinked hclaimable.2 (Or.inr ⟨g, hg, hlt.le⟩)
      (hclaim _ rfl))

theorem claimPass_effects (hI : db.Integrity) (workerId : String) (busy : List Uuid)
    (hchat : ∀ j, db.claimCandidate config.maxAttempts now busy = some j →
      j.event.eventType.isHostedChat = true → j.cycle.status = .pending → P (.chatActivation j))
    (hwait : ∀ j, db.claimCandidate config.maxAttempts now busy = some j →
      j.disposition = .wait → P (.wait j))
    (hclaim : ∀ c, (claimPass config now workerId busy db).1 = .claimed c → P .claim) :
    Effects config now P db (claimPass config now workerId busy db).2 := by
  unfold claimPass at hclaim ⊢
  rcases hcandidate : db.claimCandidate config.maxAttempts now busy with _ | j
  · exact .refl
  · obtain ⟨hjoins, hclaimable⟩ := claimCandidate_eq_some hcandidate
    rw [hcandidate] at hclaim
    exact claimLocked_effects workerId (hI.linked hjoins) hclaimable (hchat j hcandidate)
      (hwait j hcandidate) hclaim

/-- A claim that is handed out describes its candidate, and only the row of the candidate is
claimed under the new token. -/
theorem claimPass_claimed {workerId : String} {busy : List Uuid} {c : ClaimedEvent}
    (h : (claimPass config now workerId busy db).1 = .claimed c) :
    ∃ j fence historical, db.claimCandidate config.maxAttempts now busy = some j ∧
      c = buildClaimedEvent config now workerId j db.nextUuid fence historical ∧
      (claimPass config now workerId busy db).2.events =
        (db.claimEvent config now workerId j.event.id db.nextUuid fence).events ∧
      (claimPass config now workerId busy db).2.issued = db.issued + 1 := by
  unfold claimPass at h ⊢
  rcases hcandidate : db.claimCandidate config.maxAttempts now busy with _ | j
  · rw [hcandidate] at h
    cases h
  · rw [hcandidate] at h
    simp only [claimLocked] at h ⊢
    rcases hdisp : j.disposition with _ | _ | _ | _ | _ <;> rw [hdisp] at h <;> cases h
    case some.activateNew.refl => exact ⟨j, _, _, rfl, rfl, rfl, rfl⟩
    case some.current.refl =>
      refine ⟨j, j.session.fenceVersion, false, rfl, ?_, ?_, ?_⟩
      · simp only [Db.nextUuid, activatePending_issued, activatePending_entropy]
      · simp only [handOut, Db.claimEvent, Db.updateEvents, Db.bumpUuid, Db.nextUuid,
          activatePending_events, activatePending_issued, activatePending_entropy]
      · simp only [handOut, Db.claimEvent, Db.updateEvents, Db.bumpUuid, activatePending_issued]
    case some.historicalRecovery.refl => exact ⟨j, _, _, rfl, rfl, rfl, rfl⟩

end LlmGateway
