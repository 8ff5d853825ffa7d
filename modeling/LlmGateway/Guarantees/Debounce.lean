import LlmGateway.Scheduler.Triggers

/-!
# The debounce key of the offline analysis

The calls set and delete the key without looking at what it holds, and a call that cancels deletes
it before it cancels the run, and cancels nothing if it finds a placeholder. As long as the calls
do not meet in these windows, the key keeps them apart.
-/

namespace LlmGateway

open Relational

namespace OfflineTriggers

variable {s : OfflineTriggers}

/-- The step overwrites or deletes a value of the key that is not its own: that is the placeholder
of a call that schedules, and the value that a call that cancels has read. -/
def Tramples (s : OfflineTriggers) : Action → Prop
  | .setRun call => s.schedules call = .storing ∧
      ∃ value ∈ s.debounceKey, value ≠ .placeholder call
  | .deletePlaceholder call => s.schedules call = .clearing ∧
      ∃ value ∈ s.debounceKey, value ≠ .placeholder call
  | .deleteKey call => ∃ read, s.cancels call = .deleting read ∧
      ∃ value ∈ s.debounceKey, value ≠ read
  | .setPlaceholder _ | .runDeployment .. | .getKey _ | .cancelRun _ => False

/-- At most one run is submitted and not cancelled, and a call that has cancelled leaves no run of
a finished call whose placeholder was set before. -/
structure Debounced (s : OfflineTriggers) : Prop where
  liveRuns : s.liveRuns.length ≤ 1
  cancelled : ∀ canceller, s.cancels canceller = .returned →
    ∀ call ∈ s.placedBefore canceller, (s.schedules call).isOver = true → call ∉ s.liveRuns

/-- No placeholder is set while a call still has to delete the key, and no run is submitted while a
call still has to cancel a live one; a call that cancels finds no placeholder, and if it finds
nothing, no other call still has to cancel a live run. -/
def Orderly (s : OfflineTriggers) : Action → Prop
  | .setPlaceholder _ => s.debounceKey = none → ∀ d value, s.cancels d ≠ .deleting value
  | .runDeployment _ accepted => accepted = true →
      ∀ d, ∀ run ∈ s.liveRuns, s.cancels d ≠ .cancelling run
  | .getKey _ => (∀ call, s.debounceKey ≠ some (.placeholder call)) ∧
      (s.debounceKey = none → ∀ d, ∀ run ∈ s.liveRuns, s.cancels d ≠ .cancelling run)
  | .setRun _ | .deletePlaceholder _ | .deleteKey _ | .cancelRun _ => True

/-- What holds between the calls as long as their steps are orderly. -/
structure Ordered (s : OfflineTriggers) : Prop where
  inFlight_iff : ∀ call, (s.schedules call).isInFlight = true ↔
    s.debounceKey = some (.placeholder call)
  deleting : ∀ d value, s.cancels d = .deleting value →
    (∃ run, value = .run run) ∧ (s.debounceKey = some value ∨ s.debounceKey = none)
  eq_of_key : ∀ run, s.debounceKey = some (.run run) → ∀ live ∈ s.liveRuns, live = run
  eq_of_storing : ∀ call, s.schedules call = .storing → ∀ live ∈ s.liveRuns, live = call
  pending : ∀ live ∈ s.liveRuns, s.schedules live = .storing ∨
    s.debounceKey = some (.run live) ∨ ∃ d, s.cancels d = .cancelling live
  eq_of_live : ∀ live ∈ s.liveRuns, ∀ other ∈ s.liveRuns, live = other
  nodup : s.liveRuns.Nodup
  returned : ∀ d, s.cancels d = .returned → ∀ call ∈ s.placedBefore d, call ∉ s.liveRuns
  ongoing : ∀ d run, s.cancels d = .deleting (.run run) ∨ s.cancels d = .cancelling run →
    ∀ call ∈ s.placedBefore d, call ∈ s.liveRuns → call = run
  finished : ∀ d, s.cancels d ≠ .ready → ∀ call ∈ s.placedBefore d, (s.schedules call).isOver = true
  placed : ∀ call ∈ s.placed, s.schedules call ≠ .ready

namespace Ordered

theorem initial : Ordered initial where
  inFlight_iff _ := iff_of_false Bool.false_ne_true (by simp [OfflineTriggers.initial])
  deleting _ _ h := by cases h
  eq_of_key _ h := by cases h
  eq_of_storing _ h := by cases h
  pending _ h := absurd h List.not_mem_nil
  eq_of_live _ h := absurd h List.not_mem_nil
  nodup := List.nodup_nil
  returned _ h := by cases h
  ongoing _ _ _ _ h := absurd h List.not_mem_nil
  finished _ h := absurd rfl h
  placed _ h := absurd h List.not_mem_nil

/-- The key stands for the only live run, if no call has yet to cancel one. -/
theorem liveRuns_eq_nil (h : s.Ordered) (hkey : ∀ run, s.debounceKey ≠ some (.run run))
    (hstoring : ∀ call, s.schedules call ≠ .storing)
    (hcancelling : ∀ d, ∀ run ∈ s.liveRuns, s.cancels d ≠ .cancelling run) : s.liveRuns = [] := by
  apply List.eq_nil_iff_forall_not_mem.2
  intro live hlive
  obtain hphase | hvalue | ⟨d, hd⟩ := h.pending live hlive
  · exact hstoring live hphase
  · exact hkey live hvalue
  · exact hcancelling d live hlive hd

theorem debounced (h : s.Ordered) : s.Debounced where
  liveRuns := by
    cases hruns : s.liveRuns with
    | nil => exact Nat.zero_le 1
    | cons live runs =>
      cases runs with
      | nil => exact le_rfl
      | cons other runs =>
        have hnodup := h.nodup
        rw [hruns] at hnodup
        have heq : live = other := h.eq_of_live live (by simp [hruns]) other (by simp [hruns])
        rw [heq] at hnodup
        exact absurd List.mem_cons_self (List.nodup_cons.1 hnodup).1
  cancelled d hd call hcall _ := h.returned d hd call hcall

theorem not_tramples (h : s.Ordered) (a : Action) : ¬s.Tramples a := by
  cases a with
  | setRun call =>
    rintro ⟨hphase, value, hvalue, hne⟩
    rw [(h.inFlight_iff call).1 (by rw [hphase]; rfl)] at hvalue
    exact hne (Option.some.inj hvalue).symm
  | deletePlaceholder call =>
    rintro ⟨hphase, value, hvalue, hne⟩
    rw [(h.inFlight_iff call).1 (by rw [hphase]; rfl)] at hvalue
    exact hne (Option.some.inj hvalue).symm
  | deleteKey call =>
    rintro ⟨read, hphase, value, hvalue, hne⟩
    obtain hkey | hkey := (h.deleting call read hphase).2
    · rw [hkey] at hvalue
      exact hne (Option.some.inj hvalue).symm
    · rw [hkey] at hvalue
      exact absurd hvalue (Option.not_mem_none _)
  | setPlaceholder | runDeployment | getKey | cancelRun => exact not_false

theorem isInFlight_eq_false (h : s.Ordered) (hkey : ∀ call, s.debounceKey ≠ some (.placeholder call))
    (call : ℕ) : (s.schedules call).isInFlight = false :=
  Bool.eq_false_of_not_eq_true fun hflight ↦ hkey call ((h.inFlight_iff call).1 hflight)

theorem ne_storing (h : s.Ordered) {call : ℕ} (hkey : s.debounceKey ≠ some (.placeholder call)) :
    s.schedules call ≠ .storing := fun hphase ↦
  hkey ((h.inFlight_iff call).1 (by rw [hphase]; rfl))

end Ordered

/-! ## The phases of the calls -/

theorem setPhase_of_ne {call c : ℕ} (hne : c ≠ call) (phase : SchedulePhase) :
    (s.setPhase call phase).schedules c = s.schedules c := by
  simp only [setPhase, Function.update_of_ne hne]

theorem setPhase_self (call : ℕ) (phase : SchedulePhase) :
    (s.setPhase call phase).schedules call = phase := by
  simp only [setPhase, Function.update_self]

theorem setCancel_of_ne {call c : ℕ} (hne : c ≠ call) (phase : CancelPhase) :
    (s.setCancel call phase).cancels c = s.cancels c := by
  simp only [setCancel, Function.update_of_ne hne]

theorem setCancel_self (call : ℕ) (phase : CancelPhase) :
    (s.setCancel call phase).cancels call = phase := by
  simp only [setCancel, Function.update_self]

/-- The calls that are over stay so. -/
theorem isOver_setPhase {call : ℕ} (hcall : (s.schedules call).isOver = false)
    (phase : SchedulePhase) {c : ℕ} (hc : (s.schedules c).isOver = true) :
    ((s.setPhase call phase).schedules c).isOver = true := by
  have hne : c ≠ call := fun heq ↦ by
    rw [heq, hcall] at hc
    cases hc
  rw [setPhase_of_ne hne]
  exact hc

theorem setPhase_ne_ready {call : ℕ} {phase : SchedulePhase} (hphase : phase ≠ .ready) {c : ℕ}
    (hc : s.schedules c ≠ .ready) : (s.setPhase call phase).schedules c ≠ .ready := by
  by_cases heq : c = call
  · rw [heq, setPhase_self]
    exact hphase
  · rw [setPhase_of_ne heq]
    exact hc

/-- A call that stays in flight, or out of it, leaves the key to the same call. -/
theorem isInFlight_setPhase {call : ℕ} {phase : SchedulePhase}
    (hsame : phase.isInFlight = (s.schedules call).isInFlight) (c : ℕ) :
    ((s.setPhase call phase).schedules c).isInFlight = (s.schedules c).isInFlight := by
  by_cases heq : c = call
  · rw [heq, setPhase_self, hsame]
  · rw [setPhase_of_ne heq]

theorem setPhase_eq_storing {call : ℕ} {phase : SchedulePhase} (hphase : phase ≠ .storing) {c : ℕ}
    (hc : (s.setPhase call phase).schedules c = .storing) : s.schedules c = .storing := by
  by_cases heq : c = call
  · rw [heq, setPhase_self] at hc
    exact absurd hc hphase
  · rwa [setPhase_of_ne heq] at hc

namespace Ordered

/-! ## The steps of a call that schedules -/

theorem setPlaceholder (h : s.Ordered) {call : ℕ} (hready : s.schedules call = .ready)
    (hkey : s.debounceKey = none) (hdeleting : ∀ d value, s.cancels d ≠ .deleting value) :
    Ordered { s.setPhase call .submitting with
      debounceKey := some (.placeholder call)
      placed := s.placed ++ [call] } where
  inFlight_iff c := by
    have hidle := h.isInFlight_eq_false (by simp [hkey]) c
    change ((s.setPhase call .submitting).schedules c).isInFlight = true ↔ _
    by_cases heq : c = call
    · rw [heq, setPhase_self]
      exact iff_of_true rfl rfl
    · rw [setPhase_of_ne heq, hidle]
      refine iff_of_false Bool.false_ne_true fun hvalue ↦ heq ?_
      cases hvalue
      rfl
  deleting d value hd := absurd hd (hdeleting d value)
  eq_of_key _ hvalue := by cases hvalue
  eq_of_storing c hphase := by
    have hstoring := setPhase_eq_storing SchedulePhase.noConfusion hphase
    exact absurd hstoring (h.ne_storing (by simp [hkey]))
  pending live hlive := by
    obtain hphase | hvalue | hcancelling := h.pending live hlive
    · exact absurd hphase (h.ne_storing (by simp [hkey]))
    · rw [hkey] at hvalue
      cases hvalue
    · exact Or.inr (Or.inr hcancelling)
  eq_of_live := h.eq_of_live
  nodup := h.nodup
  returned := h.returned
  ongoing := h.ongoing
  finished d hd c hc := isOver_setPhase (by rw [hready]; rfl) _ (h.finished d hd c hc)
  placed c hc := by
    obtain hold | hnew := List.mem_append.1 hc
    · exact setPhase_ne_ready SchedulePhase.noConfusion (h.placed c hold)
    · rw [List.mem_singleton.1 hnew]
      exact (setPhase_self call _).trans_ne SchedulePhase.noConfusion

/-- The phase of a call changes, but not whether it is in flight, and it is not storing. -/
theorem setPhase (h : s.Ordered) {call : ℕ} {phase : SchedulePhase}
    (hover : (s.schedules call).isOver = false) (hstoring : s.schedules call ≠ .storing)
    (hsame : phase.isInFlight = (s.schedules call).isInFlight) (hready : phase ≠ .ready)
    (hphase : phase ≠ .storing) : (s.setPhase call phase).Ordered where
  inFlight_iff c := by
    rw [isInFlight_setPhase hsame]
    exact h.inFlight_iff c
  deleting := h.deleting
  eq_of_key := h.eq_of_key
  eq_of_storing c hc := h.eq_of_storing c (setPhase_eq_storing hphase hc)
  pending live hlive := by
    obtain hlivePhase | hrest := h.pending live hlive
    · have hne : live ≠ call := fun heq ↦ hstoring (heq ▸ hlivePhase)
      exact Or.inl ((setPhase_of_ne hne phase).trans hlivePhase)
    · exact Or.inr hrest
  eq_of_live := h.eq_of_live
  nodup := h.nodup
  returned := h.returned
  ongoing := h.ongoing
  finished d hd c hc := isOver_setPhase hover phase (h.finished d hd c hc)
  placed c hc := setPhase_ne_ready hready (h.placed c hc)

/-- A run is submitted while no other one is live. -/
theorem runDeployment (h : s.Ordered) {call : ℕ} (hphase : s.schedules call = .submitting)
    (hcancelling : ∀ d, ∀ run ∈ s.liveRuns, s.cancels d ≠ .cancelling run) :
    Ordered { s.setPhase call .storing with liveRuns := s.liveRuns ++ [call] } := by
  have hkey := (h.inFlight_iff call).1 (by rw [hphase]; rfl)
  have hruns : s.liveRuns = [] := by
    apply h.liveRuns_eq_nil (by simp [hkey]) _ hcancelling
    intro c hc
    have hother := (h.inFlight_iff c).1 (by rw [hc]; rfl)
    rw [hkey] at hother
    cases hother
    rw [hphase] at hc
    cases hc
  have hover : (s.schedules call).isOver = false := by rw [hphase]; rfl
  rw [hruns]
  constructor
  · intro c
    change ((s.setPhase call .storing).schedules c).isInFlight = true ↔ _
    rw [isInFlight_setPhase (by rw [hphase]; rfl)]
    exact h.inFlight_iff c
  · exact h.deleting
  · intro run hvalue
    change s.debounceKey = _ at hvalue
    rw [hkey] at hvalue
    cases hvalue
  · intro c hc live hlive
    rw [List.mem_singleton.1 hlive]
    by_contra hne
    have hstoring : s.schedules c = .storing := (setPhase_of_ne (Ne.symm hne) _).symm.trans hc
    have hother := (h.inFlight_iff c).1 (by rw [hstoring]; rfl)
    rw [hkey] at hother
    cases hother
    exact hne rfl
  · intro live hlive
    rw [List.mem_singleton.1 hlive]
    exact Or.inl (setPhase_self call _)
  · intro live hlive other hother
    rw [List.mem_singleton.1 hlive, List.mem_singleton.1 hother]
  · exact List.nodup_cons.2 ⟨List.not_mem_nil, List.nodup_nil⟩
  · intro d hd c hc hlive
    have hcover := h.finished d (hd.trans_ne CancelPhase.noConfusion) c hc
    rw [List.mem_singleton.1 hlive, hover] at hcover
    cases hcover
  · intro d run hd c hc hlive
    have hready : s.cancels d ≠ .ready := by
      obtain hd | hd := hd
      · exact hd.trans_ne CancelPhase.noConfusion
      · exact hd.trans_ne CancelPhase.noConfusion
    have hcover := h.finished d hready c hc
    rw [List.mem_singleton.1 hlive, hover] at hcover
    cases hcover
  · exact fun d hd c hc ↦ isOver_setPhase hover _ (h.finished d hd c hc)
  · exact fun c hc ↦ setPhase_ne_ready SchedulePhase.noConfusion (h.placed c hc)

/-- The run takes the place of the placeholder. -/
theorem setRun (h : s.Ordered) {call : ℕ} (hphase : s.schedules call = .storing) :
    Ordered { s.setPhase call .scheduled with debounceKey := some (.run call) } := by
  have hkey := (h.inFlight_iff call).1 (by rw [hphase]; rfl)
  constructor
  · intro c
    change ((s.setPhase call .scheduled).schedules c).isInFlight = true ↔ _
    refine iff_of_false (fun hflight ↦ ?_) fun hvalue ↦ by cases hvalue
    by_cases heq : c = call
    · rw [heq, setPhase_self] at hflight
      cases hflight
    · rw [setPhase_of_ne heq, h.inFlight_iff, hkey] at hflight
      cases hflight
      exact heq rfl
  · intro d value hd
    obtain hvalue | hvalue := (h.deleting d value hd).2
    · obtain ⟨run, hrun⟩ := (h.deleting d value hd).1
      rw [hkey, hrun] at hvalue
      cases hvalue
    · rw [hkey] at hvalue
      cases hvalue
  · intro run hvalue live hlive
    cases hvalue
    exact h.eq_of_storing call hphase live hlive
  · intro c hc
    have hstoring := setPhase_eq_storing SchedulePhase.noConfusion hc
    have hother := (h.inFlight_iff c).1 (by rw [hstoring]; rfl)
    rw [hkey] at hother
    cases hother
    exact absurd ((setPhase_self call .scheduled).symm.trans hc) SchedulePhase.noConfusion
  · intro live hlive
    exact Or.inr (Or.inl (by rw [h.eq_of_storing call hphase live hlive]))
  · exact h.eq_of_live
  · exact h.nodup
  · exact h.returned
  · exact h.ongoing
  · exact fun d hd c hc ↦ isOver_setPhase (by rw [hphase]; rfl) _ (h.finished d hd c hc)
  · exact fun c hc ↦ setPhase_ne_ready SchedulePhase.noConfusion (h.placed c hc)

/-- The placeholder is deleted after a failure. -/
theorem deletePlaceholder (h : s.Ordered) {call : ℕ} (hphase : s.schedules call = .clearing) :
    Ordered { s.setPhase call .failed with debounceKey := none } := by
  have hkey := (h.inFlight_iff call).1 (by rw [hphase]; rfl)
  have hstoring : ∀ c, s.schedules c ≠ .storing := fun c hc ↦ by
    have hother := (h.inFlight_iff c).1 (by rw [hc]; rfl)
    rw [hkey] at hother
    cases hother
    rw [hphase] at hc
    cases hc
  constructor
  · intro c
    change ((s.setPhase call .failed).schedules c).isInFlight = true ↔ _
    refine iff_of_false (fun hflight ↦ ?_) fun hvalue ↦ by cases hvalue
    by_cases heq : c = call
    · rw [heq, setPhase_self] at hflight
      cases hflight
    · rw [setPhase_of_ne heq, h.inFlight_iff, hkey] at hflight
      cases hflight
      exact heq rfl
  · exact fun d value hd ↦ ⟨(h.deleting d value hd).1, Or.inr rfl⟩
  · intro run hvalue
    cases hvalue
  · exact fun c hc ↦ absurd (setPhase_eq_storing SchedulePhase.noConfusion hc) (hstoring c)
  · intro live hlive
    obtain hlivePhase | hvalue | hcancelling := h.pending live hlive
    · exact absurd hlivePhase (hstoring live)
    · rw [hkey] at hvalue
      cases hvalue
    · exact Or.inr (Or.inr hcancelling)
  · exact h.eq_of_live
  · exact h.nodup
  · exact h.returned
  · exact h.ongoing
  · exact fun d hd c hc ↦ isOver_setPhase (by rw [hphase]; rfl) _ (h.finished d hd c hc)
  · exact fun c hc ↦ setPhase_ne_ready SchedulePhase.noConfusion (h.placed c hc)

/-! ## The steps of a call that cancels -/

/-- The calls whose placeholder was set are over if no call is in flight. -/
theorem isOver_of_placed (h : s.Ordered)
    (hkey : ∀ call, s.debounceKey ≠ some (.placeholder call)) {c : ℕ} (hc : c ∈ s.placed) :
    (s.schedules c).isOver = true := by
  have hidle := h.isInFlight_eq_false hkey c
  have hready := h.placed c hc
  cases hphase : s.schedules c with
  | ready => exact absurd hphase hready
  | submitting | storing | clearing =>
    rw [hphase] at hidle
    cases hidle
  | refused | scheduled | failed => rfl

/-- A call reads the key, which holds no placeholder. -/
theorem startCancel (h : s.Ordered) {call : ℕ} {phase : CancelPhase}
    (hkey : ∀ c, s.debounceKey ≠ some (.placeholder c)) (hready : s.cancels call = .ready)
    (hphase : (phase = .returned ∧ s.liveRuns = []) ∨
      ∃ run, phase = .deleting (.run run) ∧ s.debounceKey = some (.run run)) :
    (s.startCancel call phase).Ordered := by
  have hold {d : ℕ} (hne : d ≠ call) : (s.startCancel call phase).cancels d = s.cancels d :=
    setCancel_of_ne hne phase
  have hbefore {d : ℕ} (hne : d ≠ call) :
      (s.startCancel call phase).placedBefore d = s.placedBefore d := by
    simp only [OfflineTriggers.startCancel, Function.update_of_ne hne]
  have hself : (s.startCancel call phase).cancels call = phase := setCancel_self call phase
  constructor
  · exact h.inFlight_iff
  · intro d value hd
    by_cases heq : d = call
    · rw [heq, hself] at hd
      obtain ⟨hreturned, -⟩ | ⟨run, hdeleting, hvalue⟩ := hphase
      · rw [hreturned] at hd
        cases hd
      · rw [hdeleting] at hd
        cases hd
        exact ⟨⟨run, rfl⟩, Or.inl hvalue⟩
    · rw [hold heq] at hd
      exact h.deleting d value hd
  · exact h.eq_of_key
  · exact h.eq_of_storing
  · intro live hlive
    obtain hlivePhase | hvalue | ⟨d, hd⟩ := h.pending live hlive
    · exact Or.inl hlivePhase
    · exact Or.inr (Or.inl hvalue)
    · have hne : d ≠ call := fun heq ↦ by
        rw [heq, hready] at hd
        cases hd
      exact Or.inr (Or.inr ⟨d, (hold hne).trans hd⟩)
  · exact h.eq_of_live
  · exact h.nodup
  · intro d hd c hc
    by_cases heq : d = call
    · rw [heq, hself] at hd
      obtain ⟨-, hnil⟩ | ⟨run, hdeleting, -⟩ := hphase
      · change c ∉ s.liveRuns
        rw [hnil]
        exact List.not_mem_nil
      · rw [hdeleting] at hd
        cases hd
    · rw [hold heq] at hd
      rw [hbefore heq] at hc
      exact h.returned d hd c hc
  · intro d run hd c hc hlive
    by_cases heq : d = call
    · rw [heq, hself] at hd
      obtain ⟨hreturned, -⟩ | ⟨run', hdeleting, hvalue⟩ := hphase
      · rw [hreturned] at hd
        simp at hd
      · rw [hdeleting] at hd
        simp only [CancelPhase.deleting.injEq, DebounceValue.run.injEq, reduceCtorEq, or_false] at hd
        rw [← hd]
        exact h.eq_of_key run' hvalue c hlive
    · rw [hold heq] at hd
      rw [hbefore heq] at hc
      exact h.ongoing d run hd c hc hlive
  · intro d hd c hc
    by_cases heq : d = call
    · rw [heq] at hc
      simp only [OfflineTriggers.startCancel, Function.update_self] at hc
      exact h.isOver_of_placed hkey hc
    · rw [hold heq] at hd
      rw [hbefore heq] at hc
      exact h.finished d hd c hc
  · exact h.placed

/-- The key is deleted; the run is still to be cancelled. -/
theorem deleteKey (h : s.Ordered) {call run : ℕ} (hphase : s.cancels call = .deleting (.run run)) :
    Ordered { s.setCancel call (.cancelling run) with debounceKey := none } := by
  have hkey := (h.deleting call _ hphase).2
  have hnone : ∀ c, s.debounceKey ≠ some (.placeholder c) := fun c hc ↦ by
    obtain hvalue | hvalue := hkey
    all_goals
      rw [hvalue] at hc
      cases hc
  have hbusy {d : ℕ} : (s.setCancel call (.cancelling run)).cancels d ≠ .ready →
      s.cancels d ≠ .ready := by
    intro hd hready
    have hne : d ≠ call := fun heq ↦ by
      rw [heq, hphase] at hready
      cases hready
    rw [setCancel_of_ne hne] at hd
    exact hd hready
  constructor
  · intro c
    refine iff_of_false ?_ fun hvalue ↦ by cases hvalue
    exact Bool.eq_false_iff.1 (h.isInFlight_eq_false hnone c)
  · intro d value hd
    have hne : d ≠ call := fun heq ↦ by
      rw [heq] at hd
      exact absurd ((setCancel_self call _).symm.trans hd) CancelPhase.noConfusion
    have hdeleting : s.cancels d = .deleting value := (setCancel_of_ne hne _).symm.trans hd
    exact ⟨(h.deleting d value hdeleting).1, Or.inr rfl⟩
  · intro live hvalue
    cases hvalue
  · exact fun c hc ↦ absurd hc (h.ne_storing (hnone c))
  · intro live hlive
    obtain hlivePhase | hvalue | ⟨d, hd⟩ := h.pending live hlive
    · exact absurd hlivePhase (h.ne_storing (hnone live))
    · obtain hrun | hrun := hkey
      · rw [hrun] at hvalue
        cases hvalue
        exact Or.inr (Or.inr ⟨call, setCancel_self call _⟩)
      · rw [hrun] at hvalue
        cases hvalue
    · have hne : d ≠ call := fun heq ↦ by
        rw [heq, hphase] at hd
        cases hd
      exact Or.inr (Or.inr ⟨d, (setCancel_of_ne hne _).trans hd⟩)
  · exact h.eq_of_live
  · exact h.nodup
  · intro d hd
    have hne : d ≠ call := fun heq ↦ by
      rw [heq] at hd
      exact absurd ((setCancel_self call _).symm.trans hd) CancelPhase.noConfusion
    exact h.returned d ((setCancel_of_ne hne _).symm.trans hd)
  · intro d run' hd
    by_cases heq : d = call
    · have hrun : run = run' := by
        rw [heq] at hd
        change (s.setCancel call (.cancelling run)).cancels call = _ ∨
          (s.setCancel call (.cancelling run)).cancels call = _ at hd
        rw [setCancel_self] at hd
        simpa using hd
      rw [heq, ← hrun]
      exact h.ongoing call run (Or.inl hphase)
    · change (s.setCancel call (.cancelling run)).cancels d = _ ∨
        (s.setCancel call (.cancelling run)).cancels d = _ at hd
      rw [setCancel_of_ne heq] at hd
      exact h.ongoing d run' hd
  · exact fun d hd ↦ h.finished d (hbusy hd)
  · exact h.placed

/-- The run is cancelled. -/
theorem cancelRun (h : s.Ordered) {call run : ℕ} (hphase : s.cancels call = .cancelling run) :
    Ordered { s.setCancel call .returned with liveRuns := s.liveRuns.erase run } := by
  have hsub {c : ℕ} (hc : c ∈ s.liveRuns.erase run) : c ∈ s.liveRuns := List.mem_of_mem_erase hc
  have hgone {c : ℕ} (hc : c ∈ s.liveRuns.erase run) : c ≠ run :=
    ((h.nodup.mem_erase_iff).1 hc).1
  constructor
  · exact h.inFlight_iff
  · intro d value hd
    have hne : d ≠ call := fun heq ↦ by
      rw [heq] at hd
      exact absurd ((setCancel_self call _).symm.trans hd) CancelPhase.noConfusion
    exact h.deleting d value ((setCancel_of_ne hne _).symm.trans hd)
  · exact fun run' hvalue live hlive ↦ h.eq_of_key run' hvalue live (hsub hlive)
  · exact fun c hc live hlive ↦ h.eq_of_storing c hc live (hsub hlive)
  · intro live hlive
    obtain hlivePhase | hvalue | ⟨d, hd⟩ := h.pending live (hsub hlive)
    · exact Or.inl hlivePhase
    · exact Or.inr (Or.inl hvalue)
    · have hne : d ≠ call := fun heq ↦ by
        rw [heq, hphase] at hd
        cases hd
        exact hgone hlive rfl
      exact Or.inr (Or.inr ⟨d, (setCancel_of_ne hne _).trans hd⟩)
  · exact fun live hlive other hother ↦ h.eq_of_live live (hsub hlive) other (hsub hother)
  · exact h.nodup.erase run
  · intro d hd c hc hlive
    by_cases heq : d = call
    · rw [heq] at hc
      exact hgone hlive (h.ongoing call run (Or.inr hphase) c hc (hsub hlive))
    · exact h.returned d ((setCancel_of_ne heq _).symm.trans hd) c hc (hsub hlive)
  · intro d run' hd c hc hlive
    have hne : d ≠ call := fun heq ↦ by
      change (s.setCancel call .returned).cancels d = _ ∨
        (s.setCancel call .returned).cancels d = _ at hd
      rw [heq, setCancel_self] at hd
      simp at hd
    change (s.setCancel call .returned).cancels d = _ ∨
      (s.setCancel call .returned).cancels d = _ at hd
    rw [setCancel_of_ne hne] at hd
    exact h.ongoing d run' hd c hc (hsub hlive)
  · intro d hd
    by_cases heq : d = call
    · exact h.finished d (by rw [heq, hphase]; exact CancelPhase.noConfusion)
    · exact h.finished d ((setCancel_of_ne heq _).symm.trans_ne hd)
  · exact h.placed

/-! ## Runs -/

theorem exec (h : s.Ordered) {a : Action} (hguard : s.Orderly a) : (s.exec a).Ordered := by
  cases a with
  | setPlaceholder call =>
    simp only [OfflineTriggers.exec]
    split_ifs with hready hkey
    · exact h.setPlaceholder hready hkey (hguard hkey)
    · exact h.setPhase (by rw [hready]; rfl) (by rw [hready]; exact SchedulePhase.noConfusion)
        (by rw [hready]; rfl) SchedulePhase.noConfusion SchedulePhase.noConfusion
    · exact h
  | runDeployment call accepted =>
    simp only [OfflineTriggers.exec]
    split_ifs with hphase haccepted
    · exact h.runDeployment hphase (hguard haccepted)
    · exact h.setPhase (by rw [hphase]; rfl) (by rw [hphase]; exact SchedulePhase.noConfusion)
        (by rw [hphase]; rfl) SchedulePhase.noConfusion SchedulePhase.noConfusion
    · exact h
  | setRun call =>
    simp only [OfflineTriggers.exec]
    split_ifs with hphase
    · exact h.setRun hphase
    · exact h
  | deletePlaceholder call =>
    simp only [OfflineTriggers.exec]
    split_ifs with hphase
    · exact h.deletePlaceholder hphase
    · exact h
  | getKey call =>
    obtain ⟨hplaceholder, hcancelling⟩ := hguard
    simp only [OfflineTriggers.exec]
    split_ifs with hready
    · split
      · rename_i hkey
        have hruns := h.liveRuns_eq_nil (by simp [hkey]) (fun c ↦ h.ne_storing (hplaceholder c))
          (hcancelling hkey)
        exact h.startCancel hplaceholder hready (Or.inl ⟨rfl, hruns⟩)
      · rename_i value hkey
        cases value with
        | placeholder c => exact absurd hkey (hplaceholder c)
        | run run => exact h.startCancel hplaceholder hready (Or.inr ⟨run, rfl, hkey⟩)
    · exact h
  | deleteKey call =>
    simp only [OfflineTriggers.exec]
    split
    · rename_i c hphase
      obtain ⟨run, hrun⟩ := (h.deleting call _ hphase).1
      cases hrun
    · rename_i run hphase
      exact h.deleteKey hphase
    · exact h
  | cancelRun call =>
    simp only [OfflineTriggers.exec]
    split
    · rename_i run hphase
      exact h.cancelRun hphase
    · exact h

end Ordered

/-- In every order of steps that are orderly, no call overwrites or deletes a value of the key that
is not its own, and the runs are debounced. -/
theorem debounced_of_orderly (actions : List Action) (h : Guarded exec Orderly initial actions) :
    Guarded exec (fun s a ↦ ¬s.Tramples a) initial actions ∧
      ∀ taken, taken <+: actions → (run exec initial taken).Debounced := by
  constructor
  · exact guarded_of_guarded (fun _ _ hs ha ↦ hs.exec ha) (fun _ a hs _ ↦ hs.not_tramples a)
      Ordered.initial h
  · rintro taken ⟨later, rfl⟩
    have hordered : (run exec initial taken).Ordered :=
      invariant_guarded (fun _ _ hs ha ↦ hs.exec ha) Ordered.initial (guarded_append.1 h).1
    exact hordered.debounced

/-- A run is scheduled and cancelled. -/
def scheduledAndCancelled : List Action :=
  [.setPlaceholder 0, .runDeployment 0 true, .setRun 0, .getKey 0, .deleteKey 0, .cancelRun 0]

theorem debounced_of_scheduledAndCancelled :
    Guarded exec (fun s a ↦ ¬s.Tramples a) initial scheduledAndCancelled ∧
      ∀ taken, taken <+: scheduledAndCancelled → (run exec initial taken).Debounced := by
  apply debounced_of_orderly
  simp [scheduledAndCancelled, Guarded, Orderly, exec, initial, setPhase]

/-- A call that cancels finds the placeholder of one call and deletes it, so that another call
submits a run too; the first one overwrites its key, and its own run is not cancelled. -/
def cancelledEarly : List Action :=
  [.setPlaceholder 0, .getKey 0, .deleteKey 0, .setPlaceholder 1, .runDeployment 0 true,
    .runDeployment 1 true, .setRun 1]

theorem not_debounced_cancelledEarly :
    (run exec initial cancelledEarly).Tramples (.setRun 0) ∧
      (run exec initial cancelledEarly).liveRuns = [0, 1] ∧
      (run exec initial cancelledEarly).cancels 0 = .returned ∧
      0 ∈ (run exec initial cancelledEarly).placedBefore 0 ∧
      ¬(run exec initial (cancelledEarly ++ [.setRun 0])).Debounced := by
  refine ⟨⟨rfl, .run 1, rfl, DebounceValue.noConfusion⟩, rfl, rfl, List.mem_cons_self, fun h ↦ ?_⟩
  exact h.cancelled 0 rfl 0 List.mem_cons_self rfl List.mem_cons_self

end OfflineTriggers

end LlmGateway
