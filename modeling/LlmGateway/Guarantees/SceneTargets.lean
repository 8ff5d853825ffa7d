import LlmGateway.Planner.TargetAllocator
import LlmGateway.Relational.Transition

/-!
# Targets of one window

While a window is kept, the targets of its events are apart, and an event gets its target again.
A call for a window that is newer than the retention admits forgets the window, and an event that
is asked for in another window keeps the target of the first one.
-/

namespace LlmGateway

open Relational (run)

namespace SceneTargetAllocator

variable {κ : Type} [DecidableEq κ] {settings : AllocatorSettings}
  {comparisonKey : List (Text × Json) → κ} {allocator : SceneTargetAllocator κ}
  {call : AllocateCall}

section Serving

/-- The allocator after the cleanup that the call begins with. -/
def kept (settings : AllocatorSettings) (allocator : SceneTargetAllocator κ)
    (call : AllocateCall) : SceneTargetAllocator κ :=
  allocator.cleanup settings (call.windowKey settings).windowIndex

/-- The target that the call selects, if its event has none. -/
def selected (settings : AllocatorSettings) (comparisonKey : List (Text × Json) → κ)
    (allocator : SceneTargetAllocator κ) (call : AllocateCall) : Option SceneTarget :=
  select comparisonKey call
    (((kept settings allocator call).windows (call.windowKey settings)).getD ∅)

theorem allocate_of_some (hvalid : call.Valid) {previous : WindowKey × Option SceneTarget}
    (h : (kept settings allocator call).eventResults call.eventKey = some previous) :
    allocator.allocate settings comparisonKey call =
      .ok (previous.2, kept settings allocator call) := by
  unfold kept at h ⊢
  unfold allocate
  rw [show call.check = .ok () from hvalid]
  simp only [bind, Except.bind, h]
  rfl

theorem allocate_of_none (hvalid : call.Valid)
    (h : (kept settings allocator call).eventResults call.eventKey = none) :
    allocator.allocate settings comparisonKey call =
      .ok (selected settings comparisonKey allocator call,
        (kept settings allocator call).reserve comparisonKey (call.windowKey settings) call.eventKey
          (selected settings comparisonKey allocator call)) := by
  unfold selected
  unfold kept at h ⊢
  unfold allocate
  rw [show call.check = .ok () from hvalid]
  simp only [bind, Except.bind, h]
  rfl

theorem serve_of_not_valid (h : ¬call.Valid) :
    allocator.serve settings comparisonKey call = allocator := by
  unfold serve allocate
  cases hcheck : call.check with
  | error message => rfl
  | ok => exact absurd hcheck h

theorem valid_of_answer {target : Option SceneTarget}
    (h : allocator.answer settings comparisonKey call = .ok target) : call.Valid := by
  unfold answer allocate at h
  cases hcheck : call.check with
  | error message =>
    rw [hcheck] at h
    cases h
  | ok => exact hcheck

end Serving

/-- The claimed coordinates of a window are those of the targets of its events, and no two of
these are the same. -/
structure Apart (comparisonKey : List (Text × Json) → κ) (allocator : SceneTargetAllocator κ) :
    Prop where
  claimed : ∀ key window target, allocator.eventResults key = some (window, some target) →
    comparisonKey target.coordinates ∈ (allocator.windows window).getD ∅
  apart : ∀ key other window target otherTarget,
    allocator.eventResults key = some (window, some target) →
    allocator.eventResults other = some (window, some otherTarget) → key ≠ other →
    comparisonKey target.coordinates ≠ comparisonKey otherTarget.coordinates

omit [DecidableEq κ] in
theorem eventResults_kept {key : AllocationKey} {result : WindowKey × Option SceneTarget} :
    (kept settings allocator call).eventResults key = some result ↔
      allocator.eventResults key = some result ∧ (call.windowKey settings).windowIndex -
        settings.retentionWindows ≤ result.1.windowIndex := by
  simp only [kept, cleanup, Option.filter_eq_some_iff, decide_eq_true_eq, not_lt]

omit [DecidableEq κ] in
theorem windows_kept {window : WindowKey} (h : (call.windowKey settings).windowIndex -
    settings.retentionWindows ≤ window.windowIndex) :
    (kept settings allocator call).windows window = allocator.windows window := by
  simp only [kept, cleanup, if_neg (not_lt.2 h)]

omit [DecidableEq κ] in
theorem Apart.kept (h : Apart comparisonKey allocator) :
    Apart comparisonKey (kept settings allocator call) := by
  constructor
  · intro key window target hresult
    obtain ⟨hresult, hindex⟩ := eventResults_kept.1 hresult
    rw [windows_kept hindex]
    exact h.claimed key window target hresult
  · intro key other window target otherTarget hresult hother hne
    exact h.apart key other window target otherTarget (eventResults_kept.1 hresult).1
      (eventResults_kept.1 hother).1 hne

/-- A target whose coordinates are not claimed in the window keeps the targets apart. -/
theorem Apart.reserve (h : Apart comparisonKey allocator) {window : WindowKey}
    {key : AllocationKey} {selected : Option SceneTarget}
    (hnew : allocator.eventResults key = none)
    (hselected : ∀ target ∈ selected,
      comparisonKey target.coordinates ∉ (allocator.windows window).getD ∅) :
    Apart comparisonKey (allocator.reserve comparisonKey window key selected) := by
  have hgrows : ∀ other, (allocator.windows other).getD ∅ ⊆
      ((allocator.reserve comparisonKey window key selected).windows other).getD ∅ := by
    intro other
    by_cases heq : other = window
    · subst heq
      simp only [SceneTargetAllocator.reserve, Function.update_self, Option.getD_some]
      cases selected with
      | none => exact Finset.Subset.refl _
      | some target => exact Finset.subset_insert _ _
    · simp only [SceneTargetAllocator.reserve, Function.update_of_ne heq]
      exact Finset.Subset.refl _
  have hresults : ∀ {other result},
      (allocator.reserve comparisonKey window key selected).eventResults other = some result →
      other = key ∧ (window, selected) = result ∨
        other ≠ key ∧ allocator.eventResults other = some result := by
    intro other result hresult
    by_cases heq : other = key
    · subst heq
      simp only [SceneTargetAllocator.reserve, Function.update_self, Option.some.injEq] at hresult
      exact Or.inl ⟨rfl, hresult⟩
    · simp only [SceneTargetAllocator.reserve, Function.update_of_ne heq] at hresult
      exact Or.inr ⟨heq, hresult⟩
  constructor
  · intro other otherWindow target hresult
    obtain ⟨-, heq⟩ | ⟨-, hresult⟩ := hresults hresult
    · obtain ⟨rfl, rfl⟩ := Prod.mk.injEq .. ▸ heq
      simp only [SceneTargetAllocator.reserve, Function.update_self, Option.getD_some]
      exact Finset.mem_insert_self _ _
    · exact hgrows otherWindow (h.claimed other otherWindow target hresult)
  · intro first second otherWindow target otherTarget hfirst hsecond hne
    obtain ⟨rfl, heq⟩ | ⟨-, hbefore⟩ := hresults hfirst
    · obtain ⟨rfl, rfl⟩ := Prod.mk.injEq .. ▸ heq
      obtain ⟨rfl, -⟩ | ⟨-, hsecond⟩ := hresults hsecond
      · exact absurd rfl hne
      · exact fun hsame ↦ hselected target rfl (hsame ▸ h.claimed second window _ hsecond)
    · obtain ⟨rfl, heq⟩ | ⟨-, hlater⟩ := hresults hsecond
      · obtain ⟨rfl, rfl⟩ := Prod.mk.injEq .. ▸ heq
        exact fun hsame ↦ hselected otherTarget rfl (hsame ▸ h.claimed first window _ hbefore)
      · exact h.apart first second otherWindow target otherTarget hbefore hlater hne

theorem not_claimed_of_selected {target : SceneTarget}
    (h : target ∈ selected settings comparisonKey allocator call) :
    comparisonKey target.coordinates ∉
      ((kept settings allocator call).windows (call.windowKey settings)).getD ∅ := by
  simpa only [decide_eq_true_eq] using List.find?_some h

theorem Apart.serve (h : Apart comparisonKey allocator) (call : AllocateCall) :
    Apart comparisonKey (allocator.serve settings comparisonKey call) := by
  by_cases hvalid : call.Valid
  · cases hprevious : (SceneTargetAllocator.kept settings allocator call).eventResults
        call.eventKey with
    | some previous =>
      rw [SceneTargetAllocator.serve, allocate_of_some hvalid hprevious]
      exact h.kept
    | none =>
      rw [SceneTargetAllocator.serve, allocate_of_none hvalid hprevious]
      exact h.kept.reserve hprevious fun target htarget ↦ not_claimed_of_selected htarget
  · rwa [serve_of_not_valid hvalid]

section Windows

variable {window : WindowKey} {key : AllocationKey}

/-- The event has no result of another window. -/
def ConfinedTo (window : WindowKey) (key : AllocationKey) (allocator : SceneTargetAllocator κ) :
    Prop := ∀ result ∈ allocator.eventResults key, result.1 = window

/-- The call is not for this event in another window. -/
def AsksIn (settings : AllocatorSettings) (window : WindowKey) (key : AllocationKey)
    (call : AllocateCall) : Prop :=
  call.Valid → call.eventKey = key → call.windowKey settings = window

/-- What a served call leaves in place of the result of an event. -/
theorem eventResults_serve (hvalid : call.Valid) :
    (allocator.serve settings comparisonKey call).eventResults key =
      if key = call.eventKey ∧ (kept settings allocator call).eventResults key = none then
        some (call.windowKey settings, selected settings comparisonKey allocator call)
      else (kept settings allocator call).eventResults key := by
  cases hprevious : (kept settings allocator call).eventResults call.eventKey with
  | some previous =>
    rw [serve, allocate_of_some hvalid hprevious]
    split
    · rename_i h
      rw [h.1, hprevious] at h
      exact absurd h.2 (Option.some_ne_none _)
    · rfl
  | none =>
    rw [serve, allocate_of_none hvalid hprevious]
    change (reserve _ _ _ _ _).eventResults key = _
    by_cases heq : key = call.eventKey
    · subst heq
      rw [if_pos ⟨rfl, hprevious⟩]
      exact Function.update_self ..
    · rw [if_neg fun h ↦ heq h.1]
      exact Function.update_of_ne heq ..

theorem ConfinedTo.serve (h : ConfinedTo window key allocator)
    (hcall : AsksIn settings window key call) :
    ConfinedTo window key (allocator.serve settings comparisonKey call) := by
  by_cases hvalid : call.Valid
  · intro result hresult
    rw [Option.mem_def, eventResults_serve hvalid] at hresult
    split at hresult
    · rename_i heq
      obtain rfl := Option.some.inj hresult
      exact hcall hvalid heq.1.symm
    · exact h result (eventResults_kept.1 hresult).1
  · rwa [serve_of_not_valid hvalid]

/-- The call leaves the window to the event. -/
def Spares (settings : AllocatorSettings) (window : WindowKey) (call : AllocateCall) : Prop :=
  call.Valid →
    (call.windowKey settings).windowIndex ≤ window.windowIndex + settings.retentionWindows

theorem eventResults_serve_of_spares {target : Option SceneTarget}
    (h : allocator.eventResults key = some (window, target)) (hcall : Spares settings window call) :
    (allocator.serve settings comparisonKey call).eventResults key = some (window, target) := by
  by_cases hvalid : call.Valid
  · have hkept : (kept settings allocator call).eventResults key = some (window, target) :=
      eventResults_kept.2 ⟨h, sub_le_iff_le_add.2 (hcall hvalid)⟩
    rw [eventResults_serve hvalid, if_neg fun hnone ↦ ?_]
    · exact hkept
    · rw [hkept] at hnone
      exact Option.some_ne_none _ hnone.2
  · rwa [serve_of_not_valid hvalid]

/-- A call for an event that is only asked for in this window returns the result that it leaves. -/
theorem answer_eq (hvalid : call.Valid) (hconfined : ConfinedTo window call.eventKey allocator)
    (hwindow : call.windowKey settings = window) :
    ∃ target, allocator.answer settings comparisonKey call = .ok target ∧
      (allocator.serve settings comparisonKey call).eventResults call.eventKey =
        some (window, target) := by
  cases hprevious : (kept settings allocator call).eventResults call.eventKey with
  | some previous =>
    refine ⟨previous.2, ?_, ?_⟩
    · rw [answer, allocate_of_some hvalid hprevious]
      rfl
    · rw [serve, allocate_of_some hvalid hprevious, ← hconfined _ (eventResults_kept.1 hprevious).1]
      exact hprevious
  | none =>
    refine ⟨selected settings comparisonKey allocator call, ?_, ?_⟩
    · rw [answer, allocate_of_none hvalid hprevious]
      rfl
    · rw [eventResults_serve hvalid, if_pos ⟨rfl, hprevious⟩, hwindow]

end Windows

variable (settings comparisonKey)

/-- What every call of a run keeps, the run keeps. -/
theorem forall_run {P : SceneTargetAllocator κ → Prop} {calls : List AllocateCall}
    (h : P allocator) (hstep : ∀ allocator, P allocator → ∀ call ∈ calls,
      P (allocator.serve settings comparisonKey call)) :
    P (run (serve settings comparisonKey) allocator calls) :=
  List.foldlRecOn calls _ h hstep

/-- Two calls of a run for one window are given the same target if they are for one event, and
targets with different coordinates if they are for different ones. -/
def TargetsApart (before : List AllocateCall) (first : AllocateCall) (between : List AllocateCall)
    (second : AllocateCall) : Prop :=
  first.windowKey settings = second.windowKey settings → ∀ target otherTarget,
    (run (serve settings comparisonKey) {} before).answer settings comparisonKey first =
      .ok target →
    (run (serve settings comparisonKey) {} (before ++ first :: between)).answer settings
      comparisonKey second = .ok otherTarget →
    (first.eventKey = second.eventKey → otherTarget = target) ∧
    (first.eventKey ≠ second.eventKey → ∀ t ∈ target, ∀ u ∈ otherTarget,
      comparisonKey t.coordinates ≠ comparisonKey u.coordinates)

/-- The targets are apart for events that are only asked for in this window, as long as no call
between the two is for a window that is newer than the retention admits. -/
theorem targets_of_window {before between : List AllocateCall} {first second : AllocateCall}
    (hasked : ∀ call ∈ before ++ first :: between,
      AsksIn settings (second.windowKey settings) first.eventKey call ∧
        AsksIn settings (second.windowKey settings) second.eventKey call)
    (hspared : ∀ call ∈ between, Spares settings (second.windowKey settings) call) :
    TargetsApart settings comparisonKey before first between second := by
  intro hwindow target otherTarget hfirst hsecond
  have hconfined : ∀ {calls key}, (∀ call ∈ calls,
      AsksIn settings (second.windowKey settings) key call) →
      ConfinedTo (second.windowKey settings) key (run (serve settings comparisonKey) {} calls) :=
    fun hcalls ↦ forall_run settings comparisonKey (fun _ h ↦ absurd h (Option.not_mem_none _))
      fun _ h call hcall ↦ h.serve (hcalls call hcall)
  have hapart : ∀ calls, Apart comparisonKey (run (serve settings comparisonKey) {} calls) :=
    fun calls ↦ forall_run settings comparisonKey
      ⟨fun _ _ _ h ↦ absurd h.symm (Option.some_ne_none _),
        fun _ _ _ _ _ h ↦ absurd h.symm (Option.some_ne_none _)⟩ fun _ h call _ ↦ h.serve call
  obtain ⟨answered, hanswered, hstored⟩ := answer_eq (valid_of_answer hfirst)
    (hconfined fun call hcall ↦ (hasked call (List.mem_append_left _ hcall)).1) hwindow
  obtain rfl : answered = target := Except.ok.inj (hanswered.symm.trans hfirst)
  obtain ⟨otherAnswered, hotherAnswered, hotherStored⟩ := answer_eq (valid_of_answer hsecond)
    (hconfined fun call hcall ↦ (hasked call hcall).2) rfl
  obtain rfl : otherAnswered = otherTarget := Except.ok.inj (hotherAnswered.symm.trans hsecond)
  -- the first result outlives the calls in between, and the second call
  have hbetween : (run (serve settings comparisonKey) {} (before ++ first :: between)).eventResults
      first.eventKey = some (second.windowKey settings, answered) := by
    rw [Relational.run_append, Relational.run_cons]
    exact forall_run (P := fun allocator ↦ allocator.eventResults first.eventKey =
      some (second.windowKey settings, answered)) settings comparisonKey hstored
      fun _ h call hcall ↦ eventResults_serve_of_spares h (hspared call hcall)
  have hspares : Spares settings (second.windowKey settings) second :=
    fun _ ↦ le_add_of_nonneg_right (Int.le_trans (by decide) settings.retentionWindows_pos)
  have hheld : ((run (serve settings comparisonKey) {} (before ++ first :: between)).serve settings
      comparisonKey second).eventResults first.eventKey =
        some (second.windowKey settings, answered) :=
    eventResults_serve_of_spares hbetween hspares
  constructor
  · intro heq
    rw [heq] at hheld
    exact (Prod.mk.inj (Option.some.inj (hotherStored.symm.trans hheld))).2
  · rintro hne t rfl u rfl
    exact ((hapart _).serve second).apart _ _ _ _ _ hheld hotherStored hne

section Runs

def usualSettings : AllocatorSettings where
  windowMs_pos := by decide
  retentionWindows_pos := by decide

def navigationTarget (targetId : String) (x : ℤ) : SceneTarget where
  targetId := targetId
  sceneId := 7
  coordinates := [("x", .int x), ("y", .int 0), ("z", .int 20)]

def callOf (eventId : String) (controlGeneration occurredAtMs : ℤ)
    (candidates : List SceneTarget) : AllocateCall where
  gatewayId := "gateway-1"
  sessionId := "session-1"
  eventId := eventId
  sceneId := 7
  controlGeneration := controlGeneration
  occurredAtMs := occurredAtMs
  candidates := candidates

/-- An event of the next window, between them, leaves the coordinates of the first event claimed. -/
theorem targets_of_window_apart :
    TargetsApart usualSettings id [] (callOf "event-1" 1 10000 [navigationTarget "a" 1])
      [callOf "event-2" 1 15000 [navigationTarget "a" 1]]
      (callOf "event-3" 1 10000 [navigationTarget "a" 1, navigationTarget "b" 2]) :=
  targets_of_window usualSettings id (by unfold AsksIn; decide)
    (by unfold Spares; decide)

/-- An event of a much newer window forgets the window of the first event, whose coordinates are
then given to another event, or whose repetition is given another target; and an event that is
asked for again in the next generation keeps coordinates that are not claimed there. -/
theorem targets_not_apart :
    ¬TargetsApart usualSettings id [] (callOf "event-1" 1 10000 [navigationTarget "a" 1])
      [callOf "event-2" 1 25000 [navigationTarget "a" 1]]
      (callOf "event-3" 1 10000 [navigationTarget "a" 1]) ∧
    ¬TargetsApart usualSettings id [] (callOf "event-1" 1 10000 [navigationTarget "a" 1])
      [callOf "event-2" 1 25000 [navigationTarget "a" 1]]
      (callOf "event-1" 1 10000 [navigationTarget "b" 2]) ∧
    ¬TargetsApart usualSettings id [callOf "event-1" 1 10000 [navigationTarget "a" 1]]
      (callOf "event-1" 2 10000 [navigationTarget "a" 1]) []
      (callOf "event-2" 2 10000 [navigationTarget "a" 1]) := by
  refine ⟨fun h ↦ ?_, fun h ↦ ?_, fun h ↦ ?_⟩
  · obtain ⟨-, hapart⟩ := h (by decide) (some (navigationTarget "a" 1))
      (some (navigationTarget "a" 1)) (by rfl) (by rfl)
    exact hapart (by decide) _ rfl _ rfl rfl
  · obtain ⟨hsame, -⟩ := h (by decide) (some (navigationTarget "a" 1))
      (some (navigationTarget "b" 2)) (by rfl) (by rfl)
    have heq := congrArg (Option.map SceneTarget.targetId) (hsame rfl)
    exact absurd heq (by decide)
  · obtain ⟨-, hapart⟩ := h (by decide) (some (navigationTarget "a" 1))
      (some (navigationTarget "a" 1)) (by rfl) (by rfl)
    exact hapart (by decide) _ rfl _ rfl rfl

end Runs

end SceneTargetAllocator

end LlmGateway
