import LlmGateway.Activity.PlanRuntime
import LlmGateway.Guarantees.FrozenBytes
import LlmGateway.Relational.Outcome

/-!
# The live plan survives a restart

The state file of a plan says how far the plan has come. In every run of one process, with crashes
between its calls, the file can be loaded again, no outcome is lost, and the state is never
inconsistent with the step to be prepared.
-/

namespace LlmGateway.PlanRuntime

open Relational

/-! ## Progress -/

/-- How far the plan has come: which steps are finished, and with which outcomes. -/
inductive Progress where
  | sit
  | sitFailed
  | coffee
  | getOut (result : Outcome)
  | done (result result' : Outcome)

namespace Progress

def current : Progress → Json
  | sit => .str "sit"
  | coffee => .str "coffee"
  | getOut _ => .str "get-out"
  | sitFailed | done .. => .null

def outcomes : Progress → List (Text × Outcome)
  | sit => []
  | sitFailed => [("sit", .failed)]
  | coffee => [("sit", .success)]
  | getOut result => [("sit", .success), ("coffee", result)]
  | done result result' => [("sit", .success), ("coffee", result), ("get-out", result')]

theorem nodup_keys (p : Progress) : (p.outcomes.map Prod.fst).Nodup := by
  have hall : [Text.ofString "sit", Text.ofString "coffee", Text.ofString "get-out"].Nodup := by
    decide
  have hbehind : p.outcomes.map Prod.fst <+: [Text.ofString "sit", "coffee", "get-out"] := by
    cases p with
    | sit => exact List.nil_prefix
    | sitFailed | coffee => exact ⟨["coffee", "get-out"], rfl⟩
    | getOut _ => exact ⟨["get-out"], rfl⟩
    | done _ _ => exact List.prefix_rfl
  exact hbehind.sublist.nodup hall

end Progress

/-- The state says that the plan has come so far. -/
structure PlanState.At (plan : ExecutionPlan) (p : Progress) (state : PlanState) : Prop where
  schema_eq : state.schemaVersion = .str stateSchemaVersion
  planId_eq : state.planId = .str plan.planId
  planDigest_eq : state.planDigest = .str plan.digest
  current_eq : state.currentStepId = p.current
  outcomes_perm : state.stepOutcomes.Perm p.outcomes

/-- The state of a plan that has come so far, with the outcomes in the order of the steps. -/
def stateAt (plan : ExecutionPlan) (p : Progress) : PlanState :=
  ⟨.str stateSchemaVersion, .str plan.planId, .str plan.digest, p.current, p.outcomes⟩

def fileAt (plan : ExecutionPlan) (p : Progress) : StateFile := .json (serialize (stateAt plan p))

variable {plan : ExecutionPlan} {p q : Progress} {state state' : PlanState} {file : StateFile}

/-- Whatever the order in which the outcomes were recorded, the file is the same. -/
theorem PlanState.At.serialize_eq (h : state.At plan p) :
    .json (serialize state) = fileAt plan p := by
  have hnodup : (state.stepOutcomes.map Prod.fst).Nodup :=
    (h.outcomes_perm.map Prod.fst).nodup_iff.2 p.nodup_keys
  have hsorted := (sortItems_eq_iff hnodup).2 h.outcomes_perm
  rw [fileAt, stateAt, serialize, serialize, h.schema_eq, h.planId_eq, h.planDigest_eq,
    h.current_eq, hsorted]

theorem decodeOutcomes_map (outcomes : List (Text × Outcome)) :
    decodeOutcomes (outcomes.map fun outcome ↦ (outcome.1, .str outcome.2.text)) =
      .ok outcomes := by
  induction outcomes with
  | nil => rfl
  | cons outcome outcomes ih =>
    obtain ⟨stepId, outcome⟩ := outcome
    have hstr (text : String) : ¬isUnhashable (.str text) = true := Bool.false_ne_true
    rw [List.map_cons, decodeOutcomes, ih, if_neg (hstr _)]
    cases outcome with
    | success => exact if_pos rfl
    | failed =>
      have hne : Json.str Outcome.failed.text ≠ Json.str Outcome.success.text := by decide
      exact (if_neg hne).trans (if_pos rfl)

/-- Reading back what was written. -/
theorem decodeState_serialize {state : PlanState} {raw : List (Text × Json)}
    (h : serialize state = .obj raw) :
    decodeState raw = .ok { state with stepOutcomes := sortItems state.stepOutcomes } := by
  obtain rfl := Json.obj.inj h
  have hkeys : (∀ key ∈ stateFields, key ∈ [Text.ofString "currentStepId", "planDigest", "planId",
      "schemaVersion", "stepOutcomes"]) ∧ ∀ key ∈ [Text.ofString "currentStepId", "planDigest",
        "planId", "schemaVersion", "stepOutcomes"], key ∈ stateFields := by
    decide
  unfold decodeState
  rw [if_neg]
  · have houtcomes := decodeOutcomes_map (sortItems state.stepOutcomes)
    have hget (values : Json × Json × Json × Json × Json) : Json.get? [("currentStepId", values.1),
        ("planDigest", values.2.1), ("planId", values.2.2.1), ("schemaVersion", values.2.2.2.1),
        ("stepOutcomes", values.2.2.2.2)] "stepOutcomes" = some values.2.2.2.2 := rfl
    rw [hget (_, _, _, _, _)]
    simp only
    rw [houtcomes]
    rfl
  · rw [not_not]
    exact ⟨fun key hkey ↦ List.mem_map.1 (hkeys.1 key hkey), List.forall_mem_map.1 hkeys.2⟩

/-- The steps of the plan are those of the sequence. -/
def HasSteps (plan : ExecutionPlan) : Prop := plan.steps.map (·.stepId) = stepIdSequence

theorem hasSteps_of_validate {sha256 : Json → Option String} {wire : ExecutionPlanWire}
    (h : validateExecutionPlan sha256 wire = .ok plan) : HasSteps plan := by
  unfold validateExecutionPlan at h
  split_ifs at h with _ _ hids
  cases hdigest : sha256 wire.body with
  | none =>
    rw [hdigest] at h
    cases h
  | some digest =>
    rw [hdigest] at h
    rw [← Except.ok.inj h]
    exact not_not.1 hids

theorem HasSteps.exists_step (h : HasSteps plan) {stepId : String} (hid : stepId ∈ stepIdSequence) :
    ∃ step ∈ plan.steps, step.stepId = stepId := by
  rw [← h] at hid
  exact List.mem_map.1 hid

theorem Progress.current_eq_or (p : Progress) :
    p.current = .null ∨ ∃ stepId ∈ stepIdSequence, p.current = .str stepId := by
  cases p with
  | sit => exact Or.inr ⟨"sit", by decide, rfl⟩
  | coffee => exact Or.inr ⟨"coffee", by decide, rfl⟩
  | getOut _ => exact Or.inr ⟨"get-out", by decide, rfl⟩
  | sitFailed | done _ _ => exact Or.inl rfl

theorem Progress.exists_stepId (p : Progress) {outcome : Text × Outcome}
    (h : outcome ∈ p.outcomes) : ∃ stepId ∈ stepIdSequence, outcome.1 = Text.ofString stepId := by
  have hmem : ∀ key ∈ p.outcomes.map Prod.fst, key ∈ stepIdSequence.map Text.ofString := by
    cases p with
    | sit => exact List.forall_mem_nil _
    | sitFailed | coffee => exact List.forall_mem_singleton.2 List.mem_cons_self
    | getOut _ => exact fun key hkey ↦ List.mem_append_left [Text.ofString "get-out"] hkey
    | done _ _ => exact fun key hkey ↦ hkey
  obtain ⟨stepId, hid, heq⟩ := List.mem_map.1 (hmem _ (List.mem_map_of_mem h))
  exact ⟨stepId, hid, heq.symm⟩

/-- A state of the plan passes the checks. -/
theorem PlanState.At.validate (hplan : HasSteps plan) (h : state.At plan p) :
    validateState plan state = .ok () := by
  have hhashable : ¬isUnhashable state.currentStepId = true := by
    rw [h.current_eq]
    cases p <;> exact Bool.false_ne_true
  have hcurrent : ¬(state.currentStepId ≠ .null ∧
      ∀ step ∈ plan.steps, state.currentStepId ≠ .str step.stepId) := by
    rintro ⟨hnull, hsteps⟩
    rw [h.current_eq] at hnull hsteps
    cases p.current_eq_or with
    | inl heq => exact hnull heq
    | inr hstr =>
      obtain ⟨stepId, hid, heq⟩ := hstr
      obtain ⟨step, hstep, rfl⟩ := hplan.exists_step hid
      exact hsteps step hstep heq
  have houtcomes : ¬∃ outcome ∈ state.stepOutcomes, ∀ step ∈ plan.steps,
      outcome.1 ≠ step.stepId := by
    rintro ⟨outcome, hmem, hsteps⟩
    obtain ⟨stepId, hid, heq⟩ := p.exists_stepId (h.outcomes_perm.mem_iff.1 hmem)
    obtain ⟨step, hstep, rfl⟩ := hplan.exists_step hid
    exact hsteps step hstep heq
  unfold validateState
  rw [if_neg (not_not.2 h.schema_eq), if_neg (not_not.2 h.planId_eq),
    if_neg (not_not.2 h.planDigest_eq), if_neg hhashable, if_neg hcurrent, if_neg houtcomes]

theorem load_serialize (hvalid : validateState plan
    { state with stepOutcomes := sortItems state.stepOutcomes } = .ok ()) :
    load plan (.json (serialize state)) =
      .ok { state with stepOutcomes := sortItems state.stepOutcomes } := by
  have hload (raw : List (Text × Json)) : load plan (.json (.obj raw)) =
      (decodeState raw).bind fun loaded ↦ (validateState plan loaded).bind fun _ ↦ .ok loaded := rfl
  rw [serialize, hload, decodeState_serialize rfl, Except.bind, hvalid]
  rfl

/-- The file of a plan can be loaded, and says how far the plan has come. -/
theorem load_fileAt (hplan : HasSteps plan) (p : Progress) :
    ∃ state, load plan (fileAt plan p) = .ok state ∧ state.At plan p := by
  have hat : PlanState.At plan p
      { stateAt plan p with stepOutcomes := sortItems (stateAt plan p).stepOutcomes } :=
    ⟨rfl, rfl, rfl, rfl, List.perm_insertionSort _ _⟩
  exact ⟨_, load_serialize (hat.validate hplan), hat⟩

/-! ## Steps -/

theorem setOutcome_perm {outcomes outcomes' : List (Text × Outcome)} {stepId : Text}
    {outcome : Outcome} (hperm : outcomes.Perm outcomes')
    (hnew : stepId ∉ outcomes'.map Prod.fst) :
    (setOutcome outcomes stepId outcome).Perm (outcomes' ++ [(stepId, outcome)]) := by
  have hany : ¬outcomes.any (fun entry ↦ entry.1 = stepId) = true := by
    rw [List.any_eq_true]
    rintro ⟨entry, hentry, heq⟩
    rw [← of_decide_eq_true heq] at hnew
    exact hnew (List.mem_map_of_mem (hperm.mem_iff.1 hentry))
  rw [setOutcome, if_neg hany]
  exact hperm.append_right _

/-- The progress after the current step. -/
def Progress.next (p : Progress) (outcome : Outcome) : Progress :=
  match p with
  | sit => match outcome with
    | .success => coffee
    | .failed => sitFailed
  | coffee => getOut outcome
  | getOut result => done result outcome
  | sitFailed => sitFailed
  | done result result' => done result result'

/-- Recording the outcome of the current step. -/
theorem PlanState.At.record {stepId : String} {succeeded : Bool} (h : state.At plan p)
    (hrecord : recordStepTerminal state stepId succeeded = .ok state') :
    state'.At plan (p.next (Outcome.ofSucceeded succeeded)) := by
  unfold recordStepTerminal at hrecord
  split_ifs at hrecord with hcurrent hknown
  rw [not_not, h.current_eq] at hcurrent
  obtain rfl := Except.ok.inj hrecord
  cases p with
  | sit =>
    obtain rfl : "sit" = stepId := Text.ofString_injective (Json.str.inj hcurrent)
    have hperm : (setOutcome state.stepOutcomes "sit" (Outcome.ofSucceeded succeeded)).Perm _ :=
      setOutcome_perm h.outcomes_perm List.not_mem_nil
    cases succeeded with
    | true => exact ⟨h.schema_eq, h.planId_eq, h.planDigest_eq, rfl, hperm⟩
    | false => exact ⟨h.schema_eq, h.planId_eq, h.planDigest_eq, rfl, hperm⟩
  | coffee =>
    obtain rfl : "coffee" = stepId := Text.ofString_injective (Json.str.inj hcurrent)
    exact ⟨h.schema_eq, h.planId_eq, h.planDigest_eq, rfl,
      setOutcome_perm h.outcomes_perm (by decide)⟩
  | getOut result =>
    obtain rfl : "get-out" = stepId := Text.ofString_injective (Json.str.inj hcurrent)
    refine ⟨h.schema_eq, h.planId_eq, h.planDigest_eq, rfl, setOutcome_perm h.outcomes_perm ?_⟩
    have hnew : Text.ofString "get-out" ∉ [Text.ofString "sit", "coffee"] := by decide
    exact hnew
  | sitFailed | done _ _ => cases hcurrent

theorem Progress.prefix_next (p : Progress) (outcome : Outcome) :
    p.outcomes <+: (p.next outcome).outcomes := by
  cases p with
  | sit => exact List.nil_prefix
  | coffee | getOut _ => exact List.prefix_append _ _
  | sitFailed | done _ _ => exact List.prefix_rfl

/-- A state is saved over an earlier one of its plan. -/
theorem save_fileAt (hplan : HasSteps plan) (h : state.At plan q) (p : Progress) :
    (save plan state (fileAt plan p)).1 = fileAt plan q := by
  obtain ⟨current, hload, hcurrent⟩ := load_fileAt hplan p
  have hsame : ¬(current.planId ≠ state.planId ∨ current.planDigest ≠ state.planDigest) := by
    rw [hcurrent.planId_eq, hcurrent.planDigest_eq, h.planId_eq, h.planDigest_eq]
    exact fun hne ↦ hne.elim (· rfl) (· rfl)
  unfold save
  simp only [hload, if_neg hsame, h.validate hplan]
  exact h.serialize_eq

theorem loadOrInitialize_absent (hplan : HasSteps plan) :
    ∃ state, loadOrInitialize plan .absent = (fileAt plan .sit, .ok state) ∧
      state.At plan .sit := by
  have hids := hplan
  unfold HasSteps at hids
  cases hsteps : plan.steps with
  | nil =>
    rw [hsteps] at hids
    cases hids
  | cons step steps =>
    rw [hsteps] at hids
    have hid : step.stepId = "sit" := (List.cons.inj hids).1
    refine ⟨stateAt plan .sit, ?_, ⟨rfl, rfl, rfl, rfl, List.Perm.refl _⟩⟩
    unfold loadOrInitialize
    simp only [hsteps, List.head?_cons, hid]
    rfl

/-! ## Runs -/

namespace Runner

/-- No file yet, or that of a progress which the memory has not fallen behind. -/
inductive Sound (plan : ExecutionPlan) : Runner → Prop where
  | fresh : Sound plan ⟨.absent, none⟩
  | started (p : Progress) (memory : Option PlanState)
    (hmemory : ∀ state ∈ memory, ∃ q : Progress, p.outcomes <+: q.outcomes ∧ state.At plan q) :
    Sound plan ⟨fileAt plan p, memory⟩

/-- What the earlier file says is said by the later one. -/
def Later (plan : ExecutionPlan) (file file' : StateFile) : Prop :=
  ∀ state, load plan file = .ok state →
    ∃ state', load plan file' = .ok state' ∧
      ∀ outcome ∈ state.stepOutcomes, outcome ∈ state'.stepOutcomes

variable {r : Runner}

theorem later_refl (file : StateFile) : Later plan file file :=
  fun state hload ↦ ⟨state, hload, fun _ houtcome ↦ houtcome⟩

theorem Later.trans {file file' file'' : StateFile} (h : Later plan file file')
    (h' : Later plan file' file'') : Later plan file file'' := by
  intro state hload
  obtain ⟨state', hload', hkept⟩ := h state hload
  obtain ⟨state'', hload'', hkept'⟩ := h' state' hload'
  exact ⟨state'', hload'', fun outcome houtcome ↦ hkept' outcome (hkept outcome houtcome)⟩

theorem later_fileAt (hplan : HasSteps plan) (h : p.outcomes <+: q.outcomes) :
    Later plan (fileAt plan p) (fileAt plan q) := by
  intro state hload
  obtain ⟨early, hearly, hp⟩ := load_fileAt hplan p
  obtain ⟨late, hlate, hq⟩ := load_fileAt hplan q
  obtain rfl := Except.ok.inj (hearly.symm.trans hload)
  refine ⟨late, hlate, fun outcome houtcome ↦ ?_⟩
  exact hq.outcomes_perm.mem_iff.2 (h.subset (hp.outcomes_perm.mem_iff.1 houtcome))

/-- The memory holds a state that is not behind the file. -/
theorem sound_some (hbehind : p.outcomes <+: q.outcomes) (hat : state.At plan q) :
    Sound plan ⟨fileAt plan p, some state⟩ := by
  refine .started p _ fun state' hstate' ↦ ⟨q, hbehind, ?_⟩
  obtain rfl := Option.some.inj hstate'
  exact hat

/-- One step keeps the file and the memory sound, and never takes an outcome out of the file. -/
theorem Sound.exec (hplan : HasSteps plan) (h : r.Sound plan) (step : RunnerStep) :
    (r.exec plan step).Sound plan ∧ Later plan r.file (r.exec plan step).file := by
  cases h with
  | fresh =>
    have hnothing (file : StateFile) : Later plan .absent file := by
      intro state hload
      cases hload
    cases step with
    | load =>
      obtain ⟨state, hload, hat⟩ := loadOrInitialize_absent hplan
      refine ⟨?_, hnothing _⟩
      simp only [Runner.exec, hload]
      exact sound_some List.prefix_rfl hat
    | record _ _ | save | crash => exact ⟨.fresh, hnothing _⟩
  | started p memory hmemory =>
    cases step with
    | load =>
      obtain ⟨state, hload, hat⟩ := load_fileAt hplan p
      have hexec : Runner.exec plan ⟨fileAt plan p, memory⟩ .load =
          ⟨fileAt plan p, (load plan (fileAt plan p)).toOption.or memory⟩ := rfl
      rw [hexec, hload]
      exact ⟨sound_some List.prefix_rfl hat, later_refl _⟩
    | record stepId succeeded =>
      refine ⟨.started p _ fun state' hstate' ↦ ?_, later_refl _⟩
      obtain ⟨state, hstate, rfl⟩ := Option.map_eq_some_iff.1 hstate'
      obtain ⟨q, hbehind, hat⟩ := hmemory state hstate
      cases hrecord : recordStepTerminal state stepId succeeded with
      | error fault => exact ⟨q, hbehind, hat⟩
      | ok recorded => exact ⟨_, hbehind.trans (q.prefix_next _), hat.record hrecord⟩
    | save =>
      cases memory with
      | none => exact ⟨.started p _ hmemory, later_refl _⟩
      | some state =>
        obtain ⟨q, hbehind, hat⟩ := hmemory state rfl
        have hexec : Runner.exec plan ⟨fileAt plan p, some state⟩ .save =
            ⟨fileAt plan q, some state⟩ := by
          simp only [Runner.exec, save_fileAt hplan hat]
        rw [hexec]
        exact ⟨sound_some List.prefix_rfl hat, later_fileAt hplan hbehind⟩
    | crash => exact ⟨.started p none (fun state hstate ↦ by cases hstate), later_refl _⟩

theorem Sound.run (hplan : HasSteps plan) (h : r.Sound plan) (steps : List RunnerStep) :
    (r.run plan steps).Sound plan ∧ Later plan r.file (r.run plan steps).file := by
  induction steps generalizing r with
  | nil => exact ⟨h, later_refl _⟩
  | cons step steps ih =>
    obtain ⟨hstep, hlater⟩ := h.exec hplan step
    obtain ⟨hrun, hlater'⟩ := ih hstep
    exact ⟨hrun, hlater.trans hlater'⟩

/-- A state of the process and the file after steps from no file. -/
def Reachable (plan : ExecutionPlan) (r : Runner) : Prop :=
  ∃ steps, r = Runner.run plan ⟨.absent, none⟩ steps

theorem Reachable.sound (hplan : HasSteps plan) (h : r.Reachable plan) : r.Sound plan := by
  obtain ⟨steps, rfl⟩ := h
  exact (Sound.run hplan .fresh steps).1

/-- The memory holds a state of the plan. -/
theorem Sound.exists_at (h : r.Sound plan) (hmemory : r.memory = some state) :
    ∃ p, state.At plan p := by
  cases h with
  | fresh => cases hmemory
  | started p memory hmem =>
    obtain ⟨q, -, hat⟩ := hmem state hmemory
    exact ⟨q, hat⟩

/-- In every run of a plan, with crashes anywhere, the file can be loaded once it exists, and an
outcome that was in it once is in it ever after. -/
theorem reload_keeps {sha256 : Json → Option String} {wire : ExecutionPlanWire}
    (hplan : validateExecutionPlan sha256 wire = .ok plan) (hr : r.Reachable plan)
    (steps : List RunnerStep) :
    (r.file = .absent ∨ ∃ state, load plan r.file = .ok state) ∧
      Later plan r.file (r.run plan steps).file := by
  have hsteps := hasSteps_of_validate hplan
  have hsound := hr.sound hsteps
  refine ⟨?_, (hsound.run hsteps steps).2⟩
  cases hsound with
  | fresh => exact Or.inl rfl
  | started p memory _ =>
    obtain ⟨state, hload, -⟩ := load_fileAt hsteps p
    exact Or.inr ⟨state, hload⟩

end Runner

section Example

def seatStep (stepId skillName name value : String) : PlanStep :=
  ⟨stepId, skillName, [("sceneId", .str "square"), (name, .str value)]⟩

def seatWire : ExecutionPlanWire where
  planId := "plan"
  sessionId := "s"
  gatewayId := "gateway"
  sceneId := "square"
  expectedSkills := canonicalNonChatSkills
  steps :=
    [seatStep "sit" "seat_sit" "chairId" "chair",
      seatStep "coffee" "coffee_auto_schedule" "coffeeName" "latte",
      seatStep "get-out" "seat_get_out" "chairId" "chair"]

def seatPlan : ExecutionPlan := ⟨seatWire, "digest"⟩

theorem validateExecutionPlan_seatWire :
    validateExecutionPlan (fun _ ↦ some "digest") seatWire = .ok seatPlan := by
  rfl

/-- A run that crashes when the file says that the seat is taken. -/
def crashed : Runner :=
  Runner.run seatPlan ⟨.absent, none⟩ [.load, .record "sit" true, .save, .crash]

/-- The next run goes on to the coffee. -/
theorem Runner.reload_keeps_crash : ∃ state state',
    load seatPlan crashed.file = .ok state ∧ (Text.ofString "sit", .success) ∈ state.stepOutcomes ∧
    load seatPlan (crashed.run seatPlan [.load, .record "coffee" false, .save]).file = .ok state' ∧
    (Text.ofString "sit", .success) ∈ state'.stepOutcomes := by
  have hload : load seatPlan crashed.file = .ok ⟨.str stateSchemaVersion, .str "plan",
      .str "digest", .str "coffee", [("sit", .success)]⟩ := rfl
  have hreachable : crashed.Reachable seatPlan := ⟨_, rfl⟩
  obtain ⟨state', hload', hkept⟩ := (Runner.reload_keeps validateExecutionPlan_seatWire hreachable
    [.load, .record "coffee" false, .save]).2 _ hload
  exact ⟨_, state', hload, List.mem_cons_self, hload', hkept _ List.mem_cons_self⟩

end Example

/-! ## Preparing an action -/

/-- The session, the gateway, the scene and the lease are good for the plan. -/
structure PlanExecutionContext.Fits (context : PlanExecutionContext) (plan : ExecutionPlan) :
    Prop where
  session_eq : context.sessionId = plan.sessionId
  gateway_eq : context.gatewayId = plan.gatewayId
  scene_eq : context.sceneId = plan.sceneId
  lease_filled : isBlankString context.decisionLeaseId = false
  now_nonneg : 0 ≤ context.nowMs
  unexpired : context.nowMs < context.leaseExpiresAtMs

/-- The seat state that the step starts from. -/
def PlanStep.startsFrom (step : PlanStep) : String :=
  if step.stepId = "sit" then "standing" else "seated"

def PlanStep.action (step : PlanStep) : PreparedPlanAction :=
  ⟨step.stepId, step.skillName, "v1", step.arguments⟩

variable {context : PlanExecutionContext} {action : PreparedPlanAction} {step : PlanStep}

theorem outcome?_of_perm {outcomes : List (Text × Outcome)}
    (hperm : state.stepOutcomes.Perm outcomes) (hnodup : (outcomes.map Prod.fst).Nodup)
    {stepId : String} {outcome : Outcome} (hmem : (Text.ofString stepId, outcome) ∈ outcomes) :
    state.outcome? stepId = some outcome := by
  unfold PlanState.outcome?
  cases hfind : state.stepOutcomes.find? fun entry ↦ entry.1 = Text.ofString stepId with
  | none =>
    have hnone := List.find?_eq_none.1 hfind _ (hperm.mem_iff.2 hmem)
    exact absurd (decide_eq_true rfl) hnone
  | some entry =>
    have hentry := hperm.mem_iff.1 (List.mem_of_find?_eq_some hfind)
    have hkey : entry.1 = Text.ofString stepId := by simpa using List.find?_some hfind
    rw [List.inj_on_of_nodup_map hnodup hentry hmem hkey]
    rfl

/-- The outcomes never stand in the way of the current step. -/
theorem checkStep_eq_ok_iff (h : state.At plan p) (hcurrent : p.current = .str step.stepId) :
    checkStep step state context = .ok () ↔ context.seatIs step.startsFrom := by
  have houtcome (stepId : String) (outcome : Outcome)
      (hmem : (Text.ofString stepId, outcome) ∈ p.outcomes) :
      state.outcome? stepId = some outcome :=
    outcome?_of_perm h.outcomes_perm p.nodup_keys hmem
  have hraise (condition : Prop) [Decidable condition] (fault : PlanFault) :
      (if ¬condition then .error fault else .ok () : Except PlanFault Unit) = .ok () ↔
        condition := by
    split_ifs with hcondition
    · exact iff_of_true rfl hcondition
    · exact iff_of_false (fun heq ↦ by cases heq) hcondition
  cases p with
  | sit =>
    have hid : step.stepId = "sit" := (Text.ofString_injective (Json.str.inj hcurrent)).symm
    have hempty : state.stepOutcomes = [] := List.perm_nil.1 h.outcomes_perm
    rw [checkStep, if_pos hid, if_neg (not_not.2 hempty), hraise, PlanStep.startsFrom, if_pos hid]
  | coffee =>
    have hid : step.stepId = "coffee" := (Text.ofString_injective (Json.str.inj hcurrent)).symm
    have hsit : state.outcome? "sit" = some .success := houtcome _ _ List.mem_cons_self
    have hne : ¬step.stepId = "sit" := by rw [hid]; decide
    rw [checkStep, if_neg hne, if_pos hid, if_neg (not_not.2 hsit), hraise, PlanStep.startsFrom,
      if_neg hne]
  | getOut result =>
    have hid : step.stepId = "get-out" := (Text.ofString_injective (Json.str.inj hcurrent)).symm
    have hsit : state.outcome? "sit" = some .success := houtcome _ _ List.mem_cons_self
    have hcoffee : state.outcome? "coffee" = some result :=
      houtcome _ _ (List.mem_cons_of_mem _ List.mem_cons_self)
    have hterminal : ¬(state.outcome? "sit" ≠ some .success ∨ state.outcome? "coffee" = none) := by
      rw [hsit, hcoffee]
      exact fun hor ↦ hor.elim (· rfl) fun hnone ↦ by cases hnone
    have hne : ¬step.stepId = "sit" := by rw [hid]; decide
    have hne' : ¬step.stepId = "coffee" := by rw [hid]; decide
    rw [checkStep, if_neg hne, if_neg hne', if_pos hid, if_neg hterminal, hraise,
      PlanStep.startsFrom, if_neg hne]
  | sitFailed | done _ _ => cases hcurrent

/-- The step with an id is found. -/
theorem HasSteps.find_eq_some (h : HasSteps plan) (hstep : step ∈ plan.steps) :
    (plan.steps.reverse.find? fun other ↦ Json.str other.stepId = Json.str step.stepId) =
      some step := by
  have hnodup : (plan.steps.map (·.stepId)).Nodup := by
    rw [h]
    decide
  cases hfind : plan.steps.reverse.find? fun other ↦
      Json.str other.stepId = Json.str step.stepId with
  | none =>
    have hnone := List.find?_eq_none.1 hfind step (List.mem_reverse.2 hstep)
    exact absurd (decide_eq_true rfl) hnone
  | some other =>
    have hother := List.mem_reverse.1 (List.mem_of_find?_eq_some hfind)
    have hid : Json.str other.stepId = Json.str step.stepId := by simpa using List.find?_some hfind
    rw [List.inj_on_of_nodup_map hnodup hother hstep (Text.ofString_injective (Json.str.inj hid))]

theorem checkContext_eq_ok_iff : checkContext plan context = .ok () ↔ context.Fits plan := by
  unfold checkContext
  constructor
  · intro h
    split_ifs at h with hsession hgateway hscene hlease htime
    exact ⟨not_not.1 hsession, not_not.1 hgateway, not_not.1 hscene,
      Bool.eq_false_of_not_eq_true hlease, by omega, by omega⟩
  · intro h
    have htime : ¬(context.nowMs < 0 ∨ context.leaseExpiresAtMs ≤ context.nowMs) := by
      have hnow := h.now_nonneg
      have hunexpired := h.unexpired
      omega
    have hlease : ¬isBlankString context.decisionLeaseId = true := by
      rw [h.lease_filled]
      exact Bool.false_ne_true
    rw [if_neg (not_not.2 h.session_eq), if_neg (not_not.2 h.gateway_eq),
      if_neg (not_not.2 h.scene_eq), if_neg hlease, if_neg htime]

theorem currentStep_eq_ok_iff (hplan : HasSteps plan) :
    currentStep plan state = .ok step ↔
      step ∈ plan.steps ∧ state.currentStepId = .str step.stepId := by
  unfold currentStep
  constructor
  · intro h
    split_ifs at h with hnull
    cases hfind : plan.steps.reverse.find? fun other ↦
        Json.str other.stepId = state.currentStepId with
    | none =>
      rw [hfind] at h
      cases h
    | some other =>
      rw [hfind] at h
      obtain rfl := Except.ok.inj h
      have hid : Json.str other.stepId = state.currentStepId := by simpa using List.find?_some hfind
      exact ⟨List.mem_reverse.1 (List.mem_of_find?_eq_some hfind), hid.symm⟩
  · rintro ⟨hstep, hcurrent⟩
    have hnull : ¬state.currentStepId = .null := by
      rw [hcurrent]
      exact fun heq ↦ by cases heq
    rw [if_neg hnull, hcurrent, hplan.find_eq_some hstep]

/-- In every run of a plan, an action is prepared exactly if the context fits the plan, a step is
left and the seat is in the state that the step starts from: what the file and the memory say
about the other steps is never inconsistent. -/
theorem Runner.prepareNextAction_eq_ok_iff {sha256 : Json → Option String}
    {wire : ExecutionPlanWire} (hplan : validateExecutionPlan sha256 wire = .ok plan)
    {r : Runner} (hr : r.Reachable plan) (hmemory : r.memory = some state) :
    prepareNextAction plan state context = .ok action ↔
      context.Fits plan ∧ ∃ step ∈ plan.steps, state.currentStepId = .str step.stepId ∧
        context.seatIs step.startsFrom ∧ action = step.action := by
  have hsteps := hasSteps_of_validate hplan
  obtain ⟨p, hat⟩ := (hr.sound hsteps).exists_at hmemory
  rw [prepareNextAction]
  simp only [bind_eq_ok_iff, currentStep_eq_ok_iff hsteps]
  constructor
  · rintro ⟨⟨⟩, -, ⟨⟩, hcontext, step, ⟨hstep, hcurrent⟩, ⟨⟩, hcheck, haction⟩
    have hseat := (checkStep_eq_ok_iff hat (hat.current_eq.symm.trans hcurrent)).1 hcheck
    exact ⟨checkContext_eq_ok_iff.1 hcontext, step, hstep, hcurrent, hseat,
      (Except.ok.inj haction).symm⟩
  · rintro ⟨hfits, step, hstep, hcurrent, hseat, rfl⟩
    have hcheck := (checkStep_eq_ok_iff hat (hat.current_eq.symm.trans hcurrent)).2 hseat
    exact ⟨(), hat.validate hsteps, (), checkContext_eq_ok_iff.2 hfits, step, ⟨hstep, hcurrent⟩,
      (), hcheck, rfl⟩

section Example

/-- The coffee, after the crash and a reload. -/
theorem Runner.prepareNextAction_eq_ok_iff_coffee : ∃ state,
    (crashed.run seatPlan [.load]).memory = some state ∧
      prepareNextAction seatPlan state ⟨"s", "gateway", "square", "lease", 2000, 1000, "Seated"⟩ =
        .ok (seatStep "coffee" "coffee_auto_schedule" "coffeeName" "latte").action := by
  have hreachable : (crashed.run seatPlan [.load]).Reachable seatPlan :=
    ⟨[.load, .record "sit" true, .save, .crash, .load], rfl⟩
  have hmemory : (crashed.run seatPlan [.load]).memory = some ⟨.str stateSchemaVersion,
      .str "plan", .str "digest", .str "coffee", [("sit", .success)]⟩ := rfl
  have hseat : PlanExecutionContext.seatIs
      ⟨"s", "gateway", "square", "lease", 2000, 1000, "Seated"⟩ "seated" := by
    decide
  refine ⟨_, hmemory, (Runner.prepareNextAction_eq_ok_iff validateExecutionPlan_seatWire hreachable
    hmemory).2 ⟨⟨rfl, rfl, rfl, by decide, by decide, by decide⟩,
      seatStep "coffee" "coffee_auto_schedule" "coffeeName" "latte", ?_, rfl, hseat, rfl⟩⟩
  exact List.mem_cons_of_mem _ List.mem_cons_self

end Example

end LlmGateway.PlanRuntime
