import LlmGateway.Effect.OutboxDelivery
import LlmGateway.System.Scenario

/-!
# What is stored for a decision

The row of a decision keeps the action, the reservation and the tracked action beside the body
that is sent. They are taken from the action that the planner passed, while freezing may put
another action into the body. Then, and only then, the copies say something else than the body.
-/

namespace LlmGateway

open Relational

/-- The body carries out the action: the same kind, and the same skill. -/
structure DecisionBody.Performs (body : DecisionBody) (action : AgentAction) : Prop where
  action_eq : body.action = action.kind.action
  skillName_eq : body.skillName = action.kind.skill?.map (·.1)
  schemaVersion_eq : body.schemaVersion = action.kind.skill?.map (·.2)

/-- The capacity key of the skill that the body calls. -/
def OutboxConfig.bodyCapacityKey (config : OutboxConfig) (gatewayId : String)
    (snapshot : List (Text × Json)) (body : DecisionBody) : Option String :=
  body.skillName.bind fun skillName ↦ config.capacityKey gatewayId skillName snapshot

/-- What is stored with a decision describes its body: the action, a complete reservation for
the skill of the body, if its capacity is limited, and a new tracked action only for the skill
that the body calls. -/
structure DecisionRow.DescribesBody (config : OutboxConfig) (context : AgentContext)
    (action : AgentAction) (db db' : Db) (d : DecisionRow) : Prop where
  action_eq : d.action = d.requestBody.action
  capacityKey_eq : d.activityCapacityKey =
    config.bodyCapacityKey d.gatewayId context.sessionSnapshot d.requestBody
  reserved : d.activityCapacityLimit.isSome = d.activityCapacityKey.isSome ∧
    d.activityCapacityExpiresAt.isSome = d.activityCapacityKey.isSome
  tracked : ∀ t ∈ db'.tracking, t ∉ db.tracking → d.requestBody.Performs action

variable {config : OutboxConfig} {now : ℕ} {c : ClaimedEvent} {context : AgentContext}
  {action : AgentAction} {decisionId traceId : String} {db db' : Db} {body : DecisionBody}

/-! ## The frozen body -/

/-- A body is that of the normalized action, or of one in the place of a replaced call. -/
theorem freezeDecision_cases (h : freezeDecision config decisionId traceId context action = .ok body) :
    ∃ frozen, frozenAction config.sha256 context action = some frozen ∧
      body = decisionBody decisionId traceId context frozen := by
  unfold freezeDecision at h
  split at h
  · cases h
  · rename_i frozen hfrozen
    simp only at h
    split_ifs at h
    exact ⟨frozen, hfrozen, (Except.ok.inj h).symm⟩

theorem decisionBody_performs (decisionId traceId : String) (context : AgentContext)
    (action : AgentAction) : (decisionBody decisionId traceId context action).Performs action := by
  constructor
  · rfl
  · unfold decisionBody ActionKind.skill?
    cases action.kind <;> rfl
  · unfold decisionBody ActionKind.skill?
    cases action.kind <;> rfl

/-- The body of an action that is not replaced carries it out. -/
theorem performs_of_not_replaces
    (h : freezeDecision config decisionId traceId context action = .ok body)
    (hreplaces : ¬Replaces config.sha256 context action) : body.Performs action := by
  obtain ⟨frozen, hfrozen, rfl⟩ := freezeDecision_cases h
  rw [frozenAction, if_neg hreplaces] at hfrozen
  obtain rfl := Option.some.inj hfrozen
  have hperforms := decisionBody_performs decisionId traceId context
    (normalizeAction config.sha256 context action)
  have hkeeps : (normalizeAction config.sha256 context action).kind.action = action.kind.action ∧
      (normalizeAction config.sha256 context action).kind.skill? = action.kind.skill? :=
    normalizeAction_keeps
  constructor
  · exact hperforms.action_eq.trans hkeeps.1
  · rw [hperforms.skillName_eq, hkeeps.2]
  · rw [hperforms.schemaVersion_eq, hkeeps.2]

/-- The body in the place of a replaced call calls no skill. -/
theorem action_ne_of_replaces
    (h : freezeDecision config decisionId traceId context action = .ok body)
    (hreplaces : Replaces config.sha256 context action) : body.action ≠ action.kind.action := by
  obtain ⟨frozen, hfrozen, rfl⟩ := freezeDecision_cases h
  rw [frozenAction, if_pos hreplaces] at hfrozen
  have hskill := (deferOrStopAction_spec hfrozen).1
  rw [hreplaces.callSkill]
  intro haction
  cases hkind : frozen.kind with
  | callSkill =>
    rw [hkind] at hskill
    cases hskill
  | wait | noOp | stopHosting =>
    simp only [decisionBody, hkind, ActionKind.action, reduceCtorEq] at haction

/-- The reservation is made for the skill of the action. -/
theorem reservationFor_key (hperforms : body.Performs action) :
    (reservationFor config c context action).key =
      config.bodyCapacityKey c.gatewayId context.sessionSnapshot body := by
  unfold reservationFor OutboxConfig.bodyCapacityKey
  rw [hperforms.skillName_eq]
  unfold ActionKind.skill?
  cases action.kind <;> rfl

/-! ## The stored row -/

/-- A planning that returns a new decision has added it. -/
theorem plansNew_of_created {planned : PlannedDecision}
    (hplanned : plannedDecision config now c context action decisionId db = .ok planned)
    (hcreated : planned.created = true) :
    db.PlansNew config now c context action decisionId
        (planDecision config now c context action decisionId db).2 ∧
      db.decisionBySource c.rowId = none ∧ ∃ d, planned = plannedFromRow d true ∧
        (planDecision config now c context action decisionId db).2.decisionBySource c.rowId =
          some d := by
  unfold plannedDecision at hplanned
  split at hplanned
  · cases hplanned
  rename_i db' hplan
  split at hplanned
  · cases hplanned
  rename_i d hfind
  obtain rfl := (Except.ok.inj hplanned).symm
  have hnone : db.decisionBySource c.rowId = none := Option.isNone_iff_eq_none.1 hcreated
  have hcases := planDecision_cases config now c context action decisionId db
  rw [hplan] at hcases ⊢
  refine ⟨?_, hnone, d, by rw [hnone]; rfl, hfind⟩
  cases hcases with
  | inl hok =>
    cases hok.2 with
    | inl hfound =>
      obtain ⟨other, hother⟩ := hfound.2
      rw [hnone] at hother
      cases hother
    | inr hnew => exact hnew
  | inr hfailed =>
    obtain ⟨error, herror, -⟩ := hfailed
    cases herror

/-- The decision that a planning adds for its event is the planned row. -/
theorem Db.PlansNew.stored (h : db.PlansNew config now c context action decisionId db')
    (hnone : db.decisionBySource c.rowId = none) {d : DecisionRow}
    (hfind : db'.decisionBySource c.rowId = some d) :
    ∃ body, freezeDecision config decisionId c.traceId context action = .ok body ∧
      d = plannedRow config now c context action (reservationFor config c context action) body
        decisionId (db.trackAction c action).1 (db.trackAction c action).2.nextUuid := by
  obtain ⟨body, hbody, hinsert⟩ := h.decisions
  refine ⟨body, hbody, ?_⟩
  have hd : d ∈ db'.decisions := Table.mem_of_find?_eq_some hfind
  have hsource : d.sourceEventId = c.rowId :=
    Table.of_find?_eq_some (w := fun d : DecisionRow ↦ d.sourceEventId = c.rowId) hfind
  cases (Table.mem_of_insert? hinsert).1 hd with
  | inl hold => exact absurd hsource (Table.find?_eq_none.1 hnone d hold)
  | inr heq => exact heq

/-- The copies of a new row describe its body exactly when the body carries out the action. -/
theorem Db.PlansNew.describes_iff (h : db.PlansNew config now c context action decisionId db')
    (hbody : freezeDecision config decisionId c.traceId context action = .ok body)
    (actionTrackingId : Option Uuid) (rowId : Uuid) :
    (plannedRow config now c context action (reservationFor config c context action) body
        decisionId actionTrackingId rowId).DescribesBody config context action db db' ↔
      ¬Replaces config.sha256 context action := by
  constructor
  · intro hdescribes hreplaces
    exact action_ne_of_replaces hbody hreplaces hdescribes.action_eq.symm
  · intro hreplaces
    have hperforms := performs_of_not_replaces hbody hreplaces
    constructor
    · exact hperforms.action_eq.symm
    · exact reservationFor_key hperforms
    · constructor
      · exact h.reserved.symm
      · exact Option.isSome_map
    · intro t ht hnew
      exact hperforms

section Example

open Scenario

/-- The seats of the plaza are counted. -/
def seatKey : String := "g:scene:7:instance:default:skill:seat_sit"

def plazaConfig : SystemConfig :=
  { Scenario.config with
    outbox := { outbox with
      capacityKey := fun _ skillName _ ↦ if skillName = "seat_sit" then some seatKey else none
      capacityLimit := fun skillName _ ↦ if skillName = "seat_sit" then some 377 else none } }

/-- The role sits down, and the goal of sitting is tracked. -/
def sitDown (arguments : List (Text × Json)) : AgentAction :=
  ⟨"rest", 100, .callSkill "seat_sit" "v1" arguments
    (some ⟨"role", "seat_sit", "rested", .int 1, .int 0, 2⟩)⟩

/-- The event of the plaza is claimed and its lease persisted. -/
def inPlaza : World :=
  run (World.exec plazaConfig) (World.initial fun _ ↦ 0)
    [submit [plazaStarted], claim, .persist (token 3)]

/-- A seat with its chair. -/
def sitOnChair : AgentAction := sitDown [("sceneId", .int 7), ("chairId", .int 4)]

end Example

end LlmGateway
