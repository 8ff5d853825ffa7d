import LlmGateway.Activity.Validity
import LlmGateway.Planner.Fallback

/-!
# Plans without the model

`safeFallbackPlan` refuses a lease exactly if there are too few skills or none to begin with, and
otherwise gives a plan of three skills that begins with an authorized one.
-/

namespace LlmGateway

open Relational

/-! ## Texts -/

/-- A text that neither begins nor ends with a space is kept. -/
theorem isNonEmptyString_of_ends {maxLength : ℕ} {text : String} {first last : Char}
    (hfirst : text.toList.head? = some first) (hlast : text.toList.getLast? = some last)
    (hspace : isWhitespace first = false ∧ isWhitespace last = false)
    (hlength : text.length ≤ maxLength) : IsNonEmptyString maxLength text := by
  obtain ⟨rest, hstart⟩ := List.head?_eq_some_iff.1 hfirst
  obtain ⟨front, hfinish⟩ := List.getLast?_eq_some_iff.1 hlast
  have hfirst' : ¬isWhitespace first = true := by rw [hspace.1]; exact Bool.false_ne_true
  have hlast' : ¬isWhitespace last = true := by rw [hspace.2]; exact Bool.false_ne_true
  have hdrop : text.toList.dropWhile isWhitespace = text.toList := by
    rw [hstart, List.dropWhile_cons_of_neg hfirst']
  have hrdrop : text.toList.rdropWhile isWhitespace = text.toList := by
    rw [hfinish, List.rdropWhile_concat_neg _ _ _ hlast']
  refine ⟨?_, ?_, hlength⟩
  · rw [strip, hdrop, hrdrop, String.ofList_toList]
  · rw [← String.length_toList, hstart]
    exact Nat.succ_pos _

theorem isNonEmptyString_append {maxLength : ℕ} {start finish : String} {first last : Char}
    (hfirst : start.toList.head? = some first) (hlast : finish.toList.getLast? = some last)
    (hspace : isWhitespace first = false ∧ isWhitespace last = false)
    (hlength : start.length + finish.length ≤ maxLength) :
    IsNonEmptyString maxLength (start ++ finish) := by
  refine @isNonEmptyString_of_ends maxLength (start ++ finish) first last ?_ ?_ hspace ?_
  · rw [String.toList_append, List.head?_append, hfirst]
    rfl
  · rw [String.toList_append, List.getLast?_append, hlast]
    rfl
  · rw [String.length_append]
    exact hlength

/-! ## Proposals that are validated -/

/-- A proposed step is valid if the step of the plan is. -/
theorem ActivityPlanProposalStep.validate_eq {step : ActivityPlanProposalStep}
    (h : step.toPlanStep.WellFormed) : step.validate = .ok step := by
  have hidentity : step.validateActionIdentity = .ok () := by
    simp only [validateActionIdentity, bind_eq_ok_iff, raiseIf_eq_ok_iff, exists_and_left,
      exists_const]
    push Not
    exact ⟨h.planned.paired, h.planned.not_chat, h.targeted, h.planned.canonical,
      h.planned.version, h.planned.social⟩
  simp only [validate, bind_eq_ok_iff, nonEmptyString_eq_ok_iff, optionalNonEmptyString_eq_ok_iff]
  exact ⟨_, ⟨h.stepId.strip_eq, h.stepId⟩, _, ⟨h.phase.strip_eq, h.phase⟩,
    _, ⟨map_strip_eq_self h.skillName, h.skillName⟩,
    _, ⟨map_strip_eq_self h.schemaVersion, h.schemaVersion⟩,
    _, ⟨map_strip_eq_self h.sceneTargetId, h.sceneTargetId⟩,
    _, ⟨h.intent.strip_eq, h.intent⟩, (), hidentity, rfl⟩

namespace ActivityPlanProposal

/-- The plan of a proposal, before its validation. -/
def plan (proposal : ActivityPlanProposal) (planId : String) (version : ℤ)
    (first : ActivityPlanProposalStep) : ActivityPlan where
  planId := planId
  goalId := proposal.goalId
  goalSummary := proposal.goalSummary
  phase := first.phase
  status := .active
  version := version
  currentStepId := some first.stepId
  steps := proposal.steps.map (·.toPlanStep)

variable {proposal : ActivityPlanProposal} {planId : String} {version : ℤ}
  {first : ActivityPlanProposalStep}

theorem currentStep_plan (hfirst : proposal.steps.head? = some first) :
    (proposal.plan planId version first).currentStep = .ok first.toPlanStep := by
  obtain ⟨rest, hrest⟩ := List.head?_eq_some_iff.1 hfirst
  have hfind : (proposal.steps.map (·.toPlanStep)).find? (fun step ↦ step.stepId = first.stepId) =
      some first.toPlanStep := by
    rw [hrest, List.map_cons]
    exact List.find?_cons_of_pos (decide_eq_true rfl)
  simp only [plan, ActivityPlan.currentStep, ActivityPlan.step, hfind]

/-- A proposal is valid if its plan is. -/
theorem validate_eq (h : (proposal.plan planId version first).WellFormed) :
    proposal.validate = .ok proposal := by
  have hsteps : proposal.steps.mapM ActivityPlanProposalStep.validate = .ok proposal.steps :=
    mapM_eq_ok_self_iff.2 fun step hstep ↦
      ActivityPlanProposalStep.validate_eq (h.steps _ (List.mem_map_of_mem hstep))
  have hids : (proposal.steps.map (·.stepId)).Nodup := by
    have hnodup := h.nodup
    rwa [plan, List.map_map] at hnodup
  have hthree := h.three_le_executable
  have hsix := h.executable_le
  have hlength := h.length_le
  rw [ActivityPlan.executableCount, plan, List.map_map] at hthree hsix
  rw [plan, List.length_map] at hlength
  have hlayout := validateSocialOpportunityLayout_eq_ok_iff.2 h.social
  simp only [validate, validateSteps, bind_eq_ok_iff, raiseIf_eq_ok_iff, exists_and_left,
    exists_const, nonEmptyString_eq_ok_iff]
  push Not
  exact ⟨_, ⟨h.goalId.strip_eq, h.goalId⟩, _, ⟨h.goalSummary.strip_eq, h.goalSummary⟩, _, hsteps,
    ⟨hids, (), hlayout, hthree, hsix, hlength⟩, rfl⟩

/-- A proposal of available skills is materialized. -/
theorem materialize_eq {availableSkills : List (String × String)} {lobby : Bool}
    (h : (proposal.plan planId version first).WellFormed)
    (hfirst : proposal.steps.head? = some first)
    (havailable : ∀ step ∈ proposal.steps, step.skillName.isSome →
      step.isAvailable availableSkills = true)
    (hlobby : lobby = true → first.skillName = some "scene_tornado" ∧
      first.schemaVersion = some "v1") :
    materializeActivityPlan proposal planId version availableSkills lobby =
      .ok (proposal.plan planId version first) := by
  have hexecutable : ¬∃ step ∈ proposal.steps.filter (·.skillName.isSome),
      step.isAvailable availableSkills = false := by
    rintro ⟨step, hstep, hunavailable⟩
    obtain ⟨hmem, hskill⟩ := List.mem_filter.1 hstep
    rw [havailable step hmem hskill] at hunavailable
    cases hunavailable
  have hstart : ¬(lobby = true ∧ (proposal.steps.filter (·.skillName.isSome)).head?.map
      (fun step ↦ (step.skillName, step.schemaVersion)) ≠
        some (some "scene_tornado", some "v1")) := by
    rintro ⟨hlobby', hhead⟩
    obtain ⟨hskill, hversion⟩ := hlobby hlobby'
    obtain ⟨rest, hrest⟩ := List.head?_eq_some_iff.1 hfirst
    have hsome : first.skillName.isSome = true := by
      rw [hskill]
      rfl
    apply hhead
    rw [hrest, List.filter_cons, if_pos hsome, List.head?_cons, Option.map_some, hskill, hversion]
  simp only [materializeActivityPlan, bind_eq_ok_iff, raiseIf_eq_ok_iff, exists_and_left,
    exists_const]
  refine ⟨hexecutable, hstart, ?_⟩
  rw [hfirst]
  exact h.validate_eq

end ActivityPlanProposal

namespace Fallback

open Occupancy (Snapshot)

/-! ## The plan of three skills -/

theorem phaseForSkill_spec (skillName : String) : IsNonEmptyString 64 (phaseForSkill skillName) := by
  unfold phaseForSkill
  split_ifs <;> decide

/-- The skills with an id of their own. -/
def stableIdSkills : List String :=
  ["scene_tornado", "dance_auto_schedule", "hot_air_balloon_auto_schedule"]

theorem stepIdFor_of_not_stable {index : ℕ} {skillName : String} (h : skillName ∉ stableIdSkills) :
    stepIdFor index skillName = "fallback-" ++ toString (index + 1) ++ "-" ++ skillName := by
  simp only [stableIdSkills, List.mem_cons, List.not_mem_nil, or_false, not_or] at h
  simp only [stepIdFor, List.lookup_cons, List.lookup_nil, beq_eq_false_iff_ne.2 h.1,
    beq_eq_false_iff_ne.2 h.2.1, beq_eq_false_iff_ne.2 h.2.2, Option.getD_none]

/-- The id of a stable step does not depend on its index. -/
theorem stepIdFor_of_stable {index : ℕ} {skillName : String} (h : skillName ∈ stableIdSkills) :
    stepIdFor index skillName = stepIdFor 0 skillName := by
  simp only [stableIdSkills, List.mem_cons, List.not_mem_nil, or_false] at h
  obtain rfl | rfl | rfl := h <;> rfl

/-- The other ids begin with the same character. -/
theorem head_stepIdFor {index : ℕ} {skillName : String} (h : skillName ∉ stableIdSkills) :
    (stepIdFor index skillName).toList.head? = some 'f' := by
  rw [stepIdFor_of_not_stable h]
  simp only [String.toList_append, List.head?_append]
  rfl

theorem stable_ids : ∀ skillName ∈ stableIdSkills,
    (stepIdFor 0 skillName).toList.head? ≠ some 'f' ∧ IsNonEmptyString 128 (stepIdFor 0 skillName) ∧
      stepIdFor 0 skillName ≠ "social-opportunity" ∧
        ∀ other ∈ stableIdSkills, stepIdFor 0 skillName = stepIdFor 0 other → skillName = other := by
  decide

theorem skill_ends : ∀ skillName ∈ canonicalNonChatSkills,
    skillName.toList.head?.map isWhitespace = some false ∧
      skillName.toList.getLast?.map isWhitespace = some false := by
  decide

theorem skill_texts : ∀ skillName ∈ canonicalNonChatSkills,
    skillName ≠ "nearby_chat_send" ∧ skillName.length ≤ 64 ∧
      (∃ first ∈ skillName.toList.head?, isWhitespace first = false) ∧
        ∃ last ∈ skillName.toList.getLast?, isWhitespace last = false := by
  have hlimits : ∀ skillName ∈ canonicalNonChatSkills,
      skillName ≠ "nearby_chat_send" ∧ skillName.length ≤ 64 := by decide
  intro skillName hskill
  obtain ⟨hfirst, hlast⟩ := skill_ends skillName hskill
  exact ⟨(hlimits skillName hskill).1, (hlimits skillName hskill).2,
    Option.map_eq_some_iff.1 hfirst, Option.map_eq_some_iff.1 hlast⟩

/-- The number in the id of a step. -/
theorem ordinal_texts : ∀ index < 3, ∀ other < 3, index ≠ other →
    ("fallback-" ++ toString (index + 1) ++ "-").toList ≠
        ("fallback-" ++ toString (other + 1) ++ "-").toList ∧
      ("fallback-" ++ toString (index + 1) ++ "-").toList.length = 11 := by
  decide

theorem isNonEmptyString_stepIdFor {index : ℕ} {skillName : String} (hindex : index < 3)
    (hskill : skillName ∈ canonicalNonChatSkills) :
    IsNonEmptyString 128 (stepIdFor index skillName) := by
  by_cases hstable : skillName ∈ stableIdSkills
  · rw [stepIdFor_of_stable hstable]
    exact (stable_ids skillName hstable).2.1
  · obtain ⟨-, hlength, -, last, hlast, hspace⟩ := skill_texts skillName hskill
    rw [stepIdFor_of_not_stable hstable]
    have hlong : ("fallback-" ++ toString (index + 1) ++ "-").length = 11 := by
      have hother : index ≠ if index = 0 then 1 else 0 := by
        split_ifs <;> omega
      rw [← String.length_toList]
      exact (ordinal_texts index hindex _ (by split_ifs <;> omega) hother).2
    have hfirst : ("fallback-" ++ toString (index + 1) ++ "-").toList.head? = some 'f' := by
      simp only [String.toList_append, List.head?_append]
      rfl
    exact isNonEmptyString_append hfirst hlast ⟨by decide, hspace⟩ (by omega)

theorem stepIdFor_ne_social {index : ℕ} {skillName : String} :
    stepIdFor index skillName ≠ "social-opportunity" := by
  by_cases hstable : skillName ∈ stableIdSkills
  · rw [stepIdFor_of_stable hstable]
    exact (stable_ids skillName hstable).2.2.1
  · intro heq
    have hhead := @head_stepIdFor index skillName hstable
    rw [heq] at hhead
    exact absurd hhead (by decide)

/-- Different skills at different places have different ids. -/
theorem stepIdFor_ne {index other : ℕ} {skillName otherName : String} (hindex : index < 3)
    (hother : other < 3) (hne : index ≠ other) (hskills : skillName ≠ otherName) :
    stepIdFor index skillName ≠ stepIdFor other otherName := by
  intro heq
  by_cases hstable : skillName ∈ stableIdSkills
  · obtain ⟨hhead, -, -, hinjective⟩ := stable_ids skillName hstable
    rw [stepIdFor_of_stable hstable] at heq
    by_cases hotherStable : otherName ∈ stableIdSkills
    · rw [stepIdFor_of_stable hotherStable] at heq
      exact hskills (hinjective otherName hotherStable heq)
    · rw [heq] at hhead
      exact hhead (head_stepIdFor hotherStable)
  · have hfirst := @head_stepIdFor index skillName hstable
    by_cases hotherStable : otherName ∈ stableIdSkills
    · rw [heq, stepIdFor_of_stable hotherStable] at hfirst
      exact (stable_ids otherName hotherStable).1 hfirst
    · rw [stepIdFor_of_not_stable hstable, stepIdFor_of_not_stable hotherStable] at heq
      have happend (a b : String) : (a ++ b).toList = a.toList ++ b.toList := String.toList_append
      have hlist := congrArg String.toList heq
      rw [happend _ skillName, happend _ otherName] at hlist
      obtain ⟨hdiffer, hlength⟩ := ordinal_texts index hindex other hother hne
      have hlengths := hlength.trans (ordinal_texts other hother index hindex hne.symm).2.symm
      exact hdiffer (List.append_inj hlist hlengths).1

/-- A step of the plan is valid. -/
theorem fallbackStep_wellFormed {targetId : Option String} {index : ℕ} {skillName : String}
    (htarget : ∀ target ∈ targetId, IsNonEmptyString 256 target)
    (hskill : skillName ∈ canonicalNonChatSkills) (hindex : index < 3) :
    (fallbackStep targetId index skillName).toPlanStep.WellFormed := by
  obtain ⟨hchat, hlength, ⟨first, hfirst, hfirstSpace⟩, last, hlast, hlastSpace⟩ :=
    skill_texts skillName hskill
  constructor
  case stepId => exact isNonEmptyString_stepIdFor hindex hskill
  case phase => exact phaseForSkill_spec skillName
  case skillName =>
    rintro _ ⟨⟩
    exact isNonEmptyString_of_ends hfirst hlast ⟨hfirstSpace, hlastSpace⟩ (by omega)
  case schemaVersion =>
    rintro _ ⟨⟩
    decide
  case sceneTargetId =>
    intro target hmem
    simp only [ActivityPlanProposalStep.toPlanStep, fallbackStep, Option.mem_def,
      Option.ite_none_right_eq_some] at hmem
    exact htarget target hmem.2
  case intent =>
    simp only [ActivityPlanProposalStep.toPlanStep, fallbackStep]
    split_ifs
    · decide
    · have hstart : "Continue the hosted activity with ".toList.head? = some 'C' := by decide
      have hlong : "Continue the hosted activity with ".length = 34 := by decide
      exact isNonEmptyString_append hstart hlast ⟨by decide, hlastSpace⟩ (by omega)
  case one_le_maxAttempts | maxAttempts_le | attemptCount_nonneg | attemptCount_le =>
    simp [ActivityPlanProposalStep.toPlanStep, fallbackStep]
  case planned =>
    refine ⟨rfl, ?_, ?_, fun _ ↦ rfl, ?_⟩
    · exact fun h ↦ hchat (Option.some.inj h)
    · rintro _ ⟨⟩
      exact hskill
    · intro hnone
      cases hnone
  case targeted =>
    intro hsome
    simp only [ActivityPlanProposalStep.toPlanStep, fallbackStep] at hsome ⊢
    by_cases hmove : skillName = "move_to"
    · rw [hmove]
    · rw [if_neg hmove] at hsome
      cases hsome

theorem socialOpportunity_wellFormed : socialOpportunity.toPlanStep.WellFormed := by
  have hvalidate : socialOpportunity.toPlanStep.validate = .ok socialOpportunity.toPlanStep := by
    decide
  exact ActivityPlanStep.wellFormed_of_validate hvalidate

theorem fallbackProposal_steps {first second third : String} {targetId : Option String} :
    (fallbackProposal [first, second, third] targetId).steps =
      [fallbackStep targetId 0 first, fallbackStep targetId 1 second, fallbackStep targetId 2 third,
        socialOpportunity] := by
  simp only [fallbackProposal, List.mapIdx_cons, List.mapIdx_nil, List.cons_append, List.nil_append]

/-- Three different skills make a valid plan. -/
theorem fallbackPlan_wellFormed {first second third planId : String} {version : ℤ}
    {targetId : Option String} (hplanId : IsNonEmptyString 128 planId) (hversion : 1 ≤ version)
    (htarget : ∀ target ∈ targetId, IsNonEmptyString 256 target)
    (hskills : ∀ skillName ∈ [first, second, third], skillName ∈ canonicalNonChatSkills)
    (hnodup : [first, second, third].Nodup) :
    ((fallbackProposal [first, second, third] targetId).plan planId version
      (fallbackStep targetId 0 first)).WellFormed := by
  simp only [List.forall_mem_cons] at hskills
  obtain ⟨hfirst, hsecond, hthird, -⟩ := hskills
  have hids : [stepIdFor 0 first, stepIdFor 1 second, stepIdFor 2 third].Nodup := by
    simp only [List.nodup_cons, List.mem_cons, List.not_mem_nil, or_false, not_or,
      not_false_eq_true, List.nodup_nil, and_true] at hnodup ⊢
    obtain ⟨⟨hfirstSecond, hfirstThird⟩, hsecondThird⟩ := hnodup
    exact ⟨⟨stepIdFor_ne (by decide) (by decide) (by decide) hfirstSecond,
      stepIdFor_ne (by decide) (by decide) (by decide) hfirstThird⟩,
      stepIdFor_ne (by decide) (by decide) (by decide) hsecondThird⟩
  have hnames : (fallbackProposal [first, second, third] targetId).steps.map (·.skillName) =
      [some first, some second, some third, none] := by
    rw [fallbackProposal_steps]
    rfl
  have hplanNames : ((fallbackProposal [first, second, third] targetId).steps.map
      (·.toPlanStep)).map (·.skillName) = [some first, some second, some third, none] := by
    rw [List.map_map]
    exact hnames
  constructor
  case planId => exact hplanId
  case goalId =>
    have hgoalId : IsNonEmptyString 128 "plaza_social" := by decide
    exact hgoalId
  case goalSummary =>
    have hgoalSummary : IsNonEmptyString 512
        "Complete a short sequence using only skills published by the Gateway" := by decide
    exact hgoalSummary
  case phase => exact phaseForSkill_spec first
  case one_le_version => exact hversion
  case currentStepId =>
    rintro _ ⟨⟩
    exact isNonEmptyString_stepIdFor (by decide) hfirst
  case steps =>
    simp only [ActivityPlanProposal.plan, fallbackProposal_steps, List.map_cons, List.map_nil,
      List.forall_mem_cons]
    exact ⟨fallbackStep_wellFormed htarget hfirst (by decide),
      fallbackStep_wellFormed htarget hsecond (by decide),
      fallbackStep_wellFormed htarget hthird (by decide), socialOpportunity_wellFormed,
      List.forall_mem_nil _⟩
  case nodup =>
    simp only [ActivityPlanProposal.plan, fallbackProposal_steps, List.map_cons, List.map_nil]
    have hsocial : ∀ stepId ∈ [stepIdFor 0 first, stepIdFor 1 second, stepIdFor 2 third],
        stepId ≠ "social-opportunity" := by
      simp only [List.forall_mem_cons]
      exact ⟨stepIdFor_ne_social, stepIdFor_ne_social, stepIdFor_ne_social, List.forall_mem_nil _⟩
    have happend : ([stepIdFor 0 first, stepIdFor 1 second, stepIdFor 2 third] ++
        ["social-opportunity"]).Nodup := by
      refine List.nodup_append.2 ⟨hids, List.nodup_singleton _, fun stepId hmem other hother ↦ ?_⟩
      rw [List.mem_singleton.1 hother]
      exact hsocial stepId hmem
    exact happend
  case social =>
    constructor
    · rw [ActivityPlanProposal.plan, hplanNames]
      exact Nat.le_refl 1
    · rw [ActivityPlanProposal.plan, hplanNames, fallbackProposal_steps]
      rintro _ ⟨⟩
      rfl
  case three_le_executable =>
    rw [ActivityPlan.executableCount, ActivityPlanProposal.plan, hplanNames]
    exact Nat.le_refl 3
  case executable_le =>
    rw [ActivityPlan.executableCount, ActivityPlanProposal.plan, hplanNames]
    exact Nat.le_add_right 3 3
  case length_le =>
    rw [ActivityPlanProposal.plan, fallbackProposal_steps]
    exact Nat.le_add_right 4 3
  case currentStepId_mem =>
    rintro _ ⟨⟩
    simp only [ActivityPlanProposal.plan, fallbackProposal_steps, List.map_cons]
    exact List.mem_cons_self
  case completed => exact fun h ↦ PlanStatus.noConfusion h
  case active =>
    intro _ hnone
    cases hnone
  case phase_eq =>
    rw [ActivityPlanProposal.currentStep_plan (by rw [fallbackProposal_steps]; rfl)]
    rintro _ ⟨⟩
    rfl

/-! ## Which leases are refused -/

section Lease

variable (runtime : Runtime) (stepAuthorizer : ActivityStepAuthorizer) (context : AgentContext)
  (sceneCatalog : Option Scene.Catalog) (capacity : Option Snapshot)

/-- The role is in the lobby. -/
def InLobby : Prop := isLobby context.sessionSnapshot = .ok true

/-- The skill may be a step of a plan for the lease. -/
structure Eligible (skillName : String) : Prop where
  canonical : skillName ∈ canonicalNonChatSkills
  published : (skillName, "v1") ∈ context.available
  room : ∀ snapshot ∈ capacity, snapshot.isAvailable skillName = true
  tornado : skillName = "scene_tornado" → InLobby context
  walk : skillName = "move_to" →
    ∀ catalog ∈ sceneCatalog, ∃ target, catalog.Offers runtime.digits context target

/-- There are three such skills. -/
def AtLeastThree (p : String → Prop) : Prop :=
  ∃ three : List String, three.Nodup ∧ three.length = 3 ∧ ∀ skillName ∈ three, p skillName

/-- The lease publishes too few skills, or none that a plan may begin with. -/
def Refused : Prop :=
  ¬AtLeastThree (Eligible runtime context sceneCatalog capacity) ∨
    (InLobby context ∧ ¬(("scene_tornado", "v1") ∈ context.available ∧
      stepAuthorizer context "scene_tornado" "v1" = true)) ∨
    (¬InLobby context ∧ ∀ skillName, Eligible runtime context sceneCatalog capacity skillName →
      stepAuthorizer context skillName "v1" = true → HasWeight capacity skillName = false)

/-- The texts and numbers of the lease can be converted. -/
structure Readable (version : ℤ) (recentActions : List (List (Text × Json))) : Prop where
  scene : Scene.PlainId runtime.digits
    (snapshotValue context.sessionSnapshot "SceneId" "sceneId")
  role : Scene.PlainIdentity (snapshotValue context.sessionSnapshot "RoleId" "roleId")
  account : Scene.PlainIdentity (snapshotValue context.sessionSnapshot "AccountId" "accountId")
  session : Scene.PlainIdentity (snapshotValue context.sessionSnapshot "SessionId" "sessionId")
  digits : ∀ identity, Scene.roleIdentityFromSnapshot context.sessionSnapshot context.sessionId =
    .ok identity → (identity.strip.trailingDigits runtime.digits).length ≤ maxStrDigits
  utf8 : ∀ identity, Scene.roleIdentityFromSnapshot context.sessionSnapshot context.sessionId =
    .ok identity → identity.isUtf8 = true
  version : version.natAbs < 10 ^ maxStrDigits
  walks : Scene.PlainWalks recentActions

/-- What a plan without the model is like. -/
structure SafePlan (plan : ActivityPlan) : Prop where
  active : plan.status = .active
  accepted : plan.validate = .ok plan
  three : (plan.steps.filterMap (·.skillName)).length = 3
  nodup : (plan.steps.filterMap (·.skillName)).Nodup
  first : ∃ step first, plan.currentStep = .ok step ∧ step.skillName = some first ∧
    (plan.steps.filterMap (·.skillName)).head? = some first ∧
      stepAuthorizer context first "v1" = true ∧ (InLobby context → first = "scene_tornado")
  published : ∀ skillName ∈ plan.steps.filterMap (·.skillName),
    (skillName, "v1") ∈ context.available
  walk : Eligible runtime context sceneCatalog capacity "move_to" →
    "move_to" ∈ plan.steps.filterMap (·.skillName)
  targets : ∀ step ∈ plan.steps, step.skillName = some "move_to" → ∀ catalog ∈ sceneCatalog,
    ∃ target, step.sceneTargetId.bind catalog.getMovementTarget = some target ∧
      catalog.Offers runtime.digits context target

end Lease

section Outcome

variable {runtime : Runtime} {stepAuthorizer : ActivityStepAuthorizer} {context : AgentContext}
  {sceneCatalog : Option Scene.Catalog} {capacity : Option Snapshot} {version : ℤ}
  {recentActions : List (List (Text × Json))}

theorem exists_isLobby {snapshot : List (Text × Json)} {digits : DigitTable}
    (h : Scene.PlainId digits (snapshotValue snapshot "SceneId" "sceneId")) :
    ∃ lobby, isLobby snapshot = .ok lobby := by
  have hfirst : ∃ isFirst, isFirstScene (snapshotValue snapshot "SceneId" "sceneId") =
      .ok isFirst := by
    cases hvalue : snapshotValue snapshot "SceneId" "sceneId" with
    | none => exact ⟨_, rfl⟩
    | some value =>
      rw [hvalue] at h
      cases value with
      | int sceneId =>
        obtain ⟨text, htext⟩ := exists_writeInt h
        rw [isFirstScene, htext]
        exact ⟨_, rfl⟩
      | null | bool | float | str | arr | obj => exact ⟨_, rfl⟩
  obtain ⟨isFirst, hfirst⟩ := hfirst
  rw [isLobby, hfirst]
  exact ⟨_, rfl⟩

theorem mem_availableSkills {targetId : Option String} {skillName : String} :
    (skillName, "v1") ∈ availableSkills context sceneCatalog targetId ↔
      (skillName, "v1") ∈ context.available ∧ skillName ∈ canonicalNonChatSkills ∧
        (skillName = "move_to" → sceneCatalog.isSome = true → targetId ≠ none) := by
  unfold availableSkills
  simp only
  split_ifs with hdiscard
  · simp only [List.mem_filter, decide_eq_true_eq, ne_eq, Prod.mk.injEq, and_true, and_assoc,
      hdiscard.1, hdiscard.2, not_true_eq_false, imp_false]
  · have hkept : skillName = "move_to" → sceneCatalog.isSome = true → targetId ≠ none :=
      fun _ hsome hnone ↦ hdiscard ⟨hsome, hnone⟩
    rw [List.mem_filter, decide_eq_true_eq, and_iff_left hkept]

theorem mem_safeFallbackSkillOrder {skillName : String} :
    skillName ∈ safeFallbackSkillOrder ↔ skillName ∈ canonicalNonChatSkills := by
  have hperm : safeFallbackSkillOrder.Perm canonicalNonChatSkills := by decide
  exact hperm.mem_iff

theorem nodup_orderedSkills {available : List (String × String)} {lobby : Bool} :
    (orderedSkills available lobby capacity).Nodup := by
  have hnodup : safeFallbackSkillOrder.Nodup := by decide
  exact hnodup.filter _

/-- The skills in the order of the source are the eligible ones. -/
theorem mem_orderedSkills {targetId : Option String} {lobby : Bool} {skillName : String}
    (hlobby : isLobby context.sessionSnapshot = .ok lobby)
    (htarget : sceneCatalog.isSome = true → (targetId ≠ none ↔
      ∀ catalog ∈ sceneCatalog, ∃ target, catalog.Offers runtime.digits context target)) :
    skillName ∈ orderedSkills (availableSkills context sceneCatalog targetId) lobby capacity ↔
      Eligible runtime context sceneCatalog capacity skillName := by
  have hin : lobby = true ↔ InLobby context := by
    rw [InLobby, hlobby, Except.ok.injEq]
  simp only [orderedSkills, List.mem_filter, decide_eq_true_eq, List.contains_iff_mem,
    mem_availableSkills, mem_safeFallbackSkillOrder, Option.all_eq_true, hin]
  constructor
  · rintro ⟨hcanonical, ⟨hpublished, -, hmove⟩, htornado, hroom⟩
    refine ⟨hcanonical, hpublished, fun snapshot h ↦ hroom snapshot h, fun h ↦ ?_, fun h ↦ ?_⟩
    · exact htornado.resolve_right (not_not.2 h)
    · intro catalog hcatalog
      have hsome := Option.isSome_of_mem hcatalog
      exact (htarget hsome).1 (hmove h hsome) catalog hcatalog
  · intro h
    refine ⟨h.canonical, ⟨h.published, h.canonical, fun hmove hsome ↦ ?_⟩, ?_, h.room⟩
    · exact (htarget hsome).2 (h.walk hmove)
    · by_cases htornado : skillName = "scene_tornado"
      · exact Or.inl (h.tornado htornado)
      · exact Or.inr htornado

/-- Three of the elements of a list without duplicates. -/
theorem atLeastThree_iff {skills : List String} {p : String → Prop} (hnodup : skills.Nodup)
    (hmem : ∀ skillName, skillName ∈ skills ↔ p skillName) :
    AtLeastThree p ↔ 3 ≤ skills.length := by
  constructor
  · rintro ⟨three, hthree, hlength, hall⟩
    have hsub : three ⊆ skills := fun skillName h ↦ (hmem skillName).2 (hall skillName h)
    exact hlength ▸ (hthree.subperm hsub).length_le
  · intro hlength
    refine ⟨skills.take 3, List.Nodup.sublist (List.take_sublist 3 skills) hnodup,
      List.length_take_of_le hlength, fun skillName h ↦ ?_⟩
    exact (hmem skillName).1 (List.mem_of_mem_take h)

variable {planId : String} {lobby : Bool} {targetId : Option String} {identity : Text}

/-- What a lease that is not refused selects. -/
structure Selection (runtime : Runtime) (stepAuthorizer : ActivityStepAuthorizer)
    (context : AgentContext) (sceneCatalog : Option Scene.Catalog) (capacity : Option Snapshot)
    (selected : List String) : Prop where
  three : selected.length = 3
  nodup : selected.Nodup
  published : ∀ skillName ∈ selected, skillName ∈ canonicalNonChatSkills ∧
    (skillName, "v1") ∈ context.available
  first : ∃ first, selected.head? = some first ∧ stepAuthorizer context first "v1" = true ∧
    (InLobby context → first = "scene_tornado")
  walk : "move_to" ∈ selected ↔ Eligible runtime context sceneCatalog capacity "move_to"

/-- In the lobby the first skill leaves it. -/
theorem firstSkill_lobby {authorized : String → Bool} {ordered : List String} :
    firstSkill runtime identity version capacity authorized
        (availableSkills context sceneCatalog targetId) true ordered =
      if ("scene_tornado", "v1") ∈ context.available ∧ authorized "scene_tornado" = true then
        .ok "scene_tornado"
      else .error (.activityPlanValidation
        "Lobby activity fallback requires an authorized scene_tornado:v1") := by
  have havailable : (availableSkills context sceneCatalog targetId).contains
      ("scene_tornado", "v1") = true ↔ ("scene_tornado", "v1") ∈ context.available := by
    rw [List.contains_iff_mem, mem_availableSkills]
    exact ⟨And.left, fun h ↦ ⟨h, by decide, fun hmove ↦ absurd hmove (by decide)⟩⟩
  simp only [firstSkill, if_true, Bool.and_eq_true, havailable]

/-- With a first skill and enough others, three skills are planned. -/
theorem plannedSkills_of_first {authorized : String → Bool} {available : List (String × String)}
    (template : Bool) {ordered : List String} {first : String}
    (hfirst : firstSkill runtime identity version capacity authorized available lobby ordered =
      .ok first)
    (hutf8 : identity.isUtf8 = true)
    (htrailing : (identity.strip.trailingDigits runtime.digits).length ≤ maxStrDigits)
    (hversion : version.natAbs < 10 ^ maxStrDigits) (hnodup : ordered.Nodup)
    (hthree : 3 ≤ (ordered.filter (HasWeight capacity ·)).length) :
    ∃ second third, plannedSkills runtime identity version capacity authorized available lobby
        template ordered = .ok [first, second, third] ∧ [first, second, third].Nodup ∧
      second ∈ ordered ∧ third ∈ ordered ∧
        ("move_to" ∈ ordered → "move_to" ∈ [first, second, third]) := by
  obtain ⟨remaining, hremaining, hweighted⟩ := @exists_remainingSkills runtime identity version
    capacity first ordered hnodup hutf8 hversion
  obtain ⟨arranged, harranged, hperm⟩ := @exists_arrangedSkills runtime identity first remaining
    template htrailing
  have hothers := hperm.trans hweighted
  have hmem : ∀ skillName ∈ arranged, skillName ∈ ordered ∧ skillName ≠ first := by
    intro skillName hskill
    have hfiltered := List.mem_of_mem_filter (hothers.mem_iff.1 hskill)
    simpa only [List.mem_filter, decide_eq_true_eq] using hfiltered
  have hlength : 2 ≤ arranged.length := by
    have herase : (ordered.filter (HasWeight capacity ·)).erase first =
        (ordered.filter (· ≠ first)).filter (HasWeight capacity ·) := by
      rw [List.Nodup.erase_eq_filter (hnodup.filter _), List.filter_comm]
      congr 1
      apply List.filter_congr
      intro skillName _
      rw [decide_not]
      rfl
    have hle := @List.le_length_erase _ _ _ first (ordered.filter (HasWeight capacity ·))
    rw [herase] at hle
    rw [hothers.length_eq]
    omega
  have hcons : (first :: arranged).Nodup := by
    refine List.nodup_cons.2 ⟨fun h ↦ (hmem first h).2 rfl, ?_⟩
    exact hothers.nodup_iff.2 ((hnodup.filter _).filter _)
  obtain ⟨second, third, hselected, hdistinct, hsecond, hthird, hwalk⟩ :=
    selectedSkills_spec hcons hlength fun skillName h ↦ (hmem skillName h).1
  refine ⟨second, third, ?_, hdistinct, hsecond, hthird, hwalk⟩
  rw [← hselected]
  exact bind_eq_ok_iff.2 ⟨first, hfirst, bind_eq_ok_iff.2 ⟨remaining, raised_eq_ok_iff.2 hremaining,
    bind_eq_ok_iff.2 ⟨arranged, raised_eq_ok_iff.2 harranged, rfl⟩⟩⟩

theorem plannedSkills_spec (hlobby : isLobby context.sessionSnapshot = .ok lobby)
    (htarget : sceneCatalog.isSome = true → (targetId ≠ none ↔
      ∀ catalog ∈ sceneCatalog, ∃ target, catalog.Offers runtime.digits context target))
    (hutf8 : identity.isUtf8 = true)
    (htrailing : (identity.strip.trailingDigits runtime.digits).length ≤ maxStrDigits)
    (hversion : version.natAbs < 10 ^ maxStrDigits)
    (hthree : AtLeastThree fun skillName ↦
      Eligible runtime context sceneCatalog capacity skillName ∧
        HasWeight capacity skillName = true) (template : Bool) :
    (Refused runtime stepAuthorizer context sceneCatalog capacity ∧
      ∃ message, plannedSkills runtime identity version capacity (stepAuthorizer context · "v1")
        (availableSkills context sceneCatalog targetId) lobby template
        (orderedSkills (availableSkills context sceneCatalog targetId) lobby capacity) =
          .error (.activityPlanValidation message)) ∨
      (¬Refused runtime stepAuthorizer context sceneCatalog capacity ∧
        ∃ selected, plannedSkills runtime identity version capacity (stepAuthorizer context · "v1")
          (availableSkills context sceneCatalog targetId) lobby template
          (orderedSkills (availableSkills context sceneCatalog targetId) lobby capacity) =
            .ok selected ∧
          Selection runtime stepAuthorizer context sceneCatalog capacity selected) := by
  have hmem (skillName : String) : skillName ∈ orderedSkills (availableSkills context sceneCatalog
      targetId) lobby capacity ↔ Eligible runtime context sceneCatalog capacity skillName :=
    mem_orderedSkills hlobby htarget
  have hnodup : (orderedSkills (availableSkills context sceneCatalog targetId) lobby
    capacity).Nodup := nodup_orderedSkills
  have hweights : 3 ≤ ((orderedSkills (availableSkills context sceneCatalog targetId) lobby
      capacity).filter (HasWeight capacity ·)).length := by
    refine (atLeastThree_iff (hnodup.filter _) fun skillName ↦ ?_).1 hthree
    rw [List.mem_filter, hmem]
  have hselect {first : String} (hfirst : firstSkill runtime identity version capacity
      (stepAuthorizer context · "v1") (availableSkills context sceneCatalog targetId) lobby
      (orderedSkills (availableSkills context sceneCatalog targetId) lobby capacity) = .ok first)
      (hpublished : first ∈ canonicalNonChatSkills ∧ (first, "v1") ∈ context.available)
      (hauthorized : stepAuthorizer context first "v1" = true)
      (htornado : InLobby context → first = "scene_tornado")
      (hwalk : first = "move_to" → Eligible runtime context sceneCatalog capacity "move_to") :
      ∃ selected, plannedSkills runtime identity version capacity (stepAuthorizer context · "v1")
          (availableSkills context sceneCatalog targetId) lobby template
          (orderedSkills (availableSkills context sceneCatalog targetId) lobby capacity) =
            .ok selected ∧
          Selection runtime stepAuthorizer context sceneCatalog capacity selected := by
    obtain ⟨second, third, hplanned, hdistinct, hsecond, hthird, hmove⟩ :=
      plannedSkills_of_first template hfirst hutf8 htrailing hversion hnodup hweights
    rw [hmem] at hsecond hthird hmove
    refine ⟨_, hplanned, rfl, hdistinct, ?_, ⟨first, rfl, hauthorized, htornado⟩, ?_, hmove⟩
    · simp only [List.forall_mem_cons]
      exact ⟨hpublished, ⟨hsecond.canonical, hsecond.published⟩,
        ⟨hthird.canonical, hthird.published⟩, List.forall_mem_nil _⟩
    · intro h
      simp only [List.mem_cons, List.not_mem_nil, or_false] at h
      obtain h | h | h := h
      · exact hwalk h.symm
      · exact h ▸ hsecond
      · exact h ▸ hthird
  have heligible : AtLeastThree (Eligible runtime context sceneCatalog capacity) := by
    obtain ⟨three, hnodup, hlength, hall⟩ := hthree
    exact ⟨three, hnodup, hlength, fun skillName h ↦ (hall skillName h).1⟩
  cases lobby with
  | true =>
    have hin : InLobby context := hlobby
    by_cases hallowed : ("scene_tornado", "v1") ∈ context.available ∧
        stepAuthorizer context "scene_tornado" "v1" = true
    · refine Or.inr ⟨?_, hselect ?_ ⟨by decide, hallowed.1⟩ hallowed.2 (fun _ ↦ rfl)
        fun h ↦ absurd h (by decide)⟩
      · rintro (hfew | ⟨-, hnot⟩ | ⟨hnot, -⟩)
        · exact hfew heligible
        · exact hnot hallowed
        · exact hnot hin
      · rw [firstSkill_lobby, if_pos hallowed]
    · refine Or.inl ⟨Or.inr (Or.inl ⟨hin, hallowed⟩),
        "Lobby activity fallback requires an authorized scene_tornado:v1", ?_⟩
      rw [plannedSkills, firstSkill_lobby, if_neg hallowed]
      rfl
  | false =>
    have hout : ¬InLobby context := by
      rw [InLobby, hlobby]
      decide
    obtain ⟨first, hordered, hauthorized, hweight, hfirst⟩ | ⟨hnone, message, hfirst⟩ :=
      @firstSkill_spec runtime identity version capacity
        (orderedSkills (availableSkills context sceneCatalog targetId) false capacity)
        (stepAuthorizer context · "v1") (availableSkills context sceneCatalog targetId) hnodup hutf8
        htrailing hversion
    · have hfirstEligible := (hmem first).1 hordered
      refine Or.inr ⟨?_, hselect hfirst ⟨hfirstEligible.canonical, hfirstEligible.published⟩
        hauthorized (fun h ↦ absurd h hout) fun h ↦ h ▸ hfirstEligible⟩
      rintro (hfew | ⟨hnot, -⟩ | ⟨-, hall⟩)
      · exact hfew heligible
      · exact hout hnot
      · rw [hall first hfirstEligible hauthorized] at hweight
        cases hweight
    · refine Or.inl ⟨Or.inr (Or.inr ⟨hout, fun skillName h hauth ↦ ?_⟩), message, ?_⟩
      · exact hnone skillName ((hmem skillName).2 h) hauth
      · rw [plannedSkills, hfirst]
        rfl

/-- The plan of three selected skills. -/
theorem materializedPlan_eq {first second third : String} {available : List (String × String)}
    (hwellFormed : ((fallbackProposal [first, second, third] targetId).plan planId version
      (fallbackStep targetId 0 first)).WellFormed)
    (havailable : ∀ skillName ∈ [first, second, third], (skillName, "v1") ∈ available)
    (hlobby : lobby = true → first = "scene_tornado") :
    materializedPlan planId version available lobby targetId [first, second, third] =
      .ok ((fallbackProposal [first, second, third] targetId).plan planId version
        (fallbackStep targetId 0 first)) := by
  have hvalidate := ActivityPlanProposal.validate_eq hwellFormed
  have hhead : (fallbackProposal [first, second, third] targetId).steps.head? =
      some (fallbackStep targetId 0 first) := by
    rw [fallbackProposal_steps]
    rfl
  have hsteps : ∀ step ∈ (fallbackProposal [first, second, third] targetId).steps,
      step.skillName.isSome → step.isAvailable available = true := by
    simp only [List.forall_mem_cons] at havailable
    obtain ⟨hfirst, hsecond, hthird, -⟩ := havailable
    simp only [fallbackProposal_steps, List.forall_mem_cons]
    refine ⟨fun _ ↦ decide_eq_true hfirst, fun _ ↦ decide_eq_true hsecond,
      fun _ ↦ decide_eq_true hthird, ?_, List.forall_mem_nil _⟩
    intro hnone
    cases hnone
  have hmaterialized := ActivityPlanProposal.materialize_eq hwellFormed hhead hsteps fun h ↦
    ⟨congrArg some (hlobby h), rfl⟩
  rw [materializedPlan, hvalidate, raised_ok]
  exact congrArg (Except.mapError PlanError.activityPlanValidation) hmaterialized

theorem fallbackStep_of_walk {index : ℕ} {skillName : String}
    (h : (fallbackStep targetId index skillName).toPlanStep.skillName = some "move_to") :
    (fallbackStep targetId index skillName).toPlanStep.sceneTargetId = targetId ∧
      skillName = "move_to" :=
  ⟨if_pos (Option.some.inj h), Option.some.inj h⟩

/-- The selected skills make a plan as it should be. -/
theorem exists_safePlan {first second third : String}
    (hselection : Selection runtime stepAuthorizer context sceneCatalog capacity
      [first, second, third])
    (hplanId : IsNonEmptyString 128 planId) (hversion : 1 ≤ version)
    (hlobby : isLobby context.sessionSnapshot = .ok lobby)
    (hid : ∀ id ∈ targetId, IsNonEmptyString 256 id)
    (hwalk : Eligible runtime context sceneCatalog capacity "move_to" → ∀ catalog ∈ sceneCatalog,
      ∃ target, targetId.bind catalog.getMovementTarget = some target ∧
        catalog.Offers runtime.digits context target) :
    ∃ plan, materializedPlan planId version (availableSkills context sceneCatalog targetId) lobby
        targetId [first, second, third] = .ok plan ∧
      SafePlan runtime stepAuthorizer context sceneCatalog capacity plan := by
  obtain ⟨_, ⟨⟩, hauthorized, htornado⟩ := hselection.first
  have hwellFormed := fallbackPlan_wellFormed hplanId hversion hid
    (fun skillName h ↦ (hselection.published skillName h).1) hselection.nodup
  have havailable : ∀ skillName ∈ [first, second, third],
      (skillName, "v1") ∈ availableSkills context sceneCatalog targetId := by
    intro skillName hskill
    obtain ⟨hcanonical, hpublished⟩ := hselection.published skillName hskill
    refine mem_availableSkills.2 ⟨hpublished, hcanonical, fun hmove hsome hnone ↦ ?_⟩
    obtain ⟨catalog, hcatalog⟩ := Option.isSome_iff_exists.1 hsome
    obtain ⟨target, htarget, -⟩ := hwalk (hselection.walk.1 (hmove ▸ hskill)) catalog hcatalog
    rw [hnone] at htarget
    cases htarget
  have hstart : lobby = true → first = "scene_tornado" := by
    rintro rfl
    exact htornado hlobby
  have hnames : ((fallbackProposal [first, second, third] targetId).plan planId version
      (fallbackStep targetId 0 first)).steps.filterMap (·.skillName) = [first, second, third] := by
    rw [ActivityPlanProposal.plan, fallbackProposal_steps]
    rfl
  refine ⟨_, materializedPlan_eq hwellFormed havailable hstart, ?_⟩
  constructor
  case active => rfl
  case accepted => exact hwellFormed.validate_eq
  case three => rw [hnames, List.length_cons, List.length_cons, List.length_singleton]
  case nodup => exact hnames ▸ hselection.nodup
  case first =>
    refine ⟨_, first, ActivityPlanProposal.currentStep_plan ?_, rfl, ?_, hauthorized, htornado⟩
    · rw [fallbackProposal_steps]
      rfl
    · rw [hnames]
      rfl
  case published =>
    rw [hnames]
    exact fun skillName h ↦ (hselection.published skillName h).2
  case walk =>
    rw [hnames]
    exact hselection.walk.2
  case targets =>
    intro step hstep hmove catalog hcatalog
    have htarget : step.sceneTargetId = targetId ∧ "move_to" ∈ [first, second, third] := by
      simp only [ActivityPlanProposal.plan, fallbackProposal_steps, List.map_cons, List.map_nil,
        List.mem_cons, List.not_mem_nil, or_false] at hstep
      obtain rfl | rfl | rfl | rfl := hstep
      · obtain ⟨htarget, hname⟩ := fallbackStep_of_walk hmove
        exact ⟨htarget, hname ▸ List.mem_cons_self⟩
      · obtain ⟨htarget, hname⟩ := fallbackStep_of_walk hmove
        exact ⟨htarget, hname ▸ List.mem_cons_of_mem _ List.mem_cons_self⟩
      · obtain ⟨htarget, hname⟩ := fallbackStep_of_walk hmove
        exact ⟨htarget, hname ▸ List.mem_cons_of_mem _ (List.mem_cons_of_mem _ List.mem_cons_self)⟩
      · cases hmove
    rw [htarget.1]
    exact hwalk (hselection.walk.1 htarget.2) catalog hcatalog

/-- What follows the reading of the lease. -/
theorem composed_outcome (hplanId : IsNonEmptyString 128 planId) (hversion : 1 ≤ version)
    (hlobby : isLobby context.sessionSnapshot = .ok lobby)
    (hid : ∀ id ∈ targetId, IsNonEmptyString 256 id)
    (hwalk : (∀ catalog ∈ sceneCatalog, ∃ target, catalog.Offers runtime.digits context target) →
      ∀ catalog ∈ sceneCatalog, ∃ target,
        targetId.bind catalog.getMovementTarget = some target ∧
          catalog.Offers runtime.digits context target)
    (htarget : targetId ≠ none →
      ∀ catalog ∈ sceneCatalog, ∃ target, catalog.Offers runtime.digits context target)
    (hutf8 : identity.isUtf8 = true)
    (htrailing : (identity.strip.trailingDigits runtime.digits).length ≤ maxStrDigits)
    (hlimit : version.natAbs < 10 ^ maxStrDigits)
    (hweights : AtLeastThree (Eligible runtime context sceneCatalog capacity) →
      AtLeastThree fun skillName ↦ Eligible runtime context sceneCatalog capacity skillName ∧
        HasWeight capacity skillName = true)
    (template : Bool) {result : Except PlanError ActivityPlan}
    (hresult : result = (if (orderedSkills (availableSkills context sceneCatalog targetId) lobby
        capacity).length < 3 then
        .error (.activityPlanValidation
          "Gateway must publish at least three canonical non-chat skills for an activity plan")
      else plannedSkills runtime identity version capacity (stepAuthorizer context · "v1")
        (availableSkills context sceneCatalog targetId) lobby template
        (orderedSkills (availableSkills context sceneCatalog targetId) lobby capacity) >>=
          materializedPlan planId version (availableSkills context sceneCatalog targetId) lobby
            targetId)) :
    (Refused runtime stepAuthorizer context sceneCatalog capacity ∧
      ∃ message, result = .error (.activityPlanValidation message)) ∨
      (¬Refused runtime stepAuthorizer context sceneCatalog capacity ∧
        ∃ plan, result = .ok plan ∧
          SafePlan runtime stepAuthorizer context sceneCatalog capacity plan) := by
  have hoffered : sceneCatalog.isSome = true → (targetId ≠ none ↔
      ∀ catalog ∈ sceneCatalog, ∃ target, catalog.Offers runtime.digits context target) := by
    refine fun hsome ↦ ⟨htarget, fun hall hnone ↦ ?_⟩
    obtain ⟨catalog, hcatalog⟩ := Option.isSome_iff_exists.1 hsome
    obtain ⟨target, hfound, -⟩ := hwalk hall catalog hcatalog
    rw [hnone] at hfound
    cases hfound
  have hmem (skillName : String) : skillName ∈ orderedSkills (availableSkills context sceneCatalog
      targetId) lobby capacity ↔ Eligible runtime context sceneCatalog capacity skillName :=
    mem_orderedSkills hlobby hoffered
  have hcount := atLeastThree_iff nodup_orderedSkills hmem
  rw [hresult]
  by_cases hthree : AtLeastThree (Eligible runtime context sceneCatalog capacity)
  · rw [if_neg (not_lt.2 (hcount.1 hthree))]
    obtain ⟨hrefused, message, hplanned⟩ | ⟨hrefused, selected, hplanned, hselection⟩ :=
      @plannedSkills_spec runtime stepAuthorizer context sceneCatalog capacity version lobby
        targetId identity hlobby hoffered hutf8 htrailing hlimit (hweights hthree) template
    · rw [hplanned]
      exact Or.inl ⟨hrefused, message, rfl⟩
    · rw [hplanned]
      obtain ⟨first, second, third, rfl⟩ := List.length_eq_three.1 hselection.three
      obtain ⟨plan, hplan, hsafe⟩ := exists_safePlan hselection hplanId hversion hlobby hid
        fun heligible ↦ hwalk (heligible.walk rfl)
      exact Or.inr ⟨hrefused, plan, bind_eq_ok_iff.2 ⟨_, rfl, hplan⟩, hsafe⟩
  · rw [if_pos (not_le.1 (mt hcount.2 hthree))]
    exact Or.inl ⟨Or.inl hthree, _, rfl⟩

/-- A lease is refused exactly if it has too few skills or none to begin with; every other lease
gets a plan of three different skills that begins with an authorized one. -/
theorem safeFallbackPlan_outcome (hplanId : IsNonEmptyString 128 planId) (hversion : 1 ≤ version)
    (hids : ∀ catalog ∈ sceneCatalog, ∀ target ∈ catalog.targets,
      IsNonEmptyString 256 target.targetId)
    (hreadable : Readable runtime context version recentActions)
    (hweights : AtLeastThree (Eligible runtime context sceneCatalog capacity) →
      AtLeastThree fun skillName ↦ Eligible runtime context sceneCatalog capacity skillName ∧
        HasWeight capacity skillName = true) :
    (Refused runtime stepAuthorizer context sceneCatalog capacity ∧
      ∃ message, safeFallbackPlan runtime stepAuthorizer context planId version sceneCatalog
        recentActions capacity = .error (.activityPlanValidation message)) ∨
      (¬Refused runtime stepAuthorizer context sceneCatalog capacity ∧
        ∃ plan, safeFallbackPlan runtime stepAuthorizer context planId version sceneCatalog
            recentActions capacity = .ok plan ∧
          SafePlan runtime stepAuthorizer context sceneCatalog capacity plan) := by
  obtain ⟨lobby, hlobby⟩ := exists_isLobby hreadable.scene
  obtain ⟨identity, hidentity⟩ := @Scene.exists_roleIdentityFromSnapshot context.sessionSnapshot
    context.sessionId hreadable.role hreadable.account hreadable.session
  have htrailing := hreadable.digits identity hidentity
  have hutf8 := hreadable.utf8 identity hidentity
  obtain ⟨chosen, hchosen, hoffered, hnone⟩ := @Scene.exists_candidatesForContext runtime.digits
    runtime.sha256 version recentActions context sceneCatalog hreadable.scene identity hidentity
    hreadable.walks htrailing hutf8
  refine @composed_outcome runtime stepAuthorizer context sceneCatalog capacity version planId lobby
    (chosen.head?.map (·.targetId)) identity hplanId hversion hlobby (fun id hid ↦ ?_)
    (fun hall catalog hcatalog ↦ ?_) (fun hsome catalog hcatalog ↦ ?_) hutf8 htrailing
    hreadable.version hweights (lobby && sceneCatalog.isNone) _ ?_
  · obtain ⟨target, hhead, rfl⟩ := Option.map_eq_some_iff.1 hid
    obtain ⟨catalog, hcatalog, hoffers⟩ := hoffered target (List.mem_of_head? hhead)
    exact hids catalog hcatalog target hoffers.mem
  · cases chosen with
    | nil =>
      obtain ⟨target, hoffers⟩ := hall catalog hcatalog
      exact absurd hoffers (hnone rfl catalog hcatalog target)
    | cons target rest =>
      obtain ⟨found, hfound, hoffers⟩ := hoffered target List.mem_cons_self
      cases Option.some.inj (hcatalog.symm.trans hfound)
      exact ⟨target, Scene.getMovementTarget_of_mem hoffers.mem hoffers.kind, hoffers⟩
  · cases chosen with
    | nil => exact absurd rfl hsome
    | cons target rest =>
      obtain ⟨found, hfound, hoffers⟩ := hoffered target List.mem_cons_self
      cases Option.some.inj (hcatalog.symm.trans hfound)
      exact ⟨target, hoffers⟩
  · rw [safeFallbackPlan, hlobby, hchosen, hidentity]
    rfl

end Outcome

end Fallback

/-! ## A lease for three skills -/

namespace Scenario

open Fallback

/-- The decimal digits of Latin-1. -/
def latinDecimal (c : Fin 0x110000) : Option (Fin 10) :=
  if 0x30 ≤ c.val ∧ c.val ≤ 0x39 then some (Fin.ofNat 10 (c.val - 0x30)) else none

/-- The digits of Latin-1, with the three superscript ones. -/
def latinIsDigit (c : Fin 0x110000) : Bool :=
  decide (0x30 ≤ c.val ∧ c.val ≤ 0x39) || decide (c.val = 0xB2 ∨ c.val = 0xB3 ∨ c.val = 0xB9)

theorem latinIsDigit_of_decimal (c : Fin 0x110000) (h : (latinDecimal c).isSome = true) :
    latinIsDigit c = true := by
  unfold latinDecimal at h
  split_ifs at h with hdigit
  · rw [latinIsDigit, decide_eq_true hdigit, Bool.true_or]
  · cases h

theorem latinDecimal_minus : latinDecimal 0x2D = none := by decide

/-- The digits of Latin-1. -/
def latinDigits : DigitTable :=
  ⟨latinDecimal, latinIsDigit, latinIsDigit_of_decimal, latinDecimal_minus⟩

/-- A planner whose random numbers make no difference. -/
def evenRuntime : Runtime := ⟨latinDigits, fun _ _ ↦ 0, fun _ weight ↦ (weight : WithTop ℚ)⟩

/-- A lease that publishes three skills. -/
def threeContext : AgentContext where
  eventId := "e1"
  sessionId := "s"
  controlGeneration := 1
  eventSequence := 1
  decisionLeaseId := "L1"
  stateVersion := 1
  leaseKind := "observation"
  allowedDecisionActions := [.callSkill, .wait]
  parentSkillName := none
  allowedSkillName := none
  allowedSkillNames := []
  sessionSnapshot := [("RoleId", .str "hero"), ("SceneId", .int 7)]
  availableSkills := [⟨"jump", "v1", false, 0, none⟩, ⟨"sign_in", "v1", false, 0, none⟩,
    ⟨"coffee_auto_schedule", "v1", false, 0, none⟩]
  skillArgumentHints := []
  terminalResult := none

theorem one_le_maxStrDigits : 1 ≤ maxStrDigits := by decide

theorem three_readable : Readable evenRuntime threeContext 1 [] := by
  have hidentity : Scene.roleIdentityFromSnapshot threeContext.sessionSnapshot
      threeContext.sessionId = .ok "hero" := by decide
  constructor
  case scene =>
    have hvalue : snapshotValue threeContext.sessionSnapshot "SceneId" "sceneId" =
        some (.int 7) := by decide
    rw [hvalue]
    show (7 : ℤ).natAbs < 10 ^ maxStrDigits
    exact lt_of_lt_of_le (by decide) (Nat.pow_le_pow_right (by decide) one_le_maxStrDigits)
  case role =>
    have hvalue : snapshotValue threeContext.sessionSnapshot "RoleId" "roleId" =
        some (.str "hero") := by decide
    rw [hvalue]
    intro n h
    cases h
  case account =>
    have hvalue : snapshotValue threeContext.sessionSnapshot "AccountId" "accountId" = none := by
      decide
    rw [hvalue]
    intro n h
    cases h
  case session =>
    have hvalue : snapshotValue threeContext.sessionSnapshot "SessionId" "sessionId" = none := by
      decide
    rw [hvalue]
    intro n h
    cases h
  case digits =>
    intro identity h
    cases hidentity.symm.trans h
    decide
  case utf8 =>
    intro identity h
    cases hidentity.symm.trans h
    exact Text.isUtf8_ofString "hero"
  case version =>
    exact lt_of_lt_of_le (by decide) (Nat.pow_le_pow_right (by decide) one_le_maxStrDigits)
  case walks =>
    intro action haction
    cases haction

theorem safeFallbackPlan_outcome_three :
    (Refused evenRuntime (fun _ _ _ ↦ true) threeContext none none ∧
      ∃ message, safeFallbackPlan evenRuntime (fun _ _ _ ↦ true) threeContext "plan-1" 1 none []
        none = .error (.activityPlanValidation message)) ∨
      (¬Refused evenRuntime (fun _ _ _ ↦ true) threeContext none none ∧
        ∃ plan, safeFallbackPlan evenRuntime (fun _ _ _ ↦ true) threeContext "plan-1" 1 none []
            none = .ok plan ∧
          SafePlan evenRuntime (fun _ _ _ ↦ true) threeContext none none plan) := by
  apply safeFallbackPlan_outcome
  case hplanId => decide
  case hversion => exact le_refl 1
  case hids =>
    intro catalog hcatalog
    cases hcatalog
  case hreadable => exact three_readable
  case hweights =>
    rintro ⟨three, hnodup, hlength, heligible⟩
    exact ⟨three, hnodup, hlength, fun skillName h ↦ ⟨heligible skillName h, rfl⟩⟩

/-! ## A lease whose only first skill has no weight -/

theorem crowdedLimit_pos : 0 < 10 ^ 17 := by decide

theorem crowdedWeight_pos : (0 : ℚ) < 1 := by decide

/-- A limit of very many roles. -/
def crowdedRule : Occupancy.Rule :=
  ⟨"jump", none, .sceneInstance, 10 ^ 17, 1, crowdedLimit_pos, crowdedWeight_pos⟩

theorem crowdedRules_nodup :
    ([crowdedRule].map fun rule ↦ (rule.skillName, rule.sceneId)).Nodup := List.nodup_singleton _

theorem noWeights_nodup : (([] : List (String × ℚ)).map (·.1)).Nodup := List.nodup_nil

theorem noWeights_pos : ∀ weight ∈ ([] : List (String × ℚ)), 0 < weight.2 := by
  intro weight h
  cases h

/-- All places but one are taken. -/
def crowdedSnapshot : Occupancy.Snapshot where
  sceneId := none
  activeBySkill := [("jump", 10 ^ 17 - 1)]
  policy := ⟨[crowdedRule], [], crowdedRules_nodup, noWeights_nodup, noWeights_pos⟩

theorem crowdedSnapshot_room : ∀ skillName ∈ ["jump", "sign_in", "coffee_auto_schedule"],
    crowdedSnapshot.isAvailable skillName = true := by
  decide

theorem three_notLobby : isLobby threeContext.sessionSnapshot = .ok false := by decide +kernel

theorem three_eligible : ∀ skillName ∈ ["jump", "sign_in", "coffee_auto_schedule"],
    Eligible evenRuntime threeContext none (some crowdedSnapshot) skillName := by
  intro skillName hmem
  have hpublished : ∀ skillName ∈ ["jump", "sign_in", "coffee_auto_schedule"],
      skillName ∈ canonicalNonChatSkills ∧ (skillName, "v1") ∈ threeContext.available ∧
        skillName ≠ "scene_tornado" ∧ skillName ≠ "move_to" := by decide
  obtain ⟨hcanonical, havailable, htornado, hwalk⟩ := hpublished skillName hmem
  constructor
  case canonical => exact hcanonical
  case published => exact havailable
  case room =>
    intro snapshot hsnapshot
    cases hsnapshot
    exact crowdedSnapshot_room skillName hmem
  case tornado => exact fun h ↦ absurd h htornado
  case walk => exact fun h ↦ absurd h hwalk

/-- Three skills are eligible and the first one is authorized, and yet there is no plan. -/
theorem crowded_refused :
    (∃ three : List String, three.Nodup ∧ three.length = 3 ∧ ∀ skillName ∈ three,
      Eligible evenRuntime threeContext none (some crowdedSnapshot) skillName) ∧
    ¬InLobby threeContext ∧
    Eligible evenRuntime threeContext none (some crowdedSnapshot) "jump" ∧
    safeFallbackPlan evenRuntime (fun _ skillName _ ↦ skillName = "jump") threeContext "plan-1" 1
      none [] (some crowdedSnapshot) =
        .error (.activityPlanValidation "No activity has remaining capacity") := by
  refine ⟨⟨_, by decide, rfl, three_eligible⟩, ?_, three_eligible "jump" List.mem_cons_self, ?_⟩
  · intro hlobby
    cases three_notLobby.symm.trans hlobby
  · have hordered : orderedSkills (availableSkills threeContext none none) false
        (some crowdedSnapshot) = ["coffee_auto_schedule", "sign_in", "jump"] := by
      decide
    have hidentity : Scene.roleIdentityFromSnapshot threeContext.sessionSnapshot
        threeContext.sessionId = .ok "hero" := by decide
    have hfirst : (["coffee_auto_schedule", "sign_in", "jump"] : List String).filter
        (fun skillName ↦ decide (skillName = "jump")) = ["jump"] := by decide
    have hweight : (Relational.firstSeen ["jump"]).filter
        (fun skillName ↦ decide (0 < crowdedSnapshot.effectiveWeight skillName)) = [] := by
      decide +kernel
    have hweighted : crowdedSnapshot.weightedOrder evenRuntime.sha256 evenRuntime.priority ["jump"]
        "hero" 1 = .ok [] := by
      rw [Occupancy.Snapshot.weightedOrder, hweight, List.mapM_nil]
      simp only [pure_bind, List.mergeSort_nil, List.map_nil]
      rfl
    have hchosen : firstSkill evenRuntime "hero" 1 (some crowdedSnapshot)
        (fun skillName ↦ decide (skillName = "jump")) (availableSkills threeContext none none)
        false ["coffee_auto_schedule", "sign_in", "jump"] =
          .error (.activityPlanValidation "No activity has remaining capacity") := by
      rw [firstSkill, if_neg Bool.false_ne_true, hfirst]
      simp only [hweighted]
      rfl
    have hplanned : plannedSkills evenRuntime "hero" 1 (some crowdedSnapshot)
        (fun skillName ↦ decide (skillName = "jump")) (availableSkills threeContext none none)
        false false ["coffee_auto_schedule", "sign_in", "jump"] =
          .error (.activityPlanValidation "No activity has remaining capacity") := by
      rw [plannedSkills, hchosen]
      rfl
    have hplan : safeFallbackPlan evenRuntime (fun _ skillName _ ↦ skillName = "jump") threeContext
        "plan-1" 1 none [] (some crowdedSnapshot) =
          if (orderedSkills (availableSkills threeContext none none) false
            (some crowdedSnapshot)).length < 3 then .error (.activityPlanValidation
              "Gateway must publish at least three canonical non-chat skills for an activity plan")
          else raised (Scene.roleIdentityFromSnapshot threeContext.sessionSnapshot
            threeContext.sessionId) >>= fun identity ↦
              plannedSkills evenRuntime identity 1 (some crowdedSnapshot)
                (fun skillName ↦ decide (skillName = "jump"))
                (availableSkills threeContext none none) false false
                (orderedSkills (availableSkills threeContext none none) false
                  (some crowdedSnapshot)) >>=
                materializedPlan "plan-1" 1 (availableSkills threeContext none none) false none := by
      rw [safeFallbackPlan, three_notLobby]
      rfl
    rw [hplan, hordered, hidentity, raised_ok]
    show plannedSkills evenRuntime "hero" 1 (some crowdedSnapshot) _ _ false false _ >>= _ = _
    rw [hplanned]
    rfl

end Scenario

end LlmGateway
