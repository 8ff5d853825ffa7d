import LlmGateway.Decision.Action
import LlmGateway.Decision.Arguments

/-!
# What a lease permits

The checks that a call of a skill has to pass against the lease it is decided under, the
selection among the candidates of the agent, and the last check before a decision is frozen,
which puts a safe action in the place of a call that does not pass.
-/

namespace LlmGateway

/-! ## Permitted skills -/

/-- The vehicle activities with the skill that leaves the vehicle. -/
def pairedExits : List (String × String) :=
  [("hot_air_balloon_auto_schedule", "hot_air_balloon_exit"),
    ("helicopter_auto_schedule", "helicopter_exit")]

/-- The skill leaves the vehicle that the parent skill boarded. -/
def AgentContext.ExitsParent (context : AgentContext) (skillName : String) : Prop :=
  ∃ parent ∈ context.parentSkillName, pairedExits.lookup parent = some skillName

instance (context : AgentContext) : DecidablePred context.ExitsParent := fun _ ↦
  inferInstanceAs (Decidable (∃ _ ∈ _, _))

/-- `_lease_pairing_is_permitted`. -/
def LeasePairingIsPermitted (context : AgentContext) (skillName : String) : Prop :=
  if context.leaseKind = "observation" then skillName ∉ pairedExits.map (·.2)
  else if context.leaseKind = "movement_control" then
    skillName ∈ ["jump", "stop_move"] ∧
      (skillName = "stop_move" → context.parentSkillName = some "move_to")
  else if context.leaseKind = "vehicle_cancel_window" then context.ExitsParent skillName
  else if context.leaseKind = "vehicle_recovery" then
    skillName = "observe_state" ∨ context.ExitsParent skillName
  else if context.leaseKind = "conversation" then skillName = "nearby_chat_send"
  else False

instance (context : AgentContext) : DecidablePred (LeasePairingIsPermitted context) := fun _ ↦ by
  unfold LeasePairingIsPermitted
  infer_instance

/-- The names that a lease allows: all available skills to an observation, those of its own
lists to every other kind. -/
def AgentContext.AllowsSkill (context : AgentContext) (skillName : String) : Prop :=
  if context.leaseKind = "observation" then skillName ∈ context.availableSkills.map (·.skillName)
  else skillName ∈ context.allowedSkillNames ∨ context.allowedSkillName = some skillName

instance (context : AgentContext) : DecidablePred context.AllowsSkill := fun _ ↦ by
  unfold AgentContext.AllowsSkill
  infer_instance

/-- The published skills, with their versions. -/
def AgentContext.available (context : AgentContext) : List (String × String) :=
  context.availableSkills.map fun s ↦ (s.skillName, s.schemaVersion)

/-- The hint of a skill; the last one counts, as in the dictionary of the code. -/
def AgentContext.hintFor (context : AgentContext) (skillName schemaVersion : String) :
    Option SkillArgumentHint :=
  context.skillArgumentHints.reverse.find? fun hint ↦
    hint.skillName = skillName ∧ hint.schemaVersion = schemaVersion

/-- `_contains_path`. -/
def ContainsPath (paths : List Text) (required : Text) : Prop :=
  required ∈ paths ∨
    ∃ path ∈ paths, (required ++ Text.dot).codePoints.isPrefixOf path.codePoints = true

instance (paths : List Text) : DecidablePred (ContainsPath paths) := fun _ ↦
  inferInstanceAs (Decidable (_ ∨ ∃ _ ∈ _, _))

/-- The paths of the arguments fit the hint; without a hint there are no arguments. -/
def ArgumentsFit (hint : Option SkillArgumentHint) (paths : List Text) : Prop :=
  match hint with
  | none => paths = []
  | some hint =>
    (∀ path ∈ paths, path ∈ hint.allowedArgs.map fun field ↦ Text.ofString field.path) ∧
      ∀ field ∈ hint.missingArgs, ContainsPath paths field.path

instance (hint : Option SkillArgumentHint) : DecidablePred (ArgumentsFit hint) := fun _ ↦ by
  unfold ArgumentsFit
  split <;> infer_instance

/-- A tracked action belongs to the account and to the skill. -/
def AgentContext.Tracks (context : AgentContext) (skillName : String)
    (tracking : Option GoalTrackingMetadata) : Prop :=
  ∀ metadata ∈ tracking,
    context.accountId = some (.str metadata.userId) ∧ metadata.actionType = skillName

instance (context : AgentContext) (skillName : String) : DecidablePred (context.Tracks skillName) :=
  fun _ ↦ inferInstanceAs (Decidable (∀ _ ∈ _, _))

/-- `_skill_is_permitted`. The arguments of an activity with built ones are compared after
they were normalized, so that equal ones are also written alike. -/
def SkillIsPermitted (sha256 : Text → Digest) (context : AgentContext)
    (skillName schemaVersion : String) (arguments : List (Text × Json))
    (tracking : Option GoalTrackingMetadata) : Prop :=
  .callSkill ∈ context.allowedDecisionActions ∧ skillName ≠ "ground" ∧
    context.AllowsSkill skillName ∧ LeasePairingIsPermitted context skillName ∧
    context.Tracks skillName tracking ∧ (skillName, schemaVersion) ∈ context.available ∧
    (skillName ∈ specializedArgumentSkills →
      specializedArgumentsForContext sha256 context skillName schemaVersion = some arguments) ∧
    requiredActivityArgumentsAreValid skillName arguments ∧
    ∃ paths ∈ Json.argumentLeafPaths ⟨[]⟩ arguments,
      ArgumentsFit (context.hintFor skillName schemaVersion) paths

instance (sha256 : Text → Digest) (context : AgentContext) (skillName schemaVersion : String)
    (arguments : List (Text × Json)) (tracking : Option GoalTrackingMetadata) :
    Decidable (SkillIsPermitted sha256 context skillName schemaVersion arguments tracking) :=
  inferInstanceAs (Decidable (_ ∧ _ ∧ _ ∧ _ ∧ _ ∧ _ ∧ (_ → _) ∧ _ ∧ ∃ _ ∈ _, _))

/-- The action is permitted: a skill by the checks on it, any other action by its name. -/
def ActionIsPermitted (sha256 : Text → Digest) (context : AgentContext) (action : AgentAction) :
    Prop :=
  match action.kind with
  | .callSkill skillName schemaVersion arguments tracking =>
    SkillIsPermitted sha256 context skillName schemaVersion arguments tracking
  | kind => kind.action ∈ context.allowedDecisionActions

instance (sha256 : Text → Digest) (context : AgentContext) :
    DecidablePred (ActionIsPermitted sha256 context) := fun _ ↦ by
  unfold ActionIsPermitted
  split <;> infer_instance

/-! ## Actions that leave the player alone -/

/-- The time to live of an action that the planner makes up. -/
def defaultTtlMs : ℕ := 30000

/-- Wait, or else do nothing, as far as the lease allows it. -/
def deferAction (context : AgentContext) (reason : String) (waitMs : ℕ) : Option AgentAction :=
  if .wait ∈ context.allowedDecisionActions then some ⟨reason, defaultTtlMs, .wait waitMs⟩
  else if .noOp ∈ context.allowedDecisionActions then some ⟨reason, defaultTtlMs, .noOp⟩
  else none

/-- Wait, do nothing, or else stop hosting, as far as the lease allows it. -/
def deferOrStopAction (context : AgentContext) (reason : String) : Option AgentAction :=
  (deferAction context reason 1000).orElse fun _ ↦
    if .stopHosting ∈ context.allowedDecisionActions then
      some ⟨reason, defaultTtlMs, .stopHosting⟩
    else none

/-- `_safe_unavailable_skill_action`; without one the selection has failed. -/
def safeUnavailableSkillAction (context : AgentContext) : Option AgentAction :=
  deferOrStopAction context "Gateway did not provide complete constraints for the selected skill"

/-! ## Selection and freezing -/

/-- `_normalize_gateway_v2_action`. -/
def normalizeAction (sha256 : Text → Digest) (context : AgentContext) (action : AgentAction) :
    AgentAction :=
  match action.kind with
  | .callSkill skillName schemaVersion _ tracking =>
    if skillName ∉ specializedArgumentSkills then action
    else match specializedArgumentsForContext sha256 context skillName schemaVersion with
      | none => action
      | some arguments =>
        { action with kind := .callSkill skillName schemaVersion arguments tracking }
  | _ => action

/-- `select_gateway_v2_action`; without a result the selection has failed. -/
def selectAction (sha256 : Text → Digest) (context : AgentContext)
    (candidates : List AgentAction) : Option AgentAction :=
  ((candidates.map (normalizeAction sha256 context)).find? fun candidate ↦
    ActionIsPermitted sha256 context candidate).orElse fun _ ↦
      deferOrStopAction context "No authorized skill candidate"

/-- The skills whose calls are checked again before a decision is frozen. -/
def checkedSkills : List String := specializedArgumentSkills ++ requiredActivityArguments.map (·.1)

/-- Freezing replaces the action: it calls a checked skill which is not permitted. -/
def Replaces (sha256 : Text → Digest) (context : AgentContext) (action : AgentAction) : Prop :=
  match (normalizeAction sha256 context action).kind with
  | .callSkill skillName schemaVersion arguments tracking =>
    skillName ∈ checkedSkills ∧
      ¬SkillIsPermitted sha256 context skillName schemaVersion arguments tracking
  | _ => False

instance (sha256 : Text → Digest) (context : AgentContext) :
    DecidablePred (Replaces sha256 context) := fun _ ↦ by
  unfold Replaces
  split <;> infer_instance

/-- The action that `freeze_gateway_v2_decision` puts into the body. -/
def frozenAction (sha256 : Text → Digest) (context : AgentContext) (action : AgentAction) :
    Option AgentAction :=
  if Replaces sha256 context action then safeUnavailableSkillAction context
  else some (normalizeAction sha256 context action)

variable {sha256 : Text → Digest} {context : AgentContext} {action : AgentAction}

/-- Normalizing a call puts the built arguments, where there are any, in the place of others. -/
theorem normalizeAction_of_callSkill {skillName schemaVersion : String}
    {arguments : List (Text × Json)} {tracking : Option GoalTrackingMetadata}
    (hkind : action.kind = .callSkill skillName schemaVersion arguments tracking) :
    normalizeAction sha256 context action = { action with
      kind := .callSkill skillName schemaVersion
        ((specializedArgumentsForContext sha256 context skillName schemaVersion).getD arguments)
        tracking } := by
  have hsame : action = { action with
      kind := .callSkill skillName schemaVersion arguments tracking } := by
    rw [← hkind]
  simp only [normalizeAction, hkind]
  cases hbuilt : specializedArgumentsForContext sha256 context skillName schemaVersion with
  | none =>
    simp only [ite_self, Option.getD_none]
    exact hsame
  | some built =>
    have hskill : skillName ∈ specializedArgumentSkills :=
      (specializedArgumentsForContext_isSome.1 (by rw [hbuilt]; rfl)).1
    simp only [hskill, not_true_eq_false, if_false, Option.getD_some]

theorem normalizeAction_of_not_callSkill (h : action.kind.action ≠ .callSkill) :
    normalizeAction sha256 context action = action := by
  unfold normalizeAction
  split
  · rename_i hkind
    rw [hkind] at h
    exact absurd rfl h
  · rfl

/-- Normalizing keeps the kind of the action and the skill that it calls. -/
theorem normalizeAction_keeps :
    (normalizeAction sha256 context action).kind.action = action.kind.action ∧
      (normalizeAction sha256 context action).kind.skill? = action.kind.skill? := by
  cases hkind : action.kind with
  | callSkill =>
    rw [normalizeAction_of_callSkill hkind]
    exact ⟨rfl, rfl⟩
  | wait | noOp | stopHosting =>
    rw [normalizeAction_of_not_callSkill (by rw [hkind]; exact DecisionAction.noConfusion), hkind]
    exact ⟨rfl, rfl⟩

/-- A second normalization finds the same arguments. -/
theorem normalizeAction_idem : normalizeAction sha256 context
    (normalizeAction sha256 context action) = normalizeAction sha256 context action := by
  cases hkind : action.kind with
  | callSkill =>
    rw [normalizeAction_of_callSkill hkind, normalizeAction_of_callSkill rfl]
    cases specializedArgumentsForContext sha256 context _ _ <;> rfl
  | wait | noOp | stopHosting =>
    apply normalizeAction_of_not_callSkill
    rw [normalizeAction_keeps.1, hkind]
    exact DecisionAction.noConfusion

/-- Only a call of a skill is replaced. -/
theorem Replaces.callSkill (h : Replaces sha256 context action) :
    action.kind.action = .callSkill := by
  by_contra hother
  unfold Replaces at h
  rw [normalizeAction_of_not_callSkill hother] at h
  split at h
  · rename_i hkind
    rw [hkind] at hother
    exact hother rfl
  · exact h

/-- An action that defers or stops is one that the lease allows, and not a call of a skill. -/
theorem deferAction_spec {reason : String} {waitMs : ℕ} {deferred : AgentAction}
    (h : deferAction context reason waitMs = some deferred) :
    deferred.kind.skill? = none ∧ deferred.kind.action ∈ context.allowedDecisionActions := by
  unfold deferAction at h
  split_ifs at h with hwait hnoOp
  · rw [← Option.some.inj h]
    exact ⟨rfl, hwait⟩
  · rw [← Option.some.inj h]
    exact ⟨rfl, hnoOp⟩

theorem deferOrStopAction_spec {reason : String} {deferred : AgentAction}
    (h : deferOrStopAction context reason = some deferred) :
    deferred.kind.skill? = none ∧ deferred.kind.action ∈ context.allowedDecisionActions := by
  unfold deferOrStopAction at h
  cases hdefer : deferAction context reason 1000 with
  | some other =>
    rw [hdefer] at h
    rw [← Option.some.inj h]
    exact deferAction_spec hdefer
  | none =>
    rw [hdefer] at h
    simp only [Option.orElse_none] at h
    split_ifs at h with hstop
    rw [← Option.some.inj h]
    exact ⟨rfl, hstop⟩

end LlmGateway
