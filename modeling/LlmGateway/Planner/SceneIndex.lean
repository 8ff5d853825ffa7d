import LlmGateway.Planner.Candidates
import LlmGateway.Python.Numbers
import LlmGateway.Relational.Outcome

/-!
# The scene catalogue

The targets of the scenes, and the choice among those of a scene for a role (`scene_catalog.py`):
targets that the role has walked to lately are passed over while there are others, and a number
that is read off the role's identity says where the choice starts.
-/

namespace LlmGateway.Scene

open Relational

variable (digits : DigitTable) (sha256 : Text → Digest)

/-! ## Values of a snapshot -/

/-- `scene_id_from_snapshot`. -/
def sceneIdFromSnapshot (snapshot : List (Text × Json)) : Except String (Option ℤ) :=
  match snapshotValue snapshot "SceneId" "sceneId" with
  | some (.int sceneId) => .ok (some sceneId)
  | some (.str raw) =>
    let signed := raw.strip.codePoints
    let unsigned := signed.dropWhile (·.val = 0x2D)
    if unsigned = [] ∨ unsigned.all digits.isDigit = false then .ok none
    else if unsigned.length + 1 < signed.length then .error "ValueError"
    else do
      let value ← readDigits digits unsigned
      return some (if unsigned.length < signed.length then -(value : ℤ) else (value : ℤ))
  | _ => .ok none

/-- The text that identifies a role, if the value is such. -/
def identityText : Option Json → Except String (Option Text)
  | some (.str text) => .ok (if text.isBlank then none else some text.strip)
  | some (.int n) => (writeInt n).map some
  | _ => .ok none

/-- `role_identity_from_snapshot`. -/
def roleIdentityFromSnapshot (snapshot : List (Text × Json)) (fallback : Text) :
    Except String Text := do
  match ← identityText (snapshotValue snapshot "RoleId" "roleId") with
  | some identity => return identity
  | none =>
    match ← identityText (snapshotValue snapshot "AccountId" "accountId") with
    | some identity => return identity
    | none =>
      return (← identityText (snapshotValue snapshot "SessionId" "sessionId")).getD fallback

/-- `_stable_role_bucket` of the catalogue. -/
def stableRoleBucket (identity : Text) : Except String ℕ :=
  let trailingNumber := identity.strip.trailingDigits digits
  if trailingNumber ≠ [] then readDigits digits trailingNumber
  else if identity.isUtf8 then .ok ((sha256 identity).toInt 0)
  else .error "UnicodeEncodeError"

/-! ## Targets -/

/-- `SceneCoordinates`, of finite doubles. -/
structure Coordinates where
  x : ℚ
  y : ℚ
  z : ℚ
deriving DecidableEq

/-- `comparison_key`. -/
def Coordinates.comparisonKey (coordinates : Coordinates) : Coordinates :=
  ⟨roundSix coordinates.x, roundSix coordinates.y, roundSix coordinates.z⟩

/-- `SceneTarget`. -/
structure Target where
  targetId : String
  sceneId : ℤ
  kind : String
  coordinates : Coordinates
deriving DecidableEq

/-- `_MOVEMENT_TARGET_KINDS`. -/
def movementTargetKinds : List String := ["activity", "trigger", "navigation"]

/-- `SceneCatalog`: no two targets have one id. -/
structure Catalog where
  targets : List Target
  nodup : (targets.map (·.targetId)).Nodup

namespace Catalog

variable (catalog : Catalog)

/-- `targets_for_scene`, in the order of the ids. -/
def targetsForScene (sceneId : ℤ) : List Target :=
  (catalog.targets.filter (·.sceneId = sceneId)).mergeSort fun first second ↦
    first.targetId ≤ second.targetId

/-- `get_movement_target`. -/
def getMovementTarget (targetId : String) : Option Target :=
  (catalog.targets.find? (·.targetId = targetId)).filter (·.kind ∈ movementTargetKinds)

/-- `movement_targets_for_scene`. -/
def movementTargetsForScene (sceneId : ℤ) : List Target :=
  (catalog.targetsForScene sceneId).filter (·.kind ∈ movementTargetKinds)

end Catalog

/-! ## Recent walks -/

/-- A coordinate of `_coordinates`, none if it is not numeric. -/
def axis (item : List (Text × Json)) (lower upper : Text) : Except String (Option ℚ) :=
  match snapshotValue item lower upper with
  | some raw => toDouble raw
  | none => .ok none

/-- `_coordinates`, none in place of its own error. -/
def coordinates : Option Json → Except String (Option Coordinates)
  | some (.obj item) => do
    match ← axis item "x" "X" with
    | none => return none
    | some x =>
      match ← axis item "y" "Y" with
      | none => return none
      | some y => return (← axis item "z" "Z").map fun z ↦ ⟨x, y, z⟩
  | _ => .ok none

/-- `trusted_movement_target_for_coordinates`. -/
def Catalog.trustedMovementTargetForCoordinates (catalog : Catalog) (sceneId : ℤ)
    (value : List (Text × Json)) : Except String (Option Target) := do
  match ← coordinates (some (.obj value)) with
  | none => return none
  | some coordinates =>
    return (catalog.movementTargetsForScene sceneId).find?
      (·.coordinates.comparisonKey = coordinates.comparisonKey)

/-- The target of a recent walk, as the request had it. -/
def recentMoveTarget (action : List (Text × Json)) : Option (Option Json) :=
  match Json.get? action "request_body_json" with
  | some (.obj body) =>
    if Json.get? body "skillName" = some (.str "move_to") then
      match Json.get? body "arguments" with
      | some (.obj arguments) => some (Json.get? arguments "target")
      | _ => some none
    else none
  | _ => none

/-- `_recent_move_coordinates`. -/
def recentMoveCoordinates (recentActions : List (List (Text × Json))) :
    Except String (List Coordinates) := do
  let found ← (recentActions.filterMap recentMoveTarget).mapM coordinates
  return found.reduceOption.map (·.comparisonKey)

/-! ## The choice -/

/-- `targets[offset:] + targets[:offset]`. -/
def turned (offset : ℕ) (targets : List Target) : List Target :=
  targets.drop offset ++ targets.take offset

/-- The targets that are not among the recent ones, or all of them if there are no such. -/
def unvisitedFirst (targets : List Target) (recentCoordinates : List Coordinates) : List Target :=
  let unvisited := targets.filter (·.coordinates.comparisonKey ∉ recentCoordinates)
  if unvisited = [] then targets else unvisited

/-- `select_candidates`. -/
def Catalog.selectCandidates (catalog : Catalog) (sceneId : ℤ) (roleIdentity : Text)
    (planVersion : ℤ) (limit : ℕ) (recentActions : List (List (Text × Json))) :
    Except String (List Target) :=
  match catalog.movementTargetsForScene sceneId with
  | [] => .ok []
  | targets => do
    let recentCoordinates ← recentMoveCoordinates recentActions
    let targets := unvisitedFirst targets recentCoordinates
    let bucket ← stableRoleBucket digits sha256 roleIdentity
    let offset := (bucket + (planVersion - 1).toNat) % targets.length
    return (turned offset targets).take limit

/-- `_scene_candidates_for_context`. -/
def candidatesForContext (context : AgentContext) (sceneCatalog : Option Catalog)
    (planVersion : ℤ) (recentActions : List (List (Text × Json))) (limit : ℕ) :
    Except String (List Target) := do
  match sceneCatalog with
  | none => return []
  | some catalog =>
    match ← sceneIdFromSnapshot digits context.sessionSnapshot with
    | none => return []
    | some sceneId =>
      let roleIdentity ← roleIdentityFromSnapshot context.sessionSnapshot context.sessionId
      catalog.selectCandidates digits sha256 sceneId roleIdentity planVersion limit recentActions

/-! ## What does not raise -/

section Readable

variable {digits sha256} {snapshot : List (Text × Json)}

/-- The scene id of a snapshot is absent, an integer or a decimal text, and can be converted. -/
def PlainId (digits : DigitTable) : Option Json → Prop
  | none | some .null => True
  | some (.int sceneId) => sceneId.natAbs < 10 ^ maxStrDigits
  | some (.str raw) => raw.IsDecimal digits ∧ raw.codePoints.length ≤ maxStrDigits
  | _ => False

theorem mem_of_mem_strip {text : Text} : ∀ c ∈ text.strip.codePoints, c ∈ text.codePoints :=
  fun _ hc ↦ (List.dropWhile_sublist _).subset ((List.rdropWhile_prefix _ _).subset hc)

theorem length_strip_le (text : Text) : text.strip.codePoints.length ≤ text.codePoints.length :=
  (List.rdropWhile_prefix _ _).length_le.trans (List.dropWhile_sublist _).length_le

theorem exists_sceneIdFromSnapshot
    (h : PlainId digits (snapshotValue snapshot "SceneId" "sceneId")) :
    ∃ sceneId, sceneIdFromSnapshot digits snapshot = .ok sceneId := by
  unfold sceneIdFromSnapshot
  cases hvalue : snapshotValue snapshot "SceneId" "sceneId" with
  | none => exact ⟨_, rfl⟩
  | some value =>
    rw [hvalue] at h
    cases value with
    | null | int => exact ⟨_, rfl⟩
    | bool | float | arr | obj => exact h.elim
    | str raw =>
      obtain ⟨⟨-, hdecimal⟩, hlength⟩ := h
      have hstripped : ∀ c ∈ raw.strip.codePoints, (digits.decimal c).isSome = true :=
        fun c hc ↦ hdecimal c (mem_of_mem_strip c hc)
      -- A decimal digit is no sign, so that nothing is dropped in front of the digits.
      have hsign : raw.strip.codePoints.dropWhile (·.val = 0x2D) = raw.strip.codePoints := by
        rw [List.dropWhile_eq_self_iff]
        intro hpos hminus
        have hc := hstripped _ (List.getElem_mem hpos)
        have heq : raw.strip.codePoints[0] = 0x2D := Fin.ext (of_decide_eq_true hminus)
        rw [heq, digits.decimal_minus] at hc
        exact absurd hc Bool.false_ne_true
      have hsigned : ¬raw.strip.codePoints.length + 1 < raw.strip.codePoints.length := by omega
      simp only [hsign, if_neg hsigned, lt_irrefl, if_false]
      split_ifs with hdigit
      · exact ⟨_, rfl⟩
      · obtain ⟨value, hvalue⟩ := exists_readDigits ((length_strip_le raw).trans hlength) hstripped
        rw [hvalue]
        exact ⟨_, rfl⟩

/-- The values that may identify the role can be written. -/
def PlainIdentity (value : Option Json) : Prop :=
  ∀ n, value = some (.int n) → n.natAbs < 10 ^ maxStrDigits

theorem exists_identityText {value : Option Json} (h : PlainIdentity value) :
    ∃ text, identityText value = .ok text := by
  unfold identityText
  split
  · exact ⟨_, rfl⟩
  · rename_i n
    obtain ⟨text, htext⟩ := exists_writeInt (h n rfl)
    exact ⟨some text, by rw [htext]; rfl⟩
  · exact ⟨_, rfl⟩

theorem exists_roleIdentityFromSnapshot {fallback : Text}
    (hrole : PlainIdentity (snapshotValue snapshot "RoleId" "roleId"))
    (haccount : PlainIdentity (snapshotValue snapshot "AccountId" "accountId"))
    (hsession : PlainIdentity (snapshotValue snapshot "SessionId" "sessionId")) :
    ∃ identity, roleIdentityFromSnapshot snapshot fallback = .ok identity := by
  obtain ⟨role, hrole⟩ := exists_identityText hrole
  obtain ⟨account, haccount⟩ := exists_identityText haccount
  obtain ⟨session, hsession⟩ := exists_identityText hsession
  unfold roleIdentityFromSnapshot
  rw [hrole, haccount, hsession]
  cases role with
  | some => exact ⟨_, rfl⟩
  | none =>
    cases account with
    | some => exact ⟨_, rfl⟩
    | none => exact ⟨_, rfl⟩

theorem exists_stableRoleBucket {identity : Text}
    (htrailing : (identity.strip.trailingDigits digits).length ≤ maxStrDigits)
    (hutf8 : identity.isUtf8 = true) :
    ∃ bucket, stableRoleBucket digits sha256 identity = .ok bucket := by
  unfold stableRoleBucket
  simp only [hutf8, if_true]
  split_ifs
  · exact exists_readDigits htrailing decimal_of_mem_trailingDigits
  · exact ⟨_, rfl⟩

/-- The coordinates of the recent walks are within the range of the doubles. -/
def PlainWalks (recentActions : List (List (Text × Json))) : Prop :=
  ∀ action ∈ recentActions, ∀ item, recentMoveTarget action = some (some (.obj item)) →
    ∀ axis ∈ ([("x", "X"), ("y", "Y"), ("z", "Z")] : List (Text × Text)), ∀ n,
      snapshotValue item axis.1 axis.2 = some (.int n) → n.natAbs < doubleOverflow

theorem exists_axis {item : List (Text × Json)} {lower upper : Text}
    (h : ∀ n, snapshotValue item lower upper = some (.int n) → n.natAbs < doubleOverflow) :
    ∃ x, axis item lower upper = .ok x := by
  unfold axis
  cases hvalue : snapshotValue item lower upper with
  | none => exact ⟨_, rfl⟩
  | some raw =>
    apply exists_toDouble
    rintro n rfl
    exact h n hvalue

theorem exists_recentMoveCoordinates {recentActions : List (List (Text × Json))}
    (h : PlainWalks recentActions) :
    ∃ found, recentMoveCoordinates recentActions = .ok found := by
  have htarget : ∀ target ∈ recentActions.filterMap recentMoveTarget,
      ∃ found, coordinates target = .ok found := by
    intro target htarget
    obtain ⟨action, haction, hmove⟩ := List.mem_filterMap.1 htarget
    unfold coordinates
    split
    · rename_i item
      have haxes := h action haction item hmove
      simp only [List.forall_mem_cons] at haxes
      obtain ⟨hx, hy, hz, -⟩ := haxes
      obtain ⟨x, hx⟩ := exists_axis hx
      obtain ⟨y, hy⟩ := exists_axis hy
      obtain ⟨z, hz⟩ := exists_axis hz
      rw [hx, hy, hz]
      cases x with
      | none => exact ⟨_, rfl⟩
      | some x =>
        cases y with
        | none => exact ⟨_, rfl⟩
        | some y => exact ⟨_, rfl⟩
    · exact ⟨_, rfl⟩
  obtain ⟨found, hfound⟩ := exists_mapM_eq_ok htarget
  exact ⟨_, bind_eq_ok_iff.2 ⟨found, hfound, rfl⟩⟩

end Readable

/-! ## What is chosen -/

section Choice

variable {digits sha256} {catalog : Catalog} {sceneId planVersion : ℤ} {target : Target}
  {recentActions : List (List (Text × Json))}

/-- The catalogue has the target for a walk in the present scene. -/
structure Catalog.Offers (digits : DigitTable) (catalog : Catalog) (context : AgentContext)
    (target : Target) : Prop where
  mem : target ∈ catalog.targets
  kind : target.kind ∈ movementTargetKinds
  scene : sceneIdFromSnapshot digits context.sessionSnapshot = .ok (some target.sceneId)

theorem mem_movementTargetsForScene : target ∈ catalog.movementTargetsForScene sceneId ↔
    target ∈ catalog.targets ∧ target.sceneId = sceneId ∧ target.kind ∈ movementTargetKinds := by
  simp only [Catalog.movementTargetsForScene, Catalog.targetsForScene, List.mem_filter,
    List.mem_mergeSort, decide_eq_true_eq, and_assoc]

/-- A target to walk to is found by its id. -/
theorem getMovementTarget_of_mem (hmem : target ∈ catalog.targets)
    (hkind : target.kind ∈ movementTargetKinds) :
    catalog.getMovementTarget target.targetId = some target := by
  have hfound : catalog.targets.find? (fun other ↦ other.targetId = target.targetId) =
      some target := by
    cases hfind : catalog.targets.find? (fun other ↦ other.targetId = target.targetId) with
    | none =>
      rw [List.find?_eq_none] at hfind
      exact absurd (decide_eq_true rfl) (hfind target hmem)
    | some other =>
      have hid : other.targetId = target.targetId := by
        simpa only [decide_eq_true_eq] using List.find?_some hfind
      rw [List.inj_on_of_nodup_map catalog.nodup (List.mem_of_find?_eq_some hfind) hmem hid]
  rw [Catalog.getMovementTarget, hfound]
  exact Option.filter_some_pos (decide_eq_true hkind)

theorem mem_turned {offset : ℕ} {targets : List Target} :
    target ∈ turned offset targets ↔ target ∈ targets := by
  rw [turned, List.mem_append, or_comm, ← List.mem_append, List.take_append_drop]

theorem turned_eq_nil_iff {offset : ℕ} {targets : List Target} :
    turned offset targets = [] ↔ targets = [] := by
  rw [turned, List.append_eq_nil_iff, and_comm, ← List.append_eq_nil_iff, List.take_append_drop]

theorem mem_of_mem_unvisitedFirst {targets : List Target} {recentCoordinates : List Coordinates}
    (h : target ∈ unvisitedFirst targets recentCoordinates) : target ∈ targets := by
  unfold unvisitedFirst at h
  simp only at h
  split_ifs at h
  · exact h
  · exact List.mem_of_mem_filter h

theorem unvisitedFirst_eq_nil {targets : List Target} {recentCoordinates : List Coordinates}
    (h : unvisitedFirst targets recentCoordinates = []) : targets = [] := by
  unfold unvisitedFirst at h
  simp only at h
  split_ifs at h with hnone
  · exact h
  · exact absurd h hnone

/-- One target of the scene to walk to is chosen, if there are such. -/
theorem exists_selectCandidates {roleIdentity : Text} (hwalks : PlainWalks recentActions)
    (htrailing : (roleIdentity.strip.trailingDigits digits).length ≤ maxStrDigits)
    (hutf8 : roleIdentity.isUtf8 = true) :
    ∃ chosen, catalog.selectCandidates digits sha256 sceneId roleIdentity planVersion 1
        recentActions = .ok chosen ∧
      (∀ target ∈ chosen, target ∈ catalog.movementTargetsForScene sceneId) ∧
        (chosen = [] → catalog.movementTargetsForScene sceneId = []) := by
  obtain ⟨recent, hrecent⟩ := exists_recentMoveCoordinates hwalks
  obtain ⟨bucket, hbucket⟩ : ∃ bucket, stableRoleBucket digits sha256 roleIdentity = .ok bucket :=
    exists_stableRoleBucket htrailing hutf8
  unfold Catalog.selectCandidates
  cases htargets : catalog.movementTargetsForScene sceneId with
  | nil => exact ⟨[], rfl, fun _ h ↦ h, fun _ ↦ rfl⟩
  | cons first rest =>
    refine ⟨_, bind_eq_ok_iff.2 ⟨recent, hrecent, bind_eq_ok_iff.2 ⟨bucket, hbucket, rfl⟩⟩,
      fun target htarget ↦ ?_, fun hnone ↦ ?_⟩
    · exact mem_of_mem_unvisitedFirst (mem_turned.1 (List.mem_of_mem_take htarget))
    · rw [List.take_eq_nil_iff] at hnone
      exact unvisitedFirst_eq_nil (turned_eq_nil_iff.1 (hnone.resolve_left Nat.one_ne_zero))

/-- What is chosen for a context. -/
theorem exists_candidatesForContext {context : AgentContext} {sceneCatalog : Option Catalog}
    (hscene : PlainId digits (snapshotValue context.sessionSnapshot "SceneId" "sceneId"))
    {roleIdentity : Text}
    (hidentity : roleIdentityFromSnapshot context.sessionSnapshot context.sessionId =
      .ok roleIdentity)
    (hwalks : PlainWalks recentActions)
    (htrailing : (roleIdentity.strip.trailingDigits digits).length ≤ maxStrDigits)
    (hutf8 : roleIdentity.isUtf8 = true) :
    ∃ chosen, candidatesForContext digits sha256 context sceneCatalog planVersion recentActions 1 =
        .ok chosen ∧
      (∀ target ∈ chosen, ∃ catalog ∈ sceneCatalog, catalog.Offers digits context target) ∧
        (chosen = [] →
          ∀ catalog ∈ sceneCatalog, ∀ target, ¬catalog.Offers digits context target) := by
  unfold candidatesForContext
  cases sceneCatalog with
  | none =>
    refine ⟨[], rfl, fun _ h ↦ absurd h List.not_mem_nil, fun _ other hother ↦ ?_⟩
    cases hother
  | some catalog =>
    obtain ⟨sceneId, hsceneId⟩ := exists_sceneIdFromSnapshot hscene
    cases sceneId with
    | none =>
      refine ⟨[], bind_eq_ok_iff.2 ⟨none, hsceneId, rfl⟩,
        fun _ h ↦ absurd h List.not_mem_nil, fun _ other _ target hoffers ↦ ?_⟩
      have hother := hsceneId.symm.trans hoffers.scene
      cases hother
    | some sceneId =>
      obtain ⟨chosen, hchosen, hmem, hnone⟩ := @exists_selectCandidates digits sha256 catalog sceneId
        planVersion recentActions roleIdentity hwalks htrailing hutf8
      refine ⟨chosen, bind_eq_ok_iff.2 ⟨some sceneId, hsceneId,
        bind_eq_ok_iff.2 ⟨roleIdentity, hidentity, hchosen⟩⟩, fun target htarget ↦ ?_,
        fun hempty other hother target hoffers ↦ ?_⟩
      · obtain ⟨htargets, hid, hkind⟩ := mem_movementTargetsForScene.1 (hmem target htarget)
        rw [← hid] at hsceneId
        exact ⟨catalog, rfl, htargets, hkind, hsceneId⟩
      · cases hother
        have hsame := hsceneId.symm.trans hoffers.scene
        have hid : sceneId = target.sceneId := Option.some.inj (Except.ok.inj hsame)
        have hin := mem_movementTargetsForScene.2 ⟨hoffers.mem, hid.symm, hoffers.kind⟩
        rw [hnone hempty] at hin
        exact absurd hin List.not_mem_nil

end Choice

end LlmGateway.Scene
