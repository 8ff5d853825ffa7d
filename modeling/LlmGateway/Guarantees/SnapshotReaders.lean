import LlmGateway.Guarantees.FallbackPlans

/-!
# Readers of snapshots and hints

The values that planning reads off a snapshot and a hint, and when reading them raises: the scene
id is converted whenever its characters are digits of any kind, the identity whenever it ends in
decimal digits, and a coordinate whenever it is an integer.
-/

namespace LlmGateway

open Relational

variable {digits : DigitTable}

/-! ## Digits -/

theorem isSome_mapM_iff {α β : Type} {f : α → Option β} {l : List α} :
    (l.mapM f).isSome = true ↔ ∀ a ∈ l, (f a).isSome = true := by
  induction l with
  | nil => simp
  | cons a l ih =>
    rw [List.mapM_cons, List.forall_mem_cons, ← ih]
    cases f a with
    | none => simp
    | some b => cases l.mapM f <;> simp

theorem length_of_mapM {α β : Type} {f : α → Option β} {l : List α} {values : List β}
    (h : l.mapM f = some values) : values.length = l.length := by
  induction l generalizing values with
  | nil => cases h; rfl
  | cons a l ih =>
    rw [List.mapM_cons] at h
    cases ha : f a with
    | none => rw [ha] at h; cases h
    | some b =>
      cases hl : l.mapM f with
      | none => rw [ha, hl] at h; cases h
      | some rest =>
        rw [ha, hl] at h
        cases h
        rw [List.length_cons, List.length_cons, ih hl]

/-- Digits are read if there are not too many and all are decimal. -/
theorem exists_readDigits_iff {text : List (Fin 0x110000)} :
    (∃ n, readDigits digits text = .ok n) ↔
      text.length ≤ maxStrDigits ∧ ∀ c ∈ text, (digits.decimal c).isSome = true := by
  constructor
  · rintro ⟨n, hn⟩
    unfold readDigits at hn
    split_ifs at hn with hlength
    refine ⟨not_lt.1 hlength, isSome_mapM_iff.1 ?_⟩
    cases hvalues : text.mapM digits.decimal with
    | none => rw [hvalues] at hn; cases hn
    | some values => rfl
  · exact fun h ↦ exists_readDigits h.1 h.2

theorem foldl_digits_lt (values : List (Fin 10)) (n : ℕ) :
    values.foldl (fun n digit ↦ 10 * n + digit.val) n < (n + 1) * 10 ^ values.length := by
  induction values generalizing n with
  | nil => simp
  | cons digit values ih =>
    have hstep : 10 * n + digit.val + 1 ≤ 10 * (n + 1) := by omega
    calc
      _ < (10 * n + digit.val + 1) * 10 ^ values.length := ih _
      _ ≤ 10 * (n + 1) * 10 ^ values.length := Nat.mul_le_mul_right _ hstep
      _ = (n + 1) * 10 ^ (digit :: values).length := by rw [List.length_cons, pow_succ]; ring

/-- An integer that has been read can be written. -/
theorem readDigits_lt {text : List (Fin 0x110000)} {n : ℕ} (h : readDigits digits text = .ok n) :
    n < 10 ^ maxStrDigits := by
  unfold readDigits at h
  split_ifs at h with hlength
  cases hvalues : text.mapM digits.decimal with
  | none => rw [hvalues] at h; cases h
  | some values =>
    rw [hvalues] at h
    cases h
    have hvaluesLength : values.length = text.length := length_of_mapM hvalues
    refine (foldl_digits_lt values 0).trans_le ?_
    rw [Nat.zero_add, Nat.one_mul, hvaluesLength]
    exact Nat.pow_le_pow_right (by decide) (not_lt.1 hlength)

/-! ## Conditions -/

/-- The scene id is not a text of digits, or one that `int` takes. -/
def ConvertibleId (digits : DigitTable) : Option Json → Prop
  | some (.str raw) =>
    let unsigned := raw.strip.codePoints.dropWhile (·.val = 0x2D)
    unsigned ≠ [] → unsigned.all digits.isDigit = true →
      raw.strip.codePoints.length ≤ unsigned.length + 1 ∧ unsigned.length ≤ maxStrDigits ∧
        ∀ c ∈ unsigned, (digits.decimal c).isSome = true
  | _ => True

/-- The identity ends in not too many digits, or it has a UTF-8 form. -/
def ConvertibleIdentity (digits : DigitTable) (identity : Text) : Prop :=
  (identity.strip.trailingDigits digits).length ≤ maxStrDigits ∧
    (identity.strip.trailingDigits digits = [] → identity.isUtf8 = true)

/-- A coordinate is not an integer beyond the doubles. -/
def ConvertibleAxis (value : List (Text × Json)) (axis : Text × Text) : Prop :=
  ∀ n, snapshotValue value axis.1 axis.2 = some (.int n) → n.natAbs < doubleOverflow

/-- A coordinate is numeric. -/
def NumericAxis (value : List (Text × Json)) (axis : Text × Text) : Prop :=
  ∃ raw, snapshotValue value axis.1 axis.2 = some raw ∧ raw.isCoordinate = true

/-- The coordinates up to the first one that is not numeric can be converted. -/
def ConvertibleCoordinates (value : List (Text × Json)) : Prop :=
  ConvertibleAxis value ("x", "X") ∧
    (NumericAxis value ("x", "X") → ConvertibleAxis value ("y", "Y") ∧
      (NumericAxis value ("y", "Y") → ConvertibleAxis value ("z", "Z")))

/-- What the readers that planning applies return, none of them raising. -/
structure ReadersReturn (runtime : Fallback.Runtime) (policy : Occupancy.Policy)
    (catalog : Scene.Catalog) (snapshot : List (Text × Json)) (fallback : Text)
    (value : List (Text × Json)) : Prop where
  sceneId : ∃ sceneId, Scene.sceneIdFromSnapshot runtime.digits snapshot = .ok sceneId
  sceneInstance : ∃ sceneInstance, Occupancy.sceneInstanceIdFromSnapshot snapshot = .ok sceneInstance
  identity : ∃ identity, Scene.roleIdentityFromSnapshot snapshot fallback = .ok identity
  bucket : ∀ identity, Scene.roleIdentityFromSnapshot snapshot fallback = .ok identity →
    (∃ bucket, Scene.stableRoleBucket runtime.digits runtime.sha256 identity = .ok bucket) ∧
      ∃ bucket, Fallback.stableRoleBucket runtime.digits identity = .ok bucket
  capacityKey : ∀ gatewayId skillName, ∃ key,
    policy.capacityKey runtime.digits gatewayId skillName snapshot = .ok key
  lobby : ∃ lobby, Fallback.isLobby snapshot = .ok lobby
  trusted : ∀ sceneId, ∃ target,
    catalog.trustedMovementTargetForCoordinates sceneId value = .ok target

/-- The integers of the snapshot have been read from a text, so they can be written. -/
def IsDecoded (snapshot : List (Text × Json)) : Prop :=
  ∀ field ∈ snapshot, ∀ n, field.2 = .int n → n.natAbs < 10 ^ maxStrDigits

/-! ## The readers -/

section Readers

variable {runtime : Fallback.Runtime} {policy : Occupancy.Policy} {catalog : Scene.Catalog}
  {snapshot : List (Text × Json)} {fallback : Text} {value : List (Text × Json)}

theorem IsDecoded.snapshotValue (h : IsDecoded snapshot) {canonical legacy : Text} {n : ℤ}
    (hvalue : snapshotValue snapshot canonical legacy = some (.int n)) :
    n.natAbs < 10 ^ maxStrDigits := by
  have hget {key : Text} (hkey : Json.get? snapshot key = some (.int n)) :
      n.natAbs < 10 ^ maxStrDigits := by
    obtain ⟨field, hfield, heq⟩ := Option.map_eq_some_iff.1 hkey
    exact h field (List.mem_of_find?_eq_some hfield) n heq
  unfold LlmGateway.snapshotValue at hvalue
  cases hcanonical : Json.get? snapshot canonical with
  | some raw =>
    rw [hcanonical] at hvalue
    exact hget (hcanonical.trans hvalue)
  | none =>
    rw [hcanonical] at hvalue
    exact hget hvalue

theorem exists_sceneId_iff :
    (∃ sceneId, Scene.sceneIdFromSnapshot digits snapshot = .ok sceneId) ↔
      ConvertibleId digits (snapshotValue snapshot "SceneId" "sceneId") := by
  unfold Scene.sceneIdFromSnapshot ConvertibleId
  cases snapshotValue snapshot "SceneId" "sceneId" with
  | none => exact iff_of_true ⟨_, rfl⟩ trivial
  | some raw =>
    cases raw with
    | null | bool | int | float | arr | obj => exact iff_of_true ⟨_, rfl⟩ trivial
    | str raw =>
      simp only
      split_ifs with hnone hsigns
      · refine iff_of_true ⟨_, rfl⟩ fun hnonempty hdigits ↦ ?_
        obtain hnil | hother := hnone
        · exact absurd hnil hnonempty
        · rw [hdigits] at hother
          cases hother
      · refine iff_of_false (fun ⟨_, h⟩ ↦ by cases h) fun h ↦ ?_
        push Not at hnone
        have hlength := (h hnone.1 (by simpa using hnone.2)).1
        omega
      all_goals
        push Not at hnone
        constructor
        · rintro ⟨sceneId, hsceneId⟩ - -
          obtain ⟨n, hn, -⟩ := bind_eq_ok_iff.1 hsceneId
          exact ⟨not_lt.1 hsigns, exists_readDigits_iff.1 ⟨n, hn⟩⟩
        · intro h
          obtain ⟨n, hn⟩ := exists_readDigits_iff.2 (h hnone.1 (by simpa using hnone.2)).2
          exact ⟨_, bind_eq_ok_iff.2 ⟨n, hn, rfl⟩⟩

/-- A scene id that has been read can be written. -/
theorem exists_sceneScope (hdecoded : IsDecoded snapshot) {sceneId : Option ℤ}
    (h : Scene.sceneIdFromSnapshot digits snapshot = .ok sceneId) :
    ∃ text, Occupancy.sceneScope sceneId = .ok text := by
  have hbound : ∀ n ∈ sceneId, n.natAbs < 10 ^ maxStrDigits := by
    unfold Scene.sceneIdFromSnapshot at h
    cases hvalue : LlmGateway.snapshotValue snapshot "SceneId" "sceneId" with
    | none => rw [hvalue] at h; cases h; exact fun n hn ↦ by cases hn
    | some raw =>
      rw [hvalue] at h
      cases raw with
      | null | bool | float | arr | obj => cases h; exact fun n hn ↦ by cases hn
      | int m =>
        cases h
        intro n hn
        cases hn
        exact hdecoded.snapshotValue hvalue
      | str raw =>
        simp only at h
        split_ifs at h
        · cases h
          exact fun n hn ↦ by cases hn
        all_goals
          obtain ⟨m, hm, hresult⟩ := bind_eq_ok_iff.1 h
          cases hresult
          intro n hn
          cases hn
          simpa using readDigits_lt hm
  cases sceneId with
  | none => exact ⟨_, rfl⟩
  | some n => exact exists_writeInt (hbound n rfl)

theorem exists_firstIdentityText (hdecoded : IsDecoded snapshot) (pairs : List (Text × Text)) :
    ∃ text, Occupancy.firstIdentityText snapshot pairs = .ok text := by
  induction pairs with
  | nil => exact ⟨none, rfl⟩
  | cons pair pairs ih =>
    obtain ⟨text, htext⟩ := @Scene.exists_identityText
      (LlmGateway.snapshotValue snapshot pair.1 pair.2) fun n hn ↦ hdecoded.snapshotValue hn
    obtain ⟨rest, hrest⟩ := ih
    unfold Occupancy.firstIdentityText
    rw [htext]
    cases text with
    | none => exact ⟨rest, hrest⟩
    | some text => exact ⟨_, rfl⟩

theorem exists_capacityKey (hdecoded : IsDecoded snapshot) {gatewayId : Text} {skillName : String}
    (h : ∃ sceneId, Scene.sceneIdFromSnapshot digits snapshot = .ok sceneId) :
    ∃ key, policy.capacityKey digits gatewayId skillName snapshot = .ok key := by
  obtain ⟨sceneId, hsceneId⟩ := h
  obtain ⟨sceneScope, hscope⟩ := exists_sceneScope hdecoded hsceneId
  obtain ⟨sceneInstance, hinstance⟩ := exists_firstIdentityText hdecoded
    [("SceneInstanceId", "sceneInstanceId"), ("SceneInstance", "sceneInstance"),
      ("InstanceId", "instanceId"), ("LineId", "lineId")]
  have hok {α β : Type} (a : α) (f : α → Except String β) : (Except.ok a >>= f) = f a := rfl
  simp only [Occupancy.Policy.capacityKey, hsceneId, hok, hscope,
    Occupancy.sceneInstanceIdFromSnapshot, hinstance]
  cases policy.ruleFor skillName sceneId with
  | none => exact ⟨_, rfl⟩
  | some rule =>
    simp only
    split_ifs <;> exact ⟨_, rfl⟩

theorem exists_bucket_iff {sha256 : Text → Digest} {identity : Text} :
    ((∃ bucket, Scene.stableRoleBucket digits sha256 identity = .ok bucket) ∧
      ∃ bucket, Fallback.stableRoleBucket digits identity = .ok bucket) ↔
      ConvertibleIdentity digits identity := by
  unfold Scene.stableRoleBucket Fallback.stableRoleBucket ConvertibleIdentity
  simp only
  split_ifs with htrailing hutf8
  · rw [and_self, exists_readDigits_iff]
    constructor
    · exact fun h ↦ ⟨h.1, fun hnil ↦ absurd hnil htrailing⟩
    · exact fun h ↦ ⟨h.1, decimal_of_mem_trailingDigits⟩
  · rw [not_not] at htrailing
    refine iff_of_true ⟨⟨_, rfl⟩, _, rfl⟩ ⟨?_, fun _ ↦ hutf8⟩
    rw [htrailing]
    exact Nat.zero_le _
  · rw [not_not] at htrailing
    exact iff_of_false (fun h ↦ by obtain ⟨⟨_, h⟩, -⟩ := h; cases h) fun h ↦ hutf8 (h.2 htrailing)

theorem exists_isLobby_of_decoded (hdecoded : IsDecoded snapshot) :
    ∃ lobby, Fallback.isLobby snapshot = .ok lobby := by
  have hfirst : ∃ first, Fallback.isFirstScene
      (snapshotValue snapshot "SceneId" "sceneId") = .ok first := by
    unfold Fallback.isFirstScene
    split
    · rename_i sceneId hvalue
      obtain ⟨text, htext⟩ := exists_writeInt (hdecoded.snapshotValue hvalue)
      rw [htext]
      exact ⟨_, rfl⟩
    · exact ⟨_, rfl⟩
    · exact ⟨_, rfl⟩
  obtain ⟨first, hfirst⟩ := hfirst
  exact ⟨_, bind_eq_ok_iff.2 ⟨first, hfirst, rfl⟩⟩

/-- A coordinate is read unless it is too large an integer, and it has a value if it is numeric. -/
theorem axis_cases (axis : Text × Text) :
    (∃ x, Scene.axis value axis.1 axis.2 = .ok (some x) ∧ ConvertibleAxis value axis ∧
      NumericAxis value axis) ∨
    (Scene.axis value axis.1 axis.2 = .ok none ∧ ConvertibleAxis value axis ∧
      ¬NumericAxis value axis) ∨
    (∃ message, Scene.axis value axis.1 axis.2 = .error message) ∧ ¬ConvertibleAxis value axis := by
  unfold Scene.axis ConvertibleAxis NumericAxis
  cases snapshotValue value axis.1 axis.2 with
  | none =>
    refine Or.inr (Or.inl ⟨rfl, fun n hn ↦ (by cases hn), ?_⟩)
    rintro ⟨raw, hraw, -⟩
    cases hraw
  | some raw =>
    cases raw with
    | int n =>
      by_cases hoverflow : doubleOverflow ≤ n.natAbs
      · refine Or.inr (Or.inr ⟨⟨"OverflowError", ?_⟩, fun h ↦ absurd (h n rfl) (not_lt.2 hoverflow)⟩)
        simp only [toDouble, if_pos hoverflow]
      · refine Or.inl ⟨roundDouble n, ?_, fun m hm ↦ ?_, .int n, rfl, rfl⟩
        · simp only [toDouble, if_neg hoverflow]
        · cases hm
          exact not_le.1 hoverflow
    | float mantissa exponent =>
      exact Or.inl ⟨_, rfl, fun n hn ↦ (by cases hn), .float mantissa exponent, rfl, rfl⟩
    | null | bool | str | arr | obj =>
      refine Or.inr (Or.inl ⟨rfl, fun n hn ↦ (by cases hn), ?_⟩)
      rintro ⟨raw, hraw, hnumeric⟩
      cases hraw
      cases hnumeric

theorem exists_coordinates_iff :
    (∃ coordinates, Scene.coordinates (some (.obj value)) = .ok coordinates) ↔
      ConvertibleCoordinates value := by
  unfold Scene.coordinates ConvertibleCoordinates
  obtain ⟨x, hx, hconvertible, hnumeric⟩ | ⟨hx, hconvertible, hnumeric⟩ | ⟨⟨message, hx⟩, hnot⟩ :=
    @axis_cases value ("x", "X")
  · simp only [hx, hconvertible, hnumeric, true_and, forall_const]
    obtain ⟨y, hy, hconvertible, hnumeric⟩ | ⟨hy, hconvertible, hnumeric⟩ | ⟨⟨message, hy⟩, hnot⟩ :=
      @axis_cases value ("y", "Y")
    · simp only [hconvertible, hnumeric, true_and, forall_const]
      obtain ⟨z, hz, hconvertible, -⟩ | ⟨hz, hconvertible, -⟩ | ⟨⟨message, hz⟩, hnot⟩ :=
        @axis_cases value ("z", "Z")
      · refine iff_of_true ⟨some ⟨x, y, z⟩, bind_eq_ok_iff.2 ⟨some x, rfl, ?_⟩⟩ hconvertible
        exact bind_eq_ok_iff.2 ⟨some y, hy, bind_eq_ok_iff.2 ⟨some z, hz, rfl⟩⟩
      · refine iff_of_true ⟨none, bind_eq_ok_iff.2 ⟨some x, rfl, ?_⟩⟩ hconvertible
        exact bind_eq_ok_iff.2 ⟨some y, hy, bind_eq_ok_iff.2 ⟨none, hz, rfl⟩⟩
      · refine iff_of_false ?_ hnot
        rintro ⟨coordinates, h⟩
        obtain ⟨_, hfirst, h⟩ := bind_eq_ok_iff.1 h
        cases hfirst
        obtain ⟨_, hsecond, h⟩ := bind_eq_ok_iff.1 h
        cases hy.symm.trans hsecond
        obtain ⟨_, hthird, -⟩ := bind_eq_ok_iff.1 h
        cases hz.symm.trans hthird
    · refine iff_of_true ⟨none, bind_eq_ok_iff.2 ⟨some x, rfl, ?_⟩⟩
        ⟨hconvertible, fun h ↦ absurd h hnumeric⟩
      exact bind_eq_ok_iff.2 ⟨none, hy, rfl⟩
    · refine iff_of_false ?_ fun h ↦ hnot h.1
      rintro ⟨coordinates, h⟩
      obtain ⟨_, hfirst, h⟩ := bind_eq_ok_iff.1 h
      cases hfirst
      obtain ⟨_, hsecond, -⟩ := bind_eq_ok_iff.1 h
      cases hy.symm.trans hsecond
  · refine iff_of_true ⟨none, bind_eq_ok_iff.2 ⟨none, hx, rfl⟩⟩
      ⟨hconvertible, fun h ↦ absurd h hnumeric⟩
  · refine iff_of_false ?_ fun h ↦ hnot h.1
    rintro ⟨coordinates, h⟩
    obtain ⟨_, hfirst, -⟩ := bind_eq_ok_iff.1 h
    cases hx.symm.trans hfirst

theorem exists_trusted_iff {sceneId : ℤ} :
    (∃ target, catalog.trustedMovementTargetForCoordinates sceneId value = .ok target) ↔
      ConvertibleCoordinates value := by
  rw [← exists_coordinates_iff]
  constructor
  · rintro ⟨target, htarget⟩
    obtain ⟨coordinates, hcoordinates, -⟩ := bind_eq_ok_iff.1 htarget
    exact ⟨coordinates, hcoordinates⟩
  · rintro ⟨coordinates, hcoordinates⟩
    unfold Scene.Catalog.trustedMovementTargetForCoordinates
    rw [hcoordinates]
    cases coordinates with
    | none => exact ⟨_, rfl⟩
    | some coordinates => exact ⟨_, rfl⟩

end Readers

/-! ## Values that raise -/

namespace Scenario

/-- A catalogue without targets. -/
def emptyCatalog : Scene.Catalog := ⟨[], List.nodup_nil⟩

/-- Suggested coordinates. -/
def suggestedTarget : List (Text × Json) := [("x", .int 1), ("y", .int 2), ("z", .int 3)]

theorem three_decoded : IsDecoded threeContext.sessionSnapshot := by
  rintro field hfield n heq
  simp only [threeContext, List.mem_cons, List.not_mem_nil, or_false] at hfield
  obtain rfl | rfl := hfield
  · cases heq
  · cases heq
    exact lt_of_lt_of_le (by decide) (Nat.pow_le_pow_right (by decide) one_le_maxStrDigits)

/-- A superscript is a digit and no decimal one. -/
def superscriptSnapshot : List (Text × Json) := [("SceneId", .str "²")]

end Scenario

end LlmGateway
