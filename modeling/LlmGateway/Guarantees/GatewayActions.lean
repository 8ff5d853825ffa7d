import LlmGateway.Api.GatewayAction
import LlmGateway.Relational.First
import LlmGateway.Relational.Outcome

/-!
# Actions that can be sent

The chosen action is the first one that the event admits, and a decision is made of it, unless the
event holds a value that Python cannot hash or iterate or the action has no time to live.
-/

namespace LlmGateway.GatewayAction

open Relational

variable {str : Json → Text} {payload : EventPayload} {action : RecommendedAction}
  {actions : List RecommendedAction} {identity : Identity}

/-! ## What the event admits -/

/-- The item is about the skill, in the version of the recommended actions. -/
def IsFor (name : SkillName) (item : Fields) : Prop :=
  skillName item = .str name.text ∧ schemaVersion item = .str "v1"

instance (name : SkillName) : DecidablePred (IsFor name) := fun _ ↦
  inferInstanceAs (Decidable (_ ∧ _))

def Offered (payload : EventPayload) (action : RecommendedAction) : Prop :=
  ∃ item ∈ payload.availableSkills, IsFor action.skillName item

/-- The hint of the action, the last one of its skill. -/
def hintOf (payload : EventPayload) (action : RecommendedAction) : Option Fields :=
  payload.skillArgumentHints.reverse.find? fun item ↦ IsFor action.skillName item

def missingArgs (hint : Fields) : Json := mappingValue hint "missingArgs" "MissingArgs"

def allowedArgs (hint : Fields) : Json := mappingValue hint "allowedArgs" "AllowedArgs"

/-- The paths that the hint allows. -/
def hintPaths (str : Json → Text) (hint : Fields) : List Text :=
  match allowedPaths str (allowedArgs hint) with
  | .ok paths => paths
  | .error _ => []

/-- Nothing is missing, and every path of the arguments is allowed or below an allowed one. -/
def Complete (str : Json → Text) (action : RecommendedAction) (hint : Fields) : Prop :=
  truthy (missingArgs hint) = false ∧
    ∀ path ∈ flattenArgumentPaths ⟨[]⟩ (.obj action.arguments), ∃ allowed ∈ hintPaths str hint,
      path = allowed ∨ (allowed ++ Text.dot).codePoints <+: path.codePoints

/-- The event admits the action. -/
def Fits (str : Json → Text) (payload : EventPayload) (action : RecommendedAction) : Prop :=
  Offered payload action ∧ ∀ hint ∈ hintOf payload action, Complete str action hint

/-- The name and version of a named item can be hashed. -/
def HasKey (item : Fields) : Prop :=
  truthy (skillName item) = true →
    isHashable (skillName item) = true ∧ isHashable (schemaVersion item) = true

/-- The value can be iterated, or is taken for an empty list. -/
def IsIterable : Json → Prop
  | .arr _ | .str _ | .obj _ => True
  | value => truthy value = false

/-- The hint of the action, if it is read, has allowed arguments that can be iterated. -/
def Readable (payload : EventPayload) (action : RecommendedAction) : Prop :=
  Offered payload action → ∀ hint ∈ hintOf payload action, truthy (missingArgs hint) = false →
    IsIterable (allowedArgs hint)

/-! ## The tables -/

theorem truthy_text (name : SkillName) : truthy (.str name.text) = true := by
  cases name <;> decide

theorem skillTable_of_hasKey {items : List Fields} (h : ∀ item ∈ items, HasKey item) :
    ∃ table, skillTable items = .ok table ∧ ∀ name : SkillName,
      lookUp table (.str name.text) (.str "v1") =
        items.reverse.find? fun item ↦ IsFor name item := by
  induction items with
  | nil => exact ⟨[], rfl, fun _ ↦ rfl⟩
  | cons item items ih =>
    obtain ⟨hitem, hitems⟩ := List.forall_mem_cons.1 h
    obtain ⟨table, htable, hlookUp⟩ := ih hitems
    unfold skillTable
    by_cases hnamed : truthy (skillName item) = true
    · obtain ⟨hname, hversion⟩ := hitem hnamed
      refine ⟨table ++ [((skillName item, schemaVersion item), item)], ?_, fun name ↦ ?_⟩
      · rw [if_pos hnamed, hname, hversion, htable]
        rfl
      · have hfor : (decide (skillName item = .str name.text) &&
            decide (schemaVersion item = .str "v1")) = true ↔ IsFor name item := by
          rw [Bool.and_eq_true, decide_eq_true_eq, decide_eq_true_eq]
          rfl
        have hold := hlookUp name
        unfold lookUp at hold ⊢
        rw [List.find?_append, List.reverse_cons, List.find?_append, ← hold, Option.map_or]
        congr 1
        rw [List.find?_singleton, List.find?_singleton]
        by_cases hitem : IsFor name item
        · rw [if_pos (hfor.2 hitem), if_pos (decide_eq_true hitem)]
          rfl
        · rw [if_neg (mt hfor.1 hitem), if_neg (mt of_decide_eq_true hitem)]
          rfl
    · refine ⟨table, by rw [if_neg hnamed, htable], fun name ↦ ?_⟩
      have hnot : ¬IsFor name item := by
        intro hfor
        rw [hfor.1, truthy_text] at hnamed
        exact hnamed rfl
      rw [hlookUp, List.reverse_cons, List.find?_append,
        List.find?_cons_of_neg (by simpa using hnot), List.find?_nil, Option.or_none]

theorem skillTable_of_not_hasKey {items : List Fields} (h : ¬∀ item ∈ items, HasKey item) :
    ∃ raised, skillTable items = .error raised := by
  induction items with
  | nil => exact absurd (fun _ hitem ↦ absurd hitem List.not_mem_nil) h
  | cons item items ih =>
    unfold skillTable
    by_cases hnamed : truthy (skillName item) = true
    · rw [if_pos hnamed]
      by_cases hhashable : (isHashable (skillName item) && isHashable (schemaVersion item)) = true
      · have hitem : HasKey item := fun _ ↦ Bool.and_eq_true_iff.1 hhashable
        obtain ⟨raised, hraised⟩ := ih fun hall ↦ h (List.forall_mem_cons.2 ⟨hitem, hall⟩)
        rw [if_pos hhashable, hraised]
        exact ⟨raised, rfl⟩
      · exact ⟨_, if_neg hhashable⟩
    · have hitem : HasKey item := fun hname ↦ absurd hname hnamed
      rw [if_neg hnamed]
      exact ih fun hall ↦ h (List.forall_mem_cons.2 ⟨hitem, hall⟩)

/-! ## One action -/

theorem pathIsAllowed_iff {allowed : List Text} {path : Text} :
    pathIsAllowed allowed path = true ↔
      ∃ parent ∈ allowed, path = parent ∨ (parent ++ Text.dot).codePoints <+: path.codePoints := by
  simp only [pathIsAllowed, List.any_eq_true, Bool.or_eq_true, decide_eq_true_eq,
    List.isPrefixOf_iff_prefix]

theorem isIterable_iff {value : Json} :
    IsIterable value ↔ ∃ paths, allowedPaths str value = .ok paths := by
  have hother : truthy value = false ↔ ∃ paths : List Text,
      (if truthy value then .error "TypeError" else .ok []) =
        (.ok paths : Except String (List Text)) := by
    cases truthy value with
    | false => exact iff_of_true rfl ⟨[], rfl⟩
    | true =>
      refine iff_of_false (Ne.symm Bool.false_ne_true) ?_
      rintro ⟨paths, h⟩
      cases h
  cases value with
  | arr | str | obj => exact iff_of_true trivial ⟨_, rfl⟩
  | null | bool | int | float => exact hother

theorem actionMatchesHint_some {hint : Fields} :
    actionMatchesHint str action.dump (some hint) =
      if truthy (missingArgs hint) then .ok false
      else
        match allowedPaths str (allowedArgs hint) with
        | .error raised => .error raised
        | .ok [] => .ok action.arguments.isEmpty
        | .ok allowed => .ok ((flattenArgumentPaths ⟨[]⟩ (.obj action.arguments)).all
            (pathIsAllowed allowed)) := rfl

/-- A hint that can be read says whether the arguments are complete. -/
theorem actionMatchesHint_dump {hint : Fields}
    (h : truthy (missingArgs hint) = false → IsIterable (allowedArgs hint)) :
    ∃ fits, actionMatchesHint str action.dump (some hint) = .ok fits ∧
      (fits = true ↔ Complete str action hint) := by
  rw [actionMatchesHint_some]
  unfold Complete
  cases hmissing : truthy (missingArgs hint) with
  | true =>
    refine ⟨false, rfl, iff_of_false Bool.false_ne_true ?_⟩
    rintro ⟨hnot, -⟩
    cases hnot
  | false =>
    obtain ⟨paths, hpaths⟩ := isIterable_iff.1 (h hmissing)
    have hhint : hintPaths str hint = paths := by
      rw [hintPaths, hpaths]
    rw [if_neg Bool.false_ne_true, hpaths, hhint]
    cases paths with
    | nil =>
      refine ⟨action.arguments.isEmpty, rfl, ?_⟩
      cases hempty : action.arguments with
      | nil =>
        refine iff_of_true rfl ⟨rfl, fun path hpath ↦ ?_⟩
        cases hpath
      | cons field fields =>
        refine iff_of_false Bool.false_ne_true ?_
        rintro ⟨-, hall⟩
        obtain ⟨_, hmem, -⟩ := hall _ List.mem_cons_self
        cases hmem
    | cons path paths =>
      refine ⟨_, rfl, ?_⟩
      simp only [List.all_eq_true, pathIsAllowed_iff, true_and]

theorem actionMatchesHint_raises {hint : Fields} (hmissing : truthy (missingArgs hint) = false)
    (h : ¬IsIterable (allowedArgs hint)) :
    ∃ raised, actionMatchesHint str action.dump (some hint) = .error raised := by
  rw [actionMatchesHint_some, hmissing, if_neg Bool.false_ne_true]
  cases hpaths : allowedPaths str (allowedArgs hint) with
  | ok paths => exact absurd (isIterable_iff.2 ⟨paths, hpaths⟩) h
  | error raised => exact ⟨raised, rfl⟩

/-! ## The body -/

/-- The identities that the body admits. -/
structure Identity.Valid (identity : Identity) : Prop where
  traceId : identity.traceId.codePoints ≠ [] ∧ identity.traceId.strip = identity.traceId
  sessionId : identity.sessionId.codePoints ≠ [] ∧ identity.sessionId.strip = identity.sessionId
  stateVersion : 0 ≤ identity.stateVersion

theorem requireNonBlankString_eq {field : String} {value : Text}
    (h : value.codePoints ≠ [] ∧ value.strip = value) :
    requireNonBlankString field (.str value) = .ok value := by
  rw [requireNonBlankString, if_neg (by simp [h.1, h.2])]

theorem requireNonNegativeInt_eq {field : String} {value : ℤ} (h : 0 ≤ value) :
    requireNonNegativeInt field (.int value) = .ok value := by
  rw [requireNonNegativeInt, if_neg (not_lt.2 h)]

theorem strip_text (name : SkillName) : name.text.codePoints ≠ [] ∧ name.text.strip = name.text := by
  cases name <;> decide

theorem decisionAction_dump : decisionAction action.dump (.str "call_skill") =
    .ok (.callSkill action.skillName.text "v1" action.arguments) := by
  have hname : valueAt action.dump "skillName" = .str action.skillName.text := rfl
  have hversion : valueAt action.dump "schemaVersion" = .str "v1" := rfl
  have hv1 : requireNonBlankString "schemaVersion" (.str "v1") = .ok "v1" :=
    requireNonBlankString_eq (by decide)
  rw [decisionAction, if_pos rfl, hname, hversion, hv1,
    requireNonBlankString_eq (strip_text action.skillName)]
  rfl

theorem exists_build_dump_iff (hvalid : identity.Valid) :
    (∃ body, buildLlmGatewayDecisionPayload str identity action.dump = .ok body) ↔
      action.ttlMs ≠ none := by
  have hconfidence : Json.get? action.dump "confidence" = none := rfl
  have haction : Json.get? action.dump "action" = none := rfl
  have httl : Json.get? action.dump "ttlMs" =
    some (action.ttlMs.elim .null fun ttl ↦ .int ttl) := rfl
  unfold buildLlmGatewayDecisionPayload
  rw [requireNonBlankString_eq hvalid.traceId, requireNonBlankString_eq hvalid.sessionId,
    requireNonNegativeInt_eq hvalid.stateVersion, hconfidence, haction, httl]
  simp only [Option.getD_none, Option.getD_some, decisionAction_dump]
  cases action.ttlMs with
  | none =>
    refine iff_of_false ?_ fun h ↦ h rfl
    rintro ⟨body, h⟩
    cases h
  | some ttl =>
    refine iff_of_true ?_ (Option.some_ne_none ttl)
    simp only [Option.elim_some, requireNonNegativeInt_eq (Int.natCast_nonneg ttl)]
    exact ⟨_, rfl⟩

theorem exists_build_wait (hvalid : identity.Valid) :
    ∃ body, buildLlmGatewayDecisionPayload str identity waitAction = .ok body := by
  unfold buildLlmGatewayDecisionPayload
  rw [requireNonBlankString_eq hvalid.traceId, requireNonBlankString_eq hvalid.sessionId,
    requireNonNegativeInt_eq hvalid.stateVersion]
  exact ⟨_, rfl⟩

/-! ## The loop -/

/-- The action is the first one that the event admits, or the wait if there is none. -/
def Chosen (str : Json → Text) (payload : EventPayload) (actions : List RecommendedAction)
    (chosen : Fields) : Prop :=
  (chosen = waitAction ∧ ∀ action ∈ actions, ¬Fits str payload action) ∨
    ∃ action, IsFirst (Fits str payload) action actions ∧ chosen = action.dump

/-- The hint of the action can be read, and the action has a time to live if it is chosen. -/
def IsSendable (str : Json → Text) (payload : EventPayload) (action : RecommendedAction) : Prop :=
  Readable payload action ∧ (Fits str payload action → action.ttlMs ≠ none)

/-- A decision is made of the chosen action. -/
def Sends (str : Json → Text) (payload : EventPayload) (identity : Identity)
    (actions : List RecommendedAction) (selected : Except String Fields) : Prop :=
  ∃ chosen body, selected = .ok chosen ∧ Chosen str payload actions chosen ∧
    buildLlmGatewayDecisionPayload str identity chosen = .ok body

theorem not_sends_error {raised : String} : ¬Sends str payload identity actions (.error raised) := by
  rintro ⟨chosen, body, hchosen, -⟩
  cases hchosen

theorem sends_cons_of_not_fits {selected : Except String Fields}
    (h : ¬Fits str payload action) :
    Sends str payload identity (action :: actions) selected ↔
      Sends str payload identity actions selected := by
  unfold Sends Chosen
  simp only [List.forall_mem_cons, h, not_false_eq_true, true_and, isFirst_cons_of_neg h]

theorem sends_cons_of_fits {P : Prop} (hvalid : identity.Valid) (hfits : Fits str payload action)
    (hreadable : Readable payload action) :
    Sends str payload identity (action :: actions) (.ok action.dump) ↔
      IsSendable str payload action ∧ (¬Fits str payload action → P) := by
  constructor
  · rintro ⟨chosen, body, hchosen, -, hbody⟩
    cases hchosen
    refine ⟨⟨hreadable, fun _ ↦ ?_⟩, fun hnot ↦ absurd hfits hnot⟩
    exact (exists_build_dump_iff hvalid).1 ⟨body, hbody⟩
  · rintro ⟨⟨-, httl⟩, -⟩
    have hbuild : ∃ body, buildLlmGatewayDecisionPayload str identity action.dump = .ok body :=
      (exists_build_dump_iff hvalid).2 (httl hfits)
    obtain ⟨body, hbody⟩ := hbuild
    exact ⟨action.dump, body, rfl, Or.inr ⟨action, isFirst_cons_of_pos hfits, rfl⟩, hbody⟩

/-- An action that is passed over leaves the choice to the others. -/
theorem sends_cons_of_skipped {P : Prop} {selected : Except String Fields}
    (hnot : ¬Fits str payload action) (hreadable : Readable payload action)
    (hrest : Sends str payload identity actions selected ↔ P) :
    Sends str payload identity (action :: actions) selected ↔
      IsSendable str payload action ∧ (¬Fits str payload action → P) := by
  rw [sends_cons_of_not_fits hnot, hrest]
  constructor
  · exact fun h ↦ ⟨⟨hreadable, fun hfits ↦ absurd hfits hnot⟩, fun _ ↦ h⟩
  · exact fun h ↦ h.2 hnot

section Loop

variable {available hints : List ((Json × Json) × Fields)}

theorem selectAction_cons {rest : List Json} :
    selectAction str available hints (.obj action.dump :: rest) =
      if (lookUp available (.str action.skillName.text) (.str "v1")).isNone = true then
        selectAction str available hints rest
      else
        match actionMatchesHint str action.dump
            (lookUp hints (.str action.skillName.text) (.str "v1")) with
        | .error raised => .error raised
        | .ok false => selectAction str available hints rest
        | .ok true => .ok action.dump := by
  have hname : orElse (valueAt action.dump "skillName") (valueAt action.dump "SkillName") =
      .str action.skillName.text := if_pos (truthy_text action.skillName)
  have hversion : orElse (orElse (valueAt action.dump "schemaVersion")
      (valueAt action.dump "SchemaVersion")) (.str "v1") = .str "v1" := rfl
  have hset : setField (setField action.dump "skillName" (.str action.skillName.text))
      "schemaVersion" (.str "v1") = action.dump := rfl
  rw [selectAction, hname, hversion, hset]
  rfl

theorem sends_selectAction_iff
    (havailable : ∀ name : SkillName, lookUp available (.str name.text) (.str "v1") =
      payload.availableSkills.reverse.find? fun item ↦ IsFor name item)
    (hhints : ∀ name : SkillName, lookUp hints (.str name.text) (.str "v1") =
      payload.skillArgumentHints.reverse.find? fun item ↦ IsFor name item)
    (hvalid : identity.Valid) :
    Sends str payload identity actions
        (selectAction str available hints (actions.map fun action ↦ .obj action.dump)) ↔
      UpToFirst (Fits str payload) (IsSendable str payload) actions := by
  induction actions with
  | nil =>
    obtain ⟨body, hbody⟩ : ∃ body,
        buildLlmGatewayDecisionPayload str identity waitAction = .ok body :=
      exists_build_wait hvalid
    refine iff_of_true ⟨waitAction, body, rfl, Or.inl ⟨rfl, ?_⟩, hbody⟩ upToFirst_nil
    exact fun _ h ↦ absurd h List.not_mem_nil
  | cons action actions ih =>
    have hhint : lookUp hints (.str action.skillName.text) (.str "v1") = hintOf payload action :=
      hhints action.skillName
    have hoffered : (lookUp available (.str action.skillName.text) (.str "v1")).isNone = true ↔
        ¬Offered payload action := by
      rw [havailable, Option.isNone_iff_eq_none, List.find?_eq_none]
      simp [Offered]
    rw [List.map_cons, selectAction_cons, upToFirst_cons, hhint]
    by_cases hoffer : Offered payload action
    · rw [if_neg (by rw [hoffered]; exact not_not_intro hoffer)]
      cases hhintOf : hintOf payload action with
      | none =>
        have hfits : Fits str payload action := by
          refine ⟨hoffer, fun hint hmem ↦ ?_⟩
          cases hhintOf.symm.trans hmem
        have hreadable : Readable payload action := by
          intro _ hint hmem
          cases hhintOf.symm.trans hmem
        exact sends_cons_of_fits hvalid hfits hreadable
      | some hint =>
        by_cases hiterable : truthy (missingArgs hint) = false → IsIterable (allowedArgs hint)
        · have hreadable : Readable payload action := by
            intro _ hint' hmem
            cases hhintOf.symm.trans hmem
            exact hiterable
          obtain ⟨fits, hmatches, hcomplete⟩ :
              ∃ fits, actionMatchesHint str action.dump (some hint) = .ok fits ∧
                (fits = true ↔ Complete str action hint) := actionMatchesHint_dump hiterable
          rw [hmatches]
          cases fits with
          | true =>
            have hfits : Fits str payload action := by
              refine ⟨hoffer, fun hint' hmem ↦ ?_⟩
              cases hhintOf.symm.trans hmem
              exact hcomplete.1 rfl
            exact sends_cons_of_fits hvalid hfits hreadable
          | false =>
            have hnot : ¬Fits str payload action := by
              intro hfits
              cases hcomplete.2 (hfits.2 hint hhintOf)
            exact sends_cons_of_skipped hnot hreadable ih
        · push Not at hiterable
          obtain ⟨hmissing, hnot⟩ := hiterable
          obtain ⟨raised, hraised⟩ : ∃ raised,
              actionMatchesHint str action.dump (some hint) = .error raised :=
            actionMatchesHint_raises hmissing hnot
          rw [hraised]
          exact iff_of_false not_sends_error fun h ↦ hnot (h.1.1 hoffer hint hhintOf hmissing)
    · rw [if_pos (hoffered.2 hoffer)]
      have hreadable : Readable payload action := fun h ↦ absurd h hoffer
      exact sends_cons_of_skipped (fun hfits ↦ hoffer hfits.1) hreadable ih

end Loop

/-! ## The choice -/

/-- A decision is made of the first action that the event admits, for every identity, exactly if
the items of the event can be looked up by name and version and the actions up to the chosen one
can be sent. -/
theorem sends_selectGatewayAction_iff (str : Json → Text) (payload : EventPayload)
    (actions : List RecommendedAction) (hvalid : identity.Valid) :
    Sends str payload identity actions
        (selectGatewayAction str (actions.map fun action ↦ .obj action.dump) payload) ↔
      (∀ item ∈ payload.availableSkills ++ payload.skillArgumentHints, HasKey item) ∧
        UpToFirst (Fits str payload) (IsSendable str payload) actions := by
  unfold selectGatewayAction
  rw [List.forall_mem_append]
  by_cases hskills : ∀ item ∈ payload.availableSkills, HasKey item
  · obtain ⟨available, havailable, hlookUp⟩ := skillTable_of_hasKey hskills
    by_cases hhints : ∀ item ∈ payload.skillArgumentHints, HasKey item
    · obtain ⟨hints, htable, hlookUp'⟩ := skillTable_of_hasKey hhints
      rw [havailable, htable, and_iff_right ⟨hskills, hhints⟩]
      exact sends_selectAction_iff hlookUp hlookUp' hvalid
    · obtain ⟨raised, hraised⟩ := skillTable_of_not_hasKey hhints
      rw [havailable, hraised]
      exact iff_of_false not_sends_error fun h ↦ hhints h.1.2
  · obtain ⟨raised, hraised⟩ := skillTable_of_not_hasKey hskills
    rw [hraised]
    exact iff_of_false not_sends_error fun h ↦ hskills h.1.1

end LlmGateway.GatewayAction

namespace LlmGateway.Scenario

open GatewayAction Relational

theorem noTtl_pos : ∀ ttl ∈ (none : Option ℕ), 0 < ttl := by decide

/-- What the model may recommend, without a time to live. -/
def endlessJump : RecommendedAction where
  skillName := .jump
  arguments := []
  reason := "jump"
  priority := .low
  ttlMs := none
  goalMetric := none
  goalValue := none
  expectedHours := none
  ttlMs_pos := noTtl_pos
  validArguments := rfl

def jumpEvent : EventPayload := ⟨[[("skillName", .str "jump"), ("schemaVersion", .str "v1")]], []⟩

/-- `str`, of texts. -/
def textOf : Json → Text
  | .str text => text
  | _ => ""

def gatewayIdentity : GatewayAction.Identity := ⟨"trace", "session", "decision", "lease", 0⟩

theorem gatewayIdentity_valid : gatewayIdentity.Valid := by
  constructor
  case traceId => decide
  case sessionId => decide
  case stateVersion => decide

theorem sends_jump_iff :
    Sends textOf jumpEvent gatewayIdentity [endlessJump]
        (selectGatewayAction textOf [.obj endlessJump.dump] jumpEvent) ↔
      (∀ item ∈ jumpEvent.availableSkills ++ jumpEvent.skillArgumentHints, HasKey item) ∧
        UpToFirst (Fits textOf jumpEvent) (IsSendable textOf jumpEvent) [endlessJump] :=
  sends_selectGatewayAction_iff textOf jumpEvent [endlessJump] gatewayIdentity_valid

/-- The action that the event admits is chosen, and no decision can be made of it. -/
theorem endlessJump_not_sent :
    selectGatewayAction textOf [.obj endlessJump.dump] jumpEvent = .ok endlessJump.dump ∧
      buildLlmGatewayDecisionPayload textOf gatewayIdentity endlessJump.dump =
        .error "ttlMs must be a non-negative integer" := by
  constructor
  · rfl
  · rfl

end LlmGateway.Scenario
