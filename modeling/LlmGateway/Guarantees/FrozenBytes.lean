import LlmGateway.Guarantees.CanonicalTexts
import LlmGateway.Outbox.Body
import LlmGateway.Outbox.Plan
import LlmGateway.System.Scenario

/-!
# The digest of a frozen decision

Wire objects with the same attributes have one canonical form exactly if their attributes agree.
So the digest of a decision identifies everything that is sent, apart from the order in which the
arguments of a skill were given.
-/

namespace LlmGateway

namespace Json

variable {floats : PythonFloats}

/-- A field of one list is a field of the other one. -/
theorem SameFields.exists_mem {fields fields' : List (Text × Json)}
    (h : SameFields floats fields fields') {k : Text} {x : Json} (hx : (k, x) ∈ fields) :
    ∃ y, (k, y) ∈ fields' ∧ Same floats x y := by
  induction fields generalizing fields' with
  | nil => cases hx
  | cons field fields ih =>
    cases fields' with
    | nil => exact h.elim
    | cons field' fields' =>
      obtain ⟨hkey, hvalue, hrest⟩ := h
      cases List.mem_cons.1 hx with
      | inl heq =>
        subst heq
        obtain ⟨l, y⟩ := field'
        obtain rfl : k = l := hkey
        exact ⟨y, List.mem_cons_self, hvalue⟩
      | inr hmem =>
        obtain ⟨y, hy, hsame⟩ := ih hrest hmem
        exact ⟨y, List.mem_cons_of_mem _ hy, hsame⟩

theorem SameFields.exists_mem' {fields fields' : List (Text × Json)}
    (h : SameFields floats fields fields') {k : Text} {y : Json} (hy : (k, y) ∈ fields') :
    ∃ x, (k, x) ∈ fields := by
  induction fields generalizing fields' with
  | nil =>
    cases fields' with
    | nil => cases hy
    | cons field' fields' => exact h.elim
  | cons field fields ih =>
    cases fields' with
    | nil => exact h.elim
    | cons field' fields' =>
      obtain ⟨hkey, hvalue, hrest⟩ := h
      cases List.mem_cons.1 hy with
      | inl heq =>
        subst heq
        obtain ⟨l, x⟩ := field
        obtain rfl : l = k := hkey
        exact ⟨x, List.mem_cons_self⟩
      | inr hmem =>
        obtain ⟨x, hx⟩ := ih hrest hmem
        exact ⟨x, List.mem_cons_of_mem _ hx⟩

section Record

variable {ι : Type} {fields : List ι} {key : ι → Text} {value value' : ι → Option Json}

theorem mem_recordFields (hinj : Function.Injective key) (hall : ∀ field, field ∈ fields)
    {field : ι} {x : Json} :
    (key field, x) ∈ recordFields fields key value ↔ value field = some x := by
  simp only [recordFields, List.mem_filterMap, Option.map_eq_some_iff, Prod.mk.injEq]
  constructor
  · rintro ⟨field', -, y, hy, hkey, rfl⟩
    rwa [← hinj hkey]
  · intro hx
    exact ⟨field, hall field, x, hx, rfl, rfl⟩

theorem sameFields_recordFields
    (h : ∀ field, Option.Rel (Same floats) (value field) (value' field)) :
    SameFields floats (recordFields fields key value) (recordFields fields key value') := by
  induction fields with
  | nil => trivial
  | cons field fields ih =>
    have hfield := h field
    unfold recordFields at ih ⊢
    cases hx : value field with
    | none =>
      rw [hx] at hfield
      cases hy : value' field with
      | none => simpa only [List.filterMap_cons, hx, hy, Option.map_none] using ih
      | some y =>
        rw [hy] at hfield
        cases hfield
    | some x =>
      rw [hx] at hfield
      cases hy : value' field with
      | none =>
        rw [hy] at hfield
        cases hfield
      | some y =>
        rw [hy] at hfield
        cases hfield with
        | some hsame =>
          simp only [List.filterMap_cons, hx, hy, Option.map_some]
          exact ⟨rfl, hsame, ih⟩

/-- Two wire objects are the same exactly if their attributes are. -/
theorem same_record_iff (hinj : Function.Injective key) (hall : ∀ field, field ∈ fields) :
    Same floats (.obj (recordFields fields key value))
        (.obj (recordFields fields key value')) ↔
      ∀ field, Option.Rel (Same floats) (value field) (value' field) := by
  constructor
  · rintro ⟨permuted, hperm, hsame⟩ field
    cases hx : value field with
    | none =>
      cases hy : value' field with
      | none => exact .none
      | some y =>
        have hmem := hperm.mem_iff.1 ((mem_recordFields hinj hall).2 hy)
        obtain ⟨x, hx'⟩ := hsame.exists_mem' hmem
        rw [(mem_recordFields hinj hall).1 hx'] at hx
        cases hx
    | some x =>
      obtain ⟨y, hy, hxy⟩ := hsame.exists_mem ((mem_recordFields hinj hall).2 hx)
      rw [(mem_recordFields hinj hall).1 (hperm.mem_iff.2 hy)]
      exact .some hxy
  · intro h
    exact ⟨_, List.Perm.refl _, sameFields_recordFields h⟩

theorem nodup_recordFields (hinj : Function.Injective key) (hfields : fields.Nodup) :
    ((recordFields fields key value).map Prod.fst).Nodup := by
  have hsub : (recordFields fields key value).map Prod.fst =
      (fields.filter fun field ↦ (value field).isSome).map key := by
    unfold recordFields
    induction fields with
    | nil => rfl
    | cons field fields ih =>
      have ih := ih (List.nodup_cons.1 hfields).2
      cases hx : value field with
      | none => simpa [List.filterMap_cons, hx] using ih
      | some x => simpa [List.filterMap_cons, hx] using ih
  rw [hsub]
  exact (hfields.filter _).map hinj

theorem fieldsHaveDistinctKeys_iff (items : List (Text × Json)) :
    fieldsHaveDistinctKeys items ↔ ∀ item ∈ items, item.2.hasDistinctKeys := by
  induction items with
  | nil => exact iff_of_true trivial (List.forall_mem_nil _)
  | cons item items ih => rw [fieldsHaveDistinctKeys, ih, List.forall_mem_cons]

/-- A wire object has distinct keys if its attributes have. -/
theorem hasDistinctKeys_record (hinj : Function.Injective key) (hfields : fields.Nodup)
    (hvalue : ∀ field, ∀ x ∈ value field, x.hasDistinctKeys) :
    (Json.obj (recordFields fields key value)).hasDistinctKeys := by
  refine ⟨nodup_recordFields hinj hfields, (fieldsHaveDistinctKeys_iff _).2 ?_⟩
  intro item hitem
  obtain ⟨field, -, hfield⟩ := List.mem_filterMap.1 hitem
  obtain ⟨x, hx, rfl⟩ := Option.map_eq_some_iff.1 hfield
  exact hvalue field x hx

theorem forall_mem_textsOfFields {p : Text → Prop} (items : List (Text × Json)) :
    (∀ text ∈ textsOfFields items, p text) ↔
      ∀ item ∈ items, p item.1 ∧ ∀ text ∈ item.2.texts, p text := by
  induction items with
  | nil => exact iff_of_true (List.forall_mem_nil _) (List.forall_mem_nil _)
  | cons item items ih =>
    rw [textsOfFields, List.forall_mem_cons, List.forall_mem_append, ih, List.forall_mem_cons,
      and_assoc]

/-- The texts of a wire object. -/
theorem forall_mem_texts_record (hall : ∀ field, field ∈ fields) {p : Text → Prop} :
    (∀ text ∈ (Json.obj (recordFields fields key value)).texts, p text) ↔
      ∀ field, ∀ x ∈ value field, p (key field) ∧ ∀ text ∈ x.texts, p text := by
  rw [texts, forall_mem_textsOfFields]
  constructor
  · intro h field x hx
    refine h (key field, x) (List.mem_filterMap.2 ⟨field, hall field, ?_⟩)
    rw [Option.mem_def.1 hx]
    rfl
  · intro h item hitem
    obtain ⟨field, -, hfield⟩ := List.mem_filterMap.1 hitem
    obtain ⟨x, hx, rfl⟩ := Option.map_eq_some_iff.1 hfield
    exact h field x hx

end Record

end Json

/-! ## Decisions -/

theorem Text.ofString_injective : Function.Injective Text.ofString := by
  intro s t h
  have hcodes := congrArg Text.codePoints h
  exact String.toList_injective (List.map_injective_iff.2 codePoint_injective hcodes)

namespace DecisionField

theorem mem_all (field : DecisionField) : field ∈ all := by
  cases field <;> decide

theorem nodup_all : all.Nodup := by decide

theorem serializationAlias_injective : Function.Injective serializationAlias := by
  intro field field' h
  have hall : ∀ f ∈ all, ∀ g ∈ all, serializationAlias f = serializationAlias g → f = g := by
    decide
  exact hall field (mem_all field) field' (mem_all field') h

theorem textAlias_injective :
    Function.Injective fun field : DecisionField ↦ Text.ofString field.serializationAlias :=
  Text.ofString_injective.comp serializationAlias_injective

end DecisionField

theorem DecisionAction.wireName_injective : Function.Injective DecisionAction.wireName := by
  intro action action' h
  cases action <;> cases action' <;> first | rfl | exact absurd h (by decide)

namespace DecisionBody

variable {floats : PythonFloats} {body body' : DecisionBody}

/-- The decisions are equal, with the arguments in any order. -/
structure Same (floats : PythonFloats) (body body' : DecisionBody) : Prop where
  rest_eq : body' = { body with arguments := body'.arguments }
  arguments_same : Option.Rel (fun arguments arguments' ↦
    Json.Same floats (.obj arguments) (.obj arguments')) body.arguments body'.arguments

theorem eq_of_rel_str {s t : String}
    (h : Option.Rel (Json.Same floats) (some (.str s)) (some (.str t))) : s = t := by
  cases h with
  | some hsame => exact Text.ofString_injective hsame

theorem eq_of_rel_int {m n : ℕ}
    (h : Option.Rel (Json.Same floats) (some (.int m)) (some (.int n))) : m = n := by
  cases h with
  | some hsame => exact Int.ofNat.inj hsame

/-- Attributes that are absent or agree are equal. -/
theorem eq_of_rel_map {α : Type} {wire : α → Json} {a b : Option α}
    (h : Option.Rel (Json.Same floats) (a.map wire) (b.map wire))
    (hwire : ∀ x y, Json.Same floats (wire x) (wire y) → x = y) : a = b := by
  cases a with
  | none =>
    cases b with
    | none => rfl
    | some y => cases h
  | some x =>
    cases b with
    | none => cases h
    | some y =>
      cases h with
      | some hsame => rw [hwire x y hsame]

theorem rel_map_iff {α : Type} {wire : α → Json} {a b : Option α} :
    Option.Rel (Json.Same floats) (a.map wire) (b.map wire) ↔
      Option.Rel (fun x y ↦ Json.Same floats (wire x) (wire y)) a b := by
  cases a <;> cases b <;> simp only [Option.map_none, Option.map_some, Option.rel_some_some,
    Option.not_rel_some_none, Option.not_rel_none_some, Option.rel_none_none]

theorem eq_of_rel_strs {s t : Option String} (h : Option.Rel (Json.Same floats)
    (s.map fun x : String ↦ .str x) (t.map fun x : String ↦ .str x)) : s = t :=
  eq_of_rel_map h fun _ _ hsame ↦ Text.ofString_injective hsame

theorem rel_map_self {α : Type} {wire : α → Json} (a : Option α)
    (hwire : ∀ x, Json.Same floats (wire x) (wire x)) :
    Option.Rel (Json.Same floats) (a.map wire) (a.map wire) := by
  cases a with
  | none => exact .none
  | some x => exact .some (hwire x)

/-- What agreeing attributes say about two decisions. -/
theorem rel_value_iff : (∀ field, Option.Rel (Json.Same floats) (body.value field)
    (body'.value field)) ↔ body.Same floats body' := by
  constructor
  · intro h
    have htrace : body.traceId = body'.traceId := eq_of_rel_str (h .traceId)
    have hsession : body.sessionId = body'.sessionId := eq_of_rel_str (h .sessionId)
    have hdecision : body.decisionId = body'.decisionId := eq_of_rel_str (h .decisionId)
    have hlease : body.decisionLeaseId = body'.decisionLeaseId :=
      eq_of_rel_str (h .decisionLeaseId)
    have hversion : body.stateVersion = body'.stateVersion := eq_of_rel_int (h .stateVersion)
    have hgeneration : body.controlGeneration = body'.controlGeneration :=
      eq_of_rel_int (h .controlGeneration)
    have httl : body.ttlMs = body'.ttlMs := eq_of_rel_int (h .ttlMs)
    have haction : body.action = body'.action :=
      DecisionAction.wireName_injective (eq_of_rel_str (h .action))
    have hskill : body.skillName = body'.skillName :=
      eq_of_rel_strs (h .skillName)
    have hschema : body.schemaVersion = body'.schemaVersion :=
      eq_of_rel_strs (h .schemaVersion)
    have hwait : body.waitMs = body'.waitMs :=
      eq_of_rel_map (h .waitMs) fun _ _ hsame ↦ Int.ofNat.inj hsame
    refine ⟨?_, rel_map_iff.1 (h .arguments)⟩
    rw [htrace, hsession, hdecision, hlease, hversion, hgeneration, httl, haction, hskill,
      hschema, hwait]
  · rintro ⟨hrest, harguments⟩ field
    rw [hrest]
    cases field with
    | arguments => exact rel_map_iff.2 harguments
    | skillName => exact rel_map_self body.skillName fun _ ↦ rfl
    | schemaVersion => exact rel_map_self body.schemaVersion fun _ ↦ rfl
    | waitMs => exact rel_map_self body.waitMs fun _ ↦ rfl
    | _ => exact .some rfl

/-- Two decisions are sent as the same bytes exactly if they agree, in whatever order their
arguments were given. -/
theorem bodyBytes_eq_iff {bytes : ByteArray}
    (hkeys : ∀ arguments ∈ body.arguments, (Json.obj arguments).hasDistinctKeys)
    (hbytes : body.bodyBytes floats = some bytes) :
    body'.bodyBytes floats = some bytes ↔ body.Same floats body' := by
  have hdistinct : body.bodyJson.hasDistinctKeys := by
    refine Json.hasDistinctKeys_record DecisionField.textAlias_injective
      DecisionField.nodup_all ?_
    intro field x hx
    cases field with
    | arguments =>
      obtain ⟨arguments, harguments, rfl⟩ := Option.map_eq_some_iff.1 hx
      exact hkeys arguments harguments
    | skillName | schemaVersion | waitMs =>
      obtain ⟨_, -, rfl⟩ := Option.map_eq_some_iff.1 hx
      trivial
    | _ =>
      obtain rfl := Option.some.inj hx
      trivial
  rw [← rel_value_iff, bodyBytes, canonicalJsonBytes_eq_some_iff hbytes,
    Json.decides body.bodyJson hdistinct]
  exact Json.same_record_iff DecisionField.textAlias_injective DecisionField.mem_all

section Example

/-- A call of a skill with the arguments. -/
def callBody (arguments : List (Text × Json)) : DecisionBody where
  traceId := "trace"
  sessionId := "s"
  decisionId := "d"
  decisionLeaseId := "L1"
  stateVersion := 1
  controlGeneration := 1
  ttlMs := 15000
  action := .callSkill
  skillName := some "seat_sit"
  schemaVersion := some "v1"
  arguments := some arguments
  waitMs := none

/-- The arguments in two orders. -/
theorem bodyBytes_eq_iff_swapped : ∃ bytes,
    (callBody [("sceneId", .int 7), ("chairId", .int 3)]).bodyBytes integralFloats = some bytes ∧
      (callBody [("chairId", .int 3), ("sceneId", .int 7)]).bodyBytes integralFloats =
        some bytes := by
  have hsome : ((callBody [("sceneId", .int 7), ("chairId", .int 3)]).bodyBytes
      integralFloats).isSome = true := by
    decide +kernel
  have hnodup : [Text.ofString "sceneId", Text.ofString "chairId"].Nodup := by decide
  obtain ⟨bytes, hbytes⟩ := Option.isSome_iff_exists.1 hsome
  refine ⟨bytes, hbytes, (bodyBytes_eq_iff ?_ hbytes).2 ⟨rfl, .some ?_⟩⟩
  · intro arguments harguments
    obtain rfl := Option.some.inj harguments
    exact ⟨hnodup, trivial, trivial, trivial⟩
  · exact ⟨_, List.Perm.swap _ _ _, rfl, rfl, rfl, rfl, trivial⟩

end Example

/-! ## Freezing -/

/-- Of the texts of a body, only the arguments may have no UTF-8 form. -/
theorem encodable_iff : body.Encodable ↔ ∀ text ∈ body.bodyJson.texts, text.isUtf8 = true := by
  rw [bodyJson, Json.forall_mem_texts_record DecisionField.mem_all]
  constructor
  · intro h field x hx
    refine ⟨Text.isUtf8_ofString _, ?_⟩
    cases field with
    | arguments =>
      obtain ⟨arguments, harguments, rfl⟩ := Option.map_eq_some_iff.1 hx
      exact List.all_eq_true.1 (h arguments harguments)
    | stateVersion | controlGeneration | ttlMs =>
      obtain rfl := Option.some.inj hx
      exact List.forall_mem_nil _
    | skillName | schemaVersion =>
      obtain ⟨text, -, rfl⟩ := Option.map_eq_some_iff.1 hx
      exact List.forall_mem_singleton.2 (Text.isUtf8_ofString _)
    | waitMs =>
      obtain ⟨waitMs, -, rfl⟩ := Option.map_eq_some_iff.1 hx
      exact List.forall_mem_nil _
    | _ =>
      obtain rfl := Option.some.inj hx
      exact List.forall_mem_singleton.2 (Text.isUtf8_ofString _)
  · intro h arguments harguments
    have hvalue : body.value .arguments = some (.obj arguments) := by
      rw [value, Option.mem_def.1 harguments]
      rfl
    exact List.all_eq_true.2 (h .arguments (.obj arguments) hvalue).2

end DecisionBody

section Example

open Scenario

end Example

end LlmGateway
