import LlmGateway.Contract.Json

/-!
# Paths into an argument object

The leaves of an object, each with the keys that lead to it. The code writes a path with dots
between its keys, so it accepts only non-empty keys without a dot. An object without keys is a
leaf itself; so is a list, whatever it holds.
-/

namespace LlmGateway

namespace Text

instance : Append Text := ⟨fun a b ↦ ⟨a.codePoints ++ b.codePoints⟩⟩

/-- The separator of a path, `"."`. -/
def dot : Text := ⟨[0x2E]⟩

/-- A key that may be a segment of a path. -/
def IsSegment (key : Text) : Prop := key.codePoints ≠ [] ∧ 0x2E ∉ key.codePoints

instance : DecidablePred IsSegment := fun _ ↦ inferInstanceAs (Decidable (_ ∧ _))

@[ext]
theorem ext {a b : Text} (h : a.codePoints = b.codePoints) : a = b := by
  cases a
  cases b
  exact congrArg Text.mk h

@[simp]
theorem append_codePoints (a b : Text) : (a ++ b).codePoints = a.codePoints ++ b.codePoints := rfl

theorem append_assoc (a b c : Text) : a ++ b ++ c = a ++ (b ++ c) := by
  ext1
  simp only [append_codePoints, List.append_assoc]

end Text

namespace Json

/-- The path of a key below another path; the empty path is that of the whole object. -/
def childPath (parent key : Text) : Text :=
  if parent.codePoints = [] then key else parent ++ Text.dot ++ key

mutual

/-- `_argument_leaf_paths`, with the paths in the order of the object. -/
def argumentLeafPaths (parent : Text) : List (Text × Json) → Option (List Text)
  | [] => some []
  | (key, item) :: fields =>
    if key.IsSegment then do
      let here ← leafPathsAt (childPath parent key) item
      let rest ← argumentLeafPaths parent fields
      return here ++ rest
    else none

/-- The paths of one item, which is its own leaf unless it is an object with keys. -/
def leafPathsAt (path : Text) : Json → Option (List Text)
  | obj fields => do
    let nested ← argumentLeafPaths path fields
    return if nested = [] then [path] else nested
  | null | bool _ | int _ | float .. | str _ | arr _ => some [path]

end

/-- The value ends a path. -/
def IsLeaf : Json → Prop
  | obj fields => fields = []
  | null | bool _ | int _ | float .. | str _ | arr _ => True

/-- The keys that lead from an object to one of its leaves. -/
inductive LeafAt : List (Text × Json) → List Text → Prop
  | leaf {fields key item} : (key, item) ∈ fields → item.IsLeaf → LeafAt fields [key]
  | inside {fields key nested keys} : (key, obj nested) ∈ fields → LeafAt nested keys →
      LeafAt fields (key :: keys)

/-- The written form of a path, below another one. -/
def dotted (parent : Text) (keys : List Text) : Text := keys.foldl childPath parent

theorem not_leafAt_nil {keys : List Text} : ¬LeafAt [] keys := by
  intro h
  cases h with
  | leaf hmem => cases hmem
  | inside hmem => cases hmem

/-- A leaf of an object is below its first key, or is a leaf of the rest. -/
theorem leafAt_cons {key : Text} {item : Json} {fields : List (Text × Json)} {keys : List Text} :
    LeafAt ((key, item) :: fields) keys ↔ (item.IsLeaf ∧ keys = [key] ∨
      ∃ nested below, item = obj nested ∧ LeafAt nested below ∧ keys = key :: below) ∨
        LeafAt fields keys := by
  constructor
  · intro h
    cases h with
    | leaf hmem hleaf =>
      cases hmem with
      | head => exact Or.inl (Or.inl ⟨hleaf, rfl⟩)
      | tail _ hmem => exact Or.inr (.leaf hmem hleaf)
    | inside hmem hinside =>
      cases hmem with
      | head => exact Or.inl (Or.inr ⟨_, _, rfl, hinside, rfl⟩)
      | tail _ hmem => exact Or.inr (.inside hmem hinside)
  · intro h
    cases h with
    | inl hhere =>
      cases hhere with
      | inl hleaf =>
        rw [hleaf.2]
        exact .leaf List.mem_cons_self hleaf.1
      | inr hinside =>
        obtain ⟨nested, below, hitem, hleafAt, hkeys⟩ := hinside
        rw [hkeys]
        exact .inside (hitem ▸ List.mem_cons_self) hleafAt
    | inr hrest =>
      cases hrest with
      | leaf hmem hleaf => exact .leaf (List.mem_cons_of_mem _ hmem) hleaf
      | inside hmem hinside => exact .inside (List.mem_cons_of_mem _ hmem) hinside

/-! ## The paths that the code collects -/

theorem argumentLeafPaths_cons {parent key : Text} {item : Json} {fields : List (Text × Json)}
    {paths : List Text} (h : argumentLeafPaths parent ((key, item) :: fields) = some paths) :
    ∃ here rest, leafPathsAt (childPath parent key) item = some here ∧
      argumentLeafPaths parent fields = some rest ∧ paths = here ++ rest := by
  simp only [argumentLeafPaths] at h
  split_ifs at h
  obtain ⟨here, hhere, h⟩ := Option.bind_eq_some_iff.1 h
  obtain ⟨rest, hrest, h⟩ := Option.bind_eq_some_iff.1 h
  exact ⟨here, rest, hhere, hrest, (Option.some.inj h).symm⟩

theorem leafPathsAt_ne_nil {path : Text} {item : Json} {paths : List Text}
    (h : leafPathsAt path item = some paths) : paths ≠ [] := by
  cases item with
  | obj fields =>
    simp only [leafPathsAt] at h
    obtain ⟨nested, -, h⟩ := Option.bind_eq_some_iff.1 h
    rw [← Option.some.inj h]
    split_ifs with hnested
    · exact List.cons_ne_nil _ _
    · exact hnested
  | _ =>
    rw [← Option.some.inj h]
    exact List.cons_ne_nil _ _

/-- Only an object without keys has no paths. -/
theorem argumentLeafPaths_eq_nil {parent : Text} {fields : List (Text × Json)}
    (h : argumentLeafPaths parent fields = some []) : fields = [] := by
  cases fields with
  | nil => rfl
  | cons field fields =>
    obtain ⟨here, rest, hhere, -, hpaths⟩ := argumentLeafPaths_cons h
    exact absurd (List.append_eq_nil_iff.1 hpaths.symm).1 (leafPathsAt_ne_nil hhere)

mutual

/-- The collected paths are the written forms of the leaves. -/
theorem mem_argumentLeafPaths {parent path : Text} :
    ∀ {fields : List (Text × Json)} {paths : List Text},
      argumentLeafPaths parent fields = some paths →
        (path ∈ paths ↔ ∃ keys, LeafAt fields keys ∧ path = dotted parent keys)
  | [], paths, h => by
    rw [← Option.some.inj h]
    constructor
    · intro hmem
      cases hmem
    · intro hleaf
      obtain ⟨keys, hleaf, -⟩ := hleaf
      exact absurd hleaf not_leafAt_nil
  | (key, item) :: fields, paths, h => by
    obtain ⟨here, rest, hhere, hrest, hpaths⟩ := argumentLeafPaths_cons h
    rw [hpaths, List.mem_append, mem_leafPathsAt hhere, mem_argumentLeafPaths hrest]
    constructor
    · rintro ((⟨hleaf, rfl⟩ | ⟨nested, keys, hitem, hleaf, rfl⟩) | ⟨keys, hleaf, rfl⟩)
      · exact ⟨[key], leafAt_cons.2 (Or.inl (Or.inl ⟨hleaf, rfl⟩)), rfl⟩
      · exact ⟨key :: keys, leafAt_cons.2 (Or.inl (Or.inr ⟨nested, keys, hitem, hleaf, rfl⟩)), rfl⟩
      · exact ⟨keys, leafAt_cons.2 (Or.inr hleaf), rfl⟩
    · rintro ⟨keys, hkeys, rfl⟩
      rcases leafAt_cons.1 hkeys with (⟨hleaf, rfl⟩ | ⟨nested, below, hitem, hleaf, rfl⟩) | hleaf
      · exact Or.inl (Or.inl ⟨hleaf, rfl⟩)
      · exact Or.inl (Or.inr ⟨nested, below, hitem, hleaf, rfl⟩)
      · exact Or.inr ⟨keys, hleaf, rfl⟩

theorem mem_leafPathsAt {owner path : Text} :
    ∀ {item : Json} {paths : List Text}, leafPathsAt owner item = some paths →
      (path ∈ paths ↔ (item.IsLeaf ∧ path = owner) ∨ ∃ nested keys, item = obj nested ∧
        LeafAt nested keys ∧ path = dotted owner keys)
  | obj fields, paths, h => by
    simp only [leafPathsAt] at h
    obtain ⟨nested, hnested, h⟩ := Option.bind_eq_some_iff.1 h
    rw [← Option.some.inj h]
    split_ifs with hnil
    · rw [hnil] at hnested
      have hfields : fields = [] := argumentLeafPaths_eq_nil hnested
      simp [IsLeaf, hfields, not_leafAt_nil]
    · have hfields : fields ≠ [] := by
        intro hfields
        rw [hfields] at hnested
        exact hnil (Option.some.inj hnested).symm
      rw [mem_argumentLeafPaths hnested]
      simp [IsLeaf, hfields]
  | null, paths, h | bool _, paths, h | int _, paths, h | float .., paths, h | str _, paths, h
  | arr _, paths, h => by
    rw [← Option.some.inj h]
    simp [IsLeaf]

end

end Json

end LlmGateway
