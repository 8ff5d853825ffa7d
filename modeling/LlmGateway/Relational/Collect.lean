import LlmGateway.Relational.Outcome
import Mathlib.Data.List.Perm.Lattice
import Mathlib.Data.Set.Insert

/-!
# Rows collected under keys

Rows are read one after another and kept under keys; a row whose key has another value stops the
loop. Which rows there are decides whether the loop gets through and what it finds under a key:
neither their order nor their number does.
-/

namespace LlmGateway.Relational

universe u v

variable {ε : Type u} {κ α ρ : Type v}

section Definitions

variable [DecidableEq κ] [DecidableEq α]

/-- An entry is added unless the key has another value. -/
def enter (conflict : ε) (entries : List (κ × α)) (key : κ) (value : α) :
    Except ε (List (κ × α)) :=
  match entries.lookup key with
  | none => .ok (entries ++ [(key, value)])
  | some existing => if existing = value then .ok entries else .error conflict

/-- A row is read and kept. -/
def collect (read : ρ → Except ε (κ × α)) (conflict : κ × α → ε) (entries : List (κ × α))
    (row : ρ) : Except ε (List (κ × α)) := do
  let entry ← read row
  enter (conflict entry) entries entry.1 entry.2

end Definitions

/-- A row is read with a key for its value. -/
def keyed (key : α → κ) (read : ρ → Except ε α) (row : ρ) : Except ε (κ × α) := do
  let value ← read row
  .ok (key value, value)

/-- No key has two values. -/
def SingleValued (S : Set (κ × α)) : Prop :=
  ∀ ⦃key value value'⦄, (key, value) ∈ S → (key, value') ∈ S → value = value'

/-- What can be read off the rows. -/
def readings (read : ρ → Except ε α) (rows : List ρ) : Set α :=
  {value | ∃ row ∈ rows, read row = .ok value}

/-- The list has the entries of the set, each key once. -/
structure Collects (entries : List (κ × α)) (S : Set (κ × α)) : Prop where
  nodup : (entries.map Prod.fst).Nodup
  mem_iff : ∀ entry, entry ∈ entries ↔ entry ∈ S

theorem SingleValued.mono {S T : Set (κ × α)} (h : SingleValued T) (hsub : S ⊆ T) :
    SingleValued S :=
  fun _ _ _ hvalue hvalue' ↦ h (hsub hvalue) (hsub hvalue')

theorem readings_nil (read : ρ → Except ε α) : readings read [] = ∅ := by
  apply Set.eq_empty_of_forall_notMem
  rintro value ⟨row, hrow, -⟩
  exact absurd hrow List.not_mem_nil

/-- Only which rows there are matters to what can be read off them. -/
theorem readings_congr {read : ρ → Except ε α} {rows rows' : List ρ}
    (h : ∀ row, row ∈ rows ↔ row ∈ rows') : readings read rows = readings read rows' := by
  ext value
  simp only [readings, h]

/-- Rows that are read the same way give the same. -/
theorem readings_congr_read {read read' : ρ → Except ε α} {rows : List ρ}
    (h : ∀ row ∈ rows, read row = read' row) : readings read rows = readings read' rows := by
  ext value
  constructor
  · exact fun ⟨row, hrow, hread⟩ ↦ ⟨row, hrow, (h row hrow).symm.trans hread⟩
  · exact fun ⟨row, hrow, hread⟩ ↦ ⟨row, hrow, (h row hrow).trans hread⟩

theorem readings_cons_of_eq_ok {read : ρ → Except ε α} {row : ρ} {rows : List ρ} {value : α}
    (h : read row = .ok value) :
    readings read (row :: rows) = insert value (readings read rows) := by
  ext other
  simp only [readings, Set.mem_ofPred_eq, List.exists_mem_cons_iff, h, Except.ok.injEq,
    Set.mem_insert_iff, eq_comm]

theorem mem_readings_keyed {key : α → κ} {read : ρ → Except ε α} {rows : List ρ} {name : κ}
    {value : α} :
    (name, value) ∈ readings (keyed key read) rows ↔
      value ∈ readings read rows ∧ key value = name := by
  simp only [readings, keyed, Set.mem_ofPred_eq, bind_eq_ok_iff, Except.ok.injEq, Prod.mk.injEq]
  constructor
  · rintro ⟨row, hrow, other, hread, hkey, rfl⟩
    exact ⟨⟨row, hrow, hread⟩, hkey⟩
  · rintro ⟨⟨row, hrow, hread⟩, hkey⟩
    exact ⟨row, hrow, value, hread, hkey, rfl⟩

theorem exists_keyed_iff {key : α → κ} {read : ρ → Except ε α} {row : ρ} :
    (∃ entry, keyed key read row = .ok entry) ↔ ∃ value, read row = .ok value := by
  simp only [keyed, bind_eq_ok_iff, Except.ok.injEq]
  constructor
  · rintro ⟨-, value, hread, -⟩
    exact ⟨value, hread⟩
  · exact fun ⟨value, hread⟩ ↦ ⟨_, value, hread, rfl⟩

/-- Values under keys of their own agree when those of one key are the same. -/
theorem singleValued_keyed_iff {key : α → κ} {read : ρ → Except ε α} {rows : List ρ} :
    SingleValued (readings (keyed key read) rows) ↔
      ∀ value ∈ readings read rows, ∀ value' ∈ readings read rows,
        key value = key value' → value = value' := by
  constructor
  · intro hsingle value hvalue value' hvalue' hkey
    exact hsingle (mem_readings_keyed.2 ⟨hvalue, hkey⟩) (mem_readings_keyed.2 ⟨hvalue', rfl⟩)
  · intro hsame name value value' hvalue hvalue'
    rw [mem_readings_keyed] at hvalue hvalue'
    exact hsame value hvalue.1 value' hvalue'.1 (hvalue.2.trans hvalue'.2.symm)

namespace Collects

theorem nil : Collects ([] : List (κ × α)) ∅ := by
  constructor
  · exact List.nodup_nil
  · intro entry
    exact iff_of_false List.not_mem_nil (Set.notMem_empty entry)

variable {entries entries' : List (κ × α)} {S : Set (κ × α)}

/-- Collected entries are found under their keys. -/
theorem lookup_eq_some_iff [BEq κ] [LawfulBEq κ] (h : Collects entries S) {key : κ} {value : α} :
    entries.lookup key = some value ↔ (key, value) ∈ S := by
  rw [← h.mem_iff]
  obtain ⟨hnodup, -⟩ := h
  induction entries with
  | nil => exact iff_of_false (Option.some_ne_none value ∘ Eq.symm) List.not_mem_nil
  | cons entry entries ih =>
    obtain ⟨hnew, hrest⟩ := List.nodup_cons.1 hnodup
    rw [List.lookup_cons, List.mem_cons]
    by_cases hkey : key = entry.1
    · subst hkey
      rw [beq_self_eq_true]
      have hmiss : (entry.1, value) ∉ entries := fun hmem ↦
        hnew (List.mem_map.2 ⟨_, hmem, rfl⟩)
      simp only [Option.some.injEq, hmiss, or_false, Prod.ext_iff, true_and, eq_comm]
    · rw [beq_eq_false_iff_ne.2 hkey]
      have hne : (key, value) ≠ entry := fun heq ↦ hkey (congrArg Prod.fst heq)
      simp only [hne, false_or]
      exact ih hrest

theorem lookup_eq_none_iff [BEq κ] [LawfulBEq κ] (h : Collects entries S) {key : κ} :
    entries.lookup key = none ↔ ∀ value, (key, value) ∉ S := by
  rw [Option.eq_none_iff_forall_ne_some]
  exact forall_congr' fun value ↦ not_congr h.lookup_eq_some_iff

theorem singleValued [DecidableEq κ] (h : Collects entries S) : SingleValued S := by
  intro key value value' hvalue hvalue'
  rw [← h.lookup_eq_some_iff] at hvalue hvalue'
  exact Option.some.inj (hvalue.symm.trans hvalue')

/-- Lists that collect the same have the same under each key. -/
theorem lookup_congr [BEq κ] [LawfulBEq κ] (h : Collects entries S) (h' : Collects entries' S)
    (key : κ) : entries.lookup key = entries'.lookup key := by
  ext value
  rw [h.lookup_eq_some_iff, h'.lookup_eq_some_iff]

/-- Lists that collect the same differ in their order only. -/
theorem perm (h : Collects entries S) (h' : Collects entries' S) : entries.Perm entries' := by
  rw [List.perm_ext_iff_of_nodup h.nodup.of_map h'.nodup.of_map]
  exact fun entry ↦ (h.mem_iff entry).trans (h'.mem_iff entry).symm

variable [DecidableEq κ] [DecidableEq α]

/-- A value is entered unless the key has another one. -/
theorem exists_enter_iff {conflict : ε} {key : κ} {value : α} (h : Collects entries S) :
    (∃ after, enter conflict entries key value = .ok after) ↔
      SingleValued (insert (key, value) S) := by
  have hsplit : SingleValued (insert (key, value) S) ↔
      ∀ existing, (key, existing) ∈ S → existing = value := by
    constructor
    · exact fun hsingle existing hexisting ↦
        hsingle (Set.mem_insert_of_mem _ hexisting) (Set.mem_insert _ S)
    · intro hsame key' first second hfirst hsecond
      rw [Set.mem_insert_iff, Prod.mk.injEq] at hfirst hsecond
      rcases hfirst with ⟨rfl, rfl⟩ | hfirst <;> rcases hsecond with ⟨hkey, rfl⟩ | hsecond
      · rfl
      · exact (hsame second hsecond).symm
      · exact hsame first (hkey ▸ hfirst)
      · exact h.singleValued hfirst hsecond
  rw [hsplit, enter]
  cases hlookup : entries.lookup key with
  | none =>
    have hnone := h.lookup_eq_none_iff.1 hlookup
    exact iff_of_true ⟨_, rfl⟩ fun existing hexisting ↦ absurd hexisting (hnone existing)
  | some existing =>
    have hin := h.lookup_eq_some_iff.1 hlookup
    constructor
    · intro hafter existing' hexisting'
      rw [h.singleValued hexisting' hin]
      by_contra hne
      simp only [if_neg hne, reduceCtorEq, exists_false] at hafter
    · intro hsame
      exact ⟨entries, if_pos (hsame existing hin)⟩

/-- What is entered is collected with the rest. -/
theorem enter {conflict : ε} {key : κ} {value : α} (h : Collects entries S)
    (henter : Relational.enter conflict entries key value = .ok entries') :
    Collects entries' (insert (key, value) S) := by
  unfold Relational.enter at henter
  cases hlookup : entries.lookup key with
  | none =>
    rw [hlookup] at henter
    obtain rfl := Except.ok.inj henter
    have hnew : key ∉ entries.map Prod.fst := by
      intro hmem
      obtain ⟨⟨key', existing⟩, hexisting, rfl⟩ := List.mem_map.1 hmem
      exact h.lookup_eq_none_iff.1 hlookup existing ((h.mem_iff _).1 hexisting)
    constructor
    · rw [List.map_append, List.nodup_append]
      refine ⟨h.nodup, List.nodup_singleton key, ?_⟩
      intro first hfirst second hsecond heq
      rw [heq, List.mem_singleton.1 hsecond] at hfirst
      exact hnew hfirst
    · intro entry
      rw [List.mem_append, List.mem_singleton, Set.mem_insert_iff, h.mem_iff, or_comm]
  | some existing =>
    rw [hlookup] at henter
    by_cases hsame : existing = value
    · simp only [if_pos hsame, Except.ok.injEq] at henter
      subst henter hsame
      rwa [Set.insert_eq_of_mem (h.lookup_eq_some_iff.1 hlookup)]
    · simp only [if_neg hsame, reduceCtorEq] at henter

variable {read : ρ → Except ε (κ × α)} {conflict : κ × α → ε} {rows : List ρ}

/-- The loop over the rows collects what can be read off them. -/
theorem foldlM (h : Collects entries S)
    (hfold : rows.foldlM (collect read conflict) entries = .ok entries') :
    Collects entries' (S ∪ readings read rows) := by
  induction rows generalizing entries S with
  | nil =>
    cases hfold
    rwa [readings_nil, Set.union_empty]
  | cons row rows ih =>
    obtain ⟨after, hfirst, hrest⟩ := foldlM_cons_eq_ok_iff.1 hfold
    obtain ⟨entry, hread, henter⟩ := bind_eq_ok_iff.1 hfirst
    rw [readings_cons_of_eq_ok hread, Set.union_insert, ← Set.insert_union]
    exact ih (h.enter henter) hrest

/-- The loop gets through when all rows can be read and no key has two values. -/
theorem exists_foldlM_iff (h : Collects entries S) :
    (∃ after, rows.foldlM (collect read conflict) entries = .ok after) ↔
      (∀ row ∈ rows, ∃ entry, read row = .ok entry) ∧
        SingleValued (S ∪ readings read rows) := by
  induction rows generalizing entries S with
  | nil =>
    rw [readings_nil, Set.union_empty]
    exact iff_of_true ⟨entries, rfl⟩ ⟨fun row hrow ↦ absurd hrow List.not_mem_nil, h.singleValued⟩
  | cons row rows ih =>
    rw [List.forall_mem_cons]
    constructor
    · rintro ⟨last, hfold⟩
      obtain ⟨after, hfirst, hrest⟩ := foldlM_cons_eq_ok_iff.1 hfold
      obtain ⟨entry, hread, henter⟩ := bind_eq_ok_iff.1 hfirst
      obtain ⟨hall, hsingle⟩ := (ih (h.enter henter)).1 ⟨last, hrest⟩
      rw [readings_cons_of_eq_ok hread, Set.union_insert, ← Set.insert_union]
      exact ⟨⟨⟨entry, hread⟩, hall⟩, hsingle⟩
    · rintro ⟨⟨⟨entry, hread⟩, hall⟩, hsingle⟩
      rw [readings_cons_of_eq_ok hread, Set.union_insert, ← Set.insert_union] at hsingle
      have hentered : ∃ after,
          Relational.enter (conflict entry) entries entry.1 entry.2 = .ok after :=
        h.exists_enter_iff.2 (hsingle.mono Set.subset_union_left)
      obtain ⟨after, henter⟩ := hentered
      obtain ⟨last, hrest⟩ := (ih (h.enter henter)).2 ⟨hall, hsingle⟩
      exact ⟨last, foldlM_cons_eq_ok_iff.2 ⟨after, bind_eq_ok_iff.2 ⟨entry, hread, henter⟩, hrest⟩⟩

/-- The loop from no entries. -/
theorem of_foldlM (hfold : rows.foldlM (collect read conflict) [] = .ok entries) :
    Collects entries (readings read rows) := by
  have h := nil.foldlM hfold
  rwa [Set.empty_union] at h

end Collects

/-- The loop over values with keys of their own gets through when they agree. -/
theorem exists_foldlM_keyed_iff [DecidableEq κ] [DecidableEq α] {key : α → κ}
    {read : ρ → Except ε α} {conflict : κ × α → ε} {rows : List ρ} :
    (∃ after, rows.foldlM (collect (keyed key read) conflict) [] = .ok after) ↔
      (∀ row ∈ rows, ∃ value, read row = .ok value) ∧
        ∀ value ∈ readings read rows, ∀ value' ∈ readings read rows,
          key value = key value' → value = value' := by
  rw [Collects.nil.exists_foldlM_iff, Set.empty_union, singleValued_keyed_iff]
  simp only [exists_keyed_iff]

/-- A loop with two accumulators is two loops. -/
theorem foldlM_prod_eq_ok_iff {σ τ : Type v} {f : σ × τ → ρ → Except ε (σ × τ)}
    {g : σ → ρ → Except ε σ} {k : τ → ρ → Except ε τ} {rows : List ρ}
    (hstep : ∀ s row t, f s row = .ok t ↔ g s.1 row = .ok t.1 ∧ k s.2 row = .ok t.2)
    {s t : σ × τ} :
    rows.foldlM f s = .ok t ↔
      rows.foldlM g s.1 = .ok t.1 ∧ rows.foldlM k s.2 = .ok t.2 := by
  induction rows generalizing s with
  | nil => simp only [List.foldlM_nil, pure, Except.pure, Except.ok.injEq, Prod.ext_iff]
  | cons row rows ih =>
    simp only [foldlM_cons_eq_ok_iff, hstep, ih]
    constructor
    · rintro ⟨after, ⟨hleft, hright⟩, hrestLeft, hrestRight⟩
      exact ⟨⟨after.1, hleft, hrestLeft⟩, after.2, hright, hrestRight⟩
    · rintro ⟨⟨left, hleft, hrestLeft⟩, right, hright, hrestRight⟩
      exact ⟨(left, right), ⟨hleft, hright⟩, hrestLeft, hrestRight⟩

end LlmGateway.Relational
