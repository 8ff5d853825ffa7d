import Mathlib.Data.Finset.BooleanAlgebra
import Mathlib.Data.Fintype.Card
import Mathlib.Logic.Relation

/-!
# Searching a graph with a stack

`search` takes the top of a stack, returns its answer if it has one, and otherwise pushes its
successors; what was visited is skipped, so that cycles do no harm. It finds an answer exactly if
a vertex that can be reached from the stack has one.
-/

namespace LlmGateway.Relational

variable {ι β : Type*} {next : ι → List ι} {answer : ι → Option β} {pending : List ι}
  {visited : Finset ι}

/-- What was visited has no answer, and its successors were visited or are pending. -/
def Explored (next : ι → List ι) (answer : ι → Option β) (pending : List ι) (visited : Finset ι) :
    Prop :=
  ∀ v ∈ visited, answer v = none ∧ ∀ u ∈ next v, u ∈ visited ∨ u ∈ pending

/-- There is a path from the first vertex to the second. -/
def Reaches (next : ι → List ι) : ι → ι → Prop := Relation.ReflTransGen fun v u ↦ u ∈ next v

theorem Explored.skip {current : ι} {rest : List ι}
    (h : Explored next answer (current :: rest) visited) (hvisited : current ∈ visited) :
    Explored next answer rest visited := by
  intro v hv
  refine ⟨(h v hv).1, fun u hu ↦ ?_⟩
  cases (h v hv).2 u hu with
  | inl hu => exact Or.inl hu
  | inr hu =>
    cases List.mem_cons.1 hu with
    | inl heq => exact Or.inl (heq ▸ hvisited)
    | inr hrest => exact Or.inr hrest

theorem Explored.expand [DecidableEq ι] {current : ι} {rest : List ι}
    (h : Explored next answer (current :: rest) visited) (hnone : answer current = none) :
    Explored next answer ((next current).reverse ++ rest) (insert current visited) := by
  intro v hv
  cases Finset.mem_insert.1 hv with
  | inl heq =>
    rw [heq]
    exact ⟨hnone, fun u hu ↦ Or.inr (List.mem_append_left _ (List.mem_reverse.2 hu))⟩
  | inr hv =>
    refine ⟨(h v hv).1, fun u hu ↦ ?_⟩
    cases (h v hv).2 u hu with
    | inl hu => exact Or.inl (Finset.mem_insert_of_mem hu)
    | inr hu =>
      cases List.mem_cons.1 hu with
      | inl heq => exact Or.inl (heq ▸ Finset.mem_insert_self _ _)
      | inr hrest => exact Or.inr (List.mem_append_right _ hrest)

/-- The head of `pending` is the top of the stack, the last successor is pushed last. -/
def search [Fintype ι] [DecidableEq ι] (next : ι → List ι) (answer : ι → Option β)
    (pending : List ι) (visited : Finset ι) : Option β :=
  match pending with
  | [] => none
  | current :: rest =>
    if current ∈ visited then search next answer rest visited
    else
      match answer current with
      | some b => some b
      | none => search next answer ((next current).reverse ++ rest) (insert current visited)
termination_by ((visitedᶜ).card, pending.length)
decreasing_by
  · exact Prod.Lex.right _ (Nat.lt_succ_self _)
  · rename_i hnew
    apply Prod.Lex.left
    rw [Finset.compl_insert]
    exact Finset.card_lt_card (Finset.erase_ssubset (Finset.mem_compl.2 hnew))

variable [Fintype ι] [DecidableEq ι]

/-- A search without an answer has seen everything that can be reached. -/
theorem answer_eq_none_of_search (hexplored : Explored next answer pending visited)
    (hsearch : search next answer pending visited = none) {v u : ι}
    (hv : v ∈ visited ∨ v ∈ pending) (hpath : Reaches next v u) : answer u = none := by
  induction pending, visited using search.induct next answer with
  | case1 visited =>
    -- Nothing is pending, so that what was visited is closed under successors.
    have hvisited : u ∈ visited := by
      induction hpath with
      | refl => exact hv.resolve_right List.not_mem_nil
      | tail _ hlast ih => exact ((hexplored _ ih).2 _ hlast).resolve_right List.not_mem_nil
    exact (hexplored u hvisited).1
  | case2 visited current rest hmem ih =>
    rw [search, if_pos hmem] at hsearch
    apply ih (hexplored.skip hmem) hsearch
    refine hv.elim Or.inl fun hv ↦ ?_
    cases List.mem_cons.1 hv with
    | inl heq => exact Or.inl (heq ▸ hmem)
    | inr hrest => exact Or.inr hrest
  | case3 visited current rest hmem b hanswer =>
    rw [search, if_neg hmem, hanswer] at hsearch
    cases hsearch
  | case4 visited current rest hmem hnone ih =>
    rw [search, if_neg hmem, hnone] at hsearch
    apply ih (hexplored.expand hnone) hsearch
    refine hv.elim (fun hv ↦ Or.inl (Finset.mem_insert_of_mem hv)) fun hv ↦ ?_
    cases List.mem_cons.1 hv with
    | inl heq => exact Or.inl (heq ▸ Finset.mem_insert_self _ _)
    | inr hrest => exact Or.inr (List.mem_append_right _ hrest)

/-- The answer of a search is that of a vertex that can be reached. -/
theorem exists_of_search {b : β} (hsearch : search next answer pending visited = some b) :
    ∃ v ∈ pending, ∃ u, Reaches next v u ∧ answer u = some b := by
  induction pending, visited using search.induct next answer with
  | case1 visited =>
    rw [search] at hsearch
    cases hsearch
  | case2 visited current rest hmem ih =>
    rw [search, if_pos hmem] at hsearch
    obtain ⟨v, hv, hpath⟩ := ih hsearch
    exact ⟨v, List.mem_cons_of_mem _ hv, hpath⟩
  | case3 visited current rest hmem c hanswer =>
    rw [search, if_neg hmem, hanswer] at hsearch
    exact ⟨current, List.mem_cons_self, current, .refl, hanswer.trans hsearch⟩
  | case4 visited current rest hmem hnone ih =>
    rw [search, if_neg hmem, hnone] at hsearch
    obtain ⟨v, hv, u, hpath, hanswer⟩ := ih hsearch
    cases List.mem_append.1 hv with
    | inl hnext =>
      exact ⟨current, List.mem_cons_self, u, hpath.head (List.mem_reverse.1 hnext), hanswer⟩
    | inr hrest => exact ⟨v, List.mem_cons_of_mem _ hrest, u, hpath, hanswer⟩

/-- A search from one vertex fails only if nothing that can be reached has an answer. -/
theorem search_eq_none_iff {root : ι} :
    search next answer [root] ∅ = none ↔ ∀ v, Reaches next root v → answer v = none := by
  constructor
  · intro hsearch v hpath
    exact answer_eq_none_of_search (fun v hv ↦ absurd hv (Finset.notMem_empty v)) hsearch
      (Or.inr List.mem_cons_self) hpath
  · intro hnone
    cases hsearch : search next answer [root] ∅ with
    | none => rfl
    | some b =>
      obtain ⟨v, hv, u, hpath, hanswer⟩ := exists_of_search hsearch
      rw [List.mem_singleton.1 hv] at hpath
      cases (hnone u hpath).symm.trans hanswer

end LlmGateway.Relational
