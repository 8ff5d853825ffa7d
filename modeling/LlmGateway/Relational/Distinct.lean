import Mathlib.Data.List.Nodup

/-!
# Distinct elements in the order of their first occurrence
-/

namespace LlmGateway.Relational

variable {α : Type*} [DecidableEq α]

/-- Append an element that was not seen before. -/
def keepNew (seen : List α) (a : α) : List α := if a ∈ seen then seen else seen ++ [a]

/-- The distinct elements of a list, each at its first occurrence. -/
def firstSeen (l : List α) : List α := l.foldl keepNew []

theorem mem_keepNew {seen : List α} {a b : α} : b ∈ keepNew seen a ↔ b ∈ seen ∨ b = a := by
  unfold keepNew
  split_ifs with ha
  · refine ⟨Or.inl, ?_⟩
    rintro (hb | rfl)
    · exact hb
    · exact ha
  · rw [List.mem_append, List.mem_singleton]

theorem nodup_keepNew {seen : List α} (h : seen.Nodup) (a : α) : (keepNew seen a).Nodup := by
  unfold keepNew
  split_ifs with ha
  · exact h
  · refine List.nodup_append.2 ⟨h, List.nodup_singleton a, ?_⟩
    rintro b hb c hc rfl
    exact ha (List.mem_singleton.1 hc ▸ hb)

theorem mem_foldl_keepNew {l seen : List α} {b : α} :
    b ∈ l.foldl keepNew seen ↔ b ∈ seen ∨ b ∈ l := by
  induction l generalizing seen with
  | nil => simp only [List.foldl_nil, List.not_mem_nil, or_false]
  | cons a l ih => rw [List.foldl_cons, ih, mem_keepNew, List.mem_cons, or_assoc]

theorem mem_firstSeen {l : List α} {b : α} : b ∈ firstSeen l ↔ b ∈ l := by
  rw [firstSeen, mem_foldl_keepNew]
  simp only [List.not_mem_nil, false_or]

theorem nodup_firstSeen (l : List α) : (firstSeen l).Nodup :=
  List.foldlRecOn l keepNew List.nodup_nil fun _ hseen a _ ↦ nodup_keepNew hseen a

theorem firstSeen_perm {l : List α} (h : l.Nodup) : (firstSeen l).Perm l :=
  (List.perm_ext_iff_of_nodup (nodup_firstSeen l) h).2 fun _ ↦ mem_firstSeen

/-- A list without duplicates has two elements iff two of its elements differ. -/
theorem one_lt_length_iff {α β : Type*} {f : α → β} {l : List α}
    (hl : l.Pairwise fun a b ↦ f a ≠ f b) : 1 < l.length ↔ ∃ a ∈ l, ∃ b ∈ l, f a ≠ f b := by
  constructor
  · intro hlength
    cases l with
    | nil => exact absurd hlength (Nat.not_lt_zero 1)
    | cons a l =>
      cases l with
      | nil => exact absurd hlength (Nat.lt_irrefl 1)
      | cons b l =>
        have hab : f a ≠ f b := (List.pairwise_cons.1 hl).1 b List.mem_cons_self
        exact ⟨a, List.mem_cons_self, b, List.mem_cons_of_mem a List.mem_cons_self, hab⟩
  · intro h
    obtain ⟨a, ha, b, hb, hab⟩ := h
    by_contra hlength
    obtain ⟨c, hc⟩ := List.length_eq_one_iff.1
      (Nat.le_antisymm (Nat.not_lt.1 hlength) (List.length_pos_of_mem ha))
    rw [hc, List.mem_singleton] at ha hb
    exact hab (congrArg f (ha.trans hb.symm))

end LlmGateway.Relational
