import Mathlib.Data.List.Basic

/-!
# The first element that meets a condition

`IsFirst P x l` says that `x` is the first element of `l` that meets `P`, and `UpToFirst P Q l` that
`Q` holds of that element and of those before it.
-/

namespace LlmGateway.Relational

variable {α : Type*} {P Q : α → Prop} {a x : α} {l : List α}

def IsFirst (P : α → Prop) (x : α) (l : List α) : Prop :=
  ∃ before after, l = before ++ x :: after ∧ (∀ b ∈ before, ¬P b) ∧ P x

def UpToFirst (P Q : α → Prop) (l : List α) : Prop :=
  ∀ before x after, l = before ++ x :: after → (∀ b ∈ before, ¬P b) → Q x

theorem isFirst_cons_of_pos (h : P a) : IsFirst P a (a :: l) :=
  ⟨[], l, rfl, fun _ hb ↦ absurd hb List.not_mem_nil, h⟩

theorem isFirst_cons_of_neg (h : ¬P a) : IsFirst P x (a :: l) ↔ IsFirst P x l := by
  constructor
  · rintro ⟨before, after, heq, hbefore, hx⟩
    cases before with
    | nil =>
      cases heq
      exact absurd hx h
    | cons b before =>
      cases heq
      exact ⟨before, after, rfl, fun b hb ↦ hbefore b (List.mem_cons_of_mem _ hb), hx⟩
  · rintro ⟨before, after, rfl, hbefore, hx⟩
    exact ⟨a :: before, after, rfl, List.forall_mem_cons.2 ⟨h, hbefore⟩, hx⟩

theorem upToFirst_nil : UpToFirst P Q [] := by
  intro before x after heq
  cases before <;> cases heq

theorem upToFirst_cons : UpToFirst P Q (a :: l) ↔ Q a ∧ (¬P a → UpToFirst P Q l) := by
  constructor
  · intro h
    refine ⟨h [] a l rfl fun _ hb ↦ absurd hb List.not_mem_nil, ?_⟩
    rintro ha before x after rfl hbefore
    exact h (a :: before) x after rfl (List.forall_mem_cons.2 ⟨ha, hbefore⟩)
  · intro h before x after heq hbefore
    cases before with
    | nil =>
      cases heq
      exact h.1
    | cons b before =>
      cases heq
      obtain ⟨hb, hrest⟩ := List.forall_mem_cons.1 hbefore
      exact h.2 hb before x after rfl hrest

end LlmGateway.Relational
