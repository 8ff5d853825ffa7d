import Mathlib.Logic.Relation
import Mathlib.Data.List.Basic
import Mathlib.Algebra.Order.Ring.Int

/-!
# Runs of deterministic transition systems

A system is a total step function on states, driven by a list of actions. `run` folds the
step, `Guarded` states that each action of a run meets a condition in the state in which it
is taken, and the invariant rules are the inductions over a run that a development needs.

`iterate` is a bounded loop whose body says when it is done; `trail` lists the states in
which the body was executed.
-/

namespace LlmGateway.Relational

section Run

variable {σ α : Type*} (step : σ → α → σ)

/-- The state after a list of actions. -/
def run (s : σ) (actions : List α) : σ := actions.foldl step s

@[simp] theorem run_nil (s : σ) : run step s [] = s := rfl

@[simp] theorem run_cons (s : σ) (a : α) (actions : List α) :
    run step s (a :: actions) = run step (step s a) actions := rfl

theorem run_append (s : σ) (actions later : List α) :
    run step s (actions ++ later) = run step (run step s actions) later :=
  List.foldl_append

/-- Each action meets the condition in the state in which it is taken. -/
def Guarded (C : σ → α → Prop) : σ → List α → Prop
  | _, [] => True
  | s, a :: actions => C s a ∧ Guarded C (step s a) actions

instance Guarded.decidable (C : σ → α → Prop) [∀ s a, Decidable (C s a)] :
    ∀ (s : σ) (actions : List α), Decidable (Guarded step C s actions)
  | _, [] => inferInstanceAs (Decidable True)
  | s, a :: actions =>
    have := Guarded.decidable C (step s a) actions
    inferInstanceAs (Decidable (C s a ∧ Guarded step C (step s a) actions))

variable {step} {C : σ → α → Prop} {I : σ → Prop}

theorem guarded_append {s : σ} {actions later : List α} :
    Guarded step C s (actions ++ later) ↔
      Guarded step C s actions ∧ Guarded step C (run step s actions) later := by
  induction actions generalizing s with
  | nil => simp only [List.nil_append, Guarded, run_nil, true_and]
  | cons a actions ih => simp only [List.cons_append, Guarded, run_cons, ih, and_assoc]

/-- Two systems that take the same steps are run to the same state. -/
theorem run_eq_of_guarded {step' : σ → α → σ} {s : σ} {actions : List α}
    (h : Guarded step (fun s a ↦ step s a = step' s a) s actions) :
    run step s actions = run step' s actions := by
  induction actions generalizing s with
  | nil => rfl
  | cons a actions ih =>
    rw [run_cons, run_cons, ← h.1]
    exact ih h.2

/-- What every step preserves, every run preserves. -/
theorem invariant_run (hstep : ∀ s a, I s → I (step s a)) {s : σ} (hs : I s)
    (actions : List α) : I (run step s actions) := by
  induction actions generalizing s with
  | nil => exact hs
  | cons a actions ih => exact ih (hstep s a hs)

/-- What every step under the condition preserves, every guarded run preserves. -/
theorem invariant_guarded (hstep : ∀ s a, I s → C s a → I (step s a)) {s : σ} (hs : I s)
    {actions : List α} (hguard : Guarded step C s actions) : I (run step s actions) := by
  induction actions generalizing s with
  | nil => exact hs
  | cons a actions ih => exact ih (hstep s a hs hguard.1) hguard.2

/-- What a step meets in the states of an invariant, the steps of a guarded run meet. -/
theorem guarded_of_guarded {D : σ → α → Prop} (hstep : ∀ s a, I s → C s a → I (step s a))
    (hmeets : ∀ s a, I s → C s a → D s a) {s : σ} (hs : I s) {actions : List α}
    (hguard : Guarded step C s actions) : Guarded step D s actions := by
  induction actions generalizing s with
  | nil => trivial
  | cons a actions ih =>
    exact ⟨hmeets s a hs hguard.1, ih (hstep s a hs hguard.1) hguard.2⟩

/-- If a step keeps an invariant exactly under a condition, the invariant holds in every state of
a run exactly if all its actions meet the condition. -/
theorem guarded_iff_invariant (hstep : ∀ s a, I s → (I (step s a) ↔ C s a)) {s : σ}
    (hs : I s) (actions : List α) :
    Guarded step C s actions ↔ ∀ taken, taken <+: actions → I (run step s taken) := by
  induction actions generalizing s with
  | nil =>
    refine iff_of_true trivial fun taken htaken ↦ ?_
    rw [List.prefix_nil.1 htaken]
    exact hs
  | cons a actions ih =>
    constructor
    · intro hguard taken htaken
      cases taken with
      | nil => exact hs
      | cons b taken =>
        obtain ⟨rfl, hrest⟩ := List.cons_prefix_cons.1 htaken
        have hnext := (hstep s b hs).2 hguard.1
        exact (ih hnext).1 hguard.2 taken hrest
    · intro hall
      have hnext : I (step s a) := hall [a] (List.cons_prefix_cons.2 ⟨rfl, List.nil_prefix⟩)
      refine ⟨(hstep s a hs).1 hnext, (ih hnext).2 fun taken htaken ↦ ?_⟩
      exact hall (a :: taken) (List.cons_prefix_cons.2 ⟨rfl, htaken⟩)

/-- Some action of the run meets the condition in the state in which it is taken. -/
def Occurs (step : σ → α → σ) (C : σ → α → Prop) : σ → List α → Prop
  | _, [] => False
  | s, a :: actions => C s a ∨ Occurs step C (step s a) actions

/-- What an action establishes and every later action preserves, holds in the end. -/
theorem of_occurs {D : σ → α → Prop} {Q : σ → Prop}
    (hstep : ∀ s a, I s → C s a → I (step s a) ∧ (D s a ∨ Q s → Q (step s a))) {s : σ} (hs : I s)
    {actions : List α} (hguard : Guarded step C s actions)
    (hoccurs : Occurs step D s actions ∨ Q s) : Q (run step s actions) := by
  induction actions generalizing s with
  | nil => exact hoccurs.resolve_left id
  | cons a actions ih =>
    obtain ⟨hI, hQ⟩ := hstep s a hs hguard.1
    apply ih hI hguard.2
    cases hoccurs with
    | inl hoccurs =>
      cases hoccurs with
      | inl hnow => exact Or.inr (hQ (Or.inl hnow))
      | inr hlater => exact Or.inl hlater
    | inr hbefore => exact Or.inr (hQ (Or.inr hbefore))

/-- How many actions of the run meet the condition in the state in which they are taken. -/
def occurrences (step : σ → α → σ) (D : σ → α → Prop) [∀ s a, Decidable (D s a)] : σ → List α → ℕ
  | _, [] => 0
  | s, a :: actions => (if D s a then 1 else 0) + occurrences step D (step s a) actions

section Occurrences

variable {D : σ → α → Prop} [∀ s a, Decidable (D s a)] {P : σ → Prop}

/-- Where a property excludes a condition for good, no action meets the condition. -/
theorem occurrences_eq_zero (hstep : ∀ s a, P s → ¬D s a ∧ P (step s a)) {s : σ} (hs : P s)
    (actions : List α) : occurrences step D s actions = 0 := by
  induction actions generalizing s with
  | nil => rfl
  | cons a actions ih =>
    obtain ⟨hnot, hnext⟩ := hstep s a hs
    simp only [occurrences, if_neg hnot, ih hnext]

/-- A run into a lasting property that each step enters exactly under a condition meets the
condition once. -/
theorem occurrences_eq_one (hkeep : ∀ s a, P s → ¬D s a ∧ P (step s a))
    (henter : ∀ s a, ¬P s → (D s a ↔ P (step s a))) {s : σ} (hs : ¬P s) {actions : List α}
    (hend : P (run step s actions)) : occurrences step D s actions = 1 := by
  induction actions generalizing s with
  | nil => exact absurd hend hs
  | cons a actions ih =>
    simp only [occurrences]
    by_cases hD : D s a
    · rw [if_pos hD, occurrences_eq_zero hkeep ((henter s a hs).1 hD)]
    · rw [if_neg hD, ih (fun hnext ↦ hD ((henter s a hs).2 hnext)) hend]

/-- What each action under the condition takes from a measure bounds how many of them there are. -/
theorem occurrences_add_le {m : σ → ℤ} (hstep : ∀ s a, I s → C s a → I (step s a) ∧
    (if D s a then 1 else 0) + m (step s a) ≤ m s) {s : σ} (hs : I s) {actions : List α}
    (hguard : Guarded step C s actions) :
    occurrences step D s actions + m (run step s actions) ≤ m s := by
  induction actions generalizing s with
  | nil => simp only [occurrences, Nat.cast_zero, zero_add, run_nil, le_refl]
  | cons a actions ih =>
    obtain ⟨hnext, hle⟩ := hstep s a hs hguard.1
    have hrest := ih hnext hguard.2
    simp only [occurrences, Nat.cast_add, Nat.cast_ite, Nat.cast_one, Nat.cast_zero, run_cons]
    omega

end Occurrences

/-- A reflexive and transitive relation that holds of each step holds along a run. -/
theorem rel_run {R : σ → σ → Prop} (hrefl : ∀ s, R s s)
    (htrans : ∀ {s t u}, R s t → R t u → R s u) (hstep : ∀ s a, I s → R s (step s a))
    (hI : ∀ s a, I s → I (step s a)) {s : σ} (hs : I s) (actions : List α) :
    R s (run step s actions) := by
  induction actions generalizing s with
  | nil => exact hrefl s
  | cons a actions ih => exact htrans (hstep s a hs) (ih (hI s a hs))

end Run

section Chain

variable {σ : Type*} {r : σ → σ → Prop} {I : σ → Prop}

/-- What each link preserves, a chain preserves. -/
theorem invariant_chain (hlink : ∀ s t, r s t → I s → I t) {s t : σ}
    (h : Relation.ReflTransGen r s t) (hs : I s) : I t := by
  induction h with
  | refl => exact hs
  | tail _ hlast ih => exact hlink _ _ hlast ih

/-- A fold whose steps are chains that keep an invariant is such a chain. -/
theorem chain_foldl {α : Type*} {f : σ → α → σ} {l : List α}
    (hstep : ∀ s, ∀ a ∈ l, I s → Relation.ReflTransGen r s (f s a) ∧ I (f s a)) {s : σ}
    (hs : I s) : Relation.ReflTransGen r s (l.foldl f s) ∧ I (l.foldl f s) := by
  induction l generalizing s with
  | nil => exact ⟨Relation.ReflTransGen.refl, hs⟩
  | cons a l ih =>
    obtain ⟨hchain, hI⟩ := hstep s a List.mem_cons_self hs
    obtain ⟨hrest, hI'⟩ := ih (fun s a ha ↦ hstep s a (List.mem_cons_of_mem _ ha)) hI
    exact ⟨hchain.trans hrest, hI'⟩

/-- What each step of a fold establishes for its element, and all steps preserve, holds in the
end for all elements. -/
theorem foldl_forall {α : Type*} {f : σ → α → σ} {Q : α → σ → Prop} {l : List α}
    (hstep : ∀ s, ∀ a ∈ l, I s → I (f s a) ∧ Q a (f s a))
    (hkeep : ∀ s a b, Q b s → Q b (f s a)) {s : σ} (hs : I s) :
    I (l.foldl f s) ∧ ∀ a ∈ l, Q a (l.foldl f s) := by
  induction l generalizing s with
  | nil => exact ⟨hs, fun a ha ↦ absurd ha List.not_mem_nil⟩
  | cons a l ih =>
    obtain ⟨hI, hQ⟩ := hstep s a List.mem_cons_self hs
    obtain ⟨hI', hall⟩ := ih (fun s b hb ↦ hstep s b (List.mem_cons_of_mem _ hb)) hI
    refine ⟨hI', List.forall_mem_cons.2 ⟨?_, hall⟩⟩
    exact List.foldlRecOn (motive := fun s : σ ↦ Q a s) l f hQ fun s hs b _ ↦ hkeep s b a hs

end Chain

section Iterate

variable {σ : Type*} (body : σ → Option σ)

/-- Repeat the body until it reports that nothing is left, at most `n` times. -/
def iterate : ℕ → σ → σ
  | 0, s => s
  | n + 1, s => match body s with
    | none => s
    | some s' => iterate n s'

/-- The states in which the body did some work. -/
def trail : ℕ → σ → List σ
  | 0, _ => []
  | n + 1, s => match body s with
    | none => []
    | some s' => s :: trail n s'

variable {body} {I : σ → Prop} {r : σ → σ → Prop}

/-- A loop is a chain of executions of its body, each taken in a state of the trail. -/
theorem chain_iterate {n : ℕ} {s : σ} (hlink : ∀ t t', r t t' → I t → I t') (hs : I s)
    (hbody : ∀ t ∈ trail body n s, I t → ∀ t', body t = some t' →
      Relation.ReflTransGen r t t') :
    Relation.ReflTransGen r s (iterate body n s) := by
  induction n generalizing s with
  | zero => exact Relation.ReflTransGen.refl
  | succ n ih =>
    unfold iterate
    rcases hbs : body s with _ | s'
    · exact Relation.ReflTransGen.refl
    · have htrail : trail body (n + 1) s = s :: trail body n s' := by
        simp only [trail, hbs]
      rw [htrail] at hbody
      have hchain := hbody s List.mem_cons_self hs s' hbs
      exact hchain.trans (ih (invariant_chain hlink hchain hs)
        fun t ht ↦ hbody t (List.mem_cons_of_mem s ht))

theorem invariant_iterate (hbody : ∀ s s', body s = some s' → I s → I s') {n : ℕ} {s : σ}
    (hs : I s) : I (iterate body n s) := by
  induction n generalizing s with
  | zero => exact hs
  | succ n ih =>
    unfold iterate
    rcases hbs : body s with _ | s'
    · exact hs
    · exact ih (hbody s s' hbs hs)

/-- What the body preserves holds in every state of the trail. -/
theorem forall_mem_trail (hbody : ∀ s s', body s = some s' → I s → I s') {n : ℕ} {s : σ}
    (hs : I s) : ∀ t ∈ trail body n s, I t := by
  induction n generalizing s with
  | zero => exact fun t ht ↦ absurd ht List.not_mem_nil
  | succ n ih =>
    unfold trail
    rcases hbs : body s with _ | s'
    · exact fun t ht ↦ absurd ht List.not_mem_nil
    · exact List.forall_mem_cons.2 ⟨hs, ih (hbody s s' hbs hs)⟩

/-- A loop whose body decreases a measure ends with nothing left, given that much fuel. -/
theorem body_iterate_eq_none (measure : σ → ℕ)
    (hbody : ∀ s s', body s = some s' → measure s' < measure s) {n : ℕ} {s : σ}
    (hn : measure s < n) : body (iterate body n s) = none := by
  induction n generalizing s with
  | zero => omega
  | succ n ih =>
    unfold iterate
    rcases hbs : body s with _ | s'
    · exact hbs
    · exact ih (by have := hbody s s' hbs; omega)

end Iterate

end LlmGateway.Relational
