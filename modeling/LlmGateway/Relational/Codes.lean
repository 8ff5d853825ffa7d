import Mathlib.Data.List.TakeWhile

/-!
# Codes that can be read from the left

Two texts that begin with encoded values can be compared value by value: a code of symbols with an
end mark is read up to the mark, and a run of symbols of one kind up to the first of another kind.
-/

namespace LlmGateway.Relational

variable {α χ : Type*}

/-- What follows an encoded symbol does not matter for reading it. -/
def Readable (code : α → List χ) : Prop :=
  ∀ a b rest rest', code a ++ rest = code b ++ rest' → a = b ∧ rest = rest'

/-- No encoded symbol begins with the mark. -/
def MarkFree (code : α → List χ) (mark : χ) : Prop :=
  ∀ a, ∃ x rest, code a = x :: rest ∧ x ≠ mark

/-- A text that is closed by a mark is read up to it. -/
theorem Readable.flatMap_mark {code : α → List χ} (hcode : Readable code) {mark : χ}
    (hmark : MarkFree code mark) {l l' : List α} {rest rest' : List χ}
    (h : l.flatMap code ++ mark :: rest = l'.flatMap code ++ mark :: rest') :
    l = l' ∧ rest = rest' := by
  have hne (a : α) (s t : List χ) : code a ++ s ≠ mark :: t := by
    obtain ⟨x, u, hx, hxne⟩ := hmark a
    rw [hx, List.cons_append]
    exact fun heq ↦ hxne (List.cons.inj heq).1
  induction l generalizing l' with
  | nil =>
    cases l' with
    | nil => exact ⟨rfl, (List.cons.inj h).2⟩
    | cons b l' =>
      rw [List.flatMap_cons, List.append_assoc] at h
      exact absurd h.symm (hne b _ _)
  | cons a l ih =>
    cases l' with
    | nil =>
      rw [List.flatMap_cons, List.append_assoc] at h
      exact absurd h (hne a _ _)
    | cons b l' =>
      simp only [List.flatMap_cons, List.append_assoc] at h
      obtain ⟨hhead, htail⟩ := hcode a b _ _ h
      obtain ⟨hlist, hrest⟩ := ih htail
      exact ⟨by rw [hhead, hlist], hrest⟩

/-- The text does not begin with a symbol of the kind. -/
def EndsRun (kind : χ → Bool) (rest : List χ) : Prop := ∀ x ∈ rest.head?, kind x = false

theorem endsRun_nil (kind : χ → Bool) : EndsRun kind [] := by
  intro x hx
  cases hx

theorem EndsRun.takeWhile_eq {kind : χ → Bool} {rest : List χ} (h : EndsRun kind rest) :
    rest.takeWhile kind = [] := by
  cases rest with
  | nil => rfl
  | cons x rest => rw [List.takeWhile_cons, h x rfl, if_neg Bool.false_ne_true]

/-- A run of symbols of one kind is read up to the first symbol of another kind. -/
theorem append_inj_of_endsRun {kind : χ → Bool} {l l' rest rest' : List χ}
    (hl : ∀ x ∈ l, kind x = true) (hl' : ∀ x ∈ l', kind x = true) (hrest : EndsRun kind rest)
    (hrest' : EndsRun kind rest') (h : l ++ rest = l' ++ rest') : l = l' ∧ rest = rest' := by
  have heq : l = l' := by
    calc l = (l ++ rest).takeWhile kind := by
          rw [List.takeWhile_append_of_pos hl, hrest.takeWhile_eq, List.append_nil]
      _ = (l' ++ rest').takeWhile kind := congrArg _ h
      _ = l' := by rw [List.takeWhile_append_of_pos hl', hrest'.takeWhile_eq, List.append_nil]
  subst heq
  exact ⟨rfl, List.append_cancel_left h⟩

end LlmGateway.Relational
