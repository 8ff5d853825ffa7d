import Mathlib.Data.List.Rotate

/-!
# Going round a list

A cursor moves through a list and starts again behind its last element. A whole round, wherever it
starts, meets what the list holds, as often as the list holds it.
-/

namespace LlmGateway.Relational

variable {α : Type*}

/-- What the first `k` steps round the list meet, from a position that may be behind its end. -/
def around (l : List α) (start : ℕ) : ℕ → List α
  | 0 => []
  | k + 1 => around l start k ++ l[(start + k) % l.length]?.toList

@[simp] theorem around_zero (l : List α) (start : ℕ) : around l start 0 = [] := rfl

theorem length_around {l : List α} (hl : l ≠ []) (start k : ℕ) : (around l start k).length = k := by
  induction k with
  | zero => rfl
  | succ k ih =>
    have hlt : (start + k) % l.length < l.length := Nat.mod_lt _ (List.length_pos_iff.2 hl)
    rw [around, List.length_append, ih, List.getElem?_eq_getElem hlt]
    rfl

theorem around_eq_take {l : List α} (start : ℕ) {k : ℕ} (hk : k ≤ l.length) :
    around l start k = (l.rotate start).take k := by
  induction k with
  | zero => rfl
  | succ k ih =>
    rw [around, ih (Nat.le_of_succ_le hk), List.take_add_one, List.getElem?_rotate hk,
      Nat.add_comm start k]

/-- A whole round meets what the list holds. -/
theorem around_perm (l : List α) (start : ℕ) : (around l start l.length).Perm l := by
  have htake : around l start l.length = l.rotate start := by
    rw [around_eq_take start le_rfl, ← List.length_rotate l start, List.take_length]
  rw [htake]
  exact List.rotate_perm l start

end LlmGateway.Relational
