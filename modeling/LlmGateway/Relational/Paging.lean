import Mathlib.Data.List.Sort
import Mathlib.Order.Defs.LinearOrder

/-!
# Reading a table in pages

A reader keeps a cursor, a value of the key by which the rows are ordered. A page holds the first
rows that are ahead of the cursor, and the key of its last row is the next cursor. What a cursor
has passed is what it had passed before and what was on the pages since.
-/

namespace LlmGateway.Relational

variable {α κ : Type*} [LinearOrder κ] (key : α → κ)

/-- The row is not ahead of the cursor. -/
def Passed (cursor : Option κ) (a : α) : Prop := ∃ c ∈ cursor, key a ≤ c

instance (cursor : Option κ) : DecidablePred (Passed key cursor) := fun _ ↦
  inferInstanceAs (Decidable (∃ _ ∈ _, _))

/-- The rows ahead of the cursor, in the order of the key. -/
def ahead (cursor : Option κ) (rows : List α) : List α :=
  (rows.filter fun a ↦ ¬Passed key cursor a).insertionSort fun a b ↦ key a ≤ key b

/-- The cursor behind a page. -/
def nextCursor (cursor : Option κ) (page : List α) : Option κ :=
  (page.getLast?.map key).or cursor

variable {key} {cursor : Option κ} {rows : List α} {a : α}

theorem mem_ahead : a ∈ ahead key cursor rows ↔ a ∈ rows ∧ ¬Passed key cursor a := by
  simp only [ahead, List.mem_insertionSort, List.mem_filter, decide_eq_true_eq]

theorem ahead_pairwise : (ahead key cursor rows).Pairwise fun a b ↦ key a ≤ key b := by
  have : Std.Total fun a b : α ↦ key a ≤ key b := ⟨fun a b ↦ le_total (key a) (key b)⟩
  have : IsTrans α fun a b ↦ key a ≤ key b := ⟨fun _ _ _ ↦ le_trans⟩
  exact List.pairwise_insertionSort _ _

/-- A row that is ahead of the cursor and that the next cursor has passed is on the page. -/
theorem mem_page {limit : ℕ} (hinj : ∀ a ∈ rows, ∀ b ∈ rows, key a = key b → a = b) (ha : a ∈ rows)
    (hahead : ¬Passed key cursor a)
    (hpassed : Passed key (nextCursor key cursor ((ahead key cursor rows).take limit)) a) :
    a ∈ (ahead key cursor rows).take limit := by
  have hmem : a ∈ ahead key cursor rows := mem_ahead.2 ⟨ha, hahead⟩
  obtain ⟨c, hc, hle⟩ := hpassed
  cases hlast : ((ahead key cursor rows).take limit).getLast? with
  | none =>
    rw [nextCursor, hlast] at hc
    exact absurd ⟨c, hc, hle⟩ hahead
  | some b =>
    have hb : b ∈ (ahead key cursor rows).take limit := List.mem_of_getLast? hlast
    rw [nextCursor, hlast] at hc
    obtain rfl : key b = c := Option.some.inj hc
    rw [← List.take_append_drop limit (ahead key cursor rows)] at hmem
    cases List.mem_append.1 hmem with
    | inl hpage => exact hpage
    | inr hrest =>
      have hsorted : (ahead key cursor rows).Pairwise fun a b ↦ key a ≤ key b := ahead_pairwise
      rw [← List.take_append_drop limit (ahead key cursor rows)] at hsorted
      have hge : key b ≤ key a := (List.pairwise_append.1 hsorted).2.2 b hb a hrest
      have hrow : b ∈ rows := (mem_ahead.1 (List.mem_of_mem_take hb)).1
      rwa [hinj a ha b hrow (le_antisymm hle hge)]

end LlmGateway.Relational
