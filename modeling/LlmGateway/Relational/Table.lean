import Mathlib.Data.List.Pairwise
import Mathlib.Data.List.Basic
import Mathlib.Data.List.Perm.Subperm

/-!
# Relational tables with immutable identities

A table is a list of rows no two of which clash on a uniqueness constraint. Every
constraint of a row type speaks about its *key*: the columns that no assignment may
change (primary key, foreign keys, unique columns). An `UPDATE` therefore cannot break a
constraint, and an `INSERT` is the only statement that can be refused.

`Evolves` relates a table to a later version of it: each old row has a successor, and each
new row has a predecessor or was inserted.
-/

namespace LlmGateway.Relational

universe u

/-- The immutable part of a row type and the uniqueness constraints on it. -/
class Keyed (α : Type u) where
  Key : Type u
  key : α → Key
  Clash : Key → Key → Prop
  decidableClash : DecidableRel Clash
  clash_self (k : Key) : Clash k k
  clash_symm {k l : Key} : Clash k l → Clash l k

namespace Keyed

variable {α : Type u} [Keyed α]

/-- Two rows violate a uniqueness constraint together. -/
def Clashes (a b : α) : Prop := Clash (key a) (key b)

instance : DecidableRel (@Clashes α _) := fun a b ↦ decidableClash (key a) (key b)

theorem Clashes.refl (a : α) : Clashes a a := clash_self _

theorem Clashes.symm {a b : α} (h : Clashes a b) : Clashes b a := clash_symm h

instance : Std.Symm fun a b : α ↦ ¬Clashes a b := ⟨fun _ _ h h' ↦ h h'.symm⟩

theorem clashes_congr {a a' b b' : α} (ha : key a' = key a) (hb : key b' = key b) :
    Clashes a' b' ↔ Clashes a b := by
  simp only [Clashes, ha, hb]

theorem clashes_of_key_eq {a b : α} (h : key a = key b) : Clashes a b := by
  rw [Clashes, h]
  exact clash_self _

end Keyed

/-- The `SET` clause of an update: it changes no column of the key. -/
structure Assignment (α : Type u) [Keyed α] where
  set : α → α
  key_set (a : α) : Keyed.key (set a) = Keyed.key a

/-- The rows of a table, which satisfy every uniqueness constraint. -/
structure Table (α : Type u) [Keyed α] where
  rows : List α
  distinct : rows.Pairwise fun a b ↦ ¬Keyed.Clashes a b

namespace Table

variable {α : Type u} [Keyed α]

instance : Membership α (Table α) where
  mem t a := a ∈ t.rows

theorem mem_iff {t : Table α} {a : α} : a ∈ t ↔ a ∈ t.rows := Iff.rfl

instance (t : Table α) (p : α → Prop) [DecidablePred p] : Decidable (∃ a ∈ t, p a) :=
  inferInstanceAs (Decidable (∃ a ∈ t.rows, p a))

instance (t : Table α) (p : α → Prop) [DecidablePred p] : Decidable (∀ a ∈ t, p a) :=
  inferInstanceAs (Decidable (∀ a ∈ t.rows, p a))

def empty : Table α := ⟨[], List.Pairwise.nil⟩

@[simp] theorem not_mem_empty (a : α) : a ∉ (empty : Table α) := List.not_mem_nil

/-- Members that clash are the same row. -/
theorem eq_of_clashes {t : Table α} {a b : α} (ha : a ∈ t) (hb : b ∈ t)
    (h : Keyed.Clashes a b) : a = b := by
  by_contra hne
  exact t.distinct.forall ha hb hne h

theorem eq_of_key_eq {t : Table α} {a b : α} (ha : a ∈ t) (hb : b ∈ t)
    (h : Keyed.key a = Keyed.key b) : a = b :=
  eq_of_clashes ha hb (Keyed.clashes_of_key_eq h)

/-- `UPDATE … SET a WHERE w`. -/
def update (t : Table α) (w : α → Prop) [DecidablePred w] (a : Assignment α) : Table α where
  rows := t.rows.map fun r ↦ if w r then a.set r else r
  distinct := by
    have hkey (r : α) : Keyed.key (if w r then a.set r else r) = Keyed.key r := by
      split
      · exact a.key_set r
      · rfl
    refine List.pairwise_map.2 (t.distinct.imp fun hab ↦ ?_)
    rwa [Keyed.clashes_congr (hkey _) (hkey _)]

/-- `INSERT`, refused with `none` when the row clashes with a stored one. -/
def insert? (t : Table α) (a : α) : Option (Table α) :=
  if h : ∃ b ∈ t.rows, Keyed.Clashes b a then none
  else some
    { rows := t.rows ++ [a]
      distinct := by
        refine List.pairwise_append.2 ⟨t.distinct, List.pairwise_singleton _ _, ?_⟩
        intro b hb c hc hbc
        obtain rfl := List.mem_singleton.1 hc
        exact h ⟨b, hb, hbc⟩ }

/-- The first row that meets a condition; unique conditions make it the only one. -/
def find? (t : Table α) (w : α → Prop) [DecidablePred w] : Option α :=
  t.rows.find? fun r ↦ decide (w r)

/-- `SELECT … WHERE w`. -/
def select (t : Table α) (w : α → Prop) [DecidablePred w] : List α :=
  t.rows.filter fun r ↦ decide (w r)

/-! ## Statements and membership -/

section Statements

variable {t : Table α} {w : α → Prop} [DecidablePred w] {a : Assignment α}

theorem mem_update {r : α} :
    r ∈ t.update w a ↔ (∃ q ∈ t, w q ∧ a.set q = r) ∨ (r ∈ t ∧ ¬w r) := by
  simp only [mem_iff, update, List.mem_map]
  constructor
  · rintro ⟨q, hq, rfl⟩
    by_cases hw : w q
    · exact Or.inl ⟨q, hq, hw, by rw [if_pos hw]⟩
    · rw [if_neg hw]
      exact Or.inr ⟨hq, hw⟩
  · rintro (⟨q, hq, hw, rfl⟩ | ⟨hr, hw⟩)
    · exact ⟨q, hq, by rw [if_pos hw]⟩
    · exact ⟨r, hr, by rw [if_neg hw]⟩

theorem set_mem_update {q : α} (hq : q ∈ t) (hw : w q) : a.set q ∈ t.update w a :=
  mem_update.2 (Or.inl ⟨q, hq, hw, rfl⟩)

theorem mem_update_of_not {q : α} (hq : q ∈ t) (hw : ¬w q) : q ∈ t.update w a :=
  mem_update.2 (Or.inr ⟨hq, hw⟩)

/-- A row after an update has the key of one before. -/
theorem key_of_mem_update {r : α} (hr : r ∈ t.update w a) :
    ∃ q ∈ t, Keyed.key r = Keyed.key q := by
  cases mem_update.1 hr with
  | inl hset =>
    obtain ⟨q, hq, -, rfl⟩ := hset
    exact ⟨q, hq, a.key_set q⟩
  | inr hkept => exact ⟨r, hkept.1, rfl⟩

theorem exists_mem_update {q : α} (hq : q ∈ t) :
    ∃ r ∈ t.update w a, Keyed.key r = Keyed.key q := by
  by_cases hw : w q
  · exact ⟨a.set q, set_mem_update hq hw, a.key_set q⟩
  · exact ⟨q, mem_update_of_not hq hw, rfl⟩

/-- An update that matches only rows with certain keys leaves the rows with other keys. -/
theorem mem_update_iff_of_key {p : Keyed.Key α → Prop} (hw : ∀ q ∈ t, w q → p (Keyed.key q))
    {r : α} (hr : ¬p (Keyed.key r)) : r ∈ t.update w a ↔ r ∈ t := by
  constructor
  · intro hmem
    cases mem_update.1 hmem with
    | inl hset =>
      obtain ⟨q, hq, hmatch, rfl⟩ := hset
      rw [a.key_set] at hr
      exact absurd (hw q hq hmatch) hr
    | inr hkept => exact hkept.1
  · exact fun hmem ↦ mem_update_of_not hmem fun hmatch ↦ hr (hw r hmem hmatch)

/-- An update keeps the keys of the rows and their order. -/
theorem map_key_update (t : Table α) (w : α → Prop) [DecidablePred w] (a : Assignment α) :
    (t.update w a).rows.map Keyed.key = t.rows.map Keyed.key := by
  rw [update, List.map_map]
  apply List.map_congr_left
  intro r _
  by_cases hw : w r
  · simp only [Function.comp_apply, hw, if_true, a.key_set]
  · simp only [Function.comp_apply, hw, if_false]

/-- An update that matches no row is no change. -/
theorem update_eq_self (h : ∀ r ∈ t, ¬w r) : t.update w a = t := by
  rcases t with ⟨rows, distinct⟩
  have hmap : (rows.map fun r ↦ if w r then a.set r else r) = rows := by
    refine (List.map_congr_left fun r hr ↦ ?_).trans (List.map_id rows)
    rw [if_neg (h r hr), id_eq]
  simp only [update, Table.mk.injEq]
  exact hmap

theorem mem_select {r : α} : r ∈ t.select w ↔ r ∈ t ∧ w r := by
  simp only [select, List.mem_filter, decide_eq_true_eq, mem_iff]

theorem mem_of_find?_eq_some {r : α} (h : t.find? w = some r) : r ∈ t :=
  List.mem_of_find?_eq_some h

theorem of_find?_eq_some {r : α} (h : t.find? w = some r) : w r := by
  simpa only [decide_eq_true_eq] using List.find?_some h

theorem find?_eq_none : t.find? w = none ↔ ∀ r ∈ t, ¬w r := by
  simp only [find?, List.find?_eq_none, decide_eq_true_eq, mem_iff]

/-- A condition that identifies its row finds exactly that row. -/
theorem find?_eq_some_iff (hunique : ∀ q r, w q → w r → Keyed.Clashes q r) {r : α} :
    t.find? w = some r ↔ r ∈ t ∧ w r := by
  constructor
  · exact fun h ↦ ⟨mem_of_find?_eq_some h, of_find?_eq_some h⟩
  · rintro ⟨hr, hw⟩
    rcases hfind : t.find? w with _ | q
    · exact absurd hw (find?_eq_none.1 hfind r hr)
    · have hq : q ∈ t := mem_of_find?_eq_some hfind
      rw [eq_of_clashes hq hr (hunique q r (of_find?_eq_some hfind) hw)]

end Statements

section Insertion

variable {t t' : Table α} {a : α}

theorem insert?_eq_some_iff :
    t.insert? a = some t' ↔ (∀ b ∈ t, ¬Keyed.Clashes b a) ∧ t'.rows = t.rows ++ [a] := by
  rcases t' with ⟨rows', distinct'⟩
  unfold insert?
  constructor
  · intro h
    split at h
    · exact absurd h (by simp)
    · rename_i hclash
      simp only [Option.some.injEq, Table.mk.injEq] at h
      exact ⟨fun b hb hba ↦ hclash ⟨b, hb, hba⟩, h.symm⟩
  · rintro ⟨hfree, hrows⟩
    have hclash : ¬∃ b ∈ t.rows, Keyed.Clashes b a := fun ⟨b, hb, hba⟩ ↦ hfree b hb hba
    rw [dif_neg hclash]
    simp only [Option.some.injEq, Table.mk.injEq]
    exact hrows.symm

theorem insert?_eq_none_iff : t.insert? a = none ↔ ∃ b ∈ t, Keyed.Clashes b a := by
  unfold insert?
  split
  · rename_i h
    simp only [true_iff]
    exact h
  · rename_i h
    simp only [reduceCtorEq, false_iff]
    exact h

theorem mem_of_insert? (h : t.insert? a = some t') {r : α} : r ∈ t' ↔ r ∈ t ∨ r = a := by
  simp only [mem_iff, (insert?_eq_some_iff.1 h).2, List.mem_append, List.mem_singleton]

theorem find?_of_insert? {w : α → Prop} [DecidablePred w] (h : t.insert? a = some t') :
    t'.find? w = (t.find? w).or (if w a then some a else none) := by
  unfold find?
  rw [(insert?_eq_some_iff.1 h).2, List.find?_append]
  by_cases hw : w a
  · simp [hw]
  · simp [hw]

theorem select_of_insert? {w : α → Prop} [DecidablePred w] (h : t.insert? a = some t') :
    t'.select w = t.select w ++ if w a then [a] else [] := by
  unfold select
  rw [(insert?_eq_some_iff.1 h).2, List.filter_append]
  by_cases hw : w a
  · simp [hw]
  · simp [hw]

end Insertion

/-! ## Counting rows -/

section Counting

variable {t : Table α} {w : α → Prop} [DecidablePred w] {a : Assignment α} {p : α → Bool}

theorem countP_map_le (hset : ∀ r, w r → p (a.set r) = false) (l : List α) :
    (l.map fun r ↦ if w r then a.set r else r).countP p ≤ l.countP p := by
  rw [List.countP_map]
  refine List.countP_mono_left fun r _ hr ↦ ?_
  by_cases hw : w r
  · simp [hw, hset r hw] at hr
  · simpa [hw] using hr

/-- A selection is no longer than one that has a row with the key of each of its rows. -/
theorem length_select_le {t' : Table α} {w' : α → Prop} [DecidablePred w']
    (h : ∀ r' ∈ t', w' r' → ∃ r ∈ t, w r ∧ Keyed.key r = Keyed.key r') :
    (t'.select w').length ≤ (t.select w).length := by
  have hnodup : ((t'.select w').map Keyed.key).Nodup := by
    apply List.pairwise_map.2
    apply (t'.distinct.sublist List.filter_sublist).imp
    exact fun hclash hkey ↦ hclash (Keyed.clashes_of_key_eq hkey)
  have hsubset : (t'.select w').map Keyed.key ⊆ (t.select w).map Keyed.key := by
    intro k hk
    obtain ⟨r', hr', rfl⟩ := List.mem_map.1 hk
    obtain ⟨hmem, hw'⟩ := mem_select.1 hr'
    obtain ⟨r, hr, hw, hkey⟩ := h r' hmem hw'
    rw [← hkey]
    exact List.mem_map_of_mem (mem_select.2 ⟨hr, hw⟩)
  calc (t'.select w').length = ((t'.select w').map Keyed.key).length := (List.length_map _).symm
    _ ≤ ((t.select w).map Keyed.key).length := (hnodup.subperm hsubset).length_le
    _ = (t.select w).length := List.length_map _

/-- An update to rows that are not counted leaves no more rows to count. -/
theorem countP_update_le (hset : ∀ r, w r → p (a.set r) = false) :
    (t.update w a).rows.countP p ≤ t.rows.countP p :=
  countP_map_le hset t.rows

/-- It leaves fewer of them when one of the updated rows was counted. -/
theorem countP_update_lt (hset : ∀ r, w r → p (a.set r) = false) {r : α} (hr : r ∈ t)
    (hw : w r) (hp : p r = true) : (t.update w a).rows.countP p < t.rows.countP p := by
  obtain ⟨before, after, hrows⟩ := List.append_of_mem hr
  have hbefore := countP_map_le hset before
  have hafter := countP_map_le hset after
  simp only [update, hrows, List.map_append, List.map_cons, List.countP_append,
    List.countP_cons, hw, if_true, hset r hw, hp, Bool.false_eq_true, if_false]
  omega

end Counting

/-! ## Evolution of a table -/

/-- Every row of `t` has a successor in `t'`, and every row of `t'` is a successor or new. -/
structure Evolves (R : α → α → Prop) (N : α → Prop) (t t' : Table α) : Prop where
  forward : ∀ r ∈ t, ∃ r' ∈ t', R r r'
  backward : ∀ r' ∈ t', (∃ r ∈ t, R r r') ∨ N r'

namespace Evolves

variable {R S : α → α → Prop} {N M : α → Prop} {t t' t'' : Table α}

theorem refl (hR : ∀ r, R r r) (t : Table α) : Evolves R N t t where
  forward r hr := ⟨r, hr, hR r⟩
  backward r hr := Or.inl ⟨r, hr, hR r⟩

theorem trans (hR : ∀ {a b c}, R a b → R b c → R a c) (hN : ∀ {a b}, N a → R a b → N b)
    (h : Evolves R N t t') (h' : Evolves R N t' t'') : Evolves R N t t'' where
  forward r hr := by
    obtain ⟨r', hr', hrr'⟩ := h.forward r hr
    obtain ⟨r'', hr'', hrr''⟩ := h'.forward r' hr'
    exact ⟨r'', hr'', hR hrr' hrr''⟩
  backward r'' hr'' := by
    rcases h'.backward r'' hr'' with ⟨r', hr', hrr''⟩ | hnew
    · rcases h.backward r' hr' with ⟨r, hr, hrr'⟩ | hnew
      · exact Or.inl ⟨r, hr, hR hrr' hrr''⟩
      · exact Or.inr (hN hnew hrr'')
    · exact Or.inr hnew

theorem mono (hRS : ∀ a b, R a b → S a b) (hNM : ∀ a, N a → M a) (h : Evolves R N t t') :
    Evolves S M t t' where
  forward r hr := by
    obtain ⟨r', hr', hrr'⟩ := h.forward r hr
    exact ⟨r', hr', hRS _ _ hrr'⟩
  backward r' hr' := (h.backward r' hr').imp
    (fun ⟨r, hr, hrr'⟩ ↦ ⟨r, hr, hRS _ _ hrr'⟩) (hNM r')

/-- An update evolves a table when its assignment does so on the rows it matches. -/
theorem update {w : α → Prop} [DecidablePred w] {a : Assignment α} (hR : ∀ r, R r r)
    (hset : ∀ r ∈ t, w r → R r (a.set r)) : Evolves R N t (t.update w a) where
  forward r hr := by
    by_cases hw : w r
    · exact ⟨a.set r, set_mem_update hr hw, hset r hr hw⟩
    · exact ⟨r, mem_update_of_not hr hw, hR r⟩
  backward r' hr' := by
    rcases mem_update.1 hr' with ⟨r, hr, hw, rfl⟩ | ⟨hr, -⟩
    · exact Or.inl ⟨r, hr, hset r hr hw⟩
    · exact Or.inl ⟨r', hr, hR r'⟩

theorem insert {a : α} (hR : ∀ r, R r r) (hnew : N a) (h : t.insert? a = some t') :
    Evolves R N t t' where
  forward r hr := ⟨r, (mem_of_insert? h).2 (Or.inl hr), hR r⟩
  backward r' hr' := by
    rcases (mem_of_insert? h).1 hr' with hr | rfl
    · exact Or.inl ⟨r', hr, hR r'⟩
    · exact Or.inr hnew

/-- A property that the row relation preserves and every new row has is an invariant. -/
theorem forall_mem {P : α → Prop} (h : Evolves R N t t') (hP : ∀ r ∈ t, P r)
    (hR : ∀ r r', R r r' → P r → P r') (hN : ∀ r, N r → P r) : ∀ r ∈ t', P r := by
  intro r' hr'
  rcases h.backward r' hr' with ⟨r, hr, hrr'⟩ | hnew
  · exact hR r r' hrr' (hP r hr)
  · exact hN r' hnew

end Evolves

end Table

end LlmGateway.Relational
