import LlmGateway.Relational.Paging

/-!
# Following the cursors of pages

Each page is read behind the cursor of the page before, until one holds all the rows that were left.
Where each row has a key of its own, the pages of an unchanging table hold the rows ahead of the
first cursor, each once and in the order of the key.
-/

namespace LlmGateway.Relational

variable {α κ : Type*} [LinearOrder κ] (key : α → κ)

/-- The pages that follow each other from a cursor, at most `n` of them. -/
def walk (limit : ℕ) (rows : List α) : ℕ → Option κ → List (List α)
  | 0, _ => []
  | n + 1, cursor =>
    let page := (ahead key cursor rows).take limit
    page :: if limit < (ahead key cursor rows).length then
      walk limit rows n (nextCursor key cursor page) else []

variable {key} {limit n : ℕ} {cursor cursor' : Option κ} {rows : List α}

theorem perm_ahead : (ahead key cursor rows).Perm (rows.filter fun a ↦ ¬Passed key cursor a) :=
  List.perm_insertionSort _ _

theorem nodup_ahead (h : (rows.map key).Nodup) : (ahead key cursor rows).Nodup :=
  perm_ahead.nodup_iff.2 (h.of_map.filter _)

theorem ahead_strict (h : (rows.map key).Nodup) :
    (ahead key cursor rows).Pairwise fun a b ↦ key a < key b := by
  refine (ahead_pairwise.and (nodup_ahead h)).imp_of_mem fun {a b} ha hb hab ↦ ?_
  refine lt_of_le_of_ne hab.1 fun heq ↦ hab.2 ?_
  exact List.inj_on_of_nodup_map h (mem_ahead.1 ha).1 (mem_ahead.1 hb).1 heq

/-- Two lists in the strict order of the key with the same rows are equal. -/
theorem eq_of_strict (key : α → κ) {l m : List α} (hl : l.Pairwise fun a b ↦ key a < key b)
    (hm : m.Pairwise fun a b ↦ key a < key b) (hmem : ∀ a, a ∈ l ↔ a ∈ m) : l = m := by
  have hnodup {t : List α} (ht : t.Pairwise fun a b ↦ key a < key b) : t.Nodup :=
    ht.imp fun {a b} hlt ↦ ne_of_apply_ne key hlt.ne
  have hperm : l.Perm m := (List.perm_ext_iff_of_nodup (hnodup hl) (hnodup hm)).2 hmem
  have hanti (a b : α) (_ : a ∈ l) (_ : b ∈ m) (hab : key a < key b) (hba : key b < key a) :
      a = b :=
    absurd hba hab.asymm
  exact List.Perm.eq_of_pairwise hanti hl hm hperm

/-- Behind a page, the rows that the page has left are ahead. -/
theorem ahead_nextCursor (h : (rows.map key).Nodup) :
    ahead key (nextCursor key cursor ((ahead key cursor rows).take limit)) rows =
      (ahead key cursor rows).drop limit := by
  have hstrict : (ahead key cursor rows).Pairwise fun a b ↦ key a < key b := ahead_strict h
  cases hlast : ((ahead key cursor rows).take limit).getLast? with
  | none =>
    have hempty : (ahead key cursor rows).take limit = [] := List.getLast?_eq_none_iff.1 hlast
    rw [nextCursor, hlast, Option.map_none, Option.none_or]
    cases List.take_eq_nil_iff.1 hempty with
    | inl hzero => rw [hzero, List.drop_zero]
    | inr hnil => rw [hnil, List.drop_nil]
  | some b =>
    rw [nextCursor, hlast, Option.map_some, Option.some_or]
    have hb : b ∈ (ahead key cursor rows).take limit := List.mem_of_getLast? hlast
    have hsplit := hstrict
    rw [← List.take_append_drop limit (ahead key cursor rows), List.pairwise_append] at hsplit
    refine eq_of_strict key (ahead_strict h) hsplit.2.1 fun a ↦ ?_
    have hpassed : Passed key (some (key b)) a ↔ key a ≤ key b := by
      simp only [Passed, Option.mem_def, Option.some.injEq, exists_eq_left']
    rw [mem_ahead, hpassed, not_le]
    constructor
    · rintro ⟨ha, hlt⟩
      have hahead : ¬Passed key cursor a := by
        rintro ⟨c, hc, hle⟩
        exact (mem_ahead.1 (List.mem_of_mem_take hb)).2 ⟨c, hc, hlt.le.trans hle⟩
      have hmem : a ∈ ahead key cursor rows := mem_ahead.2 ⟨ha, hahead⟩
      rw [← List.take_append_drop limit (ahead key cursor rows)] at hmem
      cases List.mem_append.1 hmem with
      | inr hrest => exact hrest
      | inl hpage =>
        -- nothing of the page is behind its last row
        obtain ⟨front, hfront⟩ := List.getLast?_eq_some_iff.1 hlast
        rw [hfront] at hpage
        have hordered := hsplit.1
        rw [hfront, List.pairwise_append] at hordered
        cases List.mem_append.1 hpage with
        | inl hin => exact absurd (hordered.2.2 a hin b List.mem_cons_self) (not_lt.2 hlt.le)
        | inr heq => exact absurd hlt (by rw [List.mem_singleton.1 heq]; exact lt_irrefl _)
    · intro hrest
      exact ⟨(mem_ahead.1 (List.mem_of_mem_drop hrest)).1, hsplit.2.2 b hb a hrest⟩

/-- The pages hold the rows ahead of the cursor. -/
theorem flatten_walk (h : (rows.map key).Nodup) (hlimit : 0 < limit)
    (hn : (ahead key cursor rows).length < n) :
    (walk key limit rows n cursor).flatten = ahead key cursor rows := by
  induction n generalizing cursor with
  | zero => omega
  | succ n ih =>
    rw [walk, List.flatten_cons]
    by_cases hmore : limit < (ahead key cursor rows).length
    · have hrest : ahead key (nextCursor key cursor ((ahead key cursor rows).take limit)) rows =
          (ahead key cursor rows).drop limit := ahead_nextCursor h
      have hlength : (ahead key cursor rows).length - limit < n := by omega
      rw [if_pos hmore, ih (by rwa [hrest, List.length_drop]), hrest]
      exact List.take_append_drop _ _
    · rw [if_neg hmore, List.flatten_nil, List.append_nil]
      exact List.take_of_length_le (not_lt.1 hmore)

/-- There are no more pages than the rows need, and always one. -/
theorem length_walk_le (h : (rows.map key).Nodup) (hlimit : 0 < limit) :
    (walk key limit rows n cursor).length ≤ (ahead key cursor rows).length / limit + 1 := by
  induction n generalizing cursor with
  | zero => exact Nat.zero_le _
  | succ n ih =>
    rw [walk, List.length_cons]
    by_cases hmore : limit < (ahead key cursor rows).length
    · have hdiv := Nat.div_eq_sub_div hlimit hmore.le
      rw [if_pos hmore, hdiv]
      apply Nat.succ_le_succ
      calc
        _ ≤ (ahead key (nextCursor key cursor ((ahead key cursor rows).take limit)) rows).length /
            limit + 1 := ih
        _ = _ := by rw [ahead_nextCursor h, List.length_drop]
    · rw [if_neg hmore, List.length_nil]
      exact Nat.le_add_left 1 _

end LlmGateway.Relational
