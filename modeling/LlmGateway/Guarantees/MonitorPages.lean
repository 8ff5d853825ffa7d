import LlmGateway.Monitor.Stream
import LlmGateway.Relational.Walk

/-!
# Reading all monitor records page by page

A client of the monitor follows `next_cursor` until `has_more` is false. While no record changes,
it gets each record that its filter lets through once, the newest first or the oldest first, and
the two directions are the reverse of each other. From any cursor, it gets the records that lie
beyond it.
-/

namespace LlmGateway

open Relational

variable {ι δ : Type*} [LinearOrder ι]

/-- Follow `next_cursor` until `has_more` is false, in `n` requests at most. -/
def followPages (limit : ℕ) (filter : MonitorFilter) (direction : MonitorDirection)
    (rows : List (MonitorRecord ι δ)) :
    ℕ → Option (MonitorCursor ι) → Except Failure (List (MonitorPage ι δ))
  | 0, _ => .error .runtimeError
  | n + 1, cursor => do
    let page ← listRecords limit cursor filter direction rows
    if page.hasMore then
      let pages ← followPages limit filter direction rows n page.nextCursor
      return page :: pages
    else
      return [page]

/-- The record lies beyond the cursor in the direction of the reader. -/
def MonitorDirection.Beyond (direction : MonitorDirection) (cursor : Option (MonitorCursor ι))
    (r : MonitorRecord ι δ) : Prop :=
  match direction with
  | .newer => ∀ c ∈ cursor, c < r.cursor
  | .older => ∀ c ∈ cursor, r.cursor < c

instance (direction : MonitorDirection) (cursor : Option (MonitorCursor ι)) :
    DecidablePred fun r : MonitorRecord ι δ ↦ direction.Beyond cursor r := fun _ ↦
  match direction with
  | .newer => inferInstanceAs (Decidable (∀ _ ∈ _, _))
  | .older => inferInstanceAs (Decidable (∀ _ ∈ _, _))

/-- The record comes first in the direction of the reader. -/
def MonitorDirection.Before (direction : MonitorDirection) (q r : MonitorRecord ι δ) : Prop :=
  match direction with
  | .newer => q.cursor < r.cursor
  | .older => r.cursor < q.cursor

variable {rows : List (MonitorRecord ι δ)} {filter : MonitorFilter} {limit n : ℕ}
  {direction : MonitorDirection} {cursor : Option (MonitorCursor ι)}

theorem MonitorDirection.Before.asymm {q r : MonitorRecord ι δ} (h : direction.Before q r) :
    ¬direction.Before r q := by
  cases direction <;> exact lt_asymm h

theorem MonitorDirection.beyond_some (direction : MonitorDirection) {q r : MonitorRecord ι δ} :
    direction.Beyond (some r.cursor) q ↔ direction.Before r q := by
  cases direction <;> simp only [Beyond, Before, Option.mem_def, Option.some.injEq, forall_eq']

theorem MonitorDirection.Beyond.of_before {q r : MonitorRecord ι δ}
    (h : direction.Beyond cursor r) (hbefore : direction.Before r q) :
    direction.Beyond cursor q := by
  cases direction with
  | newer => exact fun c hc ↦ (h c hc).trans hbefore
  | older => exact fun c hc ↦ lt_trans hbefore (h c hc)

/-- Two lists in the order of a reader with the same records are equal. -/
theorem eq_of_before {l m : List (MonitorRecord ι δ)} (hl : l.Pairwise direction.Before)
    (hm : m.Pairwise direction.Before) (hmem : ∀ r, r ∈ l ↔ r ∈ m) : l = m := by
  cases direction with
  | newer => exact eq_of_strict MonitorRecord.cursor hl hm hmem
  | older => exact eq_of_strict (fun r ↦ OrderDual.toDual r.cursor) hl hm hmem

theorem mem_baseRecords {r : MonitorRecord ι δ} :
    r ∈ baseRecords cursor filter direction rows ↔
      (r ∈ rows ∧ r.Shown rows ∧ r.Meets filter) ∧ direction.Beyond cursor r := by
  cases direction with
  | newer =>
    have hbeyond : ¬Passed MonitorRecord.cursor cursor r ↔ ∀ c ∈ cursor, c < r.cursor := by
      simp only [Passed, not_exists, not_and, not_le]
    simp only [baseRecords, mem_ahead, List.mem_filter, decide_eq_true_eq, hbeyond,
      MonitorDirection.Beyond]
  | older =>
    simp only [baseRecords, List.mem_insertionSort, List.mem_filter, decide_eq_true_eq,
      MonitorDirection.Beyond]

/-- The first page of a list of records. -/
def firstPage (limit : ℕ) (cursor : Option (MonitorCursor ι))
    (records : List (MonitorRecord ι δ)) : MonitorPage ι δ where
  records := records.take limit
  nextCursor := nextCursor MonitorRecord.cursor cursor (records.take limit)
  hasMore := limit < records.length
  recordCursors := (records.take limit).map MonitorRecord.cursor

theorem listRecords_eq (hlimit : 1 ≤ limit ∧ limit ≤ 200) :
    listRecords limit cursor filter direction rows =
      .ok (firstPage limit cursor (baseRecords cursor filter direction rows)) := by
  have hfetched (records : List (MonitorRecord ι δ)) :
      (records.take (limit + 1)).take limit = records.take limit := by
    rw [List.take_take, Nat.min_eq_left (Nat.le_succ limit)]
  have hmore (records : List (MonitorRecord ι δ)) :
      limit < (records.take (limit + 1)).length ↔ limit < records.length := by
    rw [List.length_take]
    omega
  rw [listRecords, if_neg (not_not.2 hlimit)]
  simp only [hfetched, hmore, firstPage]

/-! ## One request after the other -/

section Requests

variable {κ : Type*} {embed : MonitorCursor ι → κ} {selected : List (MonitorRecord ι δ)}

omit [LinearOrder ι] in
theorem map_nextCursor (embed : MonitorCursor ι → κ) (page : List (MonitorRecord ι δ)) :
    (nextCursor MonitorRecord.cursor cursor page).map embed =
      nextCursor (fun r ↦ embed r.cursor) (cursor.map embed) page := by
  cases hlast : page.getLast? with
  | none => simp only [nextCursor, hlast, Option.map_none, Option.none_or]
  | some r => simp only [nextCursor, hlast, Option.map_some, Option.some_or]

variable [LinearOrder κ]

/-- The requests read the pages of a walk, for a key by which the direction orders the records. -/
theorem followPages_walk (hlimit : 1 ≤ limit ∧ limit ≤ 200)
    (hbase : ∀ cursor, baseRecords cursor filter direction rows =
      ahead (fun r ↦ embed r.cursor) (cursor.map embed) selected)
    (hkeys : (selected.map fun r ↦ embed r.cursor).Nodup)
    (hn : (baseRecords cursor filter direction rows).length < n) :
    ∃ pages, followPages limit filter direction rows n cursor = .ok pages ∧
      pages.map MonitorPage.records =
        walk (fun r ↦ embed r.cursor) limit selected n (cursor.map embed) := by
  induction n generalizing cursor with
  | zero => omega
  | succ n ih =>
    let page := firstPage limit cursor (baseRecords cursor filter direction rows)
    have hstep : followPages limit filter direction rows (n + 1) cursor =
        if limit < (baseRecords cursor filter direction rows).length then
          (followPages limit filter direction rows n page.nextCursor).map (page :: ·)
        else .ok [page] := by
      rw [followPages, listRecords_eq hlimit]
      simp only [bind, Except.bind, firstPage, decide_eq_true_eq, page]
      rfl
    rw [hstep, walk, ← hbase]
    by_cases hrest : limit < (baseRecords cursor filter direction rows).length
    · have hshorter : baseRecords page.nextCursor filter direction rows =
          (baseRecords cursor filter direction rows).drop limit := by
        calc
          _ = ahead (fun r ↦ embed r.cursor) (page.nextCursor.map embed) selected := hbase _
          _ = _ := congrArg (ahead _ · selected) (map_nextCursor embed _)
          _ = (ahead (fun r ↦ embed r.cursor) (cursor.map embed) selected).drop limit := by
            rw [hbase, ahead_nextCursor hkeys]
          _ = _ := by rw [← hbase]
      have hfewer : (baseRecords page.nextCursor filter direction rows).length < n := by
        rw [hshorter, List.length_drop]
        omega
      obtain ⟨pages, hpages, hrecords⟩ := ih hfewer
      refine ⟨page :: pages, ?_, ?_⟩
      · rw [if_pos hrest, hpages]
        rfl
      · rw [if_pos hrest, ← map_nextCursor, List.map_cons, hrecords]
        rfl
    · refine ⟨[page], if_neg hrest, ?_⟩
      rw [if_neg hrest]
      rfl

theorem flatMap_of_walk (hlimit : 1 ≤ limit ∧ limit ≤ 200)
    (hbase : ∀ cursor, baseRecords cursor filter direction rows =
      ahead (fun r ↦ embed r.cursor) (cursor.map embed) selected)
    (hkeys : (selected.map fun r ↦ embed r.cursor).Nodup)
    (hn : (baseRecords cursor filter direction rows).length < n) :
    ∃ pages, followPages limit filter direction rows n cursor = .ok pages ∧
      pages.flatMap MonitorPage.records = baseRecords cursor filter direction rows ∧
      pages.length ≤ (baseRecords cursor filter direction rows).length / limit + 1 := by
  obtain ⟨pages, hpages, hrecords⟩ := followPages_walk hlimit hbase hkeys hn
  rw [hbase] at hn ⊢
  refine ⟨pages, hpages, ?_, ?_⟩
  · rw [List.flatMap_def, hrecords, flatten_walk hkeys hlimit.1 hn]
  · rw [← List.length_map MonitorPage.records, hrecords]
    exact length_walk_le hkeys hlimit.1

end Requests

/-! ## The two directions -/

omit [LinearOrder ι] in
theorem nodup_selected (hids : (rows.map MonitorRecord.recordId).Nodup) {κ : Type*}
    {embed : MonitorCursor ι → κ} (hinj : embed.Injective) :
    ((rows.filter fun r ↦ r.Shown rows ∧ r.Meets filter).map fun r ↦ embed r.cursor).Nodup := by
  refine (List.filter_sublist.map _).nodup ?_
  rw [List.Nodup, List.pairwise_map] at hids ⊢
  exact hids.imp fun hne heq ↦ hne (congrArg (fun c ↦ (ofLex c).2) (hinj heq))

theorem baseRecords_newer_eq :
    baseRecords cursor filter .newer rows =
      ahead (fun r ↦ id r.cursor) (cursor.map id)
        (rows.filter fun r ↦ r.Shown rows ∧ r.Meets filter) := by
  rw [Option.map_id]
  rfl

theorem baseRecords_older_eq :
    baseRecords cursor filter .older rows =
      ahead (fun r ↦ OrderDual.toDual r.cursor) (cursor.map OrderDual.toDual)
        (rows.filter fun r ↦ r.Shown rows ∧ r.Meets filter) := by
  have hpassed (r : MonitorRecord ι δ) :
      (∀ c ∈ cursor, r.cursor < c) ↔
        ¬Passed (fun r ↦ OrderDual.toDual r.cursor) (cursor.map OrderDual.toDual) r := by
    cases cursor <;> simp [Passed]
  simp only [baseRecords, ahead, hpassed, OrderDual.toDual_le_toDual]

theorem flatMap_followPages (hids : (rows.map MonitorRecord.recordId).Nodup)
    (hlimit : 1 ≤ limit ∧ limit ≤ 200)
    (hn : (baseRecords cursor filter direction rows).length < n) :
    ∃ pages, followPages limit filter direction rows n cursor = .ok pages ∧
      pages.flatMap MonitorPage.records = baseRecords cursor filter direction rows ∧
      pages.length ≤ (baseRecords cursor filter direction rows).length / limit + 1 := by
  cases direction with
  | newer =>
    exact flatMap_of_walk hlimit (fun _ ↦ baseRecords_newer_eq)
      (nodup_selected hids Function.injective_id) hn
  | older =>
    exact flatMap_of_walk hlimit (fun _ ↦ baseRecords_older_eq)
      (nodup_selected hids OrderDual.toDual.injective) hn

theorem baseRecords_strict (hids : (rows.map MonitorRecord.recordId).Nodup) :
    (baseRecords cursor filter direction rows).Pairwise direction.Before := by
  cases direction with
  | newer =>
    rw [baseRecords_newer_eq]
    exact ahead_strict (nodup_selected hids Function.injective_id)
  | older =>
    rw [baseRecords_older_eq]
    exact ahead_strict (nodup_selected hids OrderDual.toDual.injective)

theorem perm_baseRecords (hids : (rows.map MonitorRecord.recordId).Nodup) :
    (baseRecords cursor filter direction rows).Perm
      (rows.filter fun r ↦ (r.Shown rows ∧ r.Meets filter) ∧ direction.Beyond cursor r) := by
  have hnodup : (baseRecords cursor filter direction rows).Nodup := by
    refine (baseRecords_strict hids).imp fun {q r} hbefore heq ↦ ?_
    cases direction <;> exact hbefore.ne (by rw [heq])
  refine (List.perm_ext_iff_of_nodup hnodup (hids.of_map.filter _)).2 fun r ↦ ?_
  rw [mem_baseRecords, List.mem_filter, decide_eq_true_eq, and_assoc]

/-! ## Complete walks -/

/-- Whoever follows `next_cursor` from any cursor until `has_more` is false gets every matching
record beyond the cursor once and in order, after no more pages than these records need. -/
theorem followPages_complete (hids : (rows.map MonitorRecord.recordId).Nodup)
    (hlimit : 1 ≤ limit ∧ limit ≤ 200) (filter : MonitorFilter) (direction : MonitorDirection)
    (cursor : Option (MonitorCursor ι)) (hn : rows.length < n) :
    ∃ pages, followPages limit filter direction rows n cursor = .ok pages ∧
      (pages.flatMap MonitorPage.records).Perm
        (rows.filter fun r ↦ (r.Shown rows ∧ r.Meets filter) ∧ direction.Beyond cursor r) ∧
      (pages.flatMap MonitorPage.records).Pairwise direction.Before ∧
      pages.length ≤ (pages.flatMap MonitorPage.records).length / limit + 1 := by
  have hperm : (baseRecords cursor filter direction rows).Perm _ := perm_baseRecords hids
  have hfew := hperm.length_eq.trans_le (List.length_filter_le _ _)
  obtain ⟨pages, hpages, hrecords, hlength⟩ :=
    flatMap_followPages hids hlimit (hfew.trans_lt hn)
  exact ⟨pages, hpages, hrecords ▸ hperm, hrecords ▸ baseRecords_strict hids, hrecords ▸ hlength⟩

/-- Three decisions, two of which have changed at the same time. -/
def sampleRecords : List (MonitorRecord ℕ Unit) :=
  [⟨2, .decision, "decision", "outbound", none, 7, "g", none, none, ()⟩,
    ⟨1, .decision, "decision", "outbound", none, 7, "g", none, none, ()⟩,
    ⟨3, .decision, "decision", "outbound", none, 5, "g", none, none, ()⟩]

theorem followPages_complete_sample :
    ∃ pages, followPages 1 ⟨none, none, none⟩ .older sampleRecords 4 none = .ok pages ∧
      (pages.flatMap MonitorPage.records).Perm
        (sampleRecords.filter fun r ↦ (r.Shown sampleRecords ∧ r.Meets ⟨none, none, none⟩) ∧
          MonitorDirection.older.Beyond none r) ∧
      (pages.flatMap MonitorPage.records).Pairwise MonitorDirection.older.Before ∧
      pages.length ≤ (pages.flatMap MonitorPage.records).length / 1 + 1 :=
  followPages_complete (by decide) (by decide) _ _ _ (by decide)

/-- A reader who goes on behind a record that a walk has returned gets the rest of that walk, with
any other size of the pages. -/
theorem followPages_resume {limit' : ℕ} {pages : List (MonitorPage ι δ)}
    {front rest : List (MonitorRecord ι δ)} {r : MonitorRecord ι δ}
    (hids : (rows.map MonitorRecord.recordId).Nodup) (hlimit : 1 ≤ limit ∧ limit ≤ 200)
    (hlimit' : 1 ≤ limit' ∧ limit' ≤ 200) (hn : rows.length < n)
    (hpages : followPages limit filter direction rows n cursor = .ok pages)
    (hsplit : pages.flatMap MonitorPage.records = front ++ r :: rest) :
    ∃ pages', followPages limit' filter direction rows n (some r.cursor) = .ok pages' ∧
      pages'.flatMap MonitorPage.records = rest := by
  have hfew (cursor : Option (MonitorCursor ι)) :
      (baseRecords cursor filter direction rows).length < n :=
    ((perm_baseRecords hids).length_eq.trans_le (List.length_filter_le _ _)).trans_lt hn
  obtain ⟨pages₁, hpages₁, hrecords, -⟩ :=
    flatMap_followPages hids hlimit (hfew cursor)
  obtain rfl : pages₁ = pages := Except.ok.inj (hpages₁.symm.trans hpages)
  obtain ⟨pages₂, hpages₂, hrecords₂, -⟩ :=
    flatMap_followPages hids hlimit' (hfew (some r.cursor))
  refine ⟨pages₂, hpages₂, hrecords₂.trans ?_⟩
  have hordered : (baseRecords cursor filter direction rows).Pairwise _ := baseRecords_strict hids
  have hmem (q : MonitorRecord ι δ) :
      q ∈ front ++ r :: rest ↔ (q ∈ rows ∧ q.Shown rows ∧ q.Meets filter) ∧
        direction.Beyond cursor q := by
    rw [← hsplit, hrecords, mem_baseRecords]
  rw [← hrecords, hsplit] at hordered
  obtain ⟨-, hbehind, hcross⟩ := List.pairwise_append.1 hordered
  refine eq_of_before (baseRecords_strict hids) hbehind.of_cons fun q ↦ ?_
  rw [mem_baseRecords, direction.beyond_some]
  constructor
  · rintro ⟨hmatches, hafter⟩
    have hr := ((hmem r).1 (List.mem_append_right front List.mem_cons_self)).2
    cases List.mem_append.1 ((hmem q).2 ⟨hmatches, hr.of_before hafter⟩) with
    | inl hfront => exact absurd (hcross q hfront r List.mem_cons_self) hafter.asymm
    | inr hlast =>
      refine (List.mem_cons.1 hlast).resolve_left fun heq ↦ ?_
      rw [heq] at hafter
      exact hafter.asymm hafter
  · intro hrest
    have hq := (hmem q).1 (List.mem_append_right front (List.mem_cons_of_mem r hrest))
    exact ⟨hq.1, (List.pairwise_cons.1 hbehind).1 q hrest⟩

theorem followPages_resume_sample :
    ∃ pages, followPages 2 ⟨none, none, none⟩ .older sampleRecords 4
        (some (toLex (7, 2))) = .ok pages ∧
      (pages.flatMap MonitorPage.records).map MonitorRecord.recordId = [1, 3] := by
  obtain ⟨pages, hpages, hrecords⟩ :=
    @followPages_resume ℕ Unit _ sampleRecords ⟨none, none, none⟩ 1 4 .older none 2 _ [] _ _
      (by decide) (by decide) (by decide) (by decide) rfl rfl
  exact ⟨pages, hpages, congrArg (List.map MonitorRecord.recordId) hrecords⟩

/-- The walk to the older records is the walk to the newer ones backwards. -/
theorem followPages_reverse {limit' : ℕ} (hids : (rows.map MonitorRecord.recordId).Nodup)
    (hlimit : 1 ≤ limit ∧ limit ≤ 200) (hlimit' : 1 ≤ limit' ∧ limit' ≤ 200)
    (filter : MonitorFilter) (hn : rows.length < n) :
    ∃ newer older, followPages limit filter .newer rows n none = .ok newer ∧
      followPages limit' filter .older rows n none = .ok older ∧
      older.flatMap MonitorPage.records = (newer.flatMap MonitorPage.records).reverse := by
  obtain ⟨newer, hnewer, hperm, hordered, -⟩ :=
    followPages_complete hids hlimit filter .newer none hn
  obtain ⟨older, holder, hperm', hordered', -⟩ :=
    followPages_complete hids hlimit' filter .older none hn
  refine ⟨newer, older, hnewer, holder, ?_⟩
  refine eq_of_before hordered' ?_ fun r ↦ ?_
  · exact List.pairwise_reverse.2 hordered
  · rw [List.mem_reverse, hperm.mem_iff, hperm'.mem_iff]
    simp [MonitorDirection.Beyond]

theorem followPages_reverse_sample :
    ∃ newer older, followPages 1 ⟨none, none, none⟩ .newer sampleRecords 4 none = .ok newer ∧
      followPages 2 ⟨none, none, none⟩ .older sampleRecords 4 none = .ok older ∧
      older.flatMap MonitorPage.records = (newer.flatMap MonitorPage.records).reverse :=
  followPages_reverse (by decide) (by decide) (by decide) _ (by decide)

end LlmGateway
