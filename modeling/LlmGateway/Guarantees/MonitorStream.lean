import LlmGateway.Monitor.Stream
import LlmGateway.Relational.Transition

/-!
# What a follower of the monitor stream sees

A row is stamped before its transaction commits. If the cursor has passed the stamp by then, no
later page shows the row. In runs in which each transaction commits its rows ahead of the cursor,
the stream has sent the last version of every event, decision and skill call whenever it is idle.
-/

namespace LlmGateway

open Relational

variable {ι δ : Type*} [LinearOrder ι]

/-- The transaction that the action commits. -/
def MonitorAction.committed? : MonitorAction ι δ → Option ℕ
  | .commit number => some number
  | _ => none

namespace MonitorWorld

variable {s : MonitorWorld ι δ} {a : MonitorAction ι δ} {r : MonitorRecord ι δ}

/-- The records of the next poll. -/
def nextRecords (s : MonitorWorld ι δ) : List (MonitorRecord ι δ) :=
  ((listRecords 200 s.cursor ⟨none, none, none⟩ .newer s.stored).toOption.map
    MonitorPage.records).getD []

/-- No transaction is open, and a poll returns no record. -/
def Idle (s : MonitorWorld ι δ) : Prop :=
  s.transactions.isEmpty = true ∧ s.nextRecords.isEmpty = true

instance : Decidable s.Idle := inferInstanceAs (Decidable (_ ∧ _))

/-- The stream has sent the stored versions of all events, decisions and skill calls. -/
def Complete (s : MonitorWorld ι δ) : Prop :=
  ∀ r ∈ s.stored, r.source ≠ .audit → r ∈ s.delivered

instance [DecidableEq δ] : Decidable s.Complete :=
  inferInstanceAs (Decidable (∀ _ ∈ _, _ → _))

/-- A transaction commits an event, a decision or a skill call that the cursor has passed. -/
def CommitsLate (s : MonitorWorld ι δ) (a : MonitorAction ι δ) : Prop :=
  ∃ number ∈ a.committed?, ∃ t ∈ s.transactions, t.number = number ∧
    ∃ r ∈ t.writes, r.source ≠ .audit ∧ Passed MonitorRecord.cursor s.cursor r

instance : Decidable (s.CommitsLate a) :=
  inferInstanceAs (Decidable (∃ _ ∈ _, ∃ _ ∈ _, _ ∧ ∃ _ ∈ _, _ ∧ _))

/-- Every stored row has an id of its own, and what the cursor has passed was sent, audit records
apart. -/
structure Followed (s : MonitorWorld ι δ) : Prop where
  distinct : s.stored.Pairwise fun q r ↦ q.recordId ≠ r.recordId
  sent : ∀ r ∈ s.stored, r.source ≠ .audit → Passed MonitorRecord.cursor s.cursor r →
    r ∈ s.delivered

/-! ## Writing rows -/

theorem mem_putRecord {rows : List (MonitorRecord ι δ)} {q : MonitorRecord ι δ} :
    q ∈ putRecord rows r ↔ (q ∈ rows ∧ q.recordId ≠ r.recordId) ∨ q = r := by
  simp only [putRecord, List.mem_append, List.mem_filter, decide_eq_true_eq, List.mem_singleton]

theorem putRecord_pairwise {rows : List (MonitorRecord ι δ)}
    (h : rows.Pairwise fun q r ↦ q.recordId ≠ r.recordId) :
    (putRecord rows r).Pairwise fun q r ↦ q.recordId ≠ r.recordId := by
  refine List.pairwise_append.2 ⟨h.filter _, List.pairwise_singleton _ _, fun q hq p hp ↦ ?_⟩
  rw [List.mem_singleton.1 hp]
  exact of_decide_eq_true (List.mem_filter.1 hq).2

theorem mem_of_mem_putRecords {rows writes : List (MonitorRecord ι δ)}
    (h : r ∈ writes.foldl putRecord rows) : r ∈ rows ∨ r ∈ writes := by
  induction writes generalizing rows with
  | nil => exact Or.inl h
  | cons w writes ih =>
    rcases ih h with hput | hmem
    · rcases mem_putRecord.1 hput with hbefore | rfl
      · exact Or.inl hbefore.1
      · exact Or.inr List.mem_cons_self
    · exact Or.inr (List.mem_cons_of_mem w hmem)

/-! ## The page -/

theorem baseRecords_newer {rows : List (MonitorRecord ι δ)} {cursor : Option (MonitorCursor ι)} :
    baseRecords cursor ⟨none, none, none⟩ .newer rows =
      ahead MonitorRecord.cursor cursor (rows.filter fun r ↦ r.Shown rows) := by
  have hmeets (r : MonitorRecord ι δ) : r.Meets ⟨none, none, none⟩ :=
    ⟨fun _ h ↦ absurd h (Option.not_mem_none _), fun _ h ↦ absurd h (Option.not_mem_none _),
      fun _ h ↦ absurd h (Option.not_mem_none _)⟩
  simp only [baseRecords, hmeets, and_true]

omit [LinearOrder ι] in
theorem shown_of_source {rows : List (MonitorRecord ι δ)} (h : r.source ≠ .audit) : r.Shown rows :=
  fun haudit ↦ absurd haudit h

theorem poll_eq (s : MonitorWorld ι δ) :
    s.poll = { s with
      cursor := nextCursor MonitorRecord.cursor s.cursor s.nextRecords
      delivered := s.delivered ++ s.nextRecords } := rfl

theorem nextRecords_eq (s : MonitorWorld ι δ) : s.nextRecords =
    (ahead MonitorRecord.cursor s.cursor (s.stored.filter fun r ↦ r.Shown s.stored)).take 200 := by
  have hpage : s.nextRecords =
      ((baseRecords s.cursor ⟨none, none, none⟩ .newer s.stored).take 201).take 200 := rfl
  rw [hpage, List.take_take, baseRecords_newer]
  rfl

/-- Rows with the same cursor are the same row. -/
theorem Followed.eq_of_cursor (h : s.Followed) {q : MonitorRecord ι δ} (hq : q ∈ s.stored)
    (hr : r ∈ s.stored) (heq : q.cursor = r.cursor) : q = r := by
  have : Std.Symm fun q r : MonitorRecord ι δ ↦ q.recordId ≠ r.recordId :=
    ⟨fun _ _ hne ↦ hne.symm⟩
  by_contra hne
  exact h.distinct.forall hq hr hne (congrArg (fun c : MonitorCursor ι ↦ (ofLex c).2) heq)

/-- A poll sends what its cursor comes to pass. -/
theorem poll_followed (h : s.Followed) : s.poll.Followed := by
  rw [poll_eq]
  refine ⟨h.distinct, fun r hr hsource hpassed ↦ ?_⟩
  by_cases hbefore : Passed MonitorRecord.cursor s.cursor r
  · exact List.mem_append_left _ (h.sent r hr hsource hbefore)
  · apply List.mem_append_right
    rw [nextRecords_eq] at hpassed ⊢
    refine mem_page (fun q hq p hp ↦ ?_) ?_ hbefore hpassed
    · exact h.eq_of_cursor (List.mem_of_mem_filter hq) (List.mem_of_mem_filter hp)
    · exact List.mem_filter.2 ⟨hr, decide_eq_true (shown_of_source hsource)⟩

theorem commit_followed (h : s.Followed) {number : ℕ} (hlate : ¬s.CommitsLate (.commit number)) :
    (s.commit number).Followed where
  distinct := by
    have hput (rows writes : List (MonitorRecord ι δ))
        (hrows : rows.Pairwise fun q r ↦ q.recordId ≠ r.recordId) :
        (writes.foldl putRecord rows).Pairwise fun q r ↦ q.recordId ≠ r.recordId :=
      List.foldlRecOn _ _ hrows fun _ hpairwise _ _ ↦ putRecord_pairwise hpairwise
    exact hput _ _ h.distinct
  sent r hr hsource hpassed := by
    cases mem_of_mem_putRecords hr with
    | inl hstored => exact h.sent r hstored hsource hpassed
    | inr hwritten =>
      obtain ⟨t, ht, hmem⟩ := List.mem_flatMap.1 hwritten
      obtain ⟨hopen, hnumber⟩ := List.mem_filter.1 ht
      exact absurd ⟨number, rfl, t, hopen, of_decide_eq_true hnumber, r, hmem, hsource, hpassed⟩ hlate

theorem exec_followed (h : s.Followed) (hlate : ¬s.CommitsLate a) : (s.exec a).Followed := by
  cases a with
  | tick elapsed => exact ⟨h.distinct, h.sent⟩
  | begin number =>
    simp only [exec]
    split_ifs <;> exact ⟨h.distinct, h.sent⟩
  | write number r =>
    simp only [exec, write]
    split_ifs <;> exact ⟨h.distinct, h.sent⟩
  | commit number => exact commit_followed h hlate
  | rollback number => exact ⟨h.distinct, h.sent⟩
  | poll => exact poll_followed h

/-- When nothing is ahead of the cursor, everything was sent. -/
theorem Followed.complete (h : s.Followed) (hidle : s.Idle) : s.Complete := by
  intro r hr hsource
  refine h.sent r hr hsource (by_contra fun hahead ↦ ?_)
  have hmem : r ∈ ahead MonitorRecord.cursor s.cursor
      (s.stored.filter fun r ↦ r.Shown s.stored) :=
    mem_ahead.2 ⟨List.mem_filter.2 ⟨hr, decide_eq_true (shown_of_source hsource)⟩, hahead⟩
  have hnone := List.isEmpty_iff.1 hidle.2
  rw [nextRecords_eq, List.take_eq_nil_iff] at hnone
  rw [hnone.resolve_left (by decide)] at hmem
  exact absurd hmem List.not_mem_nil

/-- In a run in which no transaction commits a row that the cursor has passed, the stream has sent
the last version of every event, decision and skill call in each state in which no transaction is
open and a poll returns no record. -/
theorem complete_of_idle {actions : List (MonitorAction ι δ)}
    (h : Guarded exec (fun s a ↦ ¬s.CommitsLate a) start actions)
    {taken : List (MonitorAction ι δ)} (htaken : taken <+: actions)
    (hidle : (run exec start taken).Idle) : (run exec start taken).Complete := by
  obtain ⟨later, rfl⟩ := htaken
  have hstart : (start : MonitorWorld ι δ).Followed :=
    ⟨List.Pairwise.nil, fun r hr ↦ absurd hr List.not_mem_nil⟩
  exact (invariant_guarded (fun _ _ ↦ exec_followed) hstart (guarded_append.1 h).1).complete hidle

section Example

/-- The row of an event, with a number for its id. -/
def eventRow (recordId : ℕ) (status : String) : MonitorRecord ℕ Unit :=
  ⟨recordId, .event, "event", "inbound", some status, 0, "g", some "s", none, ()⟩

/-- Two events are stored, and the second is completed while a page is read. -/
def twoEvents : List (MonitorAction ℕ Unit) :=
  [.begin 1, .write 1 (eventRow 1 "pending"), .write 1 (eventRow 2 "pending"),
    .commit 1, .tick 1, .begin 2, .write 2 (eventRow 2 "succeeded"), .poll, .commit 2, .poll]

theorem complete_of_idle_twoEvents :
    (run exec start twoEvents).Complete ∧ (run exec start twoEvents).delivered.map
      (fun r ↦ (r.recordId, r.status, r.occurredAt)) =
        [(1, some "pending", 0), (2, some "pending", 0),
          (2, some "succeeded", 1)] :=
  ⟨complete_of_idle (by decide) (List.prefix_refl _) (by decide), by decide⟩

/-- A page is read between the stamp of the first event and its commit; it shows the second, and
no later page shows the first. -/
theorem not_complete_of_idle : ∃ actions : List (MonitorAction ℕ Unit),
    (run exec start actions).Idle ∧ ¬(run exec start actions).Complete := by
  refine ⟨[.begin 1, .write 1 (eventRow 1 "pending"), .tick 1, .begin 2,
    .write 2 (eventRow 2 "pending"), .commit 2, .poll, .commit 1, .poll], ?_⟩
  decide

end Example

end MonitorWorld

end LlmGateway
