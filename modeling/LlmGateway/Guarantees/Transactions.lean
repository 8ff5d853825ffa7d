import LlmGateway.System.Scenario
import LlmGateway.System.Transaction

/-!
# Retried mutations

The search for a state ends on every graph of exceptions and misses none. A retried mutation is
executed at most once, and the state after it is that of a run in which it is one action.
-/

namespace LlmGateway

open Relational

section Errors

variable {ι : Type*} {errors : ι → ErrorObject ι}

/-- The exceptions that can be reached through `orig`, `__cause__` and `__context__`. -/
def Wraps (errors : ι → ErrorObject ι) : ι → ι → Prop := Reaches fun e ↦ (errors e).nested

/-- What the inbox follows is nested. -/
theorem wraps_of_inbox {error e : ι}
    (hpath : Reaches (fun e ↦ ((errors e).orig.or (errors e).cause).toList) error e) :
    Wraps errors error e := by
  refine Relation.ReflTransGen.mono (fun e e' hnext ↦ ?_) _ _ hpath
  unfold ErrorObject.nested
  rw [Option.mem_toList] at hnext
  cases Option.or_eq_some_iff.1 hnext with
  | inl horig =>
    exact List.mem_append_left _ (List.mem_append_left _ (Option.mem_toList.2 horig))
  | inr hcause =>
    exact List.mem_append_left _ (List.mem_append_right _ (Option.mem_toList.2 hcause.2))

theorem postgresState_isSome {error : ErrorObject ι} {state : String}
    (h : error.sqlstate.or error.pgcode = some state) (hstate : state ≠ "") :
    error.postgresState ≠ none := by
  unfold ErrorObject.postgresState
  cases Option.or_eq_some_iff.1 h with
  | inl hsql => simp [hsql, hstate]
  | inr hcode => simp [hcode.1, hcode.2, hstate]

variable [Fintype ι] [DecidableEq ι]

/-- A state is found exactly if an exception that can be reached carries one, and then it is the
state of such an exception; what the inbox finds on its path, if not empty, is not missed. -/
theorem postgresSqlstate_reaches (errors : ι → ErrorObject ι) (error : ι) :
    (postgresSqlstate errors error = none ↔
        ∀ e, Wraps errors error e → (errors e).postgresState = none) ∧
      (∀ state, postgresSqlstate errors error = some state →
        ∃ e, Wraps errors error e ∧ (errors e).postgresState = some state) ∧
      ∀ state, inboxSqlstate errors error = some state → state ≠ "" →
        ∃ state', postgresSqlstate errors error = some state' := by
  refine ⟨search_eq_none_iff, fun state hstate ↦ ?_, fun state hinbox hnonempty ↦ ?_⟩
  · obtain ⟨v, hv, e, hpath, hanswer⟩ := exists_of_search hstate
    rw [List.mem_singleton.1 hv] at hpath
    exact ⟨e, hpath, hanswer⟩
  · obtain ⟨v, hv, e, hpath, hanswer⟩ := exists_of_search hinbox
    rw [List.mem_singleton.1 hv] at hpath
    rw [← Option.ne_none_iff_exists']
    intro hnone
    exact postgresState_isSome hanswer hnonempty
      (search_eq_none_iff.1 hnone e (wraps_of_inbox hpath))

end Errors

section Retries

variable {ι : Type*} {config : SystemConfig} {a : Action} {attempts : ℕ → MutationAttempt ι}
  {w : World}

/-- What the caller learns of a transaction. -/
def TransactionEnding.result : TransactionEnding ι → MutationReturn ι
  | committed => .returned
  | aborted error | unacknowledged error => .raised error

/-- The actions of the others and of the call, from one attempt to another. -/
def callTrace (a : Action) (attempts : ℕ → MutationAttempt ι) (first last : ℕ) :
    List Action :=
  (List.range' first (last + 1 - first)).flatMap (fun j ↦ (attempts j).meanwhile) ++
    if (attempts last).ending.executes then [a] else []

theorem callTrace_self (first : ℕ) : callTrace a attempts first first =
    (attempts first).meanwhile ++ if (attempts first).ending.executes then [a] else [] := by
  simp only [callTrace, Nat.add_sub_cancel_left, List.range'_one, List.flatMap_singleton]

theorem callTrace_succ {first last : ℕ} (h : first < last) : callTrace a attempts first last =
    (attempts first).meanwhile ++ callTrace a attempts (first + 1) last := by
  have hlength : last + 1 - first = (last + 1 - (first + 1)) + 1 := by omega
  simp only [callTrace, hlength, List.range'_succ, List.flatMap_cons, List.append_assoc]

/-- The attempt executes the transaction or not, after what the others did. -/
theorem run_attempt (attempt : MutationAttempt ι) :
    (if attempt.ending.executes then
        (run (World.exec config) w attempt.meanwhile).exec config a
      else run (World.exec config) w attempt.meanwhile) =
      run (World.exec config) w
        (attempt.meanwhile ++ if attempt.ending.executes then [a] else []) := by
  cases attempt.ending.executes with
  | true => rw [if_pos rfl, if_pos rfl, run_append, run_cons, run_nil]
  | false => rw [if_neg Bool.false_ne_true, if_neg Bool.false_ne_true, List.append_nil]

variable [Fintype ι] [DecidableEq ι] {errors : ι → ErrorObject ι}

/-- The transaction of the attempt was rolled back, and the caller tries again. -/
def TriesAgain (errors : ι → ErrorObject ι) (attempt : MutationAttempt ι) : Prop :=
  ∃ error, attempt.ending = .aborted error ∧ isRetryableTransactionError errors error = true

/-- The call ends with this attempt. -/
structure EndsWith (errors : ι → ErrorObject ι) (attempts : ℕ → MutationAttempt ι)
    (first last : ℕ) : Prop where
  first_le : first ≤ last
  last_le : last ≤ 3
  before : ∀ j, first ≤ j → j < last → TriesAgain errors (attempts j)
  stops : last = 3 ∨ ¬TriesAgain errors (attempts last)

theorem retryLoop_stops (hlost : ∀ j error, (attempts j).ending = .unacknowledged error →
      isRetryableTransactionError errors error = false) {attempt : ℕ} {later : List ℕ}
    (hstops : 3 ≤ attempt ∨ ¬TriesAgain errors (attempts attempt)) :
    retryLoop config errors a attempts (attempt :: later) w =
      (run (World.exec config) w (callTrace a attempts attempt attempt),
        (attempts attempt).ending.result) := by
  rw [callTrace_self, ← run_attempt, retryLoop]
  cases hending : (attempts attempt).ending with
  | committed => rfl
  | aborted error =>
    refine if_pos (hstops.imp_right fun hnot ↦ Bool.eq_false_iff.2 fun hretryable ↦ ?_)
    exact hnot ⟨error, hending, hretryable⟩
  | unacknowledged error => exact if_pos (Or.inr (hlost attempt error hending))

theorem retryLoop_again {attempt : ℕ} {later : List ℕ} (hfirst : attempt < 3)
    (hagain : TriesAgain errors (attempts attempt)) :
    retryLoop config errors a attempts (attempt :: later) w =
      retryLoop config errors a attempts later
        (run (World.exec config) w (attempts attempt).meanwhile) := by
  obtain ⟨error, hending, hretryable⟩ := hagain
  have hnot : ¬(3 ≤ attempt ∨ isRetryableTransactionError errors error = false) := by
    rw [hretryable]
    simpa using hfirst
  rw [retryLoop, hending]
  exact if_neg hnot

/-- The loop over the attempts that are left. -/
theorem retryLoop_eq (hlost : ∀ j error, (attempts j).ending = .unacknowledged error →
      isRetryableTransactionError errors error = false) {first n : ℕ} (hn : first + n = 3)
    (w : World) : ∃ last, EndsWith errors attempts first last ∧
      retryLoop config errors a attempts (List.range' first (n + 1)) w =
        (run (World.exec config) w (callTrace a attempts first last),
          (attempts last).ending.result) := by
  induction n generalizing first w with
  | zero =>
    refine ⟨first, ⟨le_rfl, hn.le, fun j hle hlt ↦ absurd hlt hle.not_gt, Or.inl hn⟩, ?_⟩
    exact retryLoop_stops hlost (Or.inl hn.ge)
  | succ n ih =>
    rw [List.range'_succ]
    by_cases hagain : TriesAgain errors (attempts first)
    · have hnext : first + 1 + n = 3 := by omega
      obtain ⟨last, hends, heq⟩ := ih hnext (run (World.exec config) w (attempts first).meanwhile)
      have hlt : first < last := hends.first_le
      refine ⟨last, ⟨hlt.le, hends.last_le, fun j hle hj ↦ ?_, hends.stops⟩, ?_⟩
      · cases hle.eq_or_lt with
        | inl hfirst => exact hfirst ▸ hagain
        | inr hlater => exact hends.before j hlater hj
      · rw [retryLoop_again (by omega) hagain, heq, callTrace_succ hlt, run_append]
    · refine ⟨first, ⟨le_rfl, by omega, fun j hle hlt ↦ absurd hlt hle.not_gt, Or.inr hagain⟩, ?_⟩
      exact retryLoop_stops hlost (Or.inr hagain)

/-- A retried mutation leaves the state of a run in which it occurs once, if the call returns, and
at most once otherwise; it is tried again exactly after it was rolled back for another
transaction, and not more than twice. -/
theorem retry_once (config : SystemConfig) (a : Action) (w : World)
    (hlost : ∀ j error, (attempts j).ending = .unacknowledged error →
      isRetryableTransactionError errors error = false) :
    ∃ last, EndsWith errors attempts 1 last ∧
      retryDatabaseMutation config errors a attempts w =
        (run (World.exec config) w
          ((List.range' 1 last).flatMap (fun j ↦ (attempts j).meanwhile) ++
            if (attempts last).ending.executes then [a] else []),
          (attempts last).ending.result) := by
  obtain ⟨last, hends, heq⟩ := retryLoop_eq hlost (Nat.add_comm 1 2) w
  exact ⟨last, hends, heq⟩

section Example

open Scenario

/-- A wrapper in a cycle with the error of the database, a serialization failure. -/
def serializationFailure (error : Bool) : ErrorObject Bool :=
  if error then ⟨none, none, some false, some false, none⟩
  else ⟨some "40001", none, none, none, some true⟩

/-- The first attempt is rolled back after a tick, the second one is committed. -/
def rolledBackOnce (attempt : ℕ) : MutationAttempt Bool :=
  if attempt = 1 then ⟨[.tick 5], .aborted true⟩ else ⟨[], .committed⟩

theorem serializationFailure_retryable :
    isRetryableTransactionError serializationFailure true = true := by
  have hstate : postgresSqlstate serializationFailure true = some "40001" := by
    simp [postgresSqlstate, search, serializationFailure, ErrorObject.nested,
      ErrorObject.postgresState, Option.filter]
  simp [isRetryableTransactionError, hstate]

/-- The claim is made once, after the tick. -/
theorem retry_once_rolledBack :
    retryDatabaseMutation Scenario.config serializationFailure claim rolledBackOnce (after []) =
      (after [.tick 5, claim], .returned) := by
  have hlost (j : ℕ) (error : Bool) (hending : (rolledBackOnce j).ending = .unacknowledged error) :
      isRetryableTransactionError serializationFailure error = false := by
    unfold rolledBackOnce at hending
    split_ifs at hending
  obtain ⟨last, hends, heq⟩ := retry_once Scenario.config claim (after []) hlost
  have hlast : last = 2 := by
    have hagain : TriesAgain serializationFailure (rolledBackOnce 1) :=
      ⟨true, rfl, serializationFailure_retryable⟩
    have hcommitted : ¬TriesAgain serializationFailure (rolledBackOnce 2) := by
      rintro ⟨error, hending, -⟩
      cases hending
    have hfirst := hends.first_le
    have hbound := hends.last_le
    by_contra hne
    have hcases : last = 1 ∨ last = 3 := by omega
    cases hcases with
    | inl hone =>
      subst hone
      exact hends.stops.elim (fun h ↦ absurd h (by decide)) fun h ↦ h hagain
    | inr hthree =>
      subst hthree
      exact hcommitted (hends.before 2 (by decide) (by decide))
  rw [heq, hlast]
  rfl

end Example

end Retries

end LlmGateway
