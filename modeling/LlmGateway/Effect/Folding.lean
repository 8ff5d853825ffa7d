import LlmGateway.Effect.OutboxDelivery
import LlmGateway.Effect.SkillCall

/-!
# The terminals of one call

A call may be told its terminal by several events, in any order and more than once. Terminals
that agree give their common record; terminals that do not agree give a conflict, which no
further terminal resolves. The first event that commits settles the tracked action, and no later
one touches it.
-/

namespace LlmGateway

open Relational

/-! ## Resolving one terminal after another -/

/-- `TerminalRecord.pending`. -/
def TerminalRecord.pending : TerminalRecord := ⟨.pending, none, none, none⟩

/-- The record of a call whose terminals contradict each other. -/
def terminalConflict : TerminalRecord :=
  ⟨.manual, some .internalFailed, some "terminal_conflict", some false⟩

def resolveTerminal (existing : TerminalRecord) (terminal : SkillTerminal) : TerminalRecord :=
  (resolveTerminalTransition existing (normalizeSkillTerminal terminal)).record

def foldTerminals (existing : TerminalRecord) (terminals : List SkillTerminal) : TerminalRecord :=
  terminals.foldl resolveTerminal existing

variable {existing : TerminalRecord} {terminals : List SkillTerminal}

theorem resolveTerminal_of_running (h : existing.status.isRunning = true)
    (terminal : SkillTerminal) :
    resolveTerminal existing terminal = normalizeSkillTerminal terminal := by
  rw [resolveTerminal, resolveTerminalTransition, if_pos h]

theorem resolveTerminal_of_manual (h : existing.status = .manual) (terminal : SkillTerminal) :
    resolveTerminal existing terminal = existing := by
  have hrunning : ¬existing.status.isRunning = true := by
    rw [h]
    exact Bool.false_ne_true
  rw [resolveTerminal, resolveTerminalTransition, if_neg hrunning, if_pos h]
  split_ifs <;> rfl

theorem resolveTerminal_of_closed (hclosed : existing.status.isRunning = false)
    (hmanual : existing.status ≠ .manual) (terminal : SkillTerminal) :
    resolveTerminal existing terminal =
      if normalizeSkillTerminal terminal = existing then existing else terminalConflict := by
  have hrunning : ¬existing.status.isRunning = true := by
    rw [hclosed]
    exact Bool.false_ne_true
  rw [resolveTerminal, resolveTerminalTransition, if_neg hrunning, if_neg hmanual]
  by_cases hsame : normalizeSkillTerminal terminal = existing
  · rw [if_pos hsame.symm, if_pos hsame]
  · rw [if_neg (Ne.symm hsame), if_neg hsame]
    rfl

theorem resolveTerminal_conflict (terminal : SkillTerminal) :
    resolveTerminal terminalConflict terminal = terminalConflict :=
  resolveTerminal_of_manual rfl terminal

/-- Two terminals may be resolved in either order. -/
theorem resolveTerminal_comm (existing : TerminalRecord) (t t' : SkillTerminal) :
    resolveTerminal (resolveTerminal existing t) t' =
      resolveTerminal (resolveTerminal existing t') t := by
  have hclosed := normalizeSkillTerminal_closed t
  have hclosed' := normalizeSkillTerminal_closed t'
  by_cases hrunning : existing.status.isRunning = true
  · rw [resolveTerminal_of_running hrunning, resolveTerminal_of_running hrunning,
      resolveTerminal_of_closed hclosed.1 hclosed.2, resolveTerminal_of_closed hclosed'.1 hclosed'.2]
    by_cases hsame : normalizeSkillTerminal t' = normalizeSkillTerminal t
    · rw [if_pos hsame, if_pos hsame.symm, hsame]
    · rw [if_neg hsame, if_neg (Ne.symm hsame)]
  · rw [Bool.not_eq_true] at hrunning
    by_cases hmanual : existing.status = .manual
    · simp only [resolveTerminal_of_manual hmanual]
    · rw [resolveTerminal_of_closed hrunning hmanual t, resolveTerminal_of_closed hrunning hmanual t']
      split_ifs with ht ht' ht'
      · rw [resolveTerminal_of_closed hrunning hmanual, resolveTerminal_of_closed hrunning hmanual,
          if_pos ht, if_pos ht']
      · rw [resolveTerminal_of_closed hrunning hmanual, if_neg ht', resolveTerminal_conflict]
      · rw [resolveTerminal_of_closed hrunning hmanual, if_neg ht, resolveTerminal_conflict]
      · rw [resolveTerminal_conflict, resolveTerminal_conflict]

theorem foldTerminals_append (existing : TerminalRecord) (terminals more : List SkillTerminal) :
    foldTerminals existing (terminals ++ more) =
      foldTerminals (foldTerminals existing terminals) more :=
  List.foldl_append

/-- The order of the terminals does not matter. -/
theorem foldTerminals_perm (existing : TerminalRecord) {terminals terminals' : List SkillTerminal}
    (h : terminals.Perm terminals') :
    foldTerminals existing terminals = foldTerminals existing terminals' :=
  h.foldl_eq' (fun t _ t' _ r ↦ resolveTerminal_comm r t t') existing

/-- A conflict is never left. -/
theorem foldTerminals_conflict (terminals : List SkillTerminal) :
    foldTerminals terminalConflict terminals = terminalConflict := by
  induction terminals with
  | nil => rfl
  | cons t terminals ih =>
    calc foldTerminals terminalConflict (t :: terminals)
        = foldTerminals (resolveTerminal terminalConflict t) terminals := rfl
      _ = foldTerminals terminalConflict terminals := by rw [resolveTerminal_conflict]
      _ = terminalConflict := ih

/-- A closed call keeps its record exactly as long as every terminal repeats it. -/
theorem foldTerminals_of_closed (hclosed : existing.status.isRunning = false)
    (hmanual : existing.status ≠ .manual) (terminals : List SkillTerminal) :
    foldTerminals existing terminals =
      if ∀ t ∈ terminals, normalizeSkillTerminal t = existing then existing
      else terminalConflict := by
  induction terminals with
  | nil => rw [if_pos fun t ht ↦ absurd ht List.not_mem_nil, foldTerminals, List.foldl_nil]
  | cons t terminals ih =>
    have hstep : foldTerminals existing (t :: terminals) =
        foldTerminals (resolveTerminal existing t) terminals := rfl
    rw [hstep, resolveTerminal_of_closed hclosed hmanual]
    by_cases hsame : normalizeSkillTerminal t = existing
    · rw [if_pos hsame, ih]
      simp only [List.forall_mem_cons, hsame, true_and]
    · have hother : ¬∀ t' ∈ t :: terminals, normalizeSkillTerminal t' = existing :=
        fun h ↦ hsame (h t List.mem_cons_self)
      rw [if_neg hsame, if_neg hother, foldTerminals_conflict]

/-- What a list of terminals makes of the record of a call. -/
structure Resolves (existing : TerminalRecord) (terminals : List SkillTerminal) : Prop where
  common : ∀ t ∈ terminals, (∀ t' ∈ terminals, normalizeSkillTerminal t' =
    normalizeSkillTerminal t) → foldTerminals existing terminals = normalizeSkillTerminal t
  conflict : ∀ t ∈ terminals, ∀ t' ∈ terminals,
    normalizeSkillTerminal t' ≠ normalizeSkillTerminal t →
      foldTerminals existing terminals = terminalConflict
  perm : ∀ terminals', terminals'.Perm terminals →
    foldTerminals existing terminals' = foldTerminals existing terminals
  absorbing : ∀ more, foldTerminals existing terminals = terminalConflict →
    foldTerminals existing (terminals ++ more) = terminalConflict

/-- The terminals of an open call give the common terminal, or a conflict. -/
theorem resolves_of_running (h : existing.status.isRunning = true)
    (terminals : List SkillTerminal) : Resolves existing terminals where
  common t ht hsame := by
    cases terminals with
    | nil => exact absurd ht List.not_mem_nil
    | cons t₀ rest =>
      have hstep : foldTerminals existing (t₀ :: rest) =
          foldTerminals (resolveTerminal existing t₀) rest := rfl
      have hclosed := normalizeSkillTerminal_closed t₀
      have hall : ∀ t' ∈ rest, normalizeSkillTerminal t' = normalizeSkillTerminal t₀ := by
        intro t' ht'
        exact (hsame t' (List.mem_cons_of_mem t₀ ht')).trans (hsame t₀ List.mem_cons_self).symm
      rw [hstep, resolveTerminal_of_running h, foldTerminals_of_closed hclosed.1 hclosed.2,
        if_pos hall]
      exact hsame t₀ List.mem_cons_self
  conflict t ht t' ht' hne := by
    cases terminals with
    | nil => exact absurd ht List.not_mem_nil
    | cons t₀ rest =>
      have hstep : foldTerminals existing (t₀ :: rest) =
          foldTerminals (resolveTerminal existing t₀) rest := rfl
      have hclosed := normalizeSkillTerminal_closed t₀
      have hother : ¬∀ t' ∈ rest, normalizeSkillTerminal t' = normalizeSkillTerminal t₀ := by
        intro hall
        have hfirst : ∀ s ∈ t₀ :: rest, normalizeSkillTerminal s = normalizeSkillTerminal t₀ :=
          List.forall_mem_cons.2 ⟨rfl, hall⟩
        exact hne ((hfirst t' ht').trans (hfirst t ht).symm)
      rw [hstep, resolveTerminal_of_running h, foldTerminals_of_closed hclosed.1 hclosed.2,
        if_neg hother]
  perm terminals' hperm := foldTerminals_perm existing hperm
  absorbing more hconflict := by
    rw [foldTerminals_append, hconflict, foldTerminals_conflict]

end LlmGateway
