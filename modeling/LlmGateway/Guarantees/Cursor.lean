import LlmGateway.Effect.Cursor
import LlmGateway.System.Run
import LlmGateway.System.Scenario

/-!
# The cursor of a cycle

Four statements move the cursor: a completion at the cursor, the skipping of completed events
behind it, the persistence of a lease, and the supersession of a stale event. Whatever the
order in which events are claimed and completed, the cursor never goes back, and in an open
cycle it never passes a gap or an event that is still open.
-/

namespace LlmGateway

open Relational

variable {config : SystemConfig} {w : World}

namespace World

/-- What the cursors of the cycles mean in a state. -/
structure CursorSound (config : SystemConfig) (w : World) : Prop where
  no_gap : ∀ c ∈ w.db.cycles, c.status = .pending ∨ c.status = .active →
    ∀ p, 0 < p → p < c.nextEventSequence →
      ∃ e ∈ w.db.events, e.cycleId = c.id ∧ e.eventSequence = p ∧ e.status.isOpen = false
  passes_closed : ∀ c ∈ w.db.cycles, c.status = .pending ∨ c.status = .active →
    ∀ e ∈ w.db.events, e.cycleId = c.id → e.eventSequence < c.nextEventSequence →
      e.status.isOpen = false
  never_back : ∀ c ∈ w.db.cycles, ∀ actions, ∃ c' ∈ (run (exec config) w actions).db.cycles,
    c'.id = c.id ∧ c.nextEventSequence ≤ c'.nextEventSequence

/-! ## Monotonicity -/

/-- The cycles stay and no cursor goes back. -/
def CursorsGrow (db db' : Db) : Prop :=
  ∀ c ∈ db.cycles, ∃ c' ∈ db'.cycles, c'.id = c.id ∧ c.nextEventSequence ≤ c'.nextEventSequence

theorem CursorsGrow.refl (db : Db) : CursorsGrow db db := fun c hc ↦ ⟨c, hc, rfl, le_refl _⟩

theorem CursorsGrow.trans {db db' db'' : Db} (h : CursorsGrow db db')
    (h' : CursorsGrow db' db'') : CursorsGrow db db'' := by
  intro c hc
  obtain ⟨c', hc', hid, hle⟩ := h c hc
  obtain ⟨c'', hc'', hid', hle'⟩ := h' c' hc'
  exact ⟨c'', hc'', hid'.trans hid, hle.trans hle'⟩

theorem exec_cursorsGrow (hw : w.Sound config) (a : Action) :
    CursorsGrow w.db (w.exec config a).db := by
  have heffects := exec_effects (a := a) (P := fun _ ↦ True) hw fun _ _ ↦ trivial
  have hgrow := invariant_chain
    (I := fun db ↦ db.GenerationsReached ∧ CursorsGrow w.db db) ?_ heffects ⟨hw.reached, .refl _⟩
  · exact hgrow.2
  intro db db' heff hdb
  refine ⟨heff.generationsReached hdb.1, hdb.2.trans fun c hc ↦ ?_⟩
  obtain ⟨c', hc', hkey, hchange⟩ := (heff.cursor_change hdb.1.processing).forward c hc
  exact ⟨c', hc', congrArg CycleKey.id hkey, hchange.cursor_le⟩

theorem run_cursorsGrow (hw : w.Sound config) (actions : List Action) :
    CursorsGrow w.db (run (exec config) w actions).db := by
  refine rel_run (R := fun v u : World ↦ CursorsGrow v.db u.db) (I := fun v ↦ v.Sound config)
    (fun v ↦ .refl v.db) (fun h h' ↦ h.trans h') ?_ ?_ hw actions
  · exact fun v a hv ↦ exec_cursorsGrow hv a
  · exact fun v a hv ↦ exec_sound hv

/-! ## What the cursor has passed -/

/-- What holds of the cursors in every reachable state. -/
theorem Reachable.cursorsPass (hw : w.Reachable config) : w.db.CursorsPass := by
  have hboth : w.db.CursorsReached ∧ w.db.CursorsPass := by
    refine hw.invariant (I := fun db ↦ db.CursorsReached ∧ db.CursorsPass) (fun _ ↦ ⟨?_, ?_⟩) fun _ _ _ heff hgenerations h ↦ ?_
    · exact fun c hc ↦ absurd hc (Table.not_mem_empty _)
    · exact fun c hc ↦ absurd hc (Table.not_mem_empty _)
    · exact ⟨heff.cursorsReached hgenerations.processing h.1,
        heff.cursorsPass hgenerations.processing h.1 h.2⟩
  exact hboth.2

/-- In every reachable state the cursor of an open cycle stands behind closed events only, and
no continuation moves a cursor back. -/
theorem cursorSound_of_reachable (hw : w.Reachable config) : w.CursorSound config := by
  have hpasses {c : CycleRow} (hc : c ∈ w.db.cycles)
      (hopen : c.status = .pending ∨ c.status = .active) : w.db.Passes c.id 1 c.nextEventSequence :=
    hw.cursorsPass c hc (CycleStatus.isOpen_iff.2 hopen)
  refine ⟨fun c hc hopen p hpos hlt ↦ (hpasses hc hopen).2 p hpos hlt, ?_, ?_⟩
  · intro c hc hopen e he hcycle hlt
    have hpos : 0 < e.eventSequence := (hw.sound.integrity.event_sound e he).sequence_pos
    obtain ⟨e', he', hcycle', hsequence, hclosed⟩ := (hpasses hc hopen).2 _ hpos hlt
    have heq := hw.sound.integrity.eventRow_eq_of_position he he' (hcycle.trans hcycle'.symm)
      hsequence.symm
    rwa [heq]
  · exact fun c hc actions ↦ run_cursorsGrow hw.sound actions c hc

open Scenario in
/-- The third event is completed before the second one arrives; its cursor waits, and then
passes both. -/
theorem cursorSound_after_late_event :
    let early := after [submit [sessionStarted "e1" 1 "L1" 1], claim, finish 3,
      submit [plain "e3" 1 3 0 (started "d")], claim, finish 5]
    let late := run (exec Scenario.config) early
      [submit [plain "e2" 1 2 0 (started "d")], claim, finish 7]
    (early.db.cycles.rows.map fun c ↦ c.nextEventSequence) = [2] ∧
      (late.db.cycles.rows.map fun c ↦ (c.status, c.nextEventSequence)) = [(.active, 4)] ∧
      early.CursorSound Scenario.config ∧ late.CursorSound Scenario.config :=
  ⟨by decide, by decide, cursorSound_of_reachable (reachable_after _ _),
    cursorSound_of_reachable ((reachable_after _ _).run _)⟩

end World

end LlmGateway
