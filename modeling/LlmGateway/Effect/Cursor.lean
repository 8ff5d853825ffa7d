import LlmGateway.Effect.Reached

/-!
# Cursors of cycles

How an effect moves the cursor of a cycle, and what is below it: a cursor never goes back, it
stands at the first position until the generation of its cycle is reached, and in an open
cycle it passes closed events only.
-/

namespace LlmGateway

open Relational

variable {config : WorkerConfig} {now : ℕ} {P : Branch → Prop} {db db' : Db}

def CycleStatus.isOpen : CycleStatus → Bool
  | pending | active => true
  | _ => false

theorem CycleStatus.isOpen_iff {status : CycleStatus} :
    status.isOpen = true ↔ status = .pending ∨ status = .active := by
  cases status <;> decide

/-- The cursor of a cycle moves only after its generation was reached. -/
def Db.CursorsReached (db : Db) : Prop :=
  ∀ c ∈ db.cycles, db.Reached c.gatewayId c.sessionId c.controlGeneration ∨
    c.nextEventSequence = 1

/-- How an effect may move the cursor of a cycle. -/
inductive CursorChange (db : Db) (c c' : CycleRow) : Prop
  | stays (cursor_eq : c'.nextEventSequence = c.nextEventSequence)
      (opens : c'.status.isOpen = true → c.status.isOpen = true ∨
        ¬db.Reached c.gatewayId c.sessionId c.controlGeneration)
  | passes (status_eq : c'.status = c.status)
      (passes : db.Passes c.id c.nextEventSequence c'.nextEventSequence)
      (reached : db.Reached c.gatewayId c.sessionId c.controlGeneration ∨ 1 < c.nextEventSequence)
  | closes (closed : c'.status.isOpen = false)
      (cursor_le : c.nextEventSequence ≤ c'.nextEventSequence)
      (reached : db.Reached c.gatewayId c.sessionId c.controlGeneration)

theorem CursorChange.refl (db : Db) (c : CycleRow) : CursorChange db c c := .stays rfl Or.inl

theorem CursorChange.cursor_le {c c' : CycleRow} (h : CursorChange db c c') :
    c.nextEventSequence ≤ c'.nextEventSequence := by
  cases h with
  | stays hcursor _ => exact hcursor.ge
  | passes _ hpasses _ => exact hpasses.1
  | closes _ hle _ => exact hle

/-- A cycle of a generation that is newer than the current one was not reached. -/
theorem Db.Linked.not_reached {j : Joined} (h : db.Linked j)
    (hnewer : ∀ g ∈ j.session.currentGeneration, g < j.event.controlGeneration) :
    ¬db.Reached j.cycle.gatewayId j.cycle.sessionId j.cycle.controlGeneration := by
  rw [h.cycle_owns.2.1, h.cycle_owns.2.2.1, h.cycle_owns.2.2.2, h.reached_iff]
  intro hreached
  obtain ⟨g, hg, hle⟩ := hreached
  exact absurd (hnewer g hg) (not_lt.2 hle)

theorem Effect.cursor_change (h : Effect config now P db db') (hproc : db.ProcessingReached) :
    Table.Evolves (fun c c' ↦ c'.toCycleKey = c.toCycleKey ∧ CursorChange db c c')
      CycleRow.New db.cycles db'.cycles := by
  have hrefl (c : CycleRow) : c.toCycleKey = c.toCycleKey ∧ CursorChange db c c :=
    ⟨rfl, .refl db c⟩
  cases h with
  | outbox hstep =>
    rw [hstep.cycles_eq]
    exact .refl hrefl _
  | insertCycle hinsert _ hnew _ _ => exact .insert hrefl hnew hinsert
  | @activate j hlinked hdisp =>
    have hnewer := (Joined.generation_of_activateNew hdisp).1
    have hclosed (c : CycleRow) : CursorChange db c { c with status := .superseded } :=
      .stays rfl fun hopen ↦ Bool.noConfusion hopen
    have hactivated (c : CycleRow) (hc : c ∈ db.cycles) (hid : c.id = j.event.cycleId) :
        CursorChange db c { c with status := .active } := by
      rw [hlinked.eq_cycle hc hid]
      exact .stays rfl fun _ ↦ Or.inr (hlinked.not_reached hnewer)
    refine ⟨fun c hc ↦ ?_, fun c' hc' ↦ Or.inl ?_⟩
    · by_cases hold : c.runtimeSessionId = j.session.id ∧ c.id ≠ j.event.cycleId ∧
          c.controlGeneration < j.event.controlGeneration ∧
          (c.status = .pending ∨ c.status = .active)
      · refine ⟨{ c with status := .superseded }, ?_, rfl, hclosed c⟩
        exact Table.mem_update_of_not (Table.set_mem_update (a := Db.setCycleStatus .superseded)
          hc hold) hold.2.1
      · by_cases hid : c.id = j.event.cycleId
        · refine ⟨{ c with status := .active }, ?_, rfl, hactivated c hc hid⟩
          exact Table.set_mem_update (a := Db.setCycleStatus .active)
            (Table.mem_update_of_not hc hold) hid
        · exact ⟨c, Table.mem_update_of_not (Table.mem_update_of_not hc hold) hid, hrefl c⟩
    · cases Table.mem_update.1 hc' with
      | inl hset =>
        obtain ⟨c, hc, hid, rfl⟩ := hset
        cases Table.mem_update.1 hc with
        | inl hset =>
          obtain ⟨c, -, hw, rfl⟩ := hset
          exact absurd hid hw.2.1
        | inr hkept => exact ⟨c, hkept.1, rfl, hactivated c hkept.1 hid⟩
      | inr hkept =>
        cases Table.mem_update.1 hkept.1 with
        | inl hset =>
          obtain ⟨c, hc, -, rfl⟩ := hset
          exact ⟨c, hc, rfl, hclosed c⟩
        | inr hkept => exact ⟨c', hkept.1, hrefl c'⟩
  | @activatePending j hlinked _ _ =>
    by_cases hpending : j.cycle.status = .pending
    · have hcycles : (LlmGateway.activatePending j db).cycles =
          (db.activateCycle j.event.cycleId).cycles := by
        rw [LlmGateway.activatePending, if_pos hpending]
        rfl
      rw [hcycles]
      refine .update hrefl fun c hc hid ↦ ⟨rfl, .stays rfl fun _ ↦ Or.inl ?_⟩
      rw [hlinked.eq_cycle hc hid, hpending]
      rfl
    · have hcycles : (LlmGateway.activatePending j db).cycles = db.cycles := by
        rw [LlmGateway.activatePending, if_neg hpending]
      rw [hcycles]
      exact .refl hrefl _
  | @supersede j hlinked hseq hreason =>
    have hsuperseded : j.SupersedeReason P := hreason.imp_left fun h ↦ ⟨h.1, h.2.1⟩
    refine .update hrefl fun c hc hw ↦ ⟨rfl, .closes ?_ (Nat.le_succ _) ?_⟩
    · show (if _ then CycleStatus.stopped else CycleStatus.superseded).isOpen = false
      split_ifs <;> rfl
    · rw [hlinked.eq_cycle hc hw.1, hlinked.cycle_owns.2.1, hlinked.cycle_owns.2.2.1,
        hlinked.cycle_owns.2.2.2]
      exact hsuperseded.reached hproc hlinked hseq
  | wait => exact .update hrefl fun c _ _ ↦ ⟨rfl, .stays rfl (fun h ↦ Bool.noConfusion h)⟩
  | markManual => exact .update hrefl fun c _ _ ↦ ⟨rfl, .stays rfl (fun h ↦ Bool.noConfusion h)⟩
  | close w a hcloses hcurrent =>
    refine .update hrefl fun c hc hw ↦ ⟨a.key_set c, ?_⟩
    obtain ⟨-, hstatus, -, -, -, hle⟩ := hcloses c hc hw
    exact .closes (by rw [hstatus]; rfl) hle (hcurrent c hc hw).reached
  | cursor w a hmoves hreached hpasses =>
    refine .update hrefl fun c hc hw ↦ ⟨a.key_set c, ?_⟩
    refine .passes ?_ (hpasses c hc hw) (hreached c hc hw)
    obtain ⟨n, hset⟩ := hmoves c hc hw
    rw [hset]
  | context => exact .update hrefl fun c _ _ ↦ ⟨rfl, .stays rfl Or.inl⟩
  | _ => exact .refl hrefl _

/-! ## Invariants -/

theorem Db.Passes.later {cycleId : Uuid} {m n : ℕ} (h : db.Passes cycleId m n)
    (hlater : db.Later db') : db'.Passes cycleId m n := by
  refine ⟨h.1, fun p hle hlt ↦ ?_⟩
  obtain ⟨e, he, hcycle, hsequence, hclosed⟩ := h.2 p hle hlt
  obtain ⟨e', he', heq⟩ := hlater.events e he
  rw [heq.closed hclosed] at he'
  exact ⟨e, he', hcycle, hsequence, hclosed⟩

/-- In an open cycle every position below the cursor holds a closed event. -/
def Db.CursorsPass (db : Db) : Prop :=
  ∀ c ∈ db.cycles, c.status.isOpen = true → db.Passes c.id 1 c.nextEventSequence

theorem Effect.cursorsReached (heff : Effect config now P db db') (hproc : db.ProcessingReached)
    (h : db.CursorsReached) : db'.CursorsReached := by
  intro c' hc'
  cases (heff.cursor_change hproc).backward c' hc' with
  | inr hnew => exact Or.inr hnew.2.1
  | inl hold =>
    obtain ⟨c, hc, hkey, hchange⟩ := hold
    rw [hkey]
    have hstep (hreached : db.Reached c.gatewayId c.sessionId c.controlGeneration) :
        db'.Reached c.gatewayId c.sessionId c.controlGeneration ∨ c'.nextEventSequence = 1 :=
      Or.inl (hreached.step heff)
    cases hchange with
    | stays hcursor _ => exact (h c hc).elim hstep fun hone ↦ Or.inr (hcursor.trans hone)
    | passes _ _ hreached =>
      cases hreached with
      | inl hreached => exact hstep hreached
      | inr hmoved => exact (h c hc).elim hstep fun hone ↦ absurd hone hmoved.ne'
    | closes _ _ hreached => exact hstep hreached

theorem Effect.cursorsPass (heff : Effect config now P db db') (hproc : db.ProcessingReached)
    (hreached : db.CursorsReached) (h : db.CursorsPass) : db'.CursorsPass := by
  intro c' hc' hopen
  cases (heff.cursor_change hproc).backward c' hc' with
  | inr hnew =>
    rw [hnew.2.1]
    exact .refl db' _ _
  | inl hold =>
    obtain ⟨c, hc, hkey, hchange⟩ := hold
    rw [hkey]
    refine Db.Passes.later ?_ heff.later
    cases hchange with
    | stays hcursor hopens =>
      rw [hcursor]
      cases hopens hopen with
      | inl hopen => exact h c hc hopen
      | inr hnot =>
        rw [(hreached c hc).resolve_left hnot]
        exact .refl db _ _
    | passes hstatus hpasses _ => exact (h c hc (hstatus ▸ hopen)).trans hpasses
    | closes hclosed _ _ =>
      rw [hclosed] at hopen
      cases hopen

end LlmGateway
