import LlmGateway.Effect.Rows
import LlmGateway.Relational.Transition

/-!
# Integrity of the stored rows

The invariants that every effect keeps, whatever branches are taken: foreign keys lead to
rows of the same session and generation, the columns of an event agree with its body,
identifiers are never reused, and an event has a claim exactly while it is being processed.
-/

namespace LlmGateway

open Relational

variable {config : WorkerConfig} {now : ℕ} {P : Branch → Prop} {db db' : Db}

/-! ## References and identifiers -/

structure Db.Integrity (db : Db) : Prop where
  event_owned : ∀ e ∈ db.events, ∃ c ∈ db.cycles, c.Owns e.toEventKey
  cycle_owned : ∀ c ∈ db.cycles, ∃ s ∈ db.sessions, s.Owns c.toCycleKey
  event_sound : ∀ e ∈ db.events, e.toEventKey.Sound
  session_issued : ∀ s ∈ db.sessions, s.id.serial < db.issued
  cycle_issued : ∀ c ∈ db.cycles, c.id.serial < db.issued
  event_issued : ∀ e ∈ db.events, e.id.serial < db.issued
  token_issued : ∀ e ∈ db.events, ∀ t ∈ e.claimToken, t.serial < db.issued
  token_unique : ∀ e ∈ db.events, ∀ e' ∈ db.events, ∀ t ∈ e.claimToken, t ∈ e'.claimToken →
    e = e'

theorem Db.Integrity.empty (entropy : ℕ → ℕ) : (Db.empty entropy).Integrity where
  event_owned _ h := absurd h (Table.not_mem_empty _)
  cycle_owned _ h := absurd h (Table.not_mem_empty _)
  event_sound _ h := absurd h (Table.not_mem_empty _)
  session_issued _ h := absurd h (Table.not_mem_empty _)
  cycle_issued _ h := absurd h (Table.not_mem_empty _)
  event_issued _ h := absurd h (Table.not_mem_empty _)
  token_issued _ h := absurd h (Table.not_mem_empty _)
  token_unique _ h := absurd h (Table.not_mem_empty _)

/-- Joined rows of a database with integrity agree on their names. -/
theorem Db.Integrity.linked (hI : db.Integrity) {j : Joined} (h : db.Joins j) :
    db.Linked j := by
  obtain ⟨c, hc, howns⟩ := hI.event_owned j.event h.event_mem
  obtain ⟨s, hs, hsowns⟩ := hI.cycle_owned j.cycle h.cycle_mem
  have hcycle : c = j.cycle := cycleRow_eq_of_id hc h.cycle_mem (howns.1.trans h.cycle_id.symm)
  have hsession : s = j.session :=
    sessionRow_eq_of_id hs h.session_mem (hsowns.1.trans h.session_id.symm)
  exact ⟨h, hcycle ▸ howns, hsession ▸ hsowns⟩

/-- Every stored event is joined with a cycle and a session. -/
theorem Db.Integrity.exists_linked (hI : db.Integrity) {e : EventRow} (he : e ∈ db.events) :
    ∃ j, db.Linked j ∧ j.event = e := by
  obtain ⟨c, hc, hcowns⟩ := hI.event_owned e he
  obtain ⟨s, hs, hsowns⟩ := hI.cycle_owned c hc
  exact ⟨⟨e, c, s⟩, ⟨⟨he, hc, hs, hcowns.1, hsowns.1⟩, hcowns, hsowns⟩, rfl⟩

/-- A position of a cycle holds one event at most. -/
theorem Db.Integrity.eventRow_eq_of_position (hI : db.Integrity) {e e' : EventRow}
    (he : e ∈ db.events) (he' : e' ∈ db.events) (hcycle : e.cycleId = e'.cycleId)
    (hsequence : e.eventSequence = e'.eventSequence) : e = e' := by
  obtain ⟨c, hc, howns⟩ := hI.event_owned e he
  obtain ⟨c', hc', howns'⟩ := hI.event_owned e' he'
  obtain rfl := cycleRow_eq_of_id hc hc' (howns.1.trans (hcycle.trans howns'.1.symm))
  exact Table.eq_of_clashes he he' (Or.inr (Or.inr ⟨howns.2.1.symm.trans howns'.2.1,
    howns.2.2.1.symm.trans howns'.2.2.1, howns.2.2.2.symm.trans howns'.2.2.2, hsequence⟩))

section Columns

variable {j : Joined}

theorem Db.Linked.session_names (h : db.Linked j) :
    j.session.gatewayId = j.event.gatewayId ∧ j.session.sessionId = j.event.sessionId :=
  ⟨h.session_owns.2.1.trans h.cycle_owns.2.1, h.session_owns.2.2.trans h.cycle_owns.2.2.1⟩

theorem Db.Linked.generation_eq (h : db.Linked j) :
    j.cycle.controlGeneration = j.event.controlGeneration := h.cycle_owns.2.2.2

/-- The current generation of the joined session decides whether a generation is reached. -/
theorem Db.Linked.reached_iff (h : db.Linked j) {generation : ℕ} :
    db.Reached j.event.gatewayId j.event.sessionId generation ↔
      ∃ g ∈ j.session.currentGeneration, generation ≤ g := by
  constructor
  · rintro ⟨s, hs, hg, hn, hcur⟩
    obtain ⟨hjg, hjn⟩ := h.session_names
    rwa [← sessionRow_eq_of_names hs h.session_mem (hg.trans hjg.symm) (hn.trans hjn.symm)]
  · exact fun hcur ↦ ⟨j.session, h.session_mem, h.session_names.1, h.session_names.2, hcur⟩

theorem Db.Linked.current_iff (h : db.Linked j) {generation : ℕ} :
    db.Current j.event.gatewayId j.event.sessionId generation ↔
      j.session.currentGeneration = some generation := by
  constructor
  · rintro ⟨s, hs, hg, hn, hcur⟩
    obtain ⟨hjg, hjn⟩ := h.session_names
    rwa [← sessionRow_eq_of_names hs h.session_mem (hg.trans hjg.symm) (hn.trans hjn.symm)]
  · exact fun hcur ↦ ⟨j.session, h.session_mem, h.session_names.1, h.session_names.2, hcur⟩

end Columns

private theorem owned_forward {α : Type*} [Keyed α] {R : α → α → Prop} {N : α → Prop}
    {t t' : Table α} {owns : α → Prop} (hev : Table.Evolves R N t t')
    (hR : ∀ a a', R a a' → owns a → owns a') (h : ∃ a ∈ t, owns a) : ∃ a ∈ t', owns a := by
  obtain ⟨a, ha, howns⟩ := h
  obtain ⟨a', ha', haa'⟩ := hev.forward a ha
  exact ⟨a', ha', hR a a' haa' howns⟩

theorem SessionRow.Grows.owns {s s' : SessionRow} (h : s.Grows s') {c : CycleKey}
    (howns : s.Owns c) : s'.Owns c := by
  unfold SessionRow.Owns at howns ⊢
  rwa [h.key_eq]

theorem CycleRow.Owns.of_key_eq {c c' : CycleRow} (h : c'.toCycleKey = c.toCycleKey)
    {e : EventKey} (howns : c.Owns e) : c'.Owns e := by
  unfold CycleRow.Owns at howns ⊢
  rwa [h]

/-- The token of an event after an effect is the one it had, or the one just generated. -/
theorem Effect.EventStep.claimToken_cases {rowId : Uuid} {e e' : EventRow}
    (h : Effect.EventStep config now P db db' rowId e e') {t : Uuid} (ht : t ∈ e'.claimToken) :
    t ∈ e.claimToken ∨ (t = db.nextUuid ∧ e.id = rowId ∧ db.issued < db'.issued) := by
  rcases h with h | ⟨-, hid, h, hlt⟩
  · rcases h.change with rfl | ⟨-, hreleased⟩ | ⟨-, _, rfl⟩
    · exact Or.inl ht
    · simp [hreleased.claimToken] at ht
    · exact Or.inl ht
  · rw [h.claimToken] at ht
    exact Or.inr ⟨(Option.some.inj ht).symm, hid, hlt⟩

/-- Every effect keeps the integrity of the stored rows. -/
theorem Effect.integrity (h : Effect config now P db db') (hI : db.Integrity) :
    db'.Integrity := by
  have hsessions := h.sessions_evolve
  have hcycles := h.cycles_evolve
  obtain ⟨rowId, hevents⟩ := h.events_evolve
  have hissued := h.issued_le
  have hfresh {id : Uuid} (hid : db.Fresh db' id) : id.serial < db'.issued := by
    rw [hid.1]
    exact hid.2
  refine ⟨?_, ?_, ?_, ?_, ?_, ?_, ?_, ?_⟩
  · intro e' he'
    refine owned_forward hcycles (fun _ _ hkey ↦ CycleRow.Owns.of_key_eq hkey) ?_
    rcases hevents.backward e' he' with ⟨e, he, hstep⟩ | ⟨-, -, -, -, howned⟩
    · rw [hstep.key_eq]
      exact hI.event_owned e he
    · exact howned
  · intro c' hc'
    refine owned_forward hsessions (fun _ _ hgrow ↦ hgrow.owns) ?_
    rcases hcycles.backward c' hc' with ⟨c, hc, hkey⟩ | ⟨-, -, howned⟩
    · rw [hkey]
      exact hI.cycle_owned c hc
    · exact howned
  · refine hevents.forall_mem hI.event_sound (fun e e' hstep hsound ↦ ?_) fun e hnew ↦ hnew.2.2.2.1
    rwa [hstep.key_eq]
  · refine hsessions.forall_mem (fun s hs ↦ (hI.session_issued s hs).trans_le hissued)
      (fun s s' hgrow hs ↦ ?_) fun s hnew ↦ hfresh hnew.2
    rwa [hgrow.key_eq]
  · refine hcycles.forall_mem (fun c hc ↦ (hI.cycle_issued c hc).trans_le hissued)
      (fun c c' hkey hc ↦ ?_) fun c hnew ↦ hfresh hnew.2.1
    rwa [hkey]
  · refine hevents.forall_mem (fun e he ↦ (hI.event_issued e he).trans_le hissued)
      (fun e e' hstep he ↦ ?_) fun e hnew ↦ hfresh hnew.2.2.1
    rwa [hstep.key_eq]
  · intro e' he' t ht
    rcases hevents.backward e' he' with ⟨e, he, hstep⟩ | ⟨-, hnew, -⟩
    · rcases hstep.claimToken_cases ht with ht | ⟨rfl, -, hlt⟩
      · exact (hI.token_issued e he t ht).trans_le hissued
      · exact hlt
    · simp [hnew.claimToken] at ht
  · intro e₁ he₁ e₂ he₂ t ht₁ ht₂
    have hold {e' : EventRow} (he' : e' ∈ db'.events) (ht : t ∈ e'.claimToken) :
        ∃ e ∈ db.events, e'.id = e.id ∧
          (t ∈ e.claimToken ∨ (t = db.nextUuid ∧ e.id = rowId)) := by
      rcases hevents.backward e' he' with ⟨e, he, hstep⟩ | ⟨-, hnew, -⟩
      · refine ⟨e, he, congrArg EventKey.id hstep.key_eq, ?_⟩
        exact (hstep.claimToken_cases ht).imp_right fun h ↦ ⟨h.1, h.2.1⟩
      · simp [hnew.claimToken] at ht
    have hunissued {e : EventRow} (he : e ∈ db.events) : db.nextUuid ∉ e.claimToken :=
      fun hmem ↦ lt_irrefl _ (hI.token_issued e he _ hmem)
    obtain ⟨d₁, hd₁, hid₁, hcase₁⟩ := hold he₁ ht₁
    obtain ⟨d₂, hd₂, hid₂, hcase₂⟩ := hold he₂ ht₂
    refine eventRow_eq_of_id he₁ he₂ ?_
    rw [hid₁, hid₂]
    rcases hcase₁ with hmem₁ | ⟨rfl, hrow₁⟩ <;> rcases hcase₂ with hmem₂ | ⟨heq₂, hrow₂⟩
    · rw [hI.token_unique d₁ hd₁ d₂ hd₂ t hmem₁ hmem₂]
    · exact absurd (heq₂ ▸ hmem₁) (hunissued hd₁)
    · exact absurd hmem₂ (hunissued hd₂)
    · rw [hrow₁, hrow₂]

theorem Effects.integrity (h : Effects config now P db db') (hI : db.Integrity) :
    db'.Integrity :=
  invariant_chain (fun _ _ heff hI ↦ heff.integrity hI) h hI

/-! ## Claims and states of an event -/

/-- An event has a claim exactly while it is processed, and its attempts are bounded. -/
structure EventRow.Shape (maxAttempts : ℕ) (e : EventRow) : Prop where
  claimToken : e.claimToken.isSome = true ↔ e.status = .processing
  claimedFenceVersion : e.claimedFenceVersion.isSome = true ↔ e.status = .processing
  lockUntil : e.lockUntil.isSome = true ↔ e.status = .processing
  lockedBy : e.lockedBy.isSome = true ↔ e.status = .processing
  attempts : e.attemptCount ≤ maxAttempts

theorem EventRow.Released.shape {maxAttempts : ℕ} {e : EventRow} (h : e.Released)
    (hattempts : e.attemptCount ≤ maxAttempts) : e.Shape maxAttempts := by
  have hfalse {α : Type} {o : Option α} (ho : o = none) :
      o.isSome = true ↔ e.status = .processing := by
    simp only [ho, Option.isSome_none, Bool.false_eq_true, h.status]
  exact ⟨hfalse h.claimToken, hfalse h.claimedFenceVersion, hfalse h.lockUntil,
    hfalse h.lockedBy, hattempts⟩

theorem EventRow.Shape.settles {maxAttempts : ℕ} {e e' : EventRow} (h : e.Shape maxAttempts)
    (hsettles : e.Settles e') : e'.Shape maxAttempts := by
  rcases hsettles.change with rfl | ⟨-, hreleased⟩ | ⟨hproc, t, rfl⟩
  · exact h
  · refine hreleased.shape ?_
    rw [hsettles.attempts_eq]
    exact h.attempts
  · exact ⟨h.claimToken, h.claimedFenceVersion, by simp [hproc], h.lockedBy, h.attempts⟩

theorem EventRow.Claims.shape {token : Uuid} {e e' : EventRow}
    (h : e.Claims config now token e') : e'.Shape config.maxAttempts where
  claimToken := by simp [h.claimToken, h.status]
  claimedFenceVersion := by simp [h.claimedFenceVersion, h.status]
  lockUntil := by simp [h.lockUntil, h.status]
  lockedBy := by simp [h.lockedBy, h.status]
  attempts := by
    rw [h.attempts]
    exact h.due.1

theorem Effect.shape (h : Effect config now P db db')
    (hI : ∀ e ∈ db.events, e.Shape config.maxAttempts) :
    ∀ e ∈ db'.events, e.Shape config.maxAttempts := by
  obtain ⟨rowId, hevents⟩ := h.events_evolve
  refine hevents.forall_mem hI (fun e e' hstep hshape ↦ ?_) fun e hnew ↦ ?_
  · rcases hstep with hsettles | ⟨-, -, hclaims, -⟩
    · exact hshape.settles hsettles
    · exact hclaims.shape
  · exact hnew.2.1.toReleased.shape (by rw [hnew.2.1.attempts]; exact Nat.zero_le _)

/-! ## What is never undone -/

/-- The later version of an event: the same event, and the same row once it is closed. -/
structure EventRow.Later (e e' : EventRow) : Prop where
  key_eq : e'.toEventKey = e.toEventKey
  closed : e.status.isOpen = false → e' = e

/-- Rows stay, generations grow, and closed events stay closed. -/
structure Db.Later (db db' : Db) : Prop where
  sessions : ∀ s ∈ db.sessions, ∃ s' ∈ db'.sessions, s.Grows s'
  cycles : ∀ c ∈ db.cycles, ∃ c' ∈ db'.cycles, c'.toCycleKey = c.toCycleKey
  events : ∀ e ∈ db.events, ∃ e' ∈ db'.events, e.Later e'

theorem Db.Later.refl (db : Db) : db.Later db where
  sessions s hs := ⟨s, hs, .refl s⟩
  cycles c hc := ⟨c, hc, rfl⟩
  events e he := ⟨e, he, rfl, fun _ ↦ rfl⟩

theorem Db.Later.trans {db'' : Db} (h : db.Later db') (h' : db'.Later db'') :
    db.Later db'' where
  sessions s hs := by
    obtain ⟨s', hs', hgrow⟩ := h.sessions s hs
    obtain ⟨s'', hs'', hgrow'⟩ := h'.sessions s' hs'
    exact ⟨s'', hs'', hgrow.trans hgrow'⟩
  cycles c hc := by
    obtain ⟨c', hc', hkey⟩ := h.cycles c hc
    obtain ⟨c'', hc'', hkey'⟩ := h'.cycles c' hc'
    exact ⟨c'', hc'', hkey'.trans hkey⟩
  events e he := by
    obtain ⟨e', he', hlater⟩ := h.events e he
    obtain ⟨e'', he'', hlater'⟩ := h'.events e' he'
    refine ⟨e'', he'', hlater'.key_eq.trans hlater.key_eq, fun hclosed ↦ ?_⟩
    obtain rfl := hlater.closed hclosed
    exact hlater'.closed hclosed

theorem Effect.later (h : Effect config now P db db') : db.Later db' where
  sessions := h.sessions_evolve.forward
  cycles := h.cycles_evolve.forward
  events e he := by
    obtain ⟨rowId, hevents⟩ := h.events_evolve
    obtain ⟨e', he', hstep⟩ := hevents.forward e he
    refine ⟨e', he', hstep.key_eq, fun hclosed ↦ ?_⟩
    rcases hstep with hsettles | ⟨-, -, hclaims, -⟩
    · exact hsettles.eq_of_closed hclosed
    · simp [hclaims.due.isOpen] at hclosed

theorem Effects.later (h : Effects config now P db db') : db.Later db' := by
  induction h with
  | refl => exact .refl db
  | tail _ heff ih => exact ih.trans heff.later

theorem Db.Later.reached (h : db.Later db') {gatewayId sessionId : String} {generation : ℕ}
    (hreached : db.Reached gatewayId sessionId generation) :
    db'.Reached gatewayId sessionId generation := by
  obtain ⟨s, hs, rfl, rfl, g, hcur, hle⟩ := hreached
  obtain ⟨s', hs', hgrow⟩ := h.sessions s hs
  obtain ⟨g', hcur', hle'⟩ := hgrow.generation g hcur
  exact ⟨s', hs', congrArg SessionKey.gatewayId hgrow.key_eq,
    congrArg SessionKey.sessionId hgrow.key_eq, g', hcur', hle.trans hle'⟩

end LlmGateway
