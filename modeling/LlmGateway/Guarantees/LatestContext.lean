import LlmGateway.System.Run
import LlmGateway.System.Scenario
import Mathlib.Data.List.MinMax

/-!
# The latest context of a cycle

`persist_lease_context` replaces the context of a cycle whatever the position of its event is. In
runs in which it stores no context behind one of the same cycle that is newer, each cycle holds
the context of its newest persisted event, and no decision for a newer lease is cancelled
(`latestStored_iff`).
-/

namespace LlmGateway

open Relational

/-- The latest lease of the cycle is the one of the context. -/
def CycleRow.Holds (cycle : CycleRow) (context : AgentContext) : Prop :=
  cycle.latestStateVersion = some context.stateVersion ∧
    cycle.latestDecisionLeaseId = some context.decisionLeaseId ∧
      cycle.latestDecisionContext = some context

instance (cycle : CycleRow) (context : AgentContext) : Decidable (cycle.Holds context) :=
  inferInstanceAs (Decidable (_ ∧ _))

/-- The same cycle, with the same latest lease. -/
structure CycleRow.KeepsLatest (c c' : CycleRow) : Prop where
  key_eq : c'.toCycleKey = c.toCycleKey
  stateVersion_eq : c'.latestStateVersion = c.latestStateVersion
  leaseId_eq : c'.latestDecisionLeaseId = c.latestDecisionLeaseId
  context_eq : c'.latestDecisionContext = c.latestDecisionContext

section Effects

variable {config : WorkerConfig} {now : ℕ} {P : Branch → Prop} {db db' : Db} {c c' c'' : CycleRow}
  {context : AgentContext}

theorem CycleRow.KeepsLatest.refl (c : CycleRow) : c.KeepsLatest c := ⟨rfl, rfl, rfl, rfl⟩

theorem CycleRow.KeepsLatest.trans (h : c.KeepsLatest c') (h' : c'.KeepsLatest c'') :
    c.KeepsLatest c'' :=
  ⟨h'.key_eq.trans h.key_eq, h'.stateVersion_eq.trans h.stateVersion_eq,
    h'.leaseId_eq.trans h.leaseId_eq, h'.context_eq.trans h.context_eq⟩

theorem CycleRow.KeepsLatest.holds (h : c.KeepsLatest c') (hholds : c.Holds context) :
    c'.Holds context :=
  ⟨h.stateVersion_eq.trans hholds.1, h.leaseId_eq.trans hholds.2.1,
    h.context_eq.trans hholds.2.2⟩

/-- A cycle is in a table, up to what its latest lease does not depend on. -/
def Db.KeepsLatest (db : Db) (c : CycleRow) : Prop := ∃ c' ∈ db.cycles, c.KeepsLatest c'

theorem Db.updateCycles_keepsLatest (db : Db) (w : CycleRow → Prop) [DecidablePred w]
    (a : Assignment CycleRow) (hc : c ∈ db.cycles) (hset : w c → c.KeepsLatest (a.set c)) :
    (db.updateCycles w a).KeepsLatest c := by
  by_cases hw : w c
  · exact ⟨a.set c, Table.set_mem_update hc hw, hset hw⟩
  · exact ⟨c, Table.mem_update_of_not hc hw, .refl c⟩

/-- Only a persistence for the cycle changes its latest lease. -/
theorem Effect.keepsLatest (h : Effect config now P db db') (hc : c ∈ db.cycles)
    (hP : ∀ claim, P (.persist claim) → claim.cycleId ≠ c.id) : db'.KeepsLatest c := by
  have hsame : db.KeepsLatest c := ⟨c, hc, .refl c⟩
  cases h with
  | outbox hstep =>
    unfold Db.KeepsLatest
    rw [hstep.cycles_eq]
    exact hsame
  | insertCycle hinsert _ _ _ _ => exact ⟨c, (Table.mem_of_insert? hinsert).2 (Or.inl hc), .refl c⟩
  | @activate j _ _ =>
    obtain ⟨c₁, hc₁, hkeeps⟩ := db.updateCycles_keepsLatest
      (fun c ↦ c.runtimeSessionId = j.session.id ∧ c.id ≠ j.event.cycleId ∧
        c.controlGeneration < j.event.controlGeneration ∧
          (c.status = .pending ∨ c.status = .active))
      (Db.setCycleStatus .superseded) hc fun _ ↦ ⟨rfl, rfl, rfl, rfl⟩
    obtain ⟨c₂, hc₂, hkeeps'⟩ := Db.updateCycles_keepsLatest _ (fun c ↦ c.id = j.event.cycleId)
      (Db.setCycleStatus .active) hc₁ fun _ ↦ ⟨rfl, rfl, rfl, rfl⟩
    exact ⟨c₂, hc₂, hkeeps.trans hkeeps'⟩
  | @activatePending j _ _ _ =>
    unfold LlmGateway.activatePending
    split_ifs
    · exact db.updateCycles_keepsLatest (fun c ↦ c.id = j.event.cycleId)
        (Db.setCycleStatus .active) hc fun _ ↦ ⟨rfl, rfl, rfl, rfl⟩
    · exact hsame
  | supersede => exact db.updateCycles_keepsLatest _ _ hc fun _ ↦ ⟨rfl, rfl, rfl, rfl⟩
  | wait => exact db.updateCycles_keepsLatest _ _ hc fun _ ↦ ⟨rfl, rfl, rfl, rfl⟩
  | markManual => exact db.updateCycles_keepsLatest _ _ hc fun _ ↦ ⟨rfl, rfl, rfl, rfl⟩
  | close w a hcloses _ =>
    refine db.updateCycles_keepsLatest w a hc fun hw ↦ ?_
    obtain ⟨-, -, hlease, hversion, hcontext, -⟩ := hcloses c hc hw
    exact ⟨a.key_set c, hversion, hlease, hcontext⟩
  | cursor w a hmoves _ _ =>
    refine db.updateCycles_keepsLatest w a hc fun hw ↦ ?_
    obtain ⟨n, hset⟩ := hmoves c hc hw
    rw [hset]
    exact ⟨rfl, rfl, rfl, rfl⟩
  | @context claim _ htaken =>
    exact db.updateCycles_keepsLatest _ _ hc fun hid ↦ absurd hid.symm (hP claim htaken)
  | _ => exact hsame

theorem Effects.keepsLatest (h : Effects config now P db db') (hc : c ∈ db.cycles)
    (hP : ∀ claim, P (.persist claim) → claim.cycleId ≠ c.id) : db'.KeepsLatest c := by
  induction h with
  | refl => exact ⟨c, hc, .refl c⟩
  | tail _ heffect ih =>
    obtain ⟨c', hc', hkeeps⟩ := ih
    have hid : c'.id = c.id := congrArg CycleKey.id hkeeps.key_eq
    obtain ⟨c'', hc'', hkeeps'⟩ := heffect.keepsLatest hc' (hid ▸ hP)
    exact ⟨c'', hc'', hkeeps.trans hkeeps'⟩

end Effects

namespace World

variable {config : SystemConfig} {w : World} {a : Action} {c : ClaimedEvent}
  {context : AgentContext} {entry : PersistEntry}

/-- No context of a newer event was persisted in the cycle. -/
def IsNewest (w : World) (entry : PersistEntry) : Prop :=
  ∀ other ∈ w.persisted, other.claim.cycleId = entry.claim.cycleId →
    other.claim.eventSequence ≤ entry.claim.eventSequence

/-- Each cycle holds the context of its newest persisted event. -/
def LatestStored (w : World) : Prop :=
  ∀ entry ∈ w.persisted, w.IsNewest entry →
    ∃ cycle ∈ w.db.cycles, cycle.id = entry.claim.cycleId ∧ cycle.Holds entry.context

instance (w : World) (entry : PersistEntry) : Decidable (w.IsNewest entry) :=
  inferInstanceAs (Decidable (∀ _ ∈ _, _ → _))

instance (w : World) : Decidable w.LatestStored :=
  inferInstanceAs (Decidable (∀ _ ∈ _, _ → ∃ _ ∈ _, _))

/-- The claim is held, its fence is the current one and no cast fails: the context is stored. -/
structure Persists (w : World) (c : ClaimedEvent) (context : AgentContext) : Prop where
  built : buildAgentContext c.event = some context
  agrees : context.Matches c
  range : ¬bigintMax < context.stateVersion
  locked : ∃ j, w.db.lockClaim c = some j ∧ j.Persistable c
  casts : ¬w.db.supersedeCastFails c context

/-- A context of a newer event was persisted in the cycle. -/
def Behind (w : World) (c : ClaimedEvent) : Prop :=
  ∃ entry ∈ w.persisted, entry.claim.cycleId = c.cycleId ∧
    c.eventSequence < entry.claim.eventSequence

/-- The action stores a context behind a newer one. -/
def PersistsLate (w : World) (a : Action) : Prop :=
  ∃ token c context, a = .persist token ∧ w.claim? token = some c ∧ w.Persists c context ∧
    w.Behind c

/-- The decision answers the lease of a newer event. -/
def ForNewerLease (w : World) (c : ClaimedEvent) (d : DecisionRow) : Prop :=
  ∃ entry ∈ w.persisted, entry.claim.cycleId = c.cycleId ∧
    c.eventSequence < entry.claim.eventSequence ∧
      d.decisionLeaseId = entry.context.decisionLeaseId ∧
        d.stateVersion = entry.context.stateVersion

/-- The persistence of a context cancels a decision for a newer lease. -/
def CancelsNewer (config : SystemConfig) (w : World) (a : Action) : Prop :=
  ∃ token c, a = .persist token ∧ w.claim? token = some c ∧
    ∃ d ∈ w.db.decisions, d.cycleId = c.cycleId ∧ d.status.isUnsent = true ∧
      w.ForNewerLease c d ∧
        ∃ d' ∈ (w.exec config a).db.decisions, d'.id = d.id ∧ d'.status = .cancelled

/-- What the log says of a persisted context. -/
def Logged (w : World) : Prop :=
  ∀ entry ∈ w.persisted, entry.claim ∈ w.claims ∧
    buildAgentContext entry.claim.event = some entry.context ∧
      entry.context.eventSequence = entry.claim.eventSequence

/-! ## One persistence -/

/-- The database after `persist_lease_context`. -/
def storeLease (w : World) (c : ClaimedEvent) (context : AgentContext) : Db :=
  (((w.db.persistContext c.cycleId context).cancelOlderLeaseDecisions c.cycleId
    context).supersedeOlderLeaseEvents c context).skipCompletedConvergenceEvents c.cycleId

theorem Persists.persist_eq (h : w.Persists c context) : w.persist c =
    { w with db := w.storeLease c context, persisted := w.persisted ++ [⟨c, context⟩] } := by
  obtain ⟨j, hlock, hpersistable⟩ := h.locked
  have hfilter : ((w.db.lockClaim c).filter fun j ↦ j.Persistable c) = some j := by
    rw [hlock]
    exact Option.filter_eq_some_iff.2 ⟨rfl, decide_eq_true hpersistable⟩
  have hresult : persistLeaseContext c context w.db = .ok (true, w.storeLease c context) := by
    rw [persistLeaseContext, if_neg (not_not.2 h.agrees), if_neg h.range, hfilter]
    exact if_neg h.casts
  simp only [persist, h.built, hresult]

theorem persists_of_persistLeaseContext {db' : Db} (hbuilt : buildAgentContext c.event = some context)
    (h : persistLeaseContext c context w.db = .ok (true, db')) : w.Persists c context := by
  unfold persistLeaseContext at h
  by_cases hmatches : context.Matches c
  case neg =>
    rw [if_pos hmatches] at h
    cases h
  by_cases hrange : bigintMax < context.stateVersion
  case pos =>
    rw [if_neg (not_not.2 hmatches), if_pos hrange] at h
    cases h
  rw [if_neg (not_not.2 hmatches), if_neg hrange] at h
  cases hlock : (w.db.lockClaim c).filter fun j ↦ j.Persistable c with
  | none =>
    rw [hlock] at h
    cases h
  | some j =>
    rw [hlock] at h
    simp only at h
    split_ifs at h with hcast
    obtain ⟨hlock, hpersistable⟩ := Option.filter_eq_some_iff.1 hlock
    exact ⟨hbuilt, hmatches, hrange, ⟨j, hlock, of_decide_eq_true hpersistable⟩, hcast⟩

theorem persist_of_not (h : ∀ context, ¬w.Persists c context) : w.persist c = w := by
  unfold persist
  cases hbuilt : buildAgentContext c.event with
  | none => rfl
  | some context =>
    simp only
    split
    · rename_i hresult
      exact absurd (persists_of_persistLeaseContext hbuilt hresult) (h context)
    · rename_i hresult
      cases persistLeaseContext_cases hresult with
      | inl hlost => rw [hlost.2]
      | inr hstored => cases hstored.1
    · rfl

/-- The cycle of the event holds its context. -/
theorem Persists.holds (h : w.Persists c context) (hw : w.Sound config) :
    ∃ cycle ∈ (w.storeLease c context).cycles, cycle.id = c.cycleId ∧ cycle.Holds context := by
  obtain ⟨j, hlock, hpersistable⟩ := h.locked
  have hlinked := hw.integrity.linked (lockClaim_eq_some.1 hlock).1
  have hid : j.cycle.id = c.cycleId := hlinked.cycle_id.trans hpersistable.1
  have hmem : { j.cycle with
      latestStateVersion := some context.stateVersion
      latestDecisionLeaseId := some context.decisionLeaseId
      latestDecisionContext := some context } ∈ (w.db.persistContext c.cycleId context).cycles :=
    Table.set_mem_update hlinked.cycle_mem hid
  have hskip : (w.storeLease c context).KeepsLatest _ :=
    Db.updateCycles_keepsLatest _ _ _ hmem fun _ ↦ ⟨rfl, rfl, rfl, rfl⟩
  obtain ⟨cycle, hcycle, hkeeps⟩ := hskip
  exact ⟨cycle, hcycle, (congrArg CycleKey.id hkeeps.key_eq).trans hid,
    hkeeps.holds ⟨rfl, rfl, rfl⟩⟩

/-! ## The log -/

theorem exec_persisted (h : ∀ token, a ≠ .persist token) :
    (w.exec config a).persisted = w.persisted := by
  refine exec_frame World.persisted (fun _ _ ↦ rfl) ?_ ?_ ?_ ?_ ?_
  · rintro ms rfl
    rfl
  · rintro identity traceId events rfl
    exact acceptBatch_frame World.persisted (fun _ _ _ ↦ rfl) identity traceId events
  · rintro workerId busy rfl
    exact claimPass_frame World.persisted (fun _ _ _ ↦ rfl) workerId busy
  · rintro token rfl
    exact absurd rfl (h token)
  · rintro workerId rfl
    exact claimDecision_frame World.persisted (fun _ _ _ ↦ rfl) workerId

/-- An action stores a context, or leaves the log and the latest leases alone. -/
theorem exec_persist_cases (config : SystemConfig) (w : World) (a : Action) :
    (∃ token c context, a = .persist token ∧ w.claim? token = some c ∧ w.Persists c context ∧
      w.exec config a =
        { w with db := w.storeLease c context, persisted := w.persisted ++ [⟨c, context⟩] }) ∨
      ((w.exec config a).persisted = w.persisted ∧
        (∀ token c context, a = .persist token → w.claim? token = some c →
          ¬w.Persists c context) ∧
        ((∃ token, a = .persist token) → w.exec config a = w)) := by
  by_cases hpersist : ∃ token, a = .persist token
  · obtain ⟨token, rfl⟩ := hpersist
    cases hclaim : w.claim? token with
    | none =>
      have hexec : w.exec config (.persist token) = w := by
        simp only [exec, withClaim, hclaim, Option.elim]
      refine Or.inr ⟨congrArg World.persisted hexec, fun token' c context htoken hc ↦ ?_,
        fun _ ↦ hexec⟩
      cases htoken
      cases hclaim.symm.trans hc
    | some c =>
      have hexec : w.exec config (.persist token) = w.persist c := by
        simp only [exec, withClaim, hclaim, Option.elim]
      by_cases hcommits : ∃ context, w.Persists c context
      · obtain ⟨context, hcommits⟩ := hcommits
        exact Or.inl ⟨token, c, context, rfl, hclaim, hcommits, hexec.trans hcommits.persist_eq⟩
      · push Not at hcommits
        rw [hexec, persist_of_not hcommits]
        refine Or.inr ⟨rfl, fun token' c' context htoken hc ↦ ?_, fun _ ↦ rfl⟩
        cases htoken
        cases hclaim.symm.trans hc
        exact hcommits context
  · push Not at hpersist
    exact Or.inr ⟨exec_persisted hpersist, fun token c context h ↦ absurd h (hpersist token),
      fun h ↦ h.elim fun token htoken ↦ absurd htoken (hpersist token)⟩

/-- Claims are not forgotten. -/
theorem mem_exec_claims (hc : c ∈ w.claims) : c ∈ (w.exec config a).claims := by
  by_cases hclaim : w.Takes config a .claim
  · obtain ⟨_, _, _, _, -, -, -, -, -, hclaims, -⟩ := exec_claimed hclaim
    rw [hclaims]
    exact List.mem_append_left _ hc
  · rwa [exec_claims hclaim]

theorem exec_logged (h : w.Logged) : (w.exec config a).Logged := by
  intro entry hentry
  have hold (hentry : entry ∈ w.persisted) : entry.claim ∈ (w.exec config a).claims ∧
      buildAgentContext entry.claim.event = some entry.context ∧
        entry.context.eventSequence = entry.claim.eventSequence :=
    ⟨mem_exec_claims (h entry hentry).1, (h entry hentry).2⟩
  rcases exec_persist_cases config w a with
    ⟨token, c, context, -, hclaim, hcommits, hexec⟩ | ⟨hpersisted, -, -⟩
  · rw [congrArg World.persisted hexec] at hentry
    cases List.mem_append.1 hentry with
    | inl hentry => exact hold hentry
    | inr hnew =>
      rw [List.mem_singleton.1 hnew]
      exact ⟨mem_exec_claims (mem_claims_of_claim? hclaim), hcommits.built,
        hcommits.agrees.2.2.2⟩
  · rw [hpersisted] at hentry
    exact hold hentry

/-- Claims of one position of a cycle are claims of the same event. -/
theorem Sound.event_eq (hw : w.Sound config) {c' : ClaimedEvent} (hc : c ∈ w.claims)
    (hc' : c' ∈ w.claims) (hcycle : c.cycleId = c'.cycleId)
    (hsequence : c.eventSequence = c'.eventSequence) : c.event = c'.event := by
  obtain ⟨e, he, hdesc⟩ := hw.describes c hc
  obtain ⟨e', he', hdesc'⟩ := hw.describes c' hc'
  have heq : e = e' := hw.integrity.eventRow_eq_of_position he he'
    (hdesc.cycleId.symm.trans (hcycle.trans hdesc'.cycleId))
    (hdesc.eventSequence.symm.trans (hsequence.trans hdesc'.eventSequence))
  rw [hdesc.event, hdesc'.event, heq]

theorem exists_newest (hentry : entry ∈ w.persisted) : ∃ newest ∈ w.persisted,
    newest.claim.cycleId = entry.claim.cycleId ∧
      entry.claim.eventSequence ≤ newest.claim.eventSequence ∧ w.IsNewest newest := by
  have hmem {other : PersistEntry} (hother : other ∈ w.persisted)
      (hcycle : other.claim.cycleId = entry.claim.cycleId) :
      other ∈ w.persisted.filter fun other ↦ other.claim.cycleId = entry.claim.cycleId :=
    List.mem_filter.2 ⟨hother, decide_eq_true hcycle⟩
  cases hmax : (w.persisted.filter fun other ↦
      other.claim.cycleId = entry.claim.cycleId).argmax fun other ↦ other.claim.eventSequence with
  | none => exact absurd (hmem hentry rfl) (List.argmax_eq_none.1 hmax ▸ List.not_mem_nil)
  | some newest =>
    have hmax := Option.mem_def.2 hmax
    obtain ⟨hnewest, hcycle⟩ := List.mem_filter.1 (List.argmax_mem hmax)
    have hcycle := of_decide_eq_true hcycle
    have hle {other : PersistEntry} (hother : other ∈ w.persisted)
        (hsame : other.claim.cycleId = entry.claim.cycleId) :=
      List.le_of_mem_argmax (hmem hother hsame) hmax
    exact ⟨newest, hnewest, hcycle, hle hentry rfl,
      fun other hother hsame ↦ hle hother (hsame.trans hcycle)⟩

/-! ## One action -/

theorem exec_keepsLatest (hw : w.Sound config) {cycle : CycleRow} (hcycle : cycle ∈ w.db.cycles)
    (hne : ∀ token c, a = .persist token → w.claim? token = some c → c.cycleId ≠ cycle.id) :
    (w.exec config a).db.KeepsLatest cycle := by
  refine (exec_effects (P := w.Takes config a) hw fun _ h ↦ h).keepsLatest hcycle
    fun claim htakes ↦ ?_
  cases htakes with
  | persist hissued => exact hne _ _ rfl hissued

/-- A persistence keeps the newest contexts in the cycles unless it comes behind a newer one. -/
theorem exec_persist_latestStored_iff (hw : w.Sound config) (hlogged : w.Logged)
    (h : w.LatestStored) {token : Uuid} (hclaim : w.claim? token = some c)
    (hcommits : w.Persists c context)
    (hdb : (w.exec config (.persist token)).db = w.storeLease c context)
    (hpersisted : (w.exec config (.persist token)).persisted = w.persisted ++ [⟨c, context⟩]) :
    (w.exec config (.persist token)).LatestStored ↔ ¬w.Behind c := by
  have hc := mem_claims_of_claim? hclaim
  have hstored := hcommits.holds hw
  rw [← hdb] at hstored
  constructor
  · intro hlatest hbehind
    obtain ⟨entry, hentry, hcycle, hlt⟩ := hbehind
    obtain ⟨newest, hnewest, hsame, hle, hmax⟩ :=
      exists_newest (hpersisted ▸ List.mem_append_left _ hentry)
    obtain ⟨cycle, hmem, hid, hholds⟩ := hlatest newest hnewest hmax
    obtain ⟨cycle', hmem', hid', hholds'⟩ := hstored
    obtain rfl := cycleRow_eq_of_id hmem hmem' (by rw [hid, hid', hsame, hcycle])
    have hcontext : newest.context = context :=
      Option.some.inj (hholds.2.2.symm.trans hholds'.2.2)
    have hsequence := (exec_logged hlogged newest hnewest).2.2
    rw [hcontext, hcommits.agrees.2.2.2] at hsequence
    omega
  · intro hbehind entry hentry hnewest
    have hlogged' : (w.exec config (.persist token)).Logged := exec_logged hlogged
    have hlog := hlogged' entry hentry
    have hnew : ⟨c, context⟩ ∈ (w.exec config (.persist token)).persisted :=
      hpersisted ▸ List.mem_append_right _ List.mem_cons_self
    by_cases hsame : entry.claim.cycleId = c.cycleId
    · have hle := hnewest _ hnew hsame.symm
      have hge : entry.claim.eventSequence ≤ c.eventSequence := by
        rw [hpersisted] at hentry
        cases List.mem_append.1 hentry with
        | inl hold => exact not_lt.1 fun hlt ↦ hbehind ⟨entry, hold, hsame, hlt⟩
        | inr hlast => rw [List.mem_singleton.1 hlast]
      have hevent := (exec_sound hw).event_eq hlog.1 (mem_exec_claims hc) hsame
        (le_antisymm hge hle)
      have hcontext : entry.context = context := by
        rw [← Option.some_inj, ← hlog.2.1, hevent, hcommits.built]
      rw [hsame, hcontext]
      exact hstored
    · rw [hpersisted] at hentry
      have hold : entry ∈ w.persisted := (List.mem_append.1 hentry).resolve_right fun hlast ↦
        hsame (by rw [List.mem_singleton.1 hlast])
      obtain ⟨cycle, hcycle, hid, hholds⟩ := h entry hold fun other hother ↦
        hnewest other (hpersisted ▸ List.mem_append_left _ hother)
      obtain ⟨cycle', hcycle', hkeeps⟩ := exec_keepsLatest (a := .persist token) hw hcycle
        fun token' c' htoken hclaim' heq ↦ by
          cases htoken
          cases hclaim.symm.trans hclaim'
          exact hsame (hid.symm.trans heq.symm)
      exact ⟨cycle', hcycle', (congrArg CycleKey.id hkeeps.key_eq).trans hid, hkeeps.holds hholds⟩

theorem exec_latestStored_iff (hw : w.Sound config) (hlogged : w.Logged) (h : w.LatestStored) :
    (w.exec config a).LatestStored ↔ ¬w.PersistsLate a := by
  rcases exec_persist_cases config w a with
    ⟨token, c, context, rfl, hclaim, hcommits, hexec⟩ | ⟨hpersisted, hnot, hsame⟩
  · rw [exec_persist_latestStored_iff hw hlogged h hclaim hcommits (congrArg World.db hexec)
      (congrArg World.persisted hexec), not_iff_not]
    constructor
    · exact fun hbehind ↦ ⟨token, c, context, rfl, hclaim, hcommits, hbehind⟩
    · intro hlate
      obtain ⟨token', c', context', htoken, hclaim', -, hbehind⟩ := hlate
      cases htoken
      cases hclaim.symm.trans hclaim'
      exact hbehind
  · refine iff_of_true ?_ ?_
    · by_cases hpersist : ∃ token, a = .persist token
      · rwa [hsame hpersist]
      · intro entry hentry hnewest
        unfold IsNewest at hnewest
        rw [hpersisted] at hentry hnewest
        obtain ⟨cycle, hcycle, hid, hholds⟩ := h entry hentry hnewest
        obtain ⟨cycle', hcycle', hkeeps⟩ := exec_keepsLatest hw hcycle
          fun token c htoken ↦ absurd ⟨token, htoken⟩ hpersist
        exact ⟨cycle', hcycle', (congrArg CycleKey.id hkeeps.key_eq).trans hid,
          hkeeps.holds hholds⟩
    · intro hlate
      obtain ⟨token, c, context, htoken, hclaim, hcommits, -⟩ := hlate
      exact hnot token c context htoken hclaim hcommits

/-- Only a persistence behind a newer one cancels a decision for a newer lease. -/
theorem CancelsNewer.persistsLate (h : w.CancelsNewer config a) : w.PersistsLate a := by
  obtain ⟨token, c, rfl, hclaim, d, hd, -, hunsent, hnewer, d', hd', hid, hcancelled⟩ := h
  obtain ⟨entry, hentry, hcycle, hlt, -⟩ := hnewer
  rcases exec_persist_cases config w (.persist token) with
    ⟨token', c', context, htoken, hclaim', hcommits, -⟩ | ⟨-, -, hsame⟩
  · cases htoken
    cases hclaim.symm.trans hclaim'
    exact ⟨token, c, context, rfl, hclaim, hcommits, entry, hentry, hcycle, hlt⟩
  · rw [hsame ⟨token, rfl⟩] at hd'
    rw [decisionRow_eq_of_id hd' hd hid] at hcancelled
    rw [hcancelled] at hunsent
    cases hunsent

/-! ## Runs -/

/-- What a run keeps as long as its persistences are in order. -/
structure InOrder (config : SystemConfig) (w : World) : Prop where
  sound : w.Sound config
  logged : w.Logged
  latest : w.LatestStored

theorem exec_inOrder_iff (h : w.InOrder config) :
    (w.exec config a).InOrder config ↔ ¬w.PersistsLate a := by
  rw [← exec_latestStored_iff h.sound h.logged h.latest]
  exact ⟨InOrder.latest, fun hlatest ↦ ⟨exec_sound h.sound, exec_logged h.logged, hlatest⟩⟩

/-- In all states of a run each cycle holds the context of its newest persisted event, and no step
cancels a decision for a newer lease, exactly if no step stores a context behind a newer one. -/
theorem latestStored_iff (config : SystemConfig) (entropy : ℕ → ℕ) (actions : List Action) :
    ((∀ taken, taken <+: actions →
        (run (exec config) (initial entropy) taken).LatestStored) ∧
      Guarded (exec config) (fun w a ↦ ¬w.CancelsNewer config a) (initial entropy) actions) ↔
      Guarded (exec config) (fun w a ↦ ¬w.PersistsLate a) (initial entropy) actions := by
  have hinitial : (initial entropy).InOrder config :=
    ⟨initial_sound entropy, fun _ h ↦ absurd h List.not_mem_nil,
      fun _ h ↦ absurd h List.not_mem_nil⟩
  have hiff := guarded_iff_invariant (I := InOrder config) (C := fun w a ↦ ¬w.PersistsLate a)
    (fun _ _ h ↦ exec_inOrder_iff h) hinitial actions
  constructor
  · intro h
    refine hiff.2 fun taken htaken ↦ ⟨run_sound hinitial.sound taken, ?_, h.1 taken htaken⟩
    exact invariant_run (fun _ _ ↦ exec_logged) hinitial.logged taken
  · intro h
    refine ⟨fun taken htaken ↦ (hiff.1 h taken htaken).latest, ?_⟩
    exact guarded_of_guarded (I := fun _ ↦ True) (fun _ _ _ _ ↦ trivial)
      (fun _ _ _ hlate hcancels ↦ hlate hcancels.persistsLate) trivial h

section Example

open Scenario

/-- The observation behind a gap is persisted and decided, then the gap is filled and claimed. -/
def gapFilled : List Action :=
  [submit [sessionStarted "e1" 1 "L1" 1], claim, .persist (token 3), finish 3,
    submit [observation "e3" 1 3 "L3" 3], claim, .persist (token 5),
    .plan (token 5) ⟨"stay", 100, .wait 10⟩ "d", finish 5,
    submit [observation "e2" 1 2 "L2" 2], claim]

/-- The observation of the gap overwrites the newer context, and cancels the decision for it. -/
theorem gapFilled_overwrites : ¬(after (gapFilled ++ [.persist (token 8)])).LatestStored ∧
    (after gapFilled).CancelsNewer Scenario.config (.persist (token 8)) := by
  have hclaims : ∃ c ∈ (after gapFilled).claims, (after gapFilled).claim? (token 8) = some c ∧
      ∃ d ∈ (after gapFilled).db.decisions, d.cycleId = c.cycleId ∧ d.status.isUnsent = true ∧
        (∃ entry ∈ (after gapFilled).persisted, entry.claim.cycleId = c.cycleId ∧
          c.eventSequence < entry.claim.eventSequence ∧
            d.decisionLeaseId = entry.context.decisionLeaseId ∧
              d.stateVersion = entry.context.stateVersion) ∧
        ∃ d' ∈ ((after gapFilled).exec Scenario.config (.persist (token 8))).db.decisions,
          d'.id = d.id ∧ d'.status = .cancelled := by
    decide
  obtain ⟨c, -, hclaim, hcancels⟩ := hclaims
  exact ⟨by decide, token 8, c, rfl, hclaim, hcancels⟩

end Example

end World

end LlmGateway
