import LlmGateway.System.World
import LlmGateway.Effect.Admission
import LlmGateway.Effect.Outbox
import LlmGateway.Effect.Reached

/-!
# Every transaction is a chain of effects

`World.Takes` lists the branches that a step takes, read off the state before it. A step is a
chain of effects that takes no other branches, so that an invariant of the effects is an
invariant of all runs, or of the runs that avoid some branches.
-/

namespace LlmGateway

open Relational

namespace World

/-- The branches of the transaction that an action takes in a state. -/
inductive Takes (config : SystemConfig) (w : World) : Action → Branch → Prop
  | chatActivation {workerId : String} {busy : List Uuid} {j : Joined}
      (candidate : w.db.claimCandidate config.events.maxAttempts w.now busy = some j)
      (chat : j.event.eventType.isHostedChat = true) (pending : j.cycle.status = .pending) :
      Takes config w (.claimPass workerId busy) (.chatActivation j)
  | wait {workerId : String} {busy : List Uuid} {j : Joined}
      (candidate : w.db.claimCandidate config.events.maxAttempts w.now busy = some j)
      (disposition : j.disposition = .wait) : Takes config w (.claimPass workerId busy) (.wait j)
  | claim {workerId : String} {busy : List Uuid} {c : ClaimedEvent}
      (handed : (LlmGateway.claimPass config.events w.now workerId busy w.db).1 = .claimed c) :
      Takes config w (.claimPass workerId busy) .claim
  | fenced {token : Uuid} {result : EventProcessResult} {c : ClaimedEvent} {j : Joined}
      (issued : w.claim? token = some c) (locked : w.db.lockClaim c = some j)
      (invalid : ¬j.ClaimValid j.event.claimedFenceVersion) :
      Takes config w (.complete token result) (.fenced j)
  | manual {token : Uuid} {result : EventProcessResult} {c : ClaimedEvent} {j : Joined}
      (issued : w.claim? token = some c) (locked : w.db.lockClaim c = some j)
      (valid : j.ClaimValid j.event.claimedFenceVersion) (outcome : result.outcome = .manual)
      (disposition : j.disposition ≠ .historicalRecovery)
      (sequenced : j.event.eventType.isHostedChat = false) :
      Takes config w (.complete token result) (.manual j)
  | sweptFenced {t : Db} {j : Joined} (mem : t ∈ sweepTrail config.events w.now w.db)
      (locked : t.lockExhaustedClaim config.events.maxAttempts w.now = some j)
      (invalid : ¬j.ClaimValid j.event.claimedFenceVersion) : Takes config w .sweep (.fenced j)
  | discard {maxAgeMs : ℕ} {t : Db} {j : Joined} (age : maxAgeMs ∈ config.eventStaleAfterMs)
      (casts : ¬w.db.StaleCastFails) (mem : t ∈ discardTrail maxAgeMs w.now w.db)
      (selected : j ∈ t.selectStaleEvents maxAgeMs w.now) : Takes config w .discard (.discard j)
  | persist {token : Uuid} {c : ClaimedEvent} (issued : w.claim? token = some c) :
      Takes config w (.persist token) (.persist c)
  | admission {identity : Identity} {traceId : String} {events : List GatewayEvent} :
      Takes config w (.acceptBatch identity traceId events) .admission

/-- What holds of the state of a run at all times. -/
structure Sound (config : SystemConfig) (w : World) : Prop where
  integrity : w.db.Integrity
  shape : ∀ e ∈ w.db.events, e.Shape config.events.maxAttempts
  describes : ∀ c ∈ w.claims, ∃ e ∈ w.db.events, c.Describes e.toEventKey
  issued : ∀ c ∈ w.claims, c.claimToken.serial < w.db.issued
  distinct : w.claims.Pairwise fun c c' ↦ c.claimToken ≠ c'.claimToken
  claimed : ∀ e ∈ w.db.events, ∀ t ∈ e.claimToken, ∃ c ∈ w.claims,
    c.claimToken = t ∧ c.rowId = e.id ∧ e.claimedFenceVersion = some c.claimedFenceVersion
  reached : w.db.GenerationsReached
  decisionClaims : ∀ c ∈ w.decisionClaims, ∃ d ∈ w.db.decisions, c.Describes d.toDecisionKey

variable {config : SystemConfig} {w : World} {P : Branch → Prop}

theorem mem_claims_of_claim? {token : Uuid} {c : ClaimedEvent} (h : w.claim? token = some c) :
    c ∈ w.claims :=
  List.mem_of_find?_eq_some h

/-- A claim describes the event it locks. -/
theorem Sound.describes_locked (hw : w.Sound config) {c : ClaimedEvent} (hc : c ∈ w.claims)
    {j : Joined} (hlock : w.db.lockClaim c = some j) : c.Describes j.event.toEventKey := by
  obtain ⟨e, he, hdesc⟩ := hw.describes c hc
  obtain ⟨hjoins, hid, -⟩ := lockClaim_eq_some.1 hlock
  rwa [eventRow_eq_of_id hjoins.event_mem he (hid.trans hdesc.rowId)]

theorem Sound.session_eq (hw : w.Sound config) {c : ClaimedEvent} (hc : c ∈ w.claims) :
    c.sessionId = c.event.sessionId := by
  obtain ⟨e, he, hdesc⟩ := hw.describes c hc
  rw [hdesc.sessionId, hdesc.event, (hw.integrity.event_sound e he).sessionId]

/-- The token of a claim identifies it. -/
theorem Sound.claim_eq (hw : w.Sound config) {c c' : ClaimedEvent} (hc : c ∈ w.claims)
    (hc' : c' ∈ w.claims) (htoken : c.claimToken = c'.claimToken) : c = c' := by
  by_contra hne
  have : Std.Symm fun c c' : ClaimedEvent ↦ c.claimToken ≠ c'.claimToken := ⟨fun _ _ ↦ Ne.symm⟩
  exact hw.distinct.forall hc hc' hne htoken

/-! ## Steps -/

theorem commit_effects {α : Type*} {now : ℕ} {result : Except Failure (α × Db)}
    (h : ∀ a db', result = .ok (a, db') → Effects config.events now P w.db db') :
    Effects config.events now P w.db (w.commit result).db := by
  unfold commit
  split
  · rename_i a db'
    exact h a db' rfl
  · exact .refl

theorem withClaim_effects {token : Uuid} {f : ClaimedEvent → World} {now : ℕ}
    (h : ∀ c, w.claim? token = some c → Effects config.events now P w.db (f c).db) :
    Effects config.events now P w.db (w.withClaim token f).db := by
  unfold withClaim
  rcases hclaim : w.claim? token with _ | c
  · exact .refl
  · exact h c hclaim

theorem withDecisionClaim_effects {token : Uuid} {f : ClaimedDecision → World} {now : ℕ}
    (h : ∀ c ∈ w.decisionClaims, Effects config.events now P w.db (f c).db) :
    Effects config.events now P w.db (w.withDecisionClaim token f).db := by
  unfold withDecisionClaim
  cases hclaim : w.decisionClaim? token with
  | none => exact .refl
  | some c => exact h c (List.mem_of_find?_eq_some hclaim)

theorem closeGeneration_effects {now : ℕ} {c : ClaimedEvent} {payload : SessionStoppedPayload}
    {result : MutationResult} {db' : Db} (hI : w.db.Integrity)
    (hdesc : ∀ j, w.db.lockClaim c = some j → c.Describes j.event.toEventKey)
    (h : closeGeneration c payload w.db = .ok (result, db')) :
    Effects config.events now P w.db db' := by
  rcases closeGeneration_cases h with rfl | ⟨j, hlock, hcurrent, hstep | ⟨t, hstep, rfl⟩⟩
  · exact .refl
  · exact .single (.outbox hstep)
  · obtain ⟨hjoins, -, hheld⟩ := lockClaim_eq_some.1 hlock
    have heffect : Effect config.events now P w.db t := .outbox hstep
    have hlinked := hI.linked hjoins
    refine .head heffect (stop_effects (heffect.integrity hI) ?_ hheld (hdesc j hlock) ?_)
    · refine ⟨⟨?_, ?_, ?_, hlinked.cycle_id, hlinked.session_id⟩, hlinked.cycle_owns,
        hlinked.session_owns⟩
      · rw [hstep.events_eq]
        exact hlinked.event_mem
      · rw [hstep.cycles_eq]
        exact hlinked.cycle_mem
      · rw [hstep.sessions_eq]
        exact hlinked.session_mem
    · rw [hcurrent.2.1, (hdesc j hlock).controlGeneration]

theorem recordTerminal_effects {now : ℕ} {c : ClaimedEvent} (hI : w.db.Integrity)
    (hsession : c.sessionId = c.event.sessionId)
    (hdesc : ∀ j, w.db.lockClaim c = some j → c.Describes j.event.toEventKey) :
    Effects config.events now P w.db (w.recordTerminal c).db := by
  unfold recordTerminal
  split
  · exact .single (.outbox (recordSkillStarted_step hsession _))
  · exact commit_effects fun _ _ h ↦ .single (.outbox (recordSkillFinished_step hsession h))
  · exact .single (.outbox (mergeDecisionRejected_step c _))
  · exact commit_effects fun _ _ h ↦ closeGeneration_effects hI hdesc h
  · exact .refl

theorem persist_effects {c : ClaimedEvent} {now : ℕ} (hI : w.db.Integrity)
    (hdesc : ∀ j, w.db.lockClaim c = some j → c.Describes j.event.toEventKey)
    (hpersist : P (.persist c)) : Effects config.events now P w.db (w.persist c).db := by
  unfold persist
  split
  · exact .refl
  · split
    · rename_i h
      exact persistLeaseContext_effects hI hdesc hpersist h
    · rename_i h
      exact persistLeaseContext_effects hI hdesc hpersist h
    · exact .refl

/-- One transaction is a chain of effects, with the branches that it takes. -/
theorem exec_effects {a : Action} (hw : w.Sound config)
    (hP : ∀ b, w.Takes config a b → P b) :
    Effects config.events w.now P w.db (w.exec config a).db := by
  have hI := hw.integrity
  cases a with
  | tick ms => exact .refl
  | acceptBatch identity traceId events =>
    simp only [exec, acceptBatch]
    split
    · exact .refl
    · rename_i h
      exact acceptEventBatch_effects (hP _ .admission) hI h
  | claimPass workerId busy =>
    have heffects : Effects config.events w.now P w.db
        (LlmGateway.claimPass config.events w.now workerId busy w.db).2 :=
      claimPass_effects hI workerId busy
        (fun j hj hchat hpending ↦ hP _ (.chatActivation hj hchat hpending))
        (fun j hj hwait ↦ hP _ (.wait hj hwait)) fun c hc ↦ hP _ (.claim hc)
    simp only [exec, claimPass]
    split
    · rename_i h
      rwa [h] at heffects
    · rename_i h
      rwa [h] at heffects
  | renew token =>
    exact withClaim_effects fun c hc ↦ commit_effects fun _ _ h ↦ renewEventClaim_effects h
  | complete token result =>
    refine withClaim_effects fun c hc ↦ ?_
    exact completeEvent_effects result hI
      (fun j ↦ hw.describes_locked (mem_claims_of_claim? hc))
      (fun j hlock hinvalid ↦ hP _ (.fenced hc hlock hinvalid))
      fun j hlock hvalid houtcome hdisp hseq ↦ hP _ (.manual hc hlock hvalid houtcome hdisp hseq)
  | persist token =>
    exact withClaim_effects fun c hc ↦ persist_effects hI
      (fun j ↦ hw.describes_locked (mem_claims_of_claim? hc)) (hP _ (.persist hc))
  | sweep =>
    exact sweepExpiredClaims_effects hI fun t ht j hlock hinvalid ↦
      hP _ (.sweptFenced ht hlock hinvalid)
  | discard =>
    simp only [exec, discard]
    split
    · rename_i h
      exact discardStaleEvents_effects hI
        (fun maxAgeMs hage hcasts t ht j hj ↦ hP _ (.discard hage hcasts ht hj)) h
    · exact .refl
  | stopIdle => exact stopIdleSessions_effects config.sessionIdleTimeoutMs hI
  | plan token action decisionId =>
    refine withClaim_effects fun c _ ↦ ?_
    unfold plan
    split
    · exact .refl
    · exact .single (.outbox planDecision_step)
  | record token =>
    exact withClaim_effects fun c hc ↦ recordTerminal_effects hI
      (hw.session_eq (mem_claims_of_claim? hc)) fun j ↦ hw.describes_locked (mem_claims_of_claim? hc)
  | claimDecision workerId =>
    have hstep : w.db.OutboxStep (claimNextDecision config.outbox.worker w.now workerId w.db).2 :=
      claimNextDecision_step workerId
    simp only [exec, claimDecision]
    split
    · rename_i h
      rw [h] at hstep
      exact .single (.outbox hstep)
    · rename_i h
      rw [h] at hstep
      exact .single (.outbox hstep)
  | renewDecision token =>
    exact withDecisionClaim_effects fun c _ ↦ .single (.outbox (renewDecisionClaim_step c))
  | failDecision token stage category body =>
    exact withDecisionClaim_effects fun c _ ↦
      .single (.outbox (completeDecisionFailure_step c stage category body))
  | recordResponse token response =>
    exact withDecisionClaim_effects fun c hc ↦ commit_effects fun _ _ h ↦
      .single (.outbox (recordDecisionResponse_step (hw.decisionClaims c hc) h))
  | sweepDecisions => exact .single (.outbox sweepExpiredDecisionClaims_step)

/-! ## The logs of a run -/

section Logs

variable {β : Type*} (g : World → β)

theorem withClaim_frame {token : Uuid} {f : ClaimedEvent → World} (h : ∀ c, g (f c) = g w) :
    g (w.withClaim token f) = g w := by
  unfold withClaim
  rcases w.claim? token with _ | c
  · rfl
  · exact h c

theorem withDecisionClaim_frame {token : Uuid} {f : ClaimedDecision → World}
    (h : ∀ c, g (f c) = g w) : g (w.withDecisionClaim token f) = g w := by
  unfold withDecisionClaim
  rcases w.decisionClaim? token with _ | c
  · rfl
  · exact h c

variable (hdb : ∀ (w : World) (db : Db), g { w with db := db } = g w)

include hdb

theorem commit_frame {α : Type*} (result : Except Failure (α × Db)) :
    g (w.commit result) = g w := by
  unfold commit
  split
  · exact hdb w _
  · rfl

theorem recordTerminal_frame (c : ClaimedEvent) : g (w.recordTerminal c) = g w := by
  unfold recordTerminal
  split
  · exact hdb w _
  · exact commit_frame g hdb _
  · exact hdb w _
  · exact commit_frame g hdb _
  · rfl

/-- Apart from the clock, the claims and the logs, an action changes only the database. -/
theorem exec_frame {a : Action}
    (htick : ∀ ms, a = .tick ms → g (w.exec config a) = g w)
    (haccept : ∀ identity traceId events, a = .acceptBatch identity traceId events →
      g (w.exec config a) = g w)
    (hclaim : ∀ workerId busy, a = .claimPass workerId busy → g (w.exec config a) = g w)
    (hpersist : ∀ token, a = .persist token → g (w.exec config a) = g w)
    (hdecision : ∀ workerId, a = .claimDecision workerId → g (w.exec config a) = g w) :
    g (w.exec config a) = g w := by
  cases a with
  | tick ms => exact htick ms rfl
  | acceptBatch identity traceId events => exact haccept identity traceId events rfl
  | claimPass workerId busy => exact hclaim workerId busy rfl
  | renew token => exact withClaim_frame g fun c ↦ commit_frame g hdb _
  | complete token result => exact withClaim_frame g fun c ↦ hdb w _
  | persist token => exact hpersist token rfl
  | sweep => exact hdb w _
  | discard =>
    simp only [exec, discard]
    split
    · exact hdb w _
    · rfl
  | stopIdle => exact hdb w _
  | plan token action decisionId =>
    refine withClaim_frame g fun c ↦ ?_
    unfold plan
    split
    · rfl
    · exact hdb w _
  | record token => exact withClaim_frame g fun c ↦ recordTerminal_frame g hdb c
  | claimDecision workerId => exact hdecision workerId rfl
  | renewDecision token => exact withDecisionClaim_frame g fun c ↦ hdb w _
  | failDecision token stage category body => exact withDecisionClaim_frame g fun c ↦ hdb w _
  | recordResponse token response => exact withDecisionClaim_frame g fun c ↦ commit_frame g hdb _
  | sweepDecisions => exact hdb w _

end Logs

theorem claimPass_frame {β : Type*} (g : World → β)
    (hdb : ∀ (w : World) (db : Db) (claims : List ClaimedEvent),
      g { w with db := db, claims := claims } = g w) (workerId : String) (busy : List Uuid) :
    g (w.exec config (.claimPass workerId busy)) = g w := by
  simp only [exec, claimPass]
  split
  · exact hdb w _ _
  · exact hdb w _ w.claims

theorem acceptBatch_frame {β : Type*} (g : World → β)
    (hdb : ∀ (w : World) (db : Db) (log : List Acknowledgement),
      g { w with db := db, acknowledged := log } = g w) (identity : Identity) (traceId : String)
    (events : List GatewayEvent) :
    g (w.exec config (.acceptBatch identity traceId events)) = g w := by
  simp only [exec, acceptBatch]
  split
  · rfl
  · exact hdb w _ _

theorem claimDecision_frame {β : Type*} (g : World → β)
    (hdb : ∀ (w : World) (db : Db) (claims : List ClaimedDecision),
      g { w with db := db, decisionClaims := claims } = g w) (workerId : String) :
    g (w.exec config (.claimDecision workerId)) = g w := by
  simp only [exec, claimDecision]
  split
  · exact hdb w _ _
  · exact hdb w _ w.decisionClaims

theorem persist_frame {β : Type*} (g : World → β)
    (hdb : ∀ (w : World) (db : Db) (log : List PersistEntry),
      g { w with db := db, persisted := log } = g w) (token : Uuid) :
    g (w.exec config (.persist token)) = g w := by
  refine withClaim_frame g fun c ↦ ?_
  unfold persist
  split
  · rfl
  · split
    · exact hdb w _ _
    · exact hdb w _ w.persisted
    · rfl

/-- Only a pass that hands out a claim adds one. -/
theorem exec_claims {a : Action} (h : ¬w.Takes config a .claim) :
    (w.exec config a).claims = w.claims := by
  refine exec_frame World.claims (fun _ _ ↦ rfl) ?_ ?_ ?_ ?_ ?_
  · rintro ms rfl
    rfl
  · rintro identity traceId events rfl
    exact acceptBatch_frame World.claims (fun _ _ _ ↦ rfl) identity traceId events
  · rintro workerId busy rfl
    simp only [exec, claimPass]
    split
    · rename_i hclaimed
      exact absurd (.claim (congrArg Prod.fst hclaimed)) h
    · rfl
  · rintro token rfl
    exact persist_frame World.claims (fun _ _ _ ↦ rfl) token
  · rintro workerId rfl
    exact claimDecision_frame World.claims (fun _ _ _ ↦ rfl) workerId

/-- Only an admission adds to the log of the acknowledged batches. -/
theorem exec_acknowledged {a : Action}
    (h : ∀ identity traceId events, a ≠ .acceptBatch identity traceId events) :
    (w.exec config a).acknowledged = w.acknowledged := by
  refine exec_frame World.acknowledged (fun _ _ ↦ rfl) ?_ ?_ ?_ ?_ ?_
  · rintro ms rfl
    rfl
  · rintro identity traceId events rfl
    exact absurd rfl (h identity traceId events)
  · rintro workerId busy rfl
    exact claimPass_frame World.acknowledged (fun _ _ _ ↦ rfl) workerId busy
  · rintro token rfl
    exact persist_frame World.acknowledged (fun _ _ _ ↦ rfl) token
  · rintro workerId rfl
    exact claimDecision_frame World.acknowledged (fun _ _ _ ↦ rfl) workerId

/-- Time does not go back. -/
theorem exec_now (config : SystemConfig) (w : World) (a : Action) :
    w.now ≤ (w.exec config a).now := by
  by_cases htick : ∃ ms, a = .tick ms
  · obtain ⟨ms, rfl⟩ := htick
    exact Nat.le_add_right _ _
  refine (exec_frame World.now (fun _ _ ↦ rfl) ?_ ?_ ?_ ?_ ?_).ge
  · exact fun ms hms ↦ absurd ⟨ms, hms⟩ htick
  · rintro identity traceId events rfl
    exact acceptBatch_frame World.now (fun _ _ _ ↦ rfl) identity traceId events
  · rintro workerId busy rfl
    exact claimPass_frame World.now (fun _ _ _ ↦ rfl) workerId busy
  · rintro token rfl
    exact persist_frame World.now (fun _ _ _ ↦ rfl) token
  · rintro workerId rfl
    exact claimDecision_frame World.now (fun _ _ _ ↦ rfl) workerId

/-- Only the claim of a decision adds one. -/
theorem exec_decisionClaims {a : Action} (h : ∀ workerId, a ≠ .claimDecision workerId) :
    (w.exec config a).decisionClaims = w.decisionClaims := by
  refine exec_frame World.decisionClaims (fun _ _ ↦ rfl) ?_ ?_ ?_ ?_ ?_
  · rintro ms rfl
    rfl
  · rintro identity traceId events rfl
    exact acceptBatch_frame World.decisionClaims (fun _ _ _ ↦ rfl) identity traceId events
  · rintro workerId busy rfl
    exact claimPass_frame World.decisionClaims (fun _ _ _ ↦ rfl) workerId busy
  · rintro token rfl
    exact persist_frame World.decisionClaims (fun _ _ _ ↦ rfl) token
  · rintro workerId rfl
    exact absurd rfl (h workerId)

/-- The claims of decisions go on describing them. -/
theorem exec_describes {a : Action}
    (h : ∀ c ∈ w.decisionClaims, ∃ d ∈ w.db.decisions, c.Describes d.toDecisionKey)
    (hkeys : ∀ d ∈ w.db.decisions, ∃ d' ∈ (w.exec config a).db.decisions,
      d'.toDecisionKey = d.toDecisionKey) :
    ∀ c ∈ (w.exec config a).decisionClaims, ∃ d ∈ (w.exec config a).db.decisions,
      c.Describes d.toDecisionKey := by
  have hold {c : ClaimedDecision} (hc : c ∈ w.decisionClaims) :
      ∃ d ∈ (w.exec config a).db.decisions, c.Describes d.toDecisionKey := by
    obtain ⟨d, hd, hdesc⟩ := h c hc
    obtain ⟨d', hd', hkey⟩ := hkeys d hd
    exact ⟨d', hd', hkey ▸ hdesc⟩
  by_cases hclaim : ∃ workerId, a = .claimDecision workerId
  · obtain ⟨workerId, rfl⟩ := hclaim
    simp only [exec, claimDecision] at hold ⊢
    cases hnext : claimNextDecision config.outbox.worker w.now workerId w.db with
    | mk claimed db' =>
      rw [hnext] at hold
      cases claimed with
      | none => exact fun c hc ↦ hold hc
      | some c₀ =>
        intro c hc
        cases List.mem_append.1 hc with
        | inl hc => exact hold hc
        | inr hc =>
          rw [List.mem_singleton.1 hc]
          exact claimNextDecision_describes hnext
  · push Not at hclaim
    rw [exec_decisionClaims hclaim]
    exact fun c hc ↦ hold hc

/-! ## Soundness of all runs -/

theorem initial_sound (entropy : ℕ → ℕ) : (initial entropy).Sound config where
  integrity := Db.Integrity.empty entropy
  shape _ he := absurd he (Table.not_mem_empty _)
  describes _ hc := absurd hc List.not_mem_nil
  issued _ hc := absurd hc List.not_mem_nil
  distinct := List.Pairwise.nil
  claimed _ he := absurd he (Table.not_mem_empty _)
  reached := ⟨fun _ he ↦ absurd he (Table.not_mem_empty _),
    fun _ hc ↦ absurd hc (Table.not_mem_empty _)⟩
  decisionClaims _ hc := absurd hc List.not_mem_nil

theorem effects_shape {now : ℕ} {db' : Db} (h : Effects config.events now P w.db db')
    (hw : w.Sound config) : ∀ e ∈ db'.events, e.Shape config.events.maxAttempts :=
  invariant_chain (fun _ _ heff ↦ heff.shape) h hw.shape

/-- Without a claim, an event keeps its claim or loses it. -/
theorem effects_claims_back {now : ℕ} {db db' : Db} (h : Effects config.events now P db db')
    (hclaim : ¬P .claim) : ∀ e' ∈ db'.events, ∀ t ∈ e'.claimToken, ∃ e ∈ db.events,
      e.id = e'.id ∧ t ∈ e.claimToken ∧ e'.claimedFenceVersion = e.claimedFenceVersion := by
  refine invariant_chain (I := fun d ↦ ∀ e' ∈ d.events, ∀ t ∈ e'.claimToken, ∃ e ∈ db.events,
    e.id = e'.id ∧ t ∈ e.claimToken ∧ e'.claimedFenceVersion = e.claimedFenceVersion)
    (fun d d' heff hd e' he' t ht ↦ ?_) h fun e he t ht ↦ ⟨e, he, rfl, ht, rfl⟩
  obtain ⟨rowId, hevents⟩ := heff.events_evolve
  rcases hevents.backward e' he' with ⟨e, he, hstep⟩ | ⟨-, hnew, -⟩
  · rcases hstep with hsettles | ⟨hP, -⟩
    · have hid : e'.id = e.id := congrArg EventKey.id hsettles.key_eq
      rcases hsettles.change with rfl | ⟨-, hreleased⟩ | ⟨-, _, rfl⟩
      · exact hd e' he t ht
      · simp [hreleased.claimToken] at ht
      · exact hd e he t ht
    · exact absurd hP hclaim
  · simp [hnew.claimToken] at ht

/-- A pass that hands out a claim describes its candidate in it. -/
theorem exec_claimed {a : Action} (h : w.Takes config a .claim) :
    ∃ workerId j fence c, w.db.Joins j ∧ j.Claimable config.events.maxAttempts w.now ∧
      c.Describes j.event.toEventKey ∧ c.claimToken = w.db.nextUuid ∧
      c.claimedFenceVersion = fence ∧ (w.exec config a).claims = w.claims ++ [c] ∧
      (w.exec config a).db.events = (w.db.claimEvent config.events w.now workerId j.event.id
        w.db.nextUuid fence).events ∧
      (w.exec config a).db.issued = w.db.issued + 1 := by
  cases h with
  | @claim workerId busy c handed =>
    obtain ⟨j, fence, historical, hcandidate, rfl, hevents, hissued⟩ := claimPass_claimed handed
    obtain ⟨hjoins, hclaimable⟩ := claimCandidate_eq_some hcandidate
    refine ⟨workerId, j, fence, buildClaimedEvent config.events w.now workerId j w.db.nextUuid
      fence historical, hjoins, hclaimable,
      ⟨rfl, rfl, rfl, rfl, rfl, rfl, rfl, rfl, rfl, rfl, rfl, rfl⟩, rfl, rfl, ?_⟩
    simp only [exec, claimPass]
    rcases hpass : LlmGateway.claimPass config.events w.now workerId busy w.db with ⟨outcome, db'⟩
    rw [hpass] at handed hevents hissued
    simp only at handed hevents hissued
    rw [handed]
    exact ⟨rfl, hevents, hissued⟩

theorem exec_sound {a : Action} (hw : w.Sound config) : (w.exec config a).Sound config := by
  have heffects := exec_effects (P := w.Takes config a) hw fun b hb ↦ hb
  have hlater := heffects.later
  have hissued : w.db.issued ≤ (w.exec config a).db.issued :=
    invariant_chain (I := fun d ↦ w.db.issued ≤ d.issued)
      (fun _ _ heff h ↦ h.trans heff.issued_le) heffects (le_refl _)
  have hdescribes {c : ClaimedEvent} (h : ∃ e ∈ w.db.events, c.Describes e.toEventKey) :
      ∃ e ∈ (w.exec config a).db.events, c.Describes e.toEventKey := by
    obtain ⟨e, he, hdesc⟩ := h
    obtain ⟨e', he', hlater⟩ := hlater.events e he
    exact ⟨e', he', hlater.key_eq ▸ hdesc⟩
  have hI := heffects.integrity hw.integrity
  have hshape := effects_shape heffects hw
  have hreached := invariant_chain (fun _ _ heff ↦ heff.generationsReached) heffects hw.reached
  have hdecisions := exec_describes hw.decisionClaims heffects.decisions_forward
  by_cases hclaim : w.Takes config a .claim
  · obtain ⟨workerId, j, fence, c, hjoins, hclaimable, hdesc, htoken, hfence, hclaims, hevents,
      hissued'⟩ := exec_claimed hclaim
    have hserial : c.claimToken.serial < (w.exec config a).db.issued := by
      rw [hissued', htoken]
      exact Nat.lt_succ_self _
    refine ⟨hI, hshape, ?_, ?_, ?_, ?_, hreached, hdecisions⟩
    · rw [hclaims, List.forall_mem_append]
      refine ⟨fun c hc ↦ hdescribes (hw.describes c hc), List.forall_mem_singleton.2 ?_⟩
      exact hdescribes ⟨j.event, hjoins.event_mem, hdesc⟩
    · rw [hclaims, List.forall_mem_append]
      exact ⟨fun c hc ↦ (hw.issued c hc).trans_le hissued, List.forall_mem_singleton.2 hserial⟩
    · rw [hclaims]
      refine List.pairwise_append.2 ⟨hw.distinct, List.pairwise_singleton _ _, ?_⟩
      intro c₀ hc₀ c' hc'
      rw [List.mem_singleton.1 hc', htoken]
      exact fun heq ↦ (hw.issued c₀ hc₀).ne (congrArg Uuid.serial heq)
    · intro e' he' t ht
      rw [hclaims]
      rw [hevents] at he'
      rcases Table.mem_update.1 he' with ⟨e, he, ⟨hid, -⟩, rfl⟩ | ⟨he, -⟩
      · refine ⟨c, List.mem_append_right _ List.mem_cons_self, ?_, ?_, ?_⟩
        · rw [htoken]
          exact Option.some.inj ht
        · exact hdesc.rowId.trans hid.symm
        · rw [hfence]
      · obtain ⟨c₀, hc₀, hrest⟩ := hw.claimed e' he t ht
        exact ⟨c₀, List.mem_append_left _ hc₀, hrest⟩
  · have hclaims := exec_claims hclaim
    refine ⟨hI, hshape, ?_, ?_, ?_, ?_, hreached, hdecisions⟩
    · rw [hclaims]
      exact fun c hc ↦ hdescribes (hw.describes c hc)
    · rw [hclaims]
      exact fun c hc ↦ (hw.issued c hc).trans_le hissued
    · rw [hclaims]
      exact hw.distinct
    · rw [hclaims]
      intro e' he' t ht
      obtain ⟨e, he, hid, hmem, hfence⟩ := effects_claims_back heffects hclaim e' he' t ht
      obtain ⟨c, hc, htoken, hrow, hcfence⟩ := hw.claimed e he t hmem
      exact ⟨c, hc, htoken, hrow.trans hid, hfence.trans hcfence⟩

theorem run_sound (hw : w.Sound config) (actions : List Action) :
    (run (exec config) w actions).Sound config :=
  invariant_run (fun _ _ ↦ exec_sound) hw actions

/-- Rows stay, generations grow, and closed events stay closed, along a run. -/
theorem Sound.later (hw : w.Sound config) (actions : List Action) :
    w.db.Later (run (exec config) w actions).db :=
  rel_run (R := fun v u : World ↦ v.db.Later u.db) (fun v ↦ .refl v.db)
    (fun h h' ↦ h.trans h')
    (fun _ _ hv ↦ (exec_effects (P := fun _ ↦ True) hv fun _ _ ↦ trivial).later)
    (fun _ _ ↦ exec_sound) hw actions

theorem Reachable.sound (h : w.Reachable config) : w.Sound config := by
  obtain ⟨entropy, actions, rfl⟩ := h
  exact run_sound (initial_sound entropy) actions

theorem Reachable.run (h : w.Reachable config) (actions : List Action) :
    (Relational.run (exec config) w actions).Reachable config := by
  obtain ⟨entropy, earlier, rfl⟩ := h
  exact ⟨entropy, earlier ++ actions, (run_append _ _ _ _).symm⟩

/-- An invariant of all effects holds in every reachable state. -/
theorem Reachable.invariant {I : Db → Prop} (hempty : ∀ entropy, I (.empty entropy))
    (heffect : ∀ now db db', Effect config.events now (fun _ ↦ True) db db' →
      db.GenerationsReached → I db → I db') (hw : w.Reachable config) : I w.db := by
  obtain ⟨entropy, actions, rfl⟩ := hw
  have hstep (v : World) (a : Action) (hv : v.Sound config ∧ I v.db) :
      (v.exec config a).Sound config ∧ I (v.exec config a).db := by
    have heffects := exec_effects (a := a) (P := fun _ ↦ True) hv.1 fun _ _ ↦ trivial
    have hafter := invariant_chain (I := fun db ↦ db.GenerationsReached ∧ I db)
      (fun db db' heff hdb ↦ ⟨heff.generationsReached hdb.1, heffect _ db db' heff hdb.1 hdb.2⟩)
      heffects ⟨hv.1.reached, hv.2⟩
    exact ⟨exec_sound hv.1, hafter.2⟩
  exact (invariant_run hstep ⟨initial_sound entropy, hempty entropy⟩ actions).2

theorem Reachable.tracked (hw : w.Reachable config) : w.db.Tracked := by
  refine hw.invariant (fun _ ↦ ⟨?_, ?_, ?_⟩) fun _ _ _ heff _ h ↦ heff.tracked h
  all_goals exact fun d hd ↦ absurd hd (Table.not_mem_empty _)

theorem Reachable.callsSound (hw : w.Reachable config) : w.db.CallsSound := by
  refine hw.invariant (fun _ ↦ ⟨?_, ?_, ?_⟩) fun _ _ _ heff _ h ↦ heff.callsSound h
  all_goals exact fun k hk ↦ absurd hk (Table.not_mem_empty _)

/-- An invariant of the effects of a run that takes only some branches. -/
theorem invariant_of_effects {I : Db → Prop}
    (heffect : ∀ now db db', Effect config.events now P db db' → db.Integrity → I db → I db')
    {C : World → Action → Prop} (hC : ∀ w a, C w a → ∀ b, w.Takes config a b → P b)
    (hw : w.Sound config) (hI : I w.db) {actions : List Action}
    (hguard : Guarded (exec config) C w actions) : I (run (exec config) w actions).db := by
  have hstep (v : World) (a : Action) (hv : v.Sound config ∧ I v.db) (ha : C v a) :
      (v.exec config a).Sound config ∧ I (v.exec config a).db := by
    refine ⟨exec_sound hv.1, ?_⟩
    exact (invariant_chain (I := fun d ↦ d.Integrity ∧ I d)
      (fun d d' heff hd ↦ ⟨heff.integrity hd.1, heffect _ d d' heff hd.1 hd.2⟩)
      (exec_effects hv.1 (hC v a ha)) ⟨hv.1.integrity, hv.2⟩).2
  exact (invariant_guarded (C := C) hstep ⟨hw, hI⟩ hguard).2

end World

end LlmGateway
