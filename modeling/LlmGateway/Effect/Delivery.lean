import LlmGateway.Effect.Admission
import LlmGateway.Effect.Closing

/-!
# How decisions, calls and tracked actions proceed

A decision that is not unsent any more is rejected or given to an operator at most; a call that
is closed stays closed, and so does a tracked action. Only the claim of a decision starts to
send one, only a response makes it accepted, and only planning adds decisions.
-/

namespace LlmGateway

open Relational

variable {config : WorkerConfig} {now : ℕ} {db db' db'' : Db}
  {starts : DecisionStatus → Prop} {plans : Prop} {closes : CallKey → Prop}

/-! ## Rows -/

/-- The statuses that may follow a status. -/
def DecisionStatus.Next (s s' : DecisionStatus) : Prop :=
  s' = s ∨ s.isUnsent = true ∨ s' = .rejected ∨ s' = .manual

theorem DecisionStatus.Next.trans {s s' s'' : DecisionStatus} (h : s.Next s') (h' : s'.Next s'') :
    s.Next s'' := by
  cases h' with
  | inl heq => rwa [heq]
  | inr hlater =>
    cases hlater with
    | inr hclosed => exact Or.inr (Or.inr hclosed)
    | inl hunsent =>
      apply Or.inr ∘ Or.inl
      cases h with
      | inl heq => rwa [← heq]
      | inr hbefore =>
        apply hbefore.resolve_right
        intro hclosed
        cases hclosed with
        | inl heq =>
          rw [heq] at hunsent
          cases hunsent
        | inr heq =>
          rw [heq] at hunsent
          cases hunsent

/-- The decision is being sent, or it was sent and accepted. -/
def DecisionStatus.isTaken : DecisionStatus → Bool
  | sending | accepted => true
  | _ => false

/-- The decision has kept its status and its claim. -/
def DecisionRow.Keeps (d d' : DecisionRow) : Prop :=
  d'.status = d.status ∧ d'.claimToken = d.claimToken ∧
    d'.claimedFenceVersion = d.claimedFenceVersion

/-- How a transaction may change a decision; `starts` tells which of the two taken statuses it
may give to one that did not have it. -/
structure DecisionRow.Proceeds (starts : DecisionStatus → Prop) (d d' : DecisionRow) : Prop where
  key_eq : d'.toDecisionKey = d.toDecisionKey
  next : d.status.Next d'.status
  taken : d'.status.isTaken = true → d.Keeps d' ∨ starts d'.status

namespace DecisionRow.Proceeds

theorem refl (d : DecisionRow) : d.Proceeds starts d :=
  ⟨rfl, Or.inl rfl, fun _ ↦ Or.inl ⟨rfl, rfl, rfl⟩⟩

theorem trans {d d' d'' : DecisionRow} (h : d.Proceeds starts d') (h' : d'.Proceeds starts d'') :
    d.Proceeds starts d'' where
  key_eq := h'.key_eq.trans h.key_eq
  next := h.next.trans h'.next
  taken htaken := by
    cases h'.taken htaken with
    | inr hstarts => exact Or.inr hstarts
    | inl hsame =>
      rw [hsame.1] at htaken ⊢
      apply (h.taken htaken).imp_left
      intro hbefore
      exact ⟨hsame.1.trans hbefore.1, hsame.2.1.trans hbefore.2.1, hsame.2.2.trans hbefore.2.2⟩

/-- An unsent decision is closed or put back. -/
theorem of_unsent {d d' : DecisionRow} (hkey : d'.toDecisionKey = d.toDecisionKey)
    (hunsent : d.status.isUnsent = true) (hstatus : d'.status.isTaken = false) :
    d.Proceeds starts d' := by
  refine ⟨hkey, Or.inr (Or.inl hunsent), fun htaken ↦ ?_⟩
  rw [hstatus] at htaken
  cases htaken

/-- Any decision is rejected or given to an operator. -/
theorem of_closed {d d' : DecisionRow} (hkey : d'.toDecisionKey = d.toDecisionKey)
    (hstatus : d'.status = .rejected ∨ d'.status = .manual) : d.Proceeds starts d' := by
  refine ⟨hkey, Or.inr (Or.inr hstatus), fun htaken ↦ ?_⟩
  cases hstatus with
  | inl heq =>
    rw [heq] at htaken
    cases htaken
  | inr heq =>
    rw [heq] at htaken
    cases htaken

theorem mono {d d' : DecisionRow} {starts' : DecisionStatus → Prop} (h : d.Proceeds starts d')
    (hstarts : ∀ s, starts s → starts' s) : d.Proceeds starts' d' :=
  ⟨h.key_eq, h.next, fun htaken ↦ (h.taken htaken).imp_right (hstarts _)⟩

end DecisionRow.Proceeds

/-- The skill has come to an end. -/
def CallStatus.isTerminal : CallStatus → Bool
  | succeeded | failed | cancelled | timeout => true
  | _ => false

/-- A call that is open was open before; one that has come to an end came to it before and keeps
its effect, or it was open and is among those that are closed. -/
structure CallRow.Proceeds (closes : CallKey → Prop) (k k' : CallRow) : Prop where
  key_eq : k'.toCallKey = k.toCallKey
  running : k'.status.isRunning = true → k.status.isRunning = true
  terminal : k'.status.isTerminal = true →
    (k.status.isTerminal = true ∧ (k.effectStatus = .applied → k'.effectStatus = .applied)) ∨
      (k.status.isRunning = true ∧ closes k.toCallKey)

namespace CallRow.Proceeds

theorem refl (k : CallRow) : k.Proceeds closes k := ⟨rfl, id, fun h ↦ Or.inl ⟨h, id⟩⟩

theorem trans {k k' k'' : CallRow} (h : k.Proceeds closes k') (h' : k'.Proceeds closes k'') :
    k.Proceeds closes k'' where
  key_eq := h'.key_eq.trans h.key_eq
  running := h.running ∘ h'.running
  terminal hterminal := by
    cases h'.terminal hterminal with
    | inl hkept =>
      apply (h.terminal hkept.1).imp_left
      exact fun hbefore ↦ ⟨hbefore.1, hkept.2 ∘ hbefore.2⟩
    | inr hclosed =>
      rw [h.key_eq] at hclosed
      exact Or.inr ⟨h.running hclosed.1, hclosed.2⟩

theorem mono {closes' : CallKey → Prop} {k k' : CallRow} (h : k.Proceeds closes k')
    (hcloses : ∀ key, closes key → closes' key) : k.Proceeds closes' k' :=
  ⟨h.key_eq, h.running, fun hterminal ↦ (h.terminal hterminal).imp_right (And.imp_right (hcloses _))⟩

/-- An open call is closed. -/
theorem of_closed {k k' : CallRow} (hkey : k'.toCallKey = k.toCallKey)
    (hrunning : k.status.isRunning = true) (hcloses : closes k.toCallKey) : k.Proceeds closes k' :=
  ⟨hkey, fun _ ↦ hrunning, fun _ ↦ Or.inr ⟨hrunning, hcloses⟩⟩

/-- Any call is given to an operator. -/
theorem of_manual {k k' : CallRow} (hkey : k'.toCallKey = k.toCallKey)
    (hmanual : k'.status = .manual) : k.Proceeds closes k' := by
  refine ⟨hkey, fun hrunning ↦ ?_, fun hterminal ↦ ?_⟩
  · rw [hmanual] at hrunning
    cases hrunning
  · rw [hmanual] at hterminal
    cases hterminal

end CallRow.Proceeds

/-- A tracked action that is settled stays as it is. -/
structure TrackingRow.Proceeds (a a' : TrackingRow) : Prop where
  key_eq : a'.toTrackingKey = a.toTrackingKey
  settled : a.status ≠ .tracking → a'.status = a.status

theorem TrackingRow.Proceeds.refl (a : TrackingRow) : a.Proceeds a := ⟨rfl, fun _ ↦ rfl⟩

theorem TrackingRow.Proceeds.trans {a a' a'' : TrackingRow} (h : a.Proceeds a')
    (h' : a'.Proceeds a'') : a.Proceeds a'' where
  key_eq := h'.key_eq.trans h.key_eq
  settled hsettled := by
    have hkept := h.settled hsettled
    rw [← hkept] at hsettled
    exact (h'.settled hsettled).trans hkept

/-! ## Transactions -/

/-- What a transaction does to decisions, calls and tracked actions. -/
structure Db.Delivers (starts : DecisionStatus → Prop) (plans : Prop) (closes : CallKey → Prop)
    (db db' : Db) : Prop where
  decisions : Table.Evolves (DecisionRow.Proceeds starts) (fun _ ↦ plans) db.decisions
    db'.decisions
  calls : Table.Evolves (CallRow.Proceeds closes)
    (fun k ↦ k.status.isTerminal = true → closes k.toCallKey) db.calls db'.calls
  tracking : Table.Evolves TrackingRow.Proceeds (fun _ ↦ plans) db.tracking db'.tracking

/-- The transaction leaves decisions, calls and tracked actions alone. -/
structure Db.SameOutbox (db db' : Db) : Prop where
  decisions_eq : db'.decisions = db.decisions
  calls_eq : db'.calls = db.calls
  tracking_eq : db'.tracking = db.tracking

theorem Db.SameOutbox.refl (db : Db) : db.SameOutbox db := ⟨rfl, rfl, rfl⟩

theorem Db.SameOutbox.trans (h : db.SameOutbox db') (h' : db'.SameOutbox db'') :
    db.SameOutbox db'' :=
  ⟨h'.decisions_eq.trans h.decisions_eq, h'.calls_eq.trans h.calls_eq,
    h'.tracking_eq.trans h.tracking_eq⟩

namespace Db.Delivers

theorem of_same (h : db.SameOutbox db') : db.Delivers starts plans closes db' where
  decisions := by
    rw [h.decisions_eq]
    exact .refl DecisionRow.Proceeds.refl _
  calls := by
    rw [h.calls_eq]
    exact .refl CallRow.Proceeds.refl _
  tracking := by
    rw [h.tracking_eq]
    exact .refl TrackingRow.Proceeds.refl _

theorem refl (db : Db) : db.Delivers starts plans closes db := of_same (.refl db)

theorem trans (h : db.Delivers starts plans closes db') (h' : db'.Delivers starts plans closes db'') :
    db.Delivers starts plans closes db'' where
  decisions := h.decisions.trans (fun h h' ↦ h.trans h') (fun hplans _ ↦ hplans) h'.decisions
  calls := by
    refine h.calls.trans (fun h h' ↦ h.trans h') (fun {k k'} hnew hstep hterminal ↦ ?_) h'.calls
    rw [hstep.key_eq]
    cases hstep.terminal hterminal with
    | inl hkept => exact hnew hkept.1
    | inr hclosed => exact hclosed.2
  tracking := h.tracking.trans (fun h h' ↦ h.trans h') (fun hplans _ ↦ hplans) h'.tracking

theorem updateDecisions (w : DecisionRow → Prop) [DecidablePred w] {a : Assignment DecisionRow}
    (hset : ∀ d ∈ db.decisions, w d → d.Proceeds starts (a.set d)) :
    db.Delivers starts plans closes (db.updateDecisions w a) where
  decisions := .update DecisionRow.Proceeds.refl hset
  calls := .refl CallRow.Proceeds.refl _
  tracking := .refl TrackingRow.Proceeds.refl _

theorem updateCalls (w : CallRow → Prop) [DecidablePred w] {a : Assignment CallRow}
    (hset : ∀ k ∈ db.calls, w k → k.Proceeds closes (a.set k)) :
    db.Delivers starts plans closes (db.updateCalls w a) where
  decisions := .refl DecisionRow.Proceeds.refl _
  calls := .update CallRow.Proceeds.refl hset
  tracking := .refl TrackingRow.Proceeds.refl _

theorem insertCall (row : CallRow) (hnew : row.status.isTerminal = true → closes row.toCallKey) :
    db.Delivers starts plans closes (db.insertCall row) := by
  unfold Db.insertCall
  split
  · rename_i calls hinsert
    exact ⟨.refl DecisionRow.Proceeds.refl _, .insert CallRow.Proceeds.refl hnew hinsert,
      .refl TrackingRow.Proceeds.refl _⟩
  · exact .refl db

theorem mono {starts' : DecisionStatus → Prop} {plans' : Prop} {closes' : CallKey → Prop}
    (h : db.Delivers starts plans closes db') (hstarts : ∀ s, starts s → starts' s)
    (hplans : plans → plans') (hcloses : ∀ key, closes key → closes' key) :
    db.Delivers starts' plans' closes' db' where
  decisions := h.decisions.mono (fun _ _ hstep ↦ hstep.mono hstarts) fun _ ↦ hplans
  calls := h.calls.mono (fun _ _ hstep ↦ hstep.mono hcloses) fun _ hnew ↦ hcloses _ ∘ hnew
  tracking := h.tracking.mono (fun _ _ ↦ id) fun _ ↦ hplans

/-- Decisions are only added by planning. -/
theorem decision_back (h : db.Delivers starts plans closes db') (hplans : ¬plans) {d' : DecisionRow}
    (hd' : d' ∈ db'.decisions) : ∃ d ∈ db.decisions, d.Proceeds starts d' :=
  (h.decisions.backward d' hd').resolve_right hplans

end Db.Delivers

/-! ## The inbox -/

theorem supersedeLocked_same (db : Db) (j : Joined) : db.SameOutbox (db.supersedeLocked j) :=
  ⟨rfl, rfl, rfl⟩

theorem skipFrom_same (db : Db) (j : Joined) : db.SameOutbox (db.skipFrom j) := by
  unfold Db.skipFrom
  split_ifs
  · exact ⟨rfl, rfl, rfl⟩
  · exact .refl db

theorem upsertSession_same (identity : Identity) (sessionId : String) :
    db.SameOutbox (db.upsertSession now identity sessionId) := by
  unfold Db.upsertSession
  split
  · exact ⟨rfl, rfl, rfl⟩
  · exact .refl db

theorem upsertCycle_same (identity : Identity) (sessionId : String) (generation : ℕ) :
    db.SameOutbox (db.upsertCycle identity sessionId generation) := by
  unfold Db.upsertCycle
  split
  · exact .refl db
  · split
    · exact ⟨rfl, rfl, rfl⟩
    · exact .refl db

theorem insertEvent_same {identity : Identity} {traceId : String} {item : PreparedEvent}
    {cycleId : Uuid} {generation sequence : ℕ}
    (h : db.insertEvent now identity traceId item cycleId generation sequence = some db') :
    db.SameOutbox db' := by
  obtain ⟨events, -, rfl⟩ := Option.map_eq_some_iff.1 h
  exact ⟨rfl, rfl, rfl⟩

theorem insertSequenced_same (identity : Identity) (traceId : String)
    (state : List String × Db) (item : PreparedEvent) :
    state.2.SameOutbox (Db.insertSequenced now identity traceId state item).2 := by
  unfold Db.insertSequenced
  split
  · exact .refl _
  · split
    · exact .refl _
    · split
      · exact .refl _
      · rename_i db' hinsert
        exact insertEvent_same hinsert

theorem insertNonChatBatch_same {identity : Identity} {traceId : String}
    {items : List PreparedEvent} {inserted : List String}
    (h : db.insertNonChatBatch now identity traceId items = .ok (inserted, db')) :
    db.SameOutbox db' := by
  unfold Db.insertNonChatBatch at h
  split_ifs at h
  have hsessions : db.SameOutbox (items.foldl (Db.upsertSessionOf now identity) db) :=
    List.foldlRecOn _ _ (.refl db) fun t ht item _ ↦ ht.trans (upsertSession_same identity _)
  have hcycles : db.SameOutbox (items.foldl (Db.upsertCycleOf identity)
      (items.foldl (Db.upsertSessionOf now identity) db)) := by
    refine List.foldlRecOn _ _ hsessions fun t ht item _ ↦ ht.trans ?_
    unfold Db.upsertCycleOf
    split
    · exact .refl t
    · exact upsertCycle_same identity _ _
  have hevents := List.foldlRecOn (motive := fun state : List String × Db ↦ db.SameOutbox state.2)
    items (Db.insertSequenced now identity traceId) (b := ([], _)) hcycles
    fun state hstate item _ ↦ hstate.trans (insertSequenced_same identity traceId state item)
  rwa [congrArg Prod.snd (Except.ok.inj h)] at hevents

theorem ensureHostedChatCycle_same (identity : Identity) (sessionId : String) :
    db.SameOutbox (db.ensureHostedChatCycle now identity sessionId) := by
  unfold Db.ensureHostedChatCycle
  split
  · exact .refl db
  · exact (upsertSession_same identity sessionId).trans (upsertCycle_same identity sessionId 1)

theorem insertOne_same {identity : Identity} {traceId : String} {item : PreparedEvent}
    {classification : Classification}
    (h : db.insertOne now identity traceId item = .ok (classification, db')) :
    db.SameOutbox db' := by
  have hready : db.SameOutbox (db.ensureHostedChatCycle now identity item.event.sessionId) :=
    ensureHostedChatCycle_same identity _
  cases insertOne_cases h with
  | inl hstored =>
    cases hstored.2 with
    | inl heq => exact heq ▸ .refl db
    | inr heq => exact heq ▸ hready
  | inr hreceived =>
    obtain ⟨-, cycle, sequence, -, -, hinsert⟩ := hreceived
    exact hready.trans (insertEvent_same hinsert)

theorem acceptEventBatch_same {staleAfterMs : Option ℕ} {identity : Identity} {traceId : String}
    {events : List GatewayEvent} {acceptance : BatchAcceptance}
    (h : acceptEventBatch staleAfterMs now identity traceId events db = .ok (acceptance, db')) :
    db.SameOutbox db' := by
  obtain ⟨prepared, -, h⟩ := bind_eq_ok_iff.1 h
  obtain ⟨admission⟩ := admission_of_ok h
  have hsequenced := insertNonChatBatch_same admission.sequenced
  have hchats : db.SameOutbox admission.progress.db := by
    refine foldlM_invariant (I := fun progress ↦ db.SameOutbox progress.db)
      (fun progress item _ progress' hsame hstep ↦ ?_) hsequenced admission.chats
    obtain ⟨classification, hone, -⟩ := insertChat_eq_ok hstep
    exact hsame.trans (insertOne_same hone)
  rw [admission.db_eq]
  exact hchats.trans ⟨rfl, rfl, rfl⟩

theorem renewEventClaim_same {c : ClaimedEvent} {renewed : Bool}
    (h : renewEventClaim config now c db = .ok (renewed, db')) : db.SameOutbox db' := by
  unfold renewEventClaim at h
  split at h
  · cases h
    exact .refl db
  · split_ifs at h
    · cases h
      exact ⟨rfl, rfl, rfl⟩
    · cases h
      exact .refl db
    · cases h
      exact .refl db

theorem completeEvent_same (c : ClaimedEvent) (result : EventProcessResult) :
    db.SameOutbox (completeEvent config now c result db).2 := by
  unfold completeEvent
  split
  · exact .refl db
  · rename_i j _
    split_ifs
    · split
      · unfold completeCycleSuccess
        split_ifs
        · exact ⟨rfl, rfl, rfl⟩
        · refine .trans ?_ (skipFrom_same _ j)
          exact ⟨rfl, rfl, rfl⟩
        · exact ⟨rfl, rfl, rfl⟩
      · unfold completeFailed
        split_ifs
        · refine .trans ?_ (skipFrom_same _ j)
          exact ⟨rfl, rfl, rfl⟩
        · exact ⟨rfl, rfl, rfl⟩
      · unfold completeManual
        refine .trans ?_ (skipFrom_same _ j)
        split_ifs
        · exact ⟨rfl, rfl, rfl⟩
        · exact ⟨rfl, rfl, rfl⟩
    · exact supersedeLocked_same db j

theorem sweepExpiredClaims_same : db.SameOutbox (sweepExpiredClaims config now db) := by
  unfold sweepExpiredClaims
  refine invariant_iterate (I := db.SameOutbox) (fun t t' hbody ht ↦ ht.trans ?_) ⟨rfl, rfl, rfl⟩
  obtain ⟨j, -, rfl⟩ := Option.map_eq_some_iff.1 hbody
  unfold sweepRow
  split_ifs
  · refine .trans ?_ (skipFrom_same _ j)
    exact ⟨rfl, rfl, rfl⟩
  · exact supersedeLocked_same t j

/-- A pass cancels the unsent decisions of the generations that it supersedes. -/
theorem claimPass_delivers (workerId : String) (busy : List Uuid) :
    db.Delivers starts plans closes (claimPass config now workerId busy db).2 := by
  unfold claimPass
  split
  · exact .refl db
  · rename_i j _
    unfold claimLocked
    split
    · exact .of_same (supersedeLocked_same db j)
    · exact .of_same ⟨rfl, rfl, rfl⟩
    · have hcancel : db.Delivers starts plans closes (activateNew j db) := by
        refine .trans (.of_same ⟨rfl, rfl, rfl⟩) (.trans (.updateDecisions _ ?_)
          (.of_same ⟨rfl, rfl, rfl⟩))
        exact fun d _ hw ↦ .of_unsent rfl hw.1 rfl
      exact hcancel.trans (.of_same ⟨rfl, rfl, rfl⟩)
    · have hpending : db.SameOutbox (activatePending j db) := by
        unfold activatePending
        split_ifs
        · exact ⟨rfl, rfl, rfl⟩
        · exact .refl db
      exact .of_same (hpending.trans ⟨rfl, rfl, rfl⟩)
    · exact .of_same ⟨rfl, rfl, rfl⟩

theorem persistLeaseContext_delivers {c : ClaimedEvent} {context : AgentContext} {stored : Bool}
    (h : persistLeaseContext c context db = .ok (stored, db')) : db.Delivers starts plans closes db' := by
  cases persistLeaseContext_cases h with
  | inl hlost =>
    rw [hlost.2]
    exact .refl db
  | inr hstored =>
    obtain ⟨-, j, -, -, -, rfl⟩ := hstored
    refine .trans (.of_same ⟨rfl, rfl, rfl⟩) (.trans (.updateDecisions _ ?_)
      (.of_same ⟨rfl, rfl, rfl⟩))
    exact fun d _ hw ↦ .of_unsent rfl hw.2.1 rfl

/-- The call is open, and one of a decision that a stale event asked for. -/
def Db.DiscardsCall (db : Db) (maxAgeMs now : ℕ) (key : CallKey) : Prop :=
  (∃ k ∈ db.calls, k.toCallKey = key ∧ k.status.isRunning = true) ∧
    ∃ e ∈ db.events, e.Stale maxAgeMs now ∧
      ∃ d ∈ db.decisions, key.decisionRowId = d.id ∧ d.sourceEventId = e.id

/-- A cancelled call is not open. -/
theorem cancelCall_running {t : Table CallRow} {w : CallRow → Prop} [DecidablePred w]
    {reason : String} {k : CallRow} (hk : k ∈ t.update w (Db.cancelCall reason))
    (hrunning : k.status.isRunning = true) : k ∈ t := by
  cases Table.mem_update.1 hk with
  | inl hset =>
    obtain ⟨q, -, -, rfl⟩ := hset
    cases hrunning
  | inr hkept => exact hkept.1

theorem discardRow_delivers {j : Joined} (hcloses : ∀ k ∈ db.calls, k.status.isRunning = true →
      ∀ d ∈ db.decisions, k.decisionRowId = d.id → d.sourceEventId = j.event.id →
      closes k.toCallKey) :
    db.Delivers starts plans closes (discardRow db j) := by
  have hcalls : ((db.markStaleEvent j.event.id).cancelStaleDecisions j.event.id).Delivers starts
      plans closes (((db.markStaleEvent j.event.id).cancelStaleDecisions
        j.event.id).cancelStaleSkillCalls j.event.id) := by
    refine .updateCalls _ fun k hk hw ↦ ?_
    obtain ⟨hrunning, d', hd', hown, hsource⟩ := hw
    obtain ⟨d, hd, hkey⟩ := Table.key_of_mem_update hd'
    have hid : d'.id = d.id := congrArg DecisionKey.id hkey
    refine .of_closed rfl hrunning (hcloses k hk hrunning d hd (hown.trans hid) ?_)
    exact (congrArg DecisionKey.sourceEventId hkey).symm.trans hsource
  have hmark : db.Delivers starts plans closes (((db.markStaleEvent
      j.event.id).cancelStaleDecisions j.event.id).cancelStaleSkillCalls j.event.id) := by
    refine .trans ?_ hcalls
    refine .trans ?_ (.updateDecisions _ fun d _ hw ↦ ?_)
    · exact .of_same ⟨rfl, rfl, rfl⟩
    · exact .of_unsent rfl hw.2 rfl
  unfold discardRow
  split_ifs
  · exact hmark.trans (.of_same ⟨rfl, rfl, rfl⟩)
  · exact hmark
  · exact .refl db

/-- An event that is stale during the discarding was so from the beginning. -/
theorem discardRow_stale {maxAgeMs : ℕ} {j : Joined} {e : EventRow}
    (he : e ∈ (discardRow db j).events) (hstale : e.Stale maxAgeMs now) : e ∈ db.events := by
  rw [discardRow_events] at he
  cases Table.mem_update.1 he with
  | inl hset =>
    obtain ⟨q, -, -, rfl⟩ := hset
    exact Bool.noConfusion hstale.1
  | inr hkept => exact hkept.1

theorem discardRow_running {j : Joined} {k : CallRow} (hk : k ∈ (discardRow db j).calls)
    (hrunning : k.status.isRunning = true) : k ∈ db.calls := by
  unfold discardRow at hk
  split_ifs at hk
  · exact cancelCall_running hk hrunning
  · exact cancelCall_running hk hrunning
  · exact hk

/-- What the discarding keeps from one batch to the next. -/
structure Db.Discards (maxAgeMs now : ℕ) (db db' : Db) : Prop where
  delivers : db.Delivers (fun _ ↦ False) False (db.DiscardsCall maxAgeMs now) db'
  stale : ∀ e ∈ db'.events, e.Stale maxAgeMs now → e ∈ db.events
  running : ∀ k ∈ db'.calls, k.status.isRunning = true → k ∈ db.calls

theorem Db.Discards.discardRow {maxAgeMs : ℕ} {t u : Db} (hu : db.Discards maxAgeMs now u)
    (ht : db.Discards maxAgeMs now t) {j : Joined} (hj : j ∈ t.selectStaleEvents maxAgeMs now) :
    db.Discards maxAgeMs now (discardRow u j) := by
  obtain ⟨hjoins, hstale⟩ := mem_selectStaleEvents hj
  refine ⟨hu.delivers.trans (discardRow_delivers fun k hk hrunning d hd hown hsource ↦ ?_),
    fun e he hes ↦ hu.stale e (discardRow_stale he hes) hes,
    fun k hk hrunning ↦ hu.running k (discardRow_running hk hrunning) hrunning⟩
  obtain ⟨d₀, hd₀, hstep⟩ := hu.delivers.decision_back id hd
  refine ⟨⟨k, hu.running k hk hrunning, rfl, hrunning⟩, j.event,
    ht.stale j.event hjoins.event_mem hstale, hstale, d₀, hd₀, ?_, ?_⟩
  · exact hown.trans (congrArg DecisionKey.id hstep.key_eq)
  · exact (congrArg DecisionKey.sourceEventId hstep.key_eq).symm.trans hsource

theorem discardStaleEvents_delivers {staleAfterMs : Option ℕ}
    (h : discardStaleEvents staleAfterMs now db = .ok db') :
    db.Delivers starts plans (fun key ↦ ¬db.StaleCastFails ∧
      ∃ maxAgeMs ∈ staleAfterMs, db.DiscardsCall maxAgeMs now key) db' := by
  unfold discardStaleEvents at h
  split at h
  · cases h
    exact .refl db
  · rename_i maxAgeMs
    split_ifs at h with hcasts
    cases h
    have hbody (t t' : Db) (hbody : discardBody maxAgeMs now t = some t')
        (ht : db.Discards maxAgeMs now t) : db.Discards maxAgeMs now t' := by
      unfold discardBody at hbody
      split_ifs at hbody
      obtain rfl := Option.some.inj hbody
      exact List.foldlRecOn _ _ ht fun u hu j hj ↦ hu.discardRow ht hj
    have hloop := invariant_iterate hbody (n := db.events.rows.length + 1) (s := db)
      ⟨.refl db, fun e he _ ↦ he, fun k hk _ ↦ hk⟩
    exact hloop.delivers.mono (fun _ ↦ False.elim) False.elim fun key hkey ↦
      ⟨hcasts, maxAgeMs, rfl, hkey⟩

theorem idleCycle_of_key_eq {session : SessionRow} {c c' : CycleRow}
    (h : Db.IdleCycle session c') (hkey : c'.toCycleKey = c.toCycleKey) :
    Db.IdleCycle session c := by
  unfold Db.IdleCycle at h ⊢
  rwa [hkey] at h

/-- The call is open, and one of a decision in the current cycle of an idle session. -/
def Db.IdlesCall (db : Db) (idleTimeoutMs now : ℕ) (key : CallKey) : Prop :=
  (∃ k ∈ db.calls, k.toCallKey = key ∧ k.status.isRunning = true) ∧
    ∃ session ∈ db.selectIdleSessions idleTimeoutMs now, ∃ d ∈ db.decisions,
      key.decisionRowId = d.id ∧ ∃ c ∈ db.cycles, d.cycleId = c.id ∧ Db.IdleCycle session c

theorem stopIdleRow_delivers {session : SessionRow} (hcloses : ∀ k ∈ db.calls,
      k.status.isRunning = true → ∀ d ∈ db.decisions, k.decisionRowId = d.id →
      ∀ c ∈ db.cycles, d.cycleId = c.id → Db.IdleCycle session c → closes k.toCallKey) :
    db.Delivers starts plans closes (stopIdleRow db session) := by
  have hdecisions : db.Delivers starts plans closes (((db.stopIdleCycles
      session).supersedeIdleEvents session).cancelIdleDecisions session) := by
    refine .trans ?_ (.updateDecisions _ fun d _ hw ↦ ?_)
    · exact .of_same ⟨rfl, rfl, rfl⟩
    · exact .of_unsent rfl hw.1 rfl
  refine hdecisions.trans (.trans (.updateCalls _ fun k hk hw ↦ ?_) (.of_same ⟨rfl, rfl, rfl⟩))
  obtain ⟨hrunning, d', hd', hown, c', hc', hcycle, hidle⟩ := hw
  obtain ⟨d, hd, hkey⟩ := Table.key_of_mem_update hd'
  obtain ⟨c, hc, hckey⟩ := Table.key_of_mem_update hc'
  have hid : d'.id = d.id := congrArg DecisionKey.id hkey
  refine .of_closed rfl hrunning (hcloses k hk hrunning d hd (hown.trans hid) c hc ?_ ?_)
  · calc d.cycleId = d'.cycleId := (congrArg DecisionKey.cycleId hkey).symm
      _ = c'.id := hcycle
      _ = c.id := congrArg CycleKey.id hckey
  · exact idleCycle_of_key_eq hidle hckey

/-- What the stopping of idle sessions keeps from one session to the next. -/
structure Db.Idles (timeoutMs now : ℕ) (db db' : Db) : Prop where
  delivers : db.Delivers (fun _ ↦ False) False (db.IdlesCall timeoutMs now) db'
  cycles : ∀ c' ∈ db'.cycles, ∃ c ∈ db.cycles, c'.toCycleKey = c.toCycleKey
  running : ∀ k ∈ db'.calls, k.status.isRunning = true → k ∈ db.calls

theorem Db.Idles.stopIdleRow {timeoutMs : ℕ} {t : Db} (ht : db.Idles timeoutMs now t)
    {session : SessionRow} (hsession : session ∈ db.selectIdleSessions timeoutMs now) :
    db.Idles timeoutMs now (stopIdleRow t session) := by
  refine ⟨ht.delivers.trans (stopIdleRow_delivers ?_), fun c' hc' ↦ ?_, fun k hk hrunning ↦ ?_⟩
  · intro k hk hrunning d hd hown c hc hcycle hidle
    obtain ⟨d₀, hd₀, hstep⟩ := ht.delivers.decision_back id hd
    obtain ⟨c₀, hc₀, hckey⟩ := ht.cycles c hc
    refine ⟨⟨k, ht.running k hk hrunning, rfl, hrunning⟩, session, hsession, d₀, hd₀, ?_, c₀, hc₀,
      ?_, idleCycle_of_key_eq hidle hckey⟩
    · exact hown.trans (congrArg DecisionKey.id hstep.key_eq)
    · calc d₀.cycleId = d.cycleId := (congrArg DecisionKey.cycleId hstep.key_eq).symm
        _ = c.id := hcycle
        _ = c₀.id := congrArg CycleKey.id hckey
  · obtain ⟨c, hc, hkey⟩ := Table.key_of_mem_update hc'
    obtain ⟨c₀, hc₀, hkey₀⟩ := ht.cycles c hc
    exact ⟨c₀, hc₀, hkey.trans hkey₀⟩
  · exact ht.running k (cancelCall_running hk hrunning) hrunning

theorem stopIdleSessions_delivers (idleTimeoutMs : Option ℕ) :
    db.Delivers starts plans
      (fun key ↦ ∃ timeoutMs ∈ idleTimeoutMs, db.IdlesCall timeoutMs now key)
      (stopIdleSessions idleTimeoutMs now db) := by
  unfold stopIdleSessions
  split
  · exact .refl db
  · rename_i timeoutMs
    have hloop := List.foldlRecOn (motive := db.Idles timeoutMs now)
      (db.selectIdleSessions timeoutMs now) stopIdleRow (b := db)
      ⟨.refl db, fun c hc ↦ ⟨c, hc, rfl⟩, fun k hk _ ↦ hk⟩
      fun t ht session hsession ↦ ht.stopIdleRow hsession
    exact hloop.delivers.mono (fun _ ↦ False.elim) False.elim fun key hkey ↦
      ⟨timeoutMs, rfl, hkey⟩

end LlmGateway
