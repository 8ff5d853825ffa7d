import LlmGateway.Guarantees.Responses

/-!
# Rejections and responses in both orders

The gateway says twice what became of a decision: in the HTTP response, which is merged under the
claim of the sender, and in the `decision_rejected` event, which may be delivered more than once.
Whichever comes first changes the status that guards the other. The two orders agree exactly if
the response says rejected: an accepted response after the event is dropped without a trace, while
the event after an accepted response makes the decision manual.
-/

namespace LlmGateway

open Relational

/-- A delivery of a `decision_rejected` event. -/
structure Rejection where
  claimed : ClaimedEvent
  payload : DecisionRejectedPayload

/-- The delivery is about the decision, and gives this reason. -/
structure Rejection.Rejects (r : Rejection) (d : DecisionRow) (reason : String) : Prop where
  gatewayId : d.gatewayId = r.claimed.gatewayId
  decisionId : d.decisionId = r.payload.decisionId
  identity : RejectionIdentityMatches d r.claimed r.payload
  reason : r.payload.reason = reason

namespace Db

variable (db : Db)

/-- The deliveries are merged one after the other. -/
def mergeRejections (rejections : List Rejection) : Db :=
  rejections.foldl (fun db r ↦ (mergeDecisionRejected r.claimed r.payload db).2) db

/-- The database after `record_decision_response`, which changes nothing when it raises. -/
def recordResponse (now : ℕ) (c : ClaimedDecision) (response : DecisionClientResult) : Db :=
  match recordDecisionResponse now c response db with
  | .ok (_, db') => db'
  | .error _ => db

/-- The response is merged between two rows of deliveries. -/
def mergeBoth (now : ℕ) (c : ClaimedDecision) (response : DecisionClientResult)
    (before after : List Rejection) : Db :=
  ((db.mergeRejections before).recordResponse now c response).mergeRejections after

/-- The claim on the decision is lost, or the fence of the decision refuses the response. -/
def ResponseFenced (now : ℕ) (c : ClaimedDecision) : Prop :=
  ∀ j ∈ db.lockClaimedDecision c,
    (j.fenceError now j.decision.claimedFenceVersion).isSome = true

instance (now : ℕ) (c : ClaimedDecision) : Decidable (db.ResponseFenced now c) :=
  inferInstanceAs (Decidable (∀ _ ∈ _, _))

def decisionStatus (id : Uuid) : Option DecisionStatus := (db.decisionById id).map (·.status)

/-- The decision is rejected, and this is its reason. -/
def RejectedFor (id : Uuid) (reason : String) : Prop :=
  ∃ d ∈ db.decisionById id, d.status = .rejected ∧ d.responseReason = some reason

end Db

/-- Two orders of a response and of an event that gives a reason agree on the decision: its status
is the same, rejected for the common reason if there is one, and manual if the two sources
contradict each other. -/
structure RejectionOrdersAgree (id : Uuid) (response : DecisionClientResult) (reason : String)
    (responseFirst eventFirst : Db) : Prop where
  status_eq : responseFirst.decisionStatus id = eventFirst.decisionStatus id
  rejected : response.status = .rejected → response.reason = reason →
    responseFirst.RejectedFor id reason ∧ eventFirst.RejectedFor id reason
  manual : response.status = .accepted →
    responseFirst.decisionStatus id = some .manual ∧ eventFirst.decisionStatus id = some .manual

variable {now : ℕ} {db : Db} {c : ClaimedDecision} {d : DecisionRow} {r : Rejection}
  {rs : List Rejection} {response : DecisionClientResult} {reason : String}

/-! ## One decision -/

/-- The decision after a delivery. -/
def DecisionRow.rejectedFor (reason : String) (d : DecisionRow) : DecisionRow :=
  let resolution := resolveDecisionRejection d.status d.responseReason reason
  { d with
    status := resolution.status
    responseStatus := if resolution.status = .rejected then some "rejected" else d.responseStatus
    responseReason := if resolution.disposition = .applied then some reason else d.responseReason
    errorStage := if resolution.errorCategory.isSome then some "decision_rejected_event" else none
    errorCategory := resolution.errorCategory }

theorem DecisionRow.rejectedFor_sending (h : d.status = .sending) :
    (d.rejectedFor reason).status = .rejected ∧
      (d.rejectedFor reason).responseReason = some reason := by
  simp only [rejectedFor, h, resolveDecisionRejection, if_true, and_self]

theorem DecisionRow.rejectedFor_rejected (h : d.status = .rejected) :
    (d.rejectedFor reason).status = .rejected ∧
      (d.rejectedFor reason).responseReason = d.responseReason := by
  simp only [rejectedFor, h, resolveDecisionRejection, reduceCtorEq, if_false, and_self]

/-- The first reason stays. -/
theorem DecisionRow.rejectedFor_keeps {first : String} (d : DecisionRow)
    (h : d.status = .rejected ∧ d.responseReason = some first) :
    (d.rejectedFor reason).status = .rejected ∧
      (d.rejectedFor reason).responseReason = some first := by
  obtain ⟨hstatus, hreason⟩ := rejectedFor_rejected h.1
  exact ⟨hstatus, hreason.trans h.2⟩

theorem DecisionRow.rejectedFor_manual (h : d.status = .accepted ∨ d.status = .manual) :
    (d.rejectedFor reason).status = .manual := by
  cases h with
  | inl haccepted => simp only [rejectedFor, haccepted, resolveDecisionRejection]
  | inr hmanual => simp only [rejectedFor, hmanual, resolveDecisionRejection]

/-- A delivery is about the decision by what cannot change in it. -/
theorem Rejection.Rejects.of_key (h : r.Rejects d reason) {d' : DecisionRow}
    (hkey : d'.toDecisionKey = d.toDecisionKey) : r.Rejects d' reason := by
  obtain ⟨d', _⟩ := d'
  subst hkey
  exact ⟨h.gatewayId, h.decisionId, h.identity, h.reason⟩

theorem Rejection.Rejects.decisionByName (h : r.Rejects d reason) (hd : d ∈ db.decisions) :
    db.decisionByName r.claimed.gatewayId r.payload.decisionId = some d := by
  refine (Table.find?_eq_some_iff fun q q' hq hq' ↦ ?_).2 ⟨hd, h.gatewayId, h.decisionId⟩
  exact Or.inr (Or.inl ⟨hq.1.trans hq'.1.symm, hq.2.trans hq'.2.symm⟩)

theorem mergeDecisionRejected_mem (hd : d ∈ db.decisions) (h : r.Rejects d reason) :
    d.rejectedFor reason ∈ (mergeDecisionRejected r.claimed r.payload db).2.decisions := by
  rw [mergeDecisionRejected, h.decisionByName hd]
  simp only [h.identity, not_true_eq_false, if_false, h.reason]
  exact Table.set_mem_update hd rfl

/-- What every delivery keeps of the decision, all of them keep. -/
theorem mergeRejections_keeps {P : DecisionRow → Prop} (hP : ∀ d, P d → P (d.rejectedFor reason))
    (hd : d ∈ db.decisions) (hrs : ∀ r ∈ rs, r.Rejects d reason) (h : P d) :
    ∃ d' ∈ (db.mergeRejections rs).decisions, d'.toDecisionKey = d.toDecisionKey ∧ P d' := by
  induction rs generalizing db d with
  | nil => exact ⟨d, hd, rfl, h⟩
  | cons r rs ih =>
    have hmem := mergeDecisionRejected_mem hd (hrs r List.mem_cons_self)
    have hrest : ∀ r' ∈ rs, r'.Rejects (d.rejectedFor reason) reason := fun r' hr' ↦
      (hrs r' (List.mem_cons_of_mem r hr')).of_key rfl
    obtain ⟨d', hd', hkey, h'⟩ := ih hmem hrest (hP d h)
    exact ⟨d', hd', hkey, h'⟩

/-- The first delivery decides what the others keep. -/
theorem mergeRejections_reaches {P : DecisionRow → Prop}
    (hP : ∀ d, P d → P (d.rejectedFor reason)) (hd : d ∈ db.decisions) (hne : rs ≠ [])
    (hrs : ∀ r ∈ rs, r.Rejects d reason) (h : P (d.rejectedFor reason)) :
    ∃ d' ∈ (db.mergeRejections rs).decisions, d'.toDecisionKey = d.toDecisionKey ∧ P d' := by
  cases rs with
  | nil => exact absurd rfl hne
  | cons r rs =>
    have hmem := mergeDecisionRejected_mem hd (hrs r List.mem_cons_self)
    have hrest : ∀ r' ∈ rs, r'.Rejects (d.rejectedFor reason) reason := fun r' hr' ↦
      (hrs r' (List.mem_cons_of_mem r hr')).of_key rfl
    obtain ⟨d', hd', hkey, h'⟩ := mergeRejections_keeps hP hmem hrest h
    exact ⟨d', hd', hkey, h'⟩

/-! ## The response -/

/-- A decision that is not being sent takes no response. -/
theorem recordResponse_of_closed (hd : d ∈ db.decisions) (hid : d.id = c.rowId)
    (h : d.status ≠ .sending) : db.recordResponse now c response = db := by
  have hheld : ¬d.HeldBy c := fun hheld ↦ h hheld.1
  have hlock : db.lockClaimedDecision c = none := by
    rw [Db.lockClaimedDecision, decisionById_of_mem hd hid, Option.filter_some,
      decide_eq_false hheld]
    rfl
  rw [Db.recordResponse, recordDecisionResponse, hlock]

theorem recordResponse_of_fenced (h : db.ResponseFenced now c) :
    db.recordResponse now c response = db := by
  rw [Db.recordResponse, recordDecisionResponse]
  cases hlock : db.lockClaimedDecision c with
  | none => rfl
  | some j => simp only [h j hlock, if_true]

/-- A rejection that is not fenced closes the decision: for the reason that it gives, unless it
reports a conflict of keys. -/
theorem recordResponse_rejected (hd : d ∈ db.decisions) (hid : d.id = c.rowId)
    (hrejected : response.status = .rejected) (h : ¬db.ResponseFenced now c) :
    ∃ d' ∈ (db.recordResponse now c response).decisions, d'.toDecisionKey = d.toDecisionKey ∧
      d'.status = (if response.isIdempotencyConflict then .manual else .rejected) ∧
      d'.responseReason = some (String.ofList (response.reason.toList.take 256)) := by
  obtain ⟨j, hlock, hfence⟩ : ∃ j, db.lockClaimedDecision c = some j ∧
      ¬(j.fenceError now j.decision.claimedFenceVersion).isSome = true := by
    by_contra hnone
    exact h fun j hj ↦ by_contra fun hj' ↦ hnone ⟨j, hj, hj'⟩
  obtain ⟨hmem, hrow, hheld, -⟩ := lockClaimedDecision_eq_some hlock
  obtain rfl : d = j.decision := decisionRow_eq_of_id hd hmem (hid.trans hrow.symm)
  have hset (record : ResponseRecord) :
      _ ∈ (db.completeDecisionResponse c response record).decisions :=
    Table.set_mem_update hd ⟨hid, hheld⟩
  by_cases hconflict : response.isIdempotencyConflict = true
  · have hdb : db.recordResponse now c response = db.completeDecisionResponse c response
        ⟨.manual, some "http", some "idempotency_key_conflict", response.skillCallId⟩ := by
      simp only [Db.recordResponse, recordDecisionResponse, hlock, hfence, hconflict, if_true,
        if_false, Bool.false_eq_true]
    rw [hdb, if_pos hconflict]
    exact ⟨_, hset _, rfl, rfl, rfl⟩
  · have hdb : db.recordResponse now c response = db.completeDecisionResponse c response
        ⟨.rejected, none, none, response.skillCallId⟩ := by
      simp only [Db.recordResponse, recordDecisionResponse, hlock, hfence, hconflict, hrejected,
        if_false, Bool.false_eq_true, reduceCtorEq, false_and]
    rw [hdb, if_neg hconflict]
    exact ⟨_, hset _, rfl, rfl, rfl⟩

/-- An accepted response that is not fenced makes the decision accepted or manual. -/
theorem Responds.status_of_accepted {db' t : Db} {j : JoinedDecision} {record : ResponseRecord}
    (h : Responds now c response db db' j record t) (haccepted : response.status = .accepted) :
    record.status = .accepted ∨ record.status = .manual := by
  by_cases hskill : c.action.isSkill
  · obtain ⟨skillCallId, -, hbind⟩ := h.skill haccepted hskill
    rw [show record = _ from congrArg Prod.fst hbind]
    exact bindResponseCall_status now c j.decision skillCallId db
  · exact Or.inl ((h.other fun hboth ↦ hskill hboth.2).2.2 haccepted)

/-! ## The two orders -/

theorem decisionStatus_of_mem {id : Uuid} (hd : d ∈ db.decisions) (hid : d.id = id) :
    db.decisionStatus id = some d.status := by
  rw [Db.decisionStatus, decisionById_of_mem hd hid, Option.map_some]

theorem Db.RejectedFor.decisionStatus {id : Uuid} (h : db.RejectedFor id reason) :
    db.decisionStatus id = some .rejected := by
  obtain ⟨d, hd, hstatus, -⟩ := h
  rw [Db.decisionStatus, Option.mem_def.1 hd, Option.map_some, hstatus]

theorem String.take_of_length_le (h : reason.length ≤ 256) :
    String.ofList (reason.toList.take 256) = reason := by
  rw [List.take_of_length_le h, String.ofList_toList]

/-- Deliveries to a decision that is being sent reject it for their reason. -/
theorem mergeRejections_rejectedFor (hd : d ∈ db.decisions) (hid : d.id = c.rowId)
    (hsending : d.status = .sending) (hne : rs ≠ []) (hrs : ∀ r ∈ rs, r.Rejects d reason) :
    ∃ d' ∈ (db.mergeRejections rs).decisions, d'.id = c.rowId ∧
      d'.toDecisionKey = d.toDecisionKey ∧ d'.status = .rejected ∧
      d'.responseReason = some reason := by
  obtain ⟨d', hd', hkey, hstatus, hreason⟩ :=
    mergeRejections_reaches DecisionRow.rejectedFor_keeps hd hne hrs (DecisionRow.rejectedFor_sending hsending)
  exact ⟨d', hd', (congrArg DecisionKey.id hkey).trans hid, hkey, hstatus, hreason⟩

/-- The event comes first: the decision is rejected for its reason, and the response is dropped. -/
theorem mergeBoth_eventFirst {before after : List Rejection} (hd : d ∈ db.decisions)
    (hid : d.id = c.rowId) (hsending : d.status = .sending) (hne : before ≠ [])
    (hrs : ∀ r ∈ before ++ after, r.Rejects d reason) :
    (db.mergeBoth now c response before after).RejectedFor c.rowId reason := by
  obtain ⟨d', hd', hid', hkey, hstatus, hreason⟩ := mergeRejections_rejectedFor hd hid hsending hne
    fun r hr ↦ hrs r (List.mem_append_left after hr)
  have hclosed : d'.status ≠ .sending := by
    rw [hstatus]
    exact DecisionStatus.noConfusion
  rw [Db.mergeBoth, recordResponse_of_closed hd' hid' hclosed]
  obtain ⟨d'', hd'', hkey', hrejected⟩ := mergeRejections_keeps DecisionRow.rejectedFor_keeps hd'
    (fun r hr ↦ (hrs r (List.mem_append_right before hr)).of_key hkey) ⟨hstatus, hreason⟩
  have hid'' : d''.id = c.rowId := (congrArg DecisionKey.id hkey').trans hid'
  exact ⟨d'', decisionById_of_mem hd'' hid'', hrejected⟩

/-- A conflict of keys comes first: the decision is manual, and stays so. -/
theorem mergeBoth_conflictFirst (hd : d ∈ db.decisions) (hid : d.id = c.rowId)
    (hconflict : response.isIdempotencyConflict = true) (hfence : ¬db.ResponseFenced now c)
    (hrs : ∀ r ∈ rs, r.Rejects d reason) :
    (db.mergeBoth now c response [] rs).decisionStatus c.rowId = some .manual := by
  have hrejected : response.status = .rejected := (of_decide_eq_true hconflict).1
  obtain ⟨d', hd', hkey, hstatus, -⟩ := recordResponse_rejected hd hid hrejected hfence
  rw [if_pos hconflict] at hstatus
  obtain ⟨d'', hd'', hkey', hmanual⟩ := mergeRejections_keeps
    (fun q hq ↦ q.rejectedFor_manual (Or.inr hq)) hd'
    (fun r hr ↦ (hrs r hr).of_key hkey) hstatus
  have hid'' : d''.id = c.rowId := (congrArg DecisionKey.id (hkey'.trans hkey)).trans hid
  rw [← hmanual]
  exact decisionStatus_of_mem hd'' hid''

/-- Another rejection comes first: the decision keeps its reason. -/
theorem mergeBoth_rejectionFirst (hd : d ∈ db.decisions) (hid : d.id = c.rowId)
    (hrejected : response.status = .rejected) (hconflict : ¬response.isIdempotencyConflict = true)
    (hfence : ¬db.ResponseFenced now c) (hrs : ∀ r ∈ rs, r.Rejects d reason) :
    (db.mergeBoth now c response [] rs).RejectedFor c.rowId
      (String.ofList (response.reason.toList.take 256)) := by
  obtain ⟨d', hd', hkey, hstatus, hreason⟩ := recordResponse_rejected hd hid hrejected hfence
  rw [if_neg hconflict] at hstatus
  obtain ⟨d'', hd'', hkey', hkept⟩ := mergeRejections_keeps DecisionRow.rejectedFor_keeps hd'
    (fun r hr ↦ (hrs r hr).of_key hkey) ⟨hstatus, hreason⟩
  have hid'' : d''.id = c.rowId := (congrArg DecisionKey.id (hkey'.trans hkey)).trans hid
  exact ⟨d'', decisionById_of_mem hd'' hid'', hkept⟩

/-- A response that is refused comes first: the deliveries reject the decision. -/
theorem mergeBoth_fencedFirst (hd : d ∈ db.decisions) (hid : d.id = c.rowId)
    (hsending : d.status = .sending) (hfence : db.ResponseFenced now c) (hne : rs ≠ [])
    (hrs : ∀ r ∈ rs, r.Rejects d reason) :
    (db.mergeBoth now c response [] rs).RejectedFor c.rowId reason := by
  have hdb : db.mergeBoth now c response [] rs = db.mergeRejections rs :=
    congrArg (·.mergeRejections rs) (recordResponse_of_fenced hfence)
  rw [hdb]
  obtain ⟨d', hd', hid', -, hkept⟩ := mergeRejections_rejectedFor hd hid hsending hne hrs
  exact ⟨d', decisionById_of_mem hd' hid', hkept⟩

/-- An accepted response comes first: the deliveries make the decision manual. -/
theorem mergeBoth_acceptedFirst {recorded : Bool} {db' : Db} (hd : d ∈ db.decisions)
    (hid : d.id = c.rowId) (haccepted : response.status = .accepted)
    (hfence : ¬db.ResponseFenced now c)
    (hresult : recordDecisionResponse now c response db = .ok (recorded, db')) (hne : rs ≠ [])
    (hrs : ∀ r ∈ rs, r.Rejects d reason) :
    (db.mergeBoth now c response [] rs).decisionStatus c.rowId = some .manual := by
  cases recordDecisionResponse_cases hresult with
  | inl hdropped => exact absurd hdropped.2.2 hfence
  | inr hrecorded =>
    obtain ⟨-, j, record, t, hresponds⟩ := hrecorded
    obtain ⟨hmem, hrow, -⟩ := lockClaimedDecision_eq_some hresponds.lock_eq
    obtain rfl : d = j.decision := decisionRow_eq_of_id hd hmem (hid.trans hrow.symm)
    obtain ⟨d', hd', hkey, hstatus⟩ := hresponds.decision
    have hopen : d'.status = .accepted ∨ d'.status = .manual := by
      rw [hstatus]
      exact hresponds.status_of_accepted haccepted
    have hdb : db.recordResponse now c response = db' := by rw [Db.recordResponse, hresult]
    rw [Db.mergeBoth]
    rw [← hdb] at hd'
    obtain ⟨d'', hd'', hkey', hmanual⟩ := mergeRejections_reaches
      (fun q hq ↦ q.rejectedFor_manual (Or.inr hq)) hd' hne
      (fun r hr ↦ (hrs r hr).of_key hkey) (DecisionRow.rejectedFor_manual hopen)
    have hid'' : d''.id = c.rowId := (congrArg DecisionKey.id (hkey'.trans hkey)).trans hid
    rw [← hmanual]
    exact decisionStatus_of_mem hd'' hid''

/-- The two orders agree exactly when the response says rejected, and does not report a conflict of
keys unless it is refused anyway. -/
theorem rejection_orders_agree_iff {before after : List Rejection}
    (hd : db.decisionById c.rowId = some d) (hsending : d.status = .sending)
    (hlength : reason.length ≤ 256) (hrs : rs ≠ []) (hbefore : before ≠ [])
    (hrejects : ∀ r ∈ rs ++ (before ++ after), r.Rejects d reason) :
    RejectionOrdersAgree c.rowId response reason (db.mergeBoth now c response [] rs)
        (db.mergeBoth now c response before after) ↔
      response.status = .rejected ∧
        (response.isIdempotencyConflict = true → db.ResponseFenced now c) := by
  obtain ⟨hmem, hid⟩ := decisionById_eq_some.1 hd
  have hfirst : ∀ r ∈ rs, r.Rejects d reason := fun r hr ↦
    hrejects r (List.mem_append_left _ hr)
  have hevent : (db.mergeBoth now c response before after).RejectedFor c.rowId reason :=
    mergeBoth_eventFirst hmem hid hsending hbefore fun r hr ↦
      hrejects r (List.mem_append_right rs hr)
  constructor
  · intro hagree
    constructor
    · cases hstatus : response.status with
      | rejected => rfl
      | accepted =>
        have hmanual := (hagree.manual hstatus).2
        rw [hevent.decisionStatus] at hmanual
        cases hmanual
    · intro hconflict
      by_contra hfence
      have hmanual := mergeBoth_conflictFirst hmem hid hconflict hfence hfirst
      rw [hagree.status_eq, hevent.decisionStatus] at hmanual
      cases hmanual
  · intro hcondition
    obtain ⟨hrejected, hfenced⟩ := hcondition
    have hnot : ¬response.status = .accepted := by
      rw [hrejected]
      exact DecisionResponseStatus.noConfusion
    by_cases hfence : db.ResponseFenced now c
    · have hresponse : (db.mergeBoth now c response [] rs).RejectedFor c.rowId reason :=
        mergeBoth_fencedFirst hmem hid hsending hfence hrs hfirst
      refine ⟨?_, fun _ _ ↦ ⟨hresponse, hevent⟩, fun haccepted ↦ absurd haccepted hnot⟩
      rw [hresponse.decisionStatus, hevent.decisionStatus]
    · have hconflict : ¬response.isIdempotencyConflict = true := fun h ↦ hfence (hfenced h)
      have hresponse := mergeBoth_rejectionFirst hmem hid hrejected hconflict hfence hfirst
      refine ⟨?_, fun _ hcommon ↦ ⟨?_, hevent⟩, fun haccepted ↦ absurd haccepted hnot⟩
      · rw [hresponse.decisionStatus, hevent.decisionStatus]
      · rwa [hcommon, String.take_of_length_le hlength] at hresponse

section Examples

open Scenario World

/-- A decision to wait is being sent, and the event that rejects it is claimed. -/
def rejectedWait : World :=
  after [submit [sessionStarted "e1" 1 "L1" 1], claim, .persist (token 3),
    .plan (token 3) ⟨"rest", 100, .wait 5⟩ "d", finish 3, .claimDecision "sender",
    submit [plain "e2" 1 2 0 (rejected "d")], claim]

def waitPayload : DecisionRejectedPayload := ⟨"d", .wait, none, "reason", 0⟩

/-- The response that accepts the decision to wait, and the one that rejects it for the reason of
the event. -/
def acceptedWait : DecisionClientResult := ⟨200, .accepted, "ok", none, none⟩

def refusedWait : DecisionClientResult := ⟨409, .rejected, "reason", none, none⟩

theorem rejectedWait_claims : ∃ c ∈ rejectedWait.decisionClaims, ∃ e ∈ rejectedWait.claims,
    e.claimToken = token 7 ∧ ∃ d ∈ rejectedWait.db.decisions, d.id = c.rowId ∧
      d.status = .sending ∧ d.gatewayId = e.gatewayId ∧ d.decisionId = waitPayload.decisionId ∧
      RejectionIdentityMatches d e waitPayload ∧
      (rejectedWait.db.mergeBoth rejectedWait.now c acceptedWait [] [⟨e, waitPayload⟩]).decisionStatus
        c.rowId = some .manual := by
  decide

/-- The response rejects the decision for the reason of the event: both orders agree. -/
theorem rejection_orders_agree_refusedWait : ∃ c ∈ rejectedWait.decisionClaims, ∃ r : Rejection,
    ∃ d ∈ rejectedWait.db.decisions, r.Rejects d "reason" ∧
      RejectionOrdersAgree c.rowId refusedWait "reason"
        (rejectedWait.db.mergeBoth rejectedWait.now c refusedWait [] [r])
        (rejectedWait.db.mergeBoth rejectedWait.now c refusedWait [r] []) := by
  obtain ⟨c, hc, e, -, -, d, hd, hid, hsending, hgateway, hname, hidentity, -⟩ := rejectedWait_claims
  have hrejects : (Rejection.mk e waitPayload).Rejects d "reason" :=
    ⟨hgateway, hname, hidentity, rfl⟩
  have hall : ∀ r ∈ [Rejection.mk e waitPayload] ++ ([Rejection.mk e waitPayload] ++ []),
      r.Rejects d "reason" := by
    intro r hr
    simp only [List.append_nil, List.cons_append, List.nil_append, List.mem_cons,
      List.not_mem_nil, or_false, or_self] at hr
    rwa [hr]
  refine ⟨c, hc, ⟨e, waitPayload⟩, d, hd, hrejects, ?_⟩
  exact (rejection_orders_agree_iff (decisionById_of_mem hd hid) hsending (by decide)
    (List.cons_ne_nil _ _) (List.cons_ne_nil _ _) hall).2
    ⟨rfl, fun hconflict ↦ absurd hconflict (by decide)⟩

/-- The response accepts the decision: after the response the event makes it manual, but after the
event it stays rejected, and the acceptance is lost. -/
theorem acceptance_lost_after_rejection : ∃ c ∈ rejectedWait.decisionClaims, ∃ r : Rejection,
    ∃ d ∈ rejectedWait.db.decisions, d.id = c.rowId ∧ d.status = .sending ∧ r.Rejects d "reason" ∧
      (rejectedWait.db.mergeBoth rejectedWait.now c acceptedWait [] [r]).decisionStatus c.rowId =
        some .manual ∧
      (rejectedWait.db.mergeBoth rejectedWait.now c acceptedWait [r] []).decisionStatus c.rowId =
        some .rejected ∧
      ¬RejectionOrdersAgree c.rowId acceptedWait "reason"
        (rejectedWait.db.mergeBoth rejectedWait.now c acceptedWait [] [r])
        (rejectedWait.db.mergeBoth rejectedWait.now c acceptedWait [r] []) := by
  obtain ⟨c, hc, e, -, -, d, hd, hid, hsending, hgateway, hname, hidentity, hmanual⟩ :=
    rejectedWait_claims
  have hrejects : (Rejection.mk e waitPayload).Rejects d "reason" :=
    ⟨hgateway, hname, hidentity, rfl⟩
  have hone : ∀ r ∈ [Rejection.mk e waitPayload] ++ [], r.Rejects d "reason" := by
    intro r hr
    rw [List.append_nil] at hr
    rwa [List.mem_singleton.1 hr]
  have hevent : (rejectedWait.db.mergeBoth rejectedWait.now c acceptedWait [⟨e, waitPayload⟩]
      []).decisionStatus c.rowId = some .rejected :=
    (mergeBoth_eventFirst hd hid hsending (List.cons_ne_nil _ _) hone).decisionStatus
  refine ⟨c, hc, ⟨e, waitPayload⟩, d, hd, hid, hsending, hrejects, hmanual, hevent, ?_⟩
  intro hagree
  have hstatus := hagree.status_eq
  rw [hmanual, hevent] at hstatus
  cases hstatus

end Examples

end LlmGateway
