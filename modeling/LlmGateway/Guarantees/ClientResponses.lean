import LlmGateway.Decision.ClientResponse
import LlmGateway.Relational.Outcome

/-!
# Which responses are taken

A response is taken as an acceptance or as a rejection exactly when its shape, the status, the
echoed identity and the named call allow it; all others are protocol errors.
-/

namespace LlmGateway.DecisionClient

open Relational

/-! ## The checks -/

/-- What the identity of a response has, the request has too. -/
structure Echoes (identity : ResponseIdentity) (request : List (Text × Json)) : Prop where
  traceId : ∀ text ∈ identity.traceId, Json.get? request "traceId" = some (.str text)
  sessionId : ∀ text ∈ identity.sessionId, Json.get? request "sessionId" = some (.str text)
  decisionId : ∀ text ∈ identity.decisionId, Json.get? request "decisionId" = some (.str text)
  decisionLeaseId : ∀ text ∈ identity.decisionLeaseId,
    Json.get? request "decisionLeaseId" = some (.str text)
  controlGeneration : ∀ number ∈ identity.controlGeneration,
    ∃ value ∈ Json.get? request "controlGeneration", value.IsNumber number
  stateVersion : ∀ number ∈ identity.stateVersion,
    ∃ value ∈ Json.get? request "stateVersion", value.IsNumber number

/-- An acceptance names a call when its action starts or stops one, and only then. -/
def NamesCall (requestAction : Text) (skillCallId : Option Text) : Prop :=
  (requestAction = "call_skill" ∨ requestAction = "stop_hosting") ∧ skillCallId ≠ none ∨
    (requestAction = "wait" ∨ requestAction = "no_op") ∧ skillCallId = none

theorem validateSkillCallId_eq_ok_iff {requestAction : Text} {httpStatus : ℤ}
    {skillCallId : Option Text} {u : Unit} :
    validateSkillCallId requestAction httpStatus skillCallId = .ok u ↔
      NamesCall requestAction skillCallId := by
  have hapart : ∀ action : Text, action = "call_skill" ∨ action = "stop_hosting" →
      ¬(action = "wait" ∨ action = "no_op") := by
    rintro action (rfl | rfl) <;> decide
  simp only [validateSkillCallId, NamesCall, List.mem_cons, List.not_mem_nil, or_false]
  split_ifs with hcall hnone hwait hnone
  · simp only [hcall, hnone, hapart _ hcall, ne_eq, not_true_eq_false, and_false,
      false_and, or_false]
  · simp only [hcall, hnone, ne_eq, not_false_eq_true, and_self, true_or]
  · simp only [hwait, hnone, and_self, or_true]
  · simp only [hcall, hnone, false_and, and_false, or_false]
  · simp only [hcall, hwait, false_and, or_false]

variable {status : DecisionResponseStatus} {expected : List (Text × Json)} {key : Text} {u : Unit}

theorem equals_str_iff {given : Option Json} {text : Text} :
    Equals (.str text) (given.getD .null) ↔ given = some (.str text) := by
  have htext : ¬∃ number ∈ intValue (.str text), (given.getD .null).IsNumber number :=
    fun ⟨_, hnumber, _⟩ ↦ Option.not_mem_none _ hnumber
  rw [Equals, or_iff_left htext]
  cases given with
  | none => exact iff_of_false Json.noConfusion nofun
  | some value => exact Option.some_inj.symm

theorem equals_int_iff {given : Option Json} {number : ℤ} :
    Equals (.int number) (given.getD .null) ↔ ∃ value ∈ given, value.IsNumber number := by
  have hnumber : Equals (.int number) (given.getD .null) ↔
      (given.getD .null).IsNumber number := by
    constructor
    · rintro (hsame | ⟨_, ⟨⟩, hnumber⟩)
      · rw [hsame]
        rfl
      · exact hnumber
    · exact fun hnumber ↦ Or.inr ⟨number, rfl, hnumber⟩
  rw [hnumber]
  cases given with
  | none => exact iff_of_false id fun ⟨_, hvalue, _⟩ ↦ Option.not_mem_none _ hvalue
  | some value =>
    simp only [Option.mem_some_iff, exists_eq_left']
    exact Iff.rfl

theorem validateField_some_eq_ok_iff {actual : Json} :
    validateField status expected (key, some actual) = .ok u ↔
      Equals actual ((Json.get? expected key).getD .null) := by
  simp only [validateField]
  split_ifs with hsame
  · exact iff_of_true rfl hsame
  · simp only [hsame]

/-- A field that need not be there is compared when it is. -/
theorem validateField_text_eq_ok_iff {text : Option Text}
    (h : text ≠ none ∨ status = .rejected ∨ key = "decisionLeaseId") :
    validateField status expected (key, text.map .str) = .ok u ↔
      ∀ value ∈ text, Json.get? expected key = some (.str value) := by
  cases text with
  | none =>
    have hskip : ¬(status = .accepted ∧ key ≠ "decisionLeaseId") := by
      rintro ⟨rfl, hkey⟩
      simp only [ne_eq, not_true_eq_false, reduceCtorEq, hkey, or_self] at h
    simp only [validateField, Option.map_none, if_neg hskip, Option.not_mem_none, false_imp_iff,
      implies_true]
  | some value =>
    rw [Option.map_some, validateField_some_eq_ok_iff, equals_str_iff]
    simp only [Option.mem_some_iff, forall_eq']

theorem validateField_int_eq_ok_iff {number : ℤ} :
    validateField status expected (key, (some number).map .int) = .ok u ↔
      ∀ given ∈ some number, ∃ value ∈ Json.get? expected key, value.IsNumber given := by
  rw [Option.map_some, validateField_some_eq_ok_iff, equals_int_iff]
  simp only [Option.mem_some_iff, forall_eq']

/-- The identity is that of the request, as far as the response has it. -/
theorem validateResponseIdentity_eq_ok_iff {response : GatewayV2DecisionResponse} :
    validateResponseIdentity response expected = .ok () ↔ Echoes response.identity expected := by
  have hiff : ∀ identity : ResponseIdentity, ∀ status,
      (status = .rejected ∨ identity.traceId ≠ none ∧ identity.sessionId ≠ none ∧
        identity.decisionId ≠ none) →
      identity.controlGeneration ≠ none → identity.stateVersion ≠ none →
      (identity.fields.forM (validateField status expected) = .ok () ↔
        Echoes identity expected) := by
    intro identity status htexts hgeneration hversion
    obtain ⟨generation, hgeneration⟩ := Option.ne_none_iff_exists'.1 hgeneration
    obtain ⟨version, hversion⟩ := Option.ne_none_iff_exists'.1 hversion
    rw [forM_eq_ok_iff, ResponseIdentity.fields, hgeneration, hversion]
    simp only [List.forall_mem_cons]
    rw [validateField_text_eq_ok_iff (htexts.symm.imp And.left Or.inl),
      validateField_text_eq_ok_iff (htexts.symm.imp (·.2.1) Or.inl),
      validateField_text_eq_ok_iff (htexts.symm.imp (·.2.2) Or.inl),
      validateField_text_eq_ok_iff (Or.inr (Or.inr rfl)), validateField_int_eq_ok_iff,
      validateField_int_eq_ok_iff, ← hgeneration, ← hversion]
    constructor
    · exact fun ⟨h1, h2, h3, h4, h5, h6, _⟩ ↦ ⟨h1, h2, h3, h4, h5, h6⟩
    · exact fun h ↦ ⟨h.traceId, h.sessionId, h.decisionId, h.decisionLeaseId, h.controlGeneration,
        h.stateVersion, List.forall_mem_nil _⟩
  cases response with
  | accepted => exact hiff _ _ (Or.inr ⟨nofun, nofun, nofun⟩) nofun nofun
  | rejected => exact hiff _ _ (Or.inl rfl) nofun nofun

theorem filledText_eq_some_iff {given : Option Json} {text : Text} :
    filledText given = some text ↔ given = some (.str text) ∧ text.codePoints ≠ [] := by
  unfold filledText
  split
  · rename_i filled
    split_ifs with hempty
    · refine iff_of_false nofun ?_
      rintro ⟨hsame, hfilled⟩
      rw [Option.some.injEq, Json.str.injEq] at hsame
      exact hfilled (hsame ▸ hempty)
    · rw [Option.some.injEq, Option.some.injEq, Json.str.injEq]
      exact ⟨fun hsame ↦ ⟨hsame, hsame ▸ hempty⟩, And.left⟩
  · rename_i hother
    exact iff_of_false nofun fun h ↦ hother text h.1

/-- The lease of the request is its text, if that is not empty. -/
theorem requestLease_eq_some_iff {requestIdentity : Option (List (Text × Json))} {lease : Text} :
    requestLease requestIdentity = some lease ↔
      (∃ identity ∈ requestIdentity, Json.get? identity "decisionLeaseId" = some (.str lease)) ∧
        lease.codePoints ≠ [] := by
  rw [requestLease, filledText_eq_some_iff, Option.bind_eq_some_iff]
  rfl

/-- The lease of an acceptance is its own, or that of the request. -/
def LeaseOf (response : GatewayV2DecisionAccepted)
    (requestIdentity : Option (List (Text × Json))) (lease : Text) : Prop :=
  response.decisionLeaseId = some lease ∨ response.decisionLeaseId = none ∧
    (∃ identity ∈ requestIdentity, Json.get? identity "decisionLeaseId" = some (.str lease)) ∧
      lease.codePoints ≠ []

theorem resultLease_accepted_eq_ok_iff {response : GatewayV2DecisionAccepted}
    {requestIdentity : Option (List (Text × Json))} {lease : Option Text} :
    resultLease (.accepted response) requestIdentity = .ok lease ↔
      ∃ text, LeaseOf response requestIdentity text ∧ lease = some text := by
  simp only [resultLease, LeaseOf, GatewayV2DecisionResponse.status,
    GatewayV2DecisionResponse.identity, true_and, ← requestLease_eq_some_iff]
  cases response.decisionLeaseId with
  | some own =>
    simp only [reduceCtorEq, if_false, Except.ok.injEq, Option.some.injEq, false_and, or_false,
      exists_eq_left', eq_comm]
  | none =>
    simp only [if_true, reduceCtorEq, true_and, false_or]
    cases requestLease requestIdentity with
    | none => simp only [reduceCtorEq, false_and, exists_false]
    | some text => simp only [Except.ok.injEq, Option.some.injEq, exists_eq_left', eq_comm]

theorem resultLease_rejected {response : GatewayV2DecisionRejected}
    {requestIdentity : Option (List (Text × Json))} :
    resultLease (.rejected response) requestIdentity = .ok response.decisionLeaseId :=
  if_neg fun h ↦ nomatch h.1

theorem forM_validateResponseIdentity_eq_ok_iff {response : GatewayV2DecisionResponse}
    {requestIdentity : Option (List (Text × Json))} {u : Unit} :
    requestIdentity.forM (validateResponseIdentity response) = .ok u ↔
      ∀ identity ∈ requestIdentity, Echoes response.identity identity := by
  cases requestIdentity with
  | none => exact iff_of_true rfl fun _ h ↦ absurd h (Option.not_mem_none _)
  | some identity =>
    simp only [Option.mem_some_iff, forall_eq', ← validateResponseIdentity_eq_ok_iff]
    exact Iff.rfl

/-! ## The result -/

variable {isLiteral : Bool → Json → Bool} {requestAction : Text} {httpStatus : ℤ} {payload : Json}
  {requestIdentity : Option (List (Text × Json))} {result : DecisionClientResult}

/-- The result of an acceptance for a lease. -/
def acceptedResult (httpStatus : ℤ) (payload : Json) (response : GatewayV2DecisionAccepted)
    (lease : Text) : DecisionClientResult :=
  { httpStatus, status := .accepted, reason := response.reason
    skillCallId := response.skillCallId
    identity := { (GatewayV2DecisionResponse.accepted response).identity with
      decisionLeaseId := some lease }
    responseBodyJson := bodyOf payload }

def rejectedResult (httpStatus : ℤ) (payload : Json) (response : GatewayV2DecisionRejected) :
    DecisionClientResult :=
  { httpStatus, status := .rejected, reason := response.reason, skillCallId := none
    identity := (GatewayV2DecisionResponse.rejected response).identity
    responseBodyJson := bodyOf payload }

/-- The response is an acceptance that is taken, with this result. -/
def Accepts (isLiteral : Bool → Json → Bool) (requestAction : Text) (httpStatus : ℤ)
    (payload : Json) (requestIdentity : Option (List (Text × Json)))
    (result : DecisionClientResult) : Prop :=
  ∃ response, parseGatewayV2DecisionResponse isLiteral payload = some (.accepted response) ∧
    (200 ≤ httpStatus ∧ httpStatus < 300) ∧
    (∀ identity ∈ requestIdentity,
      Echoes (GatewayV2DecisionResponse.accepted response).identity identity) ∧
    NamesCall requestAction response.skillCallId ∧
    ∃ lease, LeaseOf response requestIdentity lease ∧
      result = acceptedResult httpStatus payload response lease

/-- The response is a rejection that is taken, with this result. -/
def Rejects (isLiteral : Bool → Json → Bool) (httpStatus : ℤ) (payload : Json)
    (requestIdentity : Option (List (Text × Json))) (result : DecisionClientResult) : Prop :=
  ∃ response, parseGatewayV2DecisionResponse isLiteral payload = some (.rejected response) ∧
    (∀ identity ∈ requestIdentity,
      Echoes (GatewayV2DecisionResponse.rejected response).identity identity) ∧
    result = rejectedResult httpStatus payload response

theorem validateDecisionResponse_eq_ok_iff :
    validateDecisionResponse isLiteral requestAction httpStatus payload requestIdentity =
        .ok result ↔
      Accepts isLiteral requestAction httpStatus payload requestIdentity result ∨
        Rejects isLiteral httpStatus payload requestIdentity result := by
  unfold validateDecisionResponse Accepts Rejects
  cases parseGatewayV2DecisionResponse isLiteral payload with
  | none => simp only [reduceCtorEq, false_and, exists_false, or_self]
  | some response =>
    simp only [Option.some.injEq, bind_eq_ok_iff, forM_validateResponseIdentity_eq_ok_iff,
      exists_const]
    cases response with
    | accepted response =>
      simp only [GatewayV2DecisionResponse.accepted.injEq, exists_eq_left', reduceCtorEq, false_and,
        exists_false, or_false, resultLease_accepted_eq_ok_iff]
      constructor
      · rintro ⟨hechoes, _, ⟨lease, hlease, rfl⟩, hchecked⟩
        split_ifs at hchecked with hstatus
        obtain ⟨_, hnames, hresult⟩ := bind_eq_ok_iff.1 hchecked
        exact ⟨hstatus, hechoes, validateSkillCallId_eq_ok_iff.1 hnames, lease, hlease,
          (Except.ok.inj hresult).symm⟩
      · rintro ⟨hstatus, hechoes, hnames, lease, hlease, rfl⟩
        refine ⟨hechoes, _, ⟨lease, hlease, rfl⟩, ?_⟩
        rw [if_neg (not_not.2 hstatus), bind_eq_ok_iff]
        exact ⟨(), validateSkillCallId_eq_ok_iff.2 hnames, rfl⟩
    | rejected response =>
      simp only [GatewayV2DecisionResponse.rejected.injEq, exists_eq_left', reduceCtorEq, false_and,
        exists_false, false_or, resultLease_rejected, Except.ok.injEq]
      exact and_congr_right fun _ ↦ eq_comm

theorem Accepts.status_eq
    (h : Accepts isLiteral requestAction httpStatus payload requestIdentity result) :
    result.status = .accepted := by
  obtain ⟨response, -, -, -, -, lease, -, rfl⟩ := h
  rfl

theorem Rejects.status_eq (h : Rejects isLiteral httpStatus payload requestIdentity result) :
    result.status = .rejected := by
  obtain ⟨response, -, -, rfl⟩ := h
  rfl

/-- A response is accepted, or rejected, exactly when it is an acceptance, or a rejection, that is
taken, and every other one is a protocol error. -/
theorem responses_validated (isLiteral : Bool → Json → Bool) (requestAction : Text)
    (httpStatus : ℤ) (payload : Json) (requestIdentity : Option (List (Text × Json))) :
    (∀ result, (validateDecisionResponse isLiteral requestAction httpStatus payload
        requestIdentity = .ok result ∧ result.status = .accepted) ↔
      Accepts isLiteral requestAction httpStatus payload requestIdentity result) ∧
    (∀ result, (validateDecisionResponse isLiteral requestAction httpStatus payload
        requestIdentity = .ok result ∧ result.status = .rejected) ↔
      Rejects isLiteral httpStatus payload requestIdentity result) ∧
    ((∃ error, validateDecisionResponse isLiteral requestAction httpStatus payload
        requestIdentity = .error error) ↔
      ∀ result, ¬Accepts isLiteral requestAction httpStatus payload requestIdentity result ∧
        ¬Rejects isLiteral httpStatus payload requestIdentity result) := by
  refine ⟨fun result ↦ ?_, fun result ↦ ?_, ?_⟩
  · rw [validateDecisionResponse_eq_ok_iff]
    constructor
    · rintro ⟨haccepts | hrejects, hstatus⟩
      · exact haccepts
      · exact absurd (hrejects.status_eq.symm.trans hstatus) nofun
    · exact fun haccepts ↦ ⟨Or.inl haccepts, haccepts.status_eq⟩
  · rw [validateDecisionResponse_eq_ok_iff]
    constructor
    · rintro ⟨haccepts | hrejects, hstatus⟩
      · exact absurd (haccepts.status_eq.symm.trans hstatus) nofun
      · exact hrejects
    · exact fun hrejects ↦ ⟨Or.inr hrejects, hrejects.status_eq⟩
  · have hiff := @validateDecisionResponse_eq_ok_iff isLiteral requestAction httpStatus payload
      requestIdentity
    simp only [← not_or, ← hiff]
    cases validateDecisionResponse isLiteral requestAction httpStatus payload requestIdentity with
    | error error => simp only [Except.error.injEq, exists_eq', reduceCtorEq, not_false_eq_true,
        implies_true]
    | ok result =>
      refine iff_of_false nofun fun hnone ↦ hnone result rfl

section Example

/-- The identity of a request for a wait, with the trace and the lease as given. -/
def requestOf (traceId : Text) (decisionLeaseId : Json) : List (Text × Json) :=
  [("traceId", .str traceId), ("sessionId", .str "session-1"), ("decisionId", .str "decision-1"),
    ("decisionLeaseId", decisionLeaseId), ("controlGeneration", .int 1), ("stateVersion", .int 1)]

/-- An acceptance of that request without a lease. -/
def acceptedPayload : Json :=
  .obj [("accepted", .bool true), ("status", .str "accepted"), ("traceId", .str "trace-1"),
    ("sessionId", .str "session-1"), ("decisionId", .str "decision-1"),
    ("controlGeneration", .int 1), ("skillCallId", .null), ("stateVersion", .int 1),
    ("nextDecisionLeaseId", .null), ("reason", .str "ok")]

/-- An acceptance without a lease is taken for the request that it echoes, but not for one with
another trace, not without a lease in the request, and not for an unknown action. -/
theorem responses_refused :
    let isLiteral : Bool → Json → Bool := fun value given ↦ given = .bool value
    (validateDecisionResponse isLiteral "wait" 200 acceptedPayload
      (some (requestOf "trace-1" (.str "lease-1")))).isOk = true ∧
    (validateDecisionResponse isLiteral "wait" 200 acceptedPayload
      (some (requestOf "trace-2" (.str "lease-1")))).isOk = false ∧
    (validateDecisionResponse isLiteral "wait" 200 acceptedPayload
      (some (requestOf "trace-1" .null))).isOk = false ∧
    (validateDecisionResponse isLiteral "pause" 200 acceptedPayload
      (some (requestOf "trace-1" (.str "lease-1")))).isOk = false := by
  decide

end Example

end LlmGateway.DecisionClient
