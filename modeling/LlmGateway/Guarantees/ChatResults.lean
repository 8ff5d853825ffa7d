import LlmGateway.Chat.Results

/-!
# The result of a send and its acceptance, in either order

Of one send, the service keeps the half that comes first and consumes it with the half that comes
second. `ChatExchange.Agree` relates two states of the service that differ in the traces of one
exchange only; everything else that the service does keeps it.
-/

namespace LlmGateway

open Relational

/-- A reply that is sent, and its result. -/
structure ChatExchange where
  /-- The event that is answered. -/
  sendEvent : ChatEventKey
  /-- The event that carries the result. -/
  resultEvent : ChatEventKey
  requestId : String
  request : HostedChatSendRequest
  result : HostedChatSendResult

namespace HostedChatState

variable {s s' : HostedChatState} {limits : ChatLimits} {now : ℤ}

/-! ## Expiry -/

theorem mem_expiredRequestIds {outbound : OrderedDict String ExpiringOutbound} {requestId : String} :
    requestId ∈ expiredRequestIds outbound now ↔
      ∃ messageId, ∃ sent ∈ outbound.lookup messageId,
        sent.expiresAt ≤ now ∧ sent.requestId = requestId := by
  simp only [expiredRequestIds, List.mem_map, List.mem_filter, decide_eq_true_iff]
  constructor
  · rintro ⟨e, ⟨he, hexpired⟩, heq⟩
    exact ⟨e.1, e.2, AList.mem_lookup_iff.2 he, hexpired, heq⟩
  · rintro ⟨messageId, sent, hsent, hexpired, heq⟩
    exact ⟨⟨messageId, sent⟩, ⟨AList.mem_lookup_iff.1 hsent, hexpired⟩, heq⟩

theorem filter_lt_filter_lt {κ ν : Type} (expiresAt : ν → ℤ) {earlier now : ℤ}
    (hle : earlier ≤ now) (d : OrderedDict κ ν) :
    OrderedDict.filter (fun _ v ↦ now < expiresAt v)
      (OrderedDict.filter (fun _ v ↦ earlier < expiresAt v) d) =
        OrderedDict.filter (fun _ v ↦ now < expiresAt v) d := by
  rw [OrderedDict.filter_filter]
  congr 1
  funext _ v
  rw [← Bool.decide_and]
  exact decide_eq_decide.2 (by omega)

/-- The sends that have expired have done so already, or are still there. -/
theorem mem_expiredRequestIds_of_le {outbound : OrderedDict String ExpiringOutbound}
    {requestId : String} {earlier : ℤ} (hle : earlier ≤ now) :
    requestId ∈ expiredRequestIds outbound now ↔
      requestId ∈ expiredRequestIds outbound earlier ∨
        requestId ∈ expiredRequestIds
          (OrderedDict.filter (fun _ sent ↦ earlier < sent.expiresAt) outbound) now := by
  simp only [mem_expiredRequestIds, OrderedDict.lookup_filter, Option.mem_filter_iff,
    decide_eq_true_iff]
  constructor
  · rintro ⟨messageId, sent, hsent, hexpired, heq⟩
    by_cases hearlier : sent.expiresAt ≤ earlier
    · exact Or.inl ⟨messageId, sent, hsent, hearlier, heq⟩
    · exact Or.inr ⟨messageId, sent, ⟨hsent, not_le.1 hearlier⟩, hexpired, heq⟩
  · rintro (⟨messageId, sent, hsent, hexpired, heq⟩ | ⟨messageId, sent, hsent, hexpired, heq⟩)
    · exact ⟨messageId, sent, hsent, hexpired.trans hle, heq⟩
    · exact ⟨messageId, sent, hsent.1, hexpired, heq⟩

theorem filter_expiredRequestIds_of_le {earlier : ℤ} (hle : earlier ≤ now)
    (outbound : OrderedDict String ExpiringOutbound) (d : OrderedDict String String) :
    OrderedDict.filter (fun requestId _ ↦ requestId ∉ expiredRequestIds
        (OrderedDict.filter (fun _ sent ↦ earlier < sent.expiresAt) outbound) now)
      (OrderedDict.filter (fun requestId _ ↦ requestId ∉ expiredRequestIds outbound earlier) d) =
        OrderedDict.filter (fun requestId _ ↦ requestId ∉ expiredRequestIds outbound now) d := by
  rw [OrderedDict.filter_filter]
  congr 1
  funext requestId _
  rw [Bool.eq_iff_iff, Bool.and_eq_true, decide_eq_true_iff, decide_eq_true_iff,
    decide_eq_true_iff, ← not_or]
  exact not_congr (mem_expiredRequestIds_of_le hle).symm

theorem trimState_eq {κ ν : Type} (hlimits : limits.maxStateEntries = none)
    (d : OrderedDict κ ν) : trimState limits d = d := by
  rw [trimState, hlimits, OrderedDict.trim_none]

end HostedChatState

namespace ChatExchange

open HostedChatState

variable (x : ChatExchange) {s s' : HostedChatState} {limits : ChatLimits} {now : ℤ}

def messageId : String := x.result.chatMessageId

/-- The gateway's acceptance of the send is recorded. -/
def acceptance (now : ℤ) : Operation :=
  .accept now x.sendEvent x.requestId x.messageId x.request

/-- The result of the send is handled. -/
def answer (claimedAt now : ℤ) : Operation := .sendResult claimedAt now x.resultEvent x.result

/-- The states differ in the traces of the exchange only; the pending sends do not matter. -/
structure Agree (s s' : HostedChatState) : Prop where
  processedEvents : OrderedDict.AgreeExcept x.resultEvent s.processedEvents s'.processedEvents
  outbound : OrderedDict.AgreeExcept x.messageId s.outbound s'.outbound
  messageByRequestId :
    OrderedDict.AgreeExcept x.requestId s.messageByRequestId s'.messageByRequestId
  pendingResults : OrderedDict.AgreeExcept x.messageId s.pendingResults s'.pendingResults
  outcomes : s.outcomes = s'.outcomes

/-- What the service keeps of the exchange: a send that is accepted, or a result that waits. -/
structure Keeps (sent : Option ExpiringOutbound) (pending : Option ExpiringResult)
    (s : HostedChatState) : Prop where
  outbound : s.outbound.lookup x.messageId = sent
  pendingResults : s.pendingResults.lookup x.messageId = pending
  outcomes : ∀ outcome ∈ s.outcomes, outcome.messageId ≠ x.messageId

/-- The operation belongs to another request. -/
def Avoids : Operation → Prop
  | .receive _ event => event ≠ x.resultEvent
  | .accept _ _ requestId messageId _ => requestId ≠ x.requestId ∧ messageId ≠ x.messageId
  | .sendResult _ _ event result => event ≠ x.resultEvent ∧ result.chatMessageId ≠ x.messageId
  | .release _ | .discard _ | .readPending .. | .keepPending .. => True

instance : DecidablePred x.Avoids := fun op ↦ by
  unfold Avoids
  split <;> infer_instance

end ChatExchange

/-- The times that an operation reads. -/
def HostedChatState.Operation.times : HostedChatState.Operation → List ℤ
  | .receive now _ | .readPending now _ | .keepPending now .. | .accept now .. => [now]
  | .sendResult claimedAt now .. => [claimedAt, now]
  | .release _ | .discard _ => []

namespace ChatExchange

open HostedChatState

variable {x : ChatExchange} {s s' s'' : HostedChatState} {limits : ChatLimits} {now : ℤ}
  {sent sent' : Option ExpiringOutbound} {pending pending' : Option ExpiringResult}

/-! ## Agreement is kept -/

namespace Agree

theorem refl (x : ChatExchange) (s : HostedChatState) : x.Agree s s := ⟨rfl, rfl, rfl, rfl, rfl⟩

theorem symm (h : x.Agree s s') : x.Agree s' s :=
  ⟨h.1.symm, h.2.symm, h.3.symm, h.4.symm, h.5.symm⟩

theorem trans (h : x.Agree s s') (h' : x.Agree s' s'') : x.Agree s s'' :=
  ⟨h.1.trans h'.1, h.2.trans h'.2, h.3.trans h'.3, h.4.trans h'.4, h.5.trans h'.5⟩

theorem expire (h : x.Agree s s')
    (hs : ∀ o ∈ s.outbound.lookup x.messageId, o.requestId = x.requestId)
    (hs' : ∀ o ∈ s'.outbound.lookup x.messageId, o.requestId = x.requestId) (now : ℤ) :
    x.Agree (s.expire now) (s'.expire now) where
  processedEvents := h.processedEvents.filter fun _ _ _ ↦ rfl
  outbound := h.outbound.filter fun _ _ _ ↦ rfl
  messageByRequestId := by
    apply h.messageByRequestId.filter
    intro requestId hne _
    have hiff (messageId : String) (o : ExpiringOutbound) (ho : o.requestId = requestId) :
        o ∈ s.outbound.lookup messageId ↔ o ∈ s'.outbound.lookup messageId := by
      by_cases heq : messageId = x.messageId
      · subst heq
        exact iff_of_false (fun hmem ↦ hne (ho ▸ hs o hmem)) fun hmem ↦ hne (ho ▸ hs' o hmem)
      · rw [h.outbound.lookup heq]
    apply decide_eq_decide.2
    apply not_congr
    rw [mem_expiredRequestIds, mem_expiredRequestIds]
    apply exists_congr
    intro messageId
    apply exists_congr
    intro o
    constructor
    · exact fun ⟨hmem, hexpired, ho⟩ ↦ ⟨(hiff messageId o ho).1 hmem, hexpired, ho⟩
    · exact fun ⟨hmem, hexpired, ho⟩ ↦ ⟨(hiff messageId o ho).2 hmem, hexpired, ho⟩
  pendingResults := h.pendingResults.filter fun _ _ _ ↦ rfl
  outcomes := h.outcomes

theorem markEvent (hlimits : limits.maxStateEntries = none) (h : x.Agree s s')
    {event : ChatEventKey} (hne : event ≠ x.resultEvent) (now : ℤ) :
    x.Agree (s.markEvent limits now event) (s'.markEvent limits now event) where
  processedEvents := by
    simp only [HostedChatState.markEvent, trimState_eq hlimits]
    exact h.processedEvents.insert hne _
  outbound := h.outbound
  messageByRequestId := h.messageByRequestId
  pendingResults := h.pendingResults
  outcomes := h.outcomes

theorem consume (h : x.Agree s s') (messageId requestId : String) :
    x.Agree (s.consume messageId requestId) (s'.consume messageId requestId) where
  processedEvents := h.processedEvents
  outbound := h.outbound.erase messageId
  messageByRequestId := h.messageByRequestId.erase requestId
  pendingResults := h.pendingResults
  outcomes := h.outcomes

theorem keepOutbound (hlimits : limits.maxStateEntries = none) (h : x.Agree s s')
    {requestId messageId : String} (hrequest : requestId ≠ x.requestId)
    (hmessage : messageId ≠ x.messageId) (now : ℤ) (event : ChatEventKey)
    (request : HostedChatSendRequest) :
    x.Agree (s.keepOutbound limits now event requestId messageId request)
      (s'.keepOutbound limits now event requestId messageId request) where
  processedEvents := h.processedEvents
  outbound := by
    simp only [HostedChatState.keepOutbound, trimState_eq hlimits]
    exact h.outbound.insert hmessage _
  messageByRequestId := by
    simp only [HostedChatState.keepOutbound, trimState_eq hlimits]
    exact h.messageByRequestId.insert hrequest _
  pendingResults := h.pendingResults
  outcomes := h.outcomes

theorem meetPendingResult (h : x.Agree s s') {messageId : String}
    (hmessage : messageId ≠ x.messageId) (requestId : String) (request : HostedChatSendRequest) :
    x.Agree (s.meetPendingResult requestId messageId request)
      (s'.meetPendingResult requestId messageId request) := by
  simp only [HostedChatState.meetPendingResult]
  rw [← h.pendingResults.lookup hmessage]
  cases s.pendingResults.lookup messageId with
  | none => exact h
  | some pending =>
    have hconsume := h.consume messageId requestId
    exact ⟨hconsume.processedEvents, hconsume.outbound, hconsume.messageByRequestId,
      h.pendingResults.erase messageId, congrArg (· ++ _) h.outcomes⟩

theorem keepResult (hlimits : limits.maxStateEntries = none) (h : x.Agree s s')
    {result : HostedChatSendResult} (hmessage : result.chatMessageId ≠ x.messageId) (now : ℤ) :
    x.Agree (s.keepResult limits now result) (s'.keepResult limits now result) where
  processedEvents := h.processedEvents
  outbound := h.outbound
  messageByRequestId := h.messageByRequestId
  pendingResults := by
    simp only [HostedChatState.keepResult, trimState_eq hlimits]
    exact h.pendingResults.insert hmessage _
  outcomes := h.outcomes

theorem meetOutbound (h : x.Agree s s') (o : ExpiringOutbound) (result : HostedChatSendResult) :
    x.Agree (s.meetOutbound o result) (s'.meetOutbound o result) := by
  have hconsume := h.consume result.chatMessageId o.requestId
  unfold HostedChatState.meetOutbound
  split_ifs with hmatch
  · exact ⟨hconsume.processedEvents, hconsume.outbound, hconsume.messageByRequestId,
      hconsume.pendingResults, congrArg (· ++ _) h.outcomes⟩
  · exact ⟨h.processedEvents, h.outbound, h.messageByRequestId, h.pendingResults,
      congrArg (· ++ _) h.outcomes⟩

theorem claimEvent (hlimits : limits.maxStateEntries = none) {event : ChatEventKey}
    (hne : event ≠ x.resultEvent) {handle : HostedChatState → HostedChatState}
    (h : x.Agree (s.expire now) (s'.expire now))
    (hhandle : x.Agree ((s.expire now).markEvent limits now event)
      ((s'.expire now).markEvent limits now event) →
        x.Agree (handle ((s.expire now).markEvent limits now event))
          (handle ((s'.expire now).markEvent limits now event))) :
    x.Agree (s.claimEvent limits now event handle) (s'.claimEvent limits now event handle) := by
  unfold HostedChatState.claimEvent
  have hiff := h.processedEvents.mem_iff hne
  by_cases hmem : event ∈ (s.expire now).processedEvents
  · rw [if_pos hmem, if_pos (hiff.1 hmem)]
    exact h
  · rw [if_neg hmem, if_neg (mt hiff.2 hmem)]
    exact hhandle (h.markEvent hlimits hne now)

end Agree

/-- The send that is kept under the message of the exchange is the one of the exchange. -/
def Ours (x : ChatExchange) (s : HostedChatState) : Prop :=
  ∀ o ∈ s.outbound.lookup x.messageId, o.requestId = x.requestId

theorem Ours.expire (h : x.Ours s) (now : ℤ) : x.Ours (s.expire now) := by
  intro o ho
  exact h o (OrderedDict.mem_lookup_filter ho)

/-- What the service does for the other requests does not depend on the traces of this one. -/
theorem Agree.exec (hlimits : limits.maxStateEntries = none) (h : x.Agree s s') (hs : x.Ours s)
    (hs' : x.Ours s') {op : Operation} (havoids : x.Avoids op) :
    x.Agree (s.exec limits op) (s'.exec limits op) := by
  cases op with
  | receive now event =>
    exact (h.expire hs hs' now).claimEvent hlimits havoids id
  | release event =>
    exact ⟨h.processedEvents.erase event, h.outbound, h.messageByRequestId, h.pendingResults,
      h.outcomes⟩
  | discard event => exact ⟨h.1, h.2, h.3, h.4, h.5⟩
  | readPending now event =>
    simp only [HostedChatState.exec, readPendingSend]
    split_ifs
    all_goals exact ⟨h.1, h.2, h.3, h.4, h.5⟩
  | keepPending now event requestId request => exact ⟨h.1, h.2, h.3, h.4, h.5⟩
  | accept now event requestId messageId request =>
    have hexpired := h.expire hs hs' now
    have hkept := hexpired.keepOutbound hlimits havoids.1 havoids.2 now event request
    exact hkept.meetPendingResult havoids.2 requestId request
  | sendResult claimedAt now event result =>
    simp only [HostedChatState.exec]
    apply (h.expire hs hs' claimedAt).claimEvent hlimits havoids.1
    intro hmarked
    have hexpired := hmarked.expire (hs.expire claimedAt) (hs'.expire claimedAt) now
    unfold recordResult
    rw [← hexpired.outbound.lookup havoids.2]
    split
    · exact hexpired.keepResult hlimits havoids.2 now
    · exact hexpired.meetOutbound _ result

/-! ## What the service keeps -/

namespace Keeps

theorem congr (h : x.Keeps sent pending s) (houtbound : s'.outbound = s.outbound)
    (hresults : s'.pendingResults = s.pendingResults) (houtcomes : s'.outcomes = s.outcomes) :
    x.Keeps sent pending s' :=
  ⟨houtbound ▸ h.outbound, hresults ▸ h.pendingResults, houtcomes ▸ h.outcomes⟩

theorem ours (h : x.Keeps sent pending s) (hsent : ∀ o ∈ sent, o.requestId = x.requestId) :
    x.Ours s := fun o ho ↦ hsent o (h.outbound ▸ ho)

/-- What has not expired is still kept. -/
theorem expire (h : x.Keeps sent pending s) (hsent : ∀ o ∈ sent, now < o.expiresAt)
    (hpending : ∀ r ∈ pending, now < r.expiresAt) : x.Keeps sent pending (s.expire now) where
  outbound := OrderedDict.lookup_filter_of_forall h.outbound fun o ho ↦ decide_eq_true (hsent o ho)
  pendingResults :=
    OrderedDict.lookup_filter_of_forall h.pendingResults fun r hr ↦ decide_eq_true (hpending r hr)
  outcomes := h.outcomes

theorem keepOutbound (hlimits : limits.maxStateEntries = none) (h : x.Keeps sent pending s)
    {messageId : String} (hne : messageId ≠ x.messageId) (now : ℤ) (event : ChatEventKey)
    (requestId : String) (request : HostedChatSendRequest) :
    x.Keeps sent pending (s.keepOutbound limits now event requestId messageId request) where
  outbound := by
    simp only [HostedChatState.keepOutbound, trimState_eq hlimits]
    exact (AList.lookup_insert_ne hne.symm).trans h.outbound
  pendingResults := h.pendingResults
  outcomes := h.outcomes

theorem keepResult (hlimits : limits.maxStateEntries = none) (h : x.Keeps sent pending s)
    {result : HostedChatSendResult} (hne : result.chatMessageId ≠ x.messageId) (now : ℤ) :
    x.Keeps sent pending (s.keepResult limits now result) where
  outbound := h.outbound
  pendingResults := by
    simp only [HostedChatState.keepResult, trimState_eq hlimits]
    exact (AList.lookup_insert_ne hne.symm).trans h.pendingResults
  outcomes := h.outcomes

theorem append_outcome (h : x.Keeps sent pending s) {outcome : ChatOutcome}
    (hne : outcome.messageId ≠ x.messageId) :
    ∀ o ∈ s.outcomes ++ [outcome], o.messageId ≠ x.messageId := by
  intro o ho
  cases List.mem_append.1 ho with
  | inl hold => exact h.outcomes o hold
  | inr hnew =>
    rw [List.mem_singleton.1 hnew]
    exact hne

theorem meetPendingResult (h : x.Keeps sent pending s) {messageId : String}
    (hne : messageId ≠ x.messageId) (requestId : String) (request : HostedChatSendRequest) :
    x.Keeps sent pending (s.meetPendingResult requestId messageId request) := by
  unfold HostedChatState.meetPendingResult
  split
  · exact h
  · exact ⟨(AList.lookup_erase_ne hne.symm).trans h.outbound,
      (AList.lookup_erase_ne hne.symm).trans h.pendingResults, h.append_outcome hne⟩

theorem meetOutbound (h : x.Keeps sent pending s) (o : ExpiringOutbound)
    {result : HostedChatSendResult} (hne : result.chatMessageId ≠ x.messageId) :
    x.Keeps sent pending (s.meetOutbound o result) := by
  unfold HostedChatState.meetOutbound
  split_ifs with hmatch
  · exact ⟨(AList.lookup_erase_ne hne.symm).trans h.outbound, h.pendingResults,
      h.append_outcome hne⟩
  · exact ⟨h.outbound, h.pendingResults, h.append_outcome hne⟩

theorem claimEvent (h : x.Keeps sent pending (s.expire now)) {event : ChatEventKey}
    {handle : HostedChatState → HostedChatState}
    (hhandle : x.Keeps sent pending ((s.expire now).markEvent limits now event) →
      x.Keeps sent pending (handle ((s.expire now).markEvent limits now event))) :
    x.Keeps sent pending (s.claimEvent limits now event handle) := by
  unfold HostedChatState.claimEvent
  split_ifs with hmem
  · exact h
  · exact hhandle (h.congr rfl rfl rfl)

/-- What is done for the other requests within the time leaves this exchange alone. -/
theorem exec (hlimits : limits.maxStateEntries = none) (h : x.Keeps sent pending s)
    {op : Operation} (havoids : x.Avoids op)
    (hsent : ∀ t ∈ op.times, ∀ o ∈ sent, t < o.expiresAt)
    (hpending : ∀ t ∈ op.times, ∀ r ∈ pending, t < r.expiresAt) :
    x.Keeps sent pending (s.exec limits op) := by
  have hexpire (t : ℤ) (ht : t ∈ op.times) {s : HostedChatState} (h : x.Keeps sent pending s) :
      x.Keeps sent pending (s.expire t) := h.expire (hsent t ht) (hpending t ht)
  cases op with
  | receive now event => exact (hexpire now (by simp [Operation.times]) h).claimEvent id
  | release event => exact h.congr rfl rfl rfl
  | discard event => exact h.congr rfl rfl rfl
  | readPending now event =>
    simp only [HostedChatState.exec, readPendingSend]
    split_ifs
    · exact h.congr rfl rfl rfl
    · exact h
  | keepPending now event requestId request => exact h.congr rfl rfl rfl
  | accept now event requestId messageId request =>
    have hexpired := hexpire now (by simp [Operation.times]) h
    have hkept := hexpired.keepOutbound hlimits havoids.2 now event requestId request
    exact hkept.meetPendingResult havoids.2 requestId request
  | sendResult claimedAt now event result =>
    simp only [HostedChatState.exec]
    apply (hexpire claimedAt (by simp [Operation.times]) h).claimEvent
    intro hmarked
    have hexpired := hexpire now (by simp [Operation.times]) hmarked
    unfold recordResult
    split
    · exact hexpired.keepResult hlimits havoids.2 now
    · exact hexpired.meetOutbound _ havoids.2

end Keeps

/-! ## The event of the result -/

theorem notMem_expire {event : ChatEventKey} (h : event ∉ s.processedEvents) :
    event ∉ (s.expire now).processedEvents := by
  intro hmem
  obtain ⟨expiresAt, hlookup⟩ := Option.isSome_iff_exists.1 (AList.lookup_isSome.2 hmem)
  have hbefore := OrderedDict.mem_lookup_filter (Option.mem_def.2 hlookup)
  exact h (AList.lookup_isSome.1 (Option.isSome_of_mem hbefore))

theorem notMem_markEvent (hlimits : limits.maxStateEntries = none) {event other : ChatEventKey}
    (hne : other ≠ event) (h : event ∉ s.processedEvents) :
    event ∉ (s.markEvent limits now other).processedEvents := by
  simp only [markEvent, trimState_eq hlimits]
  rw [AList.mem_insert, not_or]
  exact ⟨hne.symm, h⟩

theorem processedEvents_meetPendingResult (s : HostedChatState) (requestId messageId : String)
    (request : HostedChatSendRequest) :
    (s.meetPendingResult requestId messageId request).processedEvents = s.processedEvents := by
  unfold meetPendingResult
  split <;> rfl

theorem processedEvents_recordResult (s : HostedChatState) (limits : ChatLimits) (now : ℤ)
    (result : HostedChatSendResult) :
    (s.recordResult limits now result).processedEvents = (s.expire now).processedEvents := by
  unfold recordResult
  split
  · rfl
  · unfold meetOutbound
    split_ifs <;> rfl

/-- Only the result of the exchange marks its event. -/
theorem notMem_exec (hlimits : limits.maxStateEntries = none) {op : Operation}
    (havoids : x.Avoids op) (h : x.resultEvent ∉ s.processedEvents) :
    x.resultEvent ∉ (s.exec limits op).processedEvents := by
  cases op with
  | receive now event =>
    simp only [HostedChatState.exec, claimEvent]
    split_ifs with hmem
    · exact notMem_expire h
    · exact notMem_markEvent hlimits havoids (notMem_expire h)
  | release event =>
    simp only [HostedChatState.exec, releaseEvent, AList.mem_erase]
    exact fun hmem ↦ h hmem.2
  | discard event => exact h
  | readPending now event =>
    simp only [HostedChatState.exec, readPendingSend]
    split_ifs
    all_goals exact h
  | keepPending now event requestId request => exact h
  | accept now event requestId messageId request =>
    simp only [HostedChatState.exec, recordAcceptance, processedEvents_meetPendingResult]
    exact notMem_expire h
  | sendResult claimedAt now event result =>
    simp only [HostedChatState.exec, claimEvent]
    split_ifs with hmem
    · exact notMem_expire h
    · rw [processedEvents_recordResult]
      exact notMem_expire (notMem_markEvent hlimits havoids.1 (notMem_expire h))

/-! ## Runs of other requests -/

theorem Keeps.run (hlimits : limits.maxStateEntries = none) {ops : List Operation}
    (havoids : ∀ op ∈ ops, x.Avoids op) (h : x.Keeps sent pending s)
    (hsent : ∀ op ∈ ops, ∀ t ∈ op.times, ∀ o ∈ sent, t < o.expiresAt)
    (hpending : ∀ op ∈ ops, ∀ t ∈ op.times, ∀ r ∈ pending, t < r.expiresAt) :
    x.Keeps sent pending (run (HostedChatState.exec limits) s ops) := by
  induction ops generalizing s with
  | nil => exact h
  | cons op ops ih =>
    rw [List.forall_mem_cons] at havoids hsent hpending
    exact ih havoids.2 (h.exec hlimits havoids.1 hsent.1 hpending.1) hsent.2 hpending.2

theorem notMem_run (hlimits : limits.maxStateEntries = none) {ops : List Operation}
    (havoids : ∀ op ∈ ops, x.Avoids op) (h : x.resultEvent ∉ s.processedEvents) :
    x.resultEvent ∉ (run (HostedChatState.exec limits) s ops).processedEvents := by
  induction ops generalizing s with
  | nil => exact h
  | cons op ops ih =>
    rw [List.forall_mem_cons] at havoids
    exact ih havoids.2 (notMem_exec hlimits havoids.1 h)

/-- The other requests are served in the same way, whichever half of the exchange is there. -/
theorem Agree.run (hlimits : limits.maxStateEntries = none) {ops : List Operation}
    (havoids : ∀ op ∈ ops, x.Avoids op) (h : x.Agree s s')
    (hs : x.Keeps sent pending s) (hs' : x.Keeps sent' pending' s')
    (hours : ∀ o ∈ sent, o.requestId = x.requestId)
    (hours' : ∀ o ∈ sent', o.requestId = x.requestId)
    (hsent : ∀ op ∈ ops, ∀ t ∈ op.times, ∀ o ∈ sent, t < o.expiresAt)
    (hpending : ∀ op ∈ ops, ∀ t ∈ op.times, ∀ r ∈ pending, t < r.expiresAt)
    (hsent' : ∀ op ∈ ops, ∀ t ∈ op.times, ∀ o ∈ sent', t < o.expiresAt)
    (hpending' : ∀ op ∈ ops, ∀ t ∈ op.times, ∀ r ∈ pending', t < r.expiresAt) :
    x.Agree (Relational.run (HostedChatState.exec limits) s ops)
      (Relational.run (HostedChatState.exec limits) s' ops) := by
  induction ops generalizing s s' with
  | nil => exact h
  | cons op ops ih =>
    rw [List.forall_mem_cons] at havoids hsent hpending hsent' hpending'
    exact ih havoids.2 (h.exec hlimits (hs.ours hours) (hs'.ours hours') havoids.1)
      (hs.exec hlimits havoids.1 hsent.1 hpending.1)
      (hs'.exec hlimits havoids.1 hsent'.1 hpending'.1) hsent.2 hpending.2 hsent'.2 hpending'.2

/-! ## The first half -/

/-- Claiming the event of the result shows in the marker of that event only. -/
theorem agree_expire_markEvent (hlimits : limits.maxStateEntries = none) (s : HostedChatState)
    {claimedAt now : ℤ} (hle : claimedAt ≤ now) :
    x.Agree (((s.expire claimedAt).markEvent limits claimedAt x.resultEvent).expire now)
      (s.expire now) where
  processedEvents := by
    simp only [markEvent, trimState_eq hlimits]
    have hfilter := filter_lt_filter_lt id hle s.processedEvents
    have hinsert := OrderedDict.AgreeExcept.insert_self (s.expire claimedAt).processedEvents
      x.resultEvent (claimedAt + limits.stateTtlSeconds)
    exact (hinsert.filter fun _ _ _ ↦ rfl).trans (congrArg (AList.erase x.resultEvent) hfilter)
  outbound := congrArg (AList.erase x.messageId)
    (filter_lt_filter_lt ExpiringOutbound.expiresAt hle s.outbound)
  messageByRequestId := congrArg (AList.erase x.requestId)
    (filter_expiredRequestIds_of_le hle s.outbound s.messageByRequestId)
  pendingResults := congrArg (AList.erase x.messageId)
    (filter_lt_filter_lt ExpiringResult.expiresAt hle s.pendingResults)
  outcomes := rfl

theorem agree_keepOutbound (hlimits : limits.maxStateEntries = none) (x : ChatExchange)
    (s : HostedChatState) (now : ℤ) :
    x.Agree (s.keepOutbound limits now x.sendEvent x.requestId x.messageId x.request) s where
  processedEvents := rfl
  outbound := by
    simp only [keepOutbound, trimState_eq hlimits]
    exact OrderedDict.AgreeExcept.insert_self _ _ _
  messageByRequestId := by
    simp only [keepOutbound, trimState_eq hlimits]
    exact OrderedDict.AgreeExcept.insert_self _ _ _
  pendingResults := rfl
  outcomes := rfl

theorem agree_keepResult (hlimits : limits.maxStateEntries = none) (x : ChatExchange)
    (s : HostedChatState) (now : ℤ) : x.Agree (s.keepResult limits now x.result) s where
  processedEvents := rfl
  outbound := rfl
  messageByRequestId := rfl
  pendingResults := by
    simp only [keepResult, trimState_eq hlimits]
    exact OrderedDict.AgreeExcept.insert_self _ _ _
  outcomes := rfl

/-- The acceptance that comes first is kept. -/
theorem exec_acceptance (h : x.Keeps none none s) (now : ℤ) :
    s.exec limits (x.acceptance now) =
      (s.expire now).keepOutbound limits now x.sendEvent x.requestId x.messageId x.request := by
  have hexpired : x.Keeps none none (s.expire now) :=
    h.expire (fun _ ho ↦ absurd ho (Option.not_mem_none _)) fun _ hr ↦ absurd hr (Option.not_mem_none _)
  have hnone : ((s.expire now).keepOutbound limits now x.sendEvent x.requestId x.messageId
      x.request).pendingResults.lookup x.messageId = none := hexpired.pendingResults
  simp only [acceptance, HostedChatState.exec, recordAcceptance, meetPendingResult, hnone]

/-- The result that comes first is kept. -/
theorem exec_answer (h : x.Keeps none pending s) (hevent : x.resultEvent ∉ s.processedEvents)
    (claimedAt now : ℤ) :
    s.exec limits (x.answer claimedAt now) =
      (((s.expire claimedAt).markEvent limits claimedAt x.resultEvent).expire now).keepResult
        limits now x.result := by
  have hnone : (((s.expire claimedAt).markEvent limits claimedAt x.resultEvent).expire
      now).outbound.lookup x.result.chatMessageId = none := by
    apply OrderedDict.lookup_filter_of_forall _ fun _ ho ↦ absurd ho (Option.not_mem_none _)
    exact OrderedDict.lookup_filter_of_forall h.outbound fun _ ho ↦ absurd ho (Option.not_mem_none _)
  simp only [answer, HostedChatState.exec, claimEvent, if_neg (notMem_expire hevent), recordResult,
    hnone]

/-! ## The second half -/

/-- The request is resolved by its result. -/
def resolution (x : ChatExchange) : ChatOutcome :=
  ⟨x.messageId, x.requestId, x.request, x.result, true⟩

theorem exec_answer_of_outbound (hmatch : ResultMatches x.request x.result) {expiresAt : ℤ}
    (h : x.Keeps (some ⟨x.requestId, x.request, expiresAt⟩) pending s)
    (hevent : x.resultEvent ∉ s.processedEvents) {claimedAt now : ℤ}
    (hclaimed : claimedAt < expiresAt) (hnow : now < expiresAt) :
    s.exec limits (x.answer claimedAt now) =
      { (((s.expire claimedAt).markEvent limits claimedAt x.resultEvent).expire now).consume
          x.messageId x.requestId with
        outcomes := s.outcomes ++ [x.resolution]
        audits := s.audits ++ [x.result] } := by
  have hsome : (((s.expire claimedAt).markEvent limits claimedAt x.resultEvent).expire
      now).outbound.lookup x.result.chatMessageId =
        some ⟨x.requestId, x.request, expiresAt⟩ := by
    apply OrderedDict.lookup_filter_of_forall _ _
    · apply OrderedDict.lookup_filter_of_forall h.outbound
      intro o ho
      rw [← Option.some.inj ho]
      exact decide_eq_true hclaimed
    · intro o ho
      rw [← Option.some.inj ho]
      exact decide_eq_true hnow
  simp only [answer, HostedChatState.exec, claimEvent, if_neg (notMem_expire hevent), recordResult,
    hsome, meetOutbound, if_pos hmatch]
  rfl

theorem exec_acceptance_of_pending (hmatch : ResultMatches x.request x.result) {expiresAt now : ℤ}
    (h : x.Keeps sent (some ⟨x.result, expiresAt⟩) s) (hnow : now < expiresAt) :
    s.exec limits (x.acceptance now) =
      { ((s.expire now).keepOutbound limits now x.sendEvent x.requestId x.messageId
          x.request).consume x.messageId x.requestId with
        pendingResults := (s.expire now).pendingResults.erase x.messageId
        outcomes := s.outcomes ++ [x.resolution] } := by
  have hsome : ((s.expire now).keepOutbound limits now x.sendEvent x.requestId x.messageId
      x.request).pendingResults.lookup x.messageId = some ⟨x.result, expiresAt⟩ := by
    apply OrderedDict.lookup_filter_of_forall h.pendingResults
    intro r hr
    rw [← Option.some.inj hr]
    exact decide_eq_true hnow
  simp only [acceptance, HostedChatState.exec, recordAcceptance, meetPendingResult, hsome,
    decide_eq_true hmatch]
  rfl

/-- The exchange is over: the services agree, and it has had one outcome. -/
structure SameEnd (x : ChatExchange) (s s' : HostedChatState) : Prop where
  outbound : s.outbound = s'.outbound
  messageByRequestId : s.messageByRequestId = s'.messageByRequestId
  pendingResults : s.pendingResults = s'.pendingResults
  outcomes : s.outcomes = s'.outcomes
  consumed : s.outbound.lookup x.messageId = none ∧ s.pendingResults.lookup x.messageId = none
  resolvedOnce : s.outcomes.filter (·.messageId = x.messageId) = [x.resolution]

/-- Of two services that agree but for the halves they keep, each gets the other half. -/
theorem sameEnd_of_agree (hlimits : limits.maxStateEntries = none)
    (hmatch : ResultMatches x.request x.result) (h : x.Agree s s') {expiresAt expiresAt' : ℤ}
    (hs : x.Keeps (some ⟨x.requestId, x.request, expiresAt⟩) none s)
    (hs' : x.Keeps none (some ⟨x.result, expiresAt'⟩) s')
    (hevent : x.resultEvent ∉ s.processedEvents) {claimedAt now : ℤ} (hle : claimedAt ≤ now)
    (hnow : now < expiresAt) (hnow' : now < expiresAt') :
    x.SameEnd (s.exec limits (x.answer claimedAt now)) (s'.exec limits (x.acceptance now)) := by
  rw [exec_answer_of_outbound hmatch hs hevent (hle.trans_lt hnow) hnow,
    exec_acceptance_of_pending hmatch hs' hnow']
  have hours : x.Ours s := hs.ours fun o ho ↦ by rw [← Option.some.inj ho]
  have hours' : x.Ours s' := hs'.ours fun _ ho ↦ absurd ho (Option.not_mem_none _)
  have hagree := (agree_expire_markEvent hlimits s hle).trans (h.expire hours hours' now)
  have hkept := hagree.trans (agree_keepOutbound hlimits x (s'.expire now) now).symm
  have hnone : (((s.expire claimedAt).markEvent limits claimedAt x.resultEvent).expire
      now).pendingResults.lookup x.messageId = none := by
    apply OrderedDict.lookup_filter_of_forall _ fun _ hr ↦ absurd hr (Option.not_mem_none _)
    exact OrderedDict.lookup_filter_of_forall hs.pendingResults fun _ hr ↦ absurd hr (Option.not_mem_none _)
  constructor
  · exact hkept.outbound
  · exact hkept.messageByRequestId
  · exact (OrderedDict.erase_of_lookup_eq_none hnone).symm.trans hagree.pendingResults
  · exact congrArg (· ++ [x.resolution]) h.outcomes
  · exact ⟨AList.lookup_erase _ _, hnone⟩
  · have hold : s.outcomes.filter (fun o ↦ o.messageId = x.messageId) = [] :=
      List.filter_eq_nil_iff.2 fun o ho heq ↦ hs.outcomes o ho (of_decide_eq_true heq)
    change (s.outcomes ++ [x.resolution]).filter _ = _
    rw [List.filter_append, hold, List.nil_append]
    exact List.filter_cons_of_pos (decide_eq_true rfl)

/-! ## The two orders -/

variable (x limits)

/-- The other operations before and between the two halves belong to other requests, the result is
the one of the request, and the second half comes within the time to live of the first. -/
structure Interleaves (before between : List Operation) (claimedAt₁ now₁ claimedAt₂ now₂ : ℤ) :
    Prop where
  identity : ResultMatches x.request x.result
  avoids_before : ∀ op ∈ before, x.Avoids op
  avoids_between : ∀ op ∈ between, x.Avoids op
  times : ∀ op ∈ between, ∀ t ∈ op.times, t ≤ now₂
  claimed₁ : claimedAt₁ ≤ now₁
  claimed₂ : claimedAt₂ ≤ now₂
  inTime : now₂ < now₁ + limits.stateTtlSeconds

/-- The acceptance is recorded before the result is handled. -/
def acceptedFirst (before between : List Operation) (now₁ claimedAt₂ now₂ : ℤ) : List Operation :=
  before ++ x.acceptance now₁ :: (between ++ [x.answer claimedAt₂ now₂])

/-- The result is handled before the acceptance is recorded. -/
def answeredFirst (before between : List Operation) (claimedAt₁ now₁ now₂ : ℤ) : List Operation :=
  before ++ x.answer claimedAt₁ now₁ :: (between ++ [x.acceptance now₂])

variable {x limits} {before between : List Operation} {claimedAt₁ now₁ claimedAt₂ now₂ : ℤ}

theorem initial_keeps (x : ChatExchange) : x.Keeps none none initial :=
  ⟨rfl, rfl, fun _ ho ↦ absurd ho List.not_mem_nil⟩

/-- A service without a bound ends in the same state after either order. -/
theorem sameEnd_of_unbounded (hlimits : limits.maxStateEntries = none)
    (h : x.Interleaves limits before between claimedAt₁ now₁ claimedAt₂ now₂) :
    x.SameEnd
      (run (HostedChatState.exec limits) initial
        (x.acceptedFirst before between now₁ claimedAt₂ now₂))
      (run (HostedChatState.exec limits) initial
        (x.answeredFirst before between claimedAt₁ now₁ now₂)) := by
  have hnever {ν : Type} {P : ν → Prop} : ∀ o ∈ (none : Option ν), P o :=
    fun _ ho ↦ absurd ho (Option.not_mem_none _)
  -- Nothing of the exchange is kept before its first half.
  have hstart := (initial_keeps x).run hlimits h.avoids_before (fun _ _ _ _ ↦ hnever)
    fun _ _ _ _ ↦ hnever
  have hinitial : x.resultEvent ∉ initial.processedEvents := AList.notMem_empty _
  have hunmarked := notMem_run hlimits h.avoids_before hinitial
  simp only [acceptedFirst, answeredFirst, run_append, run_cons, run_nil]
  set s := run (HostedChatState.exec limits) initial before
  have hexpired : x.Keeps none none (s.expire now₁) := hstart.expire hnever hnever
  have hclaimed : x.Keeps none none
      ((s.expire claimedAt₁).markEvent limits claimedAt₁ x.resultEvent) :=
    (hstart.expire hnever hnever).congr rfl rfl rfl
  have hmarked : x.Keeps none none
      (((s.expire claimedAt₁).markEvent limits claimedAt₁ x.resultEvent).expire now₁) :=
    hclaimed.expire hnever hnever
  rw [exec_acceptance hstart, exec_answer hstart hunmarked]
  have hsent : x.Keeps (some ⟨x.requestId, x.request, now₁ + limits.stateTtlSeconds⟩) none
      ((s.expire now₁).keepOutbound limits now₁ x.sendEvent x.requestId x.messageId x.request) := by
    refine ⟨?_, hexpired.pendingResults, hexpired.outcomes⟩
    simp only [keepOutbound, trimState_eq hlimits]
    exact AList.lookup_insert _
  have hpending : x.Keeps none (some ⟨x.result, now₁ + limits.stateTtlSeconds⟩)
      ((((s.expire claimedAt₁).markEvent limits claimedAt₁ x.resultEvent).expire now₁).keepResult
        limits now₁ x.result) := by
    refine ⟨hmarked.outbound, ?_, hmarked.outcomes⟩
    simp only [keepResult, trimState_eq hlimits]
    exact AList.lookup_insert _
  have hagree := (agree_keepOutbound hlimits x (s.expire now₁) now₁).trans
    ((agree_expire_markEvent hlimits s h.claimed₁).symm.trans
      (agree_keepResult hlimits x _ now₁).symm)
  have hours : ∀ o ∈ some (⟨x.requestId, x.request, now₁ + limits.stateTtlSeconds⟩ :
      ExpiringOutbound), o.requestId = x.requestId := fun o ho ↦ by rw [← Option.some.inj ho]
  have hsentTimes : ∀ op ∈ between, ∀ t ∈ op.times, ∀ o ∈ some (⟨x.requestId, x.request,
      now₁ + limits.stateTtlSeconds⟩ : ExpiringOutbound), t < o.expiresAt := by
    intro op hop t ht o ho
    rw [← Option.some.inj ho]
    exact (h.times op hop t ht).trans_lt h.inTime
  have hpendingTimes : ∀ op ∈ between, ∀ t ∈ op.times, ∀ r ∈ some (⟨x.result,
      now₁ + limits.stateTtlSeconds⟩ : ExpiringResult), t < r.expiresAt := by
    intro op hop t ht r hr
    rw [← Option.some.inj hr]
    exact (h.times op hop t ht).trans_lt h.inTime
  -- The other requests are served alike, and the second half finds the first.
  apply sameEnd_of_agree hlimits h.identity
    (hagree.run hlimits h.avoids_between hsent hpending hours hnever hsentTimes (fun _ _ _ _ ↦ hnever)
      (fun _ _ _ _ ↦ hnever) hpendingTimes)
    (hsent.run hlimits h.avoids_between hsentTimes fun _ _ _ _ ↦ hnever)
    (hpending.run hlimits h.avoids_between (fun _ _ _ _ ↦ hnever) hpendingTimes)
    (notMem_run hlimits h.avoids_between (notMem_expire hunmarked)) h.claimed₂ h.inTime h.inTime

end ChatExchange

/-! ## What resolves a request -/

namespace HostedChatState

variable {s : HostedChatState} {limits : ChatLimits} {now : ℤ} {ops : List Operation}

/-- The gateway has accepted the request under this message. -/
def Accepted (ops : List Operation) (messageId requestId : String)
    (request : HostedChatSendRequest) : Prop :=
  ∃ now event, Operation.accept now event requestId messageId request ∈ ops

/-- The result has come. -/
def Answered (ops : List Operation) (result : HostedChatSendResult) : Prop :=
  ∃ claimedAt now event, Operation.sendResult claimedAt now event result ∈ ops

/-- An outcome is about a request and a result of the same message; they have the same identity if
it is resolved. -/
structure Justified (ops : List Operation) (outcome : ChatOutcome) : Prop where
  accepted : Accepted ops outcome.messageId outcome.requestId outcome.request
  answered : Answered ops outcome.result
  message : outcome.result.chatMessageId = outcome.messageId
  identity : outcome.resolved = true → ResultMatches outcome.request outcome.result

/-- The dictionaries hold what the operations have brought. -/
structure Recorded (ops : List Operation) (s : HostedChatState) : Prop where
  outbound : ∀ messageId, ∀ sent ∈ s.outbound.lookup messageId,
    Accepted ops messageId sent.requestId sent.request
  pendingResults : ∀ messageId, ∀ pending ∈ s.pendingResults.lookup messageId,
    Answered ops pending.result ∧ pending.result.chatMessageId = messageId
  outcomes : ∀ outcome ∈ s.outcomes, Justified ops outcome

namespace Recorded

theorem congr {s' : HostedChatState} (h : Recorded ops s) (houtbound : s'.outbound = s.outbound)
    (hresults : s'.pendingResults = s.pendingResults) (houtcomes : s'.outcomes = s.outcomes) :
    Recorded ops s' :=
  ⟨houtbound ▸ h.outbound, hresults ▸ h.pendingResults, houtcomes ▸ h.outcomes⟩

theorem expire (h : Recorded ops s) (now : ℤ) : Recorded ops (s.expire now) where
  outbound messageId sent hsent := h.outbound messageId sent (OrderedDict.mem_lookup_filter hsent)
  pendingResults messageId pending hpending :=
    h.pendingResults messageId pending (OrderedDict.mem_lookup_filter hpending)
  outcomes := h.outcomes

theorem append_outcome (h : Recorded ops s) {outcome : ChatOutcome}
    (hjustified : Justified ops outcome) :
    ∀ o ∈ s.outcomes ++ [outcome], Justified ops o := by
  intro o ho
  cases List.mem_append.1 ho with
  | inl hold => exact h.outcomes o hold
  | inr hnew =>
    rw [List.mem_singleton.1 hnew]
    exact hjustified

theorem keepOutbound (h : Recorded ops s) {event : ChatEventKey} {requestId messageId : String}
    {request : HostedChatSendRequest} (haccepted : Accepted ops messageId requestId request) :
    Recorded ops (s.keepOutbound limits now event requestId messageId request) where
  outbound other sent hsent := by
    cases OrderedDict.mem_lookup_insert (OrderedDict.mem_lookup_trim hsent) with
    | inl hnew =>
      obtain ⟨rfl, rfl⟩ := hnew
      exact haccepted
    | inr hold => exact h.outbound other sent hold
  pendingResults := h.pendingResults
  outcomes := h.outcomes

theorem meetPendingResult (h : Recorded ops s) {requestId messageId : String}
    {request : HostedChatSendRequest} (haccepted : Accepted ops messageId requestId request) :
    Recorded ops (s.meetPendingResult requestId messageId request) := by
  unfold HostedChatState.meetPendingResult
  split
  · exact h
  · rename_i pending hpending
    obtain ⟨hanswered, hmessage⟩ := h.pendingResults messageId pending hpending
    constructor
    · exact fun other sent hsent ↦ h.outbound other sent (OrderedDict.mem_lookup_erase hsent)
    · exact fun other result hresult ↦
        h.pendingResults other result (OrderedDict.mem_lookup_erase hresult)
    · exact h.append_outcome ⟨haccepted, hanswered, hmessage, of_decide_eq_true⟩

theorem recordResult (h : Recorded ops s) {result : HostedChatSendResult}
    (hanswered : Answered ops result) : Recorded ops (s.recordResult limits now result) := by
  have hexpired := h.expire now
  unfold HostedChatState.recordResult
  split
  · constructor
    · exact hexpired.outbound
    · intro other pending hpending
      cases OrderedDict.mem_lookup_insert (OrderedDict.mem_lookup_trim hpending) with
      | inl hnew =>
        obtain ⟨rfl, rfl⟩ := hnew
        exact ⟨hanswered, rfl⟩
      | inr hold => exact hexpired.pendingResults other pending hold
    · exact hexpired.outcomes
  · rename_i sent hsent
    have haccepted := hexpired.outbound _ sent hsent
    unfold meetOutbound
    split_ifs with hmatch
    · constructor
      · exact fun other o ho ↦ hexpired.outbound other o (OrderedDict.mem_lookup_erase ho)
      · exact hexpired.pendingResults
      · exact hexpired.append_outcome ⟨haccepted, hanswered, rfl, fun _ ↦ hmatch⟩
    · exact ⟨hexpired.outbound, hexpired.pendingResults,
        hexpired.append_outcome ⟨haccepted, hanswered, rfl, fun hfalse ↦ Bool.noConfusion hfalse⟩⟩

theorem exec (h : Recorded ops s) {op : Operation} (hop : op ∈ ops) :
    Recorded ops (s.exec limits op) := by
  cases op with
  | receive now event =>
    simp only [HostedChatState.exec, claimEvent]
    split_ifs
    · exact h.expire now
    · exact (h.expire now).congr rfl rfl rfl
  | release event => exact h.congr rfl rfl rfl
  | discard event => exact h.congr rfl rfl rfl
  | readPending now event =>
    simp only [HostedChatState.exec, readPendingSend]
    split_ifs
    · exact h.congr rfl rfl rfl
    · exact h
  | keepPending now event requestId request => exact h.congr rfl rfl rfl
  | accept now event requestId messageId request =>
    have haccepted : Accepted ops messageId requestId request := ⟨now, event, hop⟩
    exact ((h.expire now).keepOutbound haccepted).meetPendingResult haccepted
  | sendResult claimedAt now event result =>
    simp only [HostedChatState.exec, claimEvent]
    split_ifs
    · exact h.expire claimedAt
    · have hmarked : Recorded ops ((s.expire claimedAt).markEvent limits claimedAt event) :=
        (h.expire claimedAt).congr rfl rfl rfl
      exact hmarked.recordResult ⟨claimedAt, now, event, hop⟩

theorem run (h : Recorded ops s) {taken : List Operation} (hsub : ∀ op ∈ taken, op ∈ ops) :
    Recorded ops (Relational.run (HostedChatState.exec limits) s taken) := by
  induction taken generalizing s with
  | nil => exact h
  | cons op taken ih =>
    rw [List.forall_mem_cons] at hsub
    exact ih (h.exec hsub.1) hsub.2

theorem initial (ops : List Operation) : Recorded ops initial :=
  ⟨fun _ _ ho ↦ absurd ho (Option.not_mem_none _), fun _ _ hr ↦ absurd hr (Option.not_mem_none _),
    fun _ ho ↦ absurd ho List.not_mem_nil⟩

end Recorded

end HostedChatState

/-! ## The bound on the dictionaries -/

/-- The same service without the bound. -/
def ChatLimits.unbounded (limits : ChatLimits) : ChatLimits := { limits with maxStateEntries := none }

/-- The bound takes nothing out: the step does what it does without the bound. -/
def HostedChatState.Fits (limits : ChatLimits) (s : HostedChatState)
    (op : HostedChatState.Operation) : Prop :=
  s.exec limits op = s.exec limits.unbounded op

instance (limits : ChatLimits) (s : HostedChatState) (op : HostedChatState.Operation) :
    Decidable (s.Fits limits op) := inferInstanceAs (Decidable (_ = _))

open HostedChatState in
/-- Every resolved request has met a result of its own identity; and where the bound takes nothing
out, the result of a request may come before or after the acceptance. -/
theorem send_results_agree (limits : ChatLimits) :
    (∀ ops, ∀ outcome ∈ (run (exec limits) initial ops).outcomes,
      Justified ops outcome) ∧
    ∀ (x : ChatExchange) (before between : List Operation)
      (claimedAt₁ now₁ claimedAt₂ now₂ : ℤ),
      x.Interleaves limits before between claimedAt₁ now₁ claimedAt₂ now₂ →
      Guarded (exec limits) (Fits limits) initial
        (x.acceptedFirst before between now₁ claimedAt₂ now₂) →
      Guarded (exec limits) (Fits limits) initial
        (x.answeredFirst before between claimedAt₁ now₁ now₂) →
      x.SameEnd
        (run (exec limits) initial (x.acceptedFirst before between now₁ claimedAt₂ now₂))
        (run (exec limits) initial (x.answeredFirst before between claimedAt₁ now₁ now₂)) := by
  constructor
  · intro ops
    exact ((Recorded.initial ops).run fun _ hop ↦ hop).outcomes
  · intro x before between claimedAt₁ now₁ claimedAt₂ now₂ h haccepted hanswered
    rw [run_eq_of_guarded haccepted, run_eq_of_guarded hanswered]
    exact ChatExchange.sameEnd_of_unbounded rfl
      ⟨h.identity, h.avoids_before, h.avoids_between, h.times, h.claimed₁, h.claimed₂, h.inTime⟩

/-! ## Runs of the service -/

namespace ChatExchange

def smallTalkResult (messageId : String) : HostedChatSendResult :=
  ⟨messageId, "session", "7", "8", .private_, "sent", none⟩

/-- The first send of a session, and its result. -/
def smallTalk : ChatExchange where
  sendEvent := ⟨"gateway", "hello"⟩
  resultEvent := ⟨"gateway", "sent"⟩
  requestId := "chat-1"
  request := ⟨"session", "7", "8", .private_, "hi"⟩
  result := smallTalkResult "message-1"

/-- The result of another send, whose acceptance is still to come. -/
def otherAnswer : HostedChatState.Operation :=
  .sendResult 0 0 ⟨"gateway", "other"⟩ (smallTalkResult "message-2")

theorem smallTalk_interleaves (limit : Option ℕ) :
    smallTalk.Interleaves ⟨600, limit⟩ [otherAnswer] [] 1 1 2 2 where
  identity := by decide
  avoids_before := by decide
  avoids_between := by decide
  times := by decide
  claimed₁ := le_rfl
  claimed₂ := le_rfl
  inTime := by
    change (2 : ℤ) < 1 + 600
    decide

end ChatExchange

open ChatExchange HostedChatState in
theorem send_results_agree_smallTalk :
    smallTalk.SameEnd
      (run (exec ⟨600, some 2⟩) initial (smallTalk.acceptedFirst [otherAnswer] [] 1 2 2))
      (run (exec ⟨600, some 2⟩) initial (smallTalk.answeredFirst [otherAnswer] [] 1 1 2)) :=
  (send_results_agree ⟨600, some 2⟩).2 smallTalk [otherAnswer] [] 1 1 2 2
    (smallTalk_interleaves (some 2)) (by decide) (by decide)

open ChatExchange HostedChatState in
/-- With room for one result, the result that waits for its acceptance displaces another one. -/
theorem send_results_differ :
    smallTalk.Interleaves ⟨600, some 1⟩ [otherAnswer] [] 1 1 2 2 ∧
      (run (exec ⟨600, some 1⟩) initial
        (smallTalk.acceptedFirst [otherAnswer] [] 1 2 2)).pendingResults ≠
      (run (exec ⟨600, some 1⟩) initial
        (smallTalk.answeredFirst [otherAnswer] [] 1 1 2)).pendingResults :=
  ⟨smallTalk_interleaves (some 1), by decide⟩

end LlmGateway
