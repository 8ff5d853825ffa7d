import LlmGateway.Chat.Gate

/-!
# The replies to an event

An event that is marked as processed is accepted, has failed permanently or is in the hands of a
task, unless a cancellation has reached the task. The sends for an event that neither its marker
nor its pending send is taken from carry one request id.
-/

namespace LlmGateway

open Relational

namespace ChatGate

variable {maxQueueSize : ℕ} {gate : ChatGate} {h : ChatHandler} {event : ChatEventKey}

/-- A task is in charge of the event. -/
def Handles (gate : ChatGate) (event : ChatEventKey) : Prop :=
  ∃ h ∈ gate.handlers, h.event = event

instance : Decidable (gate.Handles event) :=
  inferInstanceAs (Decidable (∃ h ∈ gate.handlers, h.event = event))

theorem Handles.of_append {gate' : ChatGate} (hhandlers : gate'.handlers = gate.handlers ++ [h])
    (hevent : gate.Handles event) : gate'.Handles event := by
  obtain ⟨h', hh', heq⟩ := hevent
  refine ⟨h', ?_, heq⟩
  rw [hhandlers]
  exact List.mem_append_left _ hh'

theorem Handles.move {phase : ChatPhase} (hevent : gate.Handles event) :
    (gate.move h phase).Handles event := by
  obtain ⟨h', hh', heq⟩ := hevent
  by_cases hsame : h' = h
  · exact ⟨_, List.mem_append_right _ (List.mem_singleton_self _), hsame ▸ heq⟩
  · exact ⟨h', List.mem_append_left _ ((List.mem_erase_of_ne hsame).2 hh'), heq⟩

theorem Handles.erase (hevent : gate.Handles event) (hne : h.event ≠ event) :
    ∃ h' ∈ gate.handlers.erase h, h'.event = event := by
  obtain ⟨h', hh', heq⟩ := hevent
  refine ⟨h', (List.mem_erase_of_ne ?_).2 hh', heq⟩
  rintro rfl
  exact hne heq

theorem acquireSemaphore_handlers (gate : ChatGate) (h : ChatHandler) :
    ∃ lock, (gate.acquireSemaphore h).handlers = (gate.move h (.locking lock)).handlers := by
  unfold acquireSemaphore
  split
  · exact ⟨_, rfl⟩
  · exact ⟨_, rfl⟩

theorem Sound.handlers_exit (hs : gate.Sound maxQueueSize) (hh : h ∈ gate.handlers) :
    (gate.exit h).handlers = gate.handlers.erase h := by
  by_cases hphase : h.phase.isQueued = true
  · exact hs.exit_handlers hh hphase
  · rw [ChatGate.exit, if_neg hphase]
    rfl

end ChatGate

/-- What a task has read of the pending send of its event. -/
def ChatPhase.request? : ChatPhase → Option (Option ℕ)
  | .auditing | .queued | .locking _ => none
  | .building _ => some none
  | .reporting _ requestId | .sending _ requestId => some (some requestId)

namespace HostedChatService

variable {config : HostedChatConfig} {s s' : HostedChatService} {h : ChatHandler}
  {event other : ChatEventKey}

/-- The event has its outcome: a send has been accepted, or the reply has failed permanently. -/
def Settled (s : HostedChatService) (event : ChatEventKey) : Prop :=
  event ∈ s.accepted ∨ event ∈ s.rejected

/-- A marked event has its outcome, or a task is in charge of it. -/
def Kept (s : HostedChatService) (event : ChatEventKey) : Prop :=
  event ∈ s.processedEvents → s.Settled event ∨ s.gate.Handles event

/-- The step cancels a task that is in charge of the event. -/
def Cancels (s : HostedChatService) (action : ChatAction) (event : ChatEventKey) : Prop :=
  ∃ h ∈ s.gate.handlers, action = .failed h.id .cancelled ∧ h.event = event

instance : Decidable (s.Settled event) :=
  inferInstanceAs (Decidable (event ∈ s.accepted ∨ event ∈ s.rejected))

instance {action : ChatAction} : Decidable (s.Cancels action event) :=
  inferInstanceAs (Decidable (∃ h ∈ s.gate.handlers, _))

/-! ## What the operations leave alone -/

theorem mem_claimEvent (hmem : event ∈ (s.claimEvent config other).processedEvents) :
    event ∈ s.processedEvents ∨ event = other := by
  have hin := List.mem_of_mem_drop hmem
  rwa [List.mem_append, List.mem_singleton] at hin

theorem mem_releaseEvent : event ∈ (s.releaseEvent other).processedEvents ↔
    event ∈ s.processedEvents ∧ event ≠ other := by
  simp only [releaseEvent, List.mem_filter, decide_eq_true_eq]

theorem Kept.mono (hkept : s.Kept event)
    (hmarked : event ∈ s'.processedEvents → event ∈ s.processedEvents)
    (hsettled : s.Settled event → s'.Settled event)
    (hhandles : s.gate.Handles event → s'.gate.Handles event) : s'.Kept event :=
  fun hmem ↦ (hkept (hmarked hmem)).imp hsettled hhandles

/-- A task that is suspended somewhere else stays in charge. -/
theorem Kept.of_move (hkept : s.Kept event) {phase : ChatPhase}
    (hhandlers : s'.gate.handlers = (s.gate.move h phase).handlers)
    (hprocessed : s'.processedEvents = s.processedEvents) (haccepted : s'.accepted = s.accepted)
    (hrejected : s'.rejected = s.rejected) : s'.Kept event := by
  apply hkept.mono
  · rw [hprocessed]
    exact id
  · rw [Settled, Settled, haccepted, hrejected]
    exact id
  · intro hevent
    have hmoved : (s.gate.move h phase).Handles event := hevent.move
    rwa [ChatGate.Handles, ← hhandlers] at hmoved

theorem Kept.catchFailure (hhandlers : s'.gate.handlers = s.gate.handlers.erase h)
    (hprocessed : s'.processedEvents = s.processedEvents) (haccepted : s'.accepted = s.accepted)
    (hrejected : s'.rejected = s.rejected) {failure : ChatFailure}
    (hnot : failure = .cancelled → h.event ≠ event) (hkept : s.Kept event) :
    (s'.catchFailure h.event failure).Kept event := by
  by_cases hsame : h.event = event
  · cases failure with
    | permanent =>
      exact fun _ ↦ Or.inl (Or.inr (List.mem_append_right _ (List.mem_singleton.2 hsame.symm)))
    | retryable => exact fun hmem ↦ absurd hsame.symm (mem_releaseEvent.1 hmem).2
    | cancelled => exact absurd hsame (hnot rfl)
  · apply hkept.mono
    · intro hmem
      cases failure with
      | permanent | cancelled => exact hprocessed ▸ hmem
      | retryable => exact hprocessed ▸ (mem_releaseEvent.1 hmem).1
    · intro hsettled
      rw [Settled, ← haccepted, ← hrejected] at hsettled
      cases failure with
      | permanent => exact hsettled.imp_right (List.mem_append_left _)
      | retryable | cancelled => exact hsettled
    · intro hevent
      have hleft := hevent.erase hsame
      rw [← hhandlers] at hleft
      rw [catchFailure_gate]
      exact hleft

/-! ## What a step does -/

/-- What `receive` can do. -/
inductive Received (config : HostedChatConfig) (s : HostedChatService) (event : ChatEventKey) :
    HostedChatService → Prop where
  | duplicate (hmarked : event ∈ s.processedEvents) : Received config s event s
  | ignored (hnew : event ∉ s.processedEvents)
      (hreply : (config.content event).expectsReply = false) :
      Received config s event (s.claimEvent config event)
  | spawned (hnew : event ∉ s.processedEvents) (h : ChatHandler) (gate : ChatGate)
      (hevent : h.event = event) (hphase : h.phase.request? = none)
      (hhandlers : gate.handlers = s.gate.handlers ++ [h]) :
      Received config s event { s.claimEvent config event with gate }
  | full (hnew : event ∉ s.processedEvents) (gate : ChatGate)
      (hhandlers : gate.handlers = s.gate.handlers) :
      Received config s event ({ s.claimEvent config event with gate }.releaseEvent event)

theorem received (hs : s.gate.Sound config.maxQueueSize) (event : ChatEventKey) :
    Received config s event (s.receive config event) := by
  simp only [receive]
  split_ifs with hmarked
  · exact .duplicate hmarked
  split
  · rename_i hcontent
    apply Received.ignored hmarked
    rw [hcontent]
    rfl
  · rename_i target supported hcontent
    split_ifs with hsupported
    · exact .spawned hmarked _ _ rfl rfl rfl
    · apply Received.ignored hmarked
      rw [hcontent]
      exact eq_false_of_ne_true hsupported
  · rename_i target hcontent
    -- the new handler is the last one
    have hfresh : ⟨s.gate.handlerCount, event, target, .auditing⟩ ∉ s.gate.handlers := by
      intro hin
      exact absurd (hs.issued _ hin) (lt_irrefl _)
    have herase : (s.gate.spawn event target).handlers.erase
        ⟨s.gate.handlerCount, event, target, .auditing⟩ = s.gate.handlers := by
      simp only [ChatGate.spawn, List.erase_append_right _ hfresh, List.erase_cons_head,
        List.append_nil]
    unfold generateAndSend
    split_ifs
    · exact .full hmarked ((s.gate.spawn event target).remove _) herase
    · apply Received.spawned hmarked ⟨s.gate.handlerCount, event, target, .queued⟩
        ((s.gate.spawn event target).enter _) rfl rfl
      exact congrArg (· ++ [_]) herase

/-- What a step of a task can do. -/
inductive Advanced (config : HostedChatConfig) (s : HostedChatService) (h : ChatHandler)
    (action : ChatAction) : HostedChatService → Prop where
  | stays : Advanced config s h action s
  | waits (phase : ChatPhase) (gate : ChatGate) (hphase : phase.request? = none)
      (hhandlers : gate.handlers = (s.gate.move h phase).handlers) :
      Advanced config s h action { s with gate }
  | locks (lock : ℕ) : Advanced config s h action (s.generateAndSendLocked h lock)
  | builds (lock : ℕ) (hphase : h.phase = .building lock) (id : ℕ) (haction : action = .built id) :
      Advanced config s h action (s.keepPending config h lock)
  | sends (lock requestId : ℕ) (hphase : h.phase = .reporting lock requestId) :
      Advanced config s h action (s.send h lock requestId)
  | accepts : Advanced config s h action (s.accept h)
  | fails (failure : ChatFailure) (gate : ChatGate)
      (hhandlers : gate.handlers = s.gate.handlers.erase h)
      (hcancelled : failure = .cancelled → ∃ id, action = .failed id .cancelled) :
      Advanced config s h action ({ s with gate }.catchFailure h.event failure)

theorem advanced (hs : s.gate.Sound config.maxQueueSize) (hh : h ∈ s.gate.handlers)
    (action : ChatAction) : Advanced config s h action (s.advance config h action) := by
  cases action with
  | receive other => exact .stays
  | audited id =>
    simp only [advance, generateAndSend]
    split_ifs
    · apply Advanced.fails .retryable _ rfl
      intro hcancelled
      cases hcancelled
    · exact .waits .queued _ rfl rfl
    · exact .stays
  | acquireSemaphore id =>
    simp only [advance]
    split_ifs
    · obtain ⟨lock, hhandlers⟩ := ChatGate.acquireSemaphore_handlers s.gate h
      exact .waits (.locking lock) _ rfl hhandlers
    · exact .stays
  | acquireLock id =>
    simp only [advance]
    split
    · split_ifs
      · exact .stays
      · exact .locks _
    · exact .stays
  | built id =>
    simp only [advance]
    split
    · exact .builds _ ‹_› id rfl
    · exact .stays
  | reported id =>
    simp only [advance]
    split
    · exact .sends _ _ ‹_›
    · exact .stays
  | accepted id =>
    simp only [advance]
    split
    · exact .accepts
    · exact .stays
  | failed id failure =>
    simp only [advance]
    split_ifs
    · apply Advanced.fails failure _ (hs.handlers_exit hh)
      rintro rfl
      exact ⟨id, rfl⟩
    · exact .stays

theorem id_of_handler? {id : ℕ} (hfind : s.gate.handler? id = some h) : h.id = id := by
  have hid := List.find?_some hfind
  exact of_decide_eq_true hid

/-- A step is the receipt of an event, the step of a task, or nothing. -/
theorem exec_cases (hs : s.gate.Sound config.maxQueueSize) (action : ChatAction) :
    s.exec config action = s ∨
    (∃ event, action = .receive event ∧ Received config s event (s.exec config action)) ∨
    ∃ h ∈ s.gate.handlers, (∀ id, action = .failed id .cancelled → id = h.id) ∧
      (∀ id, action = .built id → s.gate.handler? id = some h) ∧
      Advanced config s h action (s.exec config action) := by
  unfold exec
  split
  · exact Or.inr (Or.inl ⟨_, rfl, received hs _⟩)
  all_goals
    split
    · exact Or.inl rfl
    · rename_i h hfind
      have hh := ChatGate.mem_of_handler? hfind
      refine Or.inr (Or.inr ⟨h, hh, ?_, ?_, advanced hs hh _⟩)
      · intro id haction
        cases haction
        try exact (id_of_handler? hfind).symm
      · intro id haction
        cases haction
        try exact hfind

/-! ## No reply is lost -/

theorem Kept.received (hreply : (config.content event).expectsReply) (hkept : s.Kept event)
    (hreceived : Received config s other s') : s'.Kept event := by
  have hclaimed (hne : event ≠ other) : (s.claimEvent config other).Kept event := by
    apply hkept.mono
    · exact fun hmem ↦ (mem_claimEvent hmem).resolve_right hne
    · exact id
    · exact id
  cases hreceived with
  | duplicate => exact hkept
  | ignored hnew hignored =>
    apply hclaimed
    rintro rfl
    rw [hignored] at hreply
    cases hreply
  | spawned hnew h gate hevent hphase hhandlers =>
    by_cases hsame : event = other
    · refine fun _ ↦ Or.inr ⟨h, ?_, hevent.trans hsame.symm⟩
      rw [hhandlers]
      exact List.mem_append_right _ (List.mem_singleton_self _)
    · apply (hclaimed hsame).mono
      · exact id
      · exact id
      · exact ChatGate.Handles.of_append hhandlers
  | full hnew gate hhandlers =>
    by_cases hsame : event = other
    · exact fun hmem ↦ absurd hsame (mem_releaseEvent.1 hmem).2
    · apply (hclaimed hsame).mono
      · exact fun hmem ↦ (mem_releaseEvent.1 hmem).1
      · exact id
      · rintro ⟨h, hh, hevent⟩
        exact ⟨h, hhandlers ▸ hh, hevent⟩

theorem Kept.advanced (hs : s.gate.Sound config.maxQueueSize) (hh : h ∈ s.gate.handlers)
    {action : ChatAction} (hkept : s.Kept event)
    (hnot : (∃ id, action = .failed id .cancelled) → h.event ≠ event)
    (hadvanced : Advanced config s h action s') : s'.Kept event := by
  cases hadvanced with
  | stays => exact hkept
  | waits phase gate hphase hhandlers => exact hkept.of_move hhandlers rfl rfl rfl
  | locks lock =>
    unfold generateAndSendLocked
    split
    · exact hkept.of_move rfl rfl rfl rfl
    · exact hkept.of_move rfl rfl rfl rfl
  | builds lock hphase id haction => exact hkept.of_move rfl rfl rfl rfl
  | sends lock requestId hphase => exact hkept.of_move rfl rfl rfl rfl
  | accepts =>
    by_cases hsame : h.event = event
    · exact fun _ ↦ Or.inl (Or.inl (List.mem_append_right _ (List.mem_singleton.2 hsame.symm)))
    · apply hkept.mono
      · exact fun hmem ↦ hmem
      · exact fun hsettled ↦ hsettled.imp_left (List.mem_append_left _)
      · intro hevent
        have hleft := hevent.erase hsame
        rwa [← hs.handlers_exit hh] at hleft
  | fails failure gate hhandlers hcancelled =>
    have hleft : { s with gate }.gate.handlers = s.gate.handlers.erase h := hhandlers
    exact hkept.catchFailure hleft rfl rfl rfl fun hfailure ↦ hnot (hcancelled hfailure)

/-- A step that does not cancel a task of the event loses no reply to it. -/
theorem Kept.exec (hreply : (config.content event).expectsReply)
    (hs : s.gate.Sound config.maxQueueSize) (hkept : s.Kept event) {action : ChatAction}
    (hnot : ¬s.Cancels action event) : (s.exec config action).Kept event := by
  rcases exec_cases hs action with hidle | ⟨other, -, hreceived⟩ | ⟨h, hh, hid, -, hadvanced⟩
  · rw [hidle]
    exact hkept
  · exact hkept.received hreply hreceived
  · apply hkept.advanced hs hh ?_ hadvanced
    rintro ⟨id, haction⟩ hevent
    exact hnot ⟨h, hh, hid id haction ▸ haction, hevent⟩

theorem Received.handlers (hreceived : Received config s other s') (hh : h ∈ s.gate.handlers) :
    h ∈ s'.gate.handlers := by
  cases hreceived with
  | duplicate | ignored => exact hh
  | spawned hnew h' gate hevent hphase hhandlers =>
    rw [hhandlers]
    exact List.mem_append_left _ hh
  | full hnew gate hhandlers => exact hhandlers ▸ hh

/-- After a step of a task the task is still there, or its event has its outcome or is released,
unless the task was cancelled. -/
theorem Advanced.outcome (hh : h ∈ s.gate.handlers)
    {action : ChatAction} (hadvanced : Advanced config s h action s') :
    (∃ phase, { h with phase } ∈ s'.gate.handlers) ∨ s'.Settled h.event ∨
      h.event ∉ s'.processedEvents ∨ ∃ id, action = .failed id .cancelled := by
  have hmoved (gate : ChatGate) (phase : ChatPhase) : { h with phase } ∈ (gate.move h phase).handlers :=
    List.mem_append_right _ (List.mem_singleton_self _)
  have hself (l : List ChatEventKey) : h.event ∈ l ++ [h.event] :=
    List.mem_append_right _ (List.mem_singleton_self _)
  cases hadvanced with
  | stays => exact Or.inl ⟨h.phase, hh⟩
  | waits phase gate hphase hhandlers => exact Or.inl ⟨phase, hhandlers ▸ hmoved _ phase⟩
  | locks lock =>
    unfold generateAndSendLocked
    split
    · exact Or.inl ⟨_, hmoved _ _⟩
    · exact Or.inl ⟨_, hmoved _ _⟩
  | builds lock hphase id haction => exact Or.inl ⟨_, hmoved _ _⟩
  | sends lock requestId hphase => exact Or.inl ⟨_, hmoved _ _⟩
  | accepts => exact Or.inr (Or.inl (Or.inl (hself _)))
  | fails failure gate hhandlers hcancelled =>
    cases failure with
    | permanent => exact Or.inr (Or.inl (Or.inr (hself _)))
    | retryable => exact Or.inr (Or.inr (Or.inl fun hmem ↦ (mem_releaseEvent.1 hmem).2 rfl))
    | cancelled => exact Or.inr (Or.inr (Or.inr (hcancelled rfl)))

theorem Advanced.handlers_of_ne (hs : s.gate.Sound config.maxQueueSize) (hh : h ∈ s.gate.handlers)
    {action : ChatAction} (hadvanced : Advanced config s h action s') {h' : ChatHandler}
    (hh' : h' ∈ s.gate.handlers) (hne : h' ≠ h) : h' ∈ s'.gate.handlers := by
  have hkept : h' ∈ s.gate.handlers.erase h := (List.mem_erase_of_ne hne).2 hh'
  have hmoved (phase : ChatPhase) : h' ∈ (s.gate.move h phase).handlers :=
    List.mem_append_left _ hkept
  cases hadvanced with
  | stays => exact hh'
  | waits phase gate hphase hhandlers => exact hhandlers ▸ hmoved phase
  | locks lock =>
    unfold generateAndSendLocked
    split
    · exact hmoved _
    · exact hmoved _
  | builds lock hphase id haction => exact hmoved _
  | sends lock requestId hphase => exact hmoved _
  | accepts => exact (hs.handlers_exit hh).symm ▸ hkept
  | fails failure gate hhandlers hcancelled =>
    rw [catchFailure_gate]
    exact hhandlers ▸ hkept

/-- A task that ends without being cancelled leaves its event with an outcome or released. -/
theorem outcome_of_ended (hs : s.gate.Sound config.maxQueueSize) (hh : h ∈ s.gate.handlers)
    {action : ChatAction} (hnot : ¬s.Cancels action h.event)
    (hgone : ∀ h' ∈ (s.exec config action).gate.handlers, h'.id ≠ h.id) :
    (s.exec config action).Settled h.event ∨
      h.event ∉ (s.exec config action).processedEvents := by
  have hleft : h ∉ (s.exec config action).gate.handlers := fun hin ↦ hgone h hin rfl
  rcases exec_cases hs action with hidle | ⟨other, -, hreceived⟩ | ⟨h', hh', hid, -, hadvanced⟩
  · rw [hidle] at hleft
    exact absurd hh hleft
  · exact absurd (hreceived.handlers hh) hleft
  · by_cases hsame : h = h'
    swap
    · exact absurd (hadvanced.handlers_of_ne hs hh' hh hsame) hleft
    rw [← hsame] at hadvanced hid
    rcases hadvanced.outcome hh with ⟨phase, hmoved⟩ | hsettled | hreleased | ⟨id, hcancel⟩
    · exact absurd rfl (hgone { h with phase } hmoved)
    · exact Or.inl hsettled
    · exact Or.inr hreleased
    · exact absurd ⟨h, hh, hid id hcancel ▸ hcancel, rfl⟩ hnot

/-! ## One request for an event -/

/-- The sends for the event carry one request id. -/
def OneRequest (s : HostedChatService) (event : ChatEventKey) : Prop :=
  ∀ send ∈ s.sends, ∀ send' ∈ s.sends, send.1 = event → send'.1 = event → send = send'

/-- The step takes out the marker or the pending send of the event, for the sake of the limit. -/
def Evicts (config : HostedChatConfig) (s : HostedChatService) (action : ChatAction)
    (event : ChatEventKey) : Prop :=
  match action with
  | .receive other => other ∉ s.processedEvents ∧ event ∈ trimmed config (s.processedEvents ++ [other])
  | .built id => ∃ h ∈ s.gate.handler? id, ∃ pending ∈ trimmed config
      ((s.discardPendingSend h.event).pendingSends ++ [(h.event, s.requestCount)]), pending.1 = event
  | _ => False

instance : ∀ {action : ChatAction}, Decidable (Evicts config s action event)
  | .receive _ => inferInstanceAs (Decidable (_ ∧ _))
  | .built _ => inferInstanceAs (Decidable (∃ h ∈ _, ∃ pending ∈ _, _))
  | .audited _ | .acquireSemaphore _ | .acquireLock _ | .reported _ | .accepted _ | .failed _ _ =>
    .isFalse not_false

instance : Decidable (s.OneRequest event) :=
  inferInstanceAs (Decidable (∀ send ∈ s.sends, ∀ send' ∈ s.sends, _))

/-- What is known of the tasks, the pending send and the sends of an event. -/
structure Consistent (s : HostedChatService) (event : ChatEventKey) : Prop where
  alone : ∀ h ∈ s.gate.handlers, ∀ h' ∈ s.gate.handlers, h.event = event → h'.event = event → h = h'
  marked : s.gate.Handles event → event ∈ s.processedEvents
  /-- As long as there may be another send, the sends are those of the pending one. -/
  sent : event ∉ s.processedEvents ∨ s.gate.Handles event → ∀ requestId,
    (event, requestId) ∈ s.sends → s.pendingSends.lookup event = some requestId
  read : ∀ h ∈ s.gate.handlers, h.event = event → ∀ request ∈ h.phase.request?,
    s.pendingSends.lookup event = request
  same : s.OneRequest event

/-- The steps that concern other events change nothing of this. -/
theorem Consistent.congr (hc : s.Consistent event)
    (hhandlers : ∀ h : ChatHandler, h.event = event →
      (h ∈ s'.gate.handlers ↔ h ∈ s.gate.handlers))
    (hmarked : event ∈ s'.processedEvents ↔ event ∈ s.processedEvents)
    (hpending : s'.pendingSends.lookup event = s.pendingSends.lookup event)
    (hsends : ∀ requestId, (event, requestId) ∈ s'.sends ↔ (event, requestId) ∈ s.sends) :
    s'.Consistent event := by
  have hhandles : s'.gate.Handles event ↔ s.gate.Handles event :=
    exists_congr fun h ↦ and_congr_left fun hevent ↦ hhandlers h hevent
  constructor
  · intro h hh h' hh' hevent hevent'
    exact hc.alone h ((hhandlers h hevent).1 hh) h' ((hhandlers h' hevent').1 hh') hevent hevent'
  · exact fun hin ↦ hmarked.2 (hc.marked (hhandles.1 hin))
  · intro hopen requestId hsend
    rw [hpending]
    exact hc.sent (hopen.imp (mt hmarked.2) hhandles.1) requestId ((hsends requestId).1 hsend)
  · intro h hh hevent request hread
    rw [hpending]
    exact hc.read h ((hhandlers h hevent).1 hh) hevent request hread
  · rintro ⟨_, requestId⟩ hsend ⟨_, requestId'⟩ hsend' rfl heq
    cases heq
    exact hc.same _ ((hsends requestId).1 hsend) _ ((hsends requestId').1 hsend') rfl rfl

/-- The only task of the event goes on. -/
theorem Consistent.of_alone (hh : ∀ h' ∈ s'.gate.handlers, h'.event = event → h' = h)
    (hmarked : event ∈ s'.processedEvents)
    (hsent : ∀ requestId, (event, requestId) ∈ s'.sends →
      s'.pendingSends.lookup event = some requestId)
    (hread : ∀ request ∈ h.phase.request?, s'.pendingSends.lookup event = request) :
    s'.Consistent event := by
  constructor
  · exact fun h₁ hh₁ h₂ hh₂ hevent₁ hevent₂ ↦
      (hh h₁ hh₁ hevent₁).trans (hh h₂ hh₂ hevent₂).symm
  · exact fun _ ↦ hmarked
  · exact fun _ ↦ hsent
  · intro h' hh' hevent
    rw [hh h' hh' hevent]
    exact hread
  · rintro ⟨_, requestId⟩ hsend ⟨_, requestId'⟩ hsend' rfl heq
    cases heq
    have hsame := (hsent requestId hsend).symm.trans (hsent requestId' hsend')
    rw [Option.some.inj hsame]

/-- No task of the event is left. -/
theorem Consistent.of_ended (hnone : ¬s'.gate.Handles event)
    (hsent : event ∉ s'.processedEvents → ∀ requestId, (event, requestId) ∈ s'.sends →
      s'.pendingSends.lookup event = some requestId) (hsame : s'.OneRequest event) :
    s'.Consistent event := by
  constructor
  · exact fun h hh _ _ hevent ↦ absurd ⟨h, hh, hevent⟩ hnone
  · exact fun hhandles ↦ absurd hhandles hnone
  · exact fun hopen ↦ hsent (hopen.resolve_right hnone)
  · exact fun h hh hevent ↦ absurd ⟨h, hh, hevent⟩ hnone
  · exact hsame

section Trim

variable {α : Type} {state : List α} {entry : α}

theorem trimmed_append_trimState (config : HostedChatConfig) (state : List α) :
    trimmed config state ++ trimState config state = state := List.take_append_drop _ _

theorem mem_trimState (hin : entry ∈ state) (hnot : entry ∉ trimmed config state) :
    entry ∈ trimState config state := by
  rw [← trimmed_append_trimState config state] at hin
  exact (List.mem_append.1 hin).resolve_left hnot

theorem lookup_trimState {state : List (ChatEventKey × ℕ)}
    (hnot : ∀ pending ∈ trimmed config state, pending.1 ≠ event) :
    (trimState config state).lookup event = state.lookup event := by
  have hnone : (trimmed config state).lookup event = none := by
    apply List.lookup_eq_none_iff.2
    intro pending hpending
    exact bne_iff_ne.2 (hnot pending hpending).symm
  calc
    (trimState config state).lookup event =
        (trimmed config state ++ trimState config state).lookup event := by
      rw [List.lookup_append, hnone, Option.none_or]
    _ = state.lookup event := by rw [trimmed_append_trimState]

end Trim

theorem lookup_discardPendingSend (s : HostedChatService) (hne : other ≠ event) :
    (s.discardPendingSend other).pendingSends.lookup event = s.pendingSends.lookup event := by
  simp only [discardPendingSend]
  induction s.pendingSends with
  | nil => rfl
  | cons pending rest ih =>
    by_cases hother : pending.1 = other
    · have hmiss : (event == pending.1) = false := by
        rw [hother]
        exact beq_false_of_ne hne.symm
      rw [List.filter_cons_of_neg (by simpa only [decide_eq_true_eq, not_not] using hother), ih,
        List.lookup_cons, hmiss]
    · rw [List.filter_cons_of_pos (by simpa only [decide_eq_true_eq] using hother),
        List.lookup_cons, List.lookup_cons, ih]

theorem lookup_discardPendingSend_self (s : HostedChatService) (event : ChatEventKey) :
    (s.discardPendingSend event).pendingSends.lookup event = none := by
  apply List.lookup_eq_none_iff.2
  intro pending hpending
  have hne := (List.mem_filter.1 hpending).2
  exact bne_iff_ne.2 (of_decide_eq_true hne).symm

/-- The receipt of an event keeps all events consistent whose markers stay. -/
theorem Consistent.received (hc : s.Consistent event)
    (hreceived : Received config s other s')
    (hkept : other ∉ s.processedEvents → event ∉ trimmed config (s.processedEvents ++ [other])) :
    s'.Consistent event := by
  -- the marker of the event after the claim
  have hclaimed (hnew : other ∉ s.processedEvents) :
      event ∈ (s.claimEvent config other).processedEvents ↔
        event ∈ s.processedEvents ∨ event = other := by
    refine ⟨mem_claimEvent, fun hin ↦ mem_trimState ?_ (hkept hnew)⟩
    rwa [List.mem_append, List.mem_singleton]
  have hold (hnew : other ∉ s.processedEvents) (hne : event ≠ other) :
      event ∈ (s.claimEvent config other).processedEvents ↔ event ∈ s.processedEvents := by
    rw [hclaimed hnew, or_iff_left hne]
  by_cases hsame : event = other
  · rw [← hsame] at hreceived hclaimed
    have hnone (hnew : event ∉ s.processedEvents) : ¬s.gate.Handles event :=
      fun hhandles ↦ hnew (hc.marked hhandles)
    cases hreceived with
    | duplicate => exact hc
    | ignored hnew => exact .of_ended (hnone hnew) (fun _ ↦ hc.sent (Or.inl hnew)) hc.same
    | spawned hnew h gate hevent hphase hhandlers =>
      apply Consistent.of_alone (h := h)
      · intro h' hh' hevent'
        rw [hhandlers, List.mem_append, List.mem_singleton] at hh'
        exact hh'.resolve_left fun hin ↦ hnone hnew ⟨h', hin, hevent'⟩
      · exact (hclaimed hnew).2 (Or.inr rfl)
      · exact hc.sent (Or.inl hnew)
      · intro request hread
        rw [hphase] at hread
        cases hread
    | full hnew gate hhandlers =>
      apply Consistent.of_ended
      · rintro ⟨h, hh, hevent⟩
        exact hnone hnew ⟨h, hhandlers ▸ hh, hevent⟩
      · exact fun _ ↦ hc.sent (Or.inl hnew)
      · exact hc.same
  · cases hreceived with
    | duplicate => exact hc
    | ignored hnew =>
      exact hc.congr (fun _ _ ↦ Iff.rfl) (hold hnew hsame) rfl fun _ ↦ Iff.rfl
    | spawned hnew h gate hevent hphase hhandlers =>
      apply hc.congr
      · intro h' hevent'
        rw [hhandlers, List.mem_append, List.mem_singleton]
        apply or_iff_left
        rintro rfl
        exact hsame (hevent'.symm.trans hevent)
      · exact hold hnew hsame
      · rfl
      · exact fun _ ↦ Iff.rfl
    | full hnew gate hhandlers =>
      apply hc.congr
      · intro h hevent
        exact iff_of_eq (congrArg (h ∈ ·) hhandlers)
      · rw [mem_releaseEvent, and_iff_left hsame]
        exact hold hnew hsame
      · rfl
      · exact fun _ ↦ Iff.rfl

/-- A step of a task of another event that keeps the lookups. -/
theorem Consistent.advanced_of_ne (hs : s.gate.Sound config.maxQueueSize)
    (hh : h ∈ s.gate.handlers) {action : ChatAction} (hc : s.Consistent event)
    (hadvanced : Advanced config s h action s') (hne : h.event ≠ event)
    (hkept : ∀ id, action = .built id → ∀ pending ∈ trimmed config
      ((s.discardPendingSend h.event).pendingSends ++ [(h.event, s.requestCount)]),
        pending.1 ≠ event) : s'.Consistent event := by
  have herase {h' : ChatHandler} (hevent : h'.event = event) :
      h' ∈ s.gate.handlers.erase h ↔ h' ∈ s.gate.handlers := by
    apply List.mem_erase_of_ne
    rintro rfl
    exact hne hevent
  have hmove (phase : ChatPhase) (h' : ChatHandler) (hevent : h'.event = event) :
      h' ∈ (s.gate.move h phase).handlers ↔ h' ∈ s.gate.handlers := by
    rw [ChatGate.move, List.mem_append, List.mem_singleton, herase hevent]
    apply or_iff_left
    rintro rfl
    exact hne hevent
  have hsend (requestId requestId' : ℕ) :
      (event, requestId') ∈ s.sends ++ [(h.event, requestId)] ↔ (event, requestId') ∈ s.sends := by
    rw [List.mem_append, List.mem_singleton]
    apply or_iff_left
    intro heq
    exact hne (congrArg Prod.fst heq).symm
  cases hadvanced with
  | stays => exact hc
  | waits phase gate hphase hhandlers =>
    exact hc.congr (hhandlers ▸ hmove phase) Iff.rfl rfl fun _ ↦ Iff.rfl
  | locks lock =>
    unfold generateAndSendLocked
    split
    · exact hc.congr (hmove _) Iff.rfl rfl (hsend _)
    · exact hc.congr (hmove _) Iff.rfl rfl fun _ ↦ Iff.rfl
  | builds lock hphase id haction =>
    have hmiss : (event == h.event) = false := beq_false_of_ne hne.symm
    refine hc.congr (hmove _) Iff.rfl ?_ fun _ ↦ Iff.rfl
    calc
      (s.keepPending config h lock).pendingSends.lookup event =
          ((s.discardPendingSend h.event).pendingSends ++ [(h.event, s.requestCount)]).lookup
            event := lookup_trimState (hkept id haction)
      _ = (s.discardPendingSend h.event).pendingSends.lookup event := by
        rw [List.lookup_append, List.lookup_cons, hmiss, List.lookup_nil, Option.or_none]
      _ = s.pendingSends.lookup event := lookup_discardPendingSend s hne
  | sends lock requestId hphase => exact hc.congr (hmove _) Iff.rfl rfl (hsend _)
  | accepts =>
    apply hc.congr
    · intro h' hevent
      exact (hs.handlers_exit hh).symm ▸ herase hevent
    · exact Iff.rfl
    · exact lookup_discardPendingSend s hne
    · exact fun _ ↦ Iff.rfl
  | fails failure gate hhandlers hcancelled =>
    apply hc.congr
    · intro h' hevent
      rw [catchFailure_gate]
      exact hhandlers ▸ herase hevent
    · cases failure with
      | permanent | cancelled => exact Iff.rfl
      | retryable => exact mem_releaseEvent.trans (and_iff_left hne.symm)
    · cases failure with
      | permanent => exact lookup_discardPendingSend _ hne
      | retryable | cancelled => rfl
    · cases failure <;> exact fun _ ↦ Iff.rfl

/-- A step of the task of the event. -/
theorem Consistent.advanced_self (hs : s.gate.Sound config.maxQueueSize)
    (hh : h ∈ s.gate.handlers) {action : ChatAction} (hc : s.Consistent h.event)
    (hadvanced : Advanced config s h action s')
    (hkept : ∀ id, action = .built id → ∀ pending ∈ trimmed config
      ((s.discardPendingSend h.event).pendingSends ++ [(h.event, s.requestCount)]),
        pending.1 ≠ h.event) : s'.Consistent h.event := by
  have hhandles : s.gate.Handles h.event := ⟨h, hh, rfl⟩
  have hmarked := hc.marked hhandles
  have hsent := hc.sent (Or.inr hhandles)
  have hread := hc.read h hh rfl
  have herase : ∀ h' ∈ s.gate.handlers.erase h, h'.event ≠ h.event := by
    intro h' hh' hevent
    have hmem := hs.mem_erase_iff.1 hh'
    exact hmem.1 (hc.alone h' hmem.2 h hh hevent rfl)
  have hmove (phase : ChatPhase) : ∀ h' ∈ (s.gate.move h phase).handlers, h'.event = h.event →
      h' = { h with phase } := by
    intro h' hh' hevent
    rw [ChatGate.move, List.mem_append, List.mem_singleton] at hh'
    exact hh'.resolve_left fun hin ↦ herase h' hin hevent
  -- sending once more what is pending
  have hresent {requestId : ℕ} (hpending : s.pendingSends.lookup h.event = some requestId) :
      ∀ requestId', (h.event, requestId') ∈ s.sends ++ [(h.event, requestId)] →
        s.pendingSends.lookup h.event = some requestId' := by
    intro requestId' hsend
    rw [List.mem_append, List.mem_singleton] at hsend
    cases hsend with
    | inl hold => exact hsent requestId' hold
    | inr hnew =>
      cases hnew
      exact hpending
  cases hadvanced with
  | stays => exact hc
  | waits phase gate hphase hhandlers =>
    apply Consistent.of_alone (h := { h with phase })
    · intro h' hh'
      exact hmove phase h' (hhandlers ▸ hh')
    · exact hmarked
    · exact hsent
    · intro request hrequest
      rw [hphase] at hrequest
      cases hrequest
  | locks lock =>
    unfold generateAndSendLocked
    split
    · rename_i requestId hpending
      refine Consistent.of_alone (hmove _) hmarked (hresent hpending) ?_
      rintro request ⟨⟩
      exact hpending
    · rename_i hpending
      refine Consistent.of_alone (hmove _) hmarked hsent ?_
      rintro request ⟨⟩
      exact hpending
  | builds lock hphase id haction =>
    have hnone : s.pendingSends.lookup h.event = none := by
      apply hread
      rw [hphase]
      rfl
    have hpending : (s.keepPending config h lock).pendingSends.lookup h.event =
        some s.requestCount := by
      calc
        (s.keepPending config h lock).pendingSends.lookup h.event =
            ((s.discardPendingSend h.event).pendingSends ++ [(h.event, s.requestCount)]).lookup
              h.event := lookup_trimState (hkept id haction)
        _ = some s.requestCount := by
          rw [List.lookup_append, lookup_discardPendingSend_self, List.lookup_cons_self,
            Option.none_or]
    refine Consistent.of_alone (hmove _) hmarked ?_ ?_
    · intro requestId hsend
      have hold := hsent requestId hsend
      rw [hnone] at hold
      cases hold
    · rintro request ⟨⟩
      exact hpending
  | sends lock requestId hphase =>
    have hpending : s.pendingSends.lookup h.event = some requestId := by
      apply hread
      rw [hphase]
      rfl
    refine Consistent.of_alone (hmove _) hmarked (hresent hpending) ?_
    rintro request ⟨⟩
    exact hpending
  | accepts =>
    apply Consistent.of_ended
    · rintro ⟨h', hh', hevent⟩
      exact herase h' ((hs.handlers_exit hh) ▸ hh') hevent
    · exact fun hopen ↦ absurd hmarked hopen
    · exact hc.same
  | fails failure gate hhandlers hcancelled =>
    apply Consistent.of_ended
    · rintro ⟨h', hh', hevent⟩
      rw [catchFailure_gate] at hh'
      exact herase h' (hhandlers ▸ hh') hevent
    · cases failure with
      | permanent | cancelled => exact fun hopen ↦ absurd hmarked hopen
      | retryable => exact fun _ ↦ hsent
    · cases failure <;> exact hc.same

/-- A step that evicts nothing of the event keeps it consistent. -/
theorem Consistent.exec (hs : s.gate.Sound config.maxQueueSize) (hc : s.Consistent event)
    {action : ChatAction} (hnot : ¬s.Evicts config action event) :
    (s.exec config action).Consistent event := by
  rcases exec_cases hs action with hidle | ⟨other, haction, hreceived⟩ |
    ⟨h, hh, -, hfind, hadvanced⟩
  · rw [hidle]
    exact hc
  · apply hc.received hreceived
    intro hnew hin
    rw [haction] at hnot
    exact hnot ⟨hnew, hin⟩
  · have hkept : ∀ id, action = .built id → ∀ pending ∈ trimmed config
        ((s.discardPendingSend h.event).pendingSends ++ [(h.event, s.requestCount)]),
          pending.1 ≠ event := by
      intro id haction pending hpending hevent
      rw [haction] at hnot
      exact hnot ⟨h, hfind id haction, pending, hpending, hevent⟩
    by_cases hsame : h.event = event
    · subst hsame
      exact hc.advanced_self hs hh hadvanced hkept
    · exact hc.advanced_of_ne hs hh hadvanced hsame hkept

end HostedChatService

end LlmGateway
