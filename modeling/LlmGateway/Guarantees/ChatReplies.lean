import LlmGateway.Chat.Replies

/-!
# Hosted chat loses no reply

As long as no cancellation reaches a task of an event, a call that returns normally for the event
leaves it accepted, failed permanently or in the hands of a task, and the task ends by an outcome
or by the release of the event. As long as neither its marker nor its pending send is evicted, all
sends for the event carry one request id.
-/

namespace LlmGateway

open Relational

/-- The reply is on its way to the gateway. -/
def ChatPhase.isSending : ChatPhase → Bool
  | .sending .. => true
  | _ => false

namespace HostedChatService

variable {config : HostedChatConfig} {s : HostedChatService} {event : ChatEventKey}

/-- The step is the normal return of a call for the event: of a duplicate, or of the call whose
send is accepted. -/
def Returns (s : HostedChatService) (action : ChatAction) (event : ChatEventKey) : Prop :=
  match action with
  | .receive other => other = event ∧ event ∈ s.processedEvents
  | .accepted id => ∃ h ∈ s.gate.handler? id, h.event = event ∧ h.phase.isSending
  | _ => False

instance : ∀ {action : ChatAction}, Decidable (s.Returns action event)
  | .receive _ => inferInstanceAs (Decidable (_ ∧ _))
  | .accepted _ => inferInstanceAs (Decidable (∃ h ∈ _, _))
  | .audited _ | .acquireSemaphore _ | .acquireLock _ | .reported _ | .built _ | .failed _ _ =>
    .isFalse not_false

/-- What the calls for the event can rely on. -/
structure Answered (config : HostedChatConfig) (event : ChatEventKey) (s : HostedChatService) :
    Prop where
  returned : ∀ action, s.Returns action event →
    (s.exec config action).Settled event ∨ (s.exec config action).gate.Handles event
  ended : ∀ action, ¬s.Cancels action event → ∀ h ∈ s.gate.handlers, h.event = event →
    (∀ h' ∈ (s.exec config action).gate.handlers, h'.id ≠ h.id) →
      (s.exec config action).Settled event ∨ event ∉ (s.exec config action).processedEvents

theorem answered (hs : s.gate.Sound config.maxQueueSize) (hkept : s.Kept event) :
    Answered config event s := by
  constructor
  · intro action hreturns
    cases action with
    | receive other =>
      obtain ⟨rfl, hmarked⟩ := hreturns
      have hsame : s.exec config (.receive other) = s := if_pos hmarked
      rw [hsame]
      exact hkept hmarked
    | accepted id =>
      obtain ⟨h, hfind, rfl, hsending⟩ := hreturns
      obtain ⟨lock, requestId, hphase⟩ : ∃ lock requestId, h.phase = .sending lock requestId := by
        cases hphase : h.phase with
        | sending lock requestId => exact ⟨lock, requestId, rfl⟩
        | auditing | queued | locking | building | reporting =>
          rw [hphase] at hsending
          cases hsending
      have haccept : s.exec config (.accepted id) = s.accept h := by
        simp only [exec, Option.mem_def.1 hfind, advance, hphase]
      rw [haccept]
      exact Or.inl (Or.inl (List.mem_append_right _ (List.mem_singleton_self _)))
    | audited | acquireSemaphore | acquireLock | built | reported | failed => exact hreturns.elim
  · rintro action hnot h hh rfl hgone
    exact outcome_of_ended hs hh hnot hgone

theorem initial_kept (config : HostedChatConfig) (event : ChatEventKey) :
    (initial config).Kept event := by
  intro hmem
  cases hmem

theorem initial_consistent (config : HostedChatConfig) (event : ChatEventKey) :
    (initial config).Consistent event := by
  have hnone : ¬(initial config).gate.Handles event := by
    rintro ⟨h, hh, -⟩
    cases hh
  apply Consistent.of_ended hnone
  · intro _ requestId hsend
    cases hsend
  · exact List.forall_mem_nil _

/-- No reply is lost but to a cancellation, and no second request is made but after an eviction. -/
theorem replies_kept (config : HostedChatConfig) (event : ChatEventKey)
    (hreply : (config.content event).expectsReply) (actions : List ChatAction) :
    (Guarded (exec config) (fun s action ↦ ¬s.Cancels action event) (initial config) actions →
      Answered config event (run (exec config) (initial config) actions)) ∧
    (Guarded (exec config) (fun s action ↦ ¬s.Evicts config action event) (initial config)
        actions →
      (run (exec config) (initial config) actions).OneRequest event) := by
  constructor
  · intro hguard
    have hinv := invariant_guarded
      (I := fun s : HostedChatService ↦ s.gate.Sound config.maxQueueSize ∧ s.Kept event)
      (fun s action hs hnot ↦ ⟨exec_sound hs.1 action, hs.2.exec hreply hs.1 hnot⟩)
      ⟨initial_sound config, initial_kept config event⟩ hguard
    exact answered hinv.1 hinv.2
  · intro hguard
    have hinv := invariant_guarded
      (I := fun s : HostedChatService ↦ s.gate.Sound config.maxQueueSize ∧ s.Consistent event)
      (fun s action hs hnot ↦ ⟨exec_sound hs.1 action, hs.2.exec hs.1 hnot⟩)
      ⟨initial_sound config, initial_consistent config event⟩ hguard
    exact hinv.2.same

section Examples

/-- Every event is a text that is to be answered. -/
def smallTalk (maxStateEntries : ℕ) : HostedChatConfig where
  maxQueueSize := 100
  maxStateEntries := maxStateEntries
  content _ := .chatReceived ⟨"gateway", "session", "role"⟩ true

def greeting : ChatEventKey := ⟨"gateway", "greeting"⟩

/-- A task goes on until its reply is being made. -/
def untilBuilding (event : ChatEventKey) (id : ℕ) : List ChatAction :=
  [.receive event, .audited id, .acquireSemaphore id, .acquireLock id]

/-- A task goes on until its new reply is on its way. -/
def untilSending (event : ChatEventKey) (id : ℕ) : List ChatAction :=
  untilBuilding event id ++ [.built id, .reported id]

/-- The first send fails, the second one is accepted, and the event is delivered once more. -/
def retried : List ChatAction :=
  untilSending greeting 0 ++ [.failed 0 .retryable] ++ untilBuilding greeting 1 ++
    [.accepted 1, .receive greeting]

theorem replies_kept_retried :
    Answered (smallTalk 10) greeting
        (run (exec (smallTalk 10)) (initial (smallTalk 10)) retried) ∧
      (run (exec (smallTalk 10)) (initial (smallTalk 10)) retried).OneRequest greeting := by
  have hkept := replies_kept (smallTalk 10) greeting rfl retried
  exact ⟨hkept.1 (by decide), hkept.2 (by decide)⟩

/-- A normal return means that a send is accepted or another call is at work, and the sends carry
one request id. -/
def NeverLost (config : HostedChatConfig) (event : ChatEventKey) (actions : List ChatAction) :
    Prop :=
  (∀ action, (run (exec config) (initial config) actions).Returns action event →
    event ∈ (run (exec config) (initial config) (actions ++ [action])).accepted ∨
      (run (exec config) (initial config) (actions ++ [action])).gate.Handles event) ∧
  (run (exec config) (initial config) actions).OneRequest event

/-- After a permanent failure, and after a cancellation, a duplicate returns normally; after an
eviction the event is sent under another request id. -/
theorem not_neverLost :
    ¬NeverLost (smallTalk 10) greeting (untilBuilding greeting 0 ++ [.failed 0 .permanent]) ∧
    ¬NeverLost (smallTalk 10) greeting (untilBuilding greeting 0 ++ [.failed 0 .cancelled]) ∧
    ¬NeverLost (smallTalk 1) greeting (untilSending greeting 0 ++ [.accepted 0] ++
      untilBuilding ⟨"gateway", "other"⟩ 1 ++ [.failed 1 .retryable] ++
      untilSending greeting 2) := by
  refine ⟨fun h ↦ ?_, fun h ↦ ?_, fun h ↦ ?_⟩
  · exact absurd (h.1 (.receive greeting) (by decide)) (by decide)
  · exact absurd (h.1 (.receive greeting) (by decide)) (by decide)
  · exact absurd h.2 (by decide)

end Examples

end HostedChatService

end LlmGateway
