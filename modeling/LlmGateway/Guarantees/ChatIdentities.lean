import LlmGateway.Chat.Identities

/-!
# Admitted chat events and the later validators

The contract of a `chat_received` event admits more than the requests that are made of it: texts of
zeros, digits of other scripts, leading zeros and event ids that are long or punctuated. The exact
difference is `laterAccepts_iff`.
-/

namespace LlmGateway

/-- At most nineteen digits, one of which is an ASCII digit other than zero. -/
def ShortPositive (value : String) : Prop :=
  value.length ≤ 19 ∧ ∃ c ∈ value.toList, IsNonzeroDigit c

instance : DecidablePred ShortPositive := fun _ ↦
  inferInstanceAs (Decidable (_ ∧ ∃ c ∈ _, IsNonzeroDigit c))

/-! ## Texts of digits -/

theorem decimalDigit?_of_isNonzeroDigit {c : Char} (h : IsNonzeroDigit c) :
    ∃ d, decimalDigit? c = some d ∧ 0 < d := by
  have hfirst : 0x31 ≤ c.toNat := h.1
  have hlast : c.toNat ≤ 0x39 := h.2
  refine ⟨c.toNat - 0x30, ?_, by omega⟩
  rw [decimalDigit?, decimalZeros, List.find?_cons_of_pos, Option.map_some]
  exact decide_eq_true ⟨by omega, by omega⟩

/-- Reading more digits does not make a number smaller. -/
theorem foldlM_digits_pos {cs : List Char} {start n : ℕ}
    (h : cs.foldlM (fun n c ↦ (decimalDigit? c).map (10 * n + ·)) start = some n)
    (hpos : 0 < start ∨ ∃ c ∈ cs, IsNonzeroDigit c) : 0 < n := by
  induction cs generalizing start with
  | nil =>
    obtain rfl : start = n := Option.some.inj h
    exact hpos.resolve_right fun hnone ↦ by
      obtain ⟨c, hc, -⟩ := hnone
      exact List.not_mem_nil hc
  | cons c cs ih =>
    rw [List.foldlM_cons, Option.bind_eq_bind, Option.bind_eq_some_iff] at h
    obtain ⟨next, hnext, hrest⟩ := h
    obtain ⟨d, hd, rfl⟩ := Option.map_eq_some_iff.1 hnext
    apply ih hrest
    cases hpos with
    | inl hstart => exact Or.inl (by omega)
    | inr hdigit =>
      obtain ⟨c', hc', hnonzero⟩ := hdigit
      cases List.mem_cons.1 hc' with
      | inl hhead =>
        subst hhead
        obtain ⟨d', hd', hpos⟩ := decimalDigit?_of_isNonzeroDigit hnonzero
        rw [hd'] at hd
        cases hd
        exact Or.inl (by omega)
      | inr htail => exact Or.inr ⟨c', htail, hnonzero⟩

theorem intOfDigits?_pos {value : String} {n : ℕ} (h : intOfDigits? value = some n)
    (hdigit : ∃ c ∈ value.toList, IsNonzeroDigit c) : 0 < n :=
  foldlM_digits_pos h (Or.inr hdigit)

/-- The parser of the handler reads an admitted identifier as the contract does. -/
theorem ValidIdentifier.parseRoleId_eq {value : String} (h : ValidIdentifier value) :
    parseRoleId value = intOfDigits? value := by
  obtain ⟨hdigits, hzero, n, hn, hle⟩ := h
  have hnot : ¬(isdigit value = false ∨ value = "0") := by
    rintro (hfalse | heq)
    · rw [hdigits] at hfalse
      cases hfalse
    · exact hzero heq
  rw [parseRoleId, if_neg hnot, Option.mem_def.1 hn, Option.filter_some, if_pos (decide_eq_true hle)]

/-- An admitted identifier is accepted by the request to send exactly if it is short and has a
nonzero ASCII digit. -/
theorem ValidIdentifier.positiveInt64String_iff {value : String} (h : ValidIdentifier value)
    (hlength : 1 ≤ value.length) : PositiveInt64String value ↔ ShortPositive value :=
  ⟨fun hvalue ↦ ⟨hvalue.2.1, hvalue.2.2.1⟩, fun hvalue ↦ ⟨hlength, hvalue.1, hvalue.2, h.2.2⟩⟩

/-! ## The two requests -/

theorem PositiveRoleId.length_repr {roleId : ℕ} (h : PositiveRoleId roleId) :
    1 ≤ roleId.repr.length ∧ roleId.repr.length ≤ 19 := by
  have hlt : roleId < 10 ^ 19 := lt_of_le_of_lt h.2 (by decide)
  exact ⟨Nat.length_repr_pos, (Nat.length_repr_le_iff (by decide)).2 hlt⟩

/-- Two role ids and an event id that is accepted make a pair key of an accepted length. -/
theorem length_pairKeyOf {speakerRoleId targetRoleId : ℕ} {eventId : String}
    (hspeaker : PositiveRoleId speakerRoleId) (htarget : PositiveRoleId targetRoleId)
    (hevent : AutoChatEventId eventId) :
    5 ≤ (pairKeyOf speakerRoleId targetRoleId eventId).length ∧
      (pairKeyOf speakerRoleId targetRoleId eventId).length ≤ 104 := by
  have hmin : PositiveRoleId (min speakerRoleId targetRoleId) :=
    ⟨lt_min hspeaker.1 htarget.1, min_le_of_left_le hspeaker.2⟩
  have hmax : PositiveRoleId (max speakerRoleId targetRoleId) :=
    ⟨lt_max_of_lt_left hspeaker.1, max_le hspeaker.2 htarget.2⟩
  have hfirst := hmin.length_repr
  have hsecond := hmax.length_repr
  have hlength := hevent.1
  have hlength' := hevent.2.1
  have hcolon : ":".length = 1 := rfl
  simp only [pairKeyOf, String.length_append, hcolon]
  omega

theorem AutoChatMessageRequest.fromEvent_eq_some {speakerRoleId targetRoleId : ℕ}
    {eventId question : String} {request : AutoChatMessageRequest}
    (h : fromEvent speakerRoleId targetRoleId eventId question = some request) :
    AutoChatEventId eventId := by
  unfold fromEvent at h
  split_ifs at h with hevent
  exact hevent

theorem AutoChatMessageRequest.exists_fromEvent {speakerRoleId targetRoleId : ℕ}
    {eventId question : String} (hevent : AutoChatEventId eventId)
    (hspeaker : PositiveRoleId speakerRoleId) (htarget : PositiveRoleId targetRoleId)
    (hne : speakerRoleId ≠ targetRoleId) (hquestion : isBlankString question = false) :
    ∃ request ∈ fromEvent speakerRoleId targetRoleId eventId question,
      request.targetRoleId = targetRoleId := by
  obtain ⟨hshort, hlong⟩ := length_pairKeyOf hspeaker htarget hevent
  rw [fromEvent, if_pos hevent, validate,
    if_pos ⟨hspeaker, htarget, hshort, hlong, hquestion, hne⟩]
  exact ⟨_, rfl, rfl⟩

theorem HostedChatSendRequest.isSome_validate_iff {request : HostedChatSendRequest} :
    request.validate.isSome = true ↔ 1 ≤ request.sessionId.length ∧
      request.sessionId.length ≤ 128 ∧ isBlankString request.sessionId = false ∧
      PositiveInt64String request.targetAvatarId ∧ PositiveInt64String request.targetRoleId ∧
      ValidContent request.content := by
  unfold validate
  split_ifs with h
  · exact iff_of_true rfl h
  · exact iff_of_false Bool.false_ne_true h

/-! ## Nesting -/

/-- An admitted text is accepted by the later validators exactly if its event id is, its session is
not blank, and both identifiers are short and have a nonzero ASCII digit. -/
theorem laterAccepts_iff (e : ChatReceivedEvent) {text content : String} {speakerRoleId : ℕ}
    (htext : e.text = some text) (hspeaker : PositiveRoleId speakerRoleId)
    (hother : intOfDigits? e.sender.roleId ≠ some speakerRoleId) (hcontent : ValidContent content) :
    e.LaterAccepts text speakerRoleId content ↔
      AutoChatEventId e.eventId ∧ isBlankString e.sessionId = false ∧
        ShortPositive e.sender.avatarId ∧ ShortPositive e.sender.roleId := by
  have havatar := e.sender.avatarId_valid.positiveInt64String_iff e.sender.avatarId_text.one_le
  have hrole := e.sender.roleId_valid.positiveInt64String_iff e.sender.roleId_text.one_le
  constructor
  · intro h
    obtain ⟨targetRoleId, -, -, -, request, hrequest, -⟩ := h.role
    obtain ⟨-, -, hsession, hsendAvatar, hsendRole, -⟩ :=
      HostedChatSendRequest.isSome_validate_iff.1 h.send
    exact ⟨AutoChatMessageRequest.fromEvent_eq_some hrequest, hsession, havatar.1 hsendAvatar,
      hrole.1 hsendRole⟩
  · intro h
    obtain ⟨hevent, hsession, hshortAvatar, hshortRole⟩ := h
    obtain ⟨-, -, avatarId, havatarId, havatarLe⟩ := e.sender.avatarId_valid
    obtain ⟨-, -, roleId, hroleId, hroleLe⟩ := e.sender.roleId_valid
    have htarget : PositiveRoleId roleId := ⟨intOfDigits?_pos hroleId hshortRole.2, hroleLe⟩
    have hne : speakerRoleId ≠ roleId := fun heq ↦ hother (heq ▸ hroleId)
    have hquestion := (e.text_valid text htext).1
    refine ⟨⟨roleId, htarget, hroleId, e.sender.roleId_valid.parseRoleId_eq.trans hroleId, ?_⟩, ?_, ?_⟩
    · exact AutoChatMessageRequest.exists_fromEvent hevent hspeaker htarget hne hquestion
    · exact ⟨avatarId, ⟨intOfDigits?_pos havatarId hshortAvatar.2, havatarLe⟩, havatarId⟩
    · exact HostedChatSendRequest.isSome_validate_iff.2 ⟨e.sessionId_text.one_le,
        e.sessionId_text.le_maxLength, hsession, havatar.2 hshortAvatar, hrole.2 hshortRole, hcontent⟩

section Examples

/-- A role says hello. -/
def hello (sender : ChatSender) : ChatReceivedEvent where
  eventId := "chat_1"
  sessionId := "s"
  sender := sender
  chatType := .friend
  contentType := 0
  supported := true
  text := some "hello"
  conversationTarget := none
  eventId_text := by decide
  sessionId_text := by decide
  text_valid := by decide
  supported_content := by decide
  conversation_target := by simp

def roleEight : ChatSender where
  avatarId := "7"
  roleId := "8"
  avatarId_text := by decide
  roleId_text := by decide
  avatarId_valid := by decide
  roleId_valid := by decide

/-- The identifier of this role is two zeros. -/
def roleZeros : ChatSender where
  avatarId := "7"
  roleId := "00"
  avatarId_text := by decide
  roleId_text := by decide
  avatarId_valid := by decide
  roleId_valid := by decide

theorem laterAccepts_roleEight : (hello roleEight).LaterAccepts "hello" 5 "hi" :=
  (laterAccepts_iff (hello roleEight) rfl (by decide) (by decide) (by decide)).2 (by decide)

/-- The contract admits an identifier of two zeros, which neither request accepts. -/
theorem not_laterAccepts_roleZeros :
    (hello roleZeros).supported = true ∧ (hello roleZeros).text = some "hello" ∧
      PositiveRoleId 5 ∧ ValidContent "hi" ∧ ¬(hello roleZeros).LaterAccepts "hello" 5 "hi" := by
  refine ⟨rfl, rfl, by decide, by decide, fun h ↦ ?_⟩
  obtain ⟨targetRoleId, hpositive, hrole, -⟩ := h.role
  have hzero : intOfDigits? "00" = some 0 := by decide
  obtain rfl : 0 = targetRoleId := Option.some.inj (hzero.symm.trans hrole)
  exact lt_irrefl 0 hpositive.1

end Examples

end LlmGateway
