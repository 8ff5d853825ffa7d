import LlmGateway.Activity.Repository

/-!
# The identities of a chat event

A `chat_received` event names its sender by texts of digits. They are validated three times: by the
contract of the event (`contracts.py`), by the request to the conversation service
(`auto_chat.py`), which also validates the event id, and by the request to send the reply
(`hosted_chat.py`). The records below can only be built from values that their validator accepts.
-/

namespace LlmGateway

/-! ## Texts of digits -/

/-- The zeros of the decimal digits; each is followed by the nine other digits. -/
def decimalZeros : List ℕ :=
  [0x30, 0x660, 0x6F0, 0x7C0, 0x966, 0x9E6, 0xA66, 0xAE6, 0xB66, 0xBE6, 0xC66, 0xCE6, 0xD66, 0xDE6,
    0xE50, 0xED0, 0xF20, 0x1040, 0x1090, 0x17E0, 0x1810, 0x1946, 0x19D0, 0x1A80, 0x1A90, 0x1B50,
    0x1BB0, 0x1C40, 0x1C50, 0xA620, 0xA8D0, 0xA900, 0xA9D0, 0xA9F0, 0xAA50, 0xABF0, 0xFF10, 0x104A0,
    0x10D30, 0x11066, 0x110F0, 0x11136, 0x111D0, 0x112F0, 0x11450, 0x114D0, 0x11650, 0x116C0,
    0x11730, 0x118E0, 0x11950, 0x11C50, 0x11D50, 0x11DA0, 0x11F50, 0x16A60, 0x16AC0, 0x16B50,
    0x1D7CE, 0x1D7D8, 0x1D7E2, 0x1D7EC, 0x1D7F6, 0x1E140, 0x1E2F0, 0x1E4F0, 0x1E950, 0x1FBF0]

/-- The first and the last of a range of characters. -/
structure CharRange where
  first : ℕ
  last : ℕ

/-- The digits that are not decimal: superscripts, circled digits and the like. -/
def otherDigits : List CharRange :=
  [⟨0xB2, 0xB3⟩, ⟨0xB9, 0xB9⟩, ⟨0x1369, 0x1371⟩, ⟨0x19DA, 0x19DA⟩, ⟨0x2070, 0x2070⟩,
    ⟨0x2074, 0x2079⟩, ⟨0x2080, 0x2089⟩, ⟨0x2460, 0x2468⟩, ⟨0x2474, 0x247C⟩, ⟨0x2488, 0x2490⟩,
    ⟨0x24EA, 0x24EA⟩, ⟨0x24F5, 0x24FD⟩, ⟨0x24FF, 0x24FF⟩, ⟨0x2776, 0x277E⟩, ⟨0x2780, 0x2788⟩,
    ⟨0x278A, 0x2792⟩, ⟨0x10A40, 0x10A43⟩, ⟨0x10E60, 0x10E68⟩, ⟨0x11052, 0x1105A⟩,
    ⟨0x1F100, 0x1F10A⟩]

/-- The value of a decimal digit. -/
def decimalDigit? (c : Char) : Option ℕ :=
  (decimalZeros.find? fun first ↦ first ≤ c.toNat ∧ c.toNat < first + 10).map (c.toNat - ·)

def isDigitChar (c : Char) : Bool :=
  (decimalDigit? c).isSome || otherDigits.any fun r ↦ r.first ≤ c.toNat && c.toNat ≤ r.last

/-- `str.isdigit`. -/
def isdigit (value : String) : Bool := value ≠ "" && value.toList.all isDigitChar

/-- `int` of a text of digits; it raises unless all of them are decimal. -/
def intOfDigits? (value : String) : Option ℕ :=
  value.toList.foldlM (fun n c ↦ (decimalDigit? c).map (10 * n + ·)) 0

/-- `len(value.encode("utf-16-le")) // 2`. -/
def utf16Length (value : String) : ℕ :=
  (value.toList.map fun c ↦ if c.toNat < 0x10000 then 1 else 2).sum

/-! ## The contract of the event -/

/-- `validate_positive_int64_identifier`. -/
def ValidIdentifier (value : String) : Prop :=
  isdigit value = true ∧ value ≠ "0" ∧ ∃ n ∈ intOfDigits? value, n ≤ bigintMax

instance : DecidablePred ValidIdentifier := fun _ ↦ inferInstanceAs (Decidable (_ ∧ _ ∧ _))

/-- `ChatSender`. -/
structure ChatSender where
  avatarId : String
  roleId : String
  avatarId_text : IsNonEmptyString 128 avatarId
  roleId_text : IsNonEmptyString 128 roleId
  avatarId_valid : ValidIdentifier avatarId
  roleId_valid : ValidIdentifier roleId

inductive ChatType where
  | friend
  | private_
deriving DecidableEq, Repr

/-- What the contract checks of a text. -/
def ValidText (text : String) : Prop := isBlankString text = false ∧ utf16Length text ≤ 1000

instance : DecidablePred ValidText := fun _ ↦ inferInstanceAs (Decidable (_ ∧ _))

/-- `ChatReceivedEvent`, with the target of its `ConversationContext`, if it has one. -/
structure ChatReceivedEvent where
  eventId : String
  sessionId : String
  sender : ChatSender
  chatType : ChatType
  contentType : ℕ
  supported : Bool
  text : Option String
  conversationTarget : Option ℕ
  eventId_text : IsNonEmptyString 128 eventId
  sessionId_text : IsNonEmptyString 128 sessionId
  text_valid : ∀ t ∈ text, ValidText t
  supported_content : supported = true → contentType = 0 ∧ text.isSome = true
  conversation_target : ∀ target ∈ conversationTarget,
    0 < target ∧ intOfDigits? sender.roleId = some target

/-! ## The request to the conversation service -/

/-- `PositiveRoleId`. -/
def PositiveRoleId (roleId : ℕ) : Prop := 0 < roleId ∧ roleId ≤ bigintMax

instance : DecidablePred PositiveRoleId := fun _ ↦ inferInstanceAs (Decidable (_ ∧ _))

/-- A character of `[A-Za-z0-9_-]`. -/
def IsEventIdChar (c : Char) : Prop := c.isAlphanum = true ∨ c = '_' ∨ c = '-'

instance : DecidablePred IsEventIdChar := fun _ ↦ inferInstanceAs (Decidable (_ ∨ _))

instance (text : List Char) : Decidable (∀ c ∈ text, IsEventIdChar c) := List.decidableBAll _ text

/-- `AutoChatEventId`. -/
def AutoChatEventId (eventId : String) : Prop :=
  1 ≤ eventId.length ∧ eventId.length ≤ 64 ∧ ∀ c ∈ eventId.toList, IsEventIdChar c

instance : DecidablePred AutoChatEventId := fun _ ↦
  inferInstanceAs (Decidable (_ ∧ _ ∧ ∀ c ∈ _, IsEventIdChar c))

/-- The pair key of a message. -/
def pairKeyOf (speakerRoleId targetRoleId : ℕ) (eventId : String) : String :=
  (min speakerRoleId targetRoleId).repr ++ ":" ++ (max speakerRoleId targetRoleId).repr ++ ":" ++
    eventId

/-- `AutoChatMessageRequest`. -/
structure AutoChatMessageRequest where
  speakerRoleId : ℕ
  targetRoleId : ℕ
  pairKey : String
  question : String
deriving DecidableEq

/-- The validators of `AutoChatMessageRequest`; the question is stripped before it is stored. -/
def AutoChatMessageRequest.validate (speakerRoleId targetRoleId : ℕ) (pairKey question : String) :
    Option AutoChatMessageRequest :=
  if PositiveRoleId speakerRoleId ∧ PositiveRoleId targetRoleId ∧
      5 ≤ pairKey.length ∧ pairKey.length ≤ 104 ∧ isBlankString question = false ∧
      speakerRoleId ≠ targetRoleId then
    some ⟨speakerRoleId, targetRoleId, pairKey,
      String.ofList ((question.toList.dropWhile isPythonSpace).rdropWhile isPythonSpace)⟩
  else none

/-- `from_event`. -/
def AutoChatMessageRequest.fromEvent (speakerRoleId targetRoleId : ℕ) (eventId question : String) :
    Option AutoChatMessageRequest :=
  if AutoChatEventId eventId then
    validate speakerRoleId targetRoleId (pairKeyOf speakerRoleId targetRoleId eventId) question
  else none

/-! ## The request to send the reply -/

/-- A digit of `[1-9]`. -/
def IsNonzeroDigit (c : Char) : Prop := '1' ≤ c ∧ c ≤ '9'

instance : DecidablePred IsNonzeroDigit := fun _ ↦ inferInstanceAs (Decidable (_ ∧ _))

instance (text : List Char) : Decidable (∃ c ∈ text, IsNonzeroDigit c) := List.decidableBEx _ text

/-- `PositiveInt64String`, whose pattern is searched for and not anchored, and
`validate_int64_string`. -/
def PositiveInt64String (value : String) : Prop :=
  1 ≤ value.length ∧ value.length ≤ 19 ∧ (∃ c ∈ value.toList, IsNonzeroDigit c) ∧
    ∃ n ∈ intOfDigits? value, n ≤ bigintMax

instance : DecidablePred PositiveInt64String := fun _ ↦
  inferInstanceAs (Decidable (_ ∧ _ ∧ (∃ c ∈ _, IsNonzeroDigit c) ∧ _))

/-- The validator of the content of a reply. -/
def ValidContent (content : String) : Prop :=
  1 ≤ content.length ∧ content.length ≤ 1000 ∧ isBlankString content = false ∧
    utf16Length content ≤ 1000

instance : DecidablePred ValidContent := fun _ ↦ inferInstanceAs (Decidable (_ ∧ _))

/-- `HostedChatSendRequest`. -/
structure HostedChatSendRequest where
  sessionId : String
  targetAvatarId : String
  targetRoleId : String
  chatType : ChatType
  content : String
deriving DecidableEq

/-- The validators of `HostedChatSendRequest`. -/
def HostedChatSendRequest.validate (request : HostedChatSendRequest) :
    Option HostedChatSendRequest :=
  if 1 ≤ request.sessionId.length ∧ request.sessionId.length ≤ 128 ∧
      isBlankString request.sessionId = false ∧ PositiveInt64String request.targetAvatarId ∧
      PositiveInt64String request.targetRoleId ∧ ValidContent request.content then some request
  else none

/-- `_parse_role_id`; it raises on the other texts. -/
def parseRoleId (value : String) : Option ℕ :=
  if isdigit value = false ∨ value = "0" then none
  else (intOfDigits? value).filter (· ≤ bigintMax)

/-- The requests that `_build_request` makes of the event, with the role that the hosted session
plays and the content that the conversation service answers. -/
structure ChatReceivedEvent.LaterAccepts (e : ChatReceivedEvent) (text : String)
    (speakerRoleId : ℕ) (content : String) : Prop where
  /-- The role is the same positive number for all of them. -/
  role : ∃ targetRoleId, PositiveRoleId targetRoleId ∧
    intOfDigits? e.sender.roleId = some targetRoleId ∧
    parseRoleId e.sender.roleId = some targetRoleId ∧
    ∃ request ∈ AutoChatMessageRequest.fromEvent speakerRoleId targetRoleId e.eventId text,
      request.targetRoleId = targetRoleId
  /-- So is the avatar. -/
  avatar : ∃ avatarId, PositiveRoleId avatarId ∧ intOfDigits? e.sender.avatarId = some avatarId
  send : (HostedChatSendRequest.validate ⟨e.sessionId, e.sender.avatarId, e.sender.roleId,
    e.chatType, content⟩).isSome = true

end LlmGateway
