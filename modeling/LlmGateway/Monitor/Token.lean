import LlmGateway.Contract.Canonical
import LlmGateway.Decision.Arguments
import LlmGateway.Monitor.Stream
import LlmGateway.Python.Base64

/-!
# The text of a cursor

A cursor goes to the client as URL-safe base 64 of a JSON object without its padding, and comes
back as a query parameter or as `Last-Event-ID` (`monitor_repository.py`). The ISO form of a time
and the JSON reader are parameters.
-/

namespace LlmGateway

/-- `urlsafe_b64encode`. -/
def urlsafeAlphabet : List Char :=
  "ABCDEFGHIJKLMNOPQRSTUVWXYZabcdefghijklmnopqrstuvwxyz0123456789-_".toList

def writeDigit (digit : Base64.Digit) : CodePoint :=
  codePoint ((urlsafeAlphabet[digit.val]?).getD 'A')

/-- `altchars=b"-_"`; the two digits of the usual alphabet are read as well. -/
def readDigit (c : CodePoint) : Option Base64.Digit :=
  if c = codePoint '+' then some (Base64.digit 62)
  else if c = codePoint '/' then some (Base64.digit 63)
  else (List.finRange 64).find? fun digit ↦ writeDigit digit = c

/-- `\uXXXX`. -/
def escapeUnit (n : ℕ) : List CodePoint :=
  ['\\', 'u', Nat.digitChar (n / 4096 % 16), Nat.digitChar (n / 256 % 16),
    Nat.digitChar (n / 16 % 16), Nat.digitChar (n % 16)].map codePoint

/-- How a character is written in a string of ASCII characters. -/
def escapeAscii (c : CodePoint) : List CodePoint :=
  match shortEscapes.find? (fun escape ↦ codePoint escape.1 = c) with
  | some escape => [codePoint '\\', codePoint escape.2]
  | none =>
    if 0x20 ≤ c.val ∧ c.val ≤ 0x7E then [c]
    else if c.val < 0x10000 then escapeUnit c.val
    else escapeUnit (0xD800 + (c.val - 0x10000) / 0x400) ++
      escapeUnit (0xDC00 + (c.val - 0x10000) % 0x400)

def quoteAscii (text : Text) : List CodePoint :=
  codePoint '"' :: (text.codePoints.flatMap escapeAscii ++ [codePoint '"'])

/-- `json.dumps({"at": at, "id": id}, ensure_ascii=True, separators=(",", ":"))`. -/
def cursorPayload (occurredAt recordId : Text) : List CodePoint :=
  codePoint '{' :: (quoteAscii "at" ++ codePoint ':' :: (quoteAscii occurredAt ++
    codePoint ',' :: (quoteAscii "id" ++ codePoint ':' :: (quoteAscii recordId ++
      [codePoint '}']))))

/-- `.encode("utf-8")`, of ASCII characters. -/
def asciiBytes (text : List CodePoint) : List Base64.Byte := text.map fun c ↦ Base64.byte c.val

/-- `encode_monitor_cursor`; the time of the cursor is in UTC. -/
def encodeMonitorCursor (isoformat : ℕ → Text) (cursor : MonitorCursor Text) : List CodePoint :=
  Base64.encode writeDigit (asciiBytes
    (cursorPayload (isoformat (ofLex cursor).1) (ofLex cursor).2))

/-- `decode_monitor_cursor`, `none` for a `MonitorCursorError`. A time without a zone is refused by
`fromisoformat`. -/
def decodeMonitorCursor (fromisoformat : Text → Option ℕ) (loads : List Base64.Byte → Option Json)
    (value : List CodePoint) : Option (MonitorCursor Text) := do
  let decoded ← Base64.decode (codePoint '=') readDigit
    (value ++ Base64.padding (codePoint '=') value)
  match ← loads decoded with
  | .obj payload =>
    match Json.get? payload "at", Json.get? payload "id" with
    | some (.str occurredAt), some (.str recordId) =>
      let occurredAt ← fromisoformat occurredAt
      if recordId = "" then none else some (toLex (occurredAt, recordId))
    | _, _ => none
  | _ => none

end LlmGateway
