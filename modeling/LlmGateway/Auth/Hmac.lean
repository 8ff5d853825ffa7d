import LlmGateway.Contract.Paths
import Mathlib.Data.Nat.Digits.Defs

/-!
# Signed requests

The headers of an outgoing request carry a signature of its method, path, time, id and body, and
the gateway's requests are accepted by the same signature (`auth.py`). The digests are parameters:
`sha256` of a body, and `hmac` of a text under a secret, as hexadecimal texts.
-/

namespace LlmGateway.Auth

inductive AuthErrorCode
  | authHeaderInvalid
  | authTimestampInvalid
  | signatureInvalid
  | appIdUnknown
deriving DecidableEq

/-- A `GatewayAuthError`, or the error of encoding a text that has no UTF-8 form. -/
inductive AuthFailure
  | auth (code : AuthErrorCode) (httpStatus : ℕ)
  | unicodeEncode
deriving DecidableEq

def isDigit (c : ℕ) : Bool := 0x30 ≤ c && c ≤ 0x39

def isLower (c : ℕ) : Bool := 0x61 ≤ c && c ≤ 0x7A

def isUpper (c : ℕ) : Bool := 0x41 ≤ c && c ≤ 0x5A

/-- The characters of `_IDENTIFIER_PATTERN`. -/
def isIdentifierChar (c : ℕ) : Bool :=
  isUpper c || isLower c || isDigit c || c ∈ [0x2E, 0x5F, 0x3A, 0x2D]

/-- The characters of `_METHOD_TOKEN_PATTERN`. -/
def isMethodChar (c : ℕ) : Bool :=
  isUpper c || isLower c || isDigit c ||
    c ∈ [0x21, 0x23, 0x24, 0x25, 0x26, 0x27, 0x2A, 0x2B, 0x2D, 0x2E, 0x5E, 0x5F, 0x60, 0x7C, 0x7E]

/-- The text consists of such characters, as many as the bounds admit. -/
def fits (p : ℕ → Bool) (least : ℕ) (most : Option ℕ) (text : Text) : Bool :=
  text.codePoints.all (fun c ↦ p c.val) && least ≤ text.codePoints.length &&
    most.all (text.codePoints.length ≤ ·)

def isMethodToken (text : Text) : Bool := fits isMethodChar 1 none text

def isIdentifier (text : Text) : Bool := fits isIdentifierChar 1 (some 128) text

def isTimestamp (text : Text) : Bool := fits isDigit 1 (some 20) text

/-- `_LOWERCASE_SHA256_PATTERN` -/
def isHexDigest (text : Text) : Bool :=
  fits (fun c ↦ isDigit c || 0x61 ≤ c && c ≤ 0x66) 64 (some 64) text

/-- `path.startswith("/")` without line breaks. -/
def isPath (text : Text) : Bool :=
  text.codePoints.head?.any (·.val = 0x2F) && text.codePoints.all fun c ↦ c.val ≠ 0xD && c.val ≠ 0xA

/-- The hexadecimal form of a digest. -/
structure HexDigest where
  text : Text
  isHexDigest_text : isHexDigest text = true
deriving DecidableEq

/-- `method.upper()` of a token. -/
def upper (text : Text) : Text :=
  ⟨text.codePoints.map fun c ↦
    if isLower c.val then ⟨c.val - 0x20, Nat.lt_of_le_of_lt (Nat.sub_le _ _) c.isLt⟩ else c⟩

/-- The ASCII letters in lower case. -/
def asciiLower (text : Text) : Text :=
  ⟨text.codePoints.map fun c ↦ if h : isUpper c.val = true then
    ⟨c.val + 0x20, by simp only [isUpper, Bool.and_eq_true, decide_eq_true_eq] at h; omega⟩ else c⟩

/-- The digits of a number, the first one first. -/
def decimalDigits (n : ℕ) : List ℕ := if n = 0 then [0] else (Nat.digits 10 n).reverse

/-- `str(number)` -/
def decimal (n : ℕ) : Text := ⟨(decimalDigits n).map fun d ↦ Fin.ofNat 0x110000 (0x30 + d)⟩

/-- `int(text)` of a text of ASCII digits. -/
def parseDecimal (text : Text) : ℕ :=
  Nat.ofDigits 10 (text.codePoints.reverse.map fun c ↦ c.val - 0x30)

def maxTimestampMs : ℤ := 99999999999999999999

/-- The settings that verification reads. A setting of another type is `none`, and so is the secret
of an app id that is neither a string nor a secret string. -/
structure AuthSettings where
  timestampToleranceMs : Option ℤ
  appGateways : Option (List Text)
  appSecrets : Option (List (Text × Option Text))

abbrev Headers := List (Text × Text)

section Signature

variable (sha256 : List UInt8 → HexDigest) (hmac : Text → Text → HexDigest)

/-- The fields that are signed, in one text. -/
def signingText (method path timestampText requestId bodyHash : Text) : Text :=
  ⟨[(0xA : Fin 0x110000)].intercalate [(upper method).codePoints, path.codePoints,
    timestampText.codePoints, requestId.codePoints, bodyHash.codePoints]⟩

/-- `_build_signature` -/
def buildSignature (method path : Text) (rawBody : List UInt8)
    (appSecret requestId timestampText : Text) : Except AuthFailure Text :=
  let text := signingText method path timestampText requestId (sha256 rawBody).text
  if appSecret.isUtf8 && text.isUtf8 then .ok (hmac appSecret text).text
  else .error .unicodeEncode

end Signature

def check (condition : Bool) (code : AuthErrorCode) (httpStatus : ℕ) : Except AuthFailure Unit :=
  if condition then .ok () else .error (.auth code httpStatus)

/-- `_validate_request_components` -/
def validateRequestComponents (method path : Text) : Except AuthFailure Unit := do
  check (isMethodToken method) .authHeaderInvalid 400
  check (isPath path) .authHeaderInvalid 400

/-- `_validate_identifier` -/
def validateIdentifier (text : Text) : Except AuthFailure Unit :=
  check (isIdentifier text) .authHeaderInvalid 400

/-- `_validate_non_negative_timestamp` -/
def validateNonNegativeTimestamp (timestampMs : ℤ) : Except AuthFailure Unit :=
  check (0 ≤ timestampMs && timestampMs ≤ maxTimestampMs) .authTimestampInvalid 400

/-- `_secret_text` of a string. -/
def secretText (secret : Text) : Option Text := if secret.codePoints = [] then none else some secret

/-- `build_outbound_hmac_headers` -/
def buildOutboundHmacHeaders (sha256 : List UInt8 → HexDigest) (hmac : Text → Text → HexDigest)
    (method path : Text) (rawBody : List UInt8) (appId appSecret requestId : Text)
    (timestampMs : ℤ) : Except AuthFailure Headers := do
  validateRequestComponents method path
  validateIdentifier appId
  validateIdentifier requestId
  validateNonNegativeTimestamp timestampMs
  match secretText appSecret with
  | none => .error (.auth .authHeaderInvalid 400)
  | some secret =>
    let timestampText := decimal timestampMs.toNat
    let signature ← buildSignature sha256 hmac method path rawBody secret requestId timestampText
    return [("Content-Type", "application/json"), ("X-AppId", appId),
      ("X-TimestampMs", timestampText), ("X-RequestId", requestId), ("X-Signature", signature)]

section Verification

variable (sha256 : List UInt8 → HexDigest) (hmac : Text → Text → HexDigest) (lower : Text → Text)
  (settings : AuthSettings)

def requiredHeaders : List Text := ["x-appid", "x-timestampms", "x-requestid", "x-signature"]

/-- `_normalize_headers` -/
def normalizeHeaders (headers : Headers) : Except AuthFailure Headers := do
  let normalized := headers.map fun header ↦ (lower header.1, header.2)
  check (decide (normalized.map (·.1)).Nodup) .authHeaderInvalid 400
  check (requiredHeaders.all fun name ↦ name ∈ normalized.map (·.1)) .authHeaderInvalid 400
  return normalized

/-- `normalized[name]` of a required header. -/
def header (normalized : Headers) (name : Text) : Text := (normalized.lookup name).getD ""

/-- The secret of the app id in the settings. -/
def AuthSettings.secretOf (appId : Text) : Except AuthFailure Text := do
  check (settings.appGateways.any fun gateways ↦ appId ∈ gateways) .appIdUnknown 401
  match (settings.appSecrets.bind fun secrets ↦ (secrets.lookup appId).join).bind secretText with
  | none => .error (.auth .appIdUnknown 401)
  | some secret => .ok secret

/-- `verify_inbound_hmac` -/
def verifyInboundHmac (method path : Text) (rawBody : List UInt8) (headers : Headers)
    (nowMs : ℤ) : Except AuthFailure Text := do
  validateRequestComponents method path
  validateNonNegativeTimestamp nowMs
  let normalized ← normalizeHeaders lower headers
  let appId := header normalized "x-appid"
  validateIdentifier appId
  let requestId := header normalized "x-requestid"
  validateIdentifier requestId
  let signature := header normalized "x-signature"
  check (isHexDigest signature) .authHeaderInvalid 400
  let timestampText := header normalized "x-timestampms"
  check (isTimestamp timestampText) .authTimestampInvalid 400
  let toleranceMs := settings.timestampToleranceMs.getD (-1)
  check (0 ≤ toleranceMs) .authTimestampInvalid 400
  check (|nowMs - parseDecimal timestampText| ≤ toleranceMs) .authTimestampInvalid 401
  let secret ← settings.secretOf appId
  let expected ← buildSignature sha256 hmac method path rawBody secret requestId timestampText
  check (signature = expected) .signatureInvalid 401
  return appId

end Verification

end LlmGateway.Auth
