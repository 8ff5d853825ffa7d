import LlmGateway.Auth.Hmac
import LlmGateway.Relational.Outcome
import Mathlib.Data.Nat.Digits.Lemmas

/-!
# Signed requests are accepted as they were signed

The fields that are signed are joined by line breaks, which none of them contains. Verification
accepts the headers of the builder for the request that was signed, and for no other one, as long as
no other body has the digest of the body and no other text the signature of the signed text.
-/

namespace LlmGateway.Auth

open Relational (bind_eq_ok_iff)

section Texts

variable {p : ℕ → Bool} {least : ℕ} {most : Option ℕ} {text : Text}

/-- The text has no line break. -/
def OneLine (text : Text) : Prop := (0xA : Fin 0x110000) ∉ text.codePoints

theorem oneLine_of_fits (hp : p 0xA = false) (h : fits p least most text = true) :
    OneLine text := by
  intro hmem
  simp only [fits, Bool.and_eq_true, List.all_eq_true] at h
  exact absurd (h.1.1 _ hmem) (by simpa using hp)

theorem oneLine_of_isPath (h : isPath text = true) : OneLine text := by
  intro hmem
  simp only [isPath, Bool.and_eq_true, List.all_eq_true] at h
  exact absurd (h.2 _ hmem) (by decide)

/-- Capitals do not bring in a line break. -/
theorem oneLine_upper (h : OneLine text) : OneLine (upper text) := by
  intro hmem
  obtain ⟨c, hc, heq⟩ := List.mem_map.1 hmem
  split at heq
  · rename_i hlower
    have hval : c.val - 0x20 = 0xA := congrArg Fin.val heq
    simp only [isLower, Bool.and_eq_true, decide_eq_true_eq] at hlower
    omega
  · exact h (heq ▸ hc)

/-- Cutting the signed text at its line breaks gives the fields that it joins. -/
theorem splitOn_signingText {method path timestampText requestId bodyHash : Text}
    (hlines : ∀ field ∈ [method, path, timestampText, requestId, bodyHash], OneLine field) :
    (signingText method path timestampText requestId bodyHash).codePoints.splitOn
      (0xA : Fin 0x110000) =
      [(upper method).codePoints, path.codePoints, timestampText.codePoints, requestId.codePoints,
        bodyHash.codePoints] := by
  simp only [List.forall_mem_cons] at hlines
  obtain ⟨hmethod, hpath, htimestamp, hrequest, hbody, -⟩ := hlines
  have hupper := oneLine_upper hmethod
  unfold OneLine at *
  apply List.splitOn_intercalate
  · simp [hupper, hpath, htimestamp, hrequest, hbody]
  · exact List.cons_ne_nil _ _

/-- The signed text determines the fields that it joins. -/
theorem signingText_injective {method path timestampText requestId bodyHash : Text}
    {method' path' timestampText' requestId' bodyHash' : Text}
    (hlines : ∀ field ∈ [method, path, timestampText, requestId, bodyHash], OneLine field)
    (hlines' : ∀ field ∈ [method', path', timestampText', requestId', bodyHash'], OneLine field)
    (h : signingText method path timestampText requestId bodyHash =
      signingText method' path' timestampText' requestId' bodyHash') :
    upper method = upper method' ∧ path = path' ∧ timestampText = timestampText' ∧
      requestId = requestId' ∧ bodyHash = bodyHash' := by
  have hsplit := splitOn_signingText hlines
  rw [h, splitOn_signingText hlines'] at hsplit
  simp only [List.cons.injEq, and_true] at hsplit
  have hext : ∀ {a b : Text}, b.codePoints = a.codePoints → a = b := fun heq ↦
    congrArg Text.mk heq.symm
  obtain ⟨h1, h2, h3, h4, h5⟩ := hsplit
  exact ⟨hext h1, hext h2, hext h3, hext h4, hext h5⟩

end Texts

section Decimals

theorem decimalDigits_lt {n d : ℕ} (hd : d ∈ decimalDigits n) : d < 10 := by
  unfold decimalDigits at hd
  split at hd
  · obtain rfl := List.mem_singleton.1 hd
    decide
  · exact Nat.digits_lt_base (by decide) (List.mem_reverse.1 hd)

theorem length_decimalDigits {n : ℕ} (hn : n < 10 ^ 20) :
    1 ≤ (decimalDigits n).length ∧ (decimalDigits n).length ≤ 20 := by
  unfold decimalDigits
  split
  · decide
  · rename_i hne
    rw [List.length_reverse]
    exact ⟨List.length_pos_iff.2 (Nat.digits_ne_nil_iff_ne_zero.2 hne),
      (Nat.digits_length_le_iff (by decide) n).2 hn⟩

theorem isTimestamp_decimal {n : ℕ} (hn : n < 10 ^ 20) : isTimestamp (decimal n) = true := by
  obtain ⟨hpos, hle⟩ := length_decimalDigits hn
  simp only [isTimestamp, fits, decimal, List.length_map, Bool.and_eq_true, List.all_eq_true,
    List.mem_map, decide_eq_true_eq, Option.all_some]
  refine ⟨⟨?_, hpos⟩, hle⟩
  rintro c ⟨d, hd, rfl⟩
  have hlt := decimalDigits_lt hd
  have hval : (Fin.ofNat 0x110000 (0x30 + d)).val = 0x30 + d := Nat.mod_eq_of_lt (by omega)
  simp only [isDigit, hval, Bool.and_eq_true, decide_eq_true_eq]
  omega

/-- A number is read back from its digits. -/
theorem parseDecimal_decimal (n : ℕ) : parseDecimal (decimal n) = n := by
  have hdigits : (decimal n).codePoints.reverse.map (fun c ↦ c.val - 0x30) =
      (decimalDigits n).reverse := by
    simp only [decimal, ← List.map_reverse, List.map_map]
    have hmap : ∀ d ∈ (decimalDigits n).reverse,
        ((fun c : Fin 0x110000 ↦ c.val - 0x30) ∘ fun d ↦ Fin.ofNat 0x110000 (0x30 + d)) d = d := by
      intro d hd
      have hlt := decimalDigits_lt (List.mem_reverse.1 hd)
      have hval : (Fin.ofNat 0x110000 (0x30 + d)).val = 0x30 + d := Nat.mod_eq_of_lt (by omega)
      simp only [Function.comp_apply, hval]
      omega
    rw [List.map_congr_left hmap, List.map_id']
  rw [parseDecimal, hdigits]
  unfold decimalDigits
  split
  · rename_i hzero
    simp [hzero]
  · rw [List.reverse_reverse, Nat.ofDigits_digits]

end Decimals

section Requests

variable {sha256 : List UInt8 → HexDigest} {hmac : Text → Text → HexDigest} {lower : Text → Text}
  {settings : AuthSettings} {method path : Text} {rawBody : List UInt8}
  {appId appSecret requestId signature timestampText : Text} {timestampMs nowMs : ℤ}
  {headers : Headers}

theorem check_eq_ok_iff {condition : Bool} {code : AuthErrorCode} {httpStatus : ℕ} {u : Unit} :
    check condition code httpStatus = .ok u ↔ condition = true := by
  unfold check
  split <;> simp [*]

theorem validateRequestComponents_eq_ok_iff {u : Unit} :
    validateRequestComponents method path = .ok u ↔
      isMethodToken method = true ∧ isPath path = true := by
  simp only [validateRequestComponents, bind_eq_ok_iff, check_eq_ok_iff, exists_const]

theorem buildSignature_eq_ok_iff :
    buildSignature sha256 hmac method path rawBody appSecret requestId timestampText =
        .ok signature ↔
      (appSecret.isUtf8 = true ∧
        (signingText method path timestampText requestId (sha256 rawBody).text).isUtf8 = true) ∧
      (hmac appSecret
        (signingText method path timestampText requestId (sha256 rawBody).text)).text =
      signature := by
  unfold buildSignature
  simp only
  split
  · rename_i h
    simp only [Bool.and_eq_true] at h
    simp only [h, and_self, true_and, Except.ok.injEq]
  · rename_i h
    simp only [Bool.and_eq_true] at h
    simp only [reduceCtorEq, h, false_and]

/-- The headers that the builder forms. -/
def signedHeaders (appId timestampText requestId signature : Text) : Headers :=
  [("Content-Type", "application/json"), ("X-AppId", appId), ("X-TimestampMs", timestampText),
    ("X-RequestId", requestId), ("X-Signature", signature)]

theorem buildOutboundHmacHeaders_eq_ok_iff :
    buildOutboundHmacHeaders sha256 hmac method path rawBody appId appSecret requestId timestampMs =
        .ok headers ↔
      (isMethodToken method = true ∧ isPath path = true) ∧ isIdentifier appId = true ∧
      isIdentifier requestId = true ∧ (0 ≤ timestampMs ∧ timestampMs ≤ maxTimestampMs) ∧
      secretText appSecret = some appSecret ∧ ∃ signature,
        buildSignature sha256 hmac method path rawBody appSecret requestId
          (decimal timestampMs.toNat) = .ok signature ∧
        signedHeaders appId (decimal timestampMs.toNat) requestId signature = headers := by
  have hsecret : ∀ secret, secretText appSecret = some secret → secret = appSecret := by
    intro secret h
    unfold secretText at h
    split at h
    · cases h
    · exact (Option.some.inj h).symm
  simp only [buildOutboundHmacHeaders, bind_eq_ok_iff, exists_const, validateIdentifier,
    validateNonNegativeTimestamp, check_eq_ok_iff, validateRequestComponents_eq_ok_iff,
    Bool.and_eq_true, decide_eq_true_eq]
  cases hcase : secretText appSecret with
  | none => simp
  | some secret =>
    obtain rfl := hsecret secret hcase
    simp only [bind_eq_ok_iff, pure, Except.pure, Except.ok.injEq, signedHeaders, true_and]

/-- What verification accepts. -/
theorem verifyInboundHmac_eq_ok_iff {accepted : Text} :
    verifyInboundHmac sha256 hmac lower settings method path rawBody headers nowMs = .ok accepted ↔
      (isMethodToken method = true ∧ isPath path = true) ∧ (0 ≤ nowMs ∧ nowMs ≤ maxTimestampMs) ∧
      ∃ normalized, normalizeHeaders lower headers = .ok normalized ∧
        isIdentifier (header normalized "x-appid") = true ∧
        isIdentifier (header normalized "x-requestid") = true ∧
        isHexDigest (header normalized "x-signature") = true ∧
        isTimestamp (header normalized "x-timestampms") = true ∧
        0 ≤ settings.timestampToleranceMs.getD (-1) ∧
        |nowMs - parseDecimal (header normalized "x-timestampms")| ≤
          settings.timestampToleranceMs.getD (-1) ∧
        ∃ secret, settings.secretOf (header normalized "x-appid") = .ok secret ∧
          buildSignature sha256 hmac method path rawBody secret (header normalized "x-requestid")
            (header normalized "x-timestampms") = .ok (header normalized "x-signature") ∧
          header normalized "x-appid" = accepted := by
  simp only [verifyInboundHmac, bind_eq_ok_iff, exists_const, validateIdentifier,
    validateNonNegativeTimestamp, check_eq_ok_iff, validateRequestComponents_eq_ok_iff,
    Bool.and_eq_true, decide_eq_true_eq, pure, Except.pure, Except.ok.injEq]
  have hexpected : ∀ {P : Text → Prop} {Q : Prop} {signature : Text},
      (∃ expected, P expected ∧ signature = expected ∧ Q) ↔ P signature ∧ Q := by
    intro P Q signature
    constructor
    · rintro ⟨expected, hP, rfl, hQ⟩
      exact ⟨hP, hQ⟩
    · exact fun ⟨hP, hQ⟩ ↦ ⟨signature, hP, rfl, hQ⟩
  simp only [hexpected]

/-- The same headers as verification reads them. -/
def normalizedHeaders (appId timestampText requestId signature : Text) : Headers :=
  [("content-type", "application/json"), ("x-appid", appId), ("x-timestampms", timestampText),
    ("x-requestid", requestId), ("x-signature", signature)]

theorem normalizeHeaders_signedHeaders
    (hlower : ∀ name : Text, name.codePoints.all (·.val < 0x80) = true →
      lower name = asciiLower name) :
    normalizeHeaders lower (signedHeaders appId timestampText requestId signature) =
      .ok (normalizedHeaders appId timestampText requestId signature) := by
  have hnames : (signedHeaders appId timestampText requestId signature).map
        (fun header ↦ (lower header.1, header.2)) =
      normalizedHeaders appId timestampText requestId signature := by
    simp only [signedHeaders, List.map_cons, List.map_nil]
    rw [hlower "Content-Type" (by decide), hlower "X-AppId" (by decide),
      hlower "X-TimestampMs" (by decide), hlower "X-RequestId" (by decide),
      hlower "X-Signature" (by decide)]
    rfl
  have hdistinct :
      ((normalizedHeaders appId timestampText requestId signature).map (·.1)).Nodup := by
    simp only [normalizedHeaders, List.map_cons, List.map_nil]
    decide
  have hpresent : requiredHeaders.all (fun name ↦ decide
      (name ∈ (normalizedHeaders appId timestampText requestId signature).map (·.1))) = true := by
    simp only [normalizedHeaders, List.map_cons, List.map_nil]
    decide
  simp only [normalizeHeaders, hnames, hdistinct, hpresent, check, decide_true, if_true]
  rfl

@[simp] theorem header_appId :
    header (normalizedHeaders appId timestampText requestId signature) "x-appid" = appId := rfl

@[simp] theorem header_timestampMs :
    header (normalizedHeaders appId timestampText requestId signature) "x-timestampms" =
      timestampText := rfl

@[simp] theorem header_requestId :
    header (normalizedHeaders appId timestampText requestId signature) "x-requestid" =
      requestId := rfl

@[simp] theorem header_signature :
    header (normalizedHeaders appId timestampText requestId signature) "x-signature" =
      signature := rfl

/-- No other body has the digest of this body, and no other text the signature of the signed
text. -/
structure Unforgeable (sha256 : List UInt8 → HexDigest) (hmac : Text → Text → HexDigest)
    (appSecret method path timestampText requestId : Text) (rawBody : List UInt8) : Prop where
  body : ∀ other, sha256 other = sha256 rawBody → other = rawBody
  signed : ∀ other, hmac appSecret other = hmac appSecret
      (signingText method path timestampText requestId (sha256 rawBody).text) →
    other = signingText method path timestampText requestId (sha256 rawBody).text

theorem HexDigest.text_injective {a b : HexDigest} (h : a.text = b.text) : a = b := by
  cases a
  cases b
  congr

theorem oneLine_fields (hmethod : isMethodToken method = true) (hpath : isPath path = true)
    (htimestamp : isTimestamp timestampText = true) (hrequest : isIdentifier requestId = true)
    (digest : HexDigest) :
    ∀ field ∈ [method, path, timestampText, requestId, digest.text], OneLine field := by
  simp only [List.forall_mem_cons]
  exact ⟨oneLine_of_fits (by decide) hmethod, oneLine_of_isPath hpath,
    oneLine_of_fits (by decide) htimestamp, oneLine_of_fits (by decide) hrequest,
    oneLine_of_fits (by decide) digest.isHexDigest_text, List.forall_mem_nil _⟩

/-- The signed text is that of these fields only. -/
theorem signingText_eq_iff {sent sentPath sentTimestamp sentRequestId : Text}
    (hmethod : isMethodToken method = true) (hpath : isPath path = true)
    (htimestamp : isTimestamp timestampText = true) (hrequest : isIdentifier requestId = true)
    (hsent : isMethodToken sent = true) (hsentPath : isPath sentPath = true)
    (hsentTimestamp : isTimestamp sentTimestamp = true)
    (hsentRequest : isIdentifier sentRequestId = true) (digest sentDigest : HexDigest) :
    signingText sent sentPath sentTimestamp sentRequestId sentDigest.text =
        signingText method path timestampText requestId digest.text ↔
      upper sent = upper method ∧ sentPath = path ∧ sentTimestamp = timestampText ∧
        sentRequestId = requestId ∧ sentDigest = digest := by
  constructor
  · intro h
    obtain ⟨h1, h2, h3, h4, h5⟩ := signingText_injective
      (oneLine_fields hsent hsentPath hsentTimestamp hsentRequest sentDigest)
      (oneLine_fields hmethod hpath htimestamp hrequest digest) h
    exact ⟨h1, h2, h3, h4, HexDigest.text_injective h5⟩
  · rintro ⟨hupper, rfl, rfl, rfl, rfl⟩
    simp only [signingText, hupper]

/-- Verification accepts what the builder has signed, for the same method up to case, path and body,
at any time within the tolerance; it accepts the signature for nothing else, and the signed text is
that of no other fields. -/
theorem signed_requests {toleranceMs : ℤ}
    (hlower : ∀ name : Text, name.codePoints.all (·.val < 0x80) = true →
      lower name = asciiLower name)
    (hsecret : settings.secretOf appId = .ok appSecret)
    (htolerance : settings.timestampToleranceMs = some toleranceMs)
    (hunforgeable : Unforgeable sha256 hmac appSecret method path (decimal timestampMs.toNat)
      requestId rawBody)
    (hbuild : buildOutboundHmacHeaders sha256 hmac method path rawBody appId appSecret requestId
      timestampMs = .ok headers) :
    (∀ sent nowMs, isMethodToken sent = true → upper sent = upper method →
      0 ≤ nowMs → nowMs ≤ maxTimestampMs → |nowMs - timestampMs| ≤ toleranceMs →
      verifyInboundHmac sha256 hmac lower settings sent path rawBody headers nowMs = .ok appId) ∧
    (∃ signed, normalizeHeaders lower headers = .ok signed ∧
      ∀ sent sentPath sentBody sentHeaders received nowMs,
        normalizeHeaders lower sentHeaders = .ok received →
        header received "x-appid" = header signed "x-appid" →
        header received "x-signature" = header signed "x-signature" →
        ¬(upper sent = upper method ∧ sentPath = path ∧ sentBody = rawBody ∧
          header received "x-timestampms" = header signed "x-timestampms" ∧
          header received "x-requestid" = header signed "x-requestid") →
        ∀ accepted, verifyInboundHmac sha256 hmac lower settings sent sentPath sentBody sentHeaders
          nowMs ≠ .ok accepted) ∧
    ∀ sent sentPath sentTimestamp sentRequestId sentDigest,
      isMethodToken sent = true → isPath sentPath = true → isTimestamp sentTimestamp = true →
      isIdentifier sentRequestId = true →
      (signingText sent sentPath sentTimestamp sentRequestId (HexDigest.text sentDigest) =
          signingText method path (decimal timestampMs.toNat) requestId (sha256 rawBody).text ↔
        upper sent = upper method ∧ sentPath = path ∧ sentTimestamp = decimal timestampMs.toNat ∧
          sentRequestId = requestId ∧ sentDigest = sha256 rawBody) := by
  obtain ⟨⟨hmethod, hpath⟩, happ, hrequest, ⟨hnonneg, hmax⟩, -, signature, hsignature, rfl⟩ :=
    buildOutboundHmacHeaders_eq_ok_iff.1 hbuild
  obtain ⟨hutf8, rfl⟩ := buildSignature_eq_ok_iff.1 hsignature
  have hlt : timestampMs.toNat < 10 ^ 20 := by
    unfold maxTimestampMs at hmax
    omega
  have htimestamp := isTimestamp_decimal hlt
  refine ⟨fun sent nowMs hsent hupper hnow hnowMax hwithin ↦ ?_, ⟨_,
    normalizeHeaders_signedHeaders hlower, ?_⟩, ?_⟩
  · have htext : signingText sent path (decimal timestampMs.toNat) requestId (sha256 rawBody).text =
        signingText method path (decimal timestampMs.toNat) requestId (sha256 rawBody).text := by
      simp only [signingText, hupper]
    rw [verifyInboundHmac_eq_ok_iff]
    refine ⟨⟨hsent, hpath⟩, ⟨hnow, hnowMax⟩, _, normalizeHeaders_signedHeaders hlower, happ,
      hrequest, HexDigest.isHexDigest_text _, htimestamp, ?_, ?_, appSecret, hsecret, ?_, rfl⟩
    · rw [htolerance]
      exact (abs_nonneg _).trans hwithin
    · rw [htolerance, header_timestampMs, parseDecimal_decimal, Int.toNat_of_nonneg hnonneg]
      exact hwithin
    · rw [header_requestId, header_timestampMs, header_signature, buildSignature_eq_ok_iff, htext]
      exact ⟨hutf8, rfl⟩
  · intro sent sentPath sentBody sentHeaders received nowMs hreceived hsameApp hsameSignature
      hdiffer accepted haccepted
    obtain ⟨⟨hsent, hsentPath⟩, -, normalized, hnormalized, -, hsentRequest, -, hsentTimestamp,
      -, -, secret, hsecretOf, hsentSignature, -⟩ := verifyInboundHmac_eq_ok_iff.1 haccepted
    obtain rfl : received = normalized := Except.ok.inj (hreceived.symm.trans hnormalized)
    rw [hsameApp, header_appId, hsecret] at hsecretOf
    obtain rfl := Except.ok.inj hsecretOf
    rw [hsameSignature, header_signature] at hsentSignature
    have hsame := hunforgeable.signed _
      (HexDigest.text_injective (buildSignature_eq_ok_iff.1 hsentSignature).2)
    obtain ⟨h1, h2, h3, h4, h5⟩ := (signingText_eq_iff hmethod hpath htimestamp hrequest hsent
      hsentPath hsentTimestamp hsentRequest _ _).1 hsame
    exact hdiffer ⟨h1, h2, hunforgeable.body _ h5, h3, h4⟩
  · intro sent sentPath sentTimestamp sentRequestId sentDigest hsent hsentPath hsentTimestamp
      hsentRequest
    exact signingText_eq_iff hmethod hpath htimestamp hrequest hsent hsentPath hsentTimestamp
      hsentRequest _ _

section Example

def bodyDigest : HexDigest :=
  ⟨"44136fa355b3678a1146ad16f7e8649e94fb4fc21fe77e8310c060f61caaff8a", by decide⟩

def signatureDigest : HexDigest :=
  ⟨"9aa38bb9b62b7808f589b11f71d57c2b73976ecfdcb95ac049db97342ef0793e", by decide⟩

def otherDigest : HexDigest :=
  ⟨"0000000000000000000000000000000000000000000000000000000000000000", by decide⟩

/-- The digest of the body of two braces. -/
def exampleSha256 (body : List UInt8) : HexDigest :=
  if body = [0x7B, 0x7D] then bodyDigest else otherDigest

def exampleText : Text := signingText "post" "/v2/decisions" (decimal 1000) "r-1" bodyDigest.text

def exampleHmac (secret text : Text) : HexDigest :=
  if secret = "secret" ∧ text = exampleText then signatureDigest else otherDigest

def exampleSettings : AuthSettings where
  timestampToleranceMs := some 300000
  appGateways := some ["app"]
  appSecrets := some [("app", some "secret")]

theorem example_unforgeable : Unforgeable exampleSha256 exampleHmac "secret" "post" "/v2/decisions"
    (decimal (1000 : ℤ).toNat) "r-1" [0x7B, 0x7D] := by
  constructor
  · intro other h
    by_contra hne
    simp only [exampleSha256, if_neg hne, if_true] at h
    exact absurd h (by decide)
  · intro other h
    change exampleHmac "secret" other = exampleHmac "secret" exampleText at h
    change other = exampleText
    by_contra hne
    simp only [exampleHmac, hne, and_false, if_false, and_self, if_true] at h
    exact absurd h (by decide)

theorem signed_requests_post :
    verifyInboundHmac exampleSha256 exampleHmac asciiLower exampleSettings "POST" "/v2/decisions"
      [0x7B, 0x7D] (signedHeaders "app" "1000" "r-1" signatureDigest.text) 2000 = .ok "app" :=
  (signed_requests (fun _ _ ↦ rfl) (by decide) rfl example_unforgeable
    (by decide +kernel)).1 "POST" 2000 (by decide) (by decide) (by decide)
    (by decide) (by decide)

end Example

end Requests

end LlmGateway.Auth
