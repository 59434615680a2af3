import Lucent.Lib.Checked
import Lucent.Lib.Json

/-!
# Lucent.Payments.Gateway — the x402 gateway of `lucent/payments.py`

`PaymentGateway` between its calls of the facilitator: `checkPayment` is `verify` before the call and
`acceptVerification` what follows it; `receiptOf` is what `settle` does with the answer.

* The answers of the facilitator are arguments; the codecs of the x402 package are the fields of `X402`.
* The clock is rational; a float of the source is one, and the sums of the source are exact here.
-/

namespace Lucent.Payments

open Lucent.Lib

/-! ## Errors, terms, payloads -/

def baseMainnet : String := "eip155:8453"
def baseMainnetUsdc : String := "0x833589fCD6eDb6E08f4c7C32D4f71b54bdA02913"
def maxPaymentHeaderBytes : ℕ := 64 * 1024
def maxPaymentTimeoutSeconds : ℤ := 300

/-- `PaymentError`. -/
structure PaymentError where
  code : String
  message : String
  status : ℕ
  retryable : Bool := false
  terminal : Bool := false
deriving DecidableEq

/-- `re.fullmatch` of `0x` and `n` hexadecimal digits. -/
def prefixedHex (n : ℕ) (text : String) : Bool :=
  match text.toList with
  | '0' :: 'x' :: digits => decide (digits.length = n) && digits.all isHex
  | _ => false

/-- `ADDRESS_RE.fullmatch`. -/
def addressRe (text : String) : Bool := prefixedHex 40 text

/-- `TX_HASH_RE.fullmatch`. -/
def txHashRe (text : String) : Bool := prefixedHex 64 text

/-- `PaymentConfig`, the part the gateway reads, with the check of the gateway's constructor as a field. -/
structure PaymentConfig where
  enabled : Bool
  network : String
  asset : String
  amount : String
  payTo : String
  resourceUrl : Option String
  maxTimeoutSeconds : ℤ
  timeout_range : enabled = true → 1 ≤ maxTimeoutSeconds ∧ maxTimeoutSeconds ≤ maxPaymentTimeoutSeconds

/-- `PaymentRequirements`. -/
structure PaymentRequirements where
  scheme : String
  network : String
  asset : String
  amount : String
  payTo : String
  maxTimeoutSeconds : ℤ
  extra : List (String × String)

/-- `_build_requirements`. -/
def PaymentConfig.requirements (cfg : PaymentConfig) : PaymentRequirements where
  scheme := "exact"
  network := cfg.network
  asset := cfg.asset
  amount := cfg.amount
  payTo := cfg.payTo
  maxTimeoutSeconds := cfg.maxTimeoutSeconds
  extra := [("name", "USD Coin"), ("version", "2"), ("assetTransferMethod", "eip3009")]

/-- `PaymentPayload`: the dump of the accepted terms, the URL of the resource, the scheme's payload, and the
extensions of the caller. -/
structure PaymentPayload where
  x402Version : ℤ
  accepted : Json
  resourceUrl : Option String
  payload : Json
  extensions : Json

/-- What `decode_payment_signature_header` returns: a v2 payload, or a value of another class. -/
inductive DecodedPayment
  | payload (p : PaymentPayload)
  | other

/-- `PaymentRequired`, as `challenge` builds it. -/
structure PaymentRequired where
  error : Option String
  resourceUrl : Option String
  description : String
  mimeType : String
  serviceName : String
  accepts : List PaymentRequirements

/-- `SettleResponse`. -/
structure SettleResponse where
  success : Bool
  payer : Option String
  transaction : String
  network : String
  amount : Option String
deriving DecidableEq

/-- `VerifyResponse`. -/
structure VerifyResponse where
  isValid : Bool
  payer : Option String
deriving DecidableEq

/-- How a call of the facilitator ends. -/
inductive FacilitatorAnswer (α : Type)
  | paymentError (e : PaymentError)
  | exception
  | returned (answer : α)
deriving DecidableEq

/-- The x402 package. -/
structure X402 where
  /-- `decode_payment_signature_header`, `none` for an exception. -/
  decodePaymentSignatureHeader : String → Option DecodedPayment
  /-- `extract_and_validate_payment_identifier`, with `identifier_validation.valid`. -/
  extractAndValidatePaymentIdentifier : PaymentPayload → Option String × Bool
  encodePaymentRequiredHeader : PaymentRequired → String
  encodePaymentResponseHeader : SettleResponse → String

/-- `VerifiedPayment`. -/
structure VerifiedPayment where
  payer : String
  paymentIdentifier : String
  proofFingerprint : String
  authorizationFingerprint : String
  payload : PaymentPayload

/-- `PaymentReceipt`. -/
structure PaymentReceipt where
  payer : String
  transaction : String
  network : String
  amount : String
  responseHeader : String
  proofFingerprint : String

/-- `challenge`: the header value. -/
def challenge (x402 : X402) (cfg : PaymentConfig) (error : Option String) : String :=
  x402.encodePaymentRequiredHeader {
    error
    resourceUrl := cfg.resourceUrl
    description := "Lucent call-scoped EVM preflight analysis"
    mimeType := "application/json"
    serviceName := "lucent"
    accepts := [cfg.requirements] }

/-! ## Fingerprints -/

/-- A SHA-256 digest as a text. -/
def sha256Text (sha256 : Bytes → Bytes) (bytes : Bytes) : String := "sha256:" ++ hexText (sha256 bytes)

/-- `proof_fingerprint`; the header is ASCII wherever it is called. -/
def proofFingerprint (sha256 : Bytes → Bytes) (paymentSignature : String) : String :=
  sha256Text sha256 (utf8 paymentSignature)

/-- `(?:0|[1-9][0-9]*)`. -/
def isDecimal : List Char → Bool
  | [] => false
  | ['0'] => true
  | c :: rest => c.isDigit && c != '0' && rest.all Char.isDigit

/-- `decimal` of `_authorization_fingerprint`; conversions are limited to 4300 digits. -/
def decimal (value : Option Json) : Option String :=
  let checked (text : String) : Option String :=
    if isDecimal text.toList && decide (text.toList.length ≤ 4300) then some text else none
  match value with
  | some (.int n) => checked (toString n)
  | some (.str s) => checked s
  | _ => none

/-- A signed transfer, as `_authorization_fingerprint` reads it. -/
structure Authorization where
  payer : String
  payTo : String
  value : String
  validAfter : String
  validBefore : String
  nonce : String

/-- `int(authorization["validAfter"])`; `decimal` kept the digits. -/
def Authorization.after (a : Authorization) : ℕ := Nat.ofDigitChars 10 a.validAfter.toList 0

/-- `int(authorization["validBefore"])`. -/
def Authorization.before (a : Authorization) : ℕ := Nat.ofDigitChars 10 a.validBefore.toList 0

def invalidAuthorization : PaymentError where
  code := "INVALID_PAYMENT_SIGNATURE"
  message := "PAYMENT-SIGNATURE contains an invalid authorization"
  status := 402

def termsMismatch (message : String) : PaymentError where
  code := "PAYMENT_REQUIREMENTS_MISMATCH"
  message := message
  status := 402

/-- A text member that matches. -/
def matching (re : String → Bool) (value : Option Json) : Option String := (value.bind Json.str?).filter re

/-- The authorization of a payload, in the order of the checks of `_authorization_fingerprint`. -/
def readAuthorization (payload : PaymentPayload) (requirements : PaymentRequirements) :
    Except PaymentError Authorization := do
  let authorization ← ((payload.payload.get? "authorization").filter fun a => a matches .obj _).elim
    (.error invalidAuthorization) .ok
  let payer ← (matching addressRe (authorization.get? "from")).elim (.error invalidAuthorization) .ok
  let payTo ← (matching addressRe (authorization.get? "to")).elim (.error invalidAuthorization) .ok
  let nonce ← (matching txHashRe (authorization.get? "nonce")).elim (.error invalidAuthorization) .ok
  let value ← (decimal (authorization.get? "value")).elim (.error invalidAuthorization) .ok
  rejectIf (lowerAscii payTo ≠ lowerAscii requirements.payTo ∨ value ≠ requirements.amount)
    (termsMismatch "payment authorization does not match this resource's terms")
  let validAfter ← (decimal (authorization.get? "validAfter")).elim (.error invalidAuthorization) .ok
  let validBefore ← (decimal (authorization.get? "validBefore")).elim (.error invalidAuthorization) .ok
  return ⟨payer, payTo, value, validAfter, validBefore, nonce⟩

/-- The canonical form of a signed transfer. -/
def canonicalAuthorization (requirements : PaymentRequirements) (a : Authorization) : Json :=
  .obj [("scheme", .str requirements.scheme), ("network", .str requirements.network),
    ("asset", .str requirements.asset), ("amount", .str requirements.amount), ("pay_to", .str requirements.payTo),
    ("authorization", .obj [("from", .str (lowerAscii a.payer)), ("to", .str (lowerAscii a.payTo)),
      ("value", .str a.value), ("valid_after", .str a.validAfter), ("valid_before", .str a.validBefore),
      ("nonce", .str (lowerAscii a.nonce))])]

/-- The bytes that are hashed. -/
def authorizationBytes (requirements : PaymentRequirements) (a : Authorization) : Option Bytes :=
  ((canonicalAuthorization requirements a).dumps false true).map utf8Chars

/-- `_authorization_fingerprint`. -/
def authorizationFingerprint (sha256 : Bytes → Bytes) (payload : PaymentPayload)
    (requirements : PaymentRequirements) : Except PaymentError String := do
  let a ← readAuthorization payload requirements
  let bytes ← (authorizationBytes requirements a).elim (.error invalidAuthorization) .ok
  return sha256Text sha256 bytes

/-- `assert_replay_proof`. -/
def assertReplayProof (sha256 : Bytes → Bytes) (paymentSignature expectedFingerprint : String) :
    Except PaymentError Unit := do
  rejectIf (!isAscii paymentSignature) {
    code := "INVALID_PAYMENT_SIGNATURE", message := "PAYMENT-SIGNATURE is malformed", status := 402 }
  rejectIf (proofFingerprint sha256 paymentSignature ≠ expectedFingerprint) {
    code := "PAYMENT_REPLAY_PROOF_MISMATCH", message := "paid replay requires the original payment proof",
    status := 402 }

/-! ## Verification -/

/-- A character of the base64 alphabet. -/
def base64Char (c : Char) : Bool := c.isAlphanum || c == '+' || c == '/'

/-- `base64.b64decode(text, validate=True)` succeeds: data, and the padding that completes it.  After complete quads
any number of `=` passes, but a text does not begin with one. -/
def isBase64 (text : String) : Bool :=
  let data := text.toList.takeWhile base64Char
  let padding := text.toList.dropWhile base64Char
  padding.all (· == '=') &&
    if data.length % 4 = 0 then !data.isEmpty || padding.isEmpty
    else data.length % 4 != 1 && padding.length == 4 - data.length % 4

/-- A dumped dictionary is equal to one with these members. -/
def dictEq (expected : List (String × (Json → Bool))) : Json → Bool
  | .obj members => members.length == expected.length &&
      expected.all (fun (key, p) => (Json.lookup key members).any p)
  | _ => false

/-- `accepted == expected`, on the dumps. -/
def PaymentRequirements.sameTerms (r : PaymentRequirements) (accepted : Json) : Bool :=
  dictEq [("scheme", Json.isStr r.scheme), ("network", Json.isStr r.network), ("asset", Json.isStr r.asset),
    ("amount", Json.isStr r.amount), ("payTo", Json.isStr r.payTo),
    ("maxTimeoutSeconds", fun v => v.number? == some (r.maxTimeoutSeconds : ℚ)),
    ("extra", dictEq (r.extra.map fun (key, text) => (key, Json.isStr text)))] accepted

/-- `_require_enabled`. -/
def requireEnabled (cfg : PaymentConfig) : Except PaymentError Unit :=
  rejectIf (!cfg.enabled) { code := "PAYMENTS_DISABLED", message := "x402 payment access is not enabled", status := 503 }

def malformedSignature (message : String) : PaymentError where
  code := "INVALID_PAYMENT_SIGNATURE"
  message := message
  status := 402

/-- The decoded payload of a header, if it is a v2 one. -/
def decodePayload (x402 : X402) (paymentSignature : String) : Except PaymentError PaymentPayload :=
  match x402.decodePaymentSignatureHeader paymentSignature with
  | none => .error (malformedSignature "PAYMENT-SIGNATURE is malformed")
  | some (.payload p) => if p.x402Version = 2 then .ok p else .error unsupported
  | some .other => .error unsupported
where
  unsupported : PaymentError :=
    { code := "UNSUPPORTED_PAYMENT_VERSION", message := "only x402 v2 payments are accepted", status := 402 }

/-- The identifier of a payload, which has to be the given one. -/
def checkIdentifier (x402 : X402) (payload : PaymentPayload) (paymentIdentifier : Option String) :
    Except PaymentError String :=
  match x402.extractAndValidatePaymentIdentifier payload with
  | (some identifier, true) =>
    if paymentIdentifier.any (· ≠ identifier) then
      .error { code := "PAYMENT_IDENTIFIER_MISMATCH", message := "payment identifier does not match Idempotency-Key",
               status := 402 }
    else .ok identifier
  | _ => .error { code := "PAYMENT_IDENTIFIER_REQUIRED",
                  message := "payment proof must contain a valid payment identifier", status := 402 }

/-- The server-owned time window. -/
def outsideWindow (cfg : PaymentConfig) (a : Authorization) (now : ℚ) : Prop :=
  now < a.after ∨ (a.before : ℚ) ≤ now ∨ now + cfg.maxTimeoutSeconds < a.before

instance (cfg : PaymentConfig) (a : Authorization) (now : ℚ) : Decidable (outsideWindow cfg a now) := by
  unfold outsideWindow
  infer_instance

/-- `PaymentGateway.verify` before the call of the facilitator: what it returns if the facilitator accepts. -/
def checkPayment (sha256 : Bytes → Bytes) (x402 : X402) (cfg : PaymentConfig) (paymentSignature : String)
    (paymentIdentifier : Option String) (now : ℚ) : Except PaymentError VerifiedPayment := do
  requireEnabled cfg
  rejectIf (paymentSignature.isEmpty || decide (maxPaymentHeaderBytes < encodedLength paymentSignature) ||
    !isAscii paymentSignature) (malformedSignature "PAYMENT-SIGNATURE is missing or malformed")
  rejectIf (!isBase64 paymentSignature) (malformedSignature "PAYMENT-SIGNATURE is malformed")
  let payload ← decodePayload x402 paymentSignature
  let identifier ← checkIdentifier x402 payload paymentIdentifier
  rejectIf (!cfg.requirements.sameTerms payload.accepted)
    (termsMismatch "payment proof does not match this resource's terms")
  rejectIf (payload.resourceUrl = none ∨ payload.resourceUrl ≠ cfg.resourceUrl) {
    code := "PAYMENT_RESOURCE_MISMATCH", message := "payment proof is bound to a different resource", status := 402 }
  let fingerprint ← authorizationFingerprint sha256 payload cfg.requirements
  let a ← readAuthorization payload cfg.requirements
  rejectIf (outsideWindow cfg a now) {
    code := "PAYMENT_AUTHORIZATION_WINDOW_MISMATCH",
    message := "payment authorization is outside the server-owned time window", status := 402 }
  return ⟨a.payer, identifier, proofFingerprint sha256 paymentSignature, fingerprint, payload⟩

def facilitatorUnavailable (message : String) (retryable terminal : Bool) : PaymentError where
  code := "FACILITATOR_UNAVAILABLE"
  message := message
  status := 502
  retryable := retryable
  terminal := terminal

def invalidResponse (message : String) (retryable terminal : Bool) : PaymentError where
  code := "FACILITATOR_INVALID_RESPONSE"
  message := message
  status := 502
  retryable := retryable
  terminal := terminal

/-- The payer an answer names is not an address. -/
def badPayer (payer : Option String) : Prop := payer.any (fun p => !addressRe p) = true

/-- The payer an answer names is another one. -/
def otherPayer (payer : Option String) (expected : String) : Prop :=
  payer.any (fun p => lowerAscii p ≠ lowerAscii expected) = true

instance (payer : Option String) : Decidable (badPayer payer) := inferInstanceAs (Decidable (_ = _))

instance (payer : Option String) (expected : String) : Decidable (otherPayer payer expected) :=
  inferInstanceAs (Decidable (_ = _))

/-- `PaymentGateway.verify` after the call of the facilitator. -/
def acceptVerification (payment : VerifiedPayment) :
    FacilitatorAnswer VerifyResponse → Except PaymentError VerifiedPayment
  | .paymentError e => .error e
  | .exception => .error (facilitatorUnavailable "payment verifier is temporarily unavailable" true false)
  | .returned verified => do
    rejectIf (!verified.isValid) {
      code := "PAYMENT_NOT_VERIFIED", message := "payment proof was not accepted", status := 402 }
    rejectIf (badPayer verified.payer) (invalidResponse "payment verifier did not return a valid payer" true false)
    rejectIf (otherPayer verified.payer payment.payer)
      (invalidResponse "payment verifier payer did not match the authorization" true false)
    return payment

/-! ## Settlement -/

/-- The receipt that goes back to the caller. -/
def SettleResponse.receipt (settled : SettleResponse) (cfg : PaymentConfig) (payment : VerifiedPayment) :
    SettleResponse where
  success := true
  payer := some (settled.payer.getD payment.payer)
  transaction := settled.transaction
  network := settled.network
  amount := some (settled.amount.getD cfg.amount)

/-- `PaymentGateway.settle` after the call of the facilitator. -/
def receiptOf (x402 : X402) (cfg : PaymentConfig) (payment : VerifiedPayment) :
    FacilitatorAnswer SettleResponse → Except PaymentError PaymentReceipt
  | .paymentError e => .error { e with retryable := false, terminal := true }
  | .exception => .error (facilitatorUnavailable
      "payment settlement outcome is unknown and requires reconciliation" false true)
  | .returned settled => do
    rejectIf (!settled.success) {
      code := "PAYMENT_NOT_SETTLED", message := "payment could not be settled", status := 402, terminal := true }
    rejectIf (settled.network ≠ cfg.network)
      (invalidResponse "payment receipt did not match the configured network" false true)
    rejectIf (settled.amount.any (· ≠ cfg.amount) = true)
      (invalidResponse "payment receipt did not match the configured amount" false true)
    rejectIf (!txHashRe settled.transaction)
      (invalidResponse "payment receipt did not contain a Base transaction hash" false true)
    rejectIf (badPayer settled.payer) (invalidResponse "payment receipt did not contain a valid payer" false true)
    rejectIf (otherPayer settled.payer payment.payer)
      (invalidResponse "payment receipt payer did not match the verified payer" false true)
    let receipt := settled.receipt cfg payment
    let header := x402.encodePaymentResponseHeader receipt
    rejectIf (maxPaymentHeaderBytes < encodedLength header)
      (invalidResponse "payment receipt exceeded its response-header limit" false true)
    return {
      payer := settled.payer.getD payment.payer
      transaction := settled.transaction
      network := settled.network
      amount := settled.amount.getD cfg.amount
      responseHeader := header
      proofFingerprint := payment.proofFingerprint }

/-! ## The gateway -/

/-- `FacilitatorClient`: how its calls end. -/
structure FacilitatorClient where
  verify : PaymentPayload → PaymentRequirements → FacilitatorAnswer VerifyResponse
  settle : PaymentPayload → PaymentRequirements → FacilitatorAnswer SettleResponse

/-- `PaymentGateway.verify`. -/
def PaymentGateway.verify (sha256 : Bytes → Bytes) (x402 : X402) (cfg : PaymentConfig) (facilitator : FacilitatorClient)
    (paymentSignature : String) (paymentIdentifier : Option String) (now : ℚ) : Except PaymentError VerifiedPayment := do
  let payment ← checkPayment sha256 x402 cfg paymentSignature paymentIdentifier now
  acceptVerification payment (facilitator.verify payment.payload cfg.requirements)

/-- `PaymentGateway.settle`. -/
def PaymentGateway.settle (x402 : X402) (cfg : PaymentConfig) (facilitator : FacilitatorClient)
    (payment : VerifiedPayment) :
    Except PaymentError PaymentReceipt := do
  requireEnabled cfg
  receiptOf x402 cfg payment (facilitator.settle payment.payload cfg.requirements)

/-! ## Statuses -/

/-- The status of the error is one of an HTTP error. -/
def PaymentError.Declines (e : PaymentError) : Prop := 400 ≤ e.status ∧ e.status < 600

instance (e : PaymentError) : Decidable e.Declines := inferInstanceAs (Decidable (_ ∧ _))

/-- The facilitator raises no `PaymentError` with another status. -/
def FacilitatorAnswer.Declines {α : Type} : FacilitatorAnswer α → Prop
  | .paymentError e => e.Declines
  | .exception => True
  | .returned _ => True

instance {α : Type} : (answer : FacilitatorAnswer α) → Decidable answer.Declines
  | .paymentError e => inferInstanceAs (Decidable e.Declines)
  | .exception => isTrue trivial
  | .returned _ => isTrue trivial

section Statuses

variable {sha256 : Bytes → Bytes} {x402 : X402} {cfg : PaymentConfig} {payment : VerifiedPayment}

theorem readAuthorization_declines (payload : PaymentPayload) (requirements : PaymentRequirements) :
    FailsWith PaymentError.Declines (readAuthorization payload requirements) := by
  have hinvalid : invalidAuthorization.Declines := by decide
  have hread : ∀ {α : Type} (o : Option α),
      FailsWith PaymentError.Declines (o.elim (.error invalidAuthorization) .ok : Except PaymentError α) :=
    fun o => .elim hinvalid .ok
  unfold readAuthorization
  iterate 5 refine .bind (hread _) fun _ => ?_
  refine .bind (.rejectIf (show (termsMismatch _).Declines by decide)) fun _ => ?_
  iterate 2 refine .bind (hread _) fun _ => ?_
  exact .ok _

theorem authorizationFingerprint_declines (payload : PaymentPayload) (requirements : PaymentRequirements) :
    FailsWith PaymentError.Declines (authorizationFingerprint sha256 payload requirements) :=
  .bind (readAuthorization_declines payload requirements) fun _ => .bind (.elim (by decide) .ok) fun _ => .ok _

theorem decodePayload_declines (paymentSignature : String) :
    FailsWith PaymentError.Declines (decodePayload x402 paymentSignature) := by
  have hunsupported : decodePayload.unsupported.Declines := by decide
  unfold decodePayload
  split
  · exact .error (by decide)
  · split_ifs
    · exact .ok _
    · exact .error hunsupported
  · exact .error hunsupported

theorem checkIdentifier_declines (payload : PaymentPayload) (paymentIdentifier : Option String) :
    FailsWith PaymentError.Declines (checkIdentifier x402 payload paymentIdentifier) := by
  unfold checkIdentifier
  split
  · split_ifs
    · exact .error (by decide)
    · exact .ok _
  · exact .error (by decide)

/-- The checks before the call of the facilitator fail with the status of an HTTP error. -/
theorem checkPayment_declines (paymentSignature : String) (paymentIdentifier : Option String) (now : ℚ) :
    FailsWith PaymentError.Declines (checkPayment sha256 x402 cfg paymentSignature paymentIdentifier now) := by
  unfold checkPayment requireEnabled
  iterate 3 refine .bind (.rejectIf (by decide)) fun _ => ?_
  refine .bind (decodePayload_declines _) fun payload => .bind (checkIdentifier_declines payload _) fun _ => ?_
  iterate 2 refine .bind (.rejectIf (by decide)) fun _ => ?_
  refine .bind (authorizationFingerprint_declines payload _) fun _ => ?_
  exact .bind (readAuthorization_declines payload _) fun _ => .bind (.rejectIf (by decide)) fun _ => .ok _

/-- So does the rest of `verify`, unless the facilitator raises another `PaymentError`. -/
theorem acceptVerification_declines {answer : FacilitatorAnswer VerifyResponse} (h : answer.Declines) :
    FailsWith PaymentError.Declines (acceptVerification payment answer) := by
  rcases answer with e | _ | verified
  · exact .error h
  · exact .error (by decide)
  · unfold acceptVerification
    iterate 3 refine .bind (.rejectIf (by decide)) fun _ => ?_
    exact .ok _

/-- So does the rest of `settle`. -/
theorem receiptOf_declines {answer : FacilitatorAnswer SettleResponse} (h : answer.Declines) :
    FailsWith PaymentError.Declines (receiptOf x402 cfg payment answer) := by
  rcases answer with e | _ | settled
  · exact .error h
  · exact .error (by decide)
  · unfold receiptOf
    iterate 7 refine .bind (.rejectIf (by decide)) fun _ => ?_
    exact .ok _

theorem assertReplayProof_declines (paymentSignature expectedFingerprint : String) :
    FailsWith PaymentError.Declines (assertReplayProof sha256 paymentSignature expectedFingerprint) :=
  .bind (.rejectIf (by decide)) fun _ => .rejectIf (by decide)

end Statuses

end Lucent.Payments
