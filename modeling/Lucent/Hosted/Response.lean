import Mathlib.Algebra.Order.Floor.Defs
import Mathlib.Data.Rat.Floor
import Lucent.Access.Durability
import Lucent.Lib.RoundTrip
import Lucent.Payments.Gateway
import Lucent.Preflight.Transaction
import Lucent.VerifiedSource.Result

/-!
# Lucent.Hosted.Response — settings, errors and responses of `lucent/hosted.py` and `lucent/api.py`

* `HostedSettings`: the settings with the checks of `from_env` as fields; the three stores of a runtime.
* `Raised`: what the handler of `/v1/preflight` raises, and `problem`, what the exception handlers make of it.
* `replayResponse`: a stored outcome sent again, under the identifier of the new request.
-/

namespace Lucent.Hosted

open Lucent.Lib Lucent.Access Lucent.Payments

/-! ## Settings -/

/-- `AccessMode`. -/
inductive AccessMode
  | disabled
  | open
  | apiKey
  | x402
  | apiKeyOrX402
deriving DecidableEq

def AccessMode.usesApiKeys : AccessMode → Bool
  | .apiKey | .apiKeyOrX402 => true
  | _ => false

def AccessMode.usesX402 : AccessMode → Bool
  | .x402 | .apiKeyOrX402 => true
  | _ => false

/-- A record of `ApiKeyAuthenticator`. -/
structure TenantRecord where
  digest : Bytes
  tenantId : String
  enabled : Bool

/-- `HostedSettings`, with the checks of `from_env` that relate its fields. -/
structure HostedSettings where
  accessMode : AccessMode
  verifiedSourceRequired : Bool
  tenants : List TenantRecord
  payment : PaymentConfig
  payment_enabled : accessMode.usesX402 = payment.enabled
  source_required : accessMode.usesX402 = true → verifiedSourceRequired = true

def maxApiKeyBytes : ℕ := 4096
def maxCachedResultBytes : ℕ := 2 * 1024 * 1024
def maxResultCacheBytes : ℕ := 32 * 1024 * 1024
def maxPaymentClaimCacheBytes : ℕ := 4 * 1024 * 1024

/-- `AccessController.idempotency` of `from_env`. -/
def accessConfig : StoreConfig ℚ where
  ttlSeconds := 300
  reservationTtlSeconds := 120
  maxEntries := 512
  maxResponseBytes := maxCachedResultBytes
  maxTotalResponseBytes := maxResultCacheBytes
  evictCompletedEntries := true
  ttl_pos := by decide
  reservation_ttl_pos := by decide
  entries_pos := by decide
  response_pos := by decide
  response_le_total := by decide

/-- `payment_idempotency` of `from_env`. -/
def paymentIdempotencyConfig : StoreConfig ℚ where
  ttlSeconds := 900
  reservationTtlSeconds := 120
  maxEntries := 512
  maxResponseBytes := maxCachedResultBytes
  maxTotalResponseBytes := maxResultCacheBytes
  evictCompletedEntries := false
  ttl_pos := by decide
  reservation_ttl_pos := by decide
  entries_pos := by decide
  response_pos := by decide
  response_le_total := by decide

/-- `payment_claims` of `from_env`. -/
def paymentClaimsConfig : StoreConfig ℚ where
  ttlSeconds := 900
  reservationTtlSeconds := 120
  maxEntries := 4096
  maxResponseBytes := 1024
  maxTotalResponseBytes := maxPaymentClaimCacheBytes
  evictCompletedEntries := false
  ttl_pos := by decide
  reservation_ttl_pos := by decide
  entries_pos := by decide
  response_pos := by decide
  response_le_total := by decide

/-- The code the handler calls outside the repository, and the one rendering that is not reproduced here. -/
structure Env where
  preflight : Preflight.Env
  x402 : X402
  settings : HostedSettings
  /-- The float of a decimal literal. -/
  readFloat : List Char → PyFloat
  /-- `repr` of a float. -/
  floatRepr : ℚ → String
  /-- `PreflightResponse.model_validate` and `model_dump_json` of the result with its evidence, for a request
  identifier; `none` for an exception. -/
  responseBody : Preflight.PreflightResult → Option VerifiedSource.VerifiedSourceResult → String → Option Bytes

def Env.sha256 (env : Env) : Bytes → Bytes := env.preflight.sha256

/-! ## Requests, responses, errors -/

/-- The request, with the headers the handler reads. -/
structure HttpRequest where
  /-- `payload.model_dump(by_alias=True)`. -/
  payload : Json
  requestId : String
  idempotencyKey : Option String
  apiKey : Option String
  paymentSignature : Option String

/-- Headers, as a dictionary in order. -/
abbrev Headers := List (String × String)

/-- `headers[name] = value`. -/
def setHeader (name value : String) : Headers → Headers
  | [] => [(name, value)]
  | (n, v) :: rest => if n = name then (name, value) :: rest else (n, v) :: setHeader name value rest

/-- `headers.get(name)`. -/
def getHeader (name : String) (headers : Headers) : Option String :=
  (headers.find? (fun h => h.1 == name)).map Prod.snd

/-- `headers.pop(name, None)`, what is left. -/
def popHeader (name : String) (headers : Headers) : Headers := headers.filter (fun h => h.1 != name)

/-- `headers.update(others)`. -/
def updateHeaders (headers others : Headers) : Headers := others.foldl (fun hs h => setHeader h.1 h.2 hs) headers

structure HttpResponse where
  statusCode : ℤ
  headers : Headers
  body : Bytes

/-- `AccessError`. -/
inductive AccessError
  | authentication
  | quotaExceeded (limit remaining : ℕ) (retryAfterSeconds : ℚ)
  | store (e : StoreError ℚ)

/-- What the handler raises; `internal` is any other exception, by its class. -/
inductive Raised
  | payment (e : PaymentError)
  | access (e : AccessError)
  | preflight (code message : String)
  | source (e : VerifiedSource.VerifiedSourceError)
  | internal (exception : String)

/-- An exception of the analysis. -/
def Raised.ofFailure : Preflight.Failure → Raised
  | .input code message => .preflight code message
  | .other exception => .internal exception

/-- An exception of a store: accounting errors are `RuntimeError`s, everything else is an `AccessError`. -/
def Raised.ofStore : StoreError ℚ → Raised
  | .runtime _ => .internal "RuntimeError"
  | e => .access (.store e)

/-- The constructor arguments of an `AccessError`. -/
structure Problem where
  code : String
  title : String
  status : ℕ
  detail : String
  retryAfterSeconds : Option ℚ := none
  context : List (String × Json) := []

def AccessError.problem : AccessError → Problem
  | .authentication => ⟨"AUTHENTICATION_FAILED", "Unauthorized", 401, "a valid API key is required", none, []⟩
  | .quotaExceeded limit remaining retry => ⟨"QUOTA_EXCEEDED", "Too Many Requests", 429,
      "tenant request quota exceeded", some retry, [("limit", .int limit), ("remaining", .int remaining)]⟩
  | .store (.invalidInput detail) => ⟨"INVALID_IDEMPOTENCY_INPUT", "Bad Request", 400, detail, none, []⟩
  | .store .conflict => ⟨"IDEMPOTENCY_CONFLICT", "Conflict", 409,
      "idempotency key was already used for a different request", none, []⟩
  | .store (.inProgress retry) => ⟨"IDEMPOTENCY_IN_PROGRESS", "Conflict", 409,
      "an equivalent request is still in progress", some retry, []⟩
  | .store (.capacity retry) => ⟨"IDEMPOTENCY_CAPACITY_EXCEEDED", "Service Unavailable", 503,
      "idempotency capacity is temporarily exhausted", some retry, []⟩
  | .store .invalidReservation => ⟨"INVALID_IDEMPOTENCY_RESERVATION", "Conflict", 409,
      "idempotency reservation is no longer active", none, []⟩
  | .store (.responseTooLarge maxBytes) => ⟨"IDEMPOTENCY_RESPONSE_TOO_LARGE", "Internal Server Error", 500,
      "response exceeds the idempotency cache limit", none, [("max_bytes", .int maxBytes)]⟩
  | .store (.runtime message) => ⟨"INTERNAL_ERROR", "Internal Server Error", 500, message, none, []⟩

/-- The members every problem document starts with. -/
def problemMembers (p : Problem) (requestId : String) : List (String × Json) :=
  [("type", .str "about:blank"), ("title", .str p.title), ("status", .int p.status), ("code", .str p.code),
    ("detail", .str p.detail), ("request_id", .str requestId)]

/-- `json.dumps` with compact separators, encoded. -/
def renderJson (ascii : Bool) (value : Json) : Bytes := utf8Chars ((value.dumps ascii false).getD [])

/-- `_problem`, and `JSONResponse` with the media type of problem documents. -/
def problemResponse (env : Env) (p : Problem) (requestId : String) (headers : Headers) : HttpResponse where
  statusCode := p.status
  headers := setHeader "content-type" "application/problem+json" headers
  body := renderJson false (.obj (problemMembers p requestId ++
    (p.retryAfterSeconds.map fun retry => ("retry_after_seconds", Json.float ⟨env.floatRepr retry, retry⟩)).toList ++
    p.context))

/-- `response_headers` of an `AccessError`. -/
def AccessError.responseHeaders (e : AccessError) : Headers :=
  match e with
  | .authentication => [("WWW-Authenticate", "ApiKey realm=\"lucent\"")]
  | e => match e.problem.retryAfterSeconds with
    | none => []
    | some retry => [("Retry-After", toString (max 1 ⌈retry⌉))]

def paymentRequiredHeader : String := "PAYMENT-REQUIRED"
def paymentResponseHeader : String := "PAYMENT-RESPONSE"

/-- `_payment_failure_headers`. -/
def paymentFailureHeaders (env : Env) (e : PaymentError) : Headers :=
  (if e.status = 402 ∧ env.settings.accessMode.usesX402 = true then
    [(paymentRequiredHeader, challenge env.x402 env.settings.payment (some e.code))] else []) ++
  (if e.retryable && !e.terminal then [("Retry-After", "2")] else [])

/-- `_SOURCE_INPUT_CODES`. -/
def sourceInputCodes : List String :=
  ["INVALID_CHAIN_ID", "UNSUPPORTED_CHAIN", "INVALID_ADDRESS", "NO_CONTRACT_CODE", "INVALID_PROXY_SLOT",
    "INVALID_PROXY_BEACON", "AMBIGUOUS_PROXY", "PROXY_CYCLE", "PROXY_DEPTH_EXCEEDED", "PROXY_SEMANTICS_UNVERIFIED",
    "UNSUPPORTED_DISPATCH", "SOURCE_NOT_VERIFIED", "SOURCE_NOT_RUNTIME_VERIFIED"]

/-- The title of a payment failure. -/
def paymentTitle (e : PaymentError) : String :=
  if e.status = 402 then "Payment Required" else "Payment Dependency Failed"

/-- The exception handlers of the application. -/
def problem (env : Env) (requestId : String) : Raised → HttpResponse
  | .payment e => problemResponse env ⟨e.code, paymentTitle e, e.status, e.message, none, []⟩ requestId
      (paymentFailureHeaders env e)
  | .access e => problemResponse env e.problem requestId e.responseHeaders
  | .preflight code message =>
    problemResponse env ⟨code, "Preflight Input Rejected", 422, message, none, []⟩ requestId []
  | .source e =>
    if sourceInputCodes.contains e.code then
      problemResponse env ⟨e.code, "Verified Source Rejected", 422, e.message, none, []⟩ requestId []
    else problemResponse env ⟨e.code, "Verified Source Unavailable", 503, e.message, none, []⟩ requestId
      [("Retry-After", "2")]
  | .internal _ => problemResponse env ⟨"INTERNAL_ERROR", "Internal Server Error", 500,
      "analysis failed without producing a verdict", none, []⟩ requestId []

/-! ## Replays -/

/-- `_CACHED_PAYMENT_PROOF_HEADER`. -/
def cachedPaymentProofHeader : String := "Lucent-Internal-Payment-Proof"

/-- The stored body under the identifier of this request. -/
def replayBody (readFloat : List Char → PyFloat) (requestId : String) (body : Bytes) : Option Bytes :=
  match Json.loads readFloat body with
  | some (.obj members) =>
    ((Json.obj (Json.setMember "request_id" (.str requestId) members)).dumps false false).map utf8Chars
  | _ => none

/-- The proof of a paid outcome, which has to be the given one. -/
def checkProof (sha256 : Bytes → Bytes) (expected paymentSignature : Option String) : Except PaymentError Unit :=
  match expected, paymentSignature with
  | none, _ => .ok ()
  | some _, none => .error {
      code := "PAYMENT_REPLAY_PROOF_MISMATCH", message := "paid replay requires the original payment proof",
      status := 402 }
  | some expected, some signature => assertReplayProof sha256 signature expected

/-- The headers of a replay. -/
def replayHeaders (cached : IdempotencyResponse) (overrides : Headers) : Headers :=
  let headers := popHeader cachedPaymentProofHeader (updateHeaders [] cached.headers)
  let headers := updateHeaders (setHeader "Idempotency-Replayed" "true" headers) overrides
  if (getHeader "Content-Type" headers).isSome then headers
  else setHeader "Content-Type" "application/json" headers

/-- `_replay_response`. -/
def replayResponse (env : Env) (request : HttpRequest) (cached : IdempotencyResponse)
    (paymentSignature : Option String) (overrides : Headers) : Except Raised HttpResponse := do
  let body ← (replayBody env.readFloat request.requestId cached.body).elim (.error (.internal "JSONDecodeError")) .ok
  (checkProof env.sha256 (getHeader cachedPaymentProofHeader (updateHeaders [] cached.headers))
    paymentSignature).mapError .payment
  return ⟨cached.statusCode, replayHeaders cached overrides, body⟩

end Lucent.Hosted
