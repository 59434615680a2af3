import Mathlib.Logic.Function.Basic
import Lucent.Hosted.Response

/-!
# Lucent.Hosted.Handler — `transaction_preflight` of `lucent/api.py` under interleaving

The handler is cut at its calls: a `Phase` holds what is alive of its local variables between two steps, an
`Action` is one step with what its calls return, and `machine` interleaves the steps of any number of requests
over the stores of one runtime.

* A step reads the clock once; the tokens it draws and the answers of facilitator, resolver and quota are inputs.
* The claim is committed and the settlement submitted in one step, as is the outcome of a settlement.
* An exception before the settlement leaves a phase in which the step `abort` releases both reservations.
* A cancelled request stops where it is.
-/

namespace Lucent.Hosted

open Lucent.Lib Lucent.Access Lucent.Payments Lucent.VerifiedSource

/-! ## Phases and actions -/

/-- How a request was admitted: `access_label` with what belongs to it. -/
inductive Route
  | open
  | apiKey (headers : Headers) (reservation : Reservation ℚ)
  | x402 (paymentSignature : String) (reservation : Reservation ℚ)

/-- The variables every later step reads. -/
structure Task where
  request : HttpRequest
  requestFingerprint : String
  route : Route

/-- What a paid request holds: `verified_payment` and `claim_reservation`. -/
structure Paid where
  payment : VerifiedPayment
  claim : Reservation ℚ

/-- Where a request stands. -/
inductive Phase
  | idle
  | admitted (task : Task)
  | verifying (task : Task) (baseline : Preflight.PreflightResult) (payment : VerifiedPayment)
  | verified (task : Task) (baseline : Preflight.PreflightResult) (payment : VerifiedPayment)
  | ready (task : Task) (baseline : Preflight.PreflightResult) (paid : Option Paid)
  | built (task : Task) (body : Bytes) (paid : Option Paid)
  | settling (task : Task) (body : Bytes) (paid : Paid)
  | failing (task : Task) (claim : Option (Reservation ℚ)) (error : Raised)
  | finished

/-- `TokenBucketLimiter.consume`: a receipt, or the refusal. -/
inductive QuotaAnswer
  | receipt (limit remaining : ℕ) (resetAfterSeconds : ℚ)
  | exceeded (limit remaining : ℕ) (retryAfterSeconds : ℚ)

/-- `VerifiedSourceCache.resolve`. -/
inductive ResolverAnswer
  | sourceError (e : VerifiedSourceError)
  | exception (exception : String)
  | returned (source : VerifiedSourceResult)

/-- A step of a request, with the answers it gets. -/
inductive Action
  /-- Up to the reservation of the `Idempotency-Key`. -/
  | arrive (request : HttpRequest) (token : String) (quota : QuotaAnswer)
  /-- The pure pass; for a paid request also `verify` up to the call of the facilitator. -/
  | preflight
  /-- The rest of `verify`. -/
  | verifyAnswer (answer : FacilitatorAnswer VerifyResponse)
  /-- The reservation of the authorization. -/
  | claim (token : String)
  /-- `_bind_verified_source`, and the response. -/
  | build (answer : ResolverAnswer)
  /-- `_commit_payment_claim`, and the call of `settle`. -/
  | settle
  /-- The rest of `settle`, and the commit of the outcome. -/
  | settleAnswer (answer : FacilitatorAnswer SettleResponse)
  /-- The commit of an unpaid result. -/
  | finish
  /-- `except Exception`, before a settlement. -/
  | abort
  /-- The task is cancelled. -/
  | cancel

/-- A step of request `id`, at the clock reading `now`. -/
structure Step where
  id : ℕ
  now : ℚ
  action : Action

/-- What a step does outside the request: calls of the three stores and of the facilitator, and the response. -/
inductive Emission
  | access (call : StoreEvent ℚ)
  | result (call : StoreEvent ℚ)
  | claim (call : StoreEvent ℚ)
  | verify (payload : PaymentPayload)
  | settle (payment : VerifiedPayment)
  | respond (response : HttpResponse)

/-- The stores of a runtime, and its requests. -/
structure Runtime where
  access : Store ℚ
  paymentIdempotency : Store ℚ
  paymentClaims : Store ℚ
  phase : ℕ → Phase

namespace Runtime

def setPhase (s : Runtime) (id : ℕ) (phase : Phase) : Runtime := { s with phase := Function.update s.phase id phase }

end Runtime

/-! ## Pieces of the handler -/

/-- `_secret_bytes`, of a text. -/
def secretBytes (apiKey : String) : Option Bytes :=
  if apiKey.isEmpty || decide (maxApiKeyBytes < encodedLength apiKey) then none else some (utf8 apiKey)

/-- `ApiKeyAuthenticator.authenticate`: the last record with the digest, if it is enabled. -/
def authenticate (sha256 : Bytes → Bytes) (tenants : List TenantRecord) (apiKey : Option String) : Option String :=
  match apiKey.bind secretBytes with
  | none => none
  | some secret => match tenants.reverse.find? (fun t => t.digest == sha256 secret) with
    | none => none
    | some t => if t.enabled then some t.tenantId else none

/-- `_canonical_request_fingerprint`. -/
def canonicalRequest (payload : Json) : Option Bytes := (payload.dumps false true).map utf8Chars

def canonicalRequestFingerprint (env : Env) (payload : Json) : Except Raised String :=
  match canonicalRequest payload with
  | none => .error (.preflight "INVALID_REQUEST" "request body could not be canonically fingerprinted")
  | some body => .ok (sha256Text env.sha256 body)

/-- `_quota_headers`. -/
def quotaHeaders (limit remaining : ℕ) (resetAfterSeconds : ℚ) : Headers :=
  [("X-RateLimit-Limit", toString limit), ("X-RateLimit-Remaining", toString remaining),
    ("X-RateLimit-Reset", toString (max 0 ⌈resetAfterSeconds⌉))]

/-- `_payment_required`. -/
def paymentRequired (env : Env) (request : HttpRequest) : HttpResponse :=
  problemResponse env ⟨"PAYMENT_REQUIRED", "Payment Required", 402,
    "submit an x402 v2 PAYMENT-SIGNATURE and a unique Idempotency-Key for this preflight request", none, []⟩
    request.requestId [(paymentRequiredHeader, challenge env.x402 env.settings.payment none)]

/-- The response of the disabled mode. -/
def notConfigured (env : Env) (request : HttpRequest) : HttpResponse :=
  problemResponse env ⟨"SERVICE_NOT_CONFIGURED", "Service Not Configured", 503,
    "select an explicit protected access mode before serving traffic", none, []⟩ request.requestId []

/-- A member of the transaction of a request. -/
def transactionMember (payload : Json) (key : String) : Option Json := (payload.get? "transaction").bind (·.get? key)

/-- `chain_id in RPC_ENDPOINTS`. -/
def chainEnabled (payload : Json) : Bool :=
  match transactionMember payload "chain_id" with
  | some (.int n) => rpcChains.contains n
  | _ => false

/-- `value[path…] = v`, `none` for an exception. -/
def setPath (v : Json) : List String → Json → Option Json
  | [], _ => some v
  | [key], .obj members => some (.obj (Json.setMember key v members))
  | key :: path, .obj members => do
    let child ← Json.lookup key members
    let child ← setPath v path child
    some (.obj (Json.setMember key child members))
  | _ :: _, _ => none

def sourceIdentityMismatch : VerifiedSourceError :=
  ⟨"SOURCE_IDENTITY_MISMATCH", "verified source evidence did not match the requested deployment"⟩

def proxySemanticsUnverified : VerifiedSourceError :=
  ⟨"PROXY_SEMANTICS_UNVERIFIED", "hosted V1 does not clear upgradeable or proxy-backed deployments"⟩

def unsupportedChain : VerifiedSourceError := ⟨"UNSUPPORTED_CHAIN", "chain_id is not enabled for verified resolution"⟩

/-- The evidence is about the requested deployment. -/
def sameDeployment (env : Env) (payload : Json) (source : VerifiedSourceResult) : Bool :=
  (match transactionMember payload "chain_id" with
    | some (.int n) => decide (source.chainId = n)
    | _ => false) &&
  (match transactionMember payload "to" with
    | some (.str target) => env.preflight.lower source.address == env.preflight.lower target
    | _ => false) &&
  !(source.proxyChain.isEmpty && decide (source.effectiveContract ≠ source.target))

/-- `_bind_verified_source`, after the answer of the resolver: the result, with its evidence. -/
def bindVerifiedSource (env : Env) (payload : Json) (baseline : Preflight.PreflightResult) (answer : ResolverAnswer) :
    Except Raised (Preflight.PreflightResult × Option VerifiedSourceResult) :=
  if !env.settings.verifiedSourceRequired then .ok (baseline, none)
  else match answer with
    | .sourceError e => .error (.source e)
    | .exception exception => .error (.internal exception)
    | .returned source => do
      rejectIf (!sameDeployment env payload source) (.source sourceIdentityMismatch)
      rejectIf (!source.proxyChain.isEmpty) (.source proxySemanticsUnverified)
      let abi ← (source.abi env.readFloat).elim (.error (.internal "JSONDecodeError")) .ok
      let payload ← (setPath abi ["descriptor", "context", "contract", "abi"] payload).elim
        (.error (.internal "TypeError")) .ok
      let result ← (Preflight.preflightTransaction env.preflight payload).mapError .ofFailure
      return (result, some source)

/-- The complete bounded response. -/
def buildBody (env : Env) (task : Task) (baseline : Preflight.PreflightResult) (answer : ResolverAnswer) :
    Except Raised Bytes := do
  let (result, source) ← bindVerifiedSource env task.request.payload baseline answer
  let body ← (env.responseBody result source task.request.requestId).elim (.error (.internal "ValidationError")) .ok
  rejectIf (maxCachedResultBytes < body.length) (.internal "RuntimeError")
  return body

/-- `PAYMENT_AUTHORIZATION_ALREADY_USED`. -/
def authorizationAlreadyUsed : PaymentError where
  code := "PAYMENT_AUTHORIZATION_ALREADY_USED"
  message := "this payment authorization has already been consumed"
  status := 409
  terminal := true

/-- The tombstone of `_commit_payment_claim`. -/
def tombstone : IdempotencyResponse :=
  ⟨204, [], [("Content-Type", "application/octet-stream")], by decide, by decide, by decide⟩

/-- The headers of a completed response. -/
def completionHeaders : Route → Headers
  | .open => [("X-Lucent-Access", "open"), ("Content-Type", "application/json")]
  | .apiKey headers _ => setHeader "Content-Type" "application/json" headers
  | .x402 _ _ => [("X-Lucent-Access", "x402"), ("Content-Type", "application/json")]

/-- The headers of a settled response. -/
def settledHeaders (receipt : PaymentReceipt) : Headers :=
  [("X-Lucent-Access", "x402"), (paymentResponseHeader, receipt.responseHeader), ("Content-Type", "application/json")]

/-- The outcome a settled response is stored as. -/
def settledOutcome (receipt : PaymentReceipt) (payment : VerifiedPayment) (body : Bytes) :
    Except String IdempotencyResponse :=
  IdempotencyResponse.fromParts 200 body
    (setHeader cachedPaymentProofHeader payment.proofFingerprint (settledHeaders receipt))

/-- The outcome of `_commit_terminal_payment_failure`. -/
def failureOutcome (env : Env) (requestId : String) (payment : VerifiedPayment) (e : PaymentError) :
    Except String IdempotencyResponse :=
  IdempotencyResponse.fromParts e.status
    (renderJson true (.obj (problemMembers ⟨e.code, paymentTitle e, e.status, e.message, none, []⟩ requestId)))
    (updateHeaders [("Content-Type", "application/problem+json"),
      (cachedPaymentProofHeader, payment.proofFingerprint)] (paymentFailureHeaders env e))

/-! ## Steps -/

section Steps

variable (env : Env) (s : Runtime) (id : ℕ) (now : ℚ)

/-- The request ends with a response. -/
def respond (response : HttpResponse) : List Emission × Runtime := ([.respond response], s.setPhase id .finished)

/-- A reservation in a store, and what the handler makes of the decision. -/
def reserveIn (cfg : StoreConfig ℚ) (store : Store ℚ) (tenantId : String) (key : Option String)
    (fingerprint token : String) : StoreEvent ℚ × Store ℚ :=
  let op := StoreOp.reserve tenantId key fingerprint token now
  let (outcome, store) := IdempotencyStore.step env.sha256 cfg store op
  ((op, outcome), store)

/-- A commit in a store. -/
def commitIn (cfg : StoreConfig ℚ) (store : Store ℚ) (reservation : Reservation ℚ) (response : IdempotencyResponse) :
    StoreEvent ℚ × Store ℚ :=
  let op := StoreOp.commit reservation response now
  let (outcome, store) := IdempotencyStore.step env.sha256 cfg store op
  ((op, outcome), store)

/-- An abort in a store. -/
def abortIn (cfg : StoreConfig ℚ) (store : Store ℚ) (reservation : Reservation ℚ) : StoreEvent ℚ × Store ℚ :=
  let op := StoreOp.abort reservation now
  let (outcome, store) := IdempotencyStore.step env.sha256 cfg store op
  ((op, outcome), store)

/-- The phase and the response after the reservation of the `Idempotency-Key`: an admitted task, a replay, or an
error that is raised before the `try`. -/
def afterReserve (request : HttpRequest) (outcome : StoreOutcome ℚ) (admitted : Reservation ℚ → Task)
    (replay : IdempotencyResponse → Except Raised HttpResponse) : List Emission × Phase :=
  match outcome with
  | .decided (.reserved reservation) => ([], .admitted (admitted reservation))
  | .decided (.replay cached) => match replay cached with
    | .ok response => ([.respond response], .finished)
    | .error e => ([.respond (problem env request.requestId e)], .finished)
  | .raised e => ([.respond (problem env request.requestId (.ofStore e))], .finished)
  | _ => ([], .finished)

/-- The branch of a request with an API key. -/
def arriveApiKey (request : HttpRequest) (fingerprint token : String) (quota : QuotaAnswer) :
    List Emission × Runtime :=
  match authenticate env.sha256 env.settings.tenants request.apiKey with
  | none => respond s id (problem env request.requestId (.access .authentication))
  | some tenantId => match quota with
    | .exceeded limit remaining retry =>
      respond s id (problem env request.requestId (.access (.quotaExceeded limit remaining retry)))
    | .receipt limit remaining reset =>
      let headers := ("X-Lucent-Access", "api_key") :: quotaHeaders limit remaining reset
      let (call, store) := reserveIn env now accessConfig s.access tenantId request.idempotencyKey fingerprint token
      let (emitted, phase) := afterReserve env request call.2 (fun r => ⟨request, fingerprint, .apiKey headers r⟩)
        (fun cached => replayResponse env request cached none headers)
      (.access call :: emitted, { s with access := store }.setPhase id phase)

/-- The branch of a paying request. -/
def arriveX402 (request : HttpRequest) (fingerprint token : String) : List Emission × Runtime :=
  match request.paymentSignature with
  | none => respond s id (paymentRequired env request)
  | some signature =>
    let (call, store) :=
      reserveIn env now paymentIdempotencyConfig s.paymentIdempotency "x402" request.idempotencyKey fingerprint token
    let (emitted, phase) := afterReserve env request call.2 (fun r => ⟨request, fingerprint, .x402 signature r⟩)
      (fun cached => replayResponse env request cached (some signature) [])
    (.result call :: emitted, { s with paymentIdempotency := store }.setPhase id phase)

/-- `transaction_preflight` up to the `try`. -/
def arrive (request : HttpRequest) (token : String) (quota : QuotaAnswer) : List Emission × Runtime :=
  match canonicalRequestFingerprint env request.payload with
  | .error e => respond s id (problem env request.requestId e)
  | .ok fingerprint =>
    match env.settings.accessMode with
    | .disabled => respond s id (notConfigured env request)
    | .open => ([], s.setPhase id (.admitted ⟨request, fingerprint, .open⟩))
    | mode =>
      if request.apiKey.isSome && mode.usesApiKeys then arriveApiKey env s id now request fingerprint token quota
      else if mode = .apiKey then respond s id (problem env request.requestId (.access .authentication))
      else arriveX402 env s id now request fingerprint token

/-- The first pass, and the checks of a payment that need no answer. -/
def checkRequest (task : Task) : Except Raised (Preflight.PreflightResult × Option VerifiedPayment) := do
  let baseline ← (Preflight.preflightTransaction env.preflight task.request.payload).mapError .ofFailure
  match task.route with
  | .x402 signature _ =>
    rejectIf (!chainEnabled task.request.payload) (.source unsupportedChain)
    let payment ← (checkPayment env.sha256 env.x402 env.settings.payment signature task.request.idempotencyKey
      now).mapError .payment
    return (baseline, some payment)
  | _ => return (baseline, none)

def preflight (task : Task) : List Emission × Runtime :=
  match checkRequest env now task with
  | .error e => ([], s.setPhase id (.failing task none e))
  | .ok (baseline, none) => ([], s.setPhase id (.ready task baseline none))
  | .ok (baseline, some payment) => ([.verify payment.payload], s.setPhase id (.verifying task baseline payment))

def verifyAnswer (task : Task) (baseline : Preflight.PreflightResult) (payment : VerifiedPayment)
    (answer : FacilitatorAnswer VerifyResponse) : List Emission × Runtime :=
  match acceptVerification payment answer with
  | .error e => ([], s.setPhase id (.failing task none (.payment e)))
  | .ok payment => ([], s.setPhase id (.verified task baseline payment))

def claim (task : Task) (baseline : Preflight.PreflightResult) (payment : VerifiedPayment) (token : String) :
    List Emission × Runtime :=
  let (call, store) := reserveIn env now paymentClaimsConfig s.paymentClaims "x402-authorization"
    (some payment.authorizationFingerprint) task.requestFingerprint token
  let phase := match call.2 with
    | .decided (.reserved claim) => .ready task baseline (some ⟨payment, claim⟩)
    | .decided (.replay _) => .failing task none (.payment authorizationAlreadyUsed)
    | .raised e => .failing task none (.ofStore e)
    | _ => .finished
  ([.claim call], { s with paymentClaims := store }.setPhase id phase)

def build (task : Task) (baseline : Preflight.PreflightResult) (paid : Option Paid) (answer : ResolverAnswer) :
    List Emission × Runtime :=
  match buildBody env task baseline answer with
  | .error e => ([], s.setPhase id (.failing task (paid.map Paid.claim) e))
  | .ok body => ([], s.setPhase id (.built task body paid))

def settle (task : Task) (body : Bytes) (paid : Paid) : List Emission × Runtime :=
  let (call, store) := commitIn env now paymentClaimsConfig s.paymentClaims paid.claim tombstone
  let s := { s with paymentClaims := store }
  match call.2 with
  | .committed => ([.claim call, .settle paid.payment], s.setPhase id (.settling task body paid))
  | .raised e => ([.claim call], s.setPhase id (.failing task (some paid.claim) (.ofStore e)))
  | _ => ([.claim call], s.setPhase id .finished)

/-- The commit of the outcome of a settlement, and the response; the stored outcome may get lost. -/
def commitOutcome (task : Task) (reservation : Reservation ℚ) (outcome : Except String IdempotencyResponse)
    (response : HttpResponse) : List Emission × Runtime :=
  let internal := problem env task.request.requestId (.internal "RuntimeError")
  match outcome with
  | .error _ => respond s id (problem env task.request.requestId (.internal "ValueError"))
  | .ok outcome =>
    let (call, store) := commitIn env now paymentIdempotencyConfig s.paymentIdempotency reservation outcome
    let response := match call.2 with
      | .raised (.runtime _) => internal
      | _ => response
    ([.result call, .respond response], { s with paymentIdempotency := store }.setPhase id .finished)

def settleAnswer (task : Task) (body : Bytes) (paid : Paid) (answer : FacilitatorAnswer SettleResponse) :
    List Emission × Runtime :=
  match task.route with
  | .x402 _ reservation =>
    match receiptOf env.x402 env.settings.payment paid.payment answer with
    | .error e => commitOutcome env s id now task reservation
        (failureOutcome env task.request.requestId paid.payment e) (problem env task.request.requestId (.payment e))
    | .ok receipt => commitOutcome env s id now task reservation (settledOutcome receipt paid.payment body)
        ⟨200, settledHeaders receipt, body⟩
  | _ => ([], s)

/-- The end of an unpaid request. -/
def finish (task : Task) (body : Bytes) : List Emission × Runtime :=
  let response : HttpResponse := ⟨200, completionHeaders task.route, body⟩
  match task.route with
  | .apiKey _ reservation =>
    match IdempotencyResponse.fromParts 200 body (completionHeaders task.route) with
    | .error _ => ([], s.setPhase id (.failing task none (.internal "ValueError")))
    | .ok cached =>
      let (call, store) := commitIn env now accessConfig s.access reservation cached
      let s := { s with access := store }
      match call.2 with
      | .committed => ([.access call, .respond response], s.setPhase id .finished)
      | .raised (.runtime _) =>
        ([.access call], s.setPhase id (.failing task none (.internal "RuntimeError")))
      | _ =>
        let (released, store) := abortIn env now accessConfig s.access reservation
        ([.access call, .access released, .respond response], { s with access := store }.setPhase id .finished)
  | _ => respond s id response

/-- The release of the reservation of the `Idempotency-Key`. -/
def abortKey (route : Route) : List Emission × Runtime :=
  match route with
  | .open => ([], s)
  | .apiKey _ reservation =>
    let (call, store) := abortIn env now accessConfig s.access reservation
    ([.access call], { s with access := store })
  | .x402 _ reservation =>
    let (call, store) := abortIn env now paymentIdempotencyConfig s.paymentIdempotency reservation
    ([.result call], { s with paymentIdempotency := store })

/-- The release of the claim. -/
def abortClaim (claim : Option (Reservation ℚ)) : List Emission × Runtime :=
  match claim with
  | none => ([], s)
  | some reservation =>
    let (call, store) := abortIn env now paymentClaimsConfig s.paymentClaims reservation
    ([.claim call], { s with paymentClaims := store })

/-- `except Exception`, before a settlement. -/
def abort (task : Task) (claim : Option (Reservation ℚ)) (error : Raised) : List Emission × Runtime :=
  let (released, s) := abortKey env s now task.route
  let (releasedClaim, s) := abortClaim env s now claim
  (released ++ releasedClaim ++ [.respond (problem env task.request.requestId error)], s.setPhase id .finished)

end Steps

/-- A step of a request; an action its phase does not have changes nothing. -/
def step (env : Env) (s : Runtime) (i : Step) : List Emission × Runtime :=
  match s.phase i.id, i.action with
  | .idle, .arrive request token quota => arrive env s i.id i.now request token quota
  | .admitted task, .preflight => preflight env s i.id i.now task
  | .verifying task baseline payment, .verifyAnswer answer => verifyAnswer s i.id task baseline payment answer
  | .verified task baseline payment, .claim token => claim env s i.id i.now task baseline payment token
  | .ready task baseline paid, .build answer => build env s i.id task baseline paid answer
  | .built task body (some paid), .settle => settle env s i.id i.now task body paid
  | .built task body none, .finish => finish env s i.id i.now task body
  | .settling task body paid, .settleAnswer answer => settleAnswer env s i.id i.now task body paid answer
  | .failing task claim error, .abort => abort env s i.id i.now task claim error
  | _, .cancel => ([], s.setPhase i.id .finished)
  | _, _ => ([], s)

/-- The runtime before any request. -/
def Runtime.new : Runtime := ⟨IdempotencyStore.new, IdempotencyStore.new, IdempotencyStore.new, fun _ => .idle⟩

/-- Any number of requests, interleaved. -/
def machine (env : Env) : Machine Runtime Step (List Emission) := ⟨Runtime.new, step env⟩

end Lucent.Hosted
