import Lucent.Hosted.Handler

/-!
# Lucent.Hosted.StepCases — what a step of a request can do

* `Refusal`: a response that is no result; the exception handlers send one for every error that `Declines`.
* `Action.Declines`: no `PaymentError` of the facilitator's own has another status than that of an HTTP error.
* `StepCase`: the cases of `step`, with what the step read, emitted and left; `step_case`: there are no others.
-/

namespace Lucent.Hosted

open Lucent.Lib Lucent.Access Lucent.Payments Lucent.VerifiedSource

/-! ## The stores -/

/-- The stores of a runtime. -/
inductive StoreName
  | access
  | result
  | claim

namespace StoreName

def config : StoreName → StoreConfig ℚ
  | .access => accessConfig
  | .result => paymentIdempotencyConfig
  | .claim => paymentClaimsConfig

def store (s : Runtime) : StoreName → Store ℚ
  | .access => s.access
  | .result => s.paymentIdempotency
  | .claim => s.paymentClaims

def call? : StoreName → Emission → Option (StoreEvent ℚ)
  | .access, .access call => some call
  | .result, .result call => some call
  | .claim, .claim call => some call
  | _, _ => none

end StoreName

/-! ## Headers -/

/-- The internal header is not among these. -/
def Hides (headers : Headers) : Prop := ∀ h ∈ headers, h.1 ≠ cachedPaymentProofHeader

theorem mem_setHeader {name value : String} {headers : Headers} {h : String × String}
    (hmem : h ∈ setHeader name value headers) : h = (name, value) ∨ h ∈ headers := by
  induction headers with
  | nil => exact .inl (List.mem_singleton.mp hmem)
  | cons first rest ih =>
    unfold setHeader at hmem
    split_ifs at hmem with hname
    · rcases List.mem_cons.mp hmem with hfirst | hrest
      · exact .inl hfirst
      · exact .inr (List.mem_cons_of_mem _ hrest)
    · rcases List.mem_cons.mp hmem with rfl | hrest
      · exact .inr List.mem_cons_self
      · exact (ih hrest).imp_right (List.mem_cons_of_mem _)

theorem Hides.setHeader {name value : String} {headers : Headers} (h : Hides headers)
    (hname : name ≠ cachedPaymentProofHeader) : Hides (setHeader name value headers) := by
  intro header hmem
  obtain rfl | hmem := mem_setHeader hmem
  · exact hname
  · exact h header hmem

theorem Hides.updateHeaders {headers others : Headers} (h : Hides headers) (ho : Hides others) :
    Hides (updateHeaders headers others) := by
  unfold Hosted.updateHeaders
  induction others generalizing headers with
  | nil => exact h
  | cons first rest ih =>
    exact ih (h.setHeader (ho first List.mem_cons_self)) fun header hmem => ho header (List.mem_cons_of_mem _ hmem)

theorem hides_popHeader (headers : Headers) : Hides (popHeader cachedPaymentProofHeader headers) := by
  intro header hmem
  simpa using (List.mem_filter.mp hmem).2

/-! ## Refusals -/

/-- A response that is no result. -/
structure Refusal (response : HttpResponse) : Prop where
  status : response.statusCode ≠ 200
  hides : Hides response.headers

theorem problemResponse_refusal {env : Env} {p : Problem} (hstatus : p.status ≠ 200) (requestId : String)
    {headers : Headers} (h : Hides headers) : Refusal (problemResponse env p requestId headers) := by
  refine ⟨?_, h.setHeader (by decide)⟩
  show (p.status : ℤ) ≠ 200
  omega

theorem hides_nil : Hides [] := nofun

theorem hides_singleton {name value : String} (h : name ≠ cachedPaymentProofHeader) : Hides [(name, value)] := by
  intro header hmem
  obtain rfl := List.mem_singleton.mp hmem
  exact h

theorem hides_paymentFailureHeaders (env : Env) (e : PaymentError) : Hides (paymentFailureHeaders env e) := by
  intro header hmem
  unfold paymentFailureHeaders at hmem
  rcases List.mem_append.mp hmem with hmem | hmem
  · split_ifs at hmem
    · exact hides_singleton (by decide) header hmem
    · exact absurd hmem List.not_mem_nil
  · split_ifs at hmem
    · exact hides_singleton (by decide) header hmem
    · exact absurd hmem List.not_mem_nil

theorem accessError_status (e : AccessError) : e.problem.status ≠ 200 := by
  rcases e with _ | _ | (_ | _ | _ | _ | _ | _ | _) <;> simp [AccessError.problem]

theorem hides_responseHeaders (e : AccessError) : Hides e.responseHeaders := by
  unfold AccessError.responseHeaders
  split
  · exact hides_singleton (by decide)
  · split
    · exact hides_nil
    · exact hides_singleton (by decide)

/-- A `PaymentError` has the status of an HTTP error; any other exception is given one. -/
def Raised.Declines : Raised → Prop
  | .payment e => e.Declines
  | .access _ | .preflight _ _ | .source _ | .internal _ => True

/-- What the exception handlers send hides the internal header. -/
theorem problem_hides (env : Env) (requestId : String) (e : Raised) : Hides (problem env requestId e).headers := by
  have hset : ∀ {p : Problem} {headers : Headers}, Hides headers →
      Hides (problemResponse env p requestId headers).headers := fun h => h.setHeader (by decide)
  rcases e with e | e | ⟨code, message⟩ | e | exception
  · exact hset (hides_paymentFailureHeaders env e)
  · exact hset (hides_responseHeaders e)
  · exact hset hides_nil
  · unfold problem
    dsimp only
    split_ifs
    · exact hset hides_nil
    · exact hset (hides_singleton (by decide))
  · exact hset hides_nil

theorem problem_status (env : Env) (requestId : String) {e : Raised} (h : e.Declines) :
    (problem env requestId e).statusCode ≠ 200 := by
  have hne : ∀ {status : ℕ}, status ≠ 200 → (status : ℤ) ≠ 200 := fun h => by omega
  rcases e with e | e | ⟨code, message⟩ | e | exception
  · have hstatus : 200 < e.status := lt_of_lt_of_le (by decide) h.1
    exact hne hstatus.ne'
  · exact hne (accessError_status e)
  · exact hne (by decide : 422 ≠ 200)
  · unfold problem
    dsimp only
    split_ifs
    · exact hne (by decide : 422 ≠ 200)
    · exact hne (by decide : 503 ≠ 200)
  · exact hne (by decide : 500 ≠ 200)

/-- What the exception handlers send is no result. -/
theorem problem_refusal (env : Env) (requestId : String) {e : Raised} (h : e.Declines) :
    Refusal (problem env requestId e) := ⟨problem_status env requestId h, problem_hides env requestId e⟩

theorem ofFailure_declines (failure : Preflight.Failure) : (Raised.ofFailure failure).Declines := by
  rcases failure with _ | _ <;> trivial

theorem ofStore_declines (e : StoreError ℚ) : (Raised.ofStore e).Declines := by
  unfold Raised.ofStore
  split <;> trivial

theorem notConfigured_refusal (env : Env) (request : HttpRequest) : Refusal (notConfigured env request) :=
  problemResponse_refusal (by simp) request.requestId hides_nil

theorem paymentRequired_refusal (env : Env) (request : HttpRequest) : Refusal (paymentRequired env request) :=
  problemResponse_refusal (by simp) request.requestId (hides_singleton (by decide))

/-! ## Replays -/

theorem hides_replayHeaders (cached : IdempotencyResponse) {overrides : Headers} (h : Hides overrides) :
    Hides (replayHeaders cached overrides) := by
  have hmarked : Hides (setHeader "Idempotency-Replayed" "true"
      (popHeader cachedPaymentProofHeader (updateHeaders [] cached.headers))) :=
    (hides_popHeader _).setHeader (by decide)
  have hheaders := hmarked.updateHeaders h
  unfold replayHeaders
  dsimp only
  split_ifs
  · exact hheaders
  · exact hheaders.setHeader (by decide)

/-- What a replay sends. -/
theorem replayResponse_eq_ok {env : Env} {request : HttpRequest} {cached : IdempotencyResponse}
    {paymentSignature : Option String} {overrides : Headers} {response : HttpResponse} :
    replayResponse env request cached paymentSignature overrides = .ok response ↔
      ∃ body, replayBody env.readFloat request.requestId cached.body = some body ∧
        checkProof env.sha256 (getHeader cachedPaymentProofHeader (updateHeaders [] cached.headers)) paymentSignature =
          .ok () ∧
        response = ⟨cached.statusCode, replayHeaders cached overrides, body⟩ := by
  unfold replayResponse
  rcases replayBody env.readFloat request.requestId cached.body with _ | body
  · simp [bind, Except.bind]
  simp only [Option.elim_some, bind_eq_ok, mapError_eq_ok, pure_eq_ok]
  constructor
  · rintro ⟨_, ⟨⟩, ⟨⟩, hproof, rfl⟩
    exact ⟨body, rfl, hproof, rfl⟩
  · rintro ⟨_, ⟨⟩, hproof, rfl⟩
    exact ⟨body, rfl, (), hproof, rfl⟩

/-- A replay fails with an error that declines. -/
theorem replayResponse_declines (env : Env) (request : HttpRequest) (cached : IdempotencyResponse)
    (paymentSignature : Option String) (overrides : Headers) :
    FailsWith Raised.Declines (replayResponse env request cached paymentSignature overrides) := by
  have hproof : ∀ expected, FailsWith PaymentError.Declines (checkProof env.sha256 expected paymentSignature) := by
    intro expected
    unfold checkProof
    split
    · exact .ok ()
    · exact .error (by decide)
    · exact assertReplayProof_declines _ _
  exact .bind (.elim trivial .ok) fun _ => .bind (.mapError (hproof _) fun _ h => h) fun _ => .ok _

/-! ## Failures -/

/-- The facilitator raises no `PaymentError` with another status than that of an HTTP error. -/
def Action.Declines : Action → Prop
  | .verifyAnswer answer => answer.Declines
  | .settleAnswer answer => answer.Declines
  | _ => True

instance : DecidablePred Action.Declines
  | .verifyAnswer answer => inferInstanceAs (Decidable answer.Declines)
  | .settleAnswer answer => inferInstanceAs (Decidable answer.Declines)
  | .arrive .. | .preflight | .claim _ | .build _ | .settle | .finish | .abort | .cancel => isTrue trivial

theorem preflightTransaction_declines (env : Env) (payload : Json) :
    FailsWith Raised.Declines ((Preflight.preflightTransaction env.preflight payload).mapError .ofFailure) :=
  .mapError (P := fun _ => True) (fun _ _ => trivial) fun e _ => ofFailure_declines e

theorem canonicalRequestFingerprint_declines (env : Env) (payload : Json) :
    FailsWith Raised.Declines (canonicalRequestFingerprint env payload) := by
  unfold canonicalRequestFingerprint
  split
  · exact .error trivial
  · exact .ok _

theorem checkRequest_declines (env : Env) (now : ℚ) (task : Task) :
    FailsWith Raised.Declines (checkRequest env now task) := by
  refine .bind (preflightTransaction_declines env _) fun baseline => ?_
  rcases task.route with _ | _ | _
  · exact .ok _
  · exact .ok _
  · exact .bind (.rejectIf trivial) fun _ => .bind (.mapError (checkPayment_declines _ _ _) fun _ h => h) fun _ => .ok _

theorem bindVerifiedSource_declines (env : Env) (payload : Json) (baseline : Preflight.PreflightResult)
    (answer : ResolverAnswer) : FailsWith Raised.Declines (bindVerifiedSource env payload baseline answer) := by
  unfold bindVerifiedSource
  split_ifs
  · exact .ok _
  rcases answer with e | exception | source
  · exact .error trivial
  · exact .error trivial
  · refine .bind (.rejectIf trivial) fun _ => .bind (.rejectIf trivial) fun _ => .bind (.elim trivial .ok) fun _ => ?_
    exact .bind (.elim trivial .ok) fun _ => .bind (preflightTransaction_declines env _) fun _ => .ok _

theorem buildBody_declines (env : Env) (task : Task) (baseline : Preflight.PreflightResult) (answer : ResolverAnswer) :
    FailsWith Raised.Declines (buildBody env task baseline answer) := by
  refine .bind (bindVerifiedSource_declines env _ _ _) fun _ => .bind (.elim trivial .ok) fun _ => ?_
  exact .bind (.rejectIf trivial) fun _ => .ok _

/-! ## The cases -/

/-- The request takes the path of a paying client. -/
def PaidPath (env : Env) (request : HttpRequest) : Prop :=
  env.settings.accessMode.usesX402 = true ∧ (request.apiKey.isSome && env.settings.accessMode.usesApiKeys) = false

/-- The cases of `afterReserve`. -/
inductive Admission (env : Env) (request : HttpRequest) (outcome : StoreOutcome ℚ) (admitted : Reservation ℚ → Task)
    (replay : IdempotencyResponse → Except Raised HttpResponse) : List Emission × Phase → Prop
  | issued (reservation : Reservation ℚ) (h : outcome = .decided (.reserved reservation)) :
      Admission env request outcome admitted replay ([], .admitted (admitted reservation))
  | replayed (cached : IdempotencyResponse) (response : HttpResponse) (h : outcome = .decided (.replay cached))
      (hreplay : replay cached = .ok response) :
      Admission env request outcome admitted replay ([.respond response], .finished)
  | refused (e : Raised) (h : ∀ reservation, outcome ≠ .decided (.reserved reservation)) (hdeclines : e.Declines) :
      Admission env request outcome admitted replay ([.respond (problem env request.requestId e)], .finished)

/-- A reservation is decided, or it raises. -/
theorem reserveIn_outcome (env : Env) (now : ℚ) (cfg : StoreConfig ℚ) (store : Store ℚ) (tenantId : String)
    (key : Option String) (fingerprint token : String) :
    (∃ decision, (reserveIn env now cfg store tenantId key fingerprint token).1.2 = .decided decision) ∨
      ∃ e, (reserveIn env now cfg store tenantId key fingerprint token).1.2 = .raised e := by
  unfold reserveIn IdempotencyStore.step IdempotencyStore.finish
  dsimp only
  split
  · exact .inl ⟨_, rfl⟩
  · exact .inr ⟨_, rfl⟩

theorem afterReserve_case {env : Env} {request : HttpRequest} {outcome : StoreOutcome ℚ}
    (houtcome : (∃ decision, outcome = .decided decision) ∨ ∃ e, outcome = .raised e) (admitted : Reservation ℚ → Task)
    {replay : IdempotencyResponse → Except Raised HttpResponse}
    (hdeclines : ∀ cached, FailsWith Raised.Declines (replay cached)) :
    Admission env request outcome admitted replay (afterReserve env request outcome admitted replay) := by
  obtain ⟨reservation | cached, rfl⟩ | ⟨e, rfl⟩ := houtcome
  · exact .issued reservation rfl
  · rcases hreplay : replay cached with e | response
    · simpa [afterReserve, hreplay] using .refused e nofun (hdeclines cached e hreplay)
    · simpa [afterReserve, hreplay] using .replayed cached response rfl hreplay
  · exact .refused _ nofun (ofStore_declines e)

/-- What is stored of a settlement. -/
def settlementOutcome (env : Env) (task : Task) (body : Bytes) (paid : Paid) (answer : FacilitatorAnswer SettleResponse) :
    Except String IdempotencyResponse :=
  match receiptOf env.x402 env.settings.payment paid.payment answer with
  | .error e => failureOutcome env task.request.requestId paid.payment e
  | .ok receipt => settledOutcome receipt paid.payment body

/-- What is sent of a settlement. -/
def settlementResponse (env : Env) (task : Task) (body : Bytes) (paid : Paid)
    (answer : FacilitatorAnswer SettleResponse) : HttpResponse :=
  match receiptOf env.x402 env.settings.payment paid.payment answer with
  | .error e => problem env task.request.requestId (.payment e)
  | .ok receipt => ⟨200, settledHeaders receipt, body⟩

/-- What the end of a failed request emits. -/
theorem mem_abort {env : Env} {s : Runtime} {id : ℕ} {now : ℚ} {task : Task} {claim : Option (Reservation ℚ)}
    {error : Raised} {x : Emission} (h : x ∈ (abort env s id now task claim error).1) :
    (∃ n call, StoreName.call? n x = some call) ∨ x = .respond (problem env task.request.requestId error) := by
  have hkey : ∀ {route}, x ∈ (abortKey env s now route).1 → ∃ n call, StoreName.call? n x = some call := by
    rintro (_ | _ | _) hx
    · exact absurd hx List.not_mem_nil
    · exact ⟨.access, _, by rw [List.mem_singleton.mp hx]; rfl⟩
    · exact ⟨.result, _, by rw [List.mem_singleton.mp hx]; rfl⟩
  have hclaim : ∀ {s}, x ∈ (abortClaim env s now claim).1 → ∃ n call, StoreName.call? n x = some call := by
    intro s hx
    rcases claim with _ | _
    · exact absurd hx List.not_mem_nil
    · exact ⟨.claim, _, by rw [List.mem_singleton.mp hx]; rfl⟩
  rcases List.mem_append.mp h with h | h
  · rcases List.mem_append.mp h with h | h
    · exact .inl (hkey h)
    · exact .inl (hclaim h)
  · exact .inr (List.mem_singleton.mp h)

/-- What a step does: the phase it finds, what it emits, and the runtime it leaves. -/
inductive StepCase (env : Env) (s : Runtime) (i : Step) : List Emission × Runtime → Prop
  | refused (response : HttpResponse) (hphase : s.phase i.id = .idle) (h : Refusal response) :
      StepCase env s i ([.respond response], s.setPhase i.id .finished)
  | opened (request : HttpRequest) (token : String) (quota : QuotaAnswer) (fingerprint : String)
      (hphase : s.phase i.id = .idle) (haction : i.action = .arrive request token quota)
      (hfingerprint : canonicalRequestFingerprint env request.payload = .ok fingerprint)
      (hpath : ¬ PaidPath env request) :
      StepCase env s i ([], s.setPhase i.id (.admitted ⟨request, fingerprint, .open⟩))
  | keyed (request : HttpRequest) (token : String) (quota : QuotaAnswer) (fingerprint tenantId : String)
      (headers : Headers) (emitted : List Emission) (phase : Phase)
      (hphase : s.phase i.id = .idle) (haction : i.action = .arrive request token quota)
      (hfingerprint : canonicalRequestFingerprint env request.payload = .ok fingerprint)
      (hpath : ¬ PaidPath env request) (hheaders : Hides headers)
      (hcase : Admission env request
        (reserveIn env i.now accessConfig s.access tenantId request.idempotencyKey fingerprint token).1.2
        (fun r => ⟨request, fingerprint, .apiKey headers r⟩)
        (fun cached => replayResponse env request cached none headers) (emitted, phase)) :
      StepCase env s i
        (.access (reserveIn env i.now accessConfig s.access tenantId request.idempotencyKey fingerprint token).1 ::
          emitted,
        { s with access :=
            (reserveIn env i.now accessConfig s.access tenantId request.idempotencyKey fingerprint token).2
          }.setPhase i.id phase)
  | paying (request : HttpRequest) (token : String) (quota : QuotaAnswer) (fingerprint signature : String)
      (emitted : List Emission) (phase : Phase)
      (hphase : s.phase i.id = .idle) (haction : i.action = .arrive request token quota)
      (hfingerprint : canonicalRequestFingerprint env request.payload = .ok fingerprint)
      (hpath : PaidPath env request) (hsignature : request.paymentSignature = some signature)
      (hcase : Admission env request
        (reserveIn env i.now paymentIdempotencyConfig s.paymentIdempotency "x402" request.idempotencyKey fingerprint
          token).1.2
        (fun r => ⟨request, fingerprint, .x402 signature r⟩)
        (fun cached => replayResponse env request cached (some signature) []) (emitted, phase)) :
      StepCase env s i
        (.result (reserveIn env i.now paymentIdempotencyConfig s.paymentIdempotency "x402" request.idempotencyKey
          fingerprint token).1 :: emitted,
        { s with paymentIdempotency :=
            (reserveIn env i.now paymentIdempotencyConfig s.paymentIdempotency "x402" request.idempotencyKey
              fingerprint token).2
          }.setPhase i.id phase)
  | rejected (task : Task) (e : Raised) (hphase : s.phase i.id = .admitted task) (hdeclines : e.Declines) :
      StepCase env s i ([], s.setPhase i.id (.failing task none e))
  | passed (task : Task) (baseline : Preflight.PreflightResult) (hphase : s.phase i.id = .admitted task)
      (hcheck : checkRequest env i.now task = .ok (baseline, none)) :
      StepCase env s i ([], s.setPhase i.id (.ready task baseline none))
  | offered (task : Task) (baseline : Preflight.PreflightResult) (payment : VerifiedPayment)
      (hphase : s.phase i.id = .admitted task) (haction : i.action = .preflight)
      (hcheck : checkRequest env i.now task = .ok (baseline, some payment)) :
      StepCase env s i ([.verify payment.payload], s.setPhase i.id (.verifying task baseline payment))
  | unverified (task : Task) (baseline : Preflight.PreflightResult) (payment : VerifiedPayment) (e : Raised)
      (hphase : s.phase i.id = .verifying task baseline payment) (hdeclines : i.action.Declines → e.Declines) :
      StepCase env s i ([], s.setPhase i.id (.failing task none e))
  | verified (task : Task) (baseline : Preflight.PreflightResult) (payment accepted : VerifiedPayment)
      (answer : FacilitatorAnswer VerifyResponse) (hphase : s.phase i.id = .verifying task baseline payment)
      (haction : i.action = .verifyAnswer answer) (haccept : acceptVerification payment answer = .ok accepted) :
      StepCase env s i ([], s.setPhase i.id (.verified task baseline accepted))
  | claimed (task : Task) (baseline : Preflight.PreflightResult) (payment : VerifiedPayment) (token : String)
      (reservation : Reservation ℚ) (hphase : s.phase i.id = .verified task baseline payment)
      (haction : i.action = .claim token)
      (hcall : (reserveIn env i.now paymentClaimsConfig s.paymentClaims "x402-authorization"
        (some payment.authorizationFingerprint) task.requestFingerprint token).1.2 = .decided (.reserved reservation)) :
      StepCase env s i
        ([.claim (reserveIn env i.now paymentClaimsConfig s.paymentClaims "x402-authorization"
          (some payment.authorizationFingerprint) task.requestFingerprint token).1],
        { s with paymentClaims :=
            (reserveIn env i.now paymentClaimsConfig s.paymentClaims "x402-authorization"
              (some payment.authorizationFingerprint) task.requestFingerprint token).2
          }.setPhase i.id (.ready task baseline (some ⟨payment, reservation⟩)))
  | unclaimed (task : Task) (baseline : Preflight.PreflightResult) (payment : VerifiedPayment) (token : String)
      (e : Raised) (hphase : s.phase i.id = .verified task baseline payment) (haction : i.action = .claim token)
      (hcall : ∀ reservation, (reserveIn env i.now paymentClaimsConfig s.paymentClaims "x402-authorization"
        (some payment.authorizationFingerprint) task.requestFingerprint token).1.2 ≠ .decided (.reserved reservation))
      (hdeclines : e.Declines) :
      StepCase env s i
        ([.claim (reserveIn env i.now paymentClaimsConfig s.paymentClaims "x402-authorization"
          (some payment.authorizationFingerprint) task.requestFingerprint token).1],
        { s with paymentClaims :=
            (reserveIn env i.now paymentClaimsConfig s.paymentClaims "x402-authorization"
              (some payment.authorizationFingerprint) task.requestFingerprint token).2
          }.setPhase i.id (.failing task none e))
  | unbound (task : Task) (baseline : Preflight.PreflightResult) (paid : Option Paid) (e : Raised)
      (hphase : s.phase i.id = .ready task baseline paid) (hdeclines : e.Declines) :
      StepCase env s i ([], s.setPhase i.id (.failing task (paid.map Paid.claim) e))
  | built (task : Task) (baseline : Preflight.PreflightResult) (paid : Option Paid) (answer : ResolverAnswer)
      (body : Bytes) (hphase : s.phase i.id = .ready task baseline paid) (haction : i.action = .build answer)
      (hbody : buildBody env task baseline answer = .ok body) :
      StepCase env s i ([], s.setPhase i.id (.built task body paid))
  | submitted (task : Task) (body : Bytes) (paid : Paid) (hphase : s.phase i.id = .built task body (some paid))
      (haction : i.action = .settle)
      (hcall : (commitIn env i.now paymentClaimsConfig s.paymentClaims paid.claim tombstone).1.2 = .committed) :
      StepCase env s i
        ([.claim (commitIn env i.now paymentClaimsConfig s.paymentClaims paid.claim tombstone).1, .settle paid.payment],
        { s with paymentClaims := (commitIn env i.now paymentClaimsConfig s.paymentClaims paid.claim tombstone).2
          }.setPhase i.id (.settling task body paid))
  | unsubmitted (task : Task) (body : Bytes) (paid : Paid) (e : Raised)
      (hphase : s.phase i.id = .built task body (some paid))
      (hcall : (commitIn env i.now paymentClaimsConfig s.paymentClaims paid.claim tombstone).1.2 ≠ .committed)
      (hdeclines : e.Declines) :
      StepCase env s i
        ([.claim (commitIn env i.now paymentClaimsConfig s.paymentClaims paid.claim tombstone).1],
        { s with paymentClaims := (commitIn env i.now paymentClaimsConfig s.paymentClaims paid.claim tombstone).2
          }.setPhase i.id (.failing task (some paid.claim) e))
  | lost (task : Task) (body : Bytes) (paid : Paid) (answer : FacilitatorAnswer SettleResponse) (message : String)
      (hphase : s.phase i.id = .settling task body paid) (haction : i.action = .settleAnswer answer)
      (houtcome : settlementOutcome env task body paid answer = .error message) :
      StepCase env s i
        ([.respond (problem env task.request.requestId (.internal "ValueError"))], s.setPhase i.id .finished)
  | settled (task : Task) (body : Bytes) (paid : Paid) (answer : FacilitatorAnswer SettleResponse) (signature : String)
      (reservation : Reservation ℚ) (outcome : IdempotencyResponse) (response : HttpResponse)
      (hphase : s.phase i.id = .settling task body paid) (haction : i.action = .settleAnswer answer)
      (hroute : task.route = .x402 signature reservation)
      (houtcome : settlementOutcome env task body paid answer = .ok outcome)
      (hresponse : response = settlementResponse env task body paid answer ∨ Refusal response) :
      StepCase env s i
        ([.result (commitIn env i.now paymentIdempotencyConfig s.paymentIdempotency reservation outcome).1,
          .respond response],
        { s with paymentIdempotency :=
            (commitIn env i.now paymentIdempotencyConfig s.paymentIdempotency reservation outcome).2
          }.setPhase i.id .finished)
  | completed (task : Task) (body : Bytes) (hphase : s.phase i.id = .built task body none)
      (hroute : ∀ headers reservation, task.route ≠ .apiKey headers reservation) :
      StepCase env s i ([.respond ⟨200, completionHeaders task.route, body⟩], s.setPhase i.id .finished)
  | unstorable (task : Task) (body : Bytes) (e : Raised) (hphase : s.phase i.id = .built task body none)
      (hdeclines : e.Declines) :
      StepCase env s i ([], s.setPhase i.id (.failing task none e))
  | stored (task : Task) (body : Bytes) (headers : Headers) (reservation : Reservation ℚ) (cached : IdempotencyResponse)
      (hphase : s.phase i.id = .built task body none) (haction : i.action = .finish)
      (hroute : task.route = .apiKey headers reservation) :
      StepCase env s i
        ([.access (commitIn env i.now accessConfig s.access reservation cached).1,
          .respond ⟨200, completionHeaders task.route, body⟩],
        { s with access := (commitIn env i.now accessConfig s.access reservation cached).2 }.setPhase i.id .finished)
  | miscounted (task : Task) (body : Bytes) (headers : Headers) (reservation : Reservation ℚ)
      (cached : IdempotencyResponse) (e : Raised) (hphase : s.phase i.id = .built task body none)
      (hroute : task.route = .apiKey headers reservation)
      (hcall : (commitIn env i.now accessConfig s.access reservation cached).1.2 ≠ .committed)
      (hdeclines : e.Declines) :
      StepCase env s i
        ([.access (commitIn env i.now accessConfig s.access reservation cached).1],
        { s with access := (commitIn env i.now accessConfig s.access reservation cached).2
          }.setPhase i.id (.failing task none e))
  | unstored (task : Task) (body : Bytes) (headers : Headers) (reservation : Reservation ℚ)
      (cached : IdempotencyResponse) (hphase : s.phase i.id = .built task body none)
      (hroute : task.route = .apiKey headers reservation)
      (hcall : (commitIn env i.now accessConfig s.access reservation cached).1.2 ≠ .committed) :
      StepCase env s i
        ([.access (commitIn env i.now accessConfig s.access reservation cached).1,
          .access (abortIn env i.now accessConfig
            (commitIn env i.now accessConfig s.access reservation cached).2 reservation).1,
          .respond ⟨200, completionHeaders task.route, body⟩],
        { s with access := (abortIn env i.now accessConfig
            (commitIn env i.now accessConfig s.access reservation cached).2 reservation).2 }.setPhase i.id .finished)
  | aborted (task : Task) (claim : Option (Reservation ℚ)) (error : Raised)
      (hphase : s.phase i.id = .failing task claim error) (haction : i.action = .abort) :
      StepCase env s i (abort env s i.id i.now task claim error)
  | cancelled (haction : i.action = .cancel) : StepCase env s i ([], s.setPhase i.id .finished)
  | ignored (haction : ∀ request token quota, i.action = .arrive request token quota → s.phase i.id ≠ .idle) :
      StepCase env s i ([], s)

section Cases

variable {env : Env} {s : Runtime} {i : Step}

theorem arriveApiKey_case {request : HttpRequest} {token fingerprint : String} {quota : QuotaAnswer}
    (hphase : s.phase i.id = .idle) (haction : i.action = .arrive request token quota)
    (hfingerprint : canonicalRequestFingerprint env request.payload = .ok fingerprint)
    (hpath : ¬ PaidPath env request) :
    StepCase env s i (arriveApiKey env s i.id i.now request fingerprint token quota) := by
  unfold arriveApiKey
  rcases authenticate env.sha256 env.settings.tenants request.apiKey with _ | tenantId
  · exact .refused _ hphase (problem_refusal _ _ (e := .access _) trivial)
  rcases quota with ⟨limit, remaining, reset⟩ | ⟨limit, remaining, retry⟩
  · refine .keyed request token _ fingerprint tenantId _ _ _ hphase haction hfingerprint hpath ?_
      (afterReserve_case (reserveIn_outcome ..) _ fun _ => replayResponse_declines env _ _ _ _)
    intro header hmem
    simp only [quotaHeaders, List.mem_cons, List.not_mem_nil, or_false] at hmem
    rcases hmem with rfl | rfl | rfl | rfl <;> simp [cachedPaymentProofHeader]
  · exact .refused _ hphase (problem_refusal _ _ (e := .access _) trivial)

theorem arriveX402_case {request : HttpRequest} {token fingerprint : String} {quota : QuotaAnswer}
    (hphase : s.phase i.id = .idle) (haction : i.action = .arrive request token quota)
    (hfingerprint : canonicalRequestFingerprint env request.payload = .ok fingerprint)
    (hpath : PaidPath env request) :
    StepCase env s i (arriveX402 env s i.id i.now request fingerprint token) := by
  unfold arriveX402
  rcases hsignature : request.paymentSignature with _ | signature
  · exact .refused _ hphase (paymentRequired_refusal env request)
  · exact .paying request token quota fingerprint signature _ _ hphase haction hfingerprint hpath hsignature
      (afterReserve_case (reserveIn_outcome ..) _ fun _ => replayResponse_declines env _ _ _ _)

theorem arrive_case {request : HttpRequest} {token : String} {quota : QuotaAnswer} (hphase : s.phase i.id = .idle)
    (haction : i.action = .arrive request token quota) :
    StepCase env s i (arrive env s i.id i.now request token quota) := by
  unfold arrive
  rcases hfingerprint : canonicalRequestFingerprint env request.payload with e | fingerprint
  · exact .refused _ hphase (problem_refusal _ _ (canonicalRequestFingerprint_declines env _ e hfingerprint))
  dsimp only
  split
  · exact .refused _ hphase (notConfigured_refusal env request)
  · rename_i hmode
    refine .opened request token quota fingerprint hphase haction hfingerprint fun hpath => ?_
    rw [PaidPath, hmode] at hpath
    exact nomatch hpath.1
  · rename_i hdisabled hopen
    split_ifs with hkey hmode
    · refine arriveApiKey_case hphase haction hfingerprint fun hpath => ?_
      rw [hpath.2] at hkey
      exact nomatch hkey
    · exact .refused _ hphase (problem_refusal _ _ (e := .access _) trivial)
    · refine arriveX402_case hphase haction hfingerprint ⟨?_, Bool.eq_false_iff.mpr hkey⟩
      rcases hcase : env.settings.accessMode
      · exact absurd hcase hdisabled
      · exact absurd hcase hopen
      · exact absurd hcase hmode
      · rfl
      · rfl

theorem preflight_case {task : Task} (hphase : s.phase i.id = .admitted task) (haction : i.action = .preflight) :
    StepCase env s i (preflight env s i.id i.now task) := by
  unfold preflight
  rcases hcheck : checkRequest env i.now task with e | ⟨baseline, _ | payment⟩
  · exact .rejected task e hphase (checkRequest_declines env i.now task e hcheck)
  · exact .passed task baseline hphase hcheck
  · exact .offered task baseline payment hphase haction hcheck

theorem verifyAnswer_case {task : Task} {baseline : Preflight.PreflightResult} {payment : VerifiedPayment}
    {answer : FacilitatorAnswer VerifyResponse} (hphase : s.phase i.id = .verifying task baseline payment)
    (haction : i.action = .verifyAnswer answer) :
    StepCase env s i (verifyAnswer s i.id task baseline payment answer) := by
  unfold verifyAnswer
  rcases haccept : acceptVerification payment answer with e | accepted
  · refine .unverified task baseline payment _ hphase fun hdeclines => ?_
    rw [haction] at hdeclines
    exact acceptVerification_declines hdeclines e haccept
  · exact .verified task baseline payment accepted answer hphase haction haccept

theorem claim_case {task : Task} {baseline : Preflight.PreflightResult} {payment : VerifiedPayment} {token : String}
    (hphase : s.phase i.id = .verified task baseline payment) (haction : i.action = .claim token) :
    StepCase env s i (claim env s i.id i.now task baseline payment token) := by
  have hclaimed := fun r => @StepCase.claimed env s i task baseline payment token r hphase haction
  have hunclaimed := fun e => @StepCase.unclaimed env s i task baseline payment token e hphase haction
  unfold claim
  dsimp only
  obtain ⟨reservation | cached, hcall⟩ | ⟨e, hcall⟩ := reserveIn_outcome env i.now paymentClaimsConfig s.paymentClaims
    "x402-authorization" (some payment.authorizationFingerprint) task.requestFingerprint token
  · rw [hcall]
    exact hclaimed reservation hcall
  · rw [hcall]
    exact hunclaimed _ (by simp [hcall]) (by decide : authorizationAlreadyUsed.Declines)
  · rw [hcall]
    exact hunclaimed _ (by simp [hcall]) (ofStore_declines e)

theorem build_case {task : Task} {baseline : Preflight.PreflightResult} {paid : Option Paid} {answer : ResolverAnswer}
    (hphase : s.phase i.id = .ready task baseline paid) (haction : i.action = .build answer) :
    StepCase env s i (build env s i.id task baseline paid answer) := by
  unfold build
  rcases hbody : buildBody env task baseline answer with e | body
  · exact .unbound task baseline paid e hphase (buildBody_declines env task baseline answer e hbody)
  · exact .built task baseline paid answer body hphase haction hbody

theorem settle_case {task : Task} {body : Bytes} {paid : Paid} (hphase : s.phase i.id = .built task body (some paid))
    (haction : i.action = .settle) : StepCase env s i (settle env s i.id i.now task body paid) := by
  unfold settle
  dsimp only
  have hends : (commitIn env i.now paymentClaimsConfig s.paymentClaims paid.claim tombstone).1.2 = .committed ∨
      ∃ e, (commitIn env i.now paymentClaimsConfig s.paymentClaims paid.claim tombstone).1.2 = .raised e := by
    unfold commitIn IdempotencyStore.step IdempotencyStore.finish
    dsimp only
    split
    · exact .inl rfl
    · exact .inr ⟨_, rfl⟩
  obtain hcall | ⟨e, hcall⟩ := hends
  · rw [hcall]
    exact .submitted task body paid hphase haction hcall
  · rw [hcall]
    exact .unsubmitted task body paid _ hphase (by simp [hcall]) (ofStore_declines e)

theorem settleAnswer_case {task : Task} {body : Bytes} {paid : Paid} {answer : FacilitatorAnswer SettleResponse}
    (hphase : s.phase i.id = .settling task body paid) (haction : i.action = .settleAnswer answer) :
    StepCase env s i (settleAnswer env s i.id i.now task body paid answer) := by
  have hignored : StepCase env s i ([], s) := .ignored (by simp [haction])
  unfold settleAnswer
  split
  · next signature reservation hroute =>
    have hcommit : ∀ outcome response, settlementOutcome env task body paid answer = outcome →
        response = settlementResponse env task body paid answer ∨ Refusal response →
        StepCase env s i (commitOutcome env s i.id i.now task reservation outcome response) := by
      intro outcome response houtcome hresponse
      unfold commitOutcome
      rcases outcome with message | outcome
      · exact .lost task body paid answer message hphase haction houtcome
      · refine .settled task body paid answer signature reservation outcome _ hphase haction hroute houtcome ?_
        split
        · exact .inr (problem_refusal _ _ (e := .internal _) trivial)
        · exact hresponse
    split
    · next e hreceipt =>
      exact hcommit _ _ (by rw [settlementOutcome, hreceipt]) (.inl (by rw [settlementResponse, hreceipt]))
    · next receipt hreceipt =>
      exact hcommit _ _ (by rw [settlementOutcome, hreceipt]) (.inl (by rw [settlementResponse, hreceipt]))
  · exact hignored

theorem finish_case {task : Task} {body : Bytes} (hphase : s.phase i.id = .built task body none)
    (haction : i.action = .finish) : StepCase env s i (finish env s i.id i.now task body) := by
  unfold finish
  dsimp only
  split
  · next headers reservation hroute =>
    split
    · exact .unstorable task body _ hphase trivial
    · next cached _ =>
      split
      · exact .stored task body headers reservation cached hphase haction hroute
      · next hcall => exact .miscounted task body headers reservation cached _ hphase hroute (by simp [hcall]) trivial
      · next hcall _ => exact .unstored task body headers reservation cached hphase hroute hcall
  · next hroute => exact .completed task body hphase hroute

/-- **Inversion** of a step. -/
theorem step_case (env : Env) (s : Runtime) (i : Step) : StepCase env s i (step env s i) := by
  unfold step
  split
  · next hphase haction => exact arrive_case hphase haction
  · next hphase haction => exact preflight_case hphase haction
  · next hphase haction => exact verifyAnswer_case hphase haction
  · next hphase haction => exact claim_case hphase haction
  · next hphase haction => exact build_case hphase haction
  · next hphase haction => exact settle_case hphase haction
  · next hphase haction => exact finish_case hphase haction
  · next hphase haction => exact settleAnswer_case hphase haction
  · next hphase haction => exact .aborted _ _ _ hphase haction
  · next haction => exact .cancelled haction
  · next harrive _ _ _ _ _ _ _ _ =>
    exact .ignored fun request token quota haction hphase => harrive request token quota hphase haction

end Cases

end Lucent.Hosted
