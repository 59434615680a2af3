import Lucent.Hosted.Outcome
import Lucent.Hosted.Settlement

/-!
# Lucent.Hosted.Terminal — after submission a settlement is final

* `Consistent`: a receipt over the configured terms, for the payer of the authorization.
* `receiptOf_terminal`: every failure after the submission is terminal and not to be retried.
* `WithoutRetryAfter`: headers that ask for no retry; what a terminal failure is answered with, what is stored of it,
  and every replay of that, have such headers.
* `settle_consistent_or_terminal`: both, for every behaviour of the facilitator.
-/

namespace Lucent.Payments

open Lucent.Lib

variable {sha256 : Bytes → Bytes} {x402 : X402} {cfg : PaymentConfig} {facilitator : FacilitatorClient}
  {payment : VerifiedPayment}

/-- A receipt over the configured terms, for the payer of the authorization. -/
structure Consistent (cfg : PaymentConfig) (payment : VerifiedPayment) (receipt : PaymentReceipt) : Prop where
  network : receipt.network = cfg.network
  amount : receipt.amount = cfg.amount
  transaction : txHashRe receipt.transaction = true
  payer : ∃ a, readAuthorization payment.payload cfg.requirements = .ok a ∧ lowerAscii receipt.payer = lowerAscii a.payer

/-- A failure after the submission. -/
structure Terminal (e : PaymentError) : Prop where
  terminal : e.terminal = true
  retryable : e.retryable = false

/-- A payment that was verified passed the checks. -/
theorem verify_eq_ok {paymentSignature : String} {paymentIdentifier : Option String} {now : ℚ}
    (h : PaymentGateway.verify sha256 x402 cfg facilitator paymentSignature paymentIdentifier now = .ok payment) :
    ∃ a, CheckedPayment sha256 x402 cfg paymentSignature now payment a := by
  obtain ⟨checked, hchecked, h⟩ := bind_eq_ok.mp h
  obtain ⟨rfl, -⟩ := acceptVerification_eq_ok h
  exact checkPayment_eq_ok hchecked

/-- An enabled gateway submits. -/
theorem settle_eq (henabled : cfg.enabled = true) (facilitator : FacilitatorClient) (payment : VerifiedPayment) :
    PaymentGateway.settle x402 cfg facilitator payment =
      receiptOf x402 cfg payment (facilitator.settle payment.payload cfg.requirements) := by
  unfold PaymentGateway.settle requireEnabled rejectIf
  rw [if_neg (by simp [henabled])]
  rfl

/-- What a receipt says, by the answer it stands for. -/
theorem receiptOf_fields {answer : FacilitatorAnswer SettleResponse} {receipt : PaymentReceipt}
    (h : receiptOf x402 cfg payment answer = .ok receipt) : ∃ settled, Settled cfg payment settled ∧
      receipt.payer = settled.payer.getD payment.payer ∧ receipt.transaction = settled.transaction ∧
      receipt.network = settled.network ∧ receipt.amount = settled.amount.getD cfg.amount := by
  obtain ⟨settled, rfl, hsettled⟩ := receiptOf_eq_ok h
  iterate 7 obtain ⟨-, h⟩ := rejectIf_bind_eq_ok.mp h
  obtain rfl := pure_eq_ok.mp h
  exact ⟨settled, hsettled, rfl, rfl, rfl, rfl⟩

/-- A receipt is over the configured terms. -/
theorem receiptOf_consistent {answer : FacilitatorAnswer SettleResponse} {receipt : PaymentReceipt} {a : Authorization}
    (hauthorization : readAuthorization payment.payload cfg.requirements = .ok a) (hpayer : payment.payer = a.payer)
    (h : receiptOf x402 cfg payment answer = .ok receipt) : Consistent cfg payment receipt := by
  obtain ⟨settled, hsettled, hreceiptPayer, htransaction, hnetwork, hamount⟩ := receiptOf_fields h
  refine ⟨hnetwork.trans hsettled.network, ?_, by rw [htransaction]; exact hsettled.transaction, a, hauthorization, ?_⟩
  · rw [hamount]
    rcases hsome : settled.amount with _ | amount
    · rfl
    · exact hsettled.amount amount hsome
  · rw [hreceiptPayer, ← hpayer]
    rcases hsome : settled.payer with _ | payer
    · rfl
    · exact (hsettled.payer payer hsome).2

/-- Every failure after the submission is terminal. -/
theorem receiptOf_terminal {answer : FacilitatorAnswer SettleResponse} {e : PaymentError}
    (h : receiptOf x402 cfg payment answer = .error e) : Terminal e := by
  rcases answer with raised | _ | settled
  · obtain rfl := Except.error.inj h
    exact ⟨rfl, rfl⟩
  · obtain rfl := Except.error.inj h
    exact ⟨rfl, rfl⟩
  -- the checks of an answer, in source order
  · obtain rfl | h := rejectIf_bind_eq_error h
    · exact ⟨rfl, rfl⟩
    obtain rfl | h := rejectIf_bind_eq_error h
    · exact ⟨rfl, rfl⟩
    obtain rfl | h := rejectIf_bind_eq_error h
    · exact ⟨rfl, rfl⟩
    obtain rfl | h := rejectIf_bind_eq_error h
    · exact ⟨rfl, rfl⟩
    obtain rfl | h := rejectIf_bind_eq_error h
    · exact ⟨rfl, rfl⟩
    obtain rfl | h := rejectIf_bind_eq_error h
    · exact ⟨rfl, rfl⟩
    obtain rfl | h := rejectIf_bind_eq_error h
    · exact ⟨rfl, rfl⟩
    · exact nomatch h

end Lucent.Payments

namespace Lucent.Hosted

open Lucent.Lib Lucent.Access Lucent.Payments

variable {env : Env} {payment : VerifiedPayment} {e : PaymentError}

/-! ## Headers that ask for no retry -/

/-- No header asks for a retry, whatever its letter case. -/
def WithoutRetryAfter (headers : Headers) : Prop := ∀ header ∈ headers, lowerAscii header.1 ≠ "retry-after"

namespace WithoutRetryAfter

variable {headers others : Headers}

theorem nil : WithoutRetryAfter [] := fun _ h => absurd h List.not_mem_nil

theorem cons {name value : String} (hname : lowerAscii name ≠ "retry-after") (h : WithoutRetryAfter headers) :
    WithoutRetryAfter ((name, value) :: headers) := by
  intro header hmem
  rcases List.mem_cons.mp hmem with rfl | hmem
  · exact hname
  · exact h header hmem

theorem setHeader {name : String} (hname : lowerAscii name ≠ "retry-after") (value : String)
    (h : WithoutRetryAfter headers) : WithoutRetryAfter (setHeader name value headers) := by
  intro header hmem
  rcases mem_setHeader hmem with rfl | hmem
  · exact hname
  · exact h header hmem

theorem updateHeaders (h : WithoutRetryAfter headers) (ho : WithoutRetryAfter others) :
    WithoutRetryAfter (updateHeaders headers others) := by
  intro header hmem
  rcases mem_updateHeaders hmem with hmem | hmem
  · exact h header hmem
  · exact ho header hmem

theorem popHeader (name : String) (h : WithoutRetryAfter headers) : WithoutRetryAfter (popHeader name headers) :=
  fun header hmem => h header (List.mem_of_mem_filter hmem)

/-- The replay of an outcome adds no such header. -/
theorem replayHeaders {cached : IdempotencyResponse} (h : WithoutRetryAfter cached.headers) :
    WithoutRetryAfter (replayHeaders cached []) := by
  have hbase : WithoutRetryAfter (Hosted.setHeader "Idempotency-Replayed" "true"
      (Hosted.popHeader cachedPaymentProofHeader (Hosted.updateHeaders [] cached.headers))) :=
    ((nil.updateHeaders h).popHeader _).setHeader (by decide +kernel) _
  unfold Hosted.replayHeaders
  dsimp only
  split_ifs
  · exact hbase
  · exact hbase.setHeader (by decide +kernel) _

end WithoutRetryAfter

theorem withoutRetryAfter_problemResponse {p : Problem} {requestId : String} {headers : Headers}
    (h : WithoutRetryAfter headers) : WithoutRetryAfter (problemResponse env p requestId headers).headers :=
  h.setHeader (by decide +kernel) _

/-- A failure that is not to be retried asks for no retry. -/
theorem withoutRetryAfter_paymentFailureHeaders (h : e.retryable = false) :
    WithoutRetryAfter (paymentFailureHeaders env e) := by
  unfold paymentFailureHeaders
  rw [h, Bool.false_and, if_neg Bool.false_ne_true, List.append_nil]
  split_ifs
  · exact .cons (by decide +kernel) .nil
  · exact .nil

theorem withoutRetryAfter_payment (h : e.retryable = false) (requestId : String) :
    WithoutRetryAfter (problem env requestId (.payment e)).headers :=
  withoutRetryAfter_problemResponse (withoutRetryAfter_paymentFailureHeaders h)

theorem withoutRetryAfter_internal (requestId exception : String) :
    WithoutRetryAfter (problem env requestId (.internal exception)).headers :=
  withoutRetryAfter_problemResponse .nil

/-! ## The answer, what is stored, and its replays -/

/-- What the handler answers for a stored outcome: its replay, or the refusal of the replay. -/
def replayed (env : Env) (request : HttpRequest) (cached : IdempotencyResponse) (paymentSignature : Option String) :
    HttpResponse :=
  match replayResponse env request cached paymentSignature [] with
  | .ok response => response
  | .error e => problem env request.requestId e

/-- A refused proof is not to be retried. -/
theorem checkProof_retryable {expected paymentSignature : Option String}
    (h : checkProof env.sha256 expected paymentSignature = .error e) : e.retryable = false := by
  rcases expected with _ | expected
  · exact nomatch h
  rcases paymentSignature with _ | signature
  · obtain rfl := Except.error.inj h
    rfl
  · obtain rfl | h := rejectIf_bind_eq_error h
    · rfl
    · unfold rejectIf at h
      split_ifs at h
      obtain rfl := Except.error.inj h
      rfl

/-- The handler answers for an outcome without the header by a response without it. -/
theorem withoutRetryAfter_replayed {cached : IdempotencyResponse} (h : WithoutRetryAfter cached.headers)
    (request : HttpRequest) (paymentSignature : Option String) :
    WithoutRetryAfter (replayed env request cached paymentSignature).headers := by
  unfold replayed replayResponse
  rcases replayBody env.readFloat request.requestId cached.body with _ | body
  · exact withoutRetryAfter_internal _ _
  rcases hproof : checkProof env.sha256 (getHeader cachedPaymentProofHeader (updateHeaders [] cached.headers))
    paymentSignature with e | _
  · exact withoutRetryAfter_payment (checkProof_retryable hproof) _
  · exact h.replayHeaders

/-- What is stored of a failure that is not to be retried. -/
theorem withoutRetryAfter_failureOutcome (hretry : e.retryable = false) {requestId : String}
    {outcome : IdempotencyResponse} (h : failureOutcome env requestId payment e = .ok outcome) :
    WithoutRetryAfter outcome.headers := by
  obtain ⟨-, -, hheaders⟩ := IdempotencyResponse.fromParts_eq_ok_iff.mp h
  rw [hheaders]
  exact (WithoutRetryAfter.cons (by decide +kernel) (.cons (by decide +kernel) .nil)).updateHeaders
    (withoutRetryAfter_paymentFailureHeaders hretry)

/-- The response to a failed settlement, whatever becomes of the commit of its outcome. -/
theorem withoutRetryAfter_commitOutcome {s : Runtime} {id : ℕ} {now : ℚ} {task : Task} {reservation : Reservation ℚ}
    {outcome : Except String IdempotencyResponse} {answer response : HttpResponse} (h : WithoutRetryAfter answer.headers)
    (hmem : .respond response ∈ (commitOutcome env s id now task reservation outcome answer).1) :
    WithoutRetryAfter response.headers := by
  unfold commitOutcome at hmem
  rcases outcome with _ | outcome
  · obtain rfl := Emission.respond.inj (List.mem_singleton.mp hmem)
    exact withoutRetryAfter_internal _ _
  · simp only [List.mem_cons, reduceCtorEq, List.not_mem_nil, or_false, false_or, Emission.respond.injEq] at hmem
    rw [hmem]
    split
    · exact withoutRetryAfter_internal _ _
    · exact h

/-- **After submission.**  For every behaviour of the facilitator the gateway returns a receipt over the configured
terms for the payer of the authorization, or a terminal failure; the response to such a failure, and every replay of
what is stored of it, ask for no retry. -/
theorem settle_consistent_or_terminal {paymentSignature : String} {paymentIdentifier : Option String} {now : ℚ}
    {facilitator : FacilitatorClient}
    (h : PaymentGateway.verify env.sha256 env.x402 env.settings.payment facilitator paymentSignature paymentIdentifier now =
      .ok payment) :
    match PaymentGateway.settle env.x402 env.settings.payment facilitator payment with
    | .ok receipt => Consistent env.settings.payment payment receipt
    | .error e => Terminal e ∧
      (∀ s id now task body claim response, .respond response ∈ (settleAnswer env s id now task body ⟨payment, claim⟩
          (facilitator.settle payment.payload env.settings.payment.requirements)).1 →
        WithoutRetryAfter response.headers) ∧
      ∀ requestId outcome, failureOutcome env requestId payment e = .ok outcome →
        ∀ request paymentSignature, WithoutRetryAfter (replayed env request outcome paymentSignature).headers := by
  obtain ⟨a, hchecked⟩ := verify_eq_ok h
  rw [settle_eq hchecked.enabled]
  rcases hreceipt : receiptOf env.x402 env.settings.payment payment
    (facilitator.settle payment.payload env.settings.payment.requirements) with e | receipt
  · have hterminal := receiptOf_terminal hreceipt
    refine ⟨hterminal, ?_, ?_⟩
    · intro s id now task body claim response hmem
      unfold settleAnswer at hmem
      rcases hroute : task.route with _ | _ | ⟨signature, reservation⟩ <;> rw [hroute] at hmem
      · exact absurd hmem List.not_mem_nil
      · exact absurd hmem List.not_mem_nil
      · simp only [hreceipt] at hmem
        exact withoutRetryAfter_commitOutcome (withoutRetryAfter_payment hterminal.retryable _) hmem
    · intro requestId outcome houtcome request signature
      exact withoutRetryAfter_replayed (withoutRetryAfter_failureOutcome hterminal.retryable houtcome) request signature
  · exact receiptOf_consistent hchecked.authorization hchecked.payer hreceipt

/-! ## A transport failure that calls itself retryable -/

/-- The facilitator accepts, and fails to settle. -/
def failingFacilitator : FacilitatorClient where
  verify _ _ := .returned ⟨true, none⟩
  settle _ _ := .paymentError (facilitatorUnavailable "facilitator request timed out" true false)

theorem settle_consistent_or_terminal_retryable : ∃ payment e,
    PaymentGateway.verify pauseService.sha256 pauseService.x402 pauseService.settings.payment failingFacilitator
      "Zmlyc3Q=" (some "payment_first_12345") 0 = .ok payment ∧
    PaymentGateway.settle pauseService.x402 pauseService.settings.payment failingFacilitator payment = .error e ∧
    Terminal e := by
  have hok : (PaymentGateway.verify pauseService.sha256 pauseService.x402 pauseService.settings.payment
      failingFacilitator "Zmlyc3Q=" (some "payment_first_12345") 0).isOk = true := by decide +kernel
  rcases h : PaymentGateway.verify pauseService.sha256 pauseService.x402 pauseService.settings.payment
    failingFacilitator "Zmlyc3Q=" (some "payment_first_12345") 0 with e | payment
  · rw [h] at hok
    exact nomatch hok
  have hsettle := @settle_eq pauseService.x402 pauseService.settings.payment rfl failingFacilitator payment
  have hfinal := settle_consistent_or_terminal h
  rw [hsettle] at hfinal
  exact ⟨payment, _, rfl, hsettle, hfinal.1⟩

end Lucent.Hosted
