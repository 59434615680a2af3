import Lucent.Hosted.Holdings
import Lucent.Hosted.Retention

/-!
# Lucent.Hosted.Answer — whether a settled payment keeps its answer

* `Repeats`: a new request with the key, the canonical request and the proof of an earlier one.
* `outcome_stored_iff`: the outcome of a settlement is stored exactly when the reservation of the key is not over.
* `settled_answer_kept`: then every repetition gets the answer again, and the facilitator is not asked.
* `settled_answer_lost`: an answer that comes later is not stored, and a repetition asks the facilitator again.
-/

namespace Lucent.Hosted

open Lucent.Lib Lucent.Access Lucent.Payments Lucent.VerifiedSource

/-! ## Repetitions -/

/-- The step is the arrival of a new request with the key, the canonical request and the proof of the task. -/
structure Repeats (env : Env) (s : Runtime) (j : Step) (task : Task) (request : HttpRequest) : Prop where
  idle : s.phase j.id = .idle
  arrives : ∃ token quota, j.action = .arrive request token quota
  path : PaidPath env request
  key : request.idempotencyKey = task.request.idempotencyKey
  fingerprint : canonicalRequestFingerprint env request.payload = .ok task.requestFingerprint
  proof : ∀ signature r, task.route = .x402 signature r → request.paymentSignature = some signature

/-- The step answers the request with this response, under the identifier of the request, and the request is over. -/
def Answers (env : Env) (s : Runtime) (j : Step) (request : HttpRequest) (response : HttpResponse) : Prop :=
  ∃ call replayed, (step env s j).1 = [.result call, .respond replayed] ∧
    replayed.statusCode = response.statusCode ∧
    replayBody env.readFloat request.requestId response.body = some replayed.body ∧
    (step env s j).2.phase j.id = .finished

/-- The submission of request `id` is not older than its tombstone. -/
def ClaimLive (evs : List Event) (id : ℕ) (now : ℚ) : Prop :=
  ∃ e ∈ evs, e.1.id = id ∧ (∃ payment, Emission.settle payment ∈ e.2) ∧ now < e.1.now + paymentClaimsConfig.ttlSeconds

/-- Request `i.id` gets the answer to its settlement, and later, in time, a request arrives that repeats it. -/
structure Repetition (env : Env) (pre mid : List Event) (i j : Step) (s₁ s₂ : Runtime) (task : Task) (body : Bytes)
    (paid : Paid) (answer : FacilitatorAnswer SettleResponse) (reservation : Reservation ℚ) (request : HttpRequest) :
    Prop where
  before : (machine env).Run pre s₁
  phase : s₁.phase i.id = .settling task body paid
  answered : i.action = .settleAnswer answer
  route : ∃ signature, task.route = .x402 signature reservation
  fits : ∀ outcome, settlementOutcome env task body paid answer = .ok outcome →
    outcome.sizeBytes ≤ paymentIdempotencyConfig.maxResponseBytes
  after : (machine env).Run (pre ++ (i, (step env s₁ i).1) :: mid) s₂
  repeats : Repeats env s₂ j task request
  orderly : Machine.Respects Orderly (pre ++ (i, (step env s₁ i).1) :: mid ++ [(j, (step env s₂ j).1)])
  live : ClaimLive pre i.id j.now

section Steps

variable {env : Env} {s : Runtime} {id : ℕ} {now : ℚ}

/-- The arrival of a paying request. -/
theorem step_arriveX402 {request : HttpRequest} {fingerprint : String} (hphase : s.phase id = .idle)
    (hpath : PaidPath env request) (hfingerprint : canonicalRequestFingerprint env request.payload = .ok fingerprint)
    (token : String) (quota : QuotaAnswer) : step env s ⟨id, now, .arrive request token quota⟩ =
      arriveX402 env s id now request fingerprint token := by
  obtain ⟨hmode, hkey⟩ := hpath
  simp only [step, hphase, arrive, hfingerprint]
  rcases hcase : env.settings.accessMode with _ | _ | _ | _ | _ <;> rw [hcase] at hmode hkey
  · cases hmode
  · cases hmode
  · cases hmode
  · dsimp only
    rw [hkey, if_neg Bool.false_ne_true, if_neg (by decide)]
  · dsimp only
    rw [hkey, if_neg Bool.false_ne_true, if_neg (by decide)]

/-- The replay of an outcome. -/
theorem arriveX402_replay {request : HttpRequest} {fingerprint signature token : String}
    (hsignature : request.paymentSignature = some signature) {cached : IdempotencyResponse} {response : HttpResponse}
    (hreserve : (reserveIn env now paymentIdempotencyConfig s.paymentIdempotency "x402" request.idempotencyKey
      fingerprint token).1.2 = .decided (.replay cached))
    (hreplay : replayResponse env request cached (some signature) [] = .ok response) :
    (arriveX402 env s id now request fingerprint token).1 =
        [.result (reserveIn env now paymentIdempotencyConfig s.paymentIdempotency "x402" request.idempotencyKey
          fingerprint token).1, .respond response] ∧
      (arriveX402 env s id now request fingerprint token).2.phase id = .finished := by
  simp only [arriveX402, hsignature, hreserve, afterReserve, hreplay, Runtime.setPhase_self, and_self]

/-- A request that is over does nothing. -/
theorem step_finished {i : Step} (hphase : s.phase i.id = .finished) :
    (step env s i).1 = [] ∧ (step env s i).2.phase i.id = .finished := by
  unfold step
  rw [hphase]
  rcases i.action with _ | _ | _ | _ | _ | _ | _ | _ | _ | _
  case cancel => exact ⟨rfl, Runtime.setPhase_self ..⟩
  all_goals exact ⟨rfl, hphase⟩

theorem finished_silent {evs : List Event} {s' : Runtime} (h : (machine env).Steps s evs s')
    (hphase : s.phase id = .finished) : ∀ e ∈ evs, e.1.id = id → e.2 = [] := by
  induction h with
  | nil => exact fun e he => absurd he List.not_mem_nil
  | @cons s s₁ i o evs s₂ hstep _ ih =>
    have hstep' : step env s i = (o, s₁) := hstep
    intro e he hid
    by_cases hself : i.id = id
    · subst hself
      have hquiet := @step_finished env s i hphase
      rw [hstep'] at hquiet
      rcases List.mem_cons.mp he with rfl | he
      · exact hquiet.1
      · exact ih hquiet.2 e he hid
    · obtain ⟨phase, hphase'⟩ := step_phase env s i
      rw [hstep'] at hphase'
      have hsame : s₁.phase id = .finished := by
        rw [show s₁.phase = _ from hphase', Function.update_of_ne (Ne.symm hself), hphase]
      rcases List.mem_cons.mp he with rfl | he
      · exact absurd hid hself
      · exact ih hsame e he hid

end Steps

/-! ## The outcome is built -/

/-- The header that goes with this answer is one header line, and the status is that of an HTTP error, if any. -/
structure OneLine (env : Env) (payment : VerifiedPayment) (answer : FacilitatorAnswer SettleResponse) : Prop where
  receipt : ∀ receipt, receiptOf env.x402 env.settings.payment payment answer = .ok receipt →
    headerError (paymentResponseHeader, receipt.responseHeader) = none
  challenge : ∀ e, receiptOf env.x402 env.settings.payment payment answer = .error e → e.status = 402 →
    headerError (paymentRequiredHeader, challenge env.x402 env.settings.payment (some e.code)) = none
  declines : answer.Declines

theorem length_setHeader_le (name value : String) (headers : Headers) :
    (setHeader name value headers).length ≤ headers.length + 1 := by
  induction headers with
  | nil => exact le_rfl
  | cons first rest ih =>
    unfold setHeader
    split_ifs
    · exact Nat.le_succ _
    · exact Nat.succ_le_succ ih

theorem length_updateHeaders_le (headers others : Headers) :
    (updateHeaders headers others).length ≤ headers.length + others.length := by
  induction others generalizing headers with
  | nil => exact le_rfl
  | cons first rest ih =>
    have hrest := ih (setHeader first.1 first.2 headers)
    have hset := length_setHeader_le first.1 first.2 headers
    rw [List.length_cons]
    unfold updateHeaders at hrest ⊢
    rw [List.foldl_cons]
    omega

/-- The outcome of a failed settlement is built. -/
theorem failureOutcome_ok {env : Env} {requestId : String} {payment : VerifiedPayment} {e : PaymentError} {digest : Bytes}
    (hproof : payment.proofFingerprint = "sha256:" ++ hexText digest) (hdigest : digest.length = 32)
    (hdeclines : e.Declines) (hline : e.status = 402 →
      headerError (paymentRequiredHeader, challenge env.x402 env.settings.payment (some e.code)) = none) :
    ∃ outcome, failureOutcome env requestId payment e = .ok outcome := by
  have hfailure : (paymentFailureHeaders env e).length ≤ 2 ∧ ∀ h ∈ paymentFailureHeaders env e, headerError h = none := by
    unfold paymentFailureHeaders
    refine ⟨by split_ifs <;> simp, fun h hmem => ?_⟩
    rcases List.mem_append.mp hmem with hmem | hmem
    · split_ifs at hmem with hstatus
      · rw [List.mem_singleton.mp hmem]
        exact hline hstatus.1
      · exact absurd hmem List.not_mem_nil
    · split_ifs at hmem
      · rw [List.mem_singleton.mp hmem]
        decide
      · exact absurd hmem List.not_mem_nil
  have hlength := length_updateHeaders_le [("Content-Type", "application/problem+json"),
    (cachedPaymentProofHeader, payment.proofFingerprint)] (paymentFailureHeaders env e)
  have hvalid : (updateHeaders [("Content-Type", "application/problem+json"),
      (cachedPaymentProofHeader, payment.proofFingerprint)] (paymentFailureHeaders env e)).findSome? headerError =
        none := by
    rw [List.findSome?_eq_none_iff]
    intro h hmem
    rcases mem_updateHeaders hmem with hmem | hmem
    · simp only [List.mem_cons, List.not_mem_nil, or_false] at hmem
      rcases hmem with rfl | rfl
      · decide
      · rw [hproof]
        exact (headerError_proof hdigest).1
    · exact hfailure.2 h hmem
  obtain ⟨hlow, hhigh⟩ := hdeclines
  rw [List.length_cons, List.length_singleton] at hlength
  exact ⟨⟨e.status, _, _, by omega, hlength.trans (by have := hfailure.1; simp only [maxCachedHeaders]; omega), hvalid⟩,
    IdempotencyResponse.fromParts_eq_ok_iff.mpr ⟨rfl, rfl, rfl⟩⟩

/-- The outcome of a settlement is built. -/
theorem settlementOutcome_ok {env : Env} {task : Task} {body : Bytes} {paid : Paid}
    {answer : FacilitatorAnswer SettleResponse} {digest : Bytes}
    (hproof : paid.payment.proofFingerprint = "sha256:" ++ hexText digest) (hdigest : digest.length = 32)
    (hline : OneLine env paid.payment answer) : ∃ outcome, settlementOutcome env task body paid answer = .ok outcome := by
  unfold settlementOutcome
  rcases hreceipt : receiptOf env.x402 env.settings.payment paid.payment answer with e | receipt
  · exact failureOutcome_ok hproof hdigest (receiptOf_declines hline.declines e hreceipt) (hline.challenge e hreceipt)
  · exact (settledOutcome_ok_iff hproof hdigest).mpr
      ((headerError_eq_none_iff (by decide)).mp (hline.receipt receipt hreceipt))

/-! ## The outcome is stored -/

section Runs

variable {env : Env} {pre mid : List Event} {i j : Step} {s₁ s₂ : Runtime} {task : Task} {body : Bytes} {paid : Paid}
  {answer : FacilitatorAnswer SettleResponse} {signature : String} {reservation : Reservation ℚ}
  {outcome : IdempotencyResponse}

/-- **The outcome** of a settlement is stored exactly when the reservation of the key is not over. -/
theorem outcome_stored_iff (h₁ : (machine env).Run pre s₁) (hfresh : Machine.Respects FreshToken pre)
    (hclock : ∀ e ∈ pre, e.1.now ≤ i.now) (hphase : s₁.phase i.id = .settling task body paid)
    (hroute : task.route = .x402 signature reservation)
    (hfits : outcome.sizeBytes ≤ paymentIdempotencyConfig.maxResponseBytes) :
    (commitIn env i.now paymentIdempotencyConfig s₁.paymentIdempotency reservation outcome).1.2 = .committed ↔
      i.now < reservation.expiresAt := by
  have hheld : (s₁.phase i.id).held .result = some reservation := by
    rw [hphase, Phase.held, hroute]
    rfl
  constructor
  · intro hcommit
    have hstep : (IdempotencyStore.machine env.sha256 StoreName.result.config).Steps (StoreName.result.store s₁)
        [(commitIn env i.now StoreName.result.config (StoreName.result.store s₁) reservation outcome).1]
        (commitIn env i.now StoreName.result.config (StoreName.result.store s₁) reservation outcome).2 :=
      .cons rfl (.nil _)
    have heq : (commitIn env i.now StoreName.result.config (StoreName.result.store s₁) reservation outcome).1 =
        (.commit reservation outcome i.now, .committed) := Prod.ext rfl hcommit
    rw [heq] at hstep
    obtain ⟨d, hd, -, -⟩ := run_ledger (Machine.steps_append_iff.mpr ⟨_, run_store h₁ .result, hstep⟩)
    have hlegal : Machine.Respects Access.Legal
        (calls .result pre ++ [(.commit reservation outcome i.now, .committed)]) :=
      (run_legal h₁ hfresh .result).concat ((run_backed h₁ i.id).issued hheld)
    obtain ⟨now, hnow, hlt⟩ := finalizes_in_time hd hlegal rfl rfl
    obtain rfl := Option.some.inj hnow
    exact hlt
  · intro hnow
    exact held_commits (n := .result) h₁ hfresh hheld (fun h => by cases h) hclock hnow hfits

theorem clock_reserve {t f token : String} {k : Option String} {now c : ℚ} {o : StoreOutcome ℚ}
    (h : StoreEvent.clock? (.reserve t k f token now, o) = some c) : c = now := by
  unfold StoreEvent.clock? at h
  split at h <;> simp_all

/-- An outcome that was committed answers every reservation for its arguments, until it is over. -/
theorem committed_replays {evs : List Event} {s : Runtime} (h : (machine env).Run evs s)
    {before after : List (StoreEvent ℚ)} {T now : ℚ} {key fingerprint : String}
    (hcalls : calls .result evs = before ++ (.commit reservation outcome T, .committed) :: after)
    (howner : ∃ ev ∈ before, StoreEvent.IssuesFor "x402" key fingerprint reservation ev)
    (hclock : ∀ e ∈ evs, e.1.now ≤ now) (hlive : now < T + paymentIdempotencyConfig.ttlSeconds) (token : String) :
    (reserveIn env now paymentIdempotencyConfig s.paymentIdempotency "x402" (some key) fingerprint token).1.2 =
      .decided (.replay outcome) := by
  have hstep : (IdempotencyStore.machine env.sha256 StoreName.result.config).Steps (StoreName.result.store s)
      [(reserveIn env now StoreName.result.config (StoreName.result.store s) "x402" (some key) fingerprint token).1]
      (reserveIn env now StoreName.result.config (StoreName.result.store s) "x402" (some key) fingerprint token).2 :=
    .cons rfl (.nil _)
  have hrun := Machine.steps_append_iff.mpr ⟨_, run_store h .result, hstep⟩
  rw [hcalls] at hrun
  refine (noEvict_durability rfl hrun rfl howner ?_).1 rfl
  intro ev hev c hc
  rcases List.mem_append.mp hev with hev | hev
  · obtain ⟨e, he, hcall⟩ := mem_calls.mp (show ev ∈ calls .result evs by simp [hcalls, hev])
    rw [run_clock h he hcall hc]
    exact (hclock e he).trans_lt hlive
  · rw [List.mem_singleton.mp hev] at hc
    rw [clock_reserve hc]
    exact hlive

/-- The reservation of a paying request, as its store saw it. -/
theorem Admitted.call {evs : List Event} {s : Runtime} (h : (machine env).Run evs s) {id : ℕ}
    (hadmitted : Admitted env evs id task) (hroute : task.route = .x402 signature reservation) :
    ∃ key, task.request.idempotencyKey = some key ∧ ∃ ev ∈ calls .result evs,
      StoreEvent.IssuesFor "x402" key task.requestFingerprint reservation ev := by
  obtain ⟨-, -, e, he, -, -, token, heq⟩ := hadmitted.paid hroute
  have hcall : (StoreOp.reserve "x402" task.request.idempotencyKey task.requestFingerprint token e.1.now,
      StoreOutcome.decided (.reserved reservation)) ∈ calls .result evs := by
    refine mem_calls.mpr ⟨e, he, ?_⟩
    rw [callsOf, heq]
    exact List.mem_cons_self
  obtain ⟨d, hd, -, -⟩ := run_ledger (run_store h .result)
  obtain ⟨t, key, f, token', now, hop, -⟩ := issues_eq_issue (r := reservation) hd hcall rfl
  injection hop with _ hkey
  exact ⟨key, hkey, _, hcall, rfl, hkey, rfl, rfl⟩

/-- The step that answers a settlement in time: its outcome is stored, and it is the answer. -/
theorem step_settleAnswer_stored (h₁ : (machine env).Run pre s₁) (hfresh : Machine.Respects FreshToken pre) {id : ℕ}
    {now : ℚ} (hclock : ∀ e ∈ pre, e.1.now ≤ now) (hphase : s₁.phase id = .settling task body paid)
    (hroute : task.route = .x402 signature reservation)
    (houtcome : settlementOutcome env task body paid answer = .ok outcome)
    (hfits : outcome.sizeBytes ≤ paymentIdempotencyConfig.maxResponseBytes) (htime : now < reservation.expiresAt) :
    (step env s₁ ⟨id, now, .settleAnswer answer⟩).1 = [.result (.commit reservation outcome now, .committed),
      .respond (settlementResponse env task body paid answer)] := by
  have hcommit :=
    (outcome_stored_iff (i := ⟨id, now, .settleAnswer answer⟩) h₁ hfresh hclock hphase hroute hfits).mpr htime
  rw [step_settleAnswer hphase hroute, houtcome, commitOutcome]
  dsimp only
  rw [hcommit]
  exact congrArg (fun o => [Emission.result (_, o), _]) hcommit

/-- **A settled payment keeps its answer**: if the settlement ends before the reservation of the key is over, every
later repetition of the request, until the claim of the authorization is over, is answered with the same status and
document, and the facilitator is not asked. -/
theorem settled_answer_kept (hsha : ∀ bytes, (env.sha256 bytes).length = 32)
    (hbody : ∀ result source requestId body, env.responseBody result source requestId = some body →
      ∃ members, Json.loads env.readFloat body = some (.obj members)) {request : HttpRequest}
    (h : Repetition env pre mid i j s₁ s₂ task body paid answer reservation request)
    (hline : OneLine env paid.payment answer) (htime : i.now < reservation.expiresAt) :
    ∃ call response, (step env s₁ i).1 = [.result call, .respond response] ∧
      response = settlementResponse env task body paid answer ∧ Answers env s₂ j request response ∧
      ∀ post s₃, (machine env).Steps (step env s₂ j).2 post s₃ → ∀ e ∈ post, e.1.id = j.id → e.2 = [] := by
  obtain ⟨h₁, hphase, haction, ⟨signature, hroute⟩, hfits, h₂, hrepeats, ho, hlive⟩ := h
  obtain ⟨id, now, action⟩ := i
  obtain ⟨id', now', action'⟩ := j
  obtain ⟨token, quota, harrives⟩ := hrepeats.arrives
  obtain rfl : action = .settleAnswer answer := haction
  obtain rfl : action' = .arrive request token quota := harrives
  obtain ⟨_, signature', reservation', _, a, -, hroute', hchecked⟩ := settling_checked h₁ hphase
  obtain ⟨rfl, rfl⟩ : signature = signature' ∧ reservation = reservation' := by
    rw [hroute] at hroute'
    cases hroute'
    exact ⟨rfl, rfl⟩
  obtain ⟨-, result, source, hrendered⟩ := settling_body h₁ hphase
  obtain ⟨outcome, houtcome⟩ := settlementOutcome_ok hchecked.proof (hsha _) hline
  have hclock : ∀ e ∈ pre, e.1.now ≤ now := (ho pre _ _ (List.append_assoc pre (_ :: mid) [_])).1
  have hfresh := respects_freshToken ho.of_append.of_append
  rw [step_settleAnswer_stored h₁ hfresh hclock hphase hroute houtcome (hfits outcome houtcome) htime] at h₂ ho ⊢
  have hreplay : (reserveIn env now' paymentIdempotencyConfig s₂.paymentIdempotency "x402" request.idempotencyKey
      task.requestFingerprint token).1.2 = .decided (.replay outcome) := by
    have hadmitted : Admitted env pre id task := by
      have hbacked := run_backed h₁ id
      rw [hphase] at hbacked
      exact hbacked.1
    obtain ⟨key, hkey, howner⟩ := hadmitted.call h₁ hroute
    rw [hrepeats.key, hkey]
    have hcalls : calls .result (pre ++ (⟨id, now, .settleAnswer answer⟩,
        [.result (.commit reservation outcome now, .committed), .respond (settlementResponse env task body paid answer)]) ::
          mid) = calls .result pre ++ (.commit reservation outcome now, .committed) :: calls .result mid := by
      rw [calls_append, calls_cons]
      rfl
    obtain ⟨e, he, -, -, hlt⟩ := hlive
    have hlive : now' < now + paymentIdempotencyConfig.ttlSeconds := hlt.trans_le (add_le_add_left (hclock e he) _)
    exact committed_replays h₂ hcalls howner (ho _ _ [] rfl).1 hlive token
  obtain ⟨hstatus, members, hresponse, hstored⟩ := settlement_loads (hbody _ _ _ _ hrendered) houtcome
  obtain ⟨replayed, hreplayed⟩ := replayBody_eq_some hstored request.requestId
  have hproof := (settlementOutcome_proves houtcome).getHeader
  have hok : replayResponse env request outcome (some signature) [] =
      .ok ⟨outcome.statusCode, replayHeaders outcome [], replayed⟩ := by
    refine replayResponse_eq_ok.mpr ⟨replayed, hreplayed, ?_, rfl⟩
    rw [hproof]
    exact checkProof_eq_ok_iff.mpr ⟨hchecked.ascii, hchecked.proof.symm⟩
  have hstep := @arriveX402_replay _ _ id' _ _ _ _ _ (hrepeats.proof _ _ hroute) _ _ hreplay hok
  rw [← step_arriveX402 hrepeats.idle hrepeats.path hrepeats.fingerprint token quota] at hstep
  refine ⟨_, _, rfl, rfl, ⟨_, _, hstep.1, hstatus.symm, ?_, hstep.2⟩, fun post s₃ hpost => ?_⟩
  · rw [replayBody_congr (hresponse.trans hstored.symm)]
    exact hreplayed
  · exact finished_silent hpost hstep.2

end Runs

/-! ## An answer that comes too late -/

def firstRequest : HttpRequest := pauseRequest "payment_first_12345" "Zmlyc3Q="

/-- A request up to its submission. -/
def firstSteps : List Step := paidSteps 1 "payment_first_12345" "Zmlyc3Q=" 0 0

/-- The answer to its settlement. -/
def answerStep (answered : ℚ) : Step := ⟨1, answered, .settleAnswer (.returned pauseSettled)⟩

/-- The request again. -/
def repeatStep (repeated : ℚ) : Step := ⟨2, repeated, .arrive firstRequest "again" (.receipt 1 1 1)⟩

/-- The first request waits for the answer, and the second one has not come. -/
def awaitsAnswer (s : Runtime) : Bool :=
  match s.phase 1, s.phase 2 with
  | .settling task body paid, .idle => match task.route with
    | .x402 signature reservation =>
      decide (signature = "Zmlyc3Q=") && decide (reservation.expiresAt = 120) && decide (body.length ≤ 1000) &&
        (receiptOf pauseX402 pausePayment paid.payment (.returned pauseSettled)).isOk &&
        decide (task.request.idempotencyKey = firstRequest.idempotencyKey) &&
        (match canonicalRequestFingerprint pauseService firstRequest.payload with
          | .ok fingerprint => fingerprint == task.requestFingerprint
          | .error _ => false)
    | _ => false
  | _, _ => false

/-- After an answer at 130 the second request, at 131, is admitted, and asks the facilitator. -/
def asksAgain (s : Runtime) : Bool :=
  match step pauseService (step pauseService s (answerStep 130)).2 (repeatStep 131) with
  | ([.result _], s) => match (step pauseService s ⟨2, 131, .preflight⟩).1 with
    | [.verify _] => true
    | _ => false
  | _ => false

theorem firstSteps_after : awaitsAnswer ((machine pauseService).after firstSteps) = true ∧
    asksAgain ((machine pauseService).after firstSteps) = true := by decide +kernel

/-- The first request is answered and repeated, at any times in order. -/
theorem exists_repetition {s : Runtime} (hawaits : awaitsAnswer s = true)
    (hrun : (machine pauseService).Run ((machine pauseService).trace firstSteps) s) {answered repeated : ℚ}
    (hsteps : (firstSteps ++ [answerStep answered, repeatStep repeated]).Pairwise Step.Precedes) (hlive : repeated < 900) :
    ∃ task body paid reservation, reservation.expiresAt = 120 ∧
      OneLine pauseService paid.payment (.returned pauseSettled) ∧
      Repetition pauseService ((machine pauseService).trace firstSteps) [] (answerStep answered) (repeatStep repeated) s
        (step pauseService s (answerStep answered)).2 task body paid (.returned pauseSettled) reservation firstRequest := by
  unfold awaitsAnswer at hawaits
  split at hawaits
  · rename_i task body paid hphase hidle
    split at hawaits
    · rename_i signature reservation hroute
      simp only [Bool.and_eq_true, decide_eq_true_eq] at hawaits
      obtain ⟨⟨⟨⟨⟨rfl, hexpires⟩, hsize⟩, hreceipt⟩, hkey⟩, hfingerprint⟩ := hawaits
      obtain ⟨receipt, hreceipt⟩ := exists_of_isOk hreceipt
      have hreceipt' : receiptOf pauseService.x402 pauseService.settings.payment paid.payment (.returned pauseSettled) =
        .ok receipt := hreceipt
      obtain ⟨_, -, hheader⟩ := receiptOf_responseHeader hreceipt
      have hshort : receipt.responseHeader = "e30=" := hheader
      refine ⟨task, body, paid, reservation, hexpires, ⟨?_, ?_, trivial⟩, ?_⟩
      · intro receipt' hok
        obtain rfl : receipt = receipt' := Except.ok.inj (hreceipt'.symm.trans hok)
        rw [hshort]
        decide
      · intro e herror
        cases hreceipt'.symm.trans herror
      obtain ⟨_, signature, reservation', _, _, -, hroute', hchecked⟩ := settling_checked hrun hphase
      refine ⟨hrun, hphase, rfl, ⟨_, hroute⟩, ?_, ?_, ⟨?_, ⟨_, _, rfl⟩, ⟨rfl, rfl⟩, hkey.symm, ?_, ?_⟩, ?_, ?_⟩
      · intro outcome hok
        rw [settlementOutcome, hreceipt'] at hok
        rw [settledOutcome_size hchecked.proof (length_pauseSha256 _) hok, hshort]
        refine (Nat.add_le_add_right (Nat.add_le_add_right hsize _) _).trans ?_
        decide
      · exact Machine.steps_append_iff.mpr ⟨s, hrun, .cons rfl (.nil _)⟩
      · obtain ⟨phase, hother⟩ := step_phase pauseService s (answerStep answered)
        rw [hother]
        exact hidle
      · rcases hcase : canonicalRequestFingerprint pauseService firstRequest.payload with e | fingerprint
        · rw [hcase] at hfingerprint
          exact absurd hfingerprint Bool.false_ne_true
        · rw [hcase] at hfingerprint
          rw [eq_of_beq hfingerprint]
      · intro signature r hroute'
        rw [hroute] at hroute'
        cases hroute'
        rfl
      · refine respects_orderly ?_
        rw [List.append_assoc, List.map_append, Machine.trace_map_fst]
        exact hsteps
      · have hbacked := run_backed hrun 1
        rw [hphase] at hbacked
        obtain ⟨-, -, -, -, e, he, hid, hsubmitted⟩ := hbacked
        refine ⟨e, he, hid, ⟨paid.payment, by simp [hsubmitted]⟩, ?_⟩
        have hnow : e.1.now = 0 :=
          (by decide +kernel : ∀ i ∈ firstSteps, i.now = 0) _ (Machine.fst_mem_of_mem_trace he)
        rw [hnow, zero_add]
        exact hlive
    · exact absurd hawaits Bool.false_ne_true
  · exact absurd hawaits Bool.false_ne_true

theorem not_answers_of_asks {s : Runtime} (hasks : asksAgain s = true) :
    (∀ response, ¬ Answers pauseService (step pauseService s (answerStep 130)).2 (repeatStep 131) firstRequest response) ∧
      ∃ payload, (step pauseService (step pauseService (step pauseService s (answerStep 130)).2 (repeatStep 131)).2
        ⟨2, 131, .preflight⟩).1 = [.verify payload] := by
  unfold asksAgain at hasks
  split at hasks
  · rename_i call s₃ hstep
    rw [hstep]
    refine ⟨?_, ?_⟩
    · rintro response ⟨call', replayed, hanswer, -⟩
      rw [hstep] at hanswer
      exact nomatch hanswer
    · split at hasks
      · rename_i payload hverify
        exact ⟨payload, hverify⟩
      · exact nomatch hasks
  · exact nomatch hasks

/-- An answer after 130 seconds is not stored: the same request is admitted again, and the facilitator is asked. -/
theorem settled_answer_lost : ∃ (pre : List Event) (i j : Step) (s₁ s₂ : Runtime) (task : Task) (body : Bytes)
    (paid : Paid) (answer : FacilitatorAnswer SettleResponse) (reservation : Reservation ℚ) (request : HttpRequest),
    Repetition pauseService pre [] i j s₁ s₂ task body paid answer reservation request ∧
      OneLine pauseService paid.payment answer ∧ (∀ response, ¬ Answers pauseService s₂ j request response) ∧
      ∃ payload, (step pauseService (step pauseService s₂ j).2 ⟨j.id, j.now, .preflight⟩).1 = [.verify payload] := by
  obtain ⟨task, body, paid, reservation, -, hline, hrepetition⟩ := @exists_repetition _ firstSteps_after.1
    (Machine.run_after _ _) 130 131 (by decide +kernel) (by norm_num)
  exact ⟨_, _, _, _, _, task, body, paid, _, reservation, _, hrepetition, hline, not_answers_of_asks firstSteps_after.2⟩

/-- An answer after ten seconds is stored, and is the answer to the same request later. -/
theorem settled_answer_kept_first : ∃ (s₁ s₂ : Runtime) (task : Task) (body : Bytes) (paid : Paid)
    (call : StoreEvent ℚ) (response : HttpResponse),
    (step pauseService s₁ (answerStep 10)).1 = [.result call, .respond response] ∧
      response = settlementResponse pauseService task body paid (.returned pauseSettled) ∧
      Answers pauseService s₂ (repeatStep 899) firstRequest response := by
  obtain ⟨task, body, paid, reservation, hexpires, hline, hrepetition⟩ := @exists_repetition _ firstSteps_after.1
    (Machine.run_after _ _) 10 899 (by decide +kernel) (by norm_num)
  have hsha : ∀ bytes, (pauseService.sha256 bytes).length = 32 := length_pauseSha256
  have hbody : ∀ result source requestId body, pauseService.responseBody result source requestId = some body →
      ∃ members, Json.loads pauseService.readFloat body = some (.obj members) := by
    intro result source requestId body h
    cases h
    exact ⟨[], rfl⟩
  obtain ⟨call, response, hanswer, hresponse, hanswers, -⟩ :=
    settled_answer_kept hsha hbody hrepetition hline (by rw [hexpires]; decide)
  exact ⟨_, _, task, body, paid, call, response, hanswer, hresponse, hanswers⟩

end Lucent.Hosted
