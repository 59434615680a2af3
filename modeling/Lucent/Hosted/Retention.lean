import Lucent.Hosted.Outcome
import Lucent.Hosted.Settlement

/-!
# Lucent.Hosted.Retention — whether a settled response can be kept

The handler measures the body before the settlement; the store measures it afterwards together with the headers.

* `Fits`: the body leaves room for the headers, and the receipt is one header line.
* `retainable_iff_fits`: exactly then the outcome of a settlement is built and small enough.
* `settled_retained_iff`: exactly then the commit of a settled response is not refused as too large.
-/

namespace Lucent.Hosted

open Lucent.Lib Lucent.Access Lucent.Payments Lucent.VerifiedSource

/-- The bytes of the header lines of a settled outcome, without the receipt: three names with their values, a proof
of 71 bytes, and the name of the receipt. -/
def settledHeaderBytes : ℕ := 163

/-- The body and the receipt leave room for the header lines, and the receipt is one line. -/
structure Fits (receipt : PaymentReceipt) (body : Bytes) : Prop where
  size : body.length + encodedLength receipt.responseHeader + settledHeaderBytes ≤ maxCachedResultBytes
  line : encodedLength paymentResponseHeader + encodedLength receipt.responseHeader ≤ maxHeaderLineBytes
  text : '\r' ∉ receipt.responseHeader.toList ∧ '\n' ∉ receipt.responseHeader.toList

/-- The outcome of the settlement is built, and the store takes one of its size. -/
def Retainable (receipt : PaymentReceipt) (payment : VerifiedPayment) (body : Bytes) : Prop :=
  ∃ outcome, settledOutcome receipt payment body = .ok outcome ∧
    outcome.sizeBytes ≤ paymentIdempotencyConfig.maxResponseBytes

/-! ## The outcome -/

/-- What is asked of the value of a header with a valid name. -/
theorem headerError_eq_none_iff {name value : String}
    (hname : ¬ ((name.toList.isEmpty || !name.toList.all headerNameChar) = true)) :
    headerError (name, value) = none ↔ (encodedLength name + encodedLength value ≤ maxHeaderLineBytes ∧
      '\r' ∉ value.toList ∧ '\n' ∉ value.toList) := by
  unfold headerError
  rw [if_neg hname]
  by_cases hline : '\r' ∈ value.toList ∨ '\n' ∈ value.toList
  · rw [if_pos (by simpa using hline)]
    exact ⟨nofun, fun h => absurd hline (not_or.mpr h.2)⟩
  · rw [if_neg (by simpa using hline)]
    by_cases hlong : encodedLength name + encodedLength value > maxHeaderLineBytes
    · rw [if_pos hlong]
      exact ⟨nofun, fun h => absurd h.1 (not_le.mpr hlong)⟩
    · rw [if_neg hlong]
      exact ⟨fun _ => ⟨not_lt.mp hlong, not_or.mp hline⟩, fun _ => rfl⟩

/-- A proof of 71 bytes is a header line. -/
theorem headerError_proof {digest : Bytes} (h : digest.length = 32) :
    headerError (cachedPaymentProofHeader, "sha256:" ++ hexText digest) = none ∧
      encodedLength ("sha256:" ++ hexText digest) = 71 := by
  have hlen : encodedLength ("sha256:" ++ hexText digest) = 71 := by
    rw [encodedLength_append, encodedLength_hexText, h]
    decide
  have hline : ∀ c ∈ ("sha256:" ++ hexText digest).toList, c ≠ '\r' ∧ c ≠ '\n' := by
    intro c hc
    rw [String.toList_append] at hc
    rcases List.mem_append.mp hc with hc | hc
    · rw [(by decide : "sha256:".toList = ['s', 'h', 'a', '2', '5', '6', ':'])] at hc
      simp only [List.mem_cons, List.not_mem_nil, or_false] at hc
      rcases hc with rfl | rfl | rfl | rfl | rfl | rfl | rfl <;> decide
    · obtain ⟨n, hn, rfl⟩ := mem_hexText hc
      exact (by decide : ∀ n < 16, hexDigit n ≠ '\r' ∧ hexDigit n ≠ '\n') n hn
  refine ⟨(headerError_eq_none_iff (by decide)).mpr ⟨?_, ?_, ?_⟩, hlen⟩
  · rw [hlen]
    decide
  · exact fun hc => (hline _ hc).1 rfl
  · exact fun hc => (hline _ hc).2 rfl

section Outcome

variable {receipt : PaymentReceipt} {payment : VerifiedPayment} {body digest : Bytes}

/-- The outcome is built exactly where the receipt is one header line. -/
theorem settledOutcome_ok_iff (hproof : payment.proofFingerprint = "sha256:" ++ hexText digest)
    (hdigest : digest.length = 32) : (∃ outcome, settledOutcome receipt payment body = .ok outcome) ↔
      (encodedLength paymentResponseHeader + encodedLength receipt.responseHeader ≤ maxHeaderLineBytes ∧
        '\r' ∉ receipt.responseHeader.toList ∧ '\n' ∉ receipt.responseHeader.toList) := by
  have hheaders := settledHeaders_proof receipt payment.proofFingerprint
  have hname : ¬ ((paymentResponseHeader.toList.isEmpty || !paymentResponseHeader.toList.all headerNameChar) = true) := by
    decide
  rw [← headerError_eq_none_iff hname]
  constructor
  · rintro ⟨outcome, hok⟩
    obtain ⟨-, -, hnames⟩ := IdempotencyResponse.fromParts_eq_ok_iff.mp hok
    have hvalid := outcome.headers_valid
    rw [hnames, hheaders, List.findSome?_eq_none_iff] at hvalid
    exact hvalid _ (by simp)
  · intro hline
    have hvalid : ([("X-Lucent-Access", "x402"), (paymentResponseHeader, receipt.responseHeader),
        ("Content-Type", "application/json"), (cachedPaymentProofHeader, payment.proofFingerprint)] : Headers).findSome?
          headerError = none := by
      rw [List.findSome?_eq_none_iff]
      intro header hmem
      simp only [List.mem_cons, List.not_mem_nil, or_false] at hmem
      rcases hmem with rfl | rfl | rfl | rfl
      · decide
      · exact hline
      · decide
      · rw [hproof]
        exact (headerError_proof hdigest).1
    exact ⟨⟨200, body, _, by decide, by simp [maxCachedHeaders], hvalid⟩,
      IdempotencyResponse.fromParts_eq_ok_iff.mpr ⟨rfl, rfl, hheaders.symm⟩⟩

/-- The size of an outcome. -/
theorem settledOutcome_size (hproof : payment.proofFingerprint = "sha256:" ++ hexText digest)
    (hdigest : digest.length = 32) {outcome : IdempotencyResponse}
    (h : settledOutcome receipt payment body = .ok outcome) :
    outcome.sizeBytes = body.length + encodedLength receipt.responseHeader + settledHeaderBytes := by
  obtain ⟨-, hbody, hnames⟩ := IdempotencyResponse.fromParts_eq_ok_iff.mp h
  have hlen := (headerError_proof hdigest).2
  have haccess : encodedLength "X-Lucent-Access" + encodedLength "x402" = 19 := by decide
  have htype : encodedLength "Content-Type" + encodedLength "application/json" = 28 := by decide
  have hname : encodedLength paymentResponseHeader = 16 := by decide
  have hname' : encodedLength cachedPaymentProofHeader = 29 := by decide
  rw [IdempotencyResponse.sizeBytes, hbody, hnames, settledHeaders_proof, hproof]
  simp only [List.map_cons, List.map_nil, List.sum_cons, List.sum_nil, haccess, htype, hname, hname', hlen,
    settledHeaderBytes]
  generalize encodedLength receipt.responseHeader = n
  omega

/-- **The outcome of a settlement** is built and small enough if and only if it fits. -/
theorem retainable_iff_fits (hproof : payment.proofFingerprint = "sha256:" ++ hexText digest)
    (hdigest : digest.length = 32) : Retainable receipt payment body ↔ Fits receipt body := by
  constructor
  · rintro ⟨outcome, hok, hle⟩
    obtain ⟨hline, htext⟩ := (settledOutcome_ok_iff hproof hdigest).mp ⟨outcome, hok⟩
    rw [settledOutcome_size hproof hdigest hok] at hle
    exact ⟨hle, hline, htext⟩
  · rintro ⟨hle, hline, htext⟩
    obtain ⟨outcome, hok⟩ := (@settledOutcome_ok_iff receipt payment body digest hproof hdigest).mpr ⟨hline, htext⟩
    exact ⟨outcome, hok, (settledOutcome_size hproof hdigest hok).trans_le hle⟩

end Outcome

/-! ## The commit -/

section Runs

variable {env : Env} {evs : List Event} {s : Runtime} {id : ℕ} {task : Task} {body : Bytes} {paid : Paid}

/-- The store of a runtime refuses an outcome as too large exactly where it is. -/
theorem commitIn_tooLarge_iff (h : (machine env).Run evs s) (now : ℚ) (r : Reservation ℚ)
    (outcome : IdempotencyResponse) :
    (commitIn env now paymentIdempotencyConfig s.paymentIdempotency r outcome).1.2 =
      .raised (.responseTooLarge paymentIdempotencyConfig.maxResponseBytes) ↔
      paymentIdempotencyConfig.maxResponseBytes < outcome.sizeBytes := by
  obtain ⟨d, -, hok, hstore⟩ := run_ledger (run_store h .result)
  have hstep : (commitIn env now paymentIdempotencyConfig s.paymentIdempotency r outcome).1.2 =
      (Ledger.step env.sha256 paymentIdempotencyConfig d (.commit r outcome now)).1 := by
    have heq := @StoreInv.step_eq ℚ _ _ _ _ paymentIdempotencyConfig _ env.sha256 (StoreInv.of_ledger hok)
      (.commit r outcome now)
    have hsame : s.paymentIdempotency = Store.ofEntries d := hstore
    rw [commitIn, hsame]
    exact congrArg Prod.fst heq
  rw [hstep, Ledger.step_commit]
  have hcase := Ledger.commit_case paymentIdempotencyConfig r outcome now d
  generalize Ledger.commit paymentIdempotencyConfig r outcome now d = x at hcase ⊢
  cases hcase with
  | tooLarge hsize => exact ⟨fun _ => hsize, fun _ => rfl⟩
  | refused hsize => exact ⟨nofun, fun hlarge => absurd hlarge (not_lt.mpr hsize)⟩
  | published hsize => exact ⟨nofun, fun hlarge => absurd hlarge (not_lt.mpr hsize)⟩

/-- A response that was built. -/
theorem buildBody_eq_ok {baseline : Preflight.PreflightResult} {answer : ResolverAnswer}
    (h : buildBody env task baseline answer = .ok body) : body.length ≤ maxCachedResultBytes ∧
      ∃ result source, env.responseBody result source task.request.requestId = some body := by
  obtain ⟨⟨result, source⟩, -, h⟩ := bind_eq_ok.mp h
  obtain ⟨body', hbody, h⟩ := bind_eq_ok.mp h
  obtain ⟨hsize, h⟩ := rejectIf_bind_eq_ok.mp h
  obtain rfl := pure_eq_ok.mp h
  exact ⟨not_lt.mp hsize, result, source, elim_ok_eq_ok.mp hbody⟩

/-- What a request that has submitted its payment has behind it. -/
theorem settling_checked (h : (machine env).Run evs s) (hphase : s.phase id = .settling task body paid) :
    ∃ baseline signature reservation now a,
      Preflight.preflightTransaction env.preflight task.request.payload = .ok baseline ∧
      task.route = .x402 signature reservation ∧
      CheckedPayment env.sha256 env.x402 env.settings.payment signature now paid.payment a := by
  have hbacked := run_backed h id
  rw [hphase] at hbacked
  obtain ⟨-, baseline, ⟨⟨e, -, -, hcheck, -⟩, -⟩, -⟩ := hbacked
  obtain ⟨hbaseline, signature, reservation, a, hroute, hchecked⟩ := checkRequest_payment hcheck
  exact ⟨baseline, signature, reservation, e.1.now, a, hbaseline, hroute, hchecked⟩

theorem settling_body (h : (machine env).Run evs s) (hphase : s.phase id = .settling task body paid) :
    body.length ≤ maxCachedResultBytes ∧
      ∃ result source, env.responseBody result source task.request.requestId = some body := by
  have hbacked := run_backed h id
  rw [hphase] at hbacked
  obtain ⟨-, baseline, -, ⟨e, -, -, answer, -, hbuilt⟩, -⟩ := hbacked
  exact buildBody_eq_ok hbuilt

/-- The step after a receipt. -/
theorem step_receipt (hphase : s.phase id = .settling task body paid) {signature : String}
    {reservation : Reservation ℚ} (hroute : task.route = .x402 signature reservation)
    {answer : FacilitatorAnswer SettleResponse} {receipt : PaymentReceipt}
    (hreceipt : receiptOf env.x402 env.settings.payment paid.payment answer = .ok receipt) (now : ℚ) :
    step env s ⟨id, now, .settleAnswer answer⟩ = commitOutcome env s id now task reservation
      (settledOutcome receipt paid.payment body) ⟨200, settledHeaders receipt, body⟩ := by
  rw [step_settleAnswer hphase hroute, settlementOutcome, settlementResponse, hreceipt]

/-- **A settled response is retained**, as far as its size goes, if and only if it fits: the body that passed the
check before the settlement leaves room for the header lines, and the receipt is one of them. -/
theorem settled_retained_iff (hsha : ∀ bytes, (env.sha256 bytes).length = 32) (h : (machine env).Run evs s)
    (hphase : s.phase id = .settling task body paid) {answer : FacilitatorAnswer SettleResponse}
    {receipt : PaymentReceipt} (hreceipt : receiptOf env.x402 env.settings.payment paid.payment answer = .ok receipt) :
    body.length ≤ maxCachedResultBytes ∧ (Retainable receipt paid.payment body ↔ Fits receipt body) ∧
      ∀ now, (∃ call response, (step env s ⟨id, now, .settleAnswer answer⟩).1 = [.result call, .respond response] ∧
        call.2 ≠ .raised (.responseTooLarge paymentIdempotencyConfig.maxResponseBytes)) ↔ Fits receipt body := by
  obtain ⟨hbody, -⟩ := settling_body h hphase
  obtain ⟨_, signature, reservation, _, _, -, hroute, hchecked⟩ := settling_checked h hphase
  have hproof := hchecked.proof
  have hfits := @retainable_iff_fits receipt paid.payment body _ hproof (hsha _)
  refine ⟨hbody, hfits, fun now => ?_⟩
  rw [step_receipt hphase hroute hreceipt now, ← hfits]
  unfold commitOutcome
  constructor
  · rintro ⟨call, response, heq, hcall⟩
    split at heq
    · cases heq
    · rename_i outcome houtcome
      cases heq
      exact ⟨outcome, houtcome, not_lt.mp (mt (commitIn_tooLarge_iff h now reservation outcome).mpr hcall)⟩
  · rintro ⟨outcome, houtcome, hle⟩
    rw [houtcome]
    exact ⟨_, _, rfl, mt (commitIn_tooLarge_iff h now reservation outcome).mp (not_lt.mpr hle)⟩

end Runs

/-! ## A body as large as the store takes -/

/-- A JSON string of letters that is as large as a body may be. -/
def largeBody : Bytes := 34 :: (List.replicate (maxCachedResultBytes - 2) 97 ++ [34])

theorem length_largeBody : largeBody.length = maxCachedResultBytes := by
  rw [largeBody, List.length_cons, List.length_append, List.length_replicate]
  rfl

def largeService : Env := pauseEnv largeBody

def pauseSettled : SettleResponse :=
  ⟨true, none, "0x7777777777777777777777777777777777777777777777777777777777777777", baseMainnet, none⟩

/-- The request is ready, and everything that follows up to the receipt succeeds. -/
def settlesNext (env : Env) (s : Runtime) : Bool :=
  match s.phase 1 with
  | .ready task baseline (some paid) =>
    (bindVerifiedSource env task.request.payload baseline (.returned pauseSource)).isOk &&
      decide ((commitIn env 0 paymentClaimsConfig s.paymentClaims paid.claim tombstone).1.2 = .committed) &&
      (receiptOf env.x402 env.settings.payment paid.payment (.returned pauseSettled)).isOk
  | _ => false

theorem exists_of_isOk {ε α : Type} {x : Except ε α} (h : x.isOk = true) : ∃ a, x = .ok a := by
  rcases x with e | a
  · exact nomatch h
  · exact ⟨a, rfl⟩

/-- A ready request is settled for, with any body that passes the check. -/
theorem exists_settling {body : Bytes} (hsize : body.length ≤ maxCachedResultBytes) {evs : List Event} {s : Runtime}
    (h : (machine (pauseEnv body)).Run evs s) (hready : settlesNext (pauseEnv body) s = true) :
    ∃ evs s task paid receipt, (machine (pauseEnv body)).Run evs s ∧ s.phase 1 = .settling task body paid ∧
      receiptOf pauseX402 pausePayment paid.payment (.returned pauseSettled) = .ok receipt := by
  unfold settlesNext at hready
  split at hready
  · rename_i task baseline paid hphase
    simp only [Bool.and_eq_true, decide_eq_true_eq] at hready
    obtain ⟨⟨hbind, hcommit⟩, hreceipt⟩ := hready
    obtain ⟨⟨result, source⟩, hbind⟩ := exists_of_isOk hbind
    obtain ⟨receipt, hreceipt⟩ := exists_of_isOk hreceipt
    have hbody : buildBody (pauseEnv body) task baseline (.returned pauseSource) = .ok body := by
      unfold buildBody
      exact bind_eq_ok.mpr ⟨_, hbind, bind_eq_ok.mpr ⟨body, rfl, rejectIf_bind_eq_ok.mpr ⟨not_lt.mpr hsize, rfl⟩⟩⟩
    have hbuild : (machine (pauseEnv body)).step s ⟨1, 0, .build (.returned pauseSource)⟩ =
        ([], s.setPhase 1 (.built task body (some paid))) := by
      show step (pauseEnv body) s _ = _
      simp only [step, hphase, build, hbody]
    have hbuilt : (s.setPhase 1 (.built task body (some paid))).phase 1 = .built task body (some paid) :=
      s.setPhase_self 1 _
    have hsettle : (step (pauseEnv body) (s.setPhase 1 (.built task body (some paid))) ⟨1, 0, .settle⟩).2.phase 1 =
        .settling task body paid := by
      have hclaim : (commitIn (pauseEnv body) 0 paymentClaimsConfig
          (s.setPhase 1 (.built task body (some paid))).paymentClaims paid.claim tombstone).1.2 = .committed := hcommit
      simp only [step, hbuilt, settle, hclaim, Runtime.setPhase_self]
    have hrun := Machine.steps_append_iff.mpr ⟨s, h, .cons hbuild
      (.cons (i := ⟨1, 0, .settle⟩) (Prod.ext rfl rfl) (.nil _))⟩
    exact ⟨_, _, task, paid, receipt, hrun, hsettle, hreceipt⟩
  · exact absurd hready Bool.false_ne_true

theorem largeService_ready : settlesNext largeService ((machine largeService).after
    ((paidSteps 1 "payment_first_12345" "Zmlyc3Q=" 0 0).take 4)) = true := by decide +kernel

/-- A run up to the submission, with the large body. -/
theorem largeService_settling : ∃ evs s task paid receipt, (machine largeService).Run evs s ∧
    s.phase 1 = .settling task largeBody paid ∧
      receiptOf pauseX402 pausePayment paid.payment (.returned pauseSettled) = .ok receipt :=
  exists_settling length_largeBody.le (Machine.run_after _ _) largeService_ready

theorem length_pauseSha256 (data : Bytes) : (pauseSha256 data).length = 32 := by
  unfold pauseSha256
  split_ifs <;> decide +kernel

/-- The large body passes the check before the settlement, and the store refuses the response after it. -/
theorem large_response_refused : ∃ evs s task paid receipt, (machine largeService).Run evs s ∧
    s.phase 1 = .settling task largeBody paid ∧
      receiptOf pauseX402 pausePayment paid.payment (.returned pauseSettled) = .ok receipt ∧
        largeBody.length ≤ maxCachedResultBytes ∧ ¬ Retainable receipt paid.payment largeBody ∧
          ∀ now, ∃ call response,
            (step largeService s ⟨1, now, .settleAnswer (.returned pauseSettled)⟩).1 =
                [.result call, .respond response] ∧
              call.2 = .raised (.responseTooLarge paymentIdempotencyConfig.maxResponseBytes) := by
  obtain ⟨evs, s, task, paid, receipt, hrun, hphase, hreceipt⟩ := largeService_settling
  obtain ⟨_, signature, reservation, _, _, -, hroute, hchecked⟩ := settling_checked hrun hphase
  have hproof := hchecked.proof
  obtain ⟨_, -, hheader⟩ := receiptOf_responseHeader hreceipt
  have hshort : receipt.responseHeader = "e30=" := hheader
  have hdigest := length_pauseSha256 (utf8 signature)
  obtain ⟨outcome, houtcome⟩ := (@settledOutcome_ok_iff receipt paid.payment largeBody _ hproof hdigest).mpr
    (by rw [hshort]; decide)
  have hsize : paymentIdempotencyConfig.maxResponseBytes < outcome.sizeBytes := by
    rw [settledOutcome_size hproof hdigest houtcome, length_largeBody, settledHeaderBytes, Nat.add_assoc]
    exact Nat.lt_add_of_pos_right (Nat.succ_pos _)
  refine ⟨evs, s, task, paid, receipt, hrun, hphase, hreceipt, length_largeBody.le, ?_, fun now => ?_⟩
  · rintro ⟨outcome', hok, hle⟩
    obtain rfl : outcome = outcome' := Except.ok.inj (houtcome.symm.trans hok)
    exact absurd hle (not_le.mpr hsize)
  · rw [step_receipt hphase hroute hreceipt now, houtcome]
    exact ⟨_, _, rfl, (commitIn_tooLarge_iff hrun now reservation outcome).mpr hsize⟩

/-- The large body leaves no room for the headers. -/
theorem settled_retained_iff_large : ∃ (s : Runtime) (task : Task) (paid : Paid) (receipt : PaymentReceipt),
    s.phase 1 = .settling task largeBody paid ∧
    receiptOf pauseX402 pausePayment paid.payment (.returned pauseSettled) = .ok receipt ∧
      ¬ Retainable receipt paid.payment largeBody := by
  obtain ⟨evs, s, task, paid, receipt, hrun, hphase, hreceipt⟩ := largeService_settling
  refine ⟨s, task, paid, receipt, hphase, hreceipt, fun hretain => ?_⟩
  have hsha : ∀ bytes, (largeService.sha256 bytes).length = 32 := length_pauseSha256
  have hsize := ((settled_retained_iff hsha hrun hphase hreceipt).2.1.mp hretain).size
  rw [length_largeBody, settledHeaderBytes, Nat.add_assoc] at hsize
  exact absurd hsize (not_le.mpr (Nat.lt_add_of_pos_right (Nat.succ_pos _)))

end Lucent.Hosted
