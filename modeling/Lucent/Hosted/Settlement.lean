import Mathlib.Tactic.Linarith
import Lucent.Hosted.Ledgers
import Lucent.Payments.Authorization
import Lucent.Preflight.Clearance

/-!
# Lucent.Hosted.Settlement — how often an authorization is submitted

* `submit_event`: a submission is the step that commits the claim of the request.
* `ClaimInTime`: the claim comes before a tombstone of the same authorization can be over.
* `settle_once`: then no authorization is submitted twice, in any interleaving.
* `settle_twice`: a request that waits for the facilitator until the tombstone is over submits it again.
-/

namespace Lucent.Hosted

open Lucent.Lib Lucent.Access Lucent.Payments Lucent.VerifiedSource
open Lucent.Preflight (hexOf)

/-! ## Submissions -/

def Emission.settles? : Emission → Option VerifiedPayment
  | .settle payment => some payment
  | _ => none

/-- The payments a run submits. -/
def submissions (evs : List Event) : List VerifiedPayment := evs.flatMap fun e => e.2.filterMap Emission.settles?

/-- The bytes hashed for the authorizations a run asks the facilitator about. -/
def authorizationsOf (env : Env) (evs : List Event) : Set Bytes :=
  {bytes | ∃ e ∈ evs, ∃ payload a, Emission.verify payload ∈ e.2 ∧
    readAuthorization payload env.settings.payment.requirements = .ok a ∧
    authorizationBytes env.settings.payment.requirements a = some bytes}

/-- The claim comes while a tombstone of the authorization, committed while it could be settled, is not over. -/
def ClaimInTime (env : Env) (evs : List Event) (i : Step) : Prop :=
  ∀ token, i.action = .claim token → ∀ e ∈ evs, e.1.id = i.id → ∀ payload a, Emission.verify payload ∈ e.2 →
    readAuthorization payload env.settings.payment.requirements = .ok a →
      i.now < a.before + paymentClaimsConfig.ttlSeconds - env.settings.payment.maxTimeoutSeconds

section Runs

variable {env : Env} {evs pre post : List Event} {s : Runtime} {e : Event}

theorem mem_settles {emissions : List Emission} {payment : VerifiedPayment} :
    payment ∈ emissions.filterMap Emission.settles? ↔ Emission.settle payment ∈ emissions := by
  rw [List.mem_filterMap]
  constructor
  · rintro ⟨x, hx, h⟩
    rcases x with _ | _ | _ | _ | _ | _ <;> cases h
    exact hx
  · intro h
    exact ⟨_, h, rfl⟩

/-- **A submission** is the step that commits the claim of the request, with its response already built. -/
theorem submit_event {i : Step} {o : List Emission} (h : (machine env).Run (pre ++ (i, o) :: post) s)
    {payment : VerifiedPayment} (hp : Emission.settle payment ∈ o) :
    ∃ s₁ task body paid, (machine env).Run pre s₁ ∧ s₁.phase i.id = .built task body (some paid) ∧
      paid.payment = payment ∧ o = [.claim (.commit paid.claim tombstone i.now, .committed), .settle payment] := by
  obtain ⟨s₁, s₂, hpre, hcase, -⟩ := run_case h
  generalize hr : (o, s₂) = r at hcase
  cases hcase with
  | keyed _ _ _ _ _ _ _ _ _ _ _ _ _ hcase => cases hcase <;> cases hr <;> simp at hp
  | paying _ _ _ _ _ _ _ _ _ _ _ _ hcase => cases hcase <;> cases hr <;> simp at hp
  | submitted task body paid hphase haction hcall =>
    cases hr
    obtain rfl : payment = paid.payment := by simpa using hp
    exact ⟨s₁, task, body, paid, hpre, hphase, rfl,
      congrArg (fun o => [Emission.claim (_, o), .settle paid.payment]) hcall⟩
  | aborted task claim error hphase haction =>
    obtain rfl := congrArg Prod.fst hr
    obtain ⟨n, call, hcall⟩ | hrespond := mem_abort hp
    · rcases n with _ | _ | _ <;> cases hcall
    · cases hrespond
  | _ =>
    cases hr
    simp at hp

/-- **A claim** is reserved for the authorization of a payment that was offered and accepted. -/
theorem claim_event {i : Step} {o : List Emission} (h : (machine env).Run (pre ++ (i, o) :: post) s)
    {r : Reservation ℚ} {c : StoreEvent ℚ} (hc : c ∈ callsOf .claim (i, o)) (hissues : StoreEvent.Issues r c) :
    ∃ s₁ task baseline payment token, (machine env).Run pre s₁ ∧ s₁.phase i.id = .verified task baseline payment ∧
      i.action = .claim token ∧
      c = (.reserve "x402-authorization" (some payment.authorizationFingerprint) task.requestFingerprint token i.now,
        .decided (.reserved r)) := by
  obtain ⟨s₁, s₂, hpre, hcase, -⟩ := run_case h
  generalize hr : (o, s₂) = x at hcase
  cases hcase with
  | keyed _ _ _ _ _ _ _ _ _ _ _ _ _ hcase => cases hcase <;> cases hr <;> exact absurd hc List.not_mem_nil
  | paying _ _ _ _ _ _ _ _ _ _ _ _ hcase => cases hcase <;> cases hr <;> exact absurd hc List.not_mem_nil
  | claimed task baseline payment token reservation hphase haction hcall =>
    cases hr
    obtain rfl := List.mem_singleton.mp hc
    cases hcall.symm.trans (issues_outcome hissues)
    exact ⟨s₁, task, baseline, payment, token, hpre, hphase, haction, congrArg (fun o => (_, o)) hcall⟩
  | unclaimed task baseline payment token e hphase haction hcall =>
    cases hr
    obtain rfl := List.mem_singleton.mp hc
    exact absurd (issues_outcome hissues) (hcall r)
  | submitted =>
    cases hr
    obtain rfl := List.mem_singleton.mp hc
    exact hissues.elim
  | unsubmitted =>
    cases hr
    obtain rfl := List.mem_singleton.mp hc
    exact hissues.elim
  | aborted task claim error hphase haction =>
    obtain rfl := congrArg Prod.fst hr
    exact absurd hissues ((abort_storeStep hphase).not_issues (by simp [haction, Action.token?]) c hc)
  | _ =>
    cases hr
    exact absurd hc List.not_mem_nil

/-- What an offered payment was checked for. -/
theorem checkRequest_payment {task : Task} {now : ℚ} {baseline : Preflight.PreflightResult} {payment : VerifiedPayment}
    (h : checkRequest env now task = .ok (baseline, some payment)) :
    Preflight.preflightTransaction env.preflight task.request.payload = .ok baseline ∧
      ∃ signature r a, task.route = .x402 signature r ∧
        CheckedPayment env.sha256 env.x402 env.settings.payment signature now payment a := by
  obtain ⟨baseline', hbaseline, h⟩ := bind_eq_ok.mp h
  split at h
  · next signature r hroute =>
    obtain ⟨-, h⟩ := rejectIf_bind_eq_ok.mp h
    obtain ⟨payment', hpayment, h⟩ := bind_eq_ok.mp h
    cases pure_eq_ok.mp h
    obtain ⟨a, ha⟩ := checkPayment_eq_ok (mapError_eq_ok.mp hpayment)
    exact ⟨mapError_eq_ok.mp hbaseline, signature, r, a, hroute, ha⟩
  · cases pure_eq_ok.mp h

/-- The window of an offered payment, at the time of the check. -/
theorem Offered.window {id : ℕ} {task : Task} {baseline : Preflight.PreflightResult} {payment : VerifiedPayment}
    (h : Offered env evs id task baseline payment) : ∃ e ∈ evs, e.1.id = id ∧ Emission.verify payment.payload ∈ e.2 ∧
      ∃ a bytes, readAuthorization payment.payload env.settings.payment.requirements = .ok a ∧
        authorizationBytes env.settings.payment.requirements a = some bytes ∧
        payment.authorizationFingerprint = sha256Text env.sha256 bytes ∧
        ¬ outsideWindow env.settings.payment a e.1.now := by
  obtain ⟨e, he, hid, hcheck, hverify⟩ := h
  obtain ⟨-, signature, r, a, -, hchecked⟩ := checkRequest_payment hcheck
  obtain ⟨bytes, hbytes, hfingerprint⟩ := hchecked.fingerprint
  exact ⟨e, he, hid, by simp [hverify], a, bytes, hchecked.authorization, hbytes, hfingerprint, hchecked.window⟩

/-- Two submissions of one authorization: the second one needs a claim that comes too late. -/
theorem submissions_ne {i i' : Step} {o o' : List Emission} {mid : List Event}
    (h : (machine env).Run (pre ++ (i, o) :: mid ++ (i', o') :: post) s)
    (ho : Machine.Respects Orderly (pre ++ (i, o) :: mid ++ (i', o') :: post))
    (ht : Machine.Respects (ClaimInTime env) (pre ++ (i, o) :: mid ++ (i', o') :: post))
    (hsha : Set.InjOn env.sha256 (authorizationsOf env (pre ++ (i, o) :: mid ++ (i', o') :: post)))
    {payment payment' : VerifiedPayment} (hp : Emission.settle payment ∈ o) (hp' : Emission.settle payment' ∈ o') :
    payment.authorizationFingerprint ≠ payment'.authorizationFingerprint := by
  intro hsame
  have hcut : pre ++ (i, o) :: mid ++ (i', o') :: post = pre ++ (i, o) :: (mid ++ (i', o') :: post) := by simp
  obtain ⟨s₁, task, body, paid, hpre, hphase, rfl, hout⟩ := submit_event (hcut ▸ h) hp
  obtain ⟨s₂, task', body', paid', hpre', hphase', rfl, hout'⟩ := submit_event h hp'
  have hbacked := run_backed hpre i.id
  rw [hphase] at hbacked
  have hbacked' := run_backed hpre' i'.id
  rw [hphase'] at hbacked'
  obtain ⟨-, baseline, hcleared, -⟩ := hbacked
  obtain ⟨-, baseline', hcleared', -⟩ := hbacked'
  have hclaimed : Claimed pre i.id task paid := hcleared.2.2
  have hclaimed' : Claimed (pre ++ (i, o) :: mid) i'.id task' paid' := hcleared'.2.2
  -- both commits are on the slot of the authorization, so the second claim was issued when the first one was over
  have hkey : IdempotencyStore.cacheKey paid'.claim = IdempotencyStore.cacheKey paid.claim := by
    rw [hclaimed'.cacheKey hpre', hclaimed.cacheKey hpre, hsame]
  have hcalls : calls .claim (pre ++ (i, o) :: mid ++ (i', o') :: post) =
      calls .claim pre ++ (.commit paid.claim tombstone i.now, .committed) :: calls .claim mid ++
        (.commit paid'.claim tombstone i'.now, .committed) :: calls .claim post := by
    rw [calls_append, calls_append, calls_cons, calls_cons, callsOf, callsOf, hout, hout']
    rfl
  obtain ⟨d, hd, -, -⟩ := run_ledger (run_store h .claim)
  have hlegal := run_legal h (respects_freshToken ho) .claim
  have hclock := run_clockOrdered h (respects_timely ho) .claim
  rw [hcalls] at hd hlegal hclock
  obtain ⟨c, hc, hissues, now, hnow, hlate⟩ := noEvict_recommit rfl hd hlegal hclock hkey
  -- the step that issued the second claim
  obtain ⟨⟨j, q⟩, hj, hcall⟩ := mem_calls.mp hc
  obtain ⟨m, m', rfl⟩ := List.append_of_mem hj
  have hcut' : pre ++ (i, o) :: (m ++ (j, q) :: m') ++ (i', o') :: post =
      (pre ++ (i, o) :: m) ++ (j, q) :: (m' ++ (i', o') :: post) := by simp
  obtain ⟨s₃, task₃, baseline₃, payment₃, token, hpre₃, hphase₃, haction, rfl⟩ := claim_event (hcut' ▸ h) hcall hissues
  obtain rfl : j.now = now := Option.some.inj hnow
  have hfingerprint : payment₃.authorizationFingerprint = paid'.payment.authorizationFingerprint := by
    obtain ⟨c, hc', hissues'⟩ := hclaimed'.call
    have hin : calls .claim (pre ++ (i, o) :: (m ++ (j, q) :: m')) ⊆ calls .claim
        (pre ++ (i, o) :: (m ++ (j, q) :: m') ++ (i', o') :: post) := by
      rw [calls_append _ (pre ++ _)]
      exact List.subset_append_left _ _
    have hsub : calls .claim (m ++ (j, q) :: m') ⊆ calls .claim (pre ++ (i, o) :: (m ++ (j, q) :: m')) := by
      rw [calls_append _ pre, calls_cons _ (i, o)]
      exact fun x hx => List.mem_append_right _ (List.mem_append_right _ hx)
    obtain rfl := issues_call_unique h (respects_freshToken ho) (hin (hsub hc)) (hin hc') hissues hissues'.issues
    obtain ⟨-, hk, -⟩ := hissues'
    exact Option.some.inj hk
  have hbacked₃ := run_backed hpre₃ j.id
  rw [hphase₃] at hbacked₃
  obtain ⟨w, hw, -, hverify, a, bytes, hauth, hbytes, hfp, hwindow⟩ := Offered.window hcleared.1
  obtain ⟨w₃, hw₃, hid₃, hverify₃, a₃, bytes₃, hauth₃, hbytes₃, hfp₃, -⟩ := hbacked₃.2.1.window
  -- one fingerprint is one authorization
  have hin : w ∈ pre ++ (i, o) :: (m ++ (j, q) :: m') ++ (i', o') :: post := by simp [hw]
  have hin₃ : w₃ ∈ pre ++ (i, o) :: (m ++ (j, q) :: m') ++ (i', o') :: post := by
    rw [hcut']
    exact List.mem_append_left _ hw₃
  obtain rfl : bytes = bytes₃ := hsha ⟨w, hin, _, a, hverify, hauth, hbytes⟩ ⟨w₃, hin₃, _, a₃, hverify₃, hauth₃, hbytes₃⟩
    (sha256Text_inj (hfp.symm.trans (hsame.trans (hfingerprint.symm.trans hfp₃))))
  have hbefore : a.before = a₃.before := by
    rw [Authorization.before, Authorization.before, (authorizationBytes_inj hbytes hbytes₃).2.2.2.2.1]
  -- the window was open when the first payment was checked, so its tombstone outlives the time left for a claim
  have hwindow' : (a.before : ℚ) ≤ w.1.now + env.settings.payment.maxTimeoutSeconds :=
    not_lt.mp fun hlt => hwindow (.inr (.inr hlt))
  have hbeforeSettle : w.1.now ≤ i.now := (ho pre (i, o) _ hcut).1 w hw
  have hintime := ht _ _ _ hcut' token haction w₃ hw₃ hid₃ _ a₃ hverify₃ hauth₃
  rw [← hbefore] at hintime
  have hlate' : i.now + paymentClaimsConfig.ttlSeconds ≤ j.now := hlate
  linarith

end Runs

/-- **At most one settlement**: no authorization is submitted twice, if every claim comes in time. -/
theorem settle_once {env : Env} {evs : List Event} {s : Runtime} (h : (machine env).Run evs s)
    (ho : Machine.Respects Orderly evs) (ht : Machine.Respects (ClaimInTime env) evs)
    (hsha : Set.InjOn env.sha256 (authorizationsOf env evs)) :
    ((submissions evs).map VerifiedPayment.authorizationFingerprint).Nodup := by
  refine List.pairwise_map.mpr (List.pairwise_flatMap.mpr ⟨?_, Machine.pairwise_of_split ?_⟩)
  · rintro ⟨i, o⟩ he
    obtain ⟨pre, post, rfl⟩ := List.append_of_mem he
    by_cases hex : ∃ payment, Emission.settle payment ∈ o
    · obtain ⟨payment, hp⟩ := hex
      obtain ⟨-, -, -, -, -, -, -, rfl⟩ := submit_event h hp
      exact List.pairwise_singleton _ payment
    · rw [show o.filterMap Emission.settles? = [] from
        List.eq_nil_iff_forall_not_mem.mpr fun payment hp => hex ⟨payment, mem_settles.mp hp⟩]
      exact .nil
  · rintro pre ⟨i, o⟩ mid ⟨i', o'⟩ post rfl payment hp payment' hp'
    exact submissions_ne h ho ht hsha (mem_settles.mp hp) (mem_settles.mp hp')

/-! ## A claim that comes too late -/

/-- The ABI of `pause()`, and a call of it. -/
def pauseAbi : Json :=
  .arr [.obj [("inputs", .arr []), ("name", .str "pause"), ("stateMutability", .str "nonpayable"),
    ("type", .str "function")]]

def pauseCall : Json :=
  .obj [("transaction", .obj [("chain_id", .int 1), ("from", .str "0x1111111111111111111111111111111111111111"),
      ("to", .str "0x2222222222222222222222222222222222222222"), ("data", .str "0x8456cb59"), ("value", .str "0x0")]),
    ("descriptor", .obj [
      ("context", .obj [("contract", .obj [("abi", pauseAbi), ("deployments", .arr [.obj [("chainId", .int 1),
        ("address", .str "0x2222222222222222222222222222222222222222")]])])]),
      ("display", .obj [("formats", .obj [])])])]

/-- SHA-256 of what a run hashes: two keys, two headers, an authorization and its fingerprint, and the call. -/
def pauseSha256 (data : Bytes) : Bytes :=
  if data = utf8 "payment_first_12345" then hexOf "05bbb3caa5a480c55195cc072058aef72e5deca69d7d315d9b47bb2d9bcd71cb"
  else if data = utf8 "payment_second_1234" then hexOf "76d656881e23f940c893c2e8c3ce2ce9628e29dd8fdb8dba86945b01c43f7e7b"
  else if data = utf8 "Zmlyc3Q=" then hexOf "32da5526c7638c912ec1bee1e558692936236ed012ce6cecc03a1db93d1eb6fc"
  else if data = utf8 "c2Vjb25k" then hexOf "d4b961cf700e82240babe79b7f45477effc847671cf3db06a945f5668b4655ee"
  else if (utf8 "\x7b\"amount\"").isPrefixOf data then
    hexOf "606ae227fe85ff9763439a0ffdf5135631aea160769152d653ce59502fe517ae"
  else if (utf8 "sha256:").isPrefixOf data then hexOf "b6dd7052f01078264f7a6102ef0b35f9611260e6be8be2678f1d6d044f4177ae"
  else hexOf "9e837e706b250d2b8651384da7ed62fdccf4ff98b5e7c6a10d30199b19705e47"

/-- One signed transfer, under the identifier of a request. -/
def signedPayload (identifier : String) : PaymentPayload where
  x402Version := 2
  accepted := .obj [("scheme", .str "exact"), ("network", .str baseMainnet), ("asset", .str baseMainnetUsdc),
    ("amount", .str "10000"), ("payTo", .str "0x4444444444444444444444444444444444444444"),
    ("maxTimeoutSeconds", .int 300), ("extra", .obj [("name", .str "USD Coin"), ("version", .str "2"),
      ("assetTransferMethod", .str "eip3009")])]
  resourceUrl := some "https://lucent.example/v1/preflight"
  payload := .obj [("authorization", .obj [("from", .str "0x5555555555555555555555555555555555555555"),
    ("to", .str "0x4444444444444444444444444444444444444444"), ("value", .str "10000"), ("validAfter", .str "0"),
    ("validBefore", .str "300"),
    ("nonce", .str "0x6666666666666666666666666666666666666666666666666666666666666666")])]
  extensions := .obj [("payment-identifier", .obj [("info", .obj [("required", .bool true), ("id", .str identifier)])])]

def pauseX402 : X402 where
  decodePaymentSignatureHeader header :=
    if header = "Zmlyc3Q=" then some (.payload (signedPayload "payment_first_12345"))
    else if header = "c2Vjb25k" then some (.payload (signedPayload "payment_second_1234"))
    else none
  extractAndValidatePaymentIdentifier payload :=
    match ((payload.extensions.get? "payment-identifier").bind (·.get? "info")).bind (·.get? "id") with
    | some (.str identifier) => (some identifier, true)
    | _ => (none, false)
  encodePaymentRequiredHeader _ := "e30="
  encodePaymentResponseHeader _ := "e30="

def pausePayment : PaymentConfig where
  enabled := true
  network := baseMainnet
  asset := baseMainnetUsdc
  amount := "10000"
  payTo := "0x4444444444444444444444444444444444444444"
  resourceUrl := some "https://lucent.example/v1/preflight"
  maxTimeoutSeconds := 300
  timeout_range _ := by decide

/-- Two services for paying clients that differ in the body of the response. -/
def pauseEnv (body : Bytes) : Env where
  preflight := { Preflight.demoEnv [] with
    sha256 := pauseSha256
    keccak := fun _ => hexOf "8456cb591a934d53f6ccc6332123a165a1f3562907bf11330d847a29ca49eb89" }
  x402 := pauseX402
  settings := ⟨.x402, true, [], pausePayment, rfl, fun _ => rfl⟩
  readFloat := Json.textOnly
  floatRepr _ := "0.0"
  responseBody _ _ _ := some body

def pauseSource : VerifiedSourceResult where
  chainId := 1
  address := "0x2222222222222222222222222222222222222222"
  block := ⟨1, ""⟩
  target := ⟨"0x2222222222222222222222222222222222222222", "", 1⟩
  effectiveContract := ⟨"0x2222222222222222222222222222222222222222", "", 1⟩
  proxyChain := []
  verificationMatch := "exact_match"
  abiHash := ""
  abiJson := utf8Chars ((pauseAbi.dumps false true).getD [])

/-- A request of `pause()` under a key, paid with a header. -/
def pauseRequest (key signature : String) : HttpRequest := ⟨pauseCall, "r", some key, none, some signature⟩

/-- The steps of a request up to the submission; the facilitator answers at `answered`. -/
def paidSteps (id : ℕ) (key signature : String) (arrival answered : ℚ) : List Step :=
  [⟨id, arrival, .arrive (pauseRequest key signature) (key ++ "-token") (.receipt 1 1 1)⟩, ⟨id, arrival, .preflight⟩,
    ⟨id, answered, .verifyAnswer (.returned ⟨true, none⟩)⟩, ⟨id, answered, .claim (key ++ "-claim")⟩,
    ⟨id, answered, .build (.returned pauseSource)⟩, ⟨id, answered, .settle⟩]

/-- The first request settles at once; the second one is checked in time, and waits for the facilitator until the
tombstone of the first one is over. -/
def lateSteps : List Step :=
  paidSteps 1 "payment_first_12345" "Zmlyc3Q=" 0 0 ++ paidSteps 2 "payment_second_1234" "c2Vjb25k" 299 901

def pauseService : Env := pauseEnv (utf8 "\x7b\x7d")

/-- The hashed bytes of the authorization of a payload. -/
def signedBytes (env : Env) (payload : PaymentPayload) : Option Bytes :=
  (readAuthorization payload env.settings.payment.requirements).toOption.bind
    (authorizationBytes env.settings.payment.requirements)

/-- Every payload a run offers has this authorization. -/
def offersOnly (env : Env) (bytes : Option Bytes) (evs : List Event) : Bool :=
  evs.all fun e => e.2.all fun x => match x with
    | .verify payload => decide (signedBytes env payload = bytes)
    | _ => true

theorem authorizationsOf_injOn {env : Env} {bytes : Option Bytes} {evs : List Event}
    (h : offersOnly env bytes evs = true) : Set.InjOn env.sha256 (authorizationsOf env evs) := by
  have hbytes : ∀ b ∈ authorizationsOf env evs, some b = bytes := by
    rintro b ⟨e, he, payload, a, hverify, ha, hb⟩
    have hsigned := List.all_eq_true.mp (List.all_eq_true.mp h e he) _ hverify
    rw [← of_decide_eq_true hsigned, signedBytes, ha]
    exact hb.symm
  intro b hb b' hb' _
  exact Option.some.inj ((hbytes b hb).trans (hbytes b' hb').symm)

/-- What the late run submits, and what it offers. -/
theorem lateSteps_events : ((submissions ((machine pauseService).trace lateSteps)).map
      VerifiedPayment.authorizationFingerprint =
    List.replicate 2 "sha256:606ae227fe85ff9763439a0ffdf5135631aea160769152d653ce59502fe517ae") ∧
    offersOnly pauseService (signedBytes pauseService (signedPayload "payment_first_12345"))
      ((machine pauseService).trace lateSteps) = true := by decide +kernel

/-- One authorization is submitted twice. -/
theorem settle_twice : ∃ evs s, (machine pauseService).Run evs s ∧ Machine.Respects Orderly evs ∧
    Set.InjOn pauseService.sha256 (authorizationsOf pauseService evs) ∧
      ¬ ((submissions evs).map VerifiedPayment.authorizationFingerprint).Nodup := by
  refine ⟨_, _, Machine.run_after _ lateSteps, respects_orderly ?_, authorizationsOf_injOn lateSteps_events.2, ?_⟩
  · rw [Machine.trace_map_fst]
    decide +kernel
  · rw [lateSteps_events.1]
    decide

/-- The first request settles, and while its tombstone is alive the second wrapper of the authorization is checked,
verified and refused. -/
def wrapperSteps : List Step :=
  paidSteps 1 "payment_first_12345" "Zmlyc3Q=" 0 0 ++
    (paidSteps 2 "payment_second_1234" "c2Vjb25k" 10 20).take 4 ++ [⟨2, 20, .abort⟩]

/-- The statuses of the responses of a run. -/
def statuses (evs : List Event) : List ℤ :=
  evs.flatMap fun e => e.2.filterMap fun x => match x with
    | .respond response => some response.statusCode
    | _ => none

theorem wrapperSteps_events : statuses ((machine pauseService).trace wrapperSteps) = [409] ∧
    (submissions ((machine pauseService).trace wrapperSteps)).length = 1 ∧
    offersOnly pauseService (signedBytes pauseService (signedPayload "payment_first_12345"))
      ((machine pauseService).trace wrapperSteps) = true := by decide +kernel

/-- Two wrappers of one authorization come in time: the second one is refused. -/
theorem settle_once_paid : statuses ((machine pauseService).trace wrapperSteps) = [409] ∧
    (submissions ((machine pauseService).trace wrapperSteps)).length = 1 ∧
    ((submissions ((machine pauseService).trace wrapperSteps)).map VerifiedPayment.authorizationFingerprint).Nodup := by
  refine ⟨wrapperSteps_events.1, wrapperSteps_events.2.1, settle_once (Machine.run_after _ _) (respects_orderly ?_) ?_
    (authorizationsOf_injOn wrapperSteps_events.2.2)⟩
  · rw [Machine.trace_map_fst]
    decide +kernel
  · intro pre e post heq token haction e' he' hid payload a hverify ha
    have hin : e ∈ (machine pauseService).trace wrapperSteps := by
      rw [heq]
      exact List.mem_append_right _ List.mem_cons_self
    have hnow : e.1.now ≤ 20 :=
      (by decide +kernel : ∀ i ∈ wrapperSteps, i.now ≤ 20) _ (Machine.fst_mem_of_mem_trace hin)
    have hbefore : (0 : ℚ) ≤ a.before := Nat.cast_nonneg _
    rw [show paymentClaimsConfig.ttlSeconds = 900 from rfl,
      show ((pauseService.settings.payment.maxTimeoutSeconds : ℤ) : ℚ) = 300 from rfl]
    linarith

end Lucent.Hosted
