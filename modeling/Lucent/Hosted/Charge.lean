import Lucent.Hosted.Answer

/-!
# Lucent.Hosted.Charge — no result without a payment, no payment without a result

* `Completion`: the step ends a request whose payment the facilitator has settled.
* `Replay`: the step sends the outcome of an earlier completion again, for the same key, request and proof.
* `Submission`: what a request has behind it when it submits its payment.
* `verdict_paid`: in any interleaving, a verdict for a paying client is one of the first two, and every submission is
  the third.
-/

namespace Lucent.Hosted

open Lucent.Lib Lucent.Access Lucent.Payments Lucent.VerifiedSource

/-! ## Requests of a run -/

/-- The request arrives in the run. -/
def Arrives (evs : List Event) (request : HttpRequest) : Prop := ∃ e ∈ evs, arrivalOf e.1.id e = some request

/-- The digest has no collisions on the keys and the canonical requests of a run. -/
structure Collisionless (env : Env) (evs : List Event) : Prop where
  keys : Set.InjOn (fun key => env.sha256 (utf8 key))
    {key | ∃ request, Arrives evs request ∧ request.idempotencyKey = some key}
  requests : Set.InjOn env.sha256 {bytes | ∃ request, Arrives evs request ∧ canonicalRequest request.payload = some bytes}

section Requests

variable {env : Env} {evs pre post : List Event} {s : Runtime} {id : ℕ} {request : HttpRequest}

theorem requestOf_append (h : requestOf evs id = some request) (post : List Event) :
    requestOf (evs ++ post) id = some request := by
  rw [requestOf, List.findSome?_append, show evs.findSome? (arrivalOf id) = some request from h, Option.some_or]

theorem arrivalOf_self {i : Step} {token : String} {quota : QuotaAnswer} (haction : i.action = .arrive request token quota)
    (o : List Emission) : arrivalOf i.id (i, o) = some request := by
  simp [arrivalOf, haction]

theorem requestOf_arrives (h : requestOf evs id = some request) : Arrives evs request := by
  obtain ⟨e, he, harrival⟩ := List.exists_of_findSome?_eq_some h
  obtain rfl : e.1.id = id := by
    by_contra hne
    rw [arrivalOf_of_ne hne] at harrival
    exact nomatch harrival
  exact ⟨e, he, harrival⟩

theorem Arrives.mono {evs' : List Event} (h : Arrives evs request) (hsub : evs ⊆ evs') : Arrives evs' request := by
  obtain ⟨e, he, harrival⟩ := h
  exact ⟨e, hsub he, harrival⟩

theorem Collisionless.mono {evs' : List Event} (h : Collisionless env evs') (hsub : evs ⊆ evs') :
    Collisionless env evs where
  keys := by
    refine h.keys.mono ?_
    rintro key ⟨request, harrives, hkey⟩
    exact ⟨request, harrives.mono hsub, hkey⟩
  requests := by
    refine h.requests.mono ?_
    rintro bytes ⟨request, harrives, hbytes⟩
    exact ⟨request, harrives.mono hsub, hbytes⟩

/-- The request of an idle identifier is the one that arrives. -/
theorem requestOf_idle (h : (machine env).Run pre s) {i : Step} (hphase : s.phase i.id = .idle) {token : String}
    {quota : QuotaAnswer} (haction : i.action = .arrive request token quota) (o : List Emission) :
    requestOf (pre ++ [(i, o)]) i.id = some request := by
  have hnone : requestOf pre i.id = none := by
    have hbacked := run_backed h i.id
    rwa [hphase] at hbacked
  rw [requestOf_concat, hnone, arrivalOf_self haction, Option.none_or]

/-- A task is that of a paying client exactly where the request takes that path. -/
theorem Admitted.paid_iff {task : Task} (h : Admitted env evs id task) :
    (∃ signature r, task.route = .x402 signature r) ↔ PaidPath env task.request := by
  constructor
  · rintro ⟨signature, r, hroute⟩
    exact (h.paid hroute).1
  · intro hpath
    by_contra hnot
    exact h.unpaid (fun signature r hroute => hnot ⟨signature, r, hroute⟩) hpath

end Requests

/-- Requests with one fingerprint are one canonical request. -/
theorem canonicalRequest_eq {env : Env} {evs : List Event} (hsha : Collisionless env evs) {request request' : HttpRequest}
    (h : Arrives evs request) (h' : Arrives evs request') {fingerprint : String}
    (hf : canonicalRequestFingerprint env request.payload = .ok fingerprint)
    (hf' : canonicalRequestFingerprint env request'.payload = .ok fingerprint) :
    canonicalRequest request.payload = canonicalRequest request'.payload := by
  unfold canonicalRequestFingerprint at hf hf'
  rcases hbody : canonicalRequest request.payload with _ | body <;> rw [hbody] at hf
  · exact nomatch hf
  rcases hbody' : canonicalRequest request'.payload with _ | body' <;> rw [hbody'] at hf'
  · exact nomatch hf'
  have hsame : sha256Text env.sha256 body = sha256Text env.sha256 body' :=
    (Except.ok.inj hf).trans (Except.ok.inj hf').symm
  rw [hsha.requests ⟨request, h, hbody⟩ ⟨request', h', hbody'⟩ (sha256Text_inj hsame)]

/-! ## Calls of the stores -/

section Calls

variable {env : Env} {pre post : List Event} {s : Runtime} {i : Step} {o : List Emission} {owner : Reservation ℚ}
  {cached : IdempotencyResponse} {t f token : String} {k : Option String} {now T : ℚ} {outcome : StoreOutcome ℚ}
  {n : StoreName}

/-- The step keeps to the store of its path. -/
def Apart (env : Env) (request : HttpRequest) (e : Event) : Prop :=
  (PaidPath env request → callsOf .access e = []) ∧ (¬ PaidPath env request → callsOf .result e = [])

/-- **The paths are apart**: a request calls the store of its own path only. -/
theorem event_apart (h : (machine env).Run (pre ++ (i, o) :: post) s) {request : HttpRequest}
    (hrequest : requestOf (pre ++ [(i, o)]) i.id = some request) : Apart env request (i, o) := by
  obtain ⟨s₁, s₂, hpre, hcase, -⟩ := run_case h
  have hbacked := run_backed hpre i.id
  -- the task of a request that was admitted
  have htask : ∀ {task}, Admitted env pre i.id task →
      ((∃ signature r, task.route = .x402 signature r) ↔ PaidPath env request) := by
    intro task hadmitted
    obtain rfl : task.request = request := Option.some.inj ((requestOf_append hadmitted.request _).symm.trans hrequest)
    exact hadmitted.paid_iff
  generalize hr : (o, s₂) = x at hcase
  cases hcase with
  | keyed request' token quota fingerprint tenantId headers emitted phase hphase haction hfingerprint hpath _ hcase =>
    obtain rfl : request' = request := Option.some.inj ((requestOf_idle hpre hphase haction o).symm.trans hrequest)
    refine ⟨fun hpaid => absurd hpaid hpath, fun _ => ?_⟩
    cases hcase <;> cases hr <;> rfl
  | paying request' token quota fingerprint signature emitted phase hphase haction hfingerprint hpath _ hcase =>
    obtain rfl : request' = request := Option.some.inj ((requestOf_idle hpre hphase haction o).symm.trans hrequest)
    refine ⟨fun _ => ?_, fun hunpaid => absurd hpath hunpaid⟩
    cases hcase <;> cases hr <;> rfl
  | settled task body paid answer signature reservation outcome response hphase haction hroute =>
    rw [hphase] at hbacked
    cases hr
    exact ⟨fun _ => rfl, fun hunpaid => absurd ((htask hbacked.1).mp ⟨signature, reservation, hroute⟩) hunpaid⟩
  | stored task body headers reservation cached hphase haction hroute =>
    rw [hphase] at hbacked
    cases hr
    refine ⟨fun hpaid => ?_, fun _ => rfl⟩
    obtain ⟨signature, r, hroute'⟩ := (htask hbacked.1).mpr hpaid
    exact nomatch hroute.symm.trans hroute'
  | miscounted task body headers reservation cached e hphase hroute =>
    rw [hphase] at hbacked
    cases hr
    refine ⟨fun hpaid => ?_, fun _ => rfl⟩
    obtain ⟨signature, r, hroute'⟩ := (htask hbacked.1).mpr hpaid
    exact nomatch hroute.symm.trans hroute'
  | unstored task body headers reservation cached hphase hroute =>
    rw [hphase] at hbacked
    cases hr
    refine ⟨fun hpaid => ?_, fun _ => rfl⟩
    obtain ⟨signature, r, hroute'⟩ := (htask hbacked.1).mpr hpaid
    exact nomatch hroute.symm.trans hroute'
  | aborted task claim error hphase haction =>
    rw [hphase] at hbacked
    obtain rfl := congrArg Prod.fst hr
    have hpath := htask hbacked.1
    unfold abort abortKey abortClaim
    rcases hroute : task.route with _ | ⟨headers, r⟩ | ⟨signature, r⟩ <;> rw [hroute] at hpath
    · rcases claim with _ | _ <;> exact ⟨fun _ => rfl, fun _ => rfl⟩
    · have hunpaid : ¬ PaidPath env request := fun hpaid => by
        obtain ⟨signature, r, hroute'⟩ := hpath.mpr hpaid
        exact nomatch hroute'
      rcases claim with _ | _ <;> exact ⟨fun hpaid => absurd hpaid hunpaid, fun _ => rfl⟩
    · have hpaid : PaidPath env request := hpath.mp ⟨signature, r, rfl⟩
      rcases claim with _ | _ <;> exact ⟨fun _ => rfl, fun hunpaid => absurd hpaid hunpaid⟩
  | _ =>
    cases hr
    exact ⟨fun _ => rfl, fun _ => rfl⟩

/-- The end of a failed request aborts. -/
theorem abort_calls {task : Task} {claim : Option (Reservation ℚ)} {error : Raised} {c : StoreEvent ℚ}
    (hc : c ∈ callsOf n (i, (abort env s i.id i.now task claim error).1)) : ∃ r, c.1 = .abort r i.now := by
  revert hc
  unfold abort abortKey abortClaim
  rcases task.route with _ | ⟨headers, r⟩ | ⟨signature, r⟩ <;> rcases claim with _ | r' <;> rcases n with _ | _ | _ <;>
    intro hc
  all_goals first
    | exact absurd hc List.not_mem_nil
    | exact ⟨_, congrArg Prod.fst (List.mem_singleton.mp hc)⟩

/-- An outcome of a settlement is committed by the step that answers it. -/
theorem result_commit_event (h : (machine env).Run (pre ++ (i, o) :: post) s)
    (hc : (.commit owner cached T, .committed) ∈ callsOf .result (i, o)) :
    ∃ s₁ task body paid answer signature, (machine env).Run pre s₁ ∧ s₁.phase i.id = .settling task body paid ∧
      i.action = .settleAnswer answer ∧ task.route = .x402 signature owner ∧
      settlementOutcome env task body paid answer = .ok cached := by
  obtain ⟨s₁, s₂, hpre, hcase, -⟩ := run_case h
  generalize hr : (o, s₂) = x at hcase
  cases hcase with
  | keyed _ _ _ _ _ _ _ _ _ _ _ _ _ hcase => cases hcase <;> cases hr <;> exact absurd hc List.not_mem_nil
  | paying _ _ _ _ _ _ _ _ _ _ _ _ hcase => cases hcase <;> cases hr <;> cases List.mem_singleton.mp hc
  | settled task body paid answer signature reservation outcome response hphase haction hroute houtcome =>
    cases hr
    obtain ⟨rfl, rfl, -⟩ : owner = reservation ∧ cached = outcome ∧ T = i.now := by
      have hop := congrArg Prod.fst (List.mem_singleton.mp hc)
      injection hop with h1 h2 h3
      exact ⟨h1, h2, h3⟩
    exact ⟨s₁, task, body, paid, answer, signature, hpre, hphase, haction, hroute, houtcome⟩
  | aborted task claim error hphase haction =>
    obtain rfl := congrArg Prod.fst hr
    obtain ⟨r, hop⟩ := abort_calls hc
    exact nomatch hop
  | _ =>
    cases hr
    exact absurd hc List.not_mem_nil

/-- A result of the other paths is committed by the step that ends its request. -/
theorem access_commit_event (h : (machine env).Run (pre ++ (i, o) :: post) s)
    (hc : (.commit owner cached T, .committed) ∈ callsOf .access (i, o)) :
    ∃ s₁ task body headers, (machine env).Run pre s₁ ∧ s₁.phase i.id = .built task body none ∧
      task.route = .apiKey headers owner := by
  obtain ⟨s₁, s₂, hpre, hcase, -⟩ := run_case h
  generalize hr : (o, s₂) = x at hcase
  cases hcase with
  | keyed _ _ _ _ _ _ _ _ _ _ _ _ _ hcase => cases hcase <;> cases hr <;> cases List.mem_singleton.mp hc
  | paying _ _ _ _ _ _ _ _ _ _ _ _ hcase => cases hcase <;> cases hr <;> exact absurd hc List.not_mem_nil
  | stored task body headers reservation cached' hphase haction hroute =>
    cases hr
    obtain rfl : owner = reservation := by
      have hop := congrArg Prod.fst (List.mem_singleton.mp hc)
      injection hop
    exact ⟨s₁, task, body, headers, hpre, hphase, hroute⟩
  | miscounted task body headers reservation cached' e hphase hroute hcall =>
    cases hr
    exact absurd (congrArg Prod.snd (List.mem_singleton.mp hc)).symm hcall
  | unstored task body headers reservation cached' hphase hroute hcall =>
    cases hr
    rcases List.mem_cons.mp hc with hc | hc
    · exact absurd (congrArg Prod.snd hc).symm hcall
    · exact nomatch congrArg Prod.fst (List.mem_singleton.mp hc)
  | aborted task claim error hphase haction =>
    obtain rfl := congrArg Prod.fst hr
    obtain ⟨r, hop⟩ := abort_calls hc
    exact nomatch hop
  | _ =>
    cases hr
    exact absurd hc List.not_mem_nil

/-- A reservation of a key is asked for by the request that arrives. -/
theorem reserve_event (hn : n ≠ .claim) (h : (machine env).Run (pre ++ (i, o) :: post) s)
    (hc : (.reserve t k f token now, outcome) ∈ callsOf n (i, o)) :
    ∃ s₁ request, (machine env).Run pre s₁ ∧ s₁.phase i.id = .idle ∧ requestOf (pre ++ [(i, o)]) i.id = some request ∧
      request.idempotencyKey = k ∧ canonicalRequestFingerprint env request.payload = .ok f ∧
      callsOf n (i, o) = [(.reserve t k f token now, outcome)] := by
  obtain ⟨s₁, s₂, hpre, hcase, -⟩ := run_case h
  have harrives : ∀ (cfg : StoreConfig ℚ) (store : Store ℚ) (tenantId : String) {request : HttpRequest}
      {token' fingerprint : String} {quota : QuotaAnswer}, s₁.phase i.id = .idle →
      i.action = .arrive request token' quota →
      canonicalRequestFingerprint env request.payload = .ok fingerprint →
      callsOf n (i, o) = [(reserveIn env i.now cfg store tenantId request.idempotencyKey fingerprint token').1] →
      ∃ s₁ request, (machine env).Run pre s₁ ∧ s₁.phase i.id = .idle ∧
        requestOf (pre ++ [(i, o)]) i.id = some request ∧ request.idempotencyKey = k ∧
        canonicalRequestFingerprint env request.payload = .ok f ∧
        callsOf n (i, o) = [(.reserve t k f token now, outcome)] := by
    intro cfg store tenantId request token' fingerprint quota hphase haction hfingerprint hcalls
    rw [hcalls] at hc ⊢
    have heq := List.mem_singleton.mp hc
    injection congrArg Prod.fst heq with h1 h2 h3
    subst h2 h3
    exact ⟨s₁, request, hpre, hphase, requestOf_idle hpre hphase haction o, rfl, hfingerprint, by rw [heq]⟩
  generalize hr : (o, s₂) = x at hcase
  cases hcase with
  | keyed request token' quota fingerprint tenantId headers emitted phase hphase haction hfingerprint _ _ hcase =>
    rcases n with _ | _ | _
    · refine harrives accessConfig s₁.access tenantId hphase haction hfingerprint ?_
      cases hcase <;> cases hr <;> rfl
    · cases hcase <;> cases hr <;> exact absurd hc List.not_mem_nil
    · exact absurd rfl hn
  | paying request token' quota fingerprint signature emitted phase hphase haction hfingerprint _ _ hcase =>
    rcases n with _ | _ | _
    · cases hcase <;> cases hr <;> exact absurd hc List.not_mem_nil
    · refine harrives paymentIdempotencyConfig s₁.paymentIdempotency "x402" hphase haction hfingerprint ?_
      cases hcase <;> cases hr <;> rfl
    · exact absurd rfl hn
  | settled =>
    cases hr
    rcases n with _ | _ | _
    · exact absurd hc List.not_mem_nil
    · exact nomatch congrArg Prod.fst (List.mem_singleton.mp hc)
    · exact absurd rfl hn
  | stored =>
    cases hr
    rcases n with _ | _ | _
    · exact nomatch congrArg Prod.fst (List.mem_singleton.mp hc)
    · exact absurd hc List.not_mem_nil
    · exact absurd rfl hn
  | miscounted =>
    cases hr
    rcases n with _ | _ | _
    · exact nomatch congrArg Prod.fst (List.mem_singleton.mp hc)
    · exact absurd hc List.not_mem_nil
    · exact absurd rfl hn
  | unstored =>
    cases hr
    rcases n with _ | _ | _
    · rcases List.mem_cons.mp hc with hc | hc
      · exact nomatch congrArg Prod.fst hc
      · exact nomatch congrArg Prod.fst (List.mem_singleton.mp hc)
    · exact absurd hc List.not_mem_nil
    · exact absurd rfl hn
  | aborted task claim error hphase haction =>
    obtain rfl := congrArg Prod.fst hr
    obtain ⟨r, hop⟩ := abort_calls hc
    exact nomatch hop
  | _ =>
    cases hr
    rcases n with _ | _ | _
    · exact absurd hc List.not_mem_nil
    · exact absurd hc List.not_mem_nil
    · exact absurd rfl hn

/-- A key that is asked for is that of a request. -/
theorem keysOf_subset (hn : n ≠ .claim) {evs : List Event} (h : (machine env).Run evs s) :
    keysOf (calls n evs) ⊆ {key | ∃ request, Arrives evs request ∧ request.idempotencyKey = some key} := by
  rintro key ⟨t, f, token, now, outcome, hc⟩
  obtain ⟨⟨i, o⟩, he, hcall⟩ := mem_calls.mp hc
  obtain ⟨pre, post, rfl⟩ := List.append_of_mem he
  obtain ⟨s₁, request, -, -, hrequest, hkey, -⟩ := reserve_event hn h hcall
  refine ⟨request, (requestOf_arrives hrequest).mono fun e he => ?_, hkey⟩
  rcases List.mem_append.mp he with he | he
  · exact List.mem_append_left _ he
  · rw [List.mem_singleton.mp he]
    exact List.mem_append_right _ List.mem_cons_self

/-- **A replay** was committed by an earlier step, on a reservation for the same key and request. -/
theorem replay_event (hn : n ≠ .claim) (h : (machine env).Run (pre ++ (i, o) :: post) s)
    (hfresh : Machine.Respects FreshToken (pre ++ (i, o) :: post)) (hsha : Collisionless env (pre ++ (i, o) :: post))
    (hc : (.reserve t k f token now, .decided (.replay cached)) ∈ callsOf n (i, o)) :
    ∃ key p e p' owner T, k = some key ∧ pre = p ++ e :: p' ∧ (.commit owner cached T, .committed) ∈ callsOf n e ∧
      ∃ c ∈ calls n pre, StoreEvent.IssuesFor t key f owner c := by
  obtain ⟨s₁, request, -, -, -, -, -, honly⟩ := reserve_event hn h hc
  have hcut : pre ++ (i, o) :: post = (pre ++ [(i, o)]) ++ post := by simp
  obtain ⟨s₂, s₃, -, -, hrun⟩ := run_storeStep h n
  have hfresh' : Machine.Respects FreshToken (pre ++ [(i, o)]) := Machine.Respects.of_append (hcut ▸ hfresh)
  have hkeys : Set.InjOn (fun key => env.sha256 (utf8 key)) (keysOf (calls n (pre ++ [(i, o)]))) := by
    refine (Collisionless.mono hsha ?_).keys.mono (keysOf_subset hn hrun)
    rw [hcut]
    exact List.subset_append_left _ _
  obtain ⟨d, hd, -, -⟩ := run_ledger (run_store hrun n)
  obtain ⟨key, pre₁, owner, T, mid, rfl, hcalls, ⟨c, hc', hissues⟩, -⟩ :=
    replay_source hd (run_legal hrun hfresh' n) hkeys (by rw [calls_append, calls_singleton, honly])
  have hcommit : (.commit owner cached T, .committed) ∈ calls n pre := by simp [hcalls]
  obtain ⟨e, he, hin⟩ := mem_calls.mp hcommit
  obtain ⟨p, p', rfl⟩ := List.append_of_mem he
  exact ⟨key, p, e, p', owner, T, rfl, rfl, hin, c, by simp [hcalls, hc'], hissues⟩

end Calls

/-! ## Verdicts and payments -/

/-- **A completion**: the request presented this signature, its payment was submitted, and the step brings the report
of its settlement. -/
structure Completion (env : Env) (pre : List Event) (e : Event) (request : HttpRequest) (signature : String) : Prop where
  arrived : requestOf pre e.1.id = some request
  signed : request.paymentSignature = some signature
  settled : ∃ payment settled now a, CheckedPayment env.sha256 env.x402 env.settings.payment signature now payment a ∧
    Recalls pre e.1.id (fun e' => Emission.settle payment ∈ e'.2) ∧ e.1.action = .settleAnswer (.returned settled) ∧
    Settled env.settings.payment payment settled

/-- **A replay** of the outcome that an earlier completion stored, for the same key and the same canonical request;
the stored proof is that of this signature. -/
structure Replay (env : Env) (pre : List Event) (e : Event) (request : HttpRequest) (signature : String)
    (response : HttpResponse) : Prop where
  signed : request.paymentSignature = some signature
  replayed : ∃ fingerprint token cached p e' p' first signature' owner T,
    e.2 = [.result (.reserve "x402" request.idempotencyKey fingerprint token e.1.now, .decided (.replay cached)),
      .respond response] ∧ replayResponse env request cached (some signature) [] = .ok response ∧
    pre = p ++ e' :: p' ∧ Completion env p e' first signature' ∧
    (.commit owner cached T, .committed) ∈ callsOf .result e' ∧
    first.idempotencyKey = request.idempotencyKey ∧
    canonicalRequest first.payload = canonicalRequest request.payload ∧
    Proves (proofFingerprint env.sha256 signature) cached.headers

/-- **A submission** comes after everything else: the request has passed, the facilitator has accepted the payload, the
claim is committed, and the bounded response is built. -/
structure Submission (env : Env) (pre : List Event) (e : Event) (payment : VerifiedPayment) : Prop where
  backed : ∃ task body paid baseline verified, paid.payment = payment ∧ Admitted env pre e.1.id task ∧
    Preflight.preflightTransaction env.preflight task.request.payload = .ok baseline ∧
    Recalls pre e.1.id (fun e' => e'.2 = [.verify payment.payload]) ∧
    Recalls pre e.1.id (fun e' => e'.1.action = .verifyAnswer (.returned verified)) ∧ verified.isValid = true ∧
    Claimed pre e.1.id task paid ∧ Built env pre e.1.id task baseline body ∧ body.length ≤ maxCachedResultBytes ∧
    e.2 = [.claim (.commit paid.claim tombstone e.1.now, .committed), .settle payment]

/-- A result of one path is not replayed on another. -/
def KeptApart (env : Env) (pre : List Event) (request : HttpRequest) (e : Event) : Prop :=
  Apart env request e ∧ ∀ n t k f token now cached, n ≠ .claim →
    (.reserve t k f token now, .decided (.replay cached)) ∈ callsOf n e →
      ∃ e' ∈ pre, ∃ request' owner T, requestOf pre e'.1.id = some request' ∧
        (.commit owner cached T, .committed) ∈ callsOf n e' ∧ (PaidPath env request' ↔ PaidPath env request)

section Verdicts

variable {env : Env} {pre post : List Event} {s : Runtime} {i : Step} {o : List Emission} {task : Task} {body : Bytes}
  {paid : Paid} {answer : FacilitatorAnswer SettleResponse} {request : HttpRequest} {response : HttpResponse}

/-- A settlement is answered with a verdict only after a receipt. -/
theorem settlementResponse_receipt (hd : answer.Declines)
    (h : (settlementResponse env task body paid answer).statusCode = 200) :
    ∃ receipt, receiptOf env.x402 env.settings.payment paid.payment answer = .ok receipt := by
  unfold settlementResponse at h
  split at h
  · next e hreceipt => exact absurd h (problem_status _ _ (receiptOf_declines hd e hreceipt))
  · next receipt hreceipt => exact ⟨receipt, hreceipt⟩

/-- A verdict is stored of a settlement only after a receipt. -/
theorem settlementOutcome_receipt {outcome : IdempotencyResponse} (hd : answer.Declines)
    (h : settlementOutcome env task body paid answer = .ok outcome) (hstatus : outcome.statusCode = 200) :
    ∃ receipt, receiptOf env.x402 env.settings.payment paid.payment answer = .ok receipt := by
  unfold settlementOutcome at h
  split at h
  · next e hreceipt =>
    rw [(IdempotencyResponse.fromParts_eq_ok_iff.mp h).1] at hstatus
    have hlow := (receiptOf_declines hd e hreceipt).1
    omega
  · next receipt hreceipt => exact ⟨receipt, hreceipt⟩

/-- The answer of the facilitator that gives a receipt completes the request. -/
theorem completion_of_receipt (h : (machine env).Run pre s) (hphase : s.phase i.id = .settling task body paid)
    (haction : i.action = .settleAnswer answer) {receipt : PaymentReceipt}
    (hreceipt : receiptOf env.x402 env.settings.payment paid.payment answer = .ok receipt) (o : List Emission) :
    ∃ signature, Completion env pre (i, o) task.request signature := by
  obtain ⟨_, signature, reservation, now, a, -, hroute, hchecked⟩ := settling_checked h hphase
  have hbacked := run_backed h i.id
  rw [hphase] at hbacked
  obtain ⟨hadmitted, -, -, -, e, he, hid, hsubmitted⟩ := hbacked
  obtain ⟨settled, rfl, hsettled⟩ := receiptOf_eq_ok hreceipt
  exact ⟨signature, hadmitted.request, (hadmitted.paid hroute).2.1,
    paid.payment, settled, now, a, hchecked, ⟨e, he, hid, by simp [hsubmitted]⟩, haction, hsettled⟩

/-- The stored outcome that a replay on the paid path sends comes from a completion. -/
theorem replay_completion (h : (machine env).Run (pre ++ (i, o) :: post) s)
    (hfresh : Machine.Respects FreshToken (pre ++ (i, o) :: post)) (hd : Declining (pre ++ (i, o) :: post))
    (hsha : Collisionless env (pre ++ (i, o) :: post))
    (hrequest : requestOf (pre ++ [(i, o)]) i.id = some request) {fingerprint token signature : String}
    (hfingerprint : canonicalRequestFingerprint env request.payload = .ok fingerprint)
    (hsignature : request.paymentSignature = some signature) {cached : IdempotencyResponse}
    (hout : o = [.result (.reserve "x402" request.idempotencyKey fingerprint token i.now, .decided (.replay cached)),
      .respond response])
    (hreplay : replayResponse env request cached (some signature) [] = .ok response)
    (hstatus : response.statusCode = 200) : Replay env pre (i, o) request signature response := by
  have hcall : (.reserve "x402" request.idempotencyKey fingerprint token i.now, .decided (.replay cached)) ∈
      callsOf .result (i, o) := by
    rw [hout]
    exact List.mem_cons_self
  obtain ⟨key, p, ⟨j, q⟩, p', owner, T, hkey, rfl, hcommit, c, hc, hissues⟩ :=
    replay_event (n := .result) nofun h hfresh hsha hcall
  have hcut : (p ++ (j, q) :: p') ++ (i, o) :: post = p ++ (j, q) :: (p' ++ (i, o) :: post) := by simp
  obtain ⟨s₁, task, body, paid, answer, signature', hp, hphase, haction, hroute, houtcome⟩ :=
    result_commit_event (hcut ▸ h) hcommit
  obtain ⟨replayed, -, hproof, rfl⟩ := replayResponse_eq_ok.mp hreplay
  have hanswer : j.action.Declines := hd (j, q) (by simp)
  rw [haction] at hanswer
  obtain ⟨receipt, hreceipt⟩ := settlementOutcome_receipt hanswer houtcome hstatus
  obtain ⟨signature'', hcompletion⟩ := completion_of_receipt hp hphase haction hreceipt q
  have hproves := settlementOutcome_proves houtcome
  rw [hproves.getHeader, checkProof_eq_ok_iff] at hproof
  -- one reservation is issued for one key and request
  have hbacked := run_backed hp j.id
  rw [hphase] at hbacked
  obtain ⟨key', hkey', c', hc', hissues'⟩ := hbacked.1.call hp hroute
  obtain rfl : c = c' := by
    refine issues_call_unique (n := .result) h hfresh ?_ ?_ hissues.issues hissues'.issues
    · rw [calls_append]
      exact List.mem_append_left _ hc
    · rw [hcut, calls_append]
      exact List.mem_append_left _ hc'
  obtain ⟨rfl, hfp⟩ : key = key' ∧ fingerprint = task.requestFingerprint := by
    obtain ⟨op, outcome⟩ := c
    unfold StoreEvent.IssuesFor at hissues hissues'
    split at hissues
    · next heq =>
      cases heq
      exact ⟨Option.some.inj (hissues.2.1.symm.trans hissues'.2.1), hissues.2.2.1.symm.trans hissues'.2.2.1⟩
    · exact hissues.elim
  have harrives : Arrives ((p ++ (j, q) :: p') ++ (i, o) :: post) task.request := by
    refine (requestOf_arrives hbacked.1.request).mono ?_
    rw [hcut]
    exact List.subset_append_left _ _
  have harrives' : Arrives ((p ++ (j, q) :: p') ++ (i, o) :: post) request := by
    refine (requestOf_arrives hrequest).mono ?_
    rw [List.append_cons (p ++ (j, q) :: p') (i, o) post]
    exact List.subset_append_left _ _
  have hcanonical : canonicalRequest task.request.payload = canonicalRequest request.payload := by
    have hfirst := hbacked.1.fingerprint
    rw [← hfp] at hfirst
    exact canonicalRequest_eq hsha harrives harrives' hfirst hfingerprint
  exact ⟨hsignature, fingerprint, token, cached, p, (j, q), p', task.request, signature'', owner, T, hout, hreplay, rfl,
    hcompletion, hcommit, by rw [hkey', hkey], hcanonical, hproof.2 ▸ hproves⟩

/-- A check without a payment is of a task that does not pay. -/
theorem checkRequest_unpaid {now : ℚ} {baseline : Preflight.PreflightResult}
    (h : checkRequest env now task = .ok (baseline, none)) (signature : String) (r : Reservation ℚ) :
    task.route ≠ .x402 signature r := by
  intro hroute
  obtain ⟨baseline', -, h⟩ := bind_eq_ok.mp h
  rw [hroute] at h
  obtain ⟨-, h⟩ := rejectIf_bind_eq_ok.mp h
  obtain ⟨payment, -, h⟩ := bind_eq_ok.mp h
  cases pure_eq_ok.mp h

/-- Where a result comes from: a replay on one of the paths, a settlement, or a response that was built for nothing. -/
inductive ResultCase (env : Env) (s : Runtime) (i : Step) (o : List Emission) (request : HttpRequest)
    (response : HttpResponse) : Prop
  | keyed (tenantId token fingerprint : String) (headers : Headers) (cached : IdempotencyResponse)
      (hpath : ¬ PaidPath env request)
      (hfingerprint : canonicalRequestFingerprint env request.payload = .ok fingerprint)
      (hout : o = [.access (.reserve tenantId request.idempotencyKey fingerprint token i.now,
        .decided (.replay cached)), .respond response])
      (hreplay : replayResponse env request cached none headers = .ok response)
  | paying (signature token fingerprint : String) (cached : IdempotencyResponse)
      (hfingerprint : canonicalRequestFingerprint env request.payload = .ok fingerprint)
      (hsignature : request.paymentSignature = some signature)
      (hout : o = [.result (.reserve "x402" request.idempotencyKey fingerprint token i.now,
        .decided (.replay cached)), .respond response])
      (hreplay : replayResponse env request cached (some signature) [] = .ok response)
  | settled (task : Task) (body : Bytes) (paid : Paid) (answer : FacilitatorAnswer SettleResponse)
      (hphase : s.phase i.id = .settling task body paid) (haction : i.action = .settleAnswer answer)
      (hresponse : response = settlementResponse env task body paid answer)
  | completed (task : Task) (body : Bytes) (hphase : s.phase i.id = .built task body none)
      (hresponse : response = ⟨200, completionHeaders task.route, body⟩)

/-- **The cases of a result**: where the facilitator's errors decline, a refusal is none. -/
theorem result_case (h : (machine env).Run (pre ++ (i, o) :: post) s) (hd : Declining (pre ++ (i, o) :: post))
    (hrequest : requestOf (pre ++ [(i, o)]) i.id = some request) (hr : .respond response ∈ o)
    (hstatus : response.statusCode = 200) :
    ∃ s₁, (machine env).Run pre s₁ ∧ ResultCase env s₁ i o request response := by
  obtain ⟨s₁, s₂, hpre, hcase, -⟩ := run_case h
  have hdpre : Declining pre := fun e he => hd e (List.mem_append_left _ he)
  have hrefused : ∀ {response' : HttpResponse}, Refusal response' → response = response' → False := by
    rintro response' hrefusal rfl
    exact hrefusal.status hstatus
  refine ⟨s₁, hpre, ?_⟩
  generalize hx : (o, s₂) = x at hcase
  cases hcase with
  | refused response' hphase hrefusal =>
    cases hx
    exact (hrefused hrefusal (by simpa using hr)).elim
  | keyed request' token quota fingerprint tenantId headers emitted phase hphase haction hfingerprint hpath _ hcase =>
    obtain rfl : request' = request := Option.some.inj ((requestOf_idle hpre hphase haction o).symm.trans hrequest)
    cases hcase with
    | issued =>
      cases hx
      exact absurd hr (by simp)
    | replayed cached response' hcall hreplay =>
      cases hx
      obtain rfl : response = response' := by simpa using hr
      exact .keyed tenantId token fingerprint headers cached hpath hfingerprint
        (congrArg (fun o => [Emission.access (_, o), .respond response]) hcall) hreplay
    | refused e _ hdeclines =>
      cases hx
      exact (hrefused (problem_refusal _ _ hdeclines) (by simpa using hr)).elim
  | paying request' token quota fingerprint signature emitted phase hphase haction hfingerprint _ hsignature hcase =>
    obtain rfl : request' = request := Option.some.inj ((requestOf_idle hpre hphase haction o).symm.trans hrequest)
    cases hcase with
    | issued =>
      cases hx
      exact absurd hr (by simp)
    | replayed cached response' hcall hreplay =>
      cases hx
      obtain rfl : response = response' := by simpa using hr
      exact .paying signature token fingerprint cached hfingerprint hsignature
        (congrArg (fun o => [Emission.result (_, o), .respond response]) hcall) hreplay
    | refused e _ hdeclines =>
      cases hx
      exact (hrefused (problem_refusal _ _ hdeclines) (by simpa using hr)).elim
  | lost =>
    cases hx
    exact (hrefused (problem_refusal _ _ (e := .internal _) trivial) (by simpa using hr)).elim
  | settled task body paid answer signature reservation outcome response' hphase haction _ _ hresponse =>
    cases hx
    obtain rfl : response = response' := by simpa using hr
    exact .settled task body paid answer hphase haction (hresponse.resolve_right fun hrefusal => hrefused hrefusal rfl)
  | completed task body hphase hroute =>
    cases hx
    exact .completed task body hphase (by simpa using hr)
  | stored task body headers reservation cached hphase haction hroute =>
    cases hx
    exact .completed task body hphase (by simpa using hr)
  | unstored task body headers reservation cached hphase hroute =>
    cases hx
    exact .completed task body hphase (by simpa using hr)
  | aborted task claim error hphase haction =>
    obtain rfl := congrArg Prod.fst hx
    obtain ⟨n, call, hcall⟩ | hrespond := mem_abort hr
    · rcases n with _ | _ | _ <;> cases hcall
    · injection hrespond with hrespond
      exact (hrefused (problem_refusal _ _ (run_declines hpre hdpre hphase)) hrespond).elim
  | _ =>
    cases hx
    exact absurd hr (by simp)

/-- **A verdict** for a paying client is a completion, or the replay of one. -/
theorem verdict_event (h : (machine env).Run (pre ++ (i, o) :: post) s)
    (hfresh : Machine.Respects FreshToken (pre ++ (i, o) :: post)) (hd : Declining (pre ++ (i, o) :: post))
    (hsha : Collisionless env (pre ++ (i, o) :: post))
    (hrequest : requestOf (pre ++ [(i, o)]) i.id = some request) (hpath : PaidPath env request)
    (hr : .respond response ∈ o) (hstatus : response.statusCode = 200) :
    ∃ signature, Completion env pre (i, o) request signature ∨ Replay env pre (i, o) request signature response := by
  obtain ⟨s₁, hpre, hcase⟩ := result_case h hd hrequest hr hstatus
  have hbacked := run_backed hpre i.id
  have htask : ∀ {task}, Admitted env pre i.id task → task.request = request := fun hadmitted =>
    Option.some.inj ((requestOf_append hadmitted.request _).symm.trans hrequest)
  cases hcase with
  | keyed _ _ _ _ _ hpath' => exact absurd hpath hpath'
  | paying signature token fingerprint cached hfingerprint hsignature hout hreplay =>
    exact ⟨signature, .inr (replay_completion h hfresh hd hsha hrequest hfingerprint hsignature hout hreplay hstatus)⟩
  | settled task body paid answer hphase haction hresponse =>
    subst hresponse
    have hanswer : i.action.Declines := hd (i, o) (by simp)
    rw [haction] at hanswer
    rw [hphase] at hbacked
    obtain rfl := htask hbacked.1
    obtain ⟨receipt, hreceipt⟩ := settlementResponse_receipt hanswer hstatus
    obtain ⟨signature, hcompletion⟩ := completion_of_receipt hpre hphase haction hreceipt _
    exact ⟨signature, .inl hcompletion⟩
  | completed task body hphase hresponse =>
    rw [hphase] at hbacked
    obtain ⟨hadmitted, baseline, ⟨now, hcheck⟩, -⟩ := hbacked
    -- a task that was checked without a payment is not on the path
    obtain rfl := htask hadmitted
    obtain ⟨signature, r, hroute⟩ := hadmitted.paid_iff.mpr hpath
    exact absurd hroute (checkRequest_unpaid hcheck signature r)

/-- The task of a phase. -/
def Phase.task? : Phase → Option Task
  | .idle | .finished => none
  | .admitted task | .verifying task _ _ | .verified task _ _ | .ready task _ _ | .built task _ _ | .settling task _ _
  | .failing task _ _ => some task

theorem hides_completionHeaders {headers : Headers} (h : Hides headers) (r : Reservation ℚ) :
    Hides (completionHeaders (.apiKey headers r)) := h.setHeader (by decide)

theorem hides_settledHeaders (receipt : PaymentReceipt) : Hides (settledHeaders receipt) := by
  intro header hmem
  simp only [settledHeaders, List.mem_cons, List.not_mem_nil, or_false] at hmem
  rcases hmem with rfl | rfl | rfl
  · decide
  · exact (by decide : paymentResponseHeader ≠ cachedPaymentProofHeader)
  · decide

theorem hides_labelled (label : String) :
    Hides [("X-Lucent-Access", label), ("Content-Type", "application/json")] := by
  intro header hmem
  simp only [List.mem_cons, List.not_mem_nil, or_false] at hmem
  rcases hmem with rfl | rfl
  · exact (by decide : "X-Lucent-Access" ≠ cachedPaymentProofHeader)
  · decide

/-- **Step lemma**: a task is kept, or it is new and its headers hide the internal one. -/
theorem step_task (h : ((step env s i).2.phase i.id).task? = some task) :
    (s.phase i.id).task? = some task ∨ Hides (completionHeaders task.route) := by
  have hcase := step_case env s i
  generalize step env s i = x at hcase h
  cases hcase with
  | opened =>
    rw [Runtime.setPhase_self] at h
    cases h
    exact .inr (hides_labelled "open")
  | keyed _ _ _ _ _ headers _ _ _ _ _ _ hheaders hcase =>
    rw [Runtime.setPhase_self] at h
    cases hcase with
    | issued r =>
      cases h
      exact .inr (hides_completionHeaders hheaders r)
    | _ => exact nomatch h
  | paying _ _ _ _ _ _ _ _ _ _ _ _ hcase =>
    rw [Runtime.setPhase_self] at h
    cases hcase with
    | issued =>
      cases h
      exact .inr (hides_labelled "x402")
    | _ => exact nomatch h
  | aborted task claim error =>
    rw [show (abort env s i.id i.now task claim error).2.phase i.id = .finished from Runtime.setPhase_self ..] at h
    exact nomatch h
  | ignored => exact .inl h
  | _ =>
    rw [Runtime.setPhase_self] at h
    simp_all [Phase.task?]

/-- **Run lemma**: the headers of every task hide the internal one. -/
theorem run_task (h : (machine env).Run pre s) {id : ℕ} (htask : (s.phase id).task? = some task) :
    Hides (completionHeaders task.route) := by
  refine Machine.Run.invariant (I := fun _ s => ∀ id task, (s.phase id).task? = some task →
    Hides (completionHeaders task.route)) ?_ ?_ h id task htask
  · intro id task htask
    exact nomatch (show (none : Option Task) = some task from htask)
  intro evs s i _ ih id task htask
  by_cases hid : id = i.id
  · subst hid
    exact (step_task htask).elim (ih i.id task) fun hhides => hhides
  · obtain ⟨phase, hphase⟩ := step_phase env s i
    have hsame : ((machine env).step s i).2.phase id = s.phase id := by
      show (step env s i).2.phase id = _
      rw [hphase, Function.update_of_ne hid]
    exact ih id task (hsame ▸ htask)

/-- **The internal header** is in no response. -/
theorem response_hides (h : (machine env).Run (pre ++ (i, o) :: post) s) (hr : .respond response ∈ o) :
    Hides response.headers := by
  obtain ⟨s₁, s₂, hpre, hcase, -⟩ := run_case h
  have hproblem : ∀ requestId e, Hides (problem env requestId e).headers := fun requestId e =>
    problem_hides env requestId e
  generalize hx : (o, s₂) = x at hcase
  cases hcase with
  | refused response' hphase hrefusal =>
    cases hx
    obtain rfl : response = response' := by simpa using hr
    exact hrefusal.hides
  | keyed request token quota fingerprint tenantId headers emitted phase _ _ _ _ hheaders hcase =>
    cases hcase with
    | issued =>
      cases hx
      exact absurd hr (by simp)
    | replayed cached response' hcall hreplay =>
      cases hx
      obtain rfl : response = response' := by simpa using hr
      obtain ⟨body, -, -, rfl⟩ := replayResponse_eq_ok.mp hreplay
      exact hides_replayHeaders cached hheaders
    | refused e =>
      cases hx
      obtain rfl : response = problem env request.requestId e := by simpa using hr
      exact hproblem _ _
  | paying request token quota fingerprint signature emitted phase _ _ _ _ _ hcase =>
    cases hcase with
    | issued =>
      cases hx
      exact absurd hr (by simp)
    | replayed cached response' hcall hreplay =>
      cases hx
      obtain rfl : response = response' := by simpa using hr
      obtain ⟨body, -, -, rfl⟩ := replayResponse_eq_ok.mp hreplay
      exact hides_replayHeaders cached hides_nil
    | refused e =>
      cases hx
      obtain rfl : response = problem env request.requestId e := by simpa using hr
      exact hproblem _ _
  | lost =>
    cases hx
    rw [(by simpa using hr : response = problem env _ _)]
    exact hproblem _ _
  | settled task body paid answer signature reservation outcome response' _ _ _ _ hresponse =>
    cases hx
    obtain rfl : response = response' := by simpa using hr
    obtain rfl | hrefusal := hresponse
    · unfold settlementResponse
      split
      · exact hproblem _ _
      · exact hides_settledHeaders _
    · exact hrefusal.hides
  | completed task body hphase =>
    cases hx
    obtain rfl : response = ⟨200, completionHeaders task.route, body⟩ := by simpa using hr
    exact run_task hpre (show (s₁.phase i.id).task? = some task by rw [hphase]; rfl)
  | stored task body headers reservation cached hphase =>
    cases hx
    obtain rfl : response = ⟨200, completionHeaders task.route, body⟩ := by simpa using hr
    exact run_task hpre (show (s₁.phase i.id).task? = some task by rw [hphase]; rfl)
  | unstored task body headers reservation cached hphase =>
    cases hx
    obtain rfl : response = ⟨200, completionHeaders task.route, body⟩ := by simpa using hr
    exact run_task hpre (show (s₁.phase i.id).task? = some task by rw [hphase]; rfl)
  | aborted task claim error hphase haction =>
    obtain rfl := congrArg Prod.fst hx
    obtain ⟨n, call, hcall⟩ | hrespond := mem_abort hr
    · rcases n with _ | _ | _ <;> cases hcall
    · injection hrespond with hrespond
      rw [hrespond]
      exact hproblem _ _
  | _ =>
    cases hx
    exact absurd hr (by simp)

/-- **A submission** has everything else behind it. -/
theorem submission_event (h : (machine env).Run (pre ++ (i, o) :: post) s) {payment : VerifiedPayment}
    (hp : .settle payment ∈ o) : Submission env pre (i, o) payment := by
  obtain ⟨s₁, task, body, paid, hpre, hphase, rfl, hout⟩ := submit_event h hp
  have hbacked := run_backed hpre i.id
  rw [hphase] at hbacked
  obtain ⟨hadmitted, baseline, ⟨⟨e, he, hid, hcheck, hverify⟩, ⟨e', he', hid', answer, haction, haccept⟩, hclaimed⟩,
    hbuilt⟩ := hbacked
  obtain ⟨-, verified, rfl, hvalid⟩ := acceptVerification_eq_ok haccept
  have hbound : body.length ≤ maxCachedResultBytes := by
    obtain ⟨e, -, -, answer, -, hbody⟩ := hbuilt
    exact (buildBody_eq_ok hbody).1
  exact ⟨task, body, paid, baseline, verified, rfl, hadmitted, (checkRequest_payment hcheck).1, ⟨e, he, hid, hverify⟩,
    ⟨e', he', hid', haction⟩, hvalid, hclaimed, hbuilt, hbound, hout⟩

/-- **Paths**: a result is stored by a request of the path it is replayed on. -/
theorem keptApart_event (h : (machine env).Run (pre ++ (i, o) :: post) s)
    (hfresh : Machine.Respects FreshToken (pre ++ (i, o) :: post)) (hsha : Collisionless env (pre ++ (i, o) :: post))
    (hrequest : requestOf (pre ++ [(i, o)]) i.id = some request) : KeptApart env pre request (i, o) := by
  have hapart := event_apart h hrequest
  refine ⟨hapart, fun n t k f token now cached hn hc => ?_⟩
  obtain ⟨key, p, ⟨j, q⟩, p', owner, T, -, rfl, hcommit, -⟩ := replay_event hn h hfresh hsha hc
  have hcut : (p ++ (j, q) :: p') ++ (i, o) :: post = p ++ (j, q) :: (p' ++ (i, o) :: post) := by simp
  have hadmitted : ∃ task, Admitted env p j.id task ∧
      ((∃ signature r, task.route = .x402 signature r) ↔ n = .result) := by
    rcases n with _ | _ | _
    · obtain ⟨s₁, task, body, headers, hp, hphase, hroute⟩ := access_commit_event (hcut ▸ h) hcommit
      have hbacked := run_backed hp j.id
      rw [hphase] at hbacked
      exact ⟨task, hbacked.1, fun ⟨_, _, hroute'⟩ => (nomatch hroute.symm.trans hroute'), nofun⟩
    · obtain ⟨s₁, task, body, paid, answer, signature, hp, hphase, -, hroute, -⟩ :=
        result_commit_event (hcut ▸ h) hcommit
      have hbacked := run_backed hp j.id
      rw [hphase] at hbacked
      exact ⟨task, hbacked.1, fun _ => rfl, fun _ => ⟨signature, owner, hroute⟩⟩
    · exact absurd rfl hn
  obtain ⟨task, hadmitted, hpaid⟩ := hadmitted
  have hpath : PaidPath env request ↔ n = .result := by
    rcases n with _ | _ | _
    · refine ⟨fun hpaid => ?_, nofun⟩
      rw [hapart.1 hpaid] at hc
      exact absurd hc List.not_mem_nil
    · refine ⟨fun _ => rfl, fun _ => by_contra fun hunpaid => ?_⟩
      rw [hapart.2 hunpaid] at hc
      exact absurd hc List.not_mem_nil
    · exact absurd rfl hn
  refine ⟨(j, q), by simp, task.request, owner, T, requestOf_append hadmitted.request _, hcommit, ?_⟩
  rw [← hadmitted.paid_iff, hpaid, hpath]

end Verdicts

/-- **No free result, no unearned charge**: in any interleaving, a verdict for a paying client completes a settled
payment or replays such a completion for the same key, request and proof; no result crosses from one path to the other;
no response has the internal header; and a payment is submitted last, after the request has passed, the payload was
accepted, the claim committed and the response built. -/
theorem verdict_paid {env : Env} {evs : List Event} {s : Runtime} (h : (machine env).Run evs s)
    (hfresh : Machine.Respects FreshToken evs) (hd : Declining evs) (hsha : Collisionless env evs) :
    ∀ pre e post, evs = pre ++ e :: post →
      (∀ request, requestOf (pre ++ [e]) e.1.id = some request → KeptApart env pre request e ∧
        (PaidPath env request → ∀ response, .respond response ∈ e.2 → response.statusCode = 200 →
          ∃ signature, Completion env pre e request signature ∨ Replay env pre e request signature response)) ∧
      (∀ response, .respond response ∈ e.2 → Hides response.headers) ∧
      ∀ payment, .settle payment ∈ e.2 → Submission env pre e payment := by
  rintro pre ⟨i, o⟩ post rfl
  exact ⟨fun request hrequest => ⟨keptApart_event h hfresh hsha hrequest, fun hpath response hr hstatus =>
    verdict_event h hfresh hd hsha hrequest hpath hr hstatus⟩, fun response hr => response_hides h hr,
    fun payment hp => submission_event h hp⟩

/-! ### A paid verdict -/

/-- The request that arrives in these steps. -/
theorem arrives_first {evs : List Event} (h : evs.map Prod.fst = firstSteps ++ [answerStep 10]) {request : HttpRequest}
    (hr : Arrives evs request) : request = firstRequest := by
  obtain ⟨⟨i, o⟩, he, harrival⟩ := hr
  have hmem : i ∈ firstSteps ++ [answerStep 10] := h ▸ List.mem_map_of_mem (f := Prod.fst) he
  unfold arrivalOf at harrival
  split at harrival
  · next request' token quota haction =>
    rw [if_pos rfl] at harrival
    cases harrival
    simp only [firstSteps, paidSteps, answerStep, List.cons_append, List.nil_append, List.mem_cons, List.not_mem_nil,
      or_false] at hmem
    rcases hmem with rfl | rfl | rfl | rfl | rfl | rfl | rfl <;> cases haction
    rfl
  · exact nomatch harrival

theorem collisionless_first {evs : List Event} (h : evs.map Prod.fst = firstSteps ++ [answerStep 10]) :
    Collisionless pauseService evs := by
  constructor
  · rintro key ⟨request, harrives, hkey⟩ key' ⟨request', harrives', hkey'⟩ -
    rw [arrives_first h harrives] at hkey
    rw [arrives_first h harrives'] at hkey'
    exact Option.some.inj (hkey.symm.trans hkey')
  · rintro bytes ⟨request, harrives, hbytes⟩ bytes' ⟨request', harrives', hbytes'⟩ -
    rw [arrives_first h harrives] at hbytes
    rw [arrives_first h harrives'] at hbytes'
    exact Option.some.inj (hbytes.symm.trans hbytes')

/-- The facilitator raises nothing in these steps. -/
theorem declining_first {evs : List Event} (h : evs.map Prod.fst = firstSteps ++ [answerStep 10]) : Declining evs := by
  rintro ⟨i, o⟩ he
  have hmem : i ∈ firstSteps ++ [answerStep 10] := h ▸ List.mem_map_of_mem (f := Prod.fst) he
  simp only [firstSteps, paidSteps, answerStep, List.cons_append, List.nil_append, List.mem_cons, List.not_mem_nil,
    or_false] at hmem
  rcases hmem with rfl | rfl | rfl | rfl | rfl | rfl | rfl <;> trivial

/-- What the first request waits for is a receipt. -/
theorem awaitsAnswer_receipt {s : Runtime} (h : awaitsAnswer s = true) {task : Task} {body : Bytes} {paid : Paid}
    (hphase : s.phase 1 = .settling task body paid) : ∃ receipt, receiptOf pauseService.x402
      pauseService.settings.payment paid.payment (.returned pauseSettled) = .ok receipt := by
  unfold awaitsAnswer at h
  split at h
  · next task' body' paid' hphase' hidle =>
    cases hphase.symm.trans hphase'
    split at h
    · simp only [Bool.and_eq_true] at h
      exact exists_of_isOk h.1.1.2
    · exact nomatch h
  · exact nomatch h

/-- The first request is answered with a verdict. -/
theorem exists_verdict {s : Runtime} (hawaits : awaitsAnswer s = true)
    (hrun : (machine pauseService).Run ((machine pauseService).trace firstSteps) s) :
    ∃ evs o s' request response, (machine pauseService).Run (evs ++ [(answerStep 10, o)]) s' ∧
      Machine.Respects FreshToken (evs ++ [(answerStep 10, o)]) ∧ Declining (evs ++ [(answerStep 10, o)]) ∧
      Collisionless pauseService (evs ++ [(answerStep 10, o)]) ∧
      requestOf (evs ++ [(answerStep 10, o)]) 1 = some request ∧ PaidPath pauseService request ∧
      .respond response ∈ o ∧ response.statusCode = 200 := by
  obtain ⟨task, body, paid, reservation, hexpires, hline, -, hphase, -, ⟨signature, hroute⟩, hfits, -, -, ho, -⟩ :=
    @exists_repetition _ hawaits hrun 10 899 (by decide +kernel) (by norm_num)
  have hphase' : s.phase 1 = .settling task body paid := hphase
  obtain ⟨receipt, hreceipt⟩ := awaitsAnswer_receipt hawaits hphase'
  obtain ⟨_, _, _, _, a, -, -, hchecked⟩ := settling_checked hrun hphase
  obtain ⟨outcome, houtcome⟩ := @settlementOutcome_ok _ task body paid _ _ hchecked.proof (length_pauseSha256 _) hline
  have hstep := @step_settleAnswer_stored _ _ _ _ _ _ _ _ _ _ hrun (respects_freshToken ho.of_append.of_append) 1 10
    (ho.of_append _ _ [] rfl).1 hphase' hroute houtcome (hfits _ houtcome) (by rw [hexpires]; decide)
  have hadmitted : Admitted pauseService ((machine pauseService).trace firstSteps) 1 task := by
    have hbacked := run_backed hrun 1
    rw [hphase'] at hbacked
    exact hbacked.1
  refine ⟨_, _, _, task.request, settlementResponse pauseService task body paid (.returned pauseSettled),
    Machine.steps_append_iff.mpr ⟨s, hrun, .cons rfl (.nil _)⟩, respects_freshToken ho.of_append, declining_first ?_,
    collisionless_first ?_, requestOf_append hadmitted.request _, (hadmitted.paid hroute).1, ?_, ?_⟩
  · rw [List.map_append, Machine.trace_map_fst]
    rfl
  · rw [List.map_append, Machine.trace_map_fst]
    rfl
  · exact hstep ▸ List.mem_cons_of_mem _ List.mem_cons_self
  · rw [settlementResponse, hreceipt]

/-- A request that is answered after ten seconds. -/
theorem verdict_paid_first : ∃ pre e request response signature, .respond response ∈ e.2 ∧ response.statusCode = 200 ∧
    (Completion pauseService pre e request signature ∨ Replay pauseService pre e request signature response) := by
  obtain ⟨evs, o, s, request, response, hrun, hfresh, hd, hsha, hrequest, hpath, hr, hstatus⟩ :=
    exists_verdict firstSteps_after.1 (Machine.run_after _ firstSteps)
  obtain ⟨signature, hcase⟩ :=
    ((verdict_paid hrun hfresh hd hsha _ _ [] rfl).1 request hrequest).2 hpath response hr hstatus
  exact ⟨_, _, request, response, signature, hr, hstatus, hcase⟩

end Lucent.Hosted
