import Lucent.Hosted.Charge

/-!
# Lucent.Hosted.Origin — where the body of a result comes from

`verdict_event` follows a result of a paying client back to its payment.  Here the results of every path are followed
back to the response they carry.

* `Origin`: the body is the response that the request has built, or a response that an earlier request, with the same
  canonical request, has built and stored, under the new identifier.
* `result_origin`: over any interleaving, every result has an origin.
-/

namespace Lucent.Hosted

open Lucent.Lib Lucent.Access Lucent.Payments Lucent.VerifiedSource

/-- Request `j` has built a response for its task, and the body is that response: as it is, for the request itself, or
under the identifier of a request with the same canonical request. -/
structure Origin (env : Env) (pre : List Event) (id : ℕ) (request : HttpRequest) (body : Bytes) (j : ℕ) (task : Task)
    (response : Bytes) : Prop where
  admitted : Admitted env pre j task
  built : ∃ baseline, Built env pre j task baseline response
  canonical : canonicalRequest task.request.payload = canonicalRequest request.payload
  body : (j = id ∧ task.request = request ∧ body = response) ∨
    replayBody env.readFloat request.requestId response = some body

section Origins

theorem Recalls.append {evs : List Event} {id : ℕ} {p : Event → Prop} (h : Recalls evs id p) (more : List Event) :
    Recalls (evs ++ more) id p := by
  obtain ⟨e, he, hrest⟩ := h
  exact ⟨e, List.mem_append_left _ he, hrest⟩

theorem Admitted.append {env : Env} {evs : List Event} {id : ℕ} {task : Task} (h : Admitted env evs id task)
    (more : List Event) : Admitted env (evs ++ more) id task := by
  induction more using List.reverseRecOn with
  | nil => rwa [List.append_nil]
  | append_singleton more e ih =>
    rw [← List.append_assoc]
    exact ih.concat e

variable {env : Env} {pre post : List Event} {s : Runtime} {i : Step} {o : List Emission} {task : Task} {body : Bytes}
  {request : HttpRequest} {response : HttpResponse}

/-- The result that the end of a request stores has the response as its body. -/
theorem finish_commit {id : ℕ} {now : ℚ} {headers : Headers} {reservation owner : Reservation ℚ}
    (hroute : task.route = .apiKey headers reservation) {cached : IdempotencyResponse} {T : ℚ}
    {outcome : StoreOutcome ℚ}
    (hc : (.commit owner cached T, outcome) ∈ callsOf .access (i, (finish env s id now task body).1)) :
    cached.body = body := by
  unfold finish at hc
  rw [hroute] at hc
  dsimp only at hc
  cases hparts : IdempotencyResponse.fromParts 200 body (completionHeaders (.apiKey headers reservation)) with
  | error e =>
    rw [hparts] at hc
    exact absurd hc List.not_mem_nil
  | ok stored =>
    rw [hparts] at hc
    have hbody := (IdempotencyResponse.fromParts_eq_ok_iff.mp hparts).2.1
    have hop : ∀ {x : StoreOutcome ℚ}, ((.commit owner cached T, outcome) : StoreEvent ℚ) =
        (.commit reservation stored now, x) → cached.body = body := by
      intro x heq
      injection congrArg Prod.fst heq with _ hcached
      rw [hcached, hbody]
    dsimp only at hc
    split at hc
    · exact hop (List.mem_singleton.mp hc)
    · exact hop (List.mem_singleton.mp hc)
    · rcases List.mem_cons.mp hc with hc | hc
      · exact hop hc
      · exact nomatch congrArg Prod.fst (List.mem_singleton.mp hc)

/-- A result of the other paths is stored with the response that its request has built. -/
theorem access_commit_built (h : (machine env).Run (pre ++ (i, o) :: post) s) {owner : Reservation ℚ}
    {cached : IdempotencyResponse} {T : ℚ} (hc : (.commit owner cached T, .committed) ∈ callsOf .access (i, o)) :
    ∃ s₁ task headers, (machine env).Run pre s₁ ∧ s₁.phase i.id = .built task cached.body none ∧
      task.route = .apiKey headers owner := by
  obtain ⟨s₁, task, body, headers, hpre, hphase, hroute⟩ := access_commit_event h hc
  obtain ⟨s₁', s₂, hpre', hstep, -, -⟩ := h.split
  obtain rfl : s₁ = s₁' := Machine.Steps.unique hpre hpre'
  have ho : o = (step env s₁ i).1 := (congrArg Prod.fst (show step env s₁ i = (o, s₂) from hstep)).symm
  have hfinish : i.action = .finish := by
    by_contra hne
    have hsilent : (step env s₁ i).1 = [] := by
      unfold step
      rw [hphase]
      cases haction : i.action with
      | finish => exact absurd haction hne
      | _ => rfl
    rw [ho, hsilent] at hc
    exact absurd hc List.not_mem_nil
  have hsame : step env s₁ i = finish env s₁ i.id i.now task body := by
    unfold step
    rw [hphase, hfinish]
  rw [ho, hsame] at hc
  rw [finish_commit hroute hc]
  exact ⟨s₁, task, headers, hpre, hphase, hroute⟩

/-- The outcome of a settlement that is a result has the response as its body. -/
theorem settlementOutcome_body {paid : Paid} {answer : FacilitatorAnswer SettleResponse} {outcome : IdempotencyResponse}
    (hd : answer.Declines) (h : settlementOutcome env task body paid answer = .ok outcome)
    (hstatus : outcome.statusCode = 200) : outcome.body = body := by
  obtain ⟨receipt, hreceipt⟩ := settlementOutcome_receipt hd h hstatus
  unfold settlementOutcome at h
  rw [hreceipt] at h
  exact (IdempotencyResponse.fromParts_eq_ok_iff.mp h).2.1

/-- The response of a settlement that is a result has the response as its body. -/
theorem settlementResponse_body {paid : Paid} {answer : FacilitatorAnswer SettleResponse} (hd : answer.Declines)
    (h : (settlementResponse env task body paid answer).statusCode = 200) :
    (settlementResponse env task body paid answer).body = body := by
  obtain ⟨receipt, hreceipt⟩ := settlementResponse_receipt hd h
  rw [settlementResponse, hreceipt]

/-- A replay on the path of the tenants sends a response that a request with the same canonical request has built. -/
theorem access_replay_origin (h : (machine env).Run (pre ++ (i, o) :: post) s)
    (hfresh : Machine.Respects FreshToken (pre ++ (i, o) :: post)) (hsha : Collisionless env (pre ++ (i, o) :: post))
    (hrequest : requestOf (pre ++ [(i, o)]) i.id = some request) {tenantId fingerprint token : String}
    (hfingerprint : canonicalRequestFingerprint env request.payload = .ok fingerprint) {cached : IdempotencyResponse}
    (hcall : (.reserve tenantId request.idempotencyKey fingerprint token i.now, .decided (.replay cached)) ∈
      callsOf .access (i, o)) {body : Bytes}
    (hbody : replayBody env.readFloat request.requestId cached.body = some body) :
    ∃ j task, Origin env pre i.id request body j task cached.body := by
  obtain ⟨key, p, ⟨j, q⟩, p', owner, T, hkey, rfl, hcommit, c, hc, hissues⟩ :=
    replay_event (n := .access) nofun h hfresh hsha hcall
  have hcut : (p ++ (j, q) :: p') ++ (i, o) :: post = p ++ (j, q) :: (p' ++ (i, o) :: post) := by simp
  obtain ⟨s₁, task, headers, hp, hphase, hroute⟩ := access_commit_built (hcut ▸ h) hcommit
  have hbacked := run_backed hp j.id
  rw [hphase] at hbacked
  obtain ⟨hadmitted, baseline, -, hbuilt⟩ := hbacked
  have hsub : p ⊆ p ++ (j, q) :: p' := List.subset_append_left _ _
  -- one reservation is issued for one request
  obtain ⟨e, he, -, tenantId', token', hreserved⟩ := hadmitted.keyed hroute
  have hc' : (StoreOp.reserve tenantId' task.request.idempotencyKey task.requestFingerprint token' e.1.now,
      StoreOutcome.decided (.reserved owner)) ∈ calls .access (p ++ (j, q) :: p') := by
    refine mem_calls.mpr ⟨e, hsub he, ?_⟩
    rw [callsOf, hreserved]
    exact List.mem_cons_self
  have hmono : calls .access (p ++ (j, q) :: p') ⊆ calls .access ((p ++ (j, q) :: p') ++ (i, o) :: post) := by
    rw [calls_append .access (p ++ (j, q) :: p')]
    exact List.subset_append_left _ _
  obtain rfl := issues_call_unique (n := .access) h hfresh (hmono hc) (hmono hc') hissues.issues rfl
  obtain rfl : task.requestFingerprint = fingerprint := hissues.2.2.1
  have harrives : Arrives ((p ++ (j, q) :: p') ++ (i, o) :: post) task.request :=
    (requestOf_arrives hadmitted.request).mono fun x hx => List.mem_append_left _ (hsub hx)
  have harrives' : Arrives ((p ++ (j, q) :: p') ++ (i, o) :: post) request := by
    refine (requestOf_arrives hrequest).mono ?_
    rw [List.append_cons (p ++ (j, q) :: p') (i, o) post]
    exact List.subset_append_left _ _
  exact ⟨j.id, task, {
    admitted := hadmitted.append _
    built := ⟨baseline, Recalls.append hbuilt _⟩
    canonical := canonicalRequest_eq hsha harrives harrives' hadmitted.fingerprint hfingerprint
    body := .inr hbody }⟩

/-- A replay on the path of the paying clients sends a response that a request with the same canonical request has
built. -/
theorem Replay.origin (h : (machine env).Run (pre ++ (i, o) :: post) s) {signature : String}
    (hreplay : Replay env pre (i, o) request signature response) (hstatus : response.statusCode = 200) :
    ∃ j task built, Origin env pre i.id request response.body j task built := by
  obtain ⟨fingerprint, token, cached, p, ⟨j, q⟩, p', first, signature', owner, T, -, hresponse, rfl, hcompletion,
    hcommit, -, hcanonical, -⟩ := hreplay.replayed
  have hcut : (p ++ (j, q) :: p') ++ (i, o) :: post = p ++ (j, q) :: (p' ++ (i, o) :: post) := by simp
  obtain ⟨s₁, task, body, paid, answer, signature'', hp, hphase, haction, -, houtcome⟩ :=
    result_commit_event (hcut ▸ h) hcommit
  obtain ⟨replayed, hbody, -, rfl⟩ := replayResponse_eq_ok.mp hresponse
  -- the completion is the report of a settlement, not an error
  obtain ⟨-, settled, -, -, -, -, hreport, -⟩ := hcompletion.settled
  obtain rfl : answer = .returned settled := Action.settleAnswer.inj (haction.symm.trans hreport)
  have hdeclines : (FacilitatorAnswer.returned settled).Declines := trivial
  rw [settlementOutcome_body hdeclines houtcome hstatus] at hbody
  have hbacked := run_backed hp j.id
  rw [hphase] at hbacked
  obtain ⟨hadmitted, baseline, -, hbuilt, -⟩ := hbacked
  obtain rfl : task.request = first := Option.some.inj (hadmitted.request.symm.trans hcompletion.arrived)
  exact ⟨j.id, task, body, {
    admitted := hadmitted.append _
    built := ⟨baseline, Recalls.append hbuilt _⟩
    canonical := hcanonical
    body := .inr hbody }⟩

/-- **Origins**: over any interleaving, every result carries a response that its request has built, or that an earlier
request with the same canonical request has built. -/
theorem result_origin (h : (machine env).Run (pre ++ (i, o) :: post) s)
    (hfresh : Machine.Respects FreshToken (pre ++ (i, o) :: post)) (hd : Declining (pre ++ (i, o) :: post))
    (hsha : Collisionless env (pre ++ (i, o) :: post))
    (hrequest : requestOf (pre ++ [(i, o)]) i.id = some request) (hr : .respond response ∈ o)
    (hstatus : response.statusCode = 200) :
    ∃ j task built, Origin env pre i.id request response.body j task built := by
  obtain ⟨s₁, hpre, hcase⟩ := result_case h hd hrequest hr hstatus
  have hbacked := run_backed hpre i.id
  -- the response that the request itself has built
  have hown : ∀ {task baseline body}, Admitted env pre i.id task → Built env pre i.id task baseline body →
      response.body = body → ∃ j task built, Origin env pre i.id request response.body j task built := by
    intro task baseline body hadmitted hbuilt hbody
    have htask : task.request = request :=
      Option.some.inj ((requestOf_append hadmitted.request _).symm.trans hrequest)
    exact ⟨i.id, _, _, hadmitted, ⟨_, hbuilt⟩, by rw [htask], .inl ⟨rfl, htask, hbody⟩⟩
  cases hcase with
  | keyed tenantId token fingerprint headers cached _ hfingerprint hout hreplay =>
    obtain ⟨body, hbody, -, rfl⟩ := replayResponse_eq_ok.mp hreplay
    obtain ⟨j, task, horigin⟩ := @access_replay_origin _ _ _ _ _ _ _ h hfresh hsha hrequest tenantId fingerprint token
      hfingerprint cached (by rw [hout]; exact List.mem_cons_self) body hbody
    exact ⟨j, task, _, horigin⟩
  | paying signature token fingerprint cached hfingerprint hsignature hout hreplay =>
    exact Replay.origin h (replay_completion h hfresh hd hsha hrequest hfingerprint hsignature hout hreplay hstatus)
      hstatus
  | settled task body paid answer hphase haction hresponse =>
    subst hresponse
    have hanswer : i.action.Declines := hd (i, o) (by simp)
    rw [haction] at hanswer
    rw [hphase] at hbacked
    obtain ⟨hadmitted, baseline, -, hbuilt, -⟩ := hbacked
    exact hown hadmitted hbuilt (settlementResponse_body hanswer hstatus)
  | completed task body hphase hresponse =>
    rw [hphase] at hbacked
    obtain ⟨hadmitted, baseline, -, hbuilt⟩ := hbacked
    exact hown hadmitted hbuilt (congrArg HttpResponse.body hresponse)

end Origins

end Lucent.Hosted
