import Lucent.Payments.Authorization
import Lucent.Hosted.StepCases

/-!
# Lucent.Hosted.Ledgers — the stores under interleaved requests, and what stands behind a phase

* `run_store`: the calls a run makes on one of its stores are a run of that store.
* `Backed evs id phase`: every value a phase holds was obtained by an earlier step of the same request.
* `run_backed`: every phase of a reachable runtime is backed.
* `run_legal`: in a run with fresh tokens the calls on a store are legal.
* `Orderly`: tokens are fresh, and time does not run back; then the clocks of a store do not either.
-/

namespace Lucent.Hosted

open Lucent.Lib Lucent.Access Lucent.Payments Lucent.VerifiedSource

/-! ## The calls on a store -/

/-- A step with what it emitted. -/
abbrev Event := Step × List Emission

/-- The calls of one event on a store. -/
def callsOf (n : StoreName) (e : Event) : List (StoreEvent ℚ) := e.2.filterMap n.call?

/-- The calls of a run on a store. -/
def calls (n : StoreName) (evs : List Event) : List (StoreEvent ℚ) := evs.flatMap (callsOf n)

theorem mem_calls {n : StoreName} {evs : List Event} {c : StoreEvent ℚ} :
    c ∈ calls n evs ↔ ∃ e ∈ evs, c ∈ callsOf n e := List.mem_flatMap

theorem calls_append (n : StoreName) (evs evs' : List Event) :
    calls n (evs ++ evs') = calls n evs ++ calls n evs' := List.flatMap_append

theorem calls_cons (n : StoreName) (e : Event) (evs : List Event) :
    calls n (e :: evs) = callsOf n e ++ calls n evs := List.flatMap_cons ..

theorem calls_singleton (n : StoreName) (e : Event) : calls n [e] = callsOf n e := List.flatMap_singleton ..

/-! ## What a phase holds -/

/-- The reservation of a store that a task with this claim holds. -/
def held (n : StoreName) (route : Route) (claim : Option (Reservation ℚ)) : Option (Reservation ℚ) :=
  match n, route with
  | .access, .apiKey _ reservation => some reservation
  | .result, .x402 _ reservation => some reservation
  | .claim, _ => claim
  | _, _ => none

/-- The reservation of a store that a phase holds. -/
def Phase.held (n : StoreName) : Phase → Option (Reservation ℚ)
  | .idle | .finished => none
  | .admitted task | .verifying task _ _ | .verified task _ _ => Hosted.held n task.route none
  | .ready task _ paid | .built task _ paid => Hosted.held n task.route (paid.map Paid.claim)
  | .settling task _ paid => Hosted.held n task.route (some paid.claim)
  | .failing task claim _ => Hosted.held n task.route claim

/-- The token an action brings. -/
def Action.token? : Action → Option String
  | .arrive _ token _ | .claim token => some token
  | _ => none

/-! ## A step, seen from a store -/

section Steps

variable {env : Env} {s : Runtime} {i : Step} {n : StoreName}

/-- What a step does to a store: nothing, a reservation with the token of the step, or what ends the reservation the
request holds. -/
inductive StoreStep (env : Env) (s : Runtime) (i : Step) (n : StoreName) : List (StoreEvent ℚ) → Store ℚ → Prop
  | none : StoreStep env s i n [] (n.store s)
  | reserve (tenantId : String) (key : Option String) (fingerprint token : String)
      (htoken : i.action.token? = some token) :
      StoreStep env s i n [(reserveIn env i.now n.config (n.store s) tenantId key fingerprint token).1]
        (reserveIn env i.now n.config (n.store s) tenantId key fingerprint token).2
  | commit (reservation : Reservation ℚ) (response : IdempotencyResponse)
      (hheld : (s.phase i.id).held n = some reservation) :
      StoreStep env s i n [(commitIn env i.now n.config (n.store s) reservation response).1]
        (commitIn env i.now n.config (n.store s) reservation response).2
  | abort (reservation : Reservation ℚ) (hheld : (s.phase i.id).held n = some reservation) :
      StoreStep env s i n [(abortIn env i.now n.config (n.store s) reservation).1]
        (abortIn env i.now n.config (n.store s) reservation).2
  | release (reservation : Reservation ℚ) (response : IdempotencyResponse)
      (hheld : (s.phase i.id).held n = some reservation) :
      StoreStep env s i n
        [(commitIn env i.now n.config (n.store s) reservation response).1,
          (abortIn env i.now n.config (commitIn env i.now n.config (n.store s) reservation response).2 reservation).1]
        (abortIn env i.now n.config (commitIn env i.now n.config (n.store s) reservation response).2 reservation).2

/-- The release of everything a failed request holds. -/
theorem abort_storeStep {task : Task} {claim : Option (Reservation ℚ)} {error : Raised}
    (hphase : s.phase i.id = .failing task claim error) :
    StoreStep env s i n (callsOf n (i, (abort env s i.id i.now task claim error).1))
      (n.store (abort env s i.id i.now task claim error).2) := by
  have hheld : (s.phase i.id).held n = held n task.route claim := by rw [hphase]; rfl
  unfold abort abortKey abortClaim
  rcases hroute : task.route with _ | ⟨headers, r⟩ | ⟨signature, r⟩ <;> rcases claim with _ | c <;>
    rcases n with _ | _ | _ <;> rw [hroute] at hheld
  all_goals first | exact .none | exact .abort _ hheld

/-- **Inversion** of a step, seen from a store. -/
theorem step_storeStep (env : Env) (s : Runtime) (i : Step) (n : StoreName) :
    StoreStep env s i n (callsOf n (i, (step env s i).1)) (n.store (step env s i).2) := by
  have hcase := step_case env s i
  generalize step env s i = r at hcase ⊢
  cases hcase with
  | keyed request token _ fingerprint tenantId _ _ _ _ haction _ _ _ hcase =>
    have htoken : i.action.token? = some token := by rw [haction]; rfl
    cases hcase <;> rcases n with _ | _ | _
    all_goals first | exact .none | exact .reserve tenantId request.idempotencyKey fingerprint token htoken
  | paying request token _ fingerprint _ _ _ _ haction _ _ _ hcase =>
    have htoken : i.action.token? = some token := by rw [haction]; rfl
    cases hcase <;> rcases n with _ | _ | _
    all_goals first | exact .none | exact .reserve "x402" request.idempotencyKey fingerprint token htoken
  | claimed task baseline payment token reservation hphase haction hcall =>
    have htoken : i.action.token? = some token := by rw [haction]; rfl
    rcases n with _ | _ | _
    · exact .none
    · exact .none
    · exact .reserve _ _ _ token htoken
  | unclaimed task baseline payment token e hphase haction hcall =>
    have htoken : i.action.token? = some token := by rw [haction]; rfl
    rcases n with _ | _ | _
    · exact .none
    · exact .none
    · exact .reserve _ _ _ token htoken
  | submitted task body paid hphase =>
    rcases n with _ | _ | _
    · exact .none
    · exact .none
    · exact .commit paid.claim tombstone (by rw [hphase]; rfl)
  | unsubmitted task body paid e hphase =>
    rcases n with _ | _ | _
    · exact .none
    · exact .none
    · exact .commit paid.claim tombstone (by rw [hphase]; rfl)
  | settled task body paid answer signature reservation outcome response hphase haction hroute =>
    rcases n with _ | _ | _
    · exact .none
    · exact .commit reservation outcome (by rw [hphase, Phase.held, hroute]; rfl)
    · exact .none
  | stored task body headers reservation cached hphase haction hroute =>
    rcases n with _ | _ | _
    · exact .commit reservation cached (by rw [hphase, Phase.held, hroute]; rfl)
    · exact .none
    · exact .none
  | miscounted task body headers reservation cached e hphase hroute =>
    rcases n with _ | _ | _
    · exact .commit reservation cached (by rw [hphase, Phase.held, hroute]; rfl)
    · exact .none
    · exact .none
  | unstored task body headers reservation cached hphase hroute =>
    rcases n with _ | _ | _
    · exact .release reservation cached (by rw [hphase, Phase.held, hroute]; rfl)
    · exact .none
    · exact .none
  | aborted task claim error hphase _ => exact abort_storeStep hphase
  | _ => rcases n with _ | _ | _ <;> exact .none

theorem issues_outcome {r : Reservation ℚ} {c : StoreEvent ℚ} (h : StoreEvent.Issues r c) :
    c.2 = .decided (.reserved r) := by
  unfold StoreEvent.Issues at h
  split at h
  · rw [h]
  · exact h.elim

/-- A step that brings no token issues nothing. -/
theorem StoreStep.not_issues {cs : List (StoreEvent ℚ)} {store : Store ℚ} (h : StoreStep env s i n cs store)
    (htoken : ∀ token, i.action.token? ≠ some token) {r : Reservation ℚ} : ∀ c ∈ cs, ¬ StoreEvent.Issues r c := by
  intro c hc hissues
  cases h with
  | none => exact absurd hc List.not_mem_nil
  | reserve t k f token htoken' => exact htoken token htoken'
  | release =>
    rcases List.mem_cons.mp hc with rfl | hc
    · exact hissues.elim
    · obtain rfl := List.mem_singleton.mp hc
      exact hissues.elim
  | _ =>
    obtain rfl := List.mem_singleton.mp hc
    exact hissues.elim

/-- The calls a step makes on a store are steps of the store. -/
theorem StoreStep.steps {calls : List (StoreEvent ℚ)} {store : Store ℚ} (h : StoreStep env s i n calls store) :
    (IdempotencyStore.machine env.sha256 n.config).Steps (n.store s) calls store := by
  cases h with
  | none => exact .nil _
  | release => exact .cons rfl (.cons rfl (.nil _))
  | _ => exact .cons rfl (.nil _)

end Steps

/-- The calls of a run on a store are a run of the store. -/
theorem run_store {env : Env} {evs : List Event} {s : Runtime} (h : (machine env).Run evs s) (n : StoreName) :
    (IdempotencyStore.machine env.sha256 n.config).Run (calls n evs) (n.store s) := by
  have hrun := Machine.Steps.project (N := IdempotencyStore.machine env.sha256 n.config)
    (fun s i => (step_storeStep env s i n).steps) h
  rcases n with _ | _ | _ <;> exact hrun

/-! ## What stands behind a phase -/

/-- The request that arrives with an event of request `id`. -/
def arrivalOf (id : ℕ) (e : Event) : Option HttpRequest :=
  match e.1.action with
  | .arrive request _ _ => if e.1.id = id then some request else none
  | _ => none

/-- The request behind an identifier: the first that arrived. -/
def requestOf (evs : List Event) (id : ℕ) : Option HttpRequest := evs.findSome? (arrivalOf id)

/-- Some earlier step of request `id` is an event with `p`. -/
def Recalls (evs : List Event) (id : ℕ) (p : Event → Prop) : Prop := ∃ e ∈ evs, e.1.id = id ∧ p e

/-- The task of request `id` is the one it was admitted with, and so is the reservation. -/
structure Admitted (env : Env) (evs : List Event) (id : ℕ) (task : Task) : Prop where
  request : requestOf evs id = some task.request
  fingerprint : canonicalRequestFingerprint env task.request.payload = .ok task.requestFingerprint
  unpaid : (∀ signature r, task.route ≠ .x402 signature r) → ¬ PaidPath env task.request
  keyed : ∀ {headers r}, task.route = .apiKey headers r → Recalls evs id fun e => ∃ tenantId token,
    e.2 = [.access (.reserve tenantId task.request.idempotencyKey task.requestFingerprint token e.1.now,
      .decided (.reserved r))]
  paid : ∀ {signature r}, task.route = .x402 signature r → PaidPath env task.request ∧
    task.request.paymentSignature = some signature ∧ Recalls evs id fun e => arrivalOf id e = some task.request ∧
      ∃ token, e.2 = [.result (.reserve "x402" task.request.idempotencyKey task.requestFingerprint token e.1.now,
        .decided (.reserved r))]

/-- The facilitator was asked about the payment after the request had passed. -/
def Offered (env : Env) (evs : List Event) (id : ℕ) (task : Task) (baseline : Preflight.PreflightResult)
    (payment : VerifiedPayment) : Prop :=
  Recalls evs id fun e => checkRequest env e.1.now task = .ok (baseline, some payment) ∧
    e.2 = [.verify payment.payload]

/-- The facilitator accepted the payment. -/
def Accepted (evs : List Event) (id : ℕ) (payment : VerifiedPayment) : Prop :=
  Recalls evs id fun e => ∃ answer, e.1.action = .verifyAnswer answer ∧
    acceptVerification payment answer = .ok payment

/-- The authorization was reserved for the request. -/
def Claimed (evs : List Event) (id : ℕ) (task : Task) (paid : Paid) : Prop :=
  Recalls evs id fun e => ∃ token, e.1.action = .claim token ∧
    e.2 = [.claim (.reserve "x402-authorization" (some paid.payment.authorizationFingerprint) task.requestFingerprint
      token e.1.now, .decided (.reserved paid.claim))]

/-- The response was built. -/
def Built (env : Env) (evs : List Event) (id : ℕ) (task : Task) (baseline : Preflight.PreflightResult)
    (body : Bytes) : Prop :=
  Recalls evs id fun e => ∃ answer, e.1.action = .build answer ∧ buildBody env task baseline answer = .ok body

/-- The claim was committed and the settlement submitted, in one step. -/
def Submitted (evs : List Event) (id : ℕ) (paid : Paid) : Prop :=
  Recalls evs id fun e =>
    e.2 = [.claim (.commit paid.claim tombstone e.1.now, .committed), .settle paid.payment]

/-- What a request has behind it that may build its response. -/
def Cleared (env : Env) (evs : List Event) (id : ℕ) (task : Task) (baseline : Preflight.PreflightResult) :
    Option Paid → Prop
  | none => ∃ now, checkRequest env now task = .ok (baseline, none)
  | some paid => Offered env evs id task baseline paid.payment ∧ Accepted evs id paid.payment ∧
      Claimed evs id task paid

/-- What a phase says about the steps before. -/
def Backed (env : Env) (evs : List Event) (id : ℕ) : Phase → Prop
  | .idle => requestOf evs id = none
  | .admitted task => Admitted env evs id task
  | .verifying task baseline payment => Admitted env evs id task ∧ Offered env evs id task baseline payment
  | .verified task baseline payment =>
    Admitted env evs id task ∧ Offered env evs id task baseline payment ∧ Accepted evs id payment
  | .ready task baseline paid => Admitted env evs id task ∧ Cleared env evs id task baseline paid
  | .built task body paid => Admitted env evs id task ∧
      ∃ baseline, Cleared env evs id task baseline paid ∧ Built env evs id task baseline body
  | .settling task body paid => Admitted env evs id task ∧
      ∃ baseline, Cleared env evs id task baseline (some paid) ∧ Built env evs id task baseline body ∧
        Submitted evs id paid
  | .failing task claim error => Admitted env evs id task ∧
      (∀ r, claim = some r → ∃ paid : Paid, paid.claim = r ∧ Claimed evs id task paid) ∧
        Recalls evs id fun e => e.1.action.Declines → error.Declines
  | .finished => True

section Backing

variable {env : Env} {evs : List Event} {id : ℕ} {task : Task} {baseline : Preflight.PreflightResult}

theorem requestOf_concat (evs : List Event) (id : ℕ) (e : Event) :
    requestOf (evs ++ [e]) id = (requestOf evs id).or (arrivalOf id e) := by
  rw [requestOf, List.findSome?_append]
  congr 1
  simp only [List.findSome?_cons, List.findSome?_nil]
  split <;> simp_all

theorem arrivalOf_of_ne {id : ℕ} {e : Event} (h : e.1.id ≠ id) : arrivalOf id e = none := by
  unfold arrivalOf
  split
  · rw [if_neg h]
  · rfl

theorem Recalls.concat {p : Event → Prop} (h : Recalls evs id p) (e : Event) : Recalls (evs ++ [e]) id p := by
  obtain ⟨e', he', hrest⟩ := h
  exact ⟨e', List.mem_append_left _ he', hrest⟩

theorem Recalls.last {p : Event → Prop} {e : Event} (hid : e.1.id = id) (h : p e) : Recalls (evs ++ [e]) id p :=
  ⟨e, List.mem_append_right _ List.mem_cons_self, hid, h⟩

theorem Admitted.concat (h : Admitted env evs id task) (e : Event) : Admitted env (evs ++ [e]) id task where
  request := by rw [requestOf_concat, h.request]; rfl
  fingerprint := h.fingerprint
  unpaid := h.unpaid
  keyed hroute := (h.keyed hroute).concat e
  paid hroute := by
    obtain ⟨hpath, hsignature, harrival⟩ := h.paid hroute
    exact ⟨hpath, hsignature, harrival.concat e⟩

theorem Cleared.concat {paid : Option Paid} (h : Cleared env evs id task baseline paid) (e : Event) :
    Cleared env (evs ++ [e]) id task baseline paid := by
  rcases paid with _ | paid
  · exact h
  · exact ⟨Recalls.concat h.1 e, Recalls.concat h.2.1 e, Recalls.concat h.2.2 e⟩

/-- A phase stays backed while its request stays in it. -/
theorem Backed.concat {phase : Phase} (h : Backed env evs id phase) {e : Event}
    (hidle : phase = .idle → arrivalOf id e = none) : Backed env (evs ++ [e]) id phase := by
  rcases phase with _ | task | ⟨task, baseline, payment⟩ | ⟨task, baseline, payment⟩ | ⟨task, baseline, paid⟩ |
    ⟨task, body, paid⟩ | ⟨task, body, paid⟩ | ⟨task, claim, error⟩ | _
  · show requestOf (evs ++ [e]) id = none
    rw [requestOf_concat, hidle rfl, show requestOf evs id = none from h]
    rfl
  · exact Admitted.concat h e
  · exact ⟨h.1.concat e, Recalls.concat h.2 e⟩
  · exact ⟨h.1.concat e, Recalls.concat h.2.1 e, Recalls.concat h.2.2 e⟩
  · exact ⟨h.1.concat e, h.2.concat e⟩
  · obtain ⟨hadmitted, baseline, hcleared, hbuilt⟩ := h
    exact ⟨hadmitted.concat e, baseline, hcleared.concat e, Recalls.concat hbuilt e⟩
  · obtain ⟨hadmitted, baseline, hcleared, hbuilt, hsubmitted⟩ := h
    exact ⟨hadmitted.concat e, baseline, hcleared.concat e, Recalls.concat hbuilt e, Recalls.concat hsubmitted e⟩
  · refine ⟨h.1.concat e, fun r hr => ?_, Recalls.concat h.2.2 e⟩
    obtain ⟨paid, hpaid, hclaimed⟩ := h.2.1 r hr
    exact ⟨paid, hpaid, Recalls.concat hclaimed e⟩
  · trivial

/-! ### Every phase is backed -/

/-- A step moves its own request only. -/
theorem step_phase (env : Env) (s : Runtime) (i : Step) :
    ∃ phase, (step env s i).2.phase = Function.update s.phase i.id phase := by
  have hcase := step_case env s i
  generalize step env s i = r at hcase ⊢
  cases hcase with
  | aborted task claim error hphase _ =>
    unfold abort abortKey abortClaim
    rcases task.route with _ | _ | _ <;> rcases claim with _ | _ <;> exact ⟨_, rfl⟩
  | ignored => exact ⟨s.phase i.id, (Function.update_eq_self ..).symm⟩
  | _ => exact ⟨_, rfl⟩

theorem Runtime.setPhase_self (s : Runtime) (id : ℕ) (phase : Phase) : (s.setPhase id phase).phase id = phase :=
  Function.update_self ..

/-- A step leaves its request in a phase that is backed. -/
theorem step_backed_self {s : Runtime} {i : Step} (h : Backed env evs i.id (s.phase i.id)) :
    Backed env (evs ++ [(i, (step env s i).1)]) i.id ((step env s i).2.phase i.id) := by
  have hcase := step_case env s i
  generalize step env s i = r at hcase ⊢
  cases hcase with
  | refused => rw [Runtime.setPhase_self]; trivial
  | opened request token quota fingerprint hphase haction hfingerprint hpath =>
    rw [hphase] at h
    rw [Runtime.setPhase_self]
    refine ⟨?_, hfingerprint, fun _ => hpath, nofun, nofun⟩
    rw [requestOf_concat, show requestOf evs i.id = none from h]
    simp [arrivalOf, haction]
  | keyed request token quota fingerprint tenantId headers emitted phase hphase haction hfingerprint hpath hheaders hcase =>
    rw [hphase] at h
    rw [Runtime.setPhase_self]
    cases hcase with
    | issued r hr =>
      refine ⟨?_, hfingerprint, fun _ => hpath, fun hroute => ?_, nofun⟩
      · rw [requestOf_concat, show requestOf evs i.id = none from h]
        simp [arrivalOf, haction]
      · cases hroute
        exact .last rfl ⟨tenantId, token, congrArg (fun o => [Emission.access (_, o)]) hr⟩
    | replayed => trivial
    | refused => trivial
  | paying request token quota fingerprint signature emitted phase hphase haction hfingerprint hpath hsignature hcase =>
    rw [hphase] at h
    rw [Runtime.setPhase_self]
    cases hcase with
    | issued r hr =>
      have harrival : ∀ emissions, arrivalOf i.id (i, emissions) = some request := by simp [arrivalOf, haction]
      refine ⟨?_, hfingerprint, fun hroute => absurd rfl (hroute _ _), nofun, fun hroute => ?_⟩
      · rw [requestOf_concat, show requestOf evs i.id = none from h, harrival]
        rfl
      · cases hroute
        exact ⟨hpath, hsignature, .last rfl ⟨harrival _, token, congrArg (fun o => [Emission.result (_, o)]) hr⟩⟩
    | replayed => trivial
    | refused => trivial
  | rejected task e hphase hdeclines =>
    rw [hphase] at h
    rw [Runtime.setPhase_self]
    exact ⟨Admitted.concat h _, nofun, .last rfl fun _ => hdeclines⟩
  | passed task baseline hphase hcheck =>
    rw [hphase] at h
    rw [Runtime.setPhase_self]
    exact ⟨Admitted.concat h _, i.now, hcheck⟩
  | offered task baseline payment hphase haction hcheck =>
    rw [hphase] at h
    rw [Runtime.setPhase_self]
    exact ⟨Admitted.concat h _, .last rfl ⟨hcheck, rfl⟩⟩
  | unverified task baseline payment e hphase hdeclines =>
    rw [hphase] at h
    rw [Runtime.setPhase_self]
    exact ⟨h.1.concat _, nofun, .last rfl hdeclines⟩
  | verified task baseline payment accepted answer hphase haction haccept =>
    rw [hphase] at h
    rw [Runtime.setPhase_self]
    obtain ⟨rfl, -⟩ := acceptVerification_eq_ok haccept
    exact ⟨h.1.concat _, Recalls.concat h.2 _, .last rfl ⟨answer, haction, haccept⟩⟩
  | claimed task baseline payment token reservation hphase haction hcall =>
    rw [hphase] at h
    rw [Runtime.setPhase_self]
    exact ⟨h.1.concat _, Recalls.concat h.2.1 _, Recalls.concat h.2.2 _,
      .last rfl ⟨token, haction, congrArg (fun o => [Emission.claim (_, o)]) hcall⟩⟩
  | unclaimed task baseline payment token e hphase haction hcall hdeclines =>
    rw [hphase] at h
    rw [Runtime.setPhase_self]
    exact ⟨h.1.concat _, nofun, .last rfl fun _ => hdeclines⟩
  | unbound task baseline paid e hphase hdeclines =>
    rw [hphase] at h
    rw [Runtime.setPhase_self]
    refine ⟨h.1.concat _, fun r hr => ?_, .last rfl fun _ => hdeclines⟩
    obtain ⟨paid, rfl, rfl⟩ := Option.map_eq_some_iff.mp hr
    exact ⟨paid, rfl, Recalls.concat h.2.2.2 _⟩
  | built task baseline paid answer body hphase haction hbody =>
    rw [hphase] at h
    rw [Runtime.setPhase_self]
    exact ⟨h.1.concat _, baseline, h.2.concat _, .last rfl ⟨answer, haction, hbody⟩⟩
  | submitted task body paid hphase haction hcall =>
    rw [hphase] at h
    rw [Runtime.setPhase_self]
    obtain ⟨hadmitted, baseline, hcleared, hbuilt⟩ := h
    exact ⟨hadmitted.concat _, baseline, hcleared.concat _, Recalls.concat hbuilt _,
      .last rfl (congrArg (fun o => [Emission.claim (_, o), .settle paid.payment]) hcall)⟩
  | unsubmitted task body paid e hphase hcall hdeclines =>
    rw [hphase] at h
    rw [Runtime.setPhase_self]
    obtain ⟨hadmitted, baseline, hcleared, hbuilt⟩ := h
    refine ⟨hadmitted.concat _, fun r hr => ?_, .last rfl fun _ => hdeclines⟩
    cases hr
    exact ⟨paid, rfl, Recalls.concat hcleared.2.2 _⟩
  | lost => rw [Runtime.setPhase_self]; trivial
  | settled => rw [Runtime.setPhase_self]; trivial
  | completed => rw [Runtime.setPhase_self]; trivial
  | unstorable task body e hphase hdeclines =>
    rw [hphase] at h
    rw [Runtime.setPhase_self]
    exact ⟨h.1.concat _, nofun, .last rfl fun _ => hdeclines⟩
  | stored => rw [Runtime.setPhase_self]; trivial
  | miscounted task body headers reservation cached e hphase hroute hcall hdeclines =>
    rw [hphase] at h
    rw [Runtime.setPhase_self]
    exact ⟨h.1.concat _, nofun, .last rfl fun _ => hdeclines⟩
  | unstored => rw [Runtime.setPhase_self]; trivial
  | aborted task claim error hphase haction =>
    rw [show (abort env s i.id i.now task claim error).2.phase i.id = .finished from Runtime.setPhase_self ..]
    trivial
  | cancelled => rw [Runtime.setPhase_self]; trivial
  | ignored haction =>
    refine h.concat fun hidle => ?_
    unfold arrivalOf
    split
    · next request token quota haction' => exact absurd hidle (haction request token quota haction')
    · rfl

/-- **Run lemma**: every phase of a reachable runtime is backed. -/
theorem run_backed {s : Runtime} (h : (machine env).Run evs s) (id : ℕ) : Backed env evs id (s.phase id) := by
  refine Machine.Run.invariant (I := fun evs s => ∀ id, Backed env evs id (s.phase id)) ?_ ?_ h id
  · intro id
    show requestOf [] id = none
    rfl
  intro evs s i _ ih id
  by_cases hid : id = i.id
  · rw [hid]
    exact step_backed_self (ih i.id)
  · obtain ⟨phase, hphase⟩ := step_phase env s i
    have hsame : ((machine env).step s i).2.phase id = s.phase id := by
      show (step env s i).2.phase id = _
      rw [hphase, Function.update_of_ne hid]
    rw [hsame]
    exact (ih id).concat fun _ => arrivalOf_of_ne (Ne.symm hid)

end Backing

/-! ## Orderly runs -/

/-- Time does not run back. -/
def Timely (evs : List Event) (i : Step) : Prop := ∀ e ∈ evs, e.1.now ≤ i.now

/-- A token is new. -/
def FreshToken (evs : List Event) (i : Step) : Prop :=
  ∀ token, i.action.token? = some token → ∀ e ∈ evs, e.1.action.token? ≠ some token

/-- Time does not run back, and a token is new. -/
def Orderly (evs : List Event) (i : Step) : Prop := Timely evs i ∧ FreshToken evs i

theorem respects_freshToken {evs : List Event} (h : Machine.Respects Orderly evs) : Machine.Respects FreshToken evs :=
  fun pre e post heq => (h pre e post heq).2

theorem respects_timely {evs : List Event} (h : Machine.Respects Orderly evs) : Machine.Respects Timely evs :=
  fun pre e post heq => (h pre e post heq).1

/-- The order of two steps that an orderly run asks for. -/
def Step.Precedes (i j : Step) : Prop :=
  i.now ≤ j.now ∧ (j.action.token? = none ∨ i.action.token? ≠ j.action.token?)

instance : DecidableRel Step.Precedes := fun i j =>
  inferInstanceAs (Decidable (i.now ≤ j.now ∧ (j.action.token? = none ∨ i.action.token? ≠ j.action.token?)))

/-- Whether a run is orderly is a matter of its inputs. -/
theorem respects_orderly {evs : List Event} (h : (evs.map Prod.fst).Pairwise Step.Precedes) :
    Machine.Respects Orderly evs := by
  rintro pre e post rfl
  rw [List.map_append, List.map_cons, List.pairwise_append] at h
  have hall : ∀ e' ∈ pre, Step.Precedes e'.1 e.1 := fun e' he' =>
    h.2.2 e'.1 (List.mem_map_of_mem he') e.1 List.mem_cons_self
  refine ⟨fun e' he' => (hall e' he').1, fun token htoken e' he' hdrawn => ?_⟩
  rcases (hall e' he').2 with hnone | hne
  · exact nomatch hnone.symm.trans htoken
  · exact hne (hdrawn.trans htoken.symm)

/-- The facilitator raises no `PaymentError` with another status than that of an HTTP error. -/
def Declining (evs : List Event) : Prop := ∀ e ∈ evs, e.1.action.Declines

instance : DecidablePred Declining := fun evs => inferInstanceAs (Decidable (∀ e ∈ evs, e.1.action.Declines))

section Legality

variable {env : Env} {evs pre post : List Event} {s : Runtime} {e : Event} {n : StoreName} {c : StoreEvent ℚ}

/-- The error a failed request is answered with. -/
theorem run_declines (h : (machine env).Run evs s) (hd : Declining evs) {id : ℕ} {task : Task}
    {claim : Option (Reservation ℚ)} {error : Raised} (hphase : s.phase id = .failing task claim error) :
    error.Declines := by
  have hbacked := run_backed h id
  rw [hphase] at hbacked
  obtain ⟨-, -, e, he, -, hdeclines⟩ := hbacked
  exact hdeclines (hd e he)

/-- What an event of a run did. -/
theorem run_case {i : Step} {o : List Emission} (h : (machine env).Run (pre ++ (i, o) :: post) s) :
    ∃ s₁ s₂, (machine env).Run pre s₁ ∧ StepCase env s₁ i (o, s₂) ∧ (machine env).Run (pre ++ [(i, o)]) s₂ := by
  obtain ⟨s₁, s₂, hpre, hstep, hrun, -⟩ := h.split
  refine ⟨s₁, s₂, hpre, ?_, hrun⟩
  have hcase := step_case env s₁ i
  rwa [show step env s₁ i = (o, s₂) from hstep] at hcase

/-- What an event of a run did to a store. -/
theorem run_storeStep (h : (machine env).Run (pre ++ e :: post) s) (n : StoreName) :
    ∃ s₁ s₂, (machine env).Run pre s₁ ∧ StoreStep env s₁ e.1 n (callsOf n e) (n.store s₂) ∧
      (machine env).Run (pre ++ [e]) s₂ := by
  obtain ⟨s₁, s₂, hpre, hstep, hrun, -⟩ := h.split
  refine ⟨s₁, s₂, hpre, ?_, hrun⟩
  have hstore := step_storeStep env s₁ e.1 n
  rwa [show step env s₁ e.1 = (e.2, s₂) from hstep] at hstore

/-- The clock readings of the calls of a step are its own. -/
theorem StoreStep.clock {i : Step} {cs : List (StoreEvent ℚ)} {store : Store ℚ} (h : StoreStep env s i n cs store)
    (hc : c ∈ cs) {now : ℚ} (hnow : StoreEvent.clock? c = some now) : now = i.now := by
  have hop : (∃ t k f token, c.1 = .reserve t k f token i.now) ∨ (∃ r response, c.1 = .commit r response i.now) ∨
      ∃ r, c.1 = .abort r i.now := by
    cases h with
    | none => exact absurd hc List.not_mem_nil
    | reserve t k f token =>
      obtain rfl := List.mem_singleton.mp hc
      exact .inl ⟨t, k, f, token, rfl⟩
    | commit r response =>
      obtain rfl := List.mem_singleton.mp hc
      exact .inr (.inl ⟨r, response, rfl⟩)
    | abort r =>
      obtain rfl := List.mem_singleton.mp hc
      exact .inr (.inr ⟨r, rfl⟩)
    | release r response =>
      rcases List.mem_cons.mp hc with rfl | hc
      · exact .inr (.inl ⟨r, response, rfl⟩)
      · obtain rfl := List.mem_singleton.mp hc
        exact .inr (.inr ⟨r, rfl⟩)
  obtain ⟨op, o⟩ := c
  obtain ⟨t, k, f, token, rfl⟩ | ⟨r, response, rfl⟩ | ⟨r, rfl⟩ := hop
  · unfold StoreEvent.clock? at hnow
    split at hnow <;> simp_all
  · unfold StoreEvent.clock? at hnow
    split at hnow <;> simp_all
  · exact (Option.some.inj hnow).symm

/-- The token of a reservation is the one its step brought. -/
theorem StoreStep.token {i : Step} {cs : List (StoreEvent ℚ)} {store : Store ℚ} (h : StoreStep env s i n cs store)
    (hc : c ∈ cs) {token : String} (hdraws : StoreEvent.Draws token c) : i.action.token? = some token := by
  cases h with
  | none => exact absurd hc List.not_mem_nil
  | reserve t k f token' htoken =>
    obtain rfl := List.mem_singleton.mp hc
    rw [htoken]
    exact congrArg some hdraws
  | commit r response =>
    obtain rfl := List.mem_singleton.mp hc
    exact absurd hdraws nofun
  | abort r =>
    obtain rfl := List.mem_singleton.mp hc
    exact absurd hdraws nofun
  | release r response =>
    rcases List.mem_cons.mp hc with rfl | hc
    · exact absurd hdraws nofun
    · obtain rfl := List.mem_singleton.mp hc
      exact absurd hdraws nofun

theorem run_token (h : (machine env).Run evs s) (he : e ∈ evs) (hc : c ∈ callsOf n e) {token : String}
    (hdraws : StoreEvent.Draws token c) : e.1.action.token? = some token := by
  obtain ⟨pre, post, rfl⟩ := List.append_of_mem he
  obtain ⟨s₁, s₂, -, hstep, -⟩ := run_storeStep h n
  exact hstep.token hc hdraws

theorem run_clock (h : (machine env).Run evs s) (he : e ∈ evs) (hc : c ∈ callsOf n e) {now : ℚ}
    (hnow : StoreEvent.clock? c = some now) : now = e.1.now := by
  obtain ⟨pre, post, rfl⟩ := List.append_of_mem he
  obtain ⟨s₁, s₂, -, hstep, -⟩ := run_storeStep h n
  exact hstep.clock hc hnow

/-- What a request holds was issued to it. -/
theorem Backed.held {id : ℕ} {phase : Phase} (h : Backed env evs id phase) {r : Reservation ℚ}
    (hheld : phase.held n = some r) : Recalls evs id fun e => ∃ t k f token,
      callsOf n e = [(.reserve t k f token e.1.now, .decided (.reserved r))] := by
  have hkey : ∀ {task claim}, Admitted env evs id task → Hosted.held n task.route claim = some r →
      (n = .claim ∧ claim = some r) ∨ Recalls evs id fun e => ∃ t k f token,
        callsOf n e = [(.reserve t k f token e.1.now, .decided (.reserved r))] := by
    intro task claim hadmitted hheld
    rcases n with _ | _ | _
    · rcases hroute : task.route with _ | ⟨headers, r'⟩ | ⟨signature, r'⟩ <;> rw [hroute] at hheld <;> cases hheld
      obtain ⟨e, he, hid, t, token, heq⟩ := hadmitted.keyed hroute
      exact .inr ⟨e, he, hid, t, _, _, token, by rw [callsOf, heq]; rfl⟩
    · rcases hroute : task.route with _ | ⟨headers, r'⟩ | ⟨signature, r'⟩ <;> rw [hroute] at hheld <;> cases hheld
      obtain ⟨-, -, e, he, hid, -, token, heq⟩ := hadmitted.paid hroute
      exact .inr ⟨e, he, hid, _, _, _, token, by rw [callsOf, heq]; rfl⟩
    · exact .inl ⟨rfl, by rcases hroute : task.route with _ | _ | _ <;> rw [hroute] at hheld <;> exact hheld⟩
  have hclaim : ∀ {task paid}, Claimed evs id task paid → n = .claim → paid.claim = r →
      Recalls evs id fun e => ∃ t k f token,
        callsOf n e = [(.reserve t k f token e.1.now, .decided (.reserved r))] := by
    rintro task paid ⟨e, he, hid, token, -, heq⟩ rfl rfl
    exact ⟨e, he, hid, _, _, _, token, by rw [callsOf, heq]; rfl⟩
  have hpaid : ∀ {task baseline paid}, Admitted env evs id task → Cleared env evs id task baseline paid →
      Hosted.held n task.route (paid.map Paid.claim) = some r → Recalls evs id fun e => ∃ t k f token,
        callsOf n e = [(.reserve t k f token e.1.now, .decided (.reserved r))] := by
    intro task baseline paid hadmitted hcleared hheld
    obtain ⟨hn, hr⟩ | hrecalls := hkey hadmitted hheld
    · obtain ⟨paid, rfl, rfl⟩ := Option.map_eq_some_iff.mp hr
      exact hclaim hcleared.2.2 hn rfl
    · exact hrecalls
  rcases phase with _ | task | ⟨task, baseline, payment⟩ | ⟨task, baseline, payment⟩ | ⟨task, baseline, paid⟩ |
    ⟨task, body, paid⟩ | ⟨task, body, paid⟩ | ⟨task, claim, error⟩ | _
  · exact nomatch hheld
  · exact (hkey h hheld).resolve_left fun hnone => nomatch hnone.2
  · exact (hkey h.1 hheld).resolve_left fun hnone => nomatch hnone.2
  · exact (hkey h.1 hheld).resolve_left fun hnone => nomatch hnone.2
  · exact hpaid h.1 h.2 hheld
  · obtain ⟨hadmitted, baseline, hcleared, -⟩ := h
    exact hpaid hadmitted hcleared hheld
  · obtain ⟨hadmitted, baseline, hcleared, -⟩ := h
    exact hpaid hadmitted hcleared hheld
  · obtain ⟨hn, hr⟩ | hrecalls := hkey h.1 hheld
    · obtain ⟨paid, hpaid, hclaimed⟩ := h.2.1 r hr
      exact hclaim hclaimed hn hpaid
    · exact hrecalls
  · exact nomatch hheld

theorem Backed.issued {id : ℕ} {phase : Phase} (h : Backed env evs id phase) {r : Reservation ℚ}
    (hheld : phase.held n = some r) : ∃ c ∈ calls n evs, StoreEvent.Issues r c := by
  obtain ⟨e, he, -, t, k, f, token, heq⟩ := h.held hheld
  refine ⟨(.reserve t k f token e.1.now, .decided (.reserved r)), mem_calls.mpr ⟨e, he, ?_⟩, rfl⟩
  rw [heq]
  exact List.mem_cons_self

/-- **Legality**: in a run with fresh tokens the calls on a store are legal. -/
theorem run_legal (h : (machine env).Run evs s) (hfresh : Machine.Respects FreshToken evs) (n : StoreName) :
    Machine.Respects Access.Legal (calls n evs) := by
  refine Machine.Respects.flatMap fun pre e post heq pre' c post' hcalls => ?_
  obtain ⟨s₁, s₂, hpre, hstep, -⟩ := run_storeStep (heq ▸ h) n
  rw [hcalls] at hstep
  have hissued : ∀ r, (s₁.phase e.1.id).held n = some r → ∃ ev ∈ calls n pre ++ pre', StoreEvent.Issues r ev := by
    intro r hheld
    obtain ⟨c, hc, hissues⟩ := (run_backed hpre e.1.id).issued hheld
    exact ⟨c, List.mem_append_left _ hc, hissues⟩
  generalize hlist : pre' ++ c :: post' = cs at hstep
  generalize n.store s₂ = store at hstep
  cases hstep with
  | none => exact absurd hlist (by simp)
  | reserve t k f token htoken =>
    obtain ⟨rfl, hc⟩ | ⟨_, -, hnil⟩ := List.append_eq_cons_iff.mp hlist
    · cases hc
      intro ev hev hdraws
      rw [List.append_nil] at hev
      obtain ⟨e', he', hc'⟩ := mem_calls.mp hev
      exact hfresh pre e post heq token htoken e' he' (run_token hpre he' hc' hdraws)
    · exact absurd hnil (by simp)
  | commit r response hheld =>
    obtain ⟨rfl, hc⟩ | ⟨_, -, hnil⟩ := List.append_eq_cons_iff.mp hlist
    · cases hc
      exact hissued r hheld
    · exact absurd hnil (by simp)
  | abort r hheld =>
    obtain ⟨rfl, hc⟩ | ⟨_, -, hnil⟩ := List.append_eq_cons_iff.mp hlist
    · cases hc
      exact hissued r hheld
    · exact absurd hnil (by simp)
  | release r response hheld =>
    have hc : c ∈ pre' ++ c :: post' := by simp
    rw [hlist] at hc
    rcases List.mem_cons.mp hc with rfl | hc
    · exact hissued r hheld
    · obtain rfl := List.mem_singleton.mp hc
      exact hissued r hheld

/-- Where time does not run back, the clocks of a store do not. -/
theorem run_clockOrdered (h : (machine env).Run evs s) (ht : Machine.Respects Timely evs) (n : StoreName) :
    ClockOrdered (calls n evs) := by
  have hordered : evs.Pairwise fun e e' => e.1.now ≤ e'.1.now := by
    clear h
    induction evs using List.reverseRecOn with
    | nil => exact .nil
    | append_singleton evs e ih =>
      refine List.pairwise_append.mpr ⟨ih ht.of_append, List.pairwise_singleton _ _, fun e' he' e'' he'' => ?_⟩
      obtain rfl := List.mem_singleton.mp he''
      exact ht evs e'' [] rfl e' he'
  refine List.pairwise_flatMap.mpr ⟨fun e he => ?_, ?_⟩
  · refine List.pairwise_of_forall_mem_list fun c hc c' hc' t t' ht ht' => ?_
    rw [run_clock h he hc ht, run_clock h he hc' ht']
  · refine hordered.imp_of_mem fun he he' hle c hc c' hc' t t' ht ht' => ?_
    rw [run_clock h he hc ht, run_clock h he' hc' ht']
    exact hle

/-- A reservation is issued by one call only. -/
theorem issues_call_unique (h : (machine env).Run evs s) (hfresh : Machine.Respects FreshToken evs) {c' : StoreEvent ℚ}
    {r : Reservation ℚ} (hc : c ∈ calls n evs) (hc' : c' ∈ calls n evs) (hr : StoreEvent.Issues r c)
    (hr' : StoreEvent.Issues r c') : c = c' := by
  obtain ⟨d, hd, -, -⟩ := run_ledger (run_store h n)
  obtain ⟨pre, post, heq⟩ := List.append_of_mem hc
  obtain ⟨pre', post', heq'⟩ := List.append_of_mem hc'
  exact (issues_unique hd (run_legal h hfresh n) heq hr heq' hr').2.1

/-- The slot of a claim is that of the authorization. -/
theorem Claimed.call {id : ℕ} {task : Task} {paid : Paid} (h : Claimed evs id task paid) :
    ∃ c ∈ calls .claim evs, StoreEvent.IssuesFor "x402-authorization" paid.payment.authorizationFingerprint
      task.requestFingerprint paid.claim c := by
  obtain ⟨e, he, -, token, -, heq⟩ := h
  refine ⟨(.reserve "x402-authorization" (some paid.payment.authorizationFingerprint) task.requestFingerprint token
    e.1.now, .decided (.reserved paid.claim)), mem_calls.mpr ⟨e, he, ?_⟩, rfl, rfl, rfl, rfl⟩
  rw [callsOf, heq]
  exact List.mem_cons_self

theorem Claimed.cacheKey (h : (machine env).Run evs s) {id : ℕ} {task : Task} {paid : Paid}
    (hclaimed : Claimed evs id task paid) : IdempotencyStore.cacheKey paid.claim =
      ("x402-authorization", env.sha256 (utf8 paid.payment.authorizationFingerprint)) := by
  obtain ⟨d, hd, -, -⟩ := run_ledger (run_store h .claim)
  obtain ⟨c, hc, hissues⟩ := hclaimed.call
  exact (issuesFor_cacheKey hd hc hissues).1

end Legality

end Lucent.Hosted
