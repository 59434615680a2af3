import Lucent.Access.RateBound
import Lucent.Hosted.Charge
import Lucent.Hosted.Tenants

/-!
# Lucent.Hosted.Deployment — the handler together with its token buckets

`Lucent.Hosted.machine` takes the answers of the quota as inputs.  Here they are what `TokenBucketLimiter.consume` of
the controller answers, called between the authentication and the reservation, as the handler does; the buckets count
in rationals, without the rounding of floats.

* `service`: the handler and the buckets as one machine.
* `service_refines`: a run of the service is a run of the handler and a run of the limiter, with the same answers.
* `service_rate_bound`: the rate bound, counted in results instead of calls of the limiter.
-/

namespace Lucent.Hosted

open Lucent.Lib Lucent.Access Lucent.Payments

/-! ## The service -/

/-- A deployment: what the handler reads, and the controller its tenants are those of. -/
structure Deployment where
  env : Env
  access : AccessController
  tenants_eq : env.settings.tenants = access.tenants

/-- The step is the arrival of a request. -/
def Action.isArrival : Action → Bool
  | .arrive _ _ _ => true
  | _ => false

/-- A step of a request; an arrival draws a token and reads the clock of the quota, but brings no answer of it. -/
inductive ServiceAction
  | arrive (request : HttpRequest) (token : String) (quotaNow : ℚ)
  | go (action : { action : Action // action.isArrival = false })

structure ServiceStep where
  id : ℕ
  now : ℚ
  action : ServiceAction

/-- The runtime, and the buckets of its limiter. -/
structure Service where
  runtime : Runtime
  buckets : OrderedDict String (Bucket ℚ)

/-- What a step does: the call of the limiter with its answer, and what the handler emits. -/
structure ServiceOutput where
  metered : Option (QuotaCall × Access.QuotaAnswer)
  emitted : List Emission

/-- The tenant whose quota the handler consumes for a request, if it gets there. -/
def meteredTenant (env : Env) (request : HttpRequest) : Option String :=
  match canonicalRequestFingerprint env request.payload with
  | .error _ => none
  | .ok _ =>
    if request.apiKey.isSome && env.settings.accessMode.usesApiKeys then
      authenticate env.sha256 env.settings.tenants request.apiKey
    else none

/-- An answer of the limiter, as the handler gets it; `none` for a `ValueError`. -/
def quotaOf : Access.QuotaAnswer → Option QuotaAnswer
  | .ok receipt => some (.receipt receipt.limit receipt.remaining.toNat receipt.resetAfterSeconds)
  | .error (.exceeded limit remaining retryAfter) => some (.exceeded limit remaining.toNat retryAfter)
  | .error (.valueError _) => none

/-- The answer of a handler that does not ask. -/
def unasked : QuotaAnswer := .exceeded 0 0 0

/-- The arrival of a request, with the call of the limiter. -/
def arriveService (d : Deployment) (s : Service) (id : ℕ) (now : ℚ) (request : HttpRequest) (token : String)
    (quotaNow : ℚ) : ServiceOutput × Service :=
  match meteredTenant d.env request with
  | none =>
    let (emitted, runtime) := step d.env s.runtime ⟨id, now, .arrive request token unasked⟩
    (⟨none, emitted⟩, { s with runtime })
  | some tenantId =>
    let call : QuotaCall := { tenantId, cost := 1, now := quotaNow }
    let (answer, buckets) := TokenBucketLimiter.consume d.access.policies s.buckets call
    match quotaOf answer with
    | some quota =>
      let (emitted, runtime) := step d.env s.runtime ⟨id, now, .arrive request token quota⟩
      (⟨some (call, answer), emitted⟩, ⟨runtime, buckets⟩)
    | none =>
      let (emitted, runtime) := respond s.runtime id (problem d.env request.requestId (.internal "ValueError"))
      (⟨some (call, answer), emitted⟩, ⟨runtime, buckets⟩)

/-- A step of the service. -/
def Service.step (d : Deployment) (s : Service) (i : ServiceStep) : ServiceOutput × Service :=
  match i.action with
  | .arrive request token quotaNow =>
    match s.runtime.phase i.id with
    | .idle => arriveService d s i.id i.now request token quotaNow
    | _ => (⟨none, []⟩, s)
  | .go action =>
    let (emitted, runtime) := Hosted.step d.env s.runtime ⟨i.id, i.now, action.1⟩
    (⟨none, emitted⟩, { s with runtime })

/-- The handler over the buckets of its controller. -/
def service (d : Deployment) : Machine Service ServiceStep ServiceOutput :=
  ⟨⟨Runtime.new, .empty⟩, Service.step d⟩

abbrev ServiceEvent := ServiceStep × ServiceOutput

/-- The event of the handler in an event of the service. -/
def ServiceEvent.hosted (e : ServiceEvent) : Event :=
  (⟨e.1.id, e.1.now, match e.1.action with
    | .arrive request token _ => .arrive request token ((e.2.metered.bind fun m => quotaOf m.2).getD unasked)
    | .go action => action.1⟩, e.2.emitted)

/-- The event of the limiter in an event of the service. -/
def ServiceEvent.quota (e : ServiceEvent) : List (QuotaCall × Access.QuotaAnswer) := e.2.metered.toList

/-! ## Refinement -/

section Refinement

variable {d : Deployment}

/-- The quota of a tenant that authenticates is never a `ValueError`. -/
theorem consume_metered {request : HttpRequest} {tenantId : String} (h : meteredTenant d.env request = some tenantId)
    (buckets : OrderedDict String (Bucket ℚ)) (quotaNow : ℚ) :
    (∃ receipt, (TokenBucketLimiter.consume d.access.policies buckets ⟨tenantId, 1, quotaNow⟩).1 = .ok receipt) ∨
      ∃ limit remaining retryAfter, (TokenBucketLimiter.consume d.access.policies buckets ⟨tenantId, 1, quotaNow⟩).1 =
        .error (.exceeded limit remaining retryAfter) := by
  obtain ⟨policy, hp⟩ : ∃ policy, d.access.policies.get? tenantId = some policy := by
    unfold meteredTenant at h
    split at h
    · cases h
    · split_ifs at h
      rw [d.tenants_eq] at h
      exact AccessController.policy h
  have hcapacity : (1 : ℚ) ≤ policy.capacity := by exact_mod_cast policy.capacity_pos
  rw [@consume_of_admissible _ buckets policy ⟨tenantId, 1, quotaNow⟩ hp ⟨one_pos, hcapacity⟩]
  rcases consumeLocked_cases policy (buckets.get? tenantId) 1 quotaNow with
    ⟨-, receipt, heq⟩ | ⟨-, heq⟩
  · exact .inl ⟨receipt, congrArg Prod.fst heq⟩
  · exact .inr ⟨_, _, _, congrArg Prod.fst heq⟩

/-- What the arrival of a request does: it is not metered, it is admitted, or the quota refuses it. -/
inductive ArrivalCase (d : Deployment) (s : Service) (id : ℕ) (now : ℚ) (request : HttpRequest) (token : String)
    (quotaNow : ℚ) : ServiceOutput × Service → Prop
  | unmetered (h : meteredTenant d.env request = none) :
      ArrivalCase d s id now request token quotaNow
        (⟨none, (step d.env s.runtime ⟨id, now, .arrive request token unasked⟩).1⟩,
          ⟨(step d.env s.runtime ⟨id, now, .arrive request token unasked⟩).2, s.buckets⟩)
  | answered (tenantId : String) (answer : Access.QuotaAnswer) (quota : QuotaAnswer)
      (buckets : OrderedDict String (Bucket ℚ)) (h : meteredTenant d.env request = some tenantId)
      (hconsume : TokenBucketLimiter.consume d.access.policies s.buckets ⟨tenantId, 1, quotaNow⟩ = (answer, buckets))
      (hquota : quotaOf answer = some quota) :
      ArrivalCase d s id now request token quotaNow
        (⟨some (⟨tenantId, 1, quotaNow⟩, answer), (step d.env s.runtime ⟨id, now, .arrive request token quota⟩).1⟩,
          ⟨(step d.env s.runtime ⟨id, now, .arrive request token quota⟩).2, buckets⟩)

theorem arriveService_case (d : Deployment) (s : Service) (id : ℕ) (now : ℚ) (request : HttpRequest) (token : String)
    (quotaNow : ℚ) :
    ArrivalCase d s id now request token quotaNow (arriveService d s id now request token quotaNow) := by
  unfold arriveService
  cases hmetered : meteredTenant d.env request with
  | none => exact .unmetered hmetered
  | some tenantId =>
    obtain ⟨answer, buckets, hconsume⟩ : ∃ answer buckets,
        TokenBucketLimiter.consume d.access.policies s.buckets ⟨tenantId, 1, quotaNow⟩ = (answer, buckets) :=
      ⟨_, _, rfl⟩
    have hanswer := consume_metered hmetered s.buckets quotaNow
    rw [hconsume] at hanswer
    simp only [hconsume]
    obtain ⟨receipt, rfl⟩ | ⟨limit, remaining, retryAfter, rfl⟩ := hanswer
    · exact .answered tenantId _ _ buckets hmetered hconsume rfl
    · exact .answered tenantId _ _ buckets hmetered hconsume rfl

theorem service_step_go {s : Service} {i : ServiceStep} {action : { action : Action // action.isArrival = false }}
    (hi : i.action = .go action) : Service.step d s i =
      (⟨none, (step d.env s.runtime ⟨i.id, i.now, action.1⟩).1⟩,
        ⟨(step d.env s.runtime ⟨i.id, i.now, action.1⟩).2, s.buckets⟩) := by
  unfold Service.step
  rw [hi]

theorem service_step_arrive {s : Service} {i : ServiceStep} {request : HttpRequest} {token : String} {quotaNow : ℚ}
    (hi : i.action = .arrive request token quotaNow) (hphase : s.runtime.phase i.id = .idle) :
    Service.step d s i = arriveService d s i.id i.now request token quotaNow := by
  unfold Service.step
  rw [hi]
  dsimp only
  rw [hphase]

theorem service_step_busy {s : Service} {i : ServiceStep} {request : HttpRequest} {token : String} {quotaNow : ℚ}
    (hi : i.action = .arrive request token quotaNow) (hphase : s.runtime.phase i.id ≠ .idle) :
    Service.step d s i = (⟨none, []⟩, s) := by
  unfold Service.step
  rw [hi]
  dsimp only
  split
  · exact absurd ‹_› hphase
  · rfl

/-- An arrival at a request that is not idle changes nothing. -/
theorem step_arrive_busy {env : Env} {s : Runtime} {id : ℕ} (h : s.phase id ≠ .idle) (now : ℚ)
    (request : HttpRequest) (token : String) (quota : QuotaAnswer) :
    step env s ⟨id, now, .arrive request token quota⟩ = ([], s) := by
  unfold step
  dsimp only
  split <;> simp_all

/-- A step of the service is the step of the handler with the answer that the limiter gave. -/
theorem step_hosted (d : Deployment) (s : Service) (i : ServiceStep) :
    step d.env s.runtime (ServiceEvent.hosted (i, (Service.step d s i).1)).1 =
      ((Service.step d s i).1.emitted, (Service.step d s i).2.runtime) := by
  cases hi : i.action with
  | go action =>
    rw [service_step_go hi]
    unfold ServiceEvent.hosted
    rw [hi]
  | arrive request token quotaNow =>
    by_cases hphase : s.runtime.phase i.id = .idle
    · rw [service_step_arrive hi hphase]
      have hcase := arriveService_case d s i.id i.now request token quotaNow
      generalize arriveService d s i.id i.now request token quotaNow = r at hcase
      unfold ServiceEvent.hosted
      rw [hi]
      cases hcase with
      | unmetered h => rfl
      | answered tenantId answer quota buckets h hconsume hquota =>
        simp only [Option.bind_some, hquota, Option.getD_some]
    · rw [service_step_busy hi hphase]
      unfold ServiceEvent.hosted
      rw [hi]
      exact step_arrive_busy hphase ..

/-- The calls of the limiter in a step of the service. -/
theorem step_quota (d : Deployment) (s : Service) (i : ServiceStep) :
    (limiter d.access.policies).Steps s.buckets (ServiceEvent.quota (i, (Service.step d s i).1))
      (Service.step d s i).2.buckets := by
  cases hi : i.action with
  | go action =>
    rw [service_step_go hi]
    exact .nil _
  | arrive request token quotaNow =>
    by_cases hphase : s.runtime.phase i.id = .idle
    · rw [service_step_arrive hi hphase]
      have hcase := arriveService_case d s i.id i.now request token quotaNow
      generalize arriveService d s i.id i.now request token quotaNow = r at hcase
      cases hcase with
      | unmetered h => exact .nil _
      | answered tenantId answer quota buckets h hconsume hquota => exact Machine.steps_singleton_iff.mpr hconsume
    · rw [service_step_busy hi hphase]
      exact .nil _

/-- **Refinement.**  A run of the service is a run of the handler, with the answers its limiter gave for the quota,
and the calls of the limiter in it are a run of the limiter. -/
theorem service_refines (d : Deployment) {evs : List ServiceEvent} {s : Service} (h : (service d).Run evs s) :
    (machine d.env).Run (evs.map ServiceEvent.hosted) s.runtime ∧
      (limiter d.access.policies).Run (evs.flatMap ServiceEvent.quota) s.buckets := by
  constructor
  · have hrun := @Machine.Steps.project _ _ _ (service d) _ _ _ (machine d.env) Service.runtime
      (fun e => [ServiceEvent.hosted e]) (fun s i => Machine.steps_singleton_iff.mpr (step_hosted d s i)) _ _ _ h
    rwa [← List.map_eq_flatMap] at hrun
  · exact @Machine.Steps.project _ _ _ (service d) _ _ _ (limiter d.access.policies) Service.buckets
      ServiceEvent.quota (step_quota d) _ _ _ h

end Refinement

/-! ## Results and admissions -/

/-- The event admits a request of the tenant. -/
def granted (tenantId : String) (e : ServiceEvent) : Bool :=
  match e.2.metered with
  | some (call, .ok _) => call.tenantId == tenantId
  | _ => false

/-- The requests of the tenant that were admitted. -/
def grants (tenantId : String) (evs : List ServiceEvent) : List ℕ := (evs.filter (granted tenantId)).map (·.1.id)

/-- A response that is a result. -/
def isResult : Emission → Bool
  | .respond response => response.statusCode == 200
  | _ => false

/-- The requests of the tenant that got a result. -/
def results (d : Deployment) (tenantId : String) (evs : List ServiceEvent) : List ℕ :=
  (evs.filter fun e => e.2.emitted.any isResult && decide
    ((requestOf (evs.map ServiceEvent.hosted) e.1.id).bind (meteredTenant d.env) = some tenantId)).map (·.1.id)

theorem grants_append (tenantId : String) (evs evs' : List ServiceEvent) :
    grants tenantId (evs ++ evs') = grants tenantId evs ++ grants tenantId evs' := by
  rw [grants, List.filter_append, List.map_append]
  rfl

section Results

variable {d : Deployment}

/-- The handler answers a request that the quota refuses. -/
theorem step_arrive_exceeded {env : Env} {s : Runtime} {id : ℕ} {request : HttpRequest} {tenantId : String}
    (hphase : s.phase id = .idle) (hmetered : meteredTenant env request = some tenantId) (now : ℚ) (token : String)
    (limit remaining : ℕ) (retryAfter : ℚ) :
    step env s ⟨id, now, .arrive request token (.exceeded limit remaining retryAfter)⟩ =
      respond s id (problem env request.requestId (.access (.quotaExceeded limit remaining retryAfter))) := by
  unfold meteredTenant at hmetered
  have harrive : step env s ⟨id, now, .arrive request token (.exceeded limit remaining retryAfter)⟩ =
      arrive env s id now request token (.exceeded limit remaining retryAfter) := by
    unfold step
    dsimp only
    rw [hphase]
  rw [harrive]
  unfold arrive
  cases hfingerprint : canonicalRequestFingerprint env request.payload with
  | error e =>
    rw [hfingerprint] at hmetered
    cases hmetered
  | ok fingerprint =>
    rw [hfingerprint] at hmetered
    dsimp only at hmetered ⊢
    split_ifs at hmetered with hkeyed
    have hmode : env.settings.accessMode.usesApiKeys = true := (Bool.and_eq_true_iff.mp hkeyed).2
    cases hm : env.settings.accessMode <;> rw [hm] at hkeyed hmode <;> first
      | exact absurd hmode Bool.false_ne_true
      | (dsimp only
         rw [if_pos hkeyed]
         unfold arriveApiKey
         rw [hmetered])

/-- An idle request does nothing until it arrives. -/
theorem step_idle_silent {env : Env} {s : Runtime} {i : Step} (hphase : s.phase i.id = .idle)
    (haction : i.action.isArrival = false) : (step env s i).1 = [] := by
  unfold step
  rw [hphase]
  cases h : i.action with
  | arrive => rw [h] at haction; cases haction
  | _ => rfl

/-- A step that answers is the last of its request. -/
theorem step_respond_finished {env : Env} {s : Runtime} {i : Step} {response : HttpResponse}
    (h : .respond response ∈ (step env s i).1) : (step env s i).2.phase i.id = .finished := by
  have hcase := step_case env s i
  generalize step env s i = r at hcase h
  cases hcase with
  | keyed _ _ _ _ _ _ emitted phase _ _ _ _ _ hadmission =>
    rw [Runtime.setPhase_self]
    cases hadmission with
    | issued => simp at h
    | _ => rfl
  | paying _ _ _ _ _ emitted phase _ _ _ _ _ hadmission =>
    rw [Runtime.setPhase_self]
    cases hadmission with
    | issued => simp at h
    | _ => rfl
  | aborted => exact Runtime.setPhase_self ..
  | _ => first
    | exact Runtime.setPhase_self ..
    | exact absurd h (by simp)

/-- What the history says of a request: before it arrives it is silent, and a metered one is admitted or over. -/
structure Accounted (d : Deployment) (evs : List ServiceEvent) (s : Service) (id : ℕ) : Prop where
  silent : requestOf (evs.map ServiceEvent.hosted) id = none → ∀ e ∈ evs, e.1.id = id → e.2.emitted = []
  metered : ∀ request tenantId, requestOf (evs.map ServiceEvent.hosted) id = some request →
    meteredTenant d.env request = some tenantId → id ∈ grants tenantId evs ∨
      (s.runtime.phase id = .finished ∧ ∀ e ∈ evs, e.1.id = id → e.2.emitted.any isResult = false)

theorem forall_mem_concat {α : Type} {p : α → Prop} {l : List α} {a : α} (h : ∀ x ∈ l, p x) (ha : p a) :
    ∀ x ∈ l ++ [a], p x := by
  intro x hx
  rcases List.mem_append.mp hx with hx | hx
  · exact h x hx
  · rw [List.mem_singleton.mp hx]
    exact ha

/-- A step of another request leaves the account. -/
theorem Accounted.of_ne {evs : List ServiceEvent} {s : Service} {id : ℕ} (h : Accounted d evs s id) {i : ServiceStep}
    (hid : i.id ≠ id) : Accounted d (evs ++ [(i, (Service.step d s i).1)]) (Service.step d s i).2 id := by
  have hrequest : requestOf ((evs ++ [(i, (Service.step d s i).1)]).map ServiceEvent.hosted) id =
      requestOf (evs.map ServiceEvent.hosted) id := by
    rw [List.map_append, List.map_singleton, requestOf_concat,
      arrivalOf_of_ne (show (ServiceEvent.hosted (i, (Service.step d s i).1)).1.id ≠ id from hid), Option.or_none]
  have hphase : (Service.step d s i).2.runtime.phase id = s.runtime.phase id := by
    obtain ⟨phase, hupdate⟩ := step_phase d.env s.runtime (ServiceEvent.hosted (i, (Service.step d s i).1)).1
    rw [step_hosted] at hupdate
    exact (congrFun hupdate id).trans (Function.update_of_ne (Ne.symm hid) ..)
  constructor
  · rw [hrequest]
    exact fun hnone => forall_mem_concat (h.silent hnone) fun heq => absurd heq hid
  · rw [hrequest, hphase]
    intro request tenantId hsome hmetered
    rw [grants_append]
    refine (h.metered request tenantId hsome hmetered).imp (List.mem_append_left _) ?_
    rintro ⟨hfinished, hquiet⟩
    exact ⟨hfinished, forall_mem_concat hquiet fun heq => absurd heq hid⟩

/-- **Step**: the account of the request that moves. -/
theorem Accounted.step_self {evs : List ServiceEvent} {s : Service} (hrun : (service d).Run evs s) {i : ServiceStep}
    (h : Accounted d evs s i.id) :
    Accounted d (evs ++ [(i, (Service.step d s i).1)]) (Service.step d s i).2 i.id := by
  have hbacked := run_backed (service_refines d hrun).1 i.id
  have hstep := step_hosted d s i
  have hconcat : requestOf ((evs ++ [(i, (Service.step d s i).1)]).map ServiceEvent.hosted) i.id =
      (requestOf (evs.map ServiceEvent.hosted) i.id).or
        (arrivalOf i.id (ServiceEvent.hosted (i, (Service.step d s i).1))) := by
    rw [List.map_append, List.map_singleton, requestOf_concat]
  by_cases hidle : s.runtime.phase i.id = .idle
  · -- the request has not arrived yet
    have hnone : requestOf (evs.map ServiceEvent.hosted) i.id = none := by rwa [hidle] at hbacked
    have hearlier := h.silent hnone
    cases hi : i.action with
    | go action =>
      have harrival : arrivalOf i.id (ServiceEvent.hosted (i, (Service.step d s i).1)) = none := by
        have haction := action.2
        unfold arrivalOf ServiceEvent.hosted
        rw [hi]
        dsimp only
        split
        · rename_i heq
          rw [heq] at haction
          cases haction
        · rfl
      have hsilent : (Service.step d s i).1.emitted = [] := by
        rw [service_step_go hi]
        exact step_idle_silent hidle action.2
      rw [hnone, harrival] at hconcat
      refine ⟨fun _ => forall_mem_concat hearlier fun _ => hsilent, fun request tenantId hsome _ => ?_⟩
      rw [hconcat] at hsome
      cases hsome
    | arrive request token quotaNow =>
      have harrival : arrivalOf i.id (ServiceEvent.hosted (i, (Service.step d s i).1)) = some request := by
        unfold arrivalOf ServiceEvent.hosted
        rw [hi]
        exact if_pos rfl
      rw [hnone, harrival, Option.none_or] at hconcat
      refine ⟨fun hnone' => absurd (hconcat.symm.trans hnone') (by simp), fun request' tenantId hsome hmetered => ?_⟩
      obtain rfl := Option.some.inj (hconcat.symm.trans hsome)
      rw [grants_append]
      have hcase := arriveService_case d s i.id i.now request token quotaNow
      rw [← service_step_arrive hi hidle] at hcase
      generalize hout : Service.step d s i = out at hcase
      cases hcase with
      | unmetered hnot => exact absurd (hnot.symm.trans hmetered) (by simp)
      | answered tenantId' answer quota buckets hmetered' hconsume hquota =>
        obtain rfl := Option.some.inj (hmetered'.symm.trans hmetered)
        rcases answer with (detail | ⟨limit, remaining, retryAfter⟩) | receipt
        · cases hquota
        · -- refused: the response is no result, and the request is over
          obtain rfl := Option.some.inj hquota
          rw [step_arrive_exceeded hidle hmetered]
          refine .inr ⟨Runtime.setPhase_self .., forall_mem_concat (fun e he hid => ?_) fun _ => ?_⟩
          · rw [hearlier e he hid]
            rfl
          · have hstatus := problem_status d.env request.requestId
              (e := .access (.quotaExceeded limit remaining.toNat retryAfter)) trivial
            simpa [respond, isResult] using hstatus
        · refine .inl (List.mem_append_right _ ?_)
          simp [grants, granted]
  · by_cases hfinished : s.runtime.phase i.id = .finished
    · -- the request is over
      have hquiet := @step_finished d.env s.runtime (ServiceEvent.hosted (i, (Service.step d s i).1)).1 hfinished
      rw [hstep] at hquiet
      obtain ⟨hsilent, hstill⟩ := hquiet
      have hlast : (Service.step d s i).1.emitted.any isResult = false := by
        rw [show (Service.step d s i).1.emitted = [] from hsilent]
        rfl
      refine ⟨fun hnone => forall_mem_concat (h.silent ?_) fun _ => hsilent, fun request tenantId hsome hmetered => ?_⟩
      · rw [hconcat] at hnone
        exact (Option.or_eq_none_iff.mp hnone).1
      · rw [grants_append]
        cases hold : requestOf (evs.map ServiceEvent.hosted) i.id with
        | none =>
          refine .inr ⟨hstill, forall_mem_concat (fun e he hid => ?_) fun _ => hlast⟩
          rw [h.silent hold e he hid]
          rfl
        | some request' =>
          rw [hconcat, hold, Option.some_or] at hsome
          obtain rfl := Option.some.inj hsome
          refine (h.metered request' tenantId hold hmetered).imp (List.mem_append_left _) ?_
          rintro ⟨-, hquiet⟩
          exact ⟨hstill, forall_mem_concat hquiet fun _ => hlast⟩
    · -- the request is under way
      obtain ⟨request', hold⟩ : ∃ request, requestOf (evs.map ServiceEvent.hosted) i.id = some request := by
        generalize s.runtime.phase i.id = phase at hbacked hidle hfinished
        cases phase with
        | idle => exact absurd rfl hidle
        | finished => exact absurd rfl hfinished
        | admitted => exact ⟨_, hbacked.request⟩
        | _ => exact ⟨_, hbacked.1.request⟩
      rw [hold, Option.some_or] at hconcat
      refine ⟨fun hnone => absurd (hconcat.symm.trans hnone) (by simp), fun request tenantId hsome hmetered => ?_⟩
      obtain rfl := Option.some.inj (hconcat.symm.trans hsome)
      rw [grants_append]
      rcases h.metered request' tenantId hold hmetered with hgrant | ⟨hover, -⟩
      · exact .inl (List.mem_append_left _ hgrant)
      · exact absurd hover hfinished

/-- **Run**: the account of every request. -/
theorem run_accounted {evs : List ServiceEvent} {s : Service} (h : (service d).Run evs s) (id : ℕ) :
    Accounted d evs s id := by
  refine Machine.Run.invariant (I := fun evs s => ∀ id, Accounted d evs s id) ?_ ?_ h id
  · intro id
    exact ⟨fun _ e he => absurd he List.not_mem_nil, fun request tenantId hsome => by simp [requestOf] at hsome⟩
  · intro evs s i hrun ih id
    by_cases hid : i.id = id
    · subst hid
      exact (ih i.id).step_self hrun
    · exact (ih id).of_ne hid

/-- A result goes to a request that was admitted. -/
theorem results_subset_grants {evs : List ServiceEvent} {s : Service} (h : (service d).Run evs s) (tenantId : String) :
    results d tenantId evs ⊆ grants tenantId evs := by
  intro id hid
  obtain ⟨e, he, rfl⟩ := List.mem_map.mp hid
  obtain ⟨hmem, hresult⟩ := List.mem_filter.mp he
  obtain ⟨hanswer, hrequest⟩ := Bool.and_eq_true_iff.mp hresult
  obtain ⟨request, hrequest, hmetered⟩ := Option.bind_eq_some_iff.mp (of_decide_eq_true hrequest)
  rcases (run_accounted h e.1.id).metered request tenantId hrequest hmetered with hgrant | ⟨-, hquiet⟩
  · exact hgrant
  · rw [hquiet e hmem rfl] at hanswer
    cases hanswer

/-- A request is answered once. -/
theorem results_nodup {evs : List ServiceEvent} {s : Service} (h : (service d).Run evs s) (tenantId : String) :
    (results d tenantId evs).Nodup := by
  have hanswered : ∀ e : ServiceEvent, e.2.emitted.any isResult = true →
      ∃ response, .respond response ∈ (ServiceEvent.hosted e).2 := by
    intro e hany
    obtain ⟨x, hx, hresult⟩ := List.any_eq_true.mp hany
    cases x with
    | respond response => exact ⟨response, hx⟩
    | _ => cases hresult
  have hpairs : evs.Pairwise fun e e' => e.2.emitted.any isResult = true → e'.2.emitted.any isResult = true →
      e.1.id ≠ e'.1.id := by
    refine Machine.pairwise_of_split ?_
    rintro pre e mid e' post rfl hfirst hsecond hid
    have hrun := (service_refines d h).1
    rw [List.append_assoc, List.cons_append, List.map_append, List.map_cons] at hrun
    obtain ⟨s₁, s₂, -, hstep, -, hrest⟩ := hrun.split
    have hstep : step d.env s₁ (ServiceEvent.hosted e).1 = ((ServiceEvent.hosted e).2, s₂) := hstep
    obtain ⟨response, hrespond⟩ := hanswered e hfirst
    have hover := @step_respond_finished d.env s₁ (ServiceEvent.hosted e).1 response (by rwa [hstep])
    rw [hstep] at hover
    have hsilent := finished_silent hrest hover (ServiceEvent.hosted e')
      (List.mem_map_of_mem (List.mem_append_right _ List.mem_cons_self)) hid.symm
    obtain ⟨response', hrespond'⟩ := hanswered e' hsecond
    rw [hsilent] at hrespond'
    exact absurd hrespond' List.not_mem_nil
  rw [results, List.Nodup, List.pairwise_map, List.pairwise_filter]
  exact hpairs.imp fun hne h1 h2 => hne (Bool.and_eq_true_iff.mp h1).1 (Bool.and_eq_true_iff.mp h2).1

end Results

/-! ## The rate bound of the service -/

section Rate

variable {d : Deployment} {tenantId : String} {policy : QuotaPolicy}

/-- Every call of the limiter in a step is for one token. -/
theorem metered_cost {s : Service} {i : ServiceStep} {call : QuotaCall} {answer : Access.QuotaAnswer}
    (h : (Service.step d s i).1.metered = some (call, answer)) : call.cost = 1 := by
  cases hi : i.action with
  | go action =>
    rw [service_step_go hi] at h
    cases h
  | arrive request token quotaNow =>
    by_cases hphase : s.runtime.phase i.id = .idle
    · rw [service_step_arrive hi hphase] at h
      have hcase := arriveService_case d s i.id i.now request token quotaNow
      generalize arriveService d s i.id i.now request token quotaNow = r at hcase h
      cases hcase with
      | unmetered => cases h
      | answered =>
        cases h
        rfl
    · rw [service_step_busy hi hphase] at h
      cases h

theorem quota_cost {evs : List ServiceEvent} {s : Service} (h : (service d).Run evs s) :
    ∀ e ∈ evs, ∀ c ∈ ServiceEvent.quota e, c.1.cost = 1 := by
  intro e he c hc
  obtain ⟨s₁, hstep⟩ := h.step_of_mem he
  obtain ⟨call, answer⟩ := c
  have hmetered : (Service.step d s₁ e.1).1.metered = some (call, answer) := by
    rw [show (Service.step d s₁ e.1).1 = e.2 from hstep]
    exact Option.mem_toList.mp hc
  exact metered_cost hmetered

/-- The admitted calls of the tenant in some events, each for one token, are the admissions of its requests. -/
theorem length_grants {evs : List ServiceEvent} (hcost : ∀ e ∈ evs, ∀ c ∈ ServiceEvent.quota e, c.1.cost = 1) :
    (admitted (served policy tenantId (evs.flatMap ServiceEvent.quota))).length = (grants tenantId evs).length ∧
      spent (served policy tenantId (evs.flatMap ServiceEvent.quota)) = (grants tenantId evs).length := by
  have hone : (1 : ℚ) ≤ policy.capacity := by exact_mod_cast policy.capacity_pos
  induction evs with
  | nil => exact ⟨rfl, rfl⟩
  | cons e evs ih =>
    obtain ⟨hcount, hspent⟩ := ih fun e' he' => hcost e' (List.mem_cons_of_mem _ he')
    have hfirst := hcost e List.mem_cons_self
    rw [List.flatMap_cons, served_append, admitted_append, spent_append, hcount, hspent, ← List.singleton_append,
      grants_append, List.length_append]
    push_cast
    suffices hsame : (admitted (served policy tenantId (ServiceEvent.quota e))).length = (grants tenantId [e]).length ∧
        spent (served policy tenantId (ServiceEvent.quota e)) = (grants tenantId [e]).length by
      rw [hsame.1, hsame.2]
      exact ⟨rfl, rfl⟩
    obtain ⟨i, metered, emitted⟩ := e
    cases metered with
    | none => exact ⟨rfl, rfl⟩
    | some m =>
      obtain ⟨call, answer⟩ := m
      have hcall : call.cost = 1 := hfirst _ List.mem_cons_self
      have hadmissible : policy.Admissible call.cost := by
        rw [hcall]
        exact ⟨one_pos, hone⟩
      by_cases ht : call.tenantId = tenantId
      · have hserved : served policy tenantId [(call, answer)] = [(call, answer)] := by
          simp [served, ofTenant, ht, hadmissible]
        show (admitted (served policy tenantId [(call, answer)])).length = _ ∧
          spent (served policy tenantId [(call, answer)]) = _
        rw [hserved]
        cases answer with
        | ok receipt => simp [spent, admitted, grants, granted, Except.isOk, Except.toBool, ht, hcall]
        | error e => simp [spent, admitted, grants, granted, Except.isOk, Except.toBool]
      · have hserved : served policy tenantId [(call, answer)] = [] := by simp [served, ofTenant, ht]
        show (admitted (served policy tenantId [(call, answer)])).length = _ ∧
          spent (served policy tenantId [(call, answer)]) = _
        rw [hserved]
        cases answer with
        | ok receipt => simp [spent, admitted, grants, granted, ht]
        | error e => simp [spent, admitted, grants, granted]

/-- **Rate bound of the service**, with rational arithmetic.  While the readings of the quota's clock do not decrease,
a tenant is admitted on every stretch of every run for no more than its capacity and the flow over the time of the
stretch, up to the tolerances; and only admitted requests get a result, each of them one. -/
theorem service_rate_bound {evs : List ServiceEvent} {s : Service} (h : (service d).Run evs s)
    (hp : d.access.policies.get? tenantId = some policy)
    (hclock : (readings (evs.flatMap ServiceEvent.quota)).Pairwise (· ≤ ·)) :
    (∀ pre mid post start stop, evs = pre ++ mid ++ post → start ≤ stop →
      (∀ t ∈ readings (mid.flatMap ServiceEvent.quota), start ≤ t ∧ t ≤ stop) →
      ((grants tenantId mid).length : ℚ) ≤ policy.capacity + policy.refillTokensPerSecond * (stop - start) +
        (grants tenantId mid).length * admissionTolerance) ∧
    results d tenantId evs ⊆ grants tenantId evs ∧ (results d tenantId evs).Nodup := by
  refine ⟨?_, results_subset_grants h tenantId, results_nodup h tenantId⟩
  rintro pre mid post start stop rfl hle hwindow
  obtain ⟨s₁, hrun, -⟩ := Machine.steps_append_iff.mp h
  have hlimiter := (service_refines d hrun).2
  have hcost : ∀ e ∈ mid, ∀ c ∈ ServiceEvent.quota e, c.1.cost = 1 := fun e he =>
    quota_cost hrun e (List.mem_append_right _ he)
  obtain ⟨hcount, hspent⟩ := @length_grants tenantId policy mid hcost
  rw [List.flatMap_append] at hclock hlimiter
  rw [List.flatMap_append, readings_append, readings_append] at hclock
  have hbefore := (List.pairwise_append.mp (List.pairwise_append.mp hclock).1).2.2
  have hrate := policy.refill_pos.le
  cases hmid : served policy tenantId (mid.flatMap ServiceEvent.quota) with
  | nil =>
    rw [hmid] at hspent
    have hzero : ((grants tenantId mid).length : ℚ) = 0 := hspent.symm
    have hflow : 0 ≤ policy.refillTokensPerSecond * (stop - start) := mul_nonneg hrate (sub_nonneg.mpr hle)
    rw [hzero]
    have hcapacity : (0 : ℚ) ≤ policy.capacity := Nat.cast_nonneg _
    linarith
  | cons first rest =>
    obtain ⟨hnone, hsome⟩ := run_bucket hp hlimiter
    have hserved : served policy tenantId (pre.flatMap ServiceEvent.quota ++ mid.flatMap ServiceEvent.quota) =
        served policy tenantId (pre.flatMap ServiceEvent.quota) ++ first :: rest := by rw [served_append, hmid]
    obtain ⟨b, hb⟩ : ∃ b, s₁.buckets.get? tenantId = some b := by
      cases hg : s₁.buckets.get? tenantId with
      | none => exact absurd (hserved.symm.trans (hnone hg)) (by simp)
      | some b => exact ⟨b, rfl⟩
    have hmetered := (hsome b hb).2
    have hcovered := hmetered.covered _ first rest hserved
    -- the marks of the stretch lie in its window
    have hinner : ∀ e ∈ first :: rest, e.1.now ∈ readings (mid.flatMap ServiceEvent.quota) := by
      intro e he
      rw [← hmid] at he
      exact List.mem_map_of_mem (mem_served.mp he).1
    have hfirst := hwindow _ (hinner first List.mem_cons_self)
    have hstart :
        start ≤ highWater (readings (served policy tenantId (pre.flatMap ServiceEvent.quota) ++ [first])) := by
      rcases eq_or_ne (readings (served policy tenantId (pre.flatMap ServiceEvent.quota))) [] with hnil | hne
      · rw [readings_append, hnil, List.nil_append]
        exact hfirst.1
      · have hmax := highWater_concat hne first.1.now
        have hmark : readings (served policy tenantId (pre.flatMap ServiceEvent.quota) ++ [first]) =
            readings (served policy tenantId (pre.flatMap ServiceEvent.quota)) ++ [first.1.now] := readings_append ..
        rw [hmark, hmax]
        exact hfirst.1.trans (le_max_right _ _)
    have hstop : b.lastRefill ≤ stop := by
      rw [hmetered.stamped, hserved]
      have hne : readings (served policy tenantId (pre.flatMap ServiceEvent.quota) ++ first :: rest) ≠ [] := by
        simp [readings]
      obtain ⟨e, he, hlast⟩ := List.mem_map.mp (highWater_mem hne)
      refine hlast.symm.le.trans ?_
      rcases List.mem_append.mp he with he | he
      · have hearlier := hbefore _ (List.mem_map_of_mem (mem_served.mp he).1) _ (hinner first List.mem_cons_self)
        exact hearlier.trans hfirst.2
      · exact (hwindow _ (hinner e he)).2
    have hadvance : policy.refillTokensPerSecond * (b.lastRefill -
        highWater (readings (served policy tenantId (pre.flatMap ServiceEvent.quota) ++ [first]))) ≤
          policy.refillTokensPerSecond * (stop - start) :=
      mul_le_mul_of_nonneg_left (sub_le_sub hstop hstart) hrate
    rw [hmid] at hcount hspent
    rw [hspent, hcount] at hcovered
    linarith [hmetered.within.nonneg]

/-- The digest of every text. -/
def oneDigest (_ : Bytes) : Bytes := List.replicate 32 0

theorem unpaid_timeout : false = true → 1 ≤ pausePayment.maxTimeoutSeconds ∧
    pausePayment.maxTimeoutSeconds ≤ maxPaymentTimeoutSeconds := fun h => absurd h Bool.false_ne_true

/-- A tenant of two tokens, one every two seconds. -/
def twoTokenDeployment : Deployment where
  env := { pauseService with
    preflight := { pauseService.preflight with sha256 := oneDigest }
    settings := ⟨.apiKey, false, [⟨List.replicate 32 0, "a", true⟩],
      { pausePayment with enabled := false, timeout_range := unpaid_timeout }, rfl,
      fun h => absurd h Bool.false_ne_true⟩ }
  access :=
    { tenants := [⟨List.replicate 32 0, "a", true⟩]
      policies := OrderedDict.empty.push "a" twoTokens
      digests_nodup := List.nodup_singleton _
      configured := fun t ht => ⟨twoTokens, by rw [List.mem_singleton.mp ht]; exact OrderedDict.get?_push_self ..⟩ }
  tenants_eq := rfl

/-- The request of the tenant arrives, under its own key, at 100. -/
def arrivalAt100 (id : ℕ) (key : String) : ServiceStep :=
  ⟨id, 100, .arrive ⟨.obj [], "r", some key, some "key", none⟩ key 100⟩

/-- Three requests at once; the quota admits two. -/
def threeArrivals : List ServiceEvent :=
  (service twoTokenDeployment).trace [arrivalAt100 1 "first", arrivalAt100 2 "second", arrivalAt100 3 "third"]

theorem service_rate_bound_three : grants "a" threeArrivals = [1, 2] ∧
    ((grants "a" threeArrivals).length : ℚ) ≤ twoTokens.capacity + twoTokens.refillTokensPerSecond * (100 - 100) +
      (grants "a" threeArrivals).length * admissionTolerance := by
  have hread : readings (threeArrivals.flatMap ServiceEvent.quota) = [100, 100, 100] ∧
      grants "a" threeArrivals = [1, 2] := by decide +kernel
  have hbound := @service_rate_bound twoTokenDeployment "a" twoTokens threeArrivals _
    (Machine.run_after _ _) (OrderedDict.get?_push_self ..) (by rw [hread.1]; decide)
  refine ⟨hread.2, hbound.1 [] threeArrivals [] 100 100 (by simp) le_rfl fun t ht => ?_⟩
  rw [hread.1] at ht
  have h100 : t = 100 := by simpa using ht
  rw [h100]
  exact ⟨le_rfl, le_rfl⟩

end Rate

end Lucent.Hosted
