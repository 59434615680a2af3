import Lucent.Hosted.SingleFlight
import Lucent.Hosted.Origin
import Lucent.VerifiedSource.Completeness

/-!
# Lucent.Hosted.Sourced — the handler, the source cache and the resolver as one machine

`Lucent.Hosted.machine` takes the answer of the cache as an input, `VerifiedSourceCache.machine` the end of a resolver
call.  Here a request that has passed sends a worker thread into `resolve`, the thread of a flight runs
`resolve_verified_source` against the network of the moment, and the request goes on with what its thread brings.

* `sourced`: the three as one machine; the thread of a request has its identifier.
* `sourced_refines`: a run of it is a run of the handler and a run of the cache, with the same answers.
* `verdict_sourced`: every result, fresh or replayed, was computed with the ABI recorded for the deployed bytecode.
-/

namespace Lucent.Hosted

open Lucent.Lib Lucent.Access Lucent.Payments Lucent.VerifiedSource

/-! ## The machine -/

/-- A deployment that asks for verified sources. -/
structure SourcedDeployment where
  env : Env
  cache : SourceCacheConfig ℚ
  required : env.settings.verifiedSourceRequired = true

/-- The step goes on with the answer of the cache. -/
def Action.isBuild : Action → Bool
  | .build _ => true
  | _ => false

/-- A step of the handler; of the worker thread of the request: it calls `resolve`, gets the lock back, runs the
resolver, records how that ended; or the request goes on with the answer it awaited. -/
inductive SourcedAction
  | go (action : { action : Action // action.isBuild = false })
  | enter
  | wake
  | fetch (net : Network)
  | record
  | bind

structure SourcedStep where
  id : ℕ
  now : ℚ
  action : SourcedAction

/-- The runtime, the cache with its threads, and what they have brought. -/
structure SourcedState where
  runtime : Runtime
  sources : SourceState ℚ
  answers : ℕ → Option ResolverAnswer

/-- The event of the handler or of the cache that a step is. -/
structure SourcedOutput where
  handled : Option Event
  turned : Option (Turn ℚ × TurnAnswer)

abbrev SourcedEvent := SourcedStep × SourcedOutput

/-- `transaction["chain_id"], transaction["to"]`. -/
def sourceCall (payload : Json) : Option (ℤ × String) :=
  match transactionMember payload "chain_id", transactionMember payload "to" with
  | some (.int chainId), some (.str target) => some (chainId, target)
  | _, _ => none

/-- How a call of `resolve_verified_source` ends. -/
def resolverOutcome (net : Network) (call : ℤ × String) : ResolverOutcome :=
  match resolveVerifiedSource net (.int call.1) (.str call.2) with
  | .ok (result, _) => .returned result
  | .error error => .failed error

/-- What `resolve` returns or raises, if it is over. -/
def TurnAnswer.answer? : TurnAnswer → Option ResolverAnswer
  | .returned result => some (.returned result)
  | .cachedFailure error | .capacity error | .failed error => some (.sourceError error)
  | .raised exception => some (.exception exception)
  | .calls | .waits | .ended | .refused => none

/-- The step of the handler. -/
def stepOf (s : SourcedState) (i : SourcedStep) : Option Step :=
  match i.action with
  | .go action => some ⟨i.id, i.now, action.1⟩
  | .bind => (s.answers i.id).map fun answer => ⟨i.id, i.now, .build answer⟩
  | _ => none

/-- The turn of the thread, where it is at it; a request calls `resolve` once. -/
def turnOf (s : SourcedState) (i : SourcedStep) : Option (Turn ℚ) :=
  match i.action, s.sources.threads i.id with
  | .enter, .outside => match s.runtime.phase i.id, s.answers i.id with
    | .ready task _ _, none => (sourceCall task.request.payload).map fun call => .enter i.id call i.now
    | _, _ => none
  | .wake, .waiting call _ => some (.wake i.id call i.now)
  | .fetch net, .resolving call => some (.resolverEnds i.id call (resolverOutcome net call))
  | .record, .resolved call outcome => some (.record i.id call outcome i.now)
  | _, _ => none

/-- A step of the handler. -/
def handle (d : SourcedDeployment) (s : SourcedState) (j : Step) : SourcedOutput × SourcedState :=
  let (emitted, runtime) := Hosted.step d.env s.runtime j
  (⟨some (j, emitted), none⟩, { s with runtime })

/-- A turn of a thread. -/
def takeTurn (d : SourcedDeployment) (s : SourcedState) (turn : Turn ℚ) : SourcedOutput × SourcedState :=
  let (answer, sources) := VerifiedSourceCache.step d.env.readFloat d.env.preflight.lower d.cache s.sources turn
  let answers := match answer.answer? with
    | none => s.answers
    | some brought => Function.update s.answers turn.thread (some brought)
  (⟨none, some (turn, answer)⟩, { s with sources, answers })

def SourcedState.step (d : SourcedDeployment) (s : SourcedState) (i : SourcedStep) : SourcedOutput × SourcedState :=
  match stepOf s i, turnOf s i with
  | some j, _ => handle d s j
  | none, some turn => takeTurn d s turn
  | none, none => (⟨none, none⟩, s)

/-- The handler over its source cache and the resolver. -/
def sourced (d : SourcedDeployment) : Machine SourcedState SourcedStep SourcedOutput :=
  ⟨⟨Runtime.new, VerifiedSourceCache.new, fun _ => none⟩, SourcedState.step d⟩

/-- The cache of a deployment. -/
def SourcedDeployment.sources (d : SourcedDeployment) : Machine (SourceState ℚ) (Turn ℚ) TurnAnswer :=
  VerifiedSourceCache.machine d.env.readFloat d.env.preflight.lower d.cache

/-- The events of the handler. -/
def handled (evs : List SourcedEvent) : List Event := evs.filterMap fun e => e.2.handled

/-- The turns of the threads. -/
def turned (evs : List SourcedEvent) : List (Turn ℚ × TurnAnswer) := evs.filterMap fun e => e.2.turned

/-! ## Refinement -/

section Refinement

variable {d : SourcedDeployment} {s : SourcedState} {i : SourcedStep}

/-- What a step is: one of the handler, a turn of a thread, or nothing. -/
inductive SourcedCase (d : SourcedDeployment) (s : SourcedState) (i : SourcedStep) :
    SourcedOutput × SourcedState → Prop
  | handled (j : Step) (h : stepOf s i = some j) : SourcedCase d s i (handle d s j)
  | turned (turn : Turn ℚ) (h : turnOf s i = some turn) : SourcedCase d s i (takeTurn d s turn)
  | idle : SourcedCase d s i (⟨none, none⟩, s)

theorem sourced_case (d : SourcedDeployment) (s : SourcedState) (i : SourcedStep) :
    SourcedCase d s i (SourcedState.step d s i) := by
  unfold SourcedState.step
  split
  · exact .handled _ ‹_›
  · exact .turned _ ‹_›
  · exact .idle

/-- **Refinement.**  A run is a run of the handler with the answers of the cache, and a run of the cache with the
ends of the resolver calls. -/
theorem sourced_refines {evs : List SourcedEvent} (h : (sourced d).Run evs s) :
    (machine d.env).Run (handled evs) s.runtime ∧ d.sources.Run (turned evs) s.sources := by
  constructor
  · have hrun := @Machine.Steps.project _ _ _ (sourced d) _ _ _ (machine d.env) SourcedState.runtime
      (fun e => e.2.handled.toList) (fun s i => by
        have hcase := sourced_case d s i
        show (machine d.env).Steps s.runtime (SourcedState.step d s i).1.handled.toList
          (SourcedState.step d s i).2.runtime
        generalize SourcedState.step d s i = r at hcase ⊢
        cases hcase with
        | handled j => exact Machine.steps_singleton_iff.mpr rfl
        | turned turn => exact .nil _
        | idle => exact .nil _) _ _ _ h
    rwa [← List.filterMap_eq_flatMap_toList] at hrun
  · have hrun := @Machine.Steps.project _ _ _ (sourced d) _ _ _ d.sources SourcedState.sources
      (fun e => e.2.turned.toList) (fun s i => by
        have hcase := sourced_case d s i
        show d.sources.Steps s.sources (SourcedState.step d s i).1.turned.toList (SourcedState.step d s i).2.sources
        generalize SourcedState.step d s i = r at hcase ⊢
        cases hcase with
        | handled j => exact .nil _
        | turned turn => exact Machine.steps_singleton_iff.mpr rfl
        | idle => exact .nil _) _ _ _ h
    rwa [← List.filterMap_eq_flatMap_toList] at hrun

/-- The turn of a thread, by its step. -/
inductive TurnCase (s : SourcedState) (i : SourcedStep) : Turn ℚ → Prop
  | enter (task : Task) (baseline : Preflight.PreflightResult) (paid : Option Paid) (call : ℤ × String)
      (haction : i.action = .enter) (hphase : s.runtime.phase i.id = .ready task baseline paid)
      (hcall : sourceCall task.request.payload = some call) : TurnCase s i (.enter i.id call i.now)
  | wake (call : ℤ × String) (notified : Bool) (haction : i.action = .wake)
      (hthread : s.sources.threads i.id = .waiting call notified) : TurnCase s i (.wake i.id call i.now)
  | fetch (net : Network) (call : ℤ × String) (haction : i.action = .fetch net)
      (hthread : s.sources.threads i.id = .resolving call) :
      TurnCase s i (.resolverEnds i.id call (resolverOutcome net call))
  | record (call : ℤ × String) (outcome : ResolverOutcome) (haction : i.action = .record)
      (hthread : s.sources.threads i.id = .resolved call outcome) : TurnCase s i (.record i.id call outcome i.now)

theorem turnOf_case {turn : Turn ℚ} (h : turnOf s i = some turn) : TurnCase s i turn := by
  unfold turnOf at h
  split at h
  · next haction hthread =>
    split at h
    · next task baseline paid hphase _ =>
      obtain ⟨call, hcall, rfl⟩ := Option.map_eq_some_iff.mp h
      exact .enter task baseline paid call haction hphase hcall
    · cases h
  · next call notified haction hthread =>
    cases h
    exact .wake call notified haction hthread
  · next net call haction hthread =>
    cases h
    exact .fetch net call haction hthread
  · next call outcome haction hthread =>
    cases h
    exact .record call outcome haction hthread
  · cases h

theorem resolverOutcome_returned {net : Network} {chainId : ℤ} {address : String} {result : VerifiedSourceResult}
    {exchanges : List Exchange}
    (h : resolveVerifiedSource net (.int chainId) (.str address) = .ok (result, exchanges)) :
    resolverOutcome net (chainId, address) = .returned result := by
  unfold resolverOutcome
  rw [h]

/-- The end of a resolver call. -/
theorem step_fetch {id : ℕ} {call : ℤ × String} (hthread : s.sources.threads id = .resolving call) {now : ℚ}
    {net : Network} : (sourced d).step s ⟨id, now, .fetch net⟩ =
      takeTurn d s (.resolverEnds id call (resolverOutcome net call)) := by
  have hturn : turnOf s ⟨id, now, .fetch net⟩ = some (.resolverEnds id call (resolverOutcome net call)) := by
    unfold turnOf
    dsimp only
    rw [hthread]
  show SourcedState.step d s ⟨id, now, .fetch net⟩ = _
  unfold SourcedState.step
  rw [hturn]
  rfl

/-- A turn of a run. -/
theorem run_turn {pre post : List SourcedEvent} {e : SourcedEvent} (h : (sourced d).Run (pre ++ e :: post) s)
    {turn : Turn ℚ} {a : TurnAnswer} (he : e.2.turned = some (turn, a)) : ∃ s₁, (sourced d).Run pre s₁ ∧
      TurnCase s₁ e.1 turn ∧
      (VerifiedSourceCache.step d.env.readFloat d.env.preflight.lower d.cache s₁.sources turn).1 = a := by
  obtain ⟨s₁, s₂, hpre, hstep, -, -⟩ := h.split
  have hcase := sourced_case d s₁ e.1
  have hout : (SourcedState.step d s₁ e.1).1.turned = some (turn, a) := by
    rw [show SourcedState.step d s₁ e.1 = (e.2, s₂) from hstep]
    exact he
  generalize SourcedState.step d s₁ e.1 = r at hcase hout
  cases hcase with
  | handled j => cases hout
  | turned turn' hturn =>
    obtain ⟨rfl, rfl⟩ := Prod.mk.inj (Option.some.inj hout)
    exact ⟨s₁, hpre, turnOf_case hturn, rfl⟩
  | idle => cases hout

/-- A step of the handler in a run. -/
theorem run_handled {pre post : List SourcedEvent} {e : SourcedEvent} (h : (sourced d).Run (pre ++ e :: post) s)
    {j : Event} (he : e.2.handled = some j) : ∃ s₁, (sourced d).Run pre s₁ ∧ stepOf s₁ e.1 = some j.1 := by
  obtain ⟨s₁, s₂, hpre, hstep, -, -⟩ := h.split
  have hcase := sourced_case d s₁ e.1
  have hout : (SourcedState.step d s₁ e.1).1.handled = some j := by
    rw [show SourcedState.step d s₁ e.1 = (e.2, s₂) from hstep]
    exact he
  generalize SourcedState.step d s₁ e.1 = r at hcase hout
  cases hcase with
  | handled j' hj =>
    obtain rfl := Option.some.inj hout
    exact ⟨s₁, hpre, hj⟩
  | turned turn => cases hout
  | idle => cases hout

theorem handled_append_cons {e : SourcedEvent} {j : Event} (pre post : List SourcedEvent) (he : e.2.handled = some j) :
    handled (pre ++ e :: post) = handled pre ++ j :: handled post := by
  simp [handled, he]

/-- A place in the turns of a run is a place in the run. -/
theorem turned_split {evs : List SourcedEvent} {pre post : List (Turn ℚ × TurnAnswer)} {t : Turn ℚ × TurnAnswer}
    (h : turned evs = pre ++ t :: post) :
    ∃ l e r, evs = l ++ e :: r ∧ turned l = pre ∧ e.2.turned = some t := by
  obtain ⟨l, rest, rfl, rfl, hrest⟩ := List.filterMap_eq_append_iff.mp h
  obtain ⟨quiet, e, r, rfl, hquiet, he, -⟩ := List.filterMap_eq_cons_iff.mp hrest
  refine ⟨l ++ quiet, e, r, by simp, ?_, he⟩
  rw [turned, List.filterMap_append, List.filterMap_eq_nil_iff.mpr hquiet, List.append_nil]

end Refinement

/-! ## What a request awaits -/

/-- The call a thread is in. -/
def SourceThread.call? : SourceThread → Option (ℤ × String)
  | .outside => none
  | .waiting call _ | .resolving call | .resolved call _ => some call

def Turn.call {τ : Type} : Turn τ → ℤ × String
  | .enter _ call _ | .wake _ call _ | .resolverEnds _ call _ | .record _ call _ _ => call

theorem call?_update {threads : ℕ → SourceThread} {thread t : ℕ} {phase : SourceThread} {call : ℤ × String}
    (h : (Function.update threads thread phase t).call? = some call) :
    (thread = t ∧ phase.call? = some call) ∨ (threads t).call? = some call := by
  by_cases ht : t = thread
  · rw [ht, Function.update_self] at h
    exact .inl ⟨ht.symm, h⟩
  · rw [Function.update_of_ne ht] at h
    exact .inr h

theorem call?_notifyAll (threads : ℕ → SourceThread) (t : ℕ) :
    (VerifiedSourceCache.notifyAll threads t).call? = (threads t).call? := by
  unfold VerifiedSourceCache.notifyAll
  cases threads t <;> rfl

/-- A thread comes by its call with a turn of its own. -/
theorem step_call? {readFloat : List Char → PyFloat} {lower : String → String} {cfg : SourceCacheConfig ℚ}
    {s : SourceState ℚ} {turn : Turn ℚ} {t : ℕ} {call : ℤ × String}
    (h : ((VerifiedSourceCache.step readFloat lower cfg s turn).2.threads t).call? = some call) :
    (s.threads t).call? = some call ∨ (turn.thread = t ∧ turn.call = call) := by
  obtain heq | ⟨thread, other, now, hturn, -, heq⟩ | ⟨thread, other, outcome, rfl, -, heq⟩ |
    ⟨thread, other, outcome, now, rfl, -, heq⟩ := VerifiedSourceCache.step_cases readFloat lower cfg s turn
  all_goals rw [heq] at h
  · exact .inl h
  · have hown : turn.thread = thread ∧ turn.call = other := by
      rcases hturn with rfl | rfl <;> exact ⟨rfl, rfl⟩
    rw [hown.1, hown.2]
    have hmoved : ∀ {phase : SourceThread}, (∀ x, phase.call? = some x → x = other) →
        (Function.update s.threads thread phase t).call? = some call →
        (s.threads t).call? = some call ∨ (thread = t ∧ other = call) := by
      intro phase hphase hupdate
      obtain ⟨ht, hcall⟩ | hold := call?_update hupdate
      · exact .inr ⟨ht, (hphase _ hcall).symm⟩
      · exact .inl hold
    obtain ⟨entry, -, heq⟩ | ⟨failure, -, heq⟩ | ⟨-, heq⟩ | heq | ⟨-, -, -, -, heq⟩ :=
      VerifiedSourceCache.attempt_cases lower cfg thread other now s
    all_goals
      rw [heq] at h
      refine hmoved ?_ h
      rintro x ⟨⟩
    · rfl
    · rfl
  · obtain ⟨ht, hcall⟩ | hold := call?_update h
    · exact .inr ⟨ht, Option.some.inj hcall⟩
    · exact .inl hold
  · have hleft : ∀ {threads : ℕ → SourceThread}, (∀ t, (threads t).call? = (s.threads t).call?) →
        (Function.update threads thread .outside t).call? = some call → (s.threads t).call? = some call := by
      intro threads hsame hupdate
      obtain ⟨-, hcall⟩ | hold := call?_update hupdate
      · cases hcall
      · exact (hsame t).symm.trans hold
    obtain ⟨answer, c, -, heq⟩ | ⟨result, -, -, heq⟩ :=
      VerifiedSourceCache.record_cases readFloat lower cfg thread other outcome now s
    all_goals rw [heq] at h
    · exact .inl (hleft (call?_notifyAll s.threads) h)
    · exact .inl (hleft (fun _ => rfl) h)

/-- Request `id` is about this deployment. -/
def Asked (evs : List SourcedEvent) (id : ℕ) (call : ℤ × String) : Prop :=
  ∃ request, requestOf (handled evs) id = some request ∧ sourceCall request.payload = some call

/-- The thread of request `id` came back with the answer from a `resolve` of the deployment that the request is
about. -/
def Brought (evs : List SourcedEvent) (id : ℕ) (answer : ResolverAnswer) : Prop :=
  ∃ pre e post turn a, evs = pre ++ e :: post ∧ e.2.turned = some (turn, a) ∧ e.1.id = id ∧
    Asked pre id turn.call ∧ a.answer? = some answer

section Awaiting

variable {d : SourcedDeployment} {s : SourcedState} {evs : List SourcedEvent} {id : ℕ} {call : ℤ × String}
  {answer : ResolverAnswer}

theorem Asked.append (h : Asked evs id call) (more : List SourcedEvent) : Asked (evs ++ more) id call := by
  obtain ⟨request, hrequest, hcall⟩ := h
  refine ⟨request, ?_, hcall⟩
  rw [handled, List.filterMap_append]
  exact requestOf_append hrequest _

theorem Brought.append (h : Brought evs id answer) (more : List SourcedEvent) : Brought (evs ++ more) id answer := by
  obtain ⟨pre, e, post, turn, a, rfl, he⟩ := h
  exact ⟨pre, e, post ++ more, turn, a, by simp, he⟩

theorem Brought.asked (h : Brought evs id answer) : ∃ call, Asked evs id call := by
  obtain ⟨pre, e, post, turn, a, rfl, -, -, hasked, -⟩ := h
  exact ⟨turn.call, hasked.append _⟩

/-- A thread takes its turns for the deployment that its request is about. -/
theorem TurnCase.asked (h : (sourced d).Run evs s)
    (hasked : ∀ id call, (s.sources.threads id).call? = some call → Asked evs id call) {i : SourcedStep} {turn : Turn ℚ}
    (hcase : TurnCase s i turn) : turn.thread = i.id ∧ Asked evs i.id turn.call := by
  cases hcase with
  | enter task baseline paid call haction hphase hcall =>
    have hbacked := run_backed (sourced_refines h).1 i.id
    rw [hphase] at hbacked
    exact ⟨rfl, task.request, hbacked.1.request, hcall⟩
  | wake call notified haction hthread => exact ⟨rfl, hasked _ _ (by rw [hthread]; rfl)⟩
  | fetch net call haction hthread => exact ⟨rfl, hasked _ _ (by rw [hthread]; rfl)⟩
  | record call outcome haction hthread => exact ⟨rfl, hasked _ _ (by rw [hthread]; rfl)⟩

/-- An answer was there, or the turn brings it. -/
theorem takeTurn_answers {turn : Turn ℚ} (h : (takeTurn d s turn).2.answers id = some answer) :
    s.answers id = some answer ∨ (id = turn.thread ∧ ∃ a, (takeTurn d s turn).1.turned = some (turn, a) ∧
      a.answer? = some answer) := by
  unfold takeTurn at h ⊢
  obtain ⟨a, sources, hstep⟩ : ∃ a sources,
      VerifiedSourceCache.step d.env.readFloat d.env.preflight.lower d.cache s.sources turn = (a, sources) :=
    ⟨_, _, rfl⟩
  rw [hstep] at h ⊢
  dsimp only at h ⊢
  cases hover : a.answer? with
  | none =>
    rw [hover] at h
    exact .inl h
  | some brought =>
    have hupdate : Function.update s.answers turn.thread (some brought) id = some answer := by
      rw [hover] at h
      exact h
    by_cases hid : id = turn.thread
    · rw [hid, Function.update_self] at hupdate
      exact .inr ⟨hid, a, rfl, hover.trans hupdate⟩
    · rw [Function.update_of_ne hid] at hupdate
      exact .inl hupdate

/-- **Run lemma**: every thread is in the call of its request, and every answer was brought. -/
theorem run_brought (h : (sourced d).Run evs s) :
    (∀ id call, (s.sources.threads id).call? = some call → Asked evs id call) ∧
      ∀ id answer, s.answers id = some answer → Brought evs id answer := by
  refine Machine.Run.invariant (I := fun evs s =>
    (∀ id call, (s.sources.threads id).call? = some call → Asked evs id call) ∧
      ∀ id answer, s.answers id = some answer → Brought evs id answer) ⟨?_, ?_⟩ ?_ h
  · rintro id call ⟨⟩
  · rintro id answer ⟨⟩
  rintro evs s i hrun ⟨hasked, hbrought⟩
  have hcase := sourced_case d s i
  show (∀ id call, ((SourcedState.step d s i).2.sources.threads id).call? = some call →
      Asked (evs ++ [(i, (SourcedState.step d s i).1)]) id call) ∧
    ∀ id answer, (SourcedState.step d s i).2.answers id = some answer →
      Brought (evs ++ [(i, (SourcedState.step d s i).1)]) id answer
  generalize SourcedState.step d s i = r at hcase ⊢
  cases hcase with
  | handled j => exact ⟨fun id call hcall => (hasked id call hcall).append _, fun id answer hanswer =>
      (hbrought id answer hanswer).append _⟩
  | idle => exact ⟨fun id call hcall => (hasked id call hcall).append _, fun id answer hanswer =>
      (hbrought id answer hanswer).append _⟩
  | turned turn hturn =>
    obtain ⟨hthread, hturnAsked⟩ := TurnCase.asked hrun hasked (turnOf_case hturn)
    refine ⟨fun id call hcall => ?_, fun id answer hanswer => ?_⟩
    · obtain hold | ⟨rfl, rfl⟩ := step_call? hcall
      · exact (hasked id call hold).append _
      · rw [hthread]
        exact hturnAsked.append _
    · obtain hold | ⟨rfl, a, hturned, hover⟩ := takeTurn_answers hanswer
      · exact (hbrought id answer hold).append _
      · rw [hthread]
        exact ⟨evs, _, [], turn, a, rfl, hturned, rfl, hturnAsked, hover⟩

/-- A response that is built is built of what the thread of the request brought. -/
theorem built_brought (h : (sourced d).Run evs s) {task : Task} {baseline : Preflight.PreflightResult} {body : Bytes}
    (hbuilt : Built d.env (handled evs) id task baseline body) :
    ∃ answer, Brought evs id answer ∧ buildBody d.env task baseline answer = .ok body := by
  obtain ⟨j, hj, hid, answer, haction, hbody⟩ := hbuilt
  obtain ⟨e, he, hhandled⟩ := List.mem_filterMap.mp hj
  obtain ⟨pre, post, rfl⟩ := List.append_of_mem he
  obtain ⟨s₁, hpre, hstep⟩ := run_handled h hhandled
  refine ⟨answer, ?_, hbody⟩
  unfold stepOf at hstep
  split at hstep
  · next action _ =>
    rw [← Option.some.inj hstep] at haction
    have hnot := action.2
    rw [show action.1 = .build answer from haction] at hnot
    cases hnot
  · obtain ⟨brought, hanswer, heq⟩ := Option.map_eq_some_iff.mp hstep
    rw [← heq] at haction hid
    cases haction
    exact hid ▸ ((run_brought hpre).2 _ _ hanswer).append _
  · cases hstep

end Awaiting

/-! ## Where the source of a result comes from -/

/-- The event is a resolver call for the deployment that returned the source: a resolution of every world that its
network serves. -/
def Fetches (e : SourcedEvent) (call : ℤ × String) (source : VerifiedSourceResult) : Prop :=
  ∃ net exchanges, e.1.action = .fetch net ∧
    resolveVerifiedSource net (.int call.1) (.str call.2) = .ok (source, exchanges) ∧
    ∀ world, Serves net world → ∃ code, Resolution net world (.int call.1) (.str call.2) source code

/-- How request `id` came by the source: its own thread fetched and recorded it; or some thread had done so for the same
key, and the request looked it up less than `ttl_seconds` after that. -/
inductive Obtains (d : SourcedDeployment) (evs : List SourcedEvent) (id : ℕ) (call : ℤ × String)
    (source : VerifiedSourceResult) : Prop
  | flown (pre mid post : List SourcedEvent) (f e : SourcedEvent) (h : evs = pre ++ f :: mid ++ e :: post)
      (hfetch : Fetches f call source) (hf : f.1.id = id) (he : e.1.id = id) (hrecord : e.1.action = .record)
  | shared (pre mid mid' post : List SourcedEvent) (f r e : SourcedEvent) (other : ℤ × String)
      (h : evs = pre ++ f :: mid ++ r :: mid' ++ e :: post) (hfetch : Fetches f other source)
      (hkey : VerifiedSourceCache.keyOf d.env.preflight.lower other =
        VerifiedSourceCache.keyOf d.env.preflight.lower call)
      (hr : r.1.id = f.1.id) (hrecord : r.1.action = .record) (he : e.1.id = id)
      (hfresh : e.1.now < r.1.now + d.cache.ttlSeconds)

/-- The body is the response to the request, computed with the ABI of a source of its deployment, which is no proxy. -/
structure SourcedBody (d : SourcedDeployment) (request : HttpRequest) (call : ℤ × String)
    (source : VerifiedSourceResult) (body : Bytes) : Prop where
  chain : source.chainId = call.1
  address : d.env.preflight.lower source.address = d.env.preflight.lower call.2
  direct : source.proxyChain = [] ∧ source.effectiveContract = source.target
  computed : ∃ abi payload result, source.abi d.env.readFloat = some abi ∧
    setPath abi ["descriptor", "context", "contract", "abi"] request.payload = some payload ∧
    Preflight.preflightTransaction d.env.preflight payload = .ok result ∧
    d.env.responseBody result (some source) request.requestId = some body

section Sources

variable {d : SourcedDeployment} {s : SourcedState} {evs : List SourcedEvent} {id : ℕ} {call : ℤ × String}
  {source : VerifiedSourceResult}

theorem answer?_returned {a : TurnAnswer} (h : a.answer? = some (.returned source)) : a = .returned source := by
  cases a with
  | returned result =>
    cases h
    rfl
  | _ => cases h

/-- A resolver call of a run that ended with a source. -/
theorem ended_fetches (h : (sourced d).Run evs s) {pre post : List (Turn ℚ × TurnAnswer)} {thread : ℕ}
    (hsplit : turned evs = pre ++ (.resolverEnds thread call (.returned source), .ended) :: post) :
    ∃ l f r, evs = l ++ f :: r ∧ f.1.id = thread ∧ Fetches f call source := by
  obtain ⟨l, f, r, rfl, -, hf⟩ := turned_split hsplit
  obtain ⟨s₁, -, hcase, -⟩ := run_turn h hf
  generalize hturn : Turn.resolverEnds thread call (.returned source) = turn at hcase
  cases hcase with
  | fetch net call' haction hthread =>
    injection hturn with hthread' hcall houtcome
    subst hcall
    refine ⟨l, f, r, rfl, hthread'.symm, ?_⟩
    unfold resolverOutcome at houtcome
    split at houtcome
    · next result exchanges hresolve =>
      cases houtcome
      exact ⟨net, exchanges, haction, hresolve, fun world hserves => resolution_of_eq_ok hserves hresolve⟩
    · cases houtcome
  | _ => cases hturn

/-- The end of a resolver call that a run recorded. -/
theorem record_turn (h : (sourced d).Run evs s) {pre post : List (Turn ℚ × TurnAnswer)} {thread : ℕ}
    {outcome : ResolverOutcome} {now : ℚ} {a : TurnAnswer}
    (hsplit : turned evs = pre ++ (.record thread call outcome now, a) :: post) :
    ∃ l e r, evs = l ++ e :: r ∧ turned l = pre ∧ e.1.id = thread ∧ e.1.now = now ∧ e.1.action = .record := by
  obtain ⟨l, e, r, rfl, hl, he⟩ := turned_split hsplit
  obtain ⟨s₁, -, hcase, -⟩ := run_turn h he
  generalize hturn : Turn.record thread call outcome now = turn at hcase
  cases hcase with
  | record call' outcome' haction hthread =>
    injection hturn with hthread' _ _ hnow
    exact ⟨l, e, r, rfl, hl, hthread'.symm, hnow.symm, haction⟩
  | _ => cases hturn

/-- **Provenance**: a source that the thread of a request brought was fetched for the deployment of the request, by
itself or, less than `ttl_seconds` before the request asked, by another thread. -/
theorem brought_obtains (h : (sourced d).Run evs s) (hbrought : Brought evs id (.returned source)) :
    ∃ call, Asked evs id call ∧ Obtains d evs id call source := by
  obtain ⟨pre, e, post, turn, a, rfl, he, rfl, hasked, hanswer⟩ := hbrought
  obtain rfl := answer?_returned hanswer
  refine ⟨turn.call, hasked.append _, ?_⟩
  obtain ⟨s₁, hpre, hcase, hstep⟩ := run_turn h he
  have hhistory := (VerifiedSourceCache.run_history (sourced_refines hpre).2).2
  have hjustified := @VerifiedSourceCache.step_justified _ _ _ _ d.env.readFloat d.env.preflight.lower d.cache _ _
    hhistory turn
  rw [hstep] at hjustified
  obtain ⟨thread, call, now, rfl, l', r', hended, -⟩ | ⟨thread, call, now, stored, hturn, hrecorded, hfresh⟩ :=
    hjustified
  · obtain ⟨l, f, r, rfl, hf, hfetch⟩ := ended_fetches hpre hended
    generalize hturn : Turn.record thread call (.returned source) now = turn at hcase
    cases hcase with
    | record call' outcome haction hthread =>
      injection hturn with hthread' hcall _ _
      subst hcall
      exact .flown l r post f e (by simp) hfetch (hf.trans hthread') rfl haction
    | _ => cases hturn
  · obtain ⟨pre', thread', other, a', post', hsplit, -, hkey, q, q', hended, -⟩ := hrecorded
    obtain ⟨l, r, mid', rfl, hl, hr, hnow, hrecord⟩ := record_turn hpre hsplit
    obtain ⟨s₂, s₃, hbefore, -, -, -⟩ := hpre.split
    rw [← hl] at hended
    obtain ⟨l₁, f, mid, rfl, hf, hfetch⟩ := ended_fetches hbefore hended
    have hcall : turn.call = call ∧ e.1.now = now := by
      rcases hturn with rfl | rfl
      · generalize hturn : Turn.enter thread call now = turn at hcase
        cases hcase with
        | enter =>
          injection hturn with _ hcall hnow
          exact ⟨hcall.symm, hnow.symm⟩
        | _ => cases hturn
      · generalize hturn : Turn.wake thread call now = turn at hcase
        cases hcase with
        | wake =>
          injection hturn with _ hcall hnow
          exact ⟨hcall.symm, hnow.symm⟩
        | _ => cases hturn
    rw [hcall.1]
    exact .shared l₁ mid mid' post f r e other (by simp) hfetch hkey (hr.trans hf.symm) hrecord rfl
      (by rw [hcall.2, hnow]; exact hfresh)

theorem sourceCall_eq_some {payload : Json} (h : sourceCall payload = some call) :
    transactionMember payload "chain_id" = some (.int call.1) ∧
      transactionMember payload "to" = some (.str call.2) := by
  unfold sourceCall at h
  split at h
  · next chainId target hchain hto =>
    obtain rfl := Option.some.inj h
    exact ⟨hchain, hto⟩
  · cases h

/-- A response is built of a source only, and with its ABI. -/
theorem buildBody_sourced {task : Task} {baseline : Preflight.PreflightResult} {answer : ResolverAnswer} {body : Bytes}
    (hcall : sourceCall task.request.payload = some call) (h : buildBody d.env task baseline answer = .ok body) :
    ∃ source, answer = .returned source ∧ SourcedBody d task.request call source body := by
  obtain ⟨⟨result, used⟩, hbind, h⟩ := bind_eq_ok.mp h
  obtain ⟨built, hbuilt, h⟩ := bind_eq_ok.mp h
  obtain ⟨-, h⟩ := rejectIf_bind_eq_ok.mp h
  obtain rfl := pure_eq_ok.mp h
  unfold bindVerifiedSource at hbind
  rw [d.required, Bool.not_true, if_neg Bool.false_ne_true] at hbind
  cases answer with
  | sourceError e => cases hbind
  | exception exception => cases hbind
  | returned source =>
    obtain ⟨hsame, hbind⟩ := rejectIf_bind_eq_ok.mp hbind
    obtain ⟨hproxy, hbind⟩ := rejectIf_bind_eq_ok.mp hbind
    obtain ⟨abi, habi, hbind⟩ := bind_eq_ok.mp hbind
    obtain ⟨payload, hpayload, hbind⟩ := bind_eq_ok.mp hbind
    obtain ⟨result', hresult, hbind⟩ := bind_eq_ok.mp hbind
    obtain ⟨rfl, rfl⟩ := Prod.mk.inj (pure_eq_ok.mp hbind)
    have hnil : source.proxyChain = [] := by simpa using hproxy
    obtain ⟨hchain, hto⟩ := sourceCall_eq_some hcall
    have hdeployment : sameDeployment d.env task.request.payload source = true := by simpa using hsame
    unfold sameDeployment at hdeployment
    rw [hchain, hto, hnil] at hdeployment
    simp only [Bool.and_eq_true, decide_eq_true_eq, beq_iff_eq, List.isEmpty_nil, Bool.true_and, Bool.not_eq_true',
      decide_eq_false_iff_not, not_not] at hdeployment
    exact ⟨source, rfl, {
      chain := hdeployment.1.1
      address := hdeployment.1.2
      direct := ⟨hnil, hdeployment.2⟩
      computed := ⟨abi, payload, result', elim_ok_eq_ok.mp habi, elim_ok_eq_ok.mp hpayload, mapError_eq_ok.mp hresult,
        elim_ok_eq_ok.mp hbuilt⟩ }⟩

/-- What stands behind a result for a request: a response that a request with the same canonical request has built
with the ABI of a source of its deployment, itself or under the new identifier. -/
def Sourced (d : SourcedDeployment) (evs : List SourcedEvent) (id : ℕ) (request : HttpRequest) (body : Bytes) : Prop :=
  ∃ j first call source response, requestOf (handled evs) j = some first ∧
    canonicalRequest first.payload = canonicalRequest request.payload ∧ sourceCall first.payload = some call ∧
    Obtains d evs j call source ∧ SourcedBody d first call source response ∧
    ((j = id ∧ first = request ∧ body = response) ∨
      replayBody d.env.readFloat request.requestId response = some body)

/-- **Sourced verdicts.**  Over any interleaving of requests, worker threads and resolver calls, every result, fresh or
replayed, was computed with the ABI of a resolution: one of the deployment that the request names, which is no proxy,
fetched by the thread of the request that computed it, or recorded less than `ttl_seconds` before that one asked. -/
theorem verdict_sourced (h : (sourced d).Run evs s) (hfresh : Machine.Respects FreshToken (handled evs))
    (hd : Declining (handled evs)) (hsha : Collisionless d.env (handled evs)) :
    ∀ pre e post, evs = pre ++ e :: post → ∀ i o request response, e.2.handled = some (i, o) →
      requestOf (handled (pre ++ [e])) i.id = some request → .respond response ∈ o → response.statusCode = 200 →
        Sourced d pre i.id request response.body := by
  rintro pre e post rfl i o request response he hrequest hr hstatus
  have hcut := handled_append_cons pre post he
  have hlast := handled_append_cons pre [] he
  have hrun := (sourced_refines h).1
  rw [hcut] at hrun hfresh hd hsha
  rw [hlast] at hrequest
  obtain ⟨j, task, built, horigin⟩ := result_origin hrun hfresh hd hsha hrequest hr hstatus
  obtain ⟨s₁, s₂, hpre, -, -, -⟩ := h.split
  obtain ⟨baseline, hbuilt⟩ := horigin.built
  obtain ⟨answer, hbrought, hbody⟩ := built_brought hpre hbuilt
  obtain ⟨call, hasked⟩ := hbrought.asked
  obtain ⟨first, hfirst, hcall⟩ := hasked
  obtain rfl : task.request = first := Option.some.inj (horigin.admitted.request.symm.trans hfirst)
  obtain ⟨source, rfl, hsourced⟩ := buildBody_sourced hcall hbody
  obtain ⟨call', ⟨first', hfirst', hcall'⟩, hobtains⟩ := brought_obtains hpre hbrought
  obtain rfl : task.request = first' := Option.some.inj (hfirst.symm.trans hfirst')
  obtain rfl : call = call' := Option.some.inj (hcall.symm.trans hcall')
  exact ⟨j, task.request, call, source, built, hfirst, horigin.canonical, hcall, hobtains, hsourced, horigin.body⟩

end Sources

/-! ### One request, one resolution -/

/-- An open service that asks for verified sources. -/
def openService : SourcedDeployment where
  env := { pauseService with
    settings := ⟨.open, true, [],
      { pausePayment with enabled := false, timeout_range := fun h => absurd h Bool.false_ne_true }, rfl,
      fun _ => rfl⟩ }
  cache := VerifiedSourceCache.demoCacheConfig
  required := rfl

/-- A request of `pause()` arrives, passes and asks for the source of its contract. -/
def askingSteps : List SourcedStep :=
  [⟨1, 0, .go ⟨.arrive ⟨pauseCall, "r", none, none, none⟩ "token" (.receipt 1 1 1), rfl⟩⟩,
    ⟨1, 0, .go ⟨.preflight, rfl⟩⟩, ⟨1, 0, .enter⟩]

/-- The thread fetches the source. -/
def fetchStep : SourcedStep := ⟨1, 1, .fetch servedNetwork⟩

/-- It records it, and the request goes on to its end. -/
def endingSteps : List SourcedStep := [⟨1, 2, .record⟩, ⟨1, 2, .bind⟩, ⟨1, 2, .go ⟨.finish, rfl⟩⟩]

/-- What the fetch does. -/
def fetched : SourcedOutput × SourcedState :=
  takeTurn openService ((sourced openService).after askingSteps)
    (.resolverEnds 1 (1, demoContract) (.returned directResolution))

/-- The events of the run. -/
def openEvents : List SourcedEvent :=
  (sourced openService).trace askingSteps ++ (fetchStep, fetched.1) ::
    (sourced openService).traceFrom fetched.2 endingSteps

/-- The response that ends a run. -/
def lastResult (evs : List SourcedEvent) : Option (Event × HttpRequest × HttpResponse) := do
  let e ← evs.getLast?
  let h ← e.2.handled
  let request ← requestOf (handled evs) h.1.id
  let response ← h.2.findSome? fun x => match x with
    | .respond response => if response.statusCode = 200 then some response else none
    | _ => none
  return (h, request, response)

theorem openEvents_asking :
    ((sourced openService).after askingSteps).sources.threads 1 = .resolving (1, demoContract) := by decide +kernel

theorem openEvents_result : (lastResult openEvents).isSome = true ∧
    ((handled openEvents).map Prod.fst).Pairwise Step.Precedes ∧ Declining (handled openEvents) ∧
    ((handled openEvents).filterMap fun e => arrivalOf e.1.id e).length = 1 := by decide +kernel

theorem fetchStep_fetched :
    (sourced openService).step ((sourced openService).after askingSteps) fetchStep = fetched := by
  obtain ⟨exchanges, hresolve⟩ := eq_ok_of_resolution servedNetwork_serves direct_resolution
  have hstep := @step_fetch openService _ 1 _ openEvents_asking 1 servedNetwork
  rwa [resolverOutcome_returned hresolve] at hstep

theorem openEvents_run : ∃ s, (sourced openService).Run openEvents s := by
  unfold openEvents
  exact ⟨_, @Machine.run_insert _ _ _ (sourced openService) askingSteps fetchStep fetched fetchStep_fetched endingSteps⟩

/-- One request arrives. -/
theorem collisionless_of_one {env : Env} {evs : List Event}
    (h : (evs.filterMap fun e => arrivalOf e.1.id e).length = 1) : Collisionless env evs := by
  obtain ⟨only, hone⟩ := List.length_eq_one_iff.mp h
  have hsame : ∀ {request}, Arrives evs request → request = only := by
    rintro request ⟨e, he, harrival⟩
    have hmem : request ∈ evs.filterMap fun e => arrivalOf e.1.id e := List.mem_filterMap.mpr ⟨e, he, harrival⟩
    rw [hone] at hmem
    exact List.mem_singleton.mp hmem
  constructor
  · rintro key ⟨request, harrives, hkey⟩ key' ⟨request', harrives', hkey'⟩ -
    rw [hsame harrives] at hkey
    rw [hsame harrives'] at hkey'
    exact Option.some.inj (hkey.symm.trans hkey')
  · rintro bytes ⟨request, harrives, hbytes⟩ bytes' ⟨request', harrives', hbytes'⟩ -
    rw [hsame harrives] at hbytes
    rw [hsame harrives'] at hbytes'
    exact Option.some.inj (hbytes.symm.trans hbytes')

/-- A run ends with this result for this request. -/
theorem lastResult_eq_some {evs : List SourcedEvent} {h : Event} {request : HttpRequest} {response : HttpResponse}
    (hlast : lastResult evs = some (h, request, response)) : ∃ pre e, evs = pre ++ [e] ∧ e.2.handled = some h ∧
      requestOf (handled evs) h.1.id = some request ∧ .respond response ∈ h.2 ∧ response.statusCode = 200 := by
  obtain ⟨e, he, hlast⟩ := Option.bind_eq_some_iff.mp hlast
  obtain ⟨h', hhandled, hlast⟩ := Option.bind_eq_some_iff.mp hlast
  obtain ⟨request', hrequest, hlast⟩ := Option.bind_eq_some_iff.mp hlast
  obtain ⟨response', hresponse, hlast⟩ := Option.bind_eq_some_iff.mp hlast
  cases hlast
  obtain ⟨x, hx, hstatus⟩ := List.exists_of_findSome?_eq_some hresponse
  refine ⟨_, e, (List.dropLast_append_getLast? e he).symm, hhandled, hrequest, ?_⟩
  split at hstatus
  · split_ifs at hstatus with h200
    cases hstatus
    exact ⟨hx, h200⟩
  · cases hstatus

/-- A request is answered with a result, and that result is sourced. -/
theorem verdict_sourced_pause : ∃ pre e h request response, openEvents = pre ++ [e] ∧ e.2.handled = some h ∧
    .respond response ∈ h.2 ∧ response.statusCode = 200 ∧
      Sourced openService pre h.1.id request response.body := by
  obtain ⟨hresult, hordered, hdeclining, harrivals⟩ := openEvents_result
  obtain ⟨⟨h, request, response⟩, hlast⟩ := Option.isSome_iff_exists.mp hresult
  obtain ⟨pre, e, hsplit, hhandled, hrequest, hrespond, hstatus⟩ := lastResult_eq_some hlast
  obtain ⟨s, hrun⟩ := openEvents_run
  refine ⟨pre, e, h, request, response, hsplit, hhandled, hrespond, hstatus, ?_⟩
  rw [hsplit] at hrequest
  exact verdict_sourced hrun (respects_freshToken (respects_orderly hordered)) hdeclining
    (collisionless_of_one harrivals) pre e [] hsplit h.1 h.2 request response hhandled hrequest hrespond hstatus

end Lucent.Hosted
