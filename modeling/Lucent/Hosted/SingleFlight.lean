import Mathlib.Tactic.NormNum
import Mathlib.Data.Rat.Cast.Defs
import Lucent.Hosted.CacheInvariant
import Lucent.Lib.SameJson

/-!
# Lucent.Hosted.SingleFlight — single flight, wake-ups and provenance of the source cache

* `Awake`: behind every key in flight there is a flight, and a thread that sleeps has its key in flight.
* `History`: what is cached, and what a flight brings, is what the resolver returned or raised for that key.
* `resolve_singleFlight`: both over every run.
-/

namespace Lucent.Hosted.VerifiedSourceCache

open Lucent.Lib Lucent.VerifiedSource

/-! ## The wake-ups -/

/-- Every result a resolver call ends with has a size. -/
def Sized (readFloat : List Char → PyFloat) : ResolverOutcome → Prop
  | .returned result => (result.cacheSizeBytes readFloat).isSome
  | _ => True

/-- Behind a key in flight there is a flight; a thread that waits and was not notified waits for one; the results on
their way into the cache have a size. -/
structure Awake {τ : Type} (readFloat : List Char → PyFloat) (lower : String → String) (s : SourceState τ) : Prop where
  flying : ∀ {key}, key ∈ s.cache.inflight → ∃ thread call, flight? (s.threads thread) = some call ∧ keyOf lower call = key
  waiting : ∀ {thread call}, s.threads thread = .waiting call false → keyOf lower call ∈ s.cache.inflight
  sized : ∀ {thread call outcome}, s.threads thread = .resolved call outcome → Sized readFloat outcome

variable {τ : Type} [LinearOrder τ] [Add τ] [NatCast τ]
variable {readFloat : List Char → PyFloat} {lower : String → String} {cfg : SourceCacheConfig τ} {s : SourceState τ}

theorem of_update {threads : ℕ → SourceThread} {thread t : ℕ} {phase x : SourceThread}
    (h : Function.update threads thread phase t = x) : (t = thread ∧ phase = x) ∨ (t ≠ thread ∧ threads t = x) := by
  by_cases ht : t = thread
  · rw [ht, Function.update_self] at h
    exact .inl ⟨ht, h⟩
  · rw [Function.update_of_ne ht] at h
    exact .inr ⟨ht, h⟩

theorem of_notifyAll {threads : ℕ → SourceThread} {t : ℕ} {x : SourceThread} (h : notifyAll threads t = x) :
    (∃ call, x = .waiting call true) ∨ threads t = x := by
  unfold notifyAll at h
  split at h
  · exact .inl ⟨_, h.symm⟩
  · exact .inr h

omit [Add τ] in
theorem attempt_awake (h : Awake readFloat lower s) {thread : ℕ} (hthread : flight? (s.threads thread) = none)
    (call : ℤ × String) (now : τ) : Awake readFloat lower (attempt lower cfg thread call now s).2 := by
  obtain ⟨hshrunk, -⟩ := expireLocked_spec now s.cache
  have hflying : ∀ {phase key}, key ∈ (expireLocked now s.cache).inflight → ∃ t other,
      flight? (Function.update s.threads thread phase t) = some other ∧ keyOf lower other = key := by
    intro phase key hkey
    obtain ⟨t, other, hf, heq⟩ := h.flying (hshrunk.inflight ▸ hkey)
    have hne : t ≠ thread := fun ht => by
      rw [ht, hthread] at hf
      exact nomatch hf
    exact ⟨t, other, by rw [Function.update_of_ne hne]; exact hf, heq⟩
  have hwaiting : ∀ {phase t other}, Function.update s.threads thread phase t = .waiting other false →
      phase = .waiting other false ∨ keyOf lower other ∈ (expireLocked now s.cache).inflight := by
    intro phase t other ht
    obtain ⟨-, hphase⟩ | ⟨-, ht⟩ := of_update ht
    · exact .inl hphase
    · exact .inr (hshrunk.inflight ▸ h.waiting ht)
  have hsized : ∀ {phase t other outcome}, Function.update s.threads thread phase t = .resolved other outcome →
      phase = .resolved other outcome ∨ Sized readFloat outcome := by
    intro phase t other outcome ht
    obtain ⟨-, hphase⟩ | ⟨-, ht⟩ := of_update ht
    · exact .inl hphase
    · exact .inr (h.sized ht)
  obtain ⟨entry, -, heq⟩ | ⟨failure, -, heq⟩ | ⟨hin, heq⟩ | heq | ⟨-, -, -, -, heq⟩ :=
    attempt_cases lower cfg thread call now s
  all_goals rw [heq]
  · exact ⟨hflying, fun ht => (hwaiting ht).resolve_left (by simp), fun ht => (hsized ht).resolve_left (by simp)⟩
  · exact ⟨hflying, fun ht => (hwaiting ht).resolve_left (by simp), fun ht => (hsized ht).resolve_left (by simp)⟩
  · refine ⟨hflying, fun {t other} ht => ?_, fun ht => (hsized ht).resolve_left (by simp)⟩
    rcases hwaiting ht with hphase | hwait
    · cases hphase
      exact hin
    · exact hwait
  · exact ⟨hflying, fun ht => (hwaiting ht).resolve_left (by simp), fun ht => (hsized ht).resolve_left (by simp)⟩
  · refine ⟨fun {key} hkey => ?_, fun ht => ?_, fun ht => (hsized ht).resolve_left (by simp)⟩
    · rcases Finset.mem_insert.mp hkey with rfl | hkey
      · exact ⟨thread, call, by simp [flight?], rfl⟩
      · exact hflying hkey
    · exact Finset.mem_insert_of_mem ((hwaiting ht).resolve_left (by simp))

/-- A landing takes its key out of flight and leaves nobody asleep. -/
theorem record_awake (hinv : CacheInvariant lower cfg s) (h : Awake readFloat lower s) {thread : ℕ}
    {call : ℤ × String} {outcome : ResolverOutcome} (hthread : s.threads thread = .resolved call outcome) (now : τ) :
    Awake readFloat lower (record readFloat lower cfg thread call outcome now s).2 := by
  have hflight : flight? (s.threads thread) = some call := by rw [hthread]; rfl
  obtain ⟨answer, c, hland, heq⟩ | ⟨result, rfl, hnone, -⟩ := record_cases readFloat lower cfg thread call outcome now s
  · rw [heq]
    obtain ⟨-, hin⟩ := hland.representation hinv.representation (hinv.inflight hflight)
    refine ⟨fun {key} hkey => ?_, fun {t other} ht => ?_, fun {t other outcome'} ht => ?_⟩
    · obtain ⟨hne, hkey⟩ := Finset.mem_erase.mp hkey
      obtain ⟨t, other, hf, hkeyOf⟩ := h.flying (hin ▸ hkey)
      have ht : t ≠ thread := by
        rintro rfl
        obtain rfl := Option.some.inj (hf.symm.trans hflight)
        exact hne hkeyOf.symm
      exact ⟨t, other, by simpa [land, flight?_update, ht] using hf, hkeyOf⟩
    · -- everybody who waited has been notified
      obtain ⟨-, hphase⟩ | ⟨-, ht⟩ := of_update ht
      · exact nomatch hphase
      unfold notifyAll at ht
      split at ht
      · exact nomatch ht
      · next hnot => exact absurd ht (hnot other false)
    · obtain ⟨-, hphase⟩ | ⟨-, ht⟩ := of_update ht
      · exact nomatch hphase
      obtain ⟨_, hwait⟩ | ht := of_notifyAll ht
      · exact nomatch hwait
      · exact h.sized ht
  · exact absurd (h.sized hthread) (by simp [Sized, hnone])

/-- One step keeps everybody awake, if the resolver call it ends, ends with a result that has a size. -/
theorem step_awake (hinv : CacheInvariant lower cfg s) (h : Awake readFloat lower s) {turn : Turn τ}
    (hsized : ∀ thread call outcome, turn = .resolverEnds thread call outcome → Sized readFloat outcome) :
    Awake readFloat lower (step readFloat lower cfg s turn).2 := by
  obtain heq | ⟨thread, call, now, -, hthread, heq⟩ | ⟨thread, call, outcome, hturn, hthread, heq⟩ |
    ⟨thread, call, outcome, now, -, hthread, heq⟩ := step_cases readFloat lower cfg s turn
  all_goals rw [heq]
  · exact h
  · exact attempt_awake h hthread call now
  · refine ⟨fun {key} hkey => ?_, fun {t other} ht => ?_, fun {t other outcome'} ht => ?_⟩
    · obtain ⟨t, other, hf, hkeyOf⟩ := h.flying hkey
      refine ⟨t, other, ?_, hkeyOf⟩
      rw [flight?_update]
      split
      · next heq =>
        rw [heq, hthread] at hf
        exact hf
      · exact hf
    · obtain ⟨-, hphase⟩ | ⟨-, ht⟩ := of_update ht
      · exact nomatch hphase
      · exact h.waiting ht
    · obtain ⟨-, hphase⟩ | ⟨-, ht⟩ := of_update ht
      · cases hphase
        exact hsized _ _ _ hturn
      · exact h.sized ht
  · exact record_awake hinv h hthread now

omit [LinearOrder τ] [Add τ] [NatCast τ] in
theorem new_awake (readFloat : List Char → PyFloat) (lower : String → String) :
    Awake readFloat lower (new : SourceState τ) :=
  ⟨fun hkey => absurd hkey (Finset.notMem_empty _), fun ht => (nomatch ht), fun ht => (nomatch ht)⟩

/-! ## Where a result comes from -/

/-- A resolver call of the thread ended so, and the thread has done nothing since. -/
def Ended (evs : List (Turn τ × TurnAnswer)) (thread : ℕ) (call : ℤ × String) (outcome : ResolverOutcome) : Prop :=
  ∃ pre mid, evs = pre ++ (.resolverEnds thread call outcome, .ended) :: mid ∧
    ∀ e ∈ mid, e.1.thread = thread → e.2 = .refused

/-- A flight of the key recorded that end, at a reading of the clock. -/
def Recorded (lower : String → String) (evs : List (Turn τ × TurnAnswer)) (key : SourceKey) (outcome : ResolverOutcome)
    (stored : τ) : Prop :=
  ∃ pre thread call answer post, evs = pre ++ (.record thread call outcome stored, answer) :: post ∧
    answer ≠ .refused ∧ keyOf lower call = key ∧ Ended pre thread call outcome

omit [LinearOrder τ] [Add τ] [NatCast τ] in
theorem Ended.concat {evs : List (Turn τ × TurnAnswer)} {thread : ℕ} {call : ℤ × String} {outcome : ResolverOutcome}
    (h : Ended evs thread call outcome) {e : Turn τ × TurnAnswer} (he : e.1.thread = thread → e.2 = .refused) :
    Ended (evs ++ [e]) thread call outcome := by
  obtain ⟨pre, mid, rfl, hmid⟩ := h
  refine ⟨pre, mid ++ [e], by simp, fun x hx => ?_⟩
  rcases List.mem_append.mp hx with hx | hx
  · exact hmid x hx
  · obtain rfl := List.mem_singleton.mp hx
    exact he

omit [LinearOrder τ] [Add τ] [NatCast τ] in
theorem Recorded.append {evs : List (Turn τ × TurnAnswer)} {key : SourceKey} {outcome : ResolverOutcome} {stored : τ}
    (h : Recorded lower evs key outcome stored) (more : List (Turn τ × TurnAnswer)) :
    Recorded lower (evs ++ more) key outcome stored := by
  obtain ⟨pre, thread, call, answer, post, rfl, h⟩ := h
  exact ⟨pre, thread, call, answer, post ++ more, by simp, h⟩

/-- What the threads bring is what their resolver calls ended with, and what the cache holds was brought in so. -/
structure History (lower : String → String) (cfg : SourceCacheConfig τ) (evs : List (Turn τ × TurnAnswer))
    (s : SourceState τ) : Prop where
  ended : ∀ {thread call outcome}, s.threads thread = .resolved call outcome → Ended evs thread call outcome
  entries : ∀ {key entry}, s.cache.entries.get? key = some entry → ∃ stored,
    Recorded lower evs key (.returned entry.result) stored ∧ entry.expiresAt = stored + cfg.ttlSeconds
  failures : ∀ {key failure}, s.cache.failures.get? key = some failure → ∃ stored,
    Recorded lower evs key (.failed failure.error) stored ∧ failure.expiresAt = stored + cfg.negativeTtlSeconds

/-- A step of one thread that stores nothing. -/
theorem History.concat {evs : List (Turn τ × TurnAnswer)} (h : History lower cfg evs s) {c : SourceCache τ}
    {threads : ℕ → SourceThread} {e : Turn τ × TurnAnswer}
    (hentries : ∀ {key entry}, c.entries.get? key = some entry → s.cache.entries.get? key = some entry)
    (hfailures : ∀ {key failure}, c.failures.get? key = some failure → s.cache.failures.get? key = some failure)
    (hthreads : ∀ {t call outcome}, threads t = .resolved call outcome →
      Ended (evs ++ [e]) t call outcome) : History lower cfg (evs ++ [e]) ⟨c, threads⟩ where
  ended := hthreads
  entries hget := by
    obtain ⟨stored, hrec, hexp⟩ := h.entries (hentries hget)
    exact ⟨stored, hrec.append _, hexp⟩
  failures hget := by
    obtain ⟨stored, hrec, hexp⟩ := h.failures (hfailures hget)
    exact ⟨stored, hrec.append _, hexp⟩

theorem attempt_history {evs : List (Turn τ × TurnAnswer)} (h : History lower cfg evs s) {turn : Turn τ} {thread : ℕ}
    {call : ℤ × String} {now : τ} (hturn : turn = .enter thread call now ∨ turn = .wake thread call now) :
    History lower cfg (evs ++ [(turn, (attempt lower cfg thread call now s).1)])
      (attempt lower cfg thread call now s).2 := by
  obtain ⟨hshrunk, -⟩ := expireLocked_spec now s.cache
  have hown : turn.thread = thread := by rcases hturn with rfl | rfl <;> rfl
  have hended : ∀ {phase answer t other outcome}, Function.update s.threads thread phase t = .resolved other outcome →
      phase = .resolved other outcome ∨ Ended (evs ++ [(turn, answer)]) t other outcome := by
    intro phase answer t other outcome ht
    obtain ⟨-, hphase⟩ | ⟨hne, ht⟩ := of_update ht
    · exact .inl hphase
    · exact .inr ((h.ended ht).concat fun heq => absurd (heq.symm.trans hown) hne)
  obtain ⟨entry, -, heq⟩ | ⟨failure, -, heq⟩ | ⟨-, heq⟩ | heq | ⟨-, -, -, -, heq⟩ :=
    attempt_cases lower cfg thread call now s
  all_goals rw [heq]
  · exact h.concat (fun hget => hshrunk.entries (by simpa using hget)) hshrunk.failures
      fun ht => (hended ht).resolve_left (by simp)
  · exact h.concat hshrunk.entries (fun hget => hshrunk.failures (by simpa using hget))
      fun ht => (hended ht).resolve_left (by simp)
  · exact h.concat hshrunk.entries hshrunk.failures fun ht => (hended ht).resolve_left (by simp)
  · exact h.concat hshrunk.entries hshrunk.failures fun ht => (hended ht).resolve_left (by simp)
  · exact h.concat hshrunk.entries hshrunk.failures fun ht => (hended ht).resolve_left (by simp)

/-- What a landing brings in is recorded by it. -/
theorem record_history {evs : List (Turn τ × TurnAnswer)} (hinv : CacheInvariant lower cfg s)
    (h : History lower cfg evs s) {thread : ℕ} {call : ℤ × String} {outcome : ResolverOutcome}
    (hthread : s.threads thread = .resolved call outcome) (now : τ) :
    History lower cfg (evs ++ [(.record thread call outcome now, (record readFloat lower cfg thread call outcome now s).1)])
      (record readFloat lower cfg thread call outcome now s).2 := by
  have hflight : flight? (s.threads thread) = some call := by rw [hthread]; rfl
  have hothers : ∀ {answer t other outcome'}, t ≠ thread → s.threads t = .resolved other outcome' →
      Ended (evs ++ [(.record thread call outcome now, answer)]) t other outcome' :=
    fun hne ht => (h.ended ht).concat fun heq => absurd heq.symm hne
  have hrecorded : ∀ {answer}, answer ≠ .refused →
      Recorded lower (evs ++ [(.record thread call outcome now, answer)]) (keyOf lower call) outcome now :=
    fun hanswer => ⟨evs, thread, call, _, [], rfl, hanswer, rfl, h.ended hthread⟩
  obtain ⟨answer, c, hland, heq⟩ | ⟨result, rfl, -, heq⟩ := record_cases readFloat lower cfg thread call outcome now s
  · rw [heq]
    have hended : ∀ {t other outcome'},
        Function.update (notifyAll s.threads) thread .outside t = .resolved other outcome' →
        Ended (evs ++ [(.record thread call outcome now, answer)]) t other outcome' := by
      intro t other outcome' ht
      obtain ⟨-, hphase⟩ | ⟨hne, ht⟩ := of_update ht
      · exact nomatch hphase
      obtain ⟨_, hwait⟩ | ht := of_notifyAll ht
      · exact nomatch hwait
      · exact hothers hne ht
    cases hland with
    | @success result _ hstore =>
      obtain rfl | ⟨c₁, entry, hshrunk, -, -, rfl, hexpires, rfl⟩ :=
        storeSuccessLocked_cases hinv.representation (hinv.representation.entries_inflight _ (hinv.inflight hflight)) hstore
      · exact h.concat id id hended
      · have hold := h.concat hshrunk.entries hshrunk.failures hended
        refine ⟨hended, fun {key e} hget => ?_, hold.failures⟩
        obtain ⟨rfl, rfl⟩ | ⟨-, hget⟩ := OrderedDict.get?_push_eq_some_iff.mp hget
        · exact ⟨now, hrecorded (by simp), hexpires⟩
        · exact hold.entries hget
    | failure error =>
      obtain heq | ⟨hshrunk, -⟩ := storeFailureLocked_cases cfg (keyOf lower call) error now s.cache
      · rw [heq]
        exact h.concat id id hended
      · refine ⟨hended, fun {key e} hget => ?_, fun {key f} hget => ?_⟩
        · obtain ⟨stored, hrec, hexp⟩ := h.entries (hshrunk.entries hget)
          exact ⟨stored, hrec.append _, hexp⟩
        · obtain ⟨rfl, rfl⟩ | ⟨-, hget⟩ := OrderedDict.get?_push_eq_some_iff.mp (hshrunk.failures hget)
          · exact ⟨now, hrecorded (by simp), rfl⟩
          · obtain ⟨stored, hrec, hexp⟩ := h.failures hget
            exact ⟨stored, hrec.append _, hexp⟩
    | invalid => exact h.concat id id hended
    | exception => exact h.concat id id hended
  · rw [heq]
    refine h.concat id id fun ht => ?_
    obtain ⟨-, hphase⟩ | ⟨hne, ht⟩ := of_update ht
    · exact nomatch hphase
    · exact hothers hne ht

theorem step_history {evs : List (Turn τ × TurnAnswer)} (hinv : CacheInvariant lower cfg s)
    (h : History lower cfg evs s) (turn : Turn τ) :
    History lower cfg (evs ++ [(turn, (step readFloat lower cfg s turn).1)]) (step readFloat lower cfg s turn).2 := by
  obtain heq | ⟨thread, call, now, hturn, -, heq⟩ | ⟨thread, call, outcome, rfl, -, heq⟩ |
    ⟨thread, call, outcome, now, rfl, hthread, heq⟩ := step_cases readFloat lower cfg s turn
  all_goals rw [heq]
  · exact h.concat id id fun ht => (h.ended ht).concat fun _ => rfl
  · exact attempt_history h hturn
  · refine h.concat id id fun ht => ?_
    obtain ⟨rfl, hphase⟩ | ⟨hne, ht⟩ := of_update ht
    · cases hphase
      exact ⟨evs, [], rfl, fun _ hx => absurd hx (by simp)⟩
    · exact (h.ended ht).concat fun heq => absurd heq.symm hne
  · exact record_history hinv h hthread now

theorem new_history (lower : String → String) (cfg : SourceCacheConfig τ) : History lower cfg [] (new : SourceState τ) :=
  ⟨fun ht => (nomatch ht), fun hget => (nomatch hget), fun hget => (nomatch hget)⟩

/-! ## Every run -/

/-- Why a step may answer so: a result is the one of this call's own flight, or one that a flight of the key stored less
than `ttl_seconds` ago; a cached failure was raised in a flight of the key less than `negative_ttl_seconds` ago. -/
def Justified (lower : String → String) (cfg : SourceCacheConfig τ) (pre : List (Turn τ × TurnAnswer)) (turn : Turn τ) :
    TurnAnswer → Prop
  | .returned result =>
    (∃ thread call now, turn = .record thread call (.returned result) now ∧ Ended pre thread call (.returned result)) ∨
    ∃ thread call now stored, (turn = .enter thread call now ∨ turn = .wake thread call now) ∧
      Recorded lower pre (keyOf lower call) (.returned result) stored ∧ now < stored + cfg.ttlSeconds
  | .cachedFailure error =>
    ∃ thread call now stored, (turn = .enter thread call now ∨ turn = .wake thread call now) ∧
      Recorded lower pre (keyOf lower call) (.failed error) stored ∧ now < stored + cfg.negativeTtlSeconds
  | .failed error =>
    ∃ thread call now, turn = .record thread call (.failed error) now ∧ Ended pre thread call (.failed error)
  | _ => True

theorem step_justified {evs : List (Turn τ × TurnAnswer)} (h : History lower cfg evs s) (turn : Turn τ) :
    Justified lower cfg evs turn (step readFloat lower cfg s turn).1 := by
  obtain heq | ⟨thread, call, now, hturn, -, heq⟩ | ⟨thread, call, outcome, rfl, -, heq⟩ |
    ⟨thread, call, outcome, now, rfl, hthread, heq⟩ := step_cases readFloat lower cfg s turn
  all_goals rw [heq]
  · trivial
  · obtain ⟨hshrunk, hentries, hfailures⟩ := expireLocked_spec now s.cache
    obtain ⟨entry, hget, heq⟩ | ⟨failure, hget, heq⟩ | ⟨-, heq⟩ | heq | ⟨-, -, -, -, heq⟩ :=
      attempt_cases lower cfg thread call now s
    all_goals rw [heq]
    · obtain ⟨stored, hrec, hexp⟩ := h.entries (hshrunk.entries hget)
      exact .inr ⟨thread, call, now, stored, hturn, hrec, hexp ▸ hentries _ _ hget⟩
    · obtain ⟨stored, hrec, hexp⟩ := h.failures (hshrunk.failures hget)
      exact ⟨thread, call, now, stored, hturn, hrec, hexp ▸ hfailures _ _ hget⟩
    all_goals trivial
  · trivial
  · have hended := h.ended hthread
    obtain ⟨answer, c, hland, heq⟩ | ⟨result, -, -, heq⟩ := record_cases readFloat lower cfg thread call outcome now s
    · rw [heq]
      cases hland with
      | success hstore => exact .inl ⟨thread, call, now, rfl, hended⟩
      | failure error => exact ⟨thread, call, now, rfl, hended⟩
      | invalid => trivial
      | exception => trivial
    · rw [heq]
      trivial

theorem run_history {evs : List (Turn τ × TurnAnswer)} (h : (machine readFloat lower cfg).Run evs s) :
    CacheInvariant lower cfg s ∧ History lower cfg evs s :=
  Machine.Run.invariant (I := fun evs s => CacheInvariant lower cfg s ∧ History lower cfg evs s)
    ⟨new_cacheInvariant lower cfg, new_history lower cfg⟩
    (fun _ _ turn _ hs => ⟨step_cacheInvariant hs.1 turn, step_history hs.1 hs.2 turn⟩) h

theorem run_awake {evs : List (Turn τ × TurnAnswer)} (h : (machine readFloat lower cfg).Run evs s)
    (hsized : ∀ e ∈ evs, ∀ thread call outcome, e.1 = .resolverEnds thread call outcome → Sized readFloat outcome) :
    Awake readFloat lower s := by
  have hlegal : Machine.Respects
      (fun _ turn => ∀ thread call outcome, turn = .resolverEnds thread call outcome → Sized readFloat outcome) evs := by
    rintro pre e post rfl
    exact hsized e (by simp)
  exact (Machine.Run.invariant_of_respects (I := fun _ s => CacheInvariant lower cfg s ∧ Awake readFloat lower s)
    ⟨new_cacheInvariant lower cfg, new_awake readFloat lower⟩
    (fun _ _ turn _ hs hturn => ⟨step_cacheInvariant hs.1 turn, step_awake hs.1 hs.2 hturn⟩) h hlegal).2

/-- One resolver call for a key at a time; whoever sleeps waits for one flight that is on its way; every answer is
justified by what came before it. -/
structure FliesOnce (lower : String → String) (cfg : SourceCacheConfig τ) (evs : List (Turn τ × TurnAnswer))
    (s : SourceState τ) : Prop where
  one_call : ∀ thread thread' call call', s.threads thread = .resolving call → s.threads thread' = .resolving call' →
    keyOf lower call = keyOf lower call' → thread = thread'
  awake : ∀ thread call, s.threads thread = .waiting call false → keyOf lower call ∈ s.cache.inflight ∧
    ∃! owner, ∃ call', flight? (s.threads owner) = some call' ∧ keyOf lower call' = keyOf lower call
  justified : ∀ pre turn answer post, evs = pre ++ (turn, answer) :: post → Justified lower cfg pre turn answer

/-- **Single flight**: over every run in which the size of each result can be told. -/
theorem resolve_singleFlight {evs : List (Turn τ × TurnAnswer)} (h : (machine readFloat lower cfg).Run evs s)
    (hsized : ∀ e ∈ evs, ∀ thread call outcome, e.1 = .resolverEnds thread call outcome → Sized readFloat outcome) :
    FliesOnce lower cfg evs s := by
  have hinv := run_cacheInvariant h
  refine ⟨fun thread thread' call call' ht ht' hsame => ?_, fun thread call ht => ?_, ?_⟩
  · have hf : flight? (s.threads thread) = some call := by rw [ht]; rfl
    have hf' : flight? (s.threads thread') = some call' := by rw [ht']; rfl
    exact hinv.unique hf hf' hsame
  · have hawake := run_awake h hsized
    have hin := hawake.waiting ht
    obtain ⟨owner, call', hf, hkey⟩ := hawake.flying hin
    refine ⟨hin, owner, ⟨call', hf, hkey⟩, ?_⟩
    rintro other ⟨call'', hf', hkey'⟩
    exact hinv.unique hf' hf (hkey'.trans hkey.symm)
  · rintro pre turn answer post rfl
    obtain ⟨s₁, s₂, hpre, hstep, -, -⟩ := h.split
    have hjust : Justified lower cfg pre turn (step readFloat lower cfg s₁ turn).1 :=
      step_justified (run_history hpre).2 turn
    rwa [show step readFloat lower cfg s₁ turn = (answer, s₂) from hstep] at hjust

/-! ## Two threads, one flight -/

def demoCacheConfig : SourceCacheConfig ℚ where
  ttlSeconds := 15
  maxEntries := 2
  maxBytes := 4096
  negativeTtlSeconds := 2
  ttl_range := by norm_num
  entries_pos := by norm_num
  bytes_pos := by norm_num
  negative_ttl_range := by norm_num

def demoSource : VerifiedSourceResult where
  chainId := 1
  address := "0xab"
  block := ⟨7, "0x07"⟩
  target := ⟨"0xab", "0x01", 2⟩
  effectiveContract := ⟨"0xab", "0x01", 2⟩
  proxyChain := []
  verificationMatch := "match"
  abiHash := "sha256:00"
  abiJson := utf8 "[]"

theorem demoSource_sized : (demoSource.cacheSizeBytes Json.textOnly).isSome = true := by decide +kernel

/-- The second thread asks for the address in capitals while the first one resolves it. -/
def twoThreads : List (Turn ℚ) :=
  [.enter 0 (1, "0xab") 0, .enter 1 (1, "0xAB") 1, .resolverEnds 0 (1, "0xab") (.returned demoSource),
    .record 0 (1, "0xab") (.returned demoSource) 3, .wake 1 (1, "0xAB") 4]

theorem resolve_singleFlight_twoThreads :
    FliesOnce lowerAscii demoCacheConfig ((machine Json.textOnly lowerAscii demoCacheConfig).trace twoThreads)
      ((machine Json.textOnly lowerAscii demoCacheConfig).after twoThreads) := by
  refine resolve_singleFlight (Machine.run_after _ twoThreads) fun e he thread call outcome hturn => ?_
  have hevents : ((machine Json.textOnly lowerAscii demoCacheConfig).trace twoThreads).map Prod.fst = twoThreads := rfl
  have hmem : e.1 ∈ twoThreads := hevents ▸ List.mem_map_of_mem he
  rw [hturn] at hmem
  obtain ⟨-, -, rfl⟩ : thread = 0 ∧ call = (1, "0xab") ∧ outcome = .returned demoSource := by
    simpa [twoThreads] using hmem
  exact demoSource_sized

end Lucent.Hosted.VerifiedSourceCache
