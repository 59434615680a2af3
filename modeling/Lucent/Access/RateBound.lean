import Lucent.Access.Quota

/-!
# Lucent.Access.RateBound — what the token buckets promise

* `trace_filter_ofTenant`: a tenant gets the answers it would get if no other tenant called.
* `consume_rate_bound`: the rate bound on every stretch of every run, with clocks that may jump both ways.
* `steps_refused`: refused calls leave a bucket where one refill at the latest of their readings would.
* `retryAfter_exact`: the announced time is the earliest at which the refused cost is admitted.
-/

namespace Lucent.Access

open Lucent.Lib TokenBucketLimiter

section Isolation

variable {policies : OrderedDict String QuotaPolicy}

theorem traceFrom_filter_ofTenant (tenantId : String) (calls : List QuotaCall)
    {s s' : OrderedDict String (Bucket ℚ)} (h : s.get? tenantId = s'.get? tenantId) :
    ((limiter policies).traceFrom s calls).filter (fun e => ofTenant tenantId e.1) =
      (limiter policies).traceFrom s' (calls.filter (ofTenant tenantId)) := by
  induction calls generalizing s s' with
  | nil => rfl
  | cons call calls ih =>
    by_cases ht : call.tenantId = tenantId
    · subst ht
      obtain ⟨hanswer, hbucket⟩ := @consume_congr policies _ call _ h
      have hkept : ofTenant call.tenantId call = true := decide_eq_true rfl
      rw [Machine.traceFrom, List.filter_cons, List.filter_cons, if_pos hkept, if_pos hkept, Machine.traceFrom]
      exact congrArg₂ _ (Prod.ext rfl hanswer) (ih hbucket)
    · have hother : ¬ ofTenant tenantId call = true := by simpa [ofTenant] using ht
      rw [Machine.traceFrom, List.filter_cons, List.filter_cons, if_neg hother, if_neg hother]
      exact ih ((consume_get?_of_ne ht).trans h)

/-- A tenant gets the answers it would get if no other tenant called. -/
theorem trace_filter_ofTenant (tenantId : String) (calls : List QuotaCall) :
    ((limiter policies).trace calls).filter (fun e => ofTenant tenantId e.1) =
      (limiter policies).trace (calls.filter (ofTenant tenantId)) :=
  traceFrom_filter_ofTenant tenantId calls rfl

/-- Only configured tenants have a bucket. -/
theorem run_configured {tenantId : String} {evs : List (QuotaCall × QuotaAnswer)} {s : OrderedDict String (Bucket ℚ)}
    (h : (limiter policies).Run evs s) {b : Bucket ℚ} (hb : s.get? tenantId = some b) :
    ∃ policy, policies.get? tenantId = some policy := by
  refine Machine.Run.invariant (I := fun _ s => ∀ b, s.get? tenantId = some b →
    ∃ policy, policies.get? tenantId = some policy) (fun b hb => by simp [limiter] at hb) ?_ h b hb
  intro evs s call _ hi b hb
  by_cases ht : call.tenantId = tenantId
  · subst ht
    cases hp : policies.get? call.tenantId with
    | some policy => exact ⟨policy, rfl⟩
    | none =>
      have hsame : ((limiter policies).step s call).2 = s := by simp [limiter, consume, hp]
      rw [hsame] at hb
      obtain ⟨policy, hp'⟩ := hi b hb
      exact absurd (hp.symm.trans hp') (by simp)
  · exact hi b ((consume_get?_of_ne ht).symm.trans hb)

end Isolation

/-! ## The rate bound -/

/-- **Rate bound.**  In every run: buckets stay within their capacity; what a tenant is admitted for on a stretch of
its calls is covered by one capacity, the flow over the advance of the high-water mark of its readings and the
tolerance of each admission; and no tenant changes what another one gets. -/
theorem consume_rate_bound (policies : OrderedDict String QuotaPolicy) (calls : List QuotaCall) :
    (∀ tenantId bucket, ((limiter policies).after calls).get? tenantId = some bucket →
      ∃ policy, policies.get? tenantId = some policy ∧ 0 ≤ bucket.tokens ∧ bucket.tokens ≤ policy.capacity) ∧
    (∀ tenantId policy, policies.get? tenantId = some policy → ∀ before first rest later,
      served policy tenantId ((limiter policies).trace calls) = before ++ first :: rest ++ later →
        spent (first :: rest) ≤ policy.capacity +
          policy.refillTokensPerSecond *
            (highWater (readings (before ++ first :: rest)) - highWater (readings (before ++ [first]))) +
          (admitted (first :: rest)).length * admissionTolerance) ∧
    (∀ tenantId, ((limiter policies).trace calls).filter (fun e => ofTenant tenantId e.1) =
      (limiter policies).trace (calls.filter (ofTenant tenantId))) := by
  have hrun := Machine.run_after (limiter policies) calls
  refine ⟨?_, ?_, fun tenantId => trace_filter_ofTenant tenantId calls⟩
  · intro tenantId bucket hb
    obtain ⟨policy, hp⟩ := run_configured hrun hb
    have hw := ((run_bucket hp hrun).2 bucket hb).2.within
    exact ⟨policy, hp, hw.nonneg, hw.le⟩
  · intro tenantId policy hp before first rest later hserved
    obtain ⟨evs, evs', htrace, hevs, -⟩ := List.filter_eq_append_iff.mp hserved
    rw [htrace] at hrun
    obtain ⟨s, hs, -⟩ := Machine.steps_append_iff.mp hrun
    obtain ⟨hnone, hsome⟩ := run_bucket hp hs
    have hmine : served policy tenantId evs = before ++ first :: rest := hevs
    obtain ⟨b, hb⟩ : ∃ b, s.get? tenantId = some b := by
      cases hg : s.get? tenantId with
      | none => exact absurd (hmine.symm.trans (hnone hg)) (by simp)
      | some b => exact ⟨b, rfl⟩
    have hm := (hsome b hb).2
    have hcov := hm.covered before first rest hmine
    rw [hm.stamped, hmine] at hcov
    linarith [hm.within.nonneg]

/-! ## Retry-After -/

section Retry

variable {policies : OrderedDict String QuotaPolicy} {policy : QuotaPolicy} {tenantId : String}

/-- Refused calls, of any cost, leave a bucket where one refill at one of their readings would. -/
theorem steps_refused (hp : policies.get? tenantId = some policy) {s s' : OrderedDict String (Bucket ℚ)}
    {between : List (QuotaCall × QuotaAnswer)} (h : (limiter policies).Steps s between s') {b : Bucket ℚ}
    (hb : s.get? tenantId = some b) (hw : b.Within (policy.capacity : ℚ))
    (hrefused : ∀ e ∈ served policy tenantId between, e.2.isOk = false) :
    ∃ m ∈ b.lastRefill :: readings (served policy tenantId between),
      s'.get? tenantId = some (b.refill (policy.capacity : ℚ) policy.refillTokensPerSecond m) := by
  refine steps_tenant hp (I := fun mine found => (∀ e ∈ mine, e.2.isOk = false) →
    ∃ m ∈ b.lastRefill :: readings mine, found = some (b.refill (policy.capacity : ℚ) policy.refillTokensPerSecond m))
    ?_ h (fun _ => ⟨_, List.mem_cons_self, hb.trans (congrArg some (hw.refill_of_le le_rfl).symm)⟩) hrefused
  intro mine found call _ hi hrefused
  obtain ⟨m, hm, rfl⟩ := hi fun e he => hrefused e (List.mem_append_left _ he)
  have hlast := hrefused _ (List.mem_append_right _ List.mem_cons_self)
  rcases consumeLocked_cases policy (some (b.refill (policy.capacity : ℚ) policy.refillTokensPerSecond m)) call.cost
    call.now with ⟨-, receipt, heq⟩ | ⟨-, heq⟩
  · rw [heq] at hlast
    exact absurd hlast (by simp [Except.isOk, Except.toBool])
  · rw [heq, refilled_some, Bucket.refill_refill policy.refill_pos.le]
    refine ⟨max m call.now, ?_, rfl⟩
    rcases max_choice m call.now with hmax | hmax <;> rw [hmax]
    · rcases List.mem_cons.mp hm with rfl | hm
      · exact List.mem_cons_self
      · exact List.mem_cons_of_mem _ (by simpa [readings] using .inl (by simpa [readings] using hm))
    · exact List.mem_cons_of_mem _ (by simp [readings])

theorem readings_append (evs evs' : List (QuotaCall × QuotaAnswer)) :
    readings (evs ++ evs') = readings evs ++ readings evs' := List.map_append ..

/-- Only a cost that reads the clock is refused for lack of tokens. -/
theorem admissible_of_exceeded (hp : policies.get? tenantId = some policy) {call : QuotaCall}
    (ht : call.tenantId = tenantId) {buckets buckets' : OrderedDict String (Bucket ℚ)} {limit : ℕ} {remaining : ℤ}
    {retryAfter : ℚ} (h : consume policies buckets call = (.error (.exceeded limit remaining retryAfter), buckets')) :
    policy.Admissible call.cost := by
  subst ht
  by_contra hc
  obtain ⟨detail, hd⟩ := @consume_of_not_admissible policies buckets policy call hp hc
  exact absurd (h.symm.trans hd) (by simp)

/-- The refusal itself: what it announces and where it leaves the bucket. -/
theorem run_refused (hp : policies.get? tenantId = some policy) {pre : List (QuotaCall × QuotaAnswer)}
    {refused : QuotaCall} {limit : ℕ} {remaining : ℤ} {retryAfter : ℚ} {s₁ s₂ : OrderedDict String (Bucket ℚ)}
    (ht : refused.tenantId = tenantId)
    (h1 : (limiter policies).Run pre s₁)
    (h2 : consume policies s₁ refused = (.error (.exceeded limit remaining retryAfter), s₂))
    (hclock : ∀ t ∈ readings (served policy tenantId pre), t ≤ refused.now) :
    ∃ b, s₂.get? tenantId = some b ∧ b.Within (policy.capacity : ℚ) ∧ b.lastRefill = refused.now ∧
      retryAfter = (refused.cost - b.tokens) / policy.refillTokensPerSecond := by
  subst ht
  have hc := admissible_of_exceeded hp rfl h2
  rw [consume_of_admissible hp hc] at h2
  obtain ⟨hanswer, rfl⟩ := Prod.mk.inj h2
  obtain ⟨hnone, hsome⟩ := run_bucket hp h1
  have hw := @refilled_within policy _ (fun b hb => (hsome b hb).2.within) refused.now
  have hmark : (refilled policy (s₁.get? refused.tenantId) refused.now).lastRefill = refused.now := by
    cases hg : s₁.get? refused.tenantId with
    | none => rfl
    | some b =>
      obtain ⟨hne, hm⟩ := hsome b hg
      have hle : b.lastRefill ≤ refused.now := by
        rw [hm.stamped]
        exact hclock _ (highWater_mem (by simpa [readings] using hne))
      exact max_eq_right hle
  rcases consumeLocked_cases policy (s₁.get? refused.tenantId) refused.cost refused.now with
    ⟨-, receipt, heq⟩ | ⟨-, heq⟩
  · rw [heq] at hanswer
    simp at hanswer
  · rw [heq] at hanswer ⊢
    simp only [Except.error.injEq, QuotaError.exceeded.injEq] at hanswer
    exact ⟨_, by rw [OrderedDict.get?_set, if_pos rfl], hw, hmark, hanswer.2.2.symm⟩

/-- The next call of the same cost, exactly. -/
theorem again_answer (hp : policies.get? tenantId = some policy) {s₃ s : OrderedDict String (Bucket ℚ)} {b : Bucket ℚ}
    {m : ℚ} (hb : s₃.get? tenantId = some (b.refill (policy.capacity : ℚ) policy.refillTokensPerSecond m))
    {again : QuotaCall} {answer : QuotaAnswer} (ht : again.tenantId = tenantId) (hc : policy.Admissible again.cost)
    (hlast : b.lastRefill ≤ again.now) (hm : m ≤ again.now) (h : consume policies s₃ again = (answer, s)) :
    (b.lastRefill + (again.cost - b.tokens) / policy.refillTokensPerSecond -
        admissionTolerance / policy.refillTokensPerSecond ≤ again.now → ∃ receipt, answer = .ok receipt) ∧
    (again.now < b.lastRefill + (again.cost - b.tokens) / policy.refillTokensPerSecond -
        admissionTolerance / policy.refillTokensPerSecond →
      ∃ limit remaining retryAfter, answer = .error (.exceeded limit remaining retryAfter)) := by
  subst ht
  have htol : (0 : ℚ) ≤ admissionTolerance := by norm_num [admissionTolerance]
  have hiff := Bucket.affords_refill_iff policy.refill_pos hc.2 htol hlast
  rw [consume_of_admissible hp hc, hb] at h
  obtain ⟨rfl, -⟩ := Prod.mk.inj h
  have hcases := consumeLocked_cases policy (some (b.refill (policy.capacity : ℚ) policy.refillTokensPerSecond m))
    again.cost again.now
  rw [refilled_some, Bucket.refill_refill policy.refill_pos.le, max_eq_right hm] at hcases
  rcases hcases with ⟨hle, receipt, heq⟩ | ⟨hlt, heq⟩
  · rw [heq]
    exact ⟨fun _ => ⟨receipt, rfl⟩, fun hearly => absurd (hiff.mp hle) (not_le.mpr hearly)⟩
  · rw [heq]
    exact ⟨fun hlate => absurd (hiff.mpr hlate) (not_le.mpr hlt), fun _ => ⟨_, _, _, rfl⟩⟩

/-- **Retry-After.**  A call refused at `refused.now` with `retryAfter` is followed by calls of any tenants, none of
them an admitted one of the same tenant; with nondecreasing readings, the same cost is then admitted from
`refused.now + retryAfter` on and refused before that time less the tolerance.  The header's seconds suffice. -/
theorem retryAfter_exact (hp : policies.get? tenantId = some policy) {pre between : List (QuotaCall × QuotaAnswer)}
    {refused again : QuotaCall} {limit : ℕ} {remaining : ℤ} {retryAfter : ℚ} {answer : QuotaAnswer}
    {s : OrderedDict String (Bucket ℚ)}
    (h : (limiter policies).Run
      (pre ++ (refused, .error (.exceeded limit remaining retryAfter)) :: between ++ [(again, answer)]) s)
    (hrefused : refused.tenantId = tenantId) (hagain : again.tenantId = tenantId) (hcost : again.cost = refused.cost)
    (hclock : (readings (served policy tenantId
      (pre ++ (refused, .error (.exceeded limit remaining retryAfter)) :: between ++ [(again, answer)]))).Pairwise
        (· ≤ ·))
    (hbetween : ∀ e ∈ between, e.1.tenantId = tenantId → e.2.isOk = false) :
    (refused.now + retryAfter ≤ again.now → ∃ receipt, answer = .ok receipt) ∧
    (again.now < refused.now + retryAfter - admissionTolerance / policy.refillTokensPerSecond →
      ∃ limit remaining retryAfter, answer = .error (.exceeded limit remaining retryAfter)) ∧
    (refused.now + retryAfterHeader retryAfter ≤ again.now → ∃ receipt, answer = .ok receipt) := by
  subst hrefused
  rw [List.append_assoc, List.cons_append] at h hclock
  obtain ⟨s₁, s₂, h1, h2, -, h3⟩ := h.split
  obtain ⟨s₃, h3, h4⟩ := Machine.steps_append_iff.mp h3
  have h4 : consume policies s₃ again = (answer, s) := Machine.steps_singleton_iff.mp h4
  have hc := admissible_of_exceeded hp rfl h2
  have hc' : policy.Admissible again.cost := hcost ▸ hc
  -- the readings of the tenant, in order
  have hone : ∀ answer, served policy refused.tenantId [(refused, answer)] = [(refused, answer)] := by
    intro answer; simp [served, ofTenant, hc]
  have hlast : served policy refused.tenantId [(again, answer)] = [(again, answer)] := by
    simp [served, ofTenant, hagain, hc']
  rw [← List.singleton_append, served_append, served_append, served_append, hone, hlast, readings_append,
    readings_append, readings_append, List.pairwise_append, List.pairwise_append, List.pairwise_append] at hclock
  obtain ⟨-, ⟨-, ⟨-, -, hbetween'⟩, hafter⟩, hbefore⟩ := hclock
  have hpre : ∀ t ∈ readings (served policy refused.tenantId pre), t ≤ refused.now :=
    fun t ht => hbefore t ht _ (by simp [readings])
  have hnow : refused.now ≤ again.now := hafter _ (by simp [readings]) _ (by simp [readings])
  have hmid : ∀ t ∈ readings (served policy refused.tenantId between), t ≤ again.now :=
    fun t ht => hbetween' t ht _ (by simp [readings])
  obtain ⟨b, hb, hw, hmark, hretry⟩ := run_refused hp rfl h1 h2 hpre
  obtain ⟨m, hm, hb'⟩ := steps_refused hp h3 hb hw fun e he =>
    hbetween e (mem_served.mp he).1 (mem_served.mp he).2.1
  have hm' : m ≤ again.now := by
    rcases List.mem_cons.mp hm with rfl | hm
    · exact hmark.trans_le hnow
    · exact hmid m hm
  obtain ⟨hlate, hearly⟩ := again_answer hp hb' hagain hc' (hmark.trans_le hnow) hm' h4
  rw [hmark, hcost, ← hretry] at hlate hearly
  have htol : 0 ≤ admissionTolerance / policy.refillTokensPerSecond :=
    div_nonneg (by norm_num [admissionTolerance]) policy.refill_pos.le
  have hheader : retryAfter ≤ (retryAfterHeader retryAfter : ℚ) :=
    (Int.le_ceil retryAfter).trans (Int.cast_le.mpr (le_max_right _ _))
  exact ⟨fun h => hlate (by linarith), hearly, fun h => hlate (by linarith)⟩

/-- Two tokens, one every two seconds. -/
def twoTokens : QuotaPolicy :=
  { capacity := 2, refillTokensPerSecond := 1 / 2, capacity_pos := Nat.two_pos, capacity_le := by decide
    refill_pos := by norm_num, refill_le := by norm_num [maxQuotaRefillTokensPerSecond] }

/-- A call of the one tenant of that policy. -/
def pollAt (now : ℚ) : QuotaCall := { tenantId := "tenant-a", cost := 1, now }

/-- Refused at 100 for two seconds, refused again at 101, admitted at 102. -/
theorem retryAfter_exact_polled : ∃ receipt,
    ((limiter (OrderedDict.empty.push "tenant-a" twoTokens)).step
      ((limiter (OrderedDict.empty.push "tenant-a" twoTokens)).after [pollAt 100, pollAt 100, pollAt 100, pollAt 101])
      (pollAt 102)).1 = .ok receipt := by
  have hrun := Machine.run_after (limiter (OrderedDict.empty.push "tenant-a" twoTokens))
    [pollAt 100, pollAt 100, pollAt 100, pollAt 101]
  have htrace : (limiter (OrderedDict.empty.push "tenant-a" twoTokens)).trace
      [pollAt 100, pollAt 100, pollAt 100, pollAt 101] =
        [(pollAt 100, .ok ⟨2, 1, 2⟩), (pollAt 100, .ok ⟨2, 0, 4⟩)] ++
          (pollAt 100, .error (.exceeded 2 0 2)) :: [(pollAt 101, .error (.exceeded 2 0 1))] := by
    decide +kernel
  rw [htrace] at hrun
  have hagain := Machine.steps_append_iff.mpr ⟨_, hrun, Machine.Steps.cons (i := pollAt 102) rfl (.nil _)⟩
  exact (retryAfter_exact (OrderedDict.get?_push_self _ _ _) hagain rfl rfl rfl (by decide +kernel)
    (by decide +kernel)).1 (by decide +kernel)

end Retry

end Lucent.Access
