import Mathlib.Data.Rat.Floor
import Lucent.Lib.Machine
import Lucent.Lib.OrderedDict
import Lucent.Lib.TokenBucket

/-!
# Lucent.Access.Quota — the token buckets of `lucent/access.py`

`TokenBucketLimiter.consume` with rational arithmetic in place of the floats of the source: clock readings, costs,
rates and tokens are exact, and what rounding may add or lose is left out.  There is one bucket for each configured
tenant, created full at its first call, refilled and re-stamped by every call that reads the clock, also by a refused
one.

* `limiter`: the limiter as a machine; a call carries the reading the clock would give it.
* `consume_get?`, `consume_get?_of_ne`: what a call reads and writes is the bucket of its own tenant.
* `Refilled`, `consumeLocked_cases`: a call refills and then either takes its cost or leaves the bucket there.
* `run_bucket`: in every reachable state a bucket is within its capacity and stamped with the high-water mark.
-/

namespace Lucent.Access

open Lucent.Lib

/-! ## Policies and answers -/

def maxQuotaCapacity : ℕ := 1000000
def maxQuotaRefillTokensPerSecond : ℚ := 100000

/-- `QuotaPolicy`, with the checks of its constructor as fields. -/
structure QuotaPolicy where
  capacity : ℕ
  refillTokensPerSecond : ℚ
  capacity_pos : 0 < capacity
  capacity_le : capacity ≤ maxQuotaCapacity
  refill_pos : 0 < refillTokensPerSecond
  refill_le : refillTokensPerSecond ≤ maxQuotaRefillTokensPerSecond

/-- `QuotaReceipt`. -/
structure QuotaReceipt where
  limit : ℕ
  remaining : ℤ
  resetAfterSeconds : ℚ
deriving DecidableEq

/-- What `consume` raises. -/
inductive QuotaError
  | valueError (detail : String)
  | exceeded (limit : ℕ) (remaining : ℤ) (retryAfterSeconds : ℚ)
deriving DecidableEq

abbrev QuotaAnswer := Except QuotaError QuotaReceipt

/-- The whole seconds of `AccessError.response_headers`. -/
def retryAfterHeader (retryAfterSeconds : ℚ) : ℤ := max 1 ⌈retryAfterSeconds⌉

/-- `1e-12`, the tolerance of the admission test. -/
def admissionTolerance : ℚ := 1 / 10 ^ 12

/-! ## One call -/

/-- A call of `consume`, with the reading of the clock. -/
structure QuotaCall where
  tenantId : String
  cost : ℚ
  now : ℚ
deriving DecidableEq

namespace TokenBucketLimiter

/-- The bucket a call works on, computed without rounding: a full one at first, afterwards the refilled one. -/
def refilled (policy : QuotaPolicy) (bucket : Option (Bucket ℚ)) (now : ℚ) : Bucket ℚ :=
  match bucket with
  | none => { tokens := policy.capacity, lastRefill := now }
  | some bucket =>
    let elapsed := max 0 (now - bucket.lastRefill)
    { tokens := min policy.capacity (bucket.tokens + elapsed * policy.refillTokensPerSecond)
      lastRefill := max bucket.lastRefill now }

/-- The part of `consume` under the lock. -/
def consumeLocked (policy : QuotaPolicy) (found : Option (Bucket ℚ)) (cost now : ℚ) : QuotaAnswer × Bucket ℚ :=
  let bucket := refilled policy found now
  if bucket.tokens + admissionTolerance < cost then
    let retryAfter := (cost - bucket.tokens) / policy.refillTokensPerSecond
    (.error (.exceeded policy.capacity (max 0 ⌊bucket.tokens⌋) retryAfter), bucket)
  else
    let bucket := { bucket with tokens := max 0 (bucket.tokens - cost) }
    let resetAfter := (policy.capacity - bucket.tokens) / policy.refillTokensPerSecond
    (.ok { limit := policy.capacity, remaining := max 0 ⌊bucket.tokens + admissionTolerance⌋
           resetAfterSeconds := resetAfter }, bucket)

/-- `TokenBucketLimiter.consume`, over the rationals. -/
def consume (policies : OrderedDict String QuotaPolicy) (buckets : OrderedDict String (Bucket ℚ))
    (call : QuotaCall) : QuotaAnswer × OrderedDict String (Bucket ℚ) :=
  match policies.get? call.tenantId with
  | none => (.error (.valueError "tenant has no configured quota policy"), buckets)
  | some policy =>
    if call.cost ≤ 0 then (.error (.valueError "cost must be positive and finite"), buckets)
    else if policy.capacity < call.cost then
      (.error (.valueError "cost may not exceed tenant quota capacity"), buckets)
    else
      let (answer, bucket) := consumeLocked policy (buckets.get? call.tenantId) call.cost call.now
      (answer, buckets.set call.tenantId bucket)

end TokenBucketLimiter

open TokenBucketLimiter

/-- The limiter of a configuration, before its first call. -/
def limiter (policies : OrderedDict String QuotaPolicy) :
    Machine (OrderedDict String (Bucket ℚ)) QuotaCall QuotaAnswer :=
  { init := .empty, step := consume policies }

/-- The calls of a tenant. -/
def ofTenant (tenantId : String) (call : QuotaCall) : Bool := call.tenantId = tenantId

/-- The costs a policy admits; the others are refused before the clock is read. -/
def QuotaPolicy.Admissible (policy : QuotaPolicy) (cost : ℚ) : Prop := 0 < cost ∧ cost ≤ policy.capacity

instance (policy : QuotaPolicy) (cost : ℚ) : Decidable (policy.Admissible cost) :=
  inferInstanceAs (Decidable (_ ∧ _))

/-- The calls of a tenant that read the clock. -/
def served (policy : QuotaPolicy) (tenantId : String) (evs : List (QuotaCall × QuotaAnswer)) :
    List (QuotaCall × QuotaAnswer) :=
  evs.filter fun e => ofTenant tenantId e.1 && decide (policy.Admissible e.1.cost)

/-- The clock readings of a history. -/
def readings (evs : List (QuotaCall × QuotaAnswer)) : List ℚ := evs.map (·.1.now)

/-- The admitted calls of a history. -/
def admitted (evs : List (QuotaCall × QuotaAnswer)) : List (QuotaCall × QuotaAnswer) := evs.filter (·.2.isOk)

/-- What the admitted calls of a history cost. -/
def spent (evs : List (QuotaCall × QuotaAnswer)) : ℚ := ((admitted evs).map (·.1.cost)).sum

/-! ## What a call does -/

theorem served_append (policy : QuotaPolicy) (tenantId : String) (evs evs' : List (QuotaCall × QuotaAnswer)) :
    served policy tenantId (evs ++ evs') = served policy tenantId evs ++ served policy tenantId evs' :=
  List.filter_append ..

theorem mem_served {policy : QuotaPolicy} {tenantId : String} {evs : List (QuotaCall × QuotaAnswer)}
    {e : QuotaCall × QuotaAnswer} : e ∈ served policy tenantId evs ↔
      e ∈ evs ∧ e.1.tenantId = tenantId ∧ policy.Admissible e.1.cost := by
  simp [served, ofTenant]

section Call

variable {policies : OrderedDict String QuotaPolicy} {buckets : OrderedDict String (Bucket ℚ)}
  {policy : QuotaPolicy} {call : QuotaCall}

theorem consume_of_admissible (hp : policies.get? call.tenantId = some policy) (hc : policy.Admissible call.cost) :
    consume policies buckets call =
      ((consumeLocked policy (buckets.get? call.tenantId) call.cost call.now).1,
        buckets.set call.tenantId (consumeLocked policy (buckets.get? call.tenantId) call.cost call.now).2) := by
  simp only [consume, hp, if_neg hc.1.not_ge, if_neg hc.2.not_gt]

/-- A call that does not read the clock leaves every bucket. -/
theorem consume_of_not_admissible (hp : policies.get? call.tenantId = some policy)
    (hc : ¬ policy.Admissible call.cost) :
    ∃ detail, consume policies buckets call = (.error (.valueError detail), buckets) := by
  unfold consume
  simp only [hp]
  by_cases h0 : call.cost ≤ 0
  · exact ⟨_, if_pos h0⟩
  · rw [if_neg h0]
    by_cases h1 : (policy.capacity : ℚ) < call.cost
    · exact ⟨_, if_pos h1⟩
    · exact absurd ⟨not_le.mp h0, not_lt.mp h1⟩ hc

/-- A call touches no bucket of another tenant. -/
theorem consume_get?_of_ne {tenantId : String} (h : call.tenantId ≠ tenantId) :
    (consume policies buckets call).2.get? tenantId = buckets.get? tenantId := by
  unfold consume
  split
  · rfl
  · split_ifs
    · rfl
    · rfl
    · rw [OrderedDict.get?_set, if_neg (Ne.symm h)]

/-- A call depends on no bucket of another tenant. -/
theorem consume_congr {buckets' : OrderedDict String (Bucket ℚ)}
    (h : buckets.get? call.tenantId = buckets'.get? call.tenantId) :
    (consume policies buckets call).1 = (consume policies buckets' call).1 ∧
      (consume policies buckets call).2.get? call.tenantId = (consume policies buckets' call).2.get? call.tenantId := by
  unfold consume
  rw [← h]
  split
  · exact ⟨rfl, h⟩
  · split_ifs
    · exact ⟨rfl, h⟩
    · exact ⟨rfl, h⟩
    · refine ⟨rfl, ?_⟩
      rw [OrderedDict.get?_set, OrderedDict.get?_set, if_pos rfl, if_pos rfl]

theorem refilled_some (b : Bucket ℚ) (now : ℚ) :
    refilled policy (some b) now = b.refill (policy.capacity : ℚ) policy.refillTokensPerSecond now := rfl

/-- Under the lock a call refills the bucket, and either takes its cost from it or leaves it there. -/
theorem consumeLocked_cases (policy : QuotaPolicy) (found : Option (Bucket ℚ)) (cost now : ℚ) :
    (cost ≤ (refilled policy found now).tokens + admissionTolerance ∧
      ∃ receipt, consumeLocked policy found cost now = (.ok receipt, (refilled policy found now).take cost)) ∨
    ((refilled policy found now).tokens + admissionTolerance < cost ∧
      consumeLocked policy found cost now =
        (.error (.exceeded policy.capacity (max 0 ⌊(refilled policy found now).tokens⌋)
          ((cost - (refilled policy found now).tokens) / policy.refillTokensPerSecond)), refilled policy found now)) := by
  unfold consumeLocked
  by_cases h : (refilled policy found now).tokens + admissionTolerance < cost
  · exact .inr ⟨h, if_pos h⟩
  · refine .inl ⟨not_lt.mp h, ?_⟩
    simp only [if_neg h]
    exact ⟨_, rfl⟩

end Call

/-! ## Runs, seen by one tenant -/

section Run

variable {policies : OrderedDict String QuotaPolicy} {policy : QuotaPolicy} {tenantId : String}

/-- **Run rule of one tenant**: what each call that reads the clock preserves, every run preserves, whatever calls
of other tenants stand in between. -/
theorem steps_tenant (hp : policies.get? tenantId = some policy)
    {I : List (QuotaCall × QuotaAnswer) → Option (Bucket ℚ) → Prop}
    (hstep : ∀ mine found call, policy.Admissible call.cost → I mine found →
      I (mine ++ [(call, (consumeLocked policy found call.cost call.now).1)])
        (some (consumeLocked policy found call.cost call.now).2))
    {s s' : OrderedDict String (Bucket ℚ)} {evs : List (QuotaCall × QuotaAnswer)}
    (h : (limiter policies).Steps s evs s') (h0 : I [] (s.get? tenantId)) :
    I (served policy tenantId evs) (s'.get? tenantId) := by
  induction evs using List.reverseRecOn generalizing s' with
  | nil =>
    obtain rfl := Machine.steps_nil_iff.mp h
    exact h0
  | append_singleton evs e ih =>
    obtain ⟨s₁, h1, h2⟩ := Machine.steps_append_iff.mp h
    obtain ⟨call, answer⟩ := e
    have hcall : consume policies s₁ call = (answer, s') := Machine.steps_singleton_iff.mp h2
    have hi := ih h1
    by_cases ht : call.tenantId = tenantId
    · subst ht
      by_cases hc : policy.Admissible call.cost
      · have hlast : served policy call.tenantId [(call, answer)] = [(call, answer)] := by
          simp [served, ofTenant, hc]
        rw [consume_of_admissible hp hc] at hcall
        obtain ⟨rfl, rfl⟩ := Prod.mk.inj hcall
        rw [served_append, hlast, OrderedDict.get?_set, if_pos rfl]
        exact hstep _ _ call hc hi
      · have hlast : served policy call.tenantId [(call, answer)] = [] := by simp [served, hc]
        obtain ⟨detail, hd⟩ := @consume_of_not_admissible policies s₁ policy call hp hc
        obtain ⟨-, rfl⟩ := Prod.mk.inj (hd.symm.trans hcall)
        rwa [served_append, hlast, List.append_nil]
    · have hlast : served policy tenantId [(call, answer)] = [] := by simp [served, ofTenant, ht]
      have hkeep := @consume_get?_of_ne policies s₁ call tenantId ht
      rw [hcall] at hkeep
      rwa [served_append, hlast, List.append_nil, hkeep]

/-- What is known of a bucket from the calls that worked on it. -/
structure Metered (policy : QuotaPolicy) (mine : List (QuotaCall × QuotaAnswer)) (b : Bucket ℚ) : Prop where
  within : b.Within (policy.capacity : ℚ)
  stamped : b.lastRefill = highWater (readings mine)
  /-- On every stretch up to now, what was spent and what is left are covered. -/
  covered : ∀ before first rest, mine = before ++ first :: rest →
    spent (first :: rest) + b.tokens ≤ policy.capacity +
      policy.refillTokensPerSecond * (b.lastRefill - highWater (readings (before ++ [first]))) +
      (admitted (first :: rest)).length * admissionTolerance

theorem spent_append (evs evs' : List (QuotaCall × QuotaAnswer)) : spent (evs ++ evs') = spent evs + spent evs' := by
  simp [spent, admitted]

theorem admitted_append (evs evs' : List (QuotaCall × QuotaAnswer)) :
    (admitted (evs ++ evs')).length = (admitted evs).length + (admitted evs').length := by simp [admitted]

theorem refilled_within {found : Option (Bucket ℚ)} (h : ∀ b, found = some b → b.Within (policy.capacity : ℚ))
    (now : ℚ) : (refilled policy found now).Within (policy.capacity : ℚ) := by
  cases found with
  | none => exact ⟨Nat.cast_nonneg _, le_rfl⟩
  | some b => exact (h b rfl).refill policy.refill_pos.le now

/-- One call: its cost and what it leaves come out of the refilled bucket, up to the tolerance if it is admitted. -/
theorem consumeLocked_covered {found : Option (Bucket ℚ)} (h : ∀ b, found = some b → b.Within (policy.capacity : ℚ))
    {call : QuotaCall} (hc : policy.Admissible call.cost) {answer : QuotaAnswer} {b : Bucket ℚ}
    (hr : consumeLocked policy found call.cost call.now = (answer, b)) :
    b.Within (policy.capacity : ℚ) ∧ b.lastRefill = (refilled policy found call.now).lastRefill ∧
      spent [(call, answer)] + b.tokens ≤ (refilled policy found call.now).tokens +
        (admitted [(call, answer)]).length * admissionTolerance := by
  have hw := refilled_within h call.now
  rcases consumeLocked_cases policy found call.cost call.now with ⟨hle, receipt, heq⟩ | ⟨-, heq⟩
  · obtain ⟨rfl, rfl⟩ := Prod.mk.inj (heq.symm.trans hr)
    refine ⟨hw.take hc.1.le, rfl, ?_⟩
    have htol : (0 : ℚ) ≤ admissionTolerance := by norm_num [admissionTolerance]
    simpa [spent, admitted, Except.isOk, Except.toBool] using Bucket.cost_add_take_le htol hle
  · obtain ⟨rfl, rfl⟩ := Prod.mk.inj (heq.symm.trans hr)
    exact ⟨hw, rfl, by simp [spent, admitted, Except.isOk, Except.toBool]⟩

theorem refilled_stamped {found : Option (Bucket ℚ)} {mine : List (QuotaCall × QuotaAnswer)}
    (hnone : found = none → mine = [])
    (hsome : ∀ b, found = some b → mine ≠ [] ∧ b.lastRefill = highWater (readings mine)) (e : QuotaCall × QuotaAnswer) :
    (refilled policy found e.1.now).lastRefill = highWater (readings (mine ++ [e])) := by
  cases found with
  | none =>
    rw [hnone rfl]
    rfl
  | some b =>
    obtain ⟨hne, hlast⟩ := hsome b rfl
    have hne' : readings mine ≠ [] := by simpa [readings] using hne
    have hconcat : readings (mine ++ [e]) = readings mine ++ [e.1.now] := by simp [readings]
    rw [hconcat, highWater_concat hne', ← hlast]
    rfl

/-- The bucket of a tenant in every reachable state: none before its first call, a metered one afterwards. -/
theorem run_bucket (hp : policies.get? tenantId = some policy) {evs : List (QuotaCall × QuotaAnswer)}
    {s : OrderedDict String (Bucket ℚ)} (h : (limiter policies).Run evs s) :
    (s.get? tenantId = none → served policy tenantId evs = []) ∧
      ∀ b, s.get? tenantId = some b → served policy tenantId evs ≠ [] ∧ Metered policy (served policy tenantId evs) b := by
  refine steps_tenant hp (I := fun mine found => (found = none → mine = []) ∧
    ∀ b, found = some b → mine ≠ [] ∧ Metered policy mine b) ?_ h ⟨fun _ => rfl, fun b hb => by simp [limiter] at hb⟩
  rintro mine found call hc ⟨hnone, hsome⟩
  obtain ⟨answer, b, hr⟩ : ∃ answer b, consumeLocked policy found call.cost call.now = (answer, b) := ⟨_, _, rfl⟩
  rw [hr]
  obtain ⟨hw, hstamp, hcov⟩ := consumeLocked_covered (fun b hb => (hsome b hb).2.within) hc hr
  have hmark := @refilled_stamped policy _ _ hnone (fun b hb => ⟨(hsome b hb).1, (hsome b hb).2.stamped⟩)
    (call, answer)
  refine ⟨fun hb => by simp at hb, ?_⟩
  rintro _ ⟨⟩
  refine ⟨by simp, hw, hstamp.trans hmark, ?_⟩
  intro before first rest heq
  rcases List.eq_nil_or_concat rest with rfl | ⟨rest, e, rfl⟩
  · -- the stretch is this call alone
    obtain ⟨rfl, hlast⟩ := List.append_inj' heq rfl
    cases hlast
    have hle := (@refilled_within policy _ (fun b hb => (hsome b hb).2.within) call.now).le
    rw [hstamp, hmark, sub_self, mul_zero, add_zero]
    exact hcov.trans (add_le_add_left hle _)
  · rw [List.concat_eq_append, ← List.cons_append, ← List.append_assoc] at heq
    obtain ⟨hmine, hlast⟩ := List.append_inj' heq rfl
    cases hlast
    obtain ⟨b₀, rfl⟩ : ∃ b₀, found = some b₀ := by
      cases hf : found with
      | none => exact absurd (hmine.symm.trans (hnone hf)) (by simp)
      | some b₀ => exact ⟨b₀, rfl⟩
    have hbefore := (hsome b₀ rfl).2.covered before first rest hmine
    have hflow := @Bucket.refill_tokens_le _ _ _ _ (policy.capacity : ℚ) policy.refillTokensPerSecond b₀ call.now
    rw [List.concat_eq_append, ← List.cons_append, spent_append, admitted_append, hstamp]
    rw [refilled_some] at hcov ⊢
    push_cast
    linarith

end Run

end Lucent.Access
