import Lucent.Access.RateBound

/-!
# Lucent.Access.Exactness — a token bucket refuses nothing it could admit

The arithmetic is that of `Lucent.Access.Quota`: rational, without the rounding of floats.

* `Drained`: the other half of the account of a bucket: on some stretch up to now, the tokens are at least what the
  capacity and the flow have brought and the admitted calls have not taken.
* `run_drained`: in every reachable state a bucket is drained by its own calls only.
* `consume_exact`: a call is refused only if admitting it would break the rate bound, and then it is.
-/

namespace Lucent.Access

open Lucent.Lib TokenBucketLimiter

section Exactness

variable {policies : OrderedDict String QuotaPolicy} {policy : QuotaPolicy} {tenantId : String}

/-- What the policy allows a stretch that starts at one mark and ends at another, without the tolerance. -/
def QuotaPolicy.allowance (policy : QuotaPolicy) (start stop : ℚ) : ℚ :=
  policy.capacity + policy.refillTokensPerSecond * (stop - start)

/-- The bucket holds at least what a stretch of calls was allowed and has not spent. -/
def Drained (policy : QuotaPolicy) (mine : List (QuotaCall × QuotaAnswer)) (b : Bucket ℚ) : Prop :=
  ∃ before first rest, mine = before ++ first :: rest ∧
    policy.allowance (highWater (readings (before ++ [first]))) b.lastRefill - spent (first :: rest) ≤ b.tokens

/-- A refill that does not fill the bucket continues a stretch. -/
theorem refilled_full_or_drained {found : Option (Bucket ℚ)} {mine : List (QuotaCall × QuotaAnswer)}
    (hsome : ∀ b, found = some b → Drained policy mine b) (now : ℚ) :
    (refilled policy found now).tokens = policy.capacity ∨ Drained policy mine (refilled policy found now) := by
  cases found with
  | none => exact .inl rfl
  | some b =>
    obtain ⟨before, first, rest, hmine, hle⟩ := hsome b rfl
    rw [refilled_some]
    rcases le_total (policy.capacity : ℚ) (b.tokens + max 0 (now - b.lastRefill) * policy.refillTokensPerSecond)
      with hfull | hpart
    · exact .inl (min_eq_left hfull)
    · refine .inr ⟨before, first, rest, hmine, ?_⟩
      have hadvance : max b.lastRefill now - b.lastRefill = max 0 (now - b.lastRefill) := by
        rcases le_total now b.lastRefill with hn | hn
        · rw [max_eq_left hn, max_eq_left (sub_nonpos.mpr hn), sub_self]
        · rw [max_eq_right hn, max_eq_right (sub_nonneg.mpr hn)]
      have htokens : (b.refill (policy.capacity : ℚ) policy.refillTokensPerSecond now).tokens =
          b.tokens + max 0 (now - b.lastRefill) * policy.refillTokensPerSecond := min_eq_right hpart
      rw [htokens, Bucket.refill_lastRefill, ← hadvance]
      unfold QuotaPolicy.allowance at hle ⊢
      linarith

/-- What a call takes is at most its cost if it is admitted, and nothing if it is not. -/
theorem consumeLocked_tokens (found : Option (Bucket ℚ)) (call : QuotaCall) :
    (consumeLocked policy found call.cost call.now).2.lastRefill = (refilled policy found call.now).lastRefill ∧
    (refilled policy found call.now).tokens - spent [(call, (consumeLocked policy found call.cost call.now).1)] ≤
      (consumeLocked policy found call.cost call.now).2.tokens := by
  rcases consumeLocked_cases policy found call.cost call.now with ⟨-, receipt, heq⟩ | ⟨-, heq⟩
  · rw [heq]
    have hspent : spent [(call, .ok receipt)] = call.cost := by simp [spent, admitted, Except.isOk, Except.toBool]
    rw [hspent]
    exact ⟨rfl, le_max_right _ _⟩
  · rw [heq]
    exact ⟨rfl, by simp [spent, admitted, Except.isOk, Except.toBool]⟩

/-- **Step**: a call leaves a drained bucket. -/
theorem consumeLocked_drained {found : Option (Bucket ℚ)} {mine : List (QuotaCall × QuotaAnswer)}
    (hnone : found = none → mine = [])
    (hsome : ∀ b, found = some b → mine ≠ [] ∧ b.lastRefill = highWater (readings mine) ∧ Drained policy mine b)
    (call : QuotaCall) :
    Drained policy (mine ++ [(call, (consumeLocked policy found call.cost call.now).1)])
      (consumeLocked policy found call.cost call.now).2 := by
  obtain ⟨hlast, htokens⟩ := @consumeLocked_tokens policy found call
  have hmark := @refilled_stamped policy found mine hnone (fun b hb => ⟨(hsome b hb).1, (hsome b hb).2.1⟩)
    (call, (consumeLocked policy found call.cost call.now).1)
  rcases @refilled_full_or_drained policy found mine (fun b hb => (hsome b hb).2.2) call.now with
    hfull | ⟨before, first, rest, hmine, hle⟩
  · -- the bucket was full: the stretch of this call alone
    refine ⟨mine, _, [], rfl, ?_⟩
    rw [hlast, hmark, QuotaPolicy.allowance, sub_self, mul_zero, add_zero, ← hfull]
    exact htokens
  · refine ⟨before, first, rest ++ [(call, (consumeLocked policy found call.cost call.now).1)], ?_, ?_⟩
    · rw [hmine, List.append_assoc, List.cons_append]
    · rw [hlast, ← List.cons_append, spent_append]
      linarith

/-- The bucket of a tenant in every reachable state is drained by the calls of the tenant. -/
theorem run_drained (hp : policies.get? tenantId = some policy) {evs : List (QuotaCall × QuotaAnswer)}
    {s : OrderedDict String (Bucket ℚ)} (h : (limiter policies).Run evs s) {b : Bucket ℚ}
    (hb : s.get? tenantId = some b) : Drained policy (served policy tenantId evs) b := by
  have hall := steps_tenant hp (I := fun mine found => (found = none → mine = []) ∧
    ∀ b, found = some b → mine ≠ [] ∧ b.lastRefill = highWater (readings mine) ∧ Drained policy mine b) ?_ h
    ⟨fun _ => rfl, fun b hb => by simp [limiter] at hb⟩
  · exact (hall.2 b hb).2.2
  · rintro mine found call - ⟨hnone, hsome⟩
    refine ⟨fun hnil => by simp at hnil, ?_⟩
    rintro _ ⟨⟩
    have hmark := @refilled_stamped policy found mine hnone (fun b hb => ⟨(hsome b hb).1, (hsome b hb).2.1⟩)
      (call, (consumeLocked policy found call.cost call.now).1)
    exact ⟨by simp, (@consumeLocked_tokens policy found call).1.trans hmark, consumeLocked_drained hnone hsome call⟩

/-- **Exactness**, with rational arithmetic.  In every reachable state, a call that a policy admits the cost of is
refused only if on some stretch of the calls of its tenant the admitted costs and its own exceed the capacity and the
flow; and it is refused whenever they do by more than the tolerances. -/
theorem consume_exact (hp : policies.get? tenantId = some policy) {evs : List (QuotaCall × QuotaAnswer)}
    {s : OrderedDict String (Bucket ℚ)} (h : (limiter policies).Run evs s) {call : QuotaCall}
    (ht : call.tenantId = tenantId) (hc : policy.Admissible call.cost) :
    ((consume policies s call).1.isOk = false → ∃ before first rest,
      served policy tenantId evs = before ++ first :: rest ∧
        policy.allowance (highWater (readings (before ++ [first])))
          (highWater (readings (served policy tenantId evs) ++ [call.now])) < spent (first :: rest) + call.cost) ∧
    (∀ before first rest, served policy tenantId evs = before ++ first :: rest →
      policy.allowance (highWater (readings (before ++ [first])))
          (highWater (readings (served policy tenantId evs) ++ [call.now])) +
            ((admitted (first :: rest)).length + 1) * admissionTolerance < spent (first :: rest) + call.cost →
        (consume policies s call).1.isOk = false) := by
  subst ht
  obtain ⟨hnone, hsome⟩ := run_bucket hp h
  rw [consume_of_admissible hp hc]
  have hnone' : s.get? call.tenantId = none → served policy call.tenantId evs = [] := hnone
  have hmark := @refilled_stamped policy (s.get? call.tenantId) (served policy call.tenantId evs) hnone'
    (fun b hb => ⟨(hsome b hb).1, (hsome b hb).2.stamped⟩)
  have hreadings : ∀ e : QuotaCall × QuotaAnswer, readings (served policy call.tenantId evs ++ [e]) =
      readings (served policy call.tenantId evs) ++ [e.1.now] := fun e => by simp [readings]
  constructor
  · intro hrefused
    rcases consumeLocked_cases policy (s.get? call.tenantId) call.cost call.now with ⟨-, receipt, heq⟩ | ⟨hlt, -⟩
    · rw [heq] at hrefused
      cases hrefused
    · have htol : (0 : ℚ) ≤ admissionTolerance := by norm_num [admissionTolerance]
      rcases @refilled_full_or_drained policy (s.get? call.tenantId) (served policy call.tenantId evs)
        (fun b hb => run_drained hp h hb) call.now with hfull | ⟨before, first, rest, hmine, hle⟩
      · rw [hfull] at hlt
        linarith [hc.2]
      · refine ⟨before, first, rest, hmine, ?_⟩
        rw [← hreadings (call, .ok ⟨0, 0, 0⟩), ← hmark (call, .ok ⟨0, 0, 0⟩)]
        linarith
  · intro before first rest hmine hexceeds
    by_contra hadmitted
    obtain ⟨answer, b, hr⟩ : ∃ answer b,
        consumeLocked policy (s.get? call.tenantId) call.cost call.now = (answer, b) := ⟨_, _, rfl⟩
    rw [hr] at hadmitted
    have hok : answer.isOk = true := by simpa using hadmitted
    obtain ⟨hw, hlast, hcov⟩ := consumeLocked_covered (fun b hb => (hsome b hb).2.within) hc hr
    obtain ⟨b₀, hb₀⟩ : ∃ b₀, s.get? call.tenantId = some b₀ := by
      cases hg : s.get? call.tenantId with
      | none => exact absurd (hmine.symm.trans (hnone hg)) (by simp)
      | some b₀ => exact ⟨b₀, rfl⟩
    have hbefore := (hsome b₀ hb₀).2.covered before first rest hmine
    have hflow := @Bucket.refill_tokens_le _ _ _ _ (policy.capacity : ℚ) policy.refillTokensPerSecond b₀ call.now
    have hspent : spent [(call, answer)] = call.cost := by simp [spent, admitted, hok]
    have hone : (admitted [(call, answer)]).length = 1 := by simp [admitted, hok]
    have hstamp := hmark (call, answer)
    rw [hreadings] at hstamp
    rw [hspent, hone] at hcov
    rw [hb₀, refilled_some] at hcov hstamp
    rw [← hstamp] at hexceeds
    have hpos := hw.nonneg
    unfold QuotaPolicy.allowance at hexceeds
    push_cast at hcov
    linarith

/-- The third call at once is refused: two tokens were allowed, and two are spent. -/
theorem consume_exact_polled : ∃ before first rest,
    served twoTokens "tenant-a"
        ((limiter (OrderedDict.empty.push "tenant-a" twoTokens)).trace [pollAt 100, pollAt 100]) =
      before ++ first :: rest ∧
      twoTokens.allowance (highWater (readings (before ++ [first]))) (highWater (readings (served twoTokens "tenant-a"
        ((limiter (OrderedDict.empty.push "tenant-a" twoTokens)).trace [pollAt 100, pollAt 100])) ++ [100])) <
        spent (first :: rest) + 1 :=
  (@consume_exact _ twoTokens "tenant-a" (OrderedDict.get?_push_self _ _ _) _ _
    (Machine.run_after _ [pollAt 100, pollAt 100]) (pollAt 100) rfl (by decide +kernel)).1 (by decide +kernel)

end Exactness

end Lucent.Access
