import Mathlib.Algebra.Order.Field.Basic
import Mathlib.Data.List.Induction
import Mathlib.Tactic.Linarith
import Mathlib.Tactic.Ring

/-!
# Lucent.Lib.TokenBucket — a bucket that refills at a rate up to a capacity

A `Bucket` holds tokens and the latest clock reading it was refilled up to.  The arithmetic of one bucket, over
any ordered field and without any assumption on the order of the readings.

* `Bucket.refill_refill`: refilling at two readings is refilling at the later one, so polling changes nothing.
* `Bucket.cost_add_take_le`, `Bucket.refill_tokens_le`: the two halves of a rate bound; taking is paid by the
  tokens up to the tolerance, and refilling adds no more than the rate times the advance of `lastRefill`.
* `Bucket.affords_refill_iff`: the exact time from which a refused cost is affordable.
* `highWater`: the running maximum of a list of readings.
-/


namespace Lucent.Lib

/-- Tokens, and the latest reading they were refilled up to. -/
@[ext] structure Bucket (K : Type) where
  tokens : K
  lastRefill : K
deriving DecidableEq

namespace Bucket

variable {K : Type} [Field K] [LinearOrder K] [IsStrictOrderedRing K]

/-- Add what has flowed in since `lastRefill`, up to the capacity; a reading in the past adds nothing. -/
def refill (capacity rate : K) (b : Bucket K) (now : K) : Bucket K :=
  ⟨min capacity (b.tokens + max 0 (now - b.lastRefill) * rate), max b.lastRefill now⟩

/-- Take a cost, down to the empty bucket. -/
def take (b : Bucket K) (cost : K) : Bucket K := ⟨max 0 (b.tokens - cost), b.lastRefill⟩

/-- The tokens lie between nothing and the capacity. -/
structure Within (capacity : K) (b : Bucket K) : Prop where
  nonneg : 0 ≤ b.tokens
  le : b.tokens ≤ capacity

omit [IsStrictOrderedRing K] in
@[simp] theorem refill_lastRefill (capacity rate : K) (b : Bucket K) (now : K) :
    (b.refill capacity rate now).lastRefill = max b.lastRefill now := rfl

omit [IsStrictOrderedRing K] in
@[simp] theorem take_lastRefill (b : Bucket K) (cost : K) : (b.take cost).lastRefill = b.lastRefill := rfl

variable {capacity rate : K} {b : Bucket K}

theorem Within.refill (h : b.Within capacity) (hr : 0 ≤ rate) (now : K) :
    (b.refill capacity rate now).Within capacity := by
  have hflow : 0 ≤ max 0 (now - b.lastRefill) * rate := mul_nonneg (le_max_left _ _) hr
  exact ⟨le_min (h.nonneg.trans h.le) (add_nonneg h.nonneg hflow), min_le_left _ _⟩

theorem Within.take (h : b.Within capacity) {cost : K} (hc : 0 ≤ cost) : (b.take cost).Within capacity :=
  ⟨le_max_left _ _, max_le (h.nonneg.trans h.le) ((sub_le_self _ hc).trans h.le)⟩

/-- A reading that is not ahead of the bucket refills nothing. -/
theorem Within.refill_of_le (h : b.Within capacity) {now : K} (hn : now ≤ b.lastRefill) :
    b.refill capacity rate now = b := by
  ext
  · simp only [Bucket.refill, max_eq_left (sub_nonpos.mpr hn), zero_mul, add_zero, min_eq_right h.le]
  · exact max_eq_left hn

/-- Refilling at two readings is refilling at the later one. -/
theorem refill_refill (hr : 0 ≤ rate) (t u : K) :
    (b.refill capacity rate t).refill capacity rate u = b.refill capacity rate (max t u) := by
  have helapsed : max 0 (t - b.lastRefill) + max 0 (u - max b.lastRefill t) = max 0 (max t u - b.lastRefill) := by
    rcases le_total t b.lastRefill with ht | ht
    · rw [max_eq_left ht, max_eq_left (sub_nonpos.mpr ht), zero_add]
      rcases le_total u t with hu | hu
      · rw [max_eq_left hu, max_eq_left (sub_nonpos.mpr (hu.trans ht)), max_eq_left (sub_nonpos.mpr ht)]
      · rw [max_eq_right hu]
    · rw [max_eq_right ht, max_eq_right (sub_nonneg.mpr ht)]
      rcases le_total u t with hu | hu
      · rw [max_eq_left hu, max_eq_left (sub_nonpos.mpr hu), max_eq_right (sub_nonneg.mpr ht), add_zero]
      · rw [max_eq_right hu, max_eq_right (sub_nonneg.mpr hu), max_eq_right (sub_nonneg.mpr (ht.trans hu))]
        ring
  have hflow : 0 ≤ max 0 (u - max b.lastRefill t) * rate := mul_nonneg (le_max_left _ _) hr
  ext
  · have hassoc : b.tokens + max 0 (t - b.lastRefill) * rate + max 0 (u - max b.lastRefill t) * rate =
        b.tokens + max 0 (max t u - b.lastRefill) * rate := by rw [← helapsed]; ring
    simp only [refill]
    rw [← hassoc, ← min_add_add_right, ← min_assoc, min_eq_left (le_add_of_nonneg_right hflow)]
  · exact max_assoc _ _ _

/-- What is taken, and what is left, come out of the tokens up to the tolerance of the admission. -/
theorem cost_add_take_le {cost tolerance : K} (ht : 0 ≤ tolerance) (h : cost ≤ b.tokens + tolerance) :
    cost + (b.take cost).tokens ≤ b.tokens + tolerance := by
  rcases le_total 0 (b.tokens - cost) with hle | hle
  · simp only [take, max_eq_right hle]
    linarith
  · simp only [take, max_eq_left hle]
    linarith

/-- A refill adds no more than the rate times the advance of `lastRefill`. -/
theorem refill_tokens_le (now : K) : (b.refill capacity rate now).tokens ≤
    b.tokens + rate * ((b.refill capacity rate now).lastRefill - b.lastRefill) := by
  have hadvance : max b.lastRefill now - b.lastRefill = max 0 (now - b.lastRefill) := by
    rcases le_total now b.lastRefill with hn | hn
    · rw [max_eq_left hn, max_eq_left (sub_nonpos.mpr hn), sub_self]
    · rw [max_eq_right hn, max_eq_right (sub_nonneg.mpr hn)]
  rw [refill_lastRefill, hadvance, mul_comm rate]
  exact min_le_right _ _

/-- From which reading on a bucket affords a cost up to the tolerance. -/
theorem affords_refill_iff (hr : 0 < rate) {cost tolerance now : K} (hc : cost ≤ capacity) (ht : 0 ≤ tolerance)
    (hn : b.lastRefill ≤ now) : cost ≤ (b.refill capacity rate now).tokens + tolerance ↔
      b.lastRefill + (cost - b.tokens) / rate - tolerance / rate ≤ now := by
  have hcap : cost ≤ capacity + tolerance := hc.trans (le_add_of_nonneg_right ht)
  have hshift : b.lastRefill + (cost - b.tokens) / rate - tolerance / rate =
      b.lastRefill + (cost - b.tokens - tolerance) / rate := by ring
  simp only [refill, max_eq_right (sub_nonneg.mpr hn)]
  rw [← min_add_add_right, le_min_iff, and_iff_right hcap, hshift, ← le_sub_iff_add_le', div_le_iff₀ hr]
  constructor <;> intro h <;> linarith

end Bucket

/-! ### The running maximum of the readings -/

section HighWater

variable {K : Type} [LinearOrder K] [Zero K]

/-- The largest of the readings taken so far. -/
def highWater : List K → K
  | [] => 0
  | t :: ts => ts.foldl max t

@[simp] theorem highWater_singleton (t : K) : highWater [t] = t := rfl

theorem highWater_concat {ts : List K} (h : ts ≠ []) (t : K) : highWater (ts ++ [t]) = max (highWater ts) t := by
  obtain ⟨t₀, ts, rfl⟩ := List.exists_cons_of_ne_nil h
  simp [highWater]

theorem highWater_mem {ts : List K} (h : ts ≠ []) : highWater ts ∈ ts := by
  induction ts using List.reverseRecOn with
  | nil => exact absurd rfl h
  | append_singleton ts t ih =>
    rcases eq_or_ne ts [] with rfl | hts
    · exact List.mem_cons_self
    · rw [highWater_concat hts]
      rcases max_choice (highWater ts) t with hm | hm <;> rw [hm]
      · exact List.mem_append_left _ (ih hts)
      · exact List.mem_append_right _ List.mem_cons_self

end HighWater

end Lucent.Lib
