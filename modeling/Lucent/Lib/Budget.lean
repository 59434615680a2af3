import Mathlib.Algebra.Order.Monoid.Canonical.Defs
import Lucent.Lib.Checked

/-!
# Lucent.Lib.Budget — computations that count what they use

A computation with a state keeps meters in it, and fails once a meter would pass its limit.
`Within meter limit allowed budget x`: from every state with room for the budget, `x` uses no more than that, and
whatever error it ends in is an allowed one.  The rules follow the shape of a `do` block.

* `within_pure`, `Within.stateless`, `Within.bind`, `Within.mono`: budgets add up along a block.
* `within_get_bind`, `kept_rejectIf_bind`: a check of a meter against its limit, which is never the one that fails.
* `Fine allowed x`: the same for checks and pure computations, which use nothing.
-/


namespace Lucent.Lib

variable {ε σ α β : Type}

/-! ### Errors of pure computations -/

/-- Every error of a pure computation is an allowed one. -/
def Fine (allowed : ε → Prop) (x : Except ε α) : Prop := ∀ failure, x = .error failure → allowed failure

section Fine

variable {allowed : ε → Prop}

theorem fine_ok (a : α) : Fine allowed (.ok a : Except ε α) := nofun

theorem fine_error {failure : ε} (h : allowed failure) : Fine allowed (.error failure : Except ε α) := by
  rintro _ ⟨⟩
  exact h

theorem Fine.bind {x : Except ε α} {f : α → Except ε β} (hx : Fine allowed x) (hf : ∀ a, Fine allowed (f a)) :
    Fine allowed (x >>= f) := by
  rcases x with failure | a
  · rintro _ ⟨⟩
    exact hx failure rfl
  · exact hf a

theorem fine_rejectIf {c : Prop} [Decidable c] {failure : ε} (h : allowed failure) :
    Fine allowed (rejectIf c failure) := by
  unfold rejectIf
  split_ifs
  · exact fine_error h
  · exact fine_ok ()

theorem fine_elim {x : Option α} {failure : ε} (h : allowed failure) : Fine allowed (x.elim (.error failure) .ok) := by
  cases x with
  | none => exact fine_error h
  | some a => exact fine_ok a

theorem fine_mapError {ε' : Type} {x : Except ε' α} {f : ε' → ε} (h : ∀ failure, allowed (f failure)) :
    Fine allowed (x.mapError f) := by
  rcases x with failure | a
  · exact fine_error (h failure)
  · exact fine_ok a

theorem fine_forM {f : α → Except ε PUnit} (h : ∀ a, Fine allowed (f a)) (l : List α) : Fine allowed (l.forM f) := by
  induction l with
  | nil => exact fine_ok _
  | cons a l ih => exact (h a).bind fun _ => ih

end Fine

/-! ### Computations with meters -/

section Within

variable {M : Type} [AddCommMonoid M] [PartialOrder M] [IsOrderedAddMonoid M] [CanonicallyOrderedAdd M]

/-- Where a computation ended, within a budget. -/
def Kept (meter : σ → M) (allowed : ε → σ → Prop) (bound : M) : EStateM.Result ε σ α → Prop
  | .ok _ s => meter s ≤ bound
  | .error failure s => meter s ≤ bound ∧ allowed failure s

/-- The computation uses no more than the budget, if the limit leaves room for it. -/
def Within (meter : σ → M) (limit : M) (allowed : ε → σ → Prop) (budget : M) (x : EStateM ε σ α) : Prop :=
  ∀ s, meter s + budget ≤ limit → Kept meter allowed (meter s + budget) (x s)

variable {meter : σ → M} {limit budget budget' : M} {allowed : ε → σ → Prop}

omit [AddCommMonoid M] [IsOrderedAddMonoid M] [CanonicallyOrderedAdd M] in
theorem Kept.mono {bound bound' : M} {r : EStateM.Result ε σ α} (h : Kept meter allowed bound r) (hle : bound ≤ bound') :
    Kept meter allowed bound' r := by
  cases r with
  | ok a s => exact le_trans h hle
  | error failure s => exact ⟨h.1.trans hle, h.2⟩

omit [CanonicallyOrderedAdd M] in
theorem Within.mono {x : EStateM ε σ α} (h : Within meter limit allowed budget x) (hle : budget ≤ budget') :
    Within meter limit allowed budget' x := by
  intro s hs
  have hless : meter s + budget ≤ meter s + budget' := by gcongr
  exact (h s (hless.trans hs)).mono hless

omit [IsOrderedAddMonoid M] [CanonicallyOrderedAdd M] in
theorem within_pure (a : α) : Within meter limit allowed 0 (pure a : EStateM ε σ α) :=
  fun s _ => (add_zero (meter s)).ge

omit [IsOrderedAddMonoid M] [CanonicallyOrderedAdd M] in
theorem Within.stateless {x : Except ε α} (h : ∀ s, Fine (fun failure => allowed failure s) x) :
    Within meter limit allowed 0 (stateless x) := by
  intro s _
  rcases x with failure | a
  · exact ⟨(add_zero (meter s)).ge, h s failure rfl⟩
  · exact (add_zero (meter s)).ge

omit [IsOrderedAddMonoid M] [CanonicallyOrderedAdd M] in
theorem within_modify {f : σ → σ} (h : ∀ s, meter (f s) = meter s + budget) :
    Within meter limit allowed budget (modify f : EStateM ε σ PUnit) :=
  fun s _ => (h s).le

theorem Within.bind {x : EStateM ε σ α} {f : α → EStateM ε σ β} (hx : Within meter limit allowed budget x)
    (hf : ∀ a, Within meter limit allowed budget' (f a)) : Within meter limit allowed (budget + budget') (x >>= f) := by
  intro s hs
  have hfirst : meter s + budget ≤ limit := le_trans (by rw [← add_assoc]; exact le_self_add) hs
  have hkept := hx s hfirst
  show Kept meter allowed _ (EStateM.bind x f s)
  unfold EStateM.bind
  cases hr : x s with
  | error failure s₁ =>
    rw [hr] at hkept
    exact Kept.mono (r := .error failure s₁) hkept (by rw [← add_assoc]; exact le_self_add)
  | ok a s₁ =>
    rw [hr] at hkept
    have hle : meter s₁ + budget' ≤ meter s + (budget + budget') := by
      rw [← add_assoc]
      exact add_le_add_left hkept budget'
    exact (hf a s₁ (hle.trans hs)).mono hle

omit [IsOrderedAddMonoid M] [CanonicallyOrderedAdd M] in
/-- A block that reads the state first: its check of a meter may use that there is room. -/
theorem within_get_bind {f : σ → EStateM ε σ α}
    (h : ∀ s, meter s + budget ≤ limit → Kept meter allowed (meter s + budget) (f s s)) :
    Within meter limit allowed budget (get >>= f) := h

omit [AddCommMonoid M] [IsOrderedAddMonoid M] [CanonicallyOrderedAdd M] in
theorem kept_rejectIf_bind {c : Prop} [Decidable c] {failure : ε} {f : Unit → EStateM ε σ α} {s : σ} {bound : M}
    (hle : meter s ≤ bound) (hfail : c → allowed failure s) (hpass : ¬ c → Kept meter allowed bound (f () s)) :
    Kept meter allowed bound ((stateless (rejectIf c failure) >>= f) s) := by
  show Kept meter allowed _ (EStateM.bind _ f s)
  unfold EStateM.bind stateless rejectIf
  by_cases hc : c
  · simp only [if_pos hc]
    exact ⟨hle, hfail hc⟩
  · simp only [if_neg hc]
    exact hpass hc

end Within

end Lucent.Lib
