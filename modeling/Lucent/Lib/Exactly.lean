import Lucent.Lib.Checked

/-!
# Lucent.Lib.Exactly — what a computation returns, exactly

`Exactly room k x p`: from every state with room for `k` more steps, `x` returns a value that meets `p` whenever it
returns, leaves the room it has not used, and does return each value that meets `p`.  Both halves go through a `do`
block together, so a block of checks and calls becomes an existential of what each part returns.
-/

namespace Lucent.Lib

variable {ε σ α β : Type} {room : ℕ → σ → Prop} {k l : ℕ}

/-- The values that a computation returns are those that meet `p`, where there is room. -/
def Exactly (room : ℕ → σ → Prop) (k : ℕ) (x : EStateM ε σ α) (p : α → Prop) : Prop :=
  ∀ left s, room (left + k) s →
    (∀ a s', x s = .ok a s' → p a ∧ room left s') ∧ ∀ a, p a → ∃ s', x s = .ok a s'

theorem exactly_pure (a : α) : Exactly room 0 (pure a : EStateM ε σ α) (· = a) := by
  intro left s hroom
  refine ⟨fun b s' h => ?_, ?_⟩
  · obtain ⟨rfl, rfl⟩ := run_pure_eq_ok.mp h
    exact ⟨rfl, hroom⟩
  · rintro _ rfl
    exact ⟨s, rfl⟩

theorem exactly_stateless (x : Except ε α) : Exactly room 0 (stateless x) (x = .ok ·) := by
  intro left s hroom
  refine ⟨fun a s' h => ?_, fun a h => ⟨s, stateless_eq_ok.mpr ⟨h, rfl⟩⟩⟩
  obtain ⟨hx, rfl⟩ := stateless_eq_ok.mp h
  exact ⟨hx, hroom⟩

/-- A block: what the rest returns after something the first part returns. -/
theorem Exactly.bind {x : EStateM ε σ α} {f : α → EStateM ε σ β} {p : α → Prop} {q : α → β → Prop}
    (hx : Exactly room k x p) (hf : ∀ a, p a → Exactly room l (f a) (q a)) :
    Exactly room (k + l) (x >>= f) fun b => ∃ a, p a ∧ q a b := by
  intro left s hroom
  have hfirst : room (left + l + k) s := by rwa [Nat.add_assoc, Nat.add_comm l k]
  obtain ⟨hsound, hcomplete⟩ := hx (left + l) s hfirst
  constructor
  · intro b s' h
    obtain ⟨a, s₁, hstep, hrest⟩ := run_bind_eq_ok.mp h
    obtain ⟨hp, hleft⟩ := hsound a s₁ hstep
    obtain ⟨hq, hend⟩ := (hf a hp left s₁ hleft).1 b s' hrest
    exact ⟨⟨a, hp, hq⟩, hend⟩
  · rintro b ⟨a, hp, hq⟩
    obtain ⟨s₁, hstep⟩ := hcomplete a hp
    obtain ⟨-, hleft⟩ := hsound a s₁ hstep
    obtain ⟨s', hrest⟩ := (hf a hp left s₁ hleft).2 b hq
    exact ⟨s', run_bind_eq_ok.mpr ⟨a, s₁, hstep, hrest⟩⟩

/-- The same values, said otherwise. -/
theorem Exactly.congr {x : EStateM ε σ α} {p q : α → Prop} (hx : Exactly room k x p) (h : ∀ a, p a ↔ q a) :
    Exactly room k x q := by
  obtain rfl : p = q := funext fun a => propext (h a)
  exact hx

/-- More room does not change what is returned. -/
theorem Exactly.mono {x : EStateM ε σ α} {p : α → Prop} (hroom : ∀ {m n s}, m ≤ n → room n s → room m s)
    (hx : Exactly room k x p) (hle : k ≤ l) : Exactly room l x p := by
  intro left s h
  have hsplit : left + l = left + (l - k) + k := by omega
  rw [hsplit] at h
  obtain ⟨hsound, hcomplete⟩ := hx (left + (l - k)) s h
  refine ⟨fun a s' hstep => ?_, hcomplete⟩
  obtain ⟨hp, hleft⟩ := hsound a s' hstep
  exact ⟨hp, hroom (Nat.le_add_right _ _) hleft⟩

/-- A pure computation in front of the rest. -/
theorem Exactly.after {x : Except ε α} {f : α → EStateM ε σ β} {q : α → β → Prop}
    (hf : ∀ a, x = .ok a → Exactly room k (f a) (q a)) :
    Exactly room k (stateless x >>= f) fun b => ∃ a, x = .ok a ∧ q a b := by
  have h := (exactly_stateless x).bind hf
  rwa [Nat.zero_add] at h

/-- A check in front of the rest. -/
theorem Exactly.unless {c : Prop} [Decidable c] {failure : ε} {x : EStateM ε σ β} {q : β → Prop}
    (hx : ¬ c → Exactly room k x q) :
    Exactly room k ((stateless (rejectIf c failure) : EStateM ε σ Unit) >>= fun _ => x) fun b => ¬ c ∧ q b := by
  refine (Exactly.after fun _ hpass => hx (rejectIf_eq_ok.mp hpass)).congr fun b => ⟨?_, ?_⟩
  · rintro ⟨_, hpass, hq⟩
    exact ⟨rejectIf_eq_ok.mp hpass, hq⟩
  · rintro ⟨hpass, hq⟩
    exact ⟨(), rejectIf_eq_ok.mpr hpass, hq⟩

/-- A computation that always fails. -/
theorem exactly_error (failure : ε) : Exactly room 0 (stateless (.error failure) : EStateM ε σ α) fun _ => False :=
  (exactly_stateless _).congr fun _ => ⟨fun h => (by cases h), False.elim⟩

end Lucent.Lib
