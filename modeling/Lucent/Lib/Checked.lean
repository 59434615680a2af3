import Mathlib.Data.List.Forall2

/-!
# Lucent.Lib.Checked — computations that may fail, and what their success says

Validators are `do` blocks in `Except`: steps that return a value, and checks (`rejectIf`).  Success is turned around
one step at a time: `bind_eq_ok` peels the first step off, `rejectIf_eq_ok` reads a check, `elim_ok_eq_ok` a value
that has to be there, `mapM_eq_ok` a loop.  `FailsWith` says of which kind the failures are, one step at a time too,
and `Agrees` that two computations fail alike.
-/

namespace Lucent.Lib

variable {ε ε' α β : Type}

/-- Fail when the condition holds. -/
def rejectIf (c : Prop) [Decidable c] (failure : ε) : Except ε Unit := if c then .error failure else .ok ()

theorem bind_eq_ok {x : Except ε α} {f : α → Except ε β} {b : β} : x >>= f = .ok b ↔ ∃ a, x = .ok a ∧ f a = .ok b := by
  rcases x with e | a
  · exact ⟨nofun, nofun⟩
  · refine ⟨fun h => ⟨a, rfl, h⟩, ?_⟩
    rintro ⟨_, ⟨⟩, h⟩
    exact h

theorem pure_eq_ok {a b : α} : (pure a : Except ε α) = .ok b ↔ a = b := Except.ok.injEq a b ▸ Iff.rfl

theorem rejectIf_eq_ok {c : Prop} [Decidable c] {failure : ε} {u : Unit} : rejectIf c failure = .ok u ↔ ¬ c := by
  unfold rejectIf
  split_ifs with h
  · exact ⟨nofun, fun hc => absurd h hc⟩
  · exact ⟨fun _ => h, fun _ => rfl⟩

/-- A check in front of the rest. -/
theorem rejectIf_bind_eq_ok {c : Prop} [Decidable c] {failure : ε} {f : Unit → Except ε β} {b : β} :
    rejectIf c failure >>= f = .ok b ↔ ¬ c ∧ f () = .ok b := by
  refine bind_eq_ok.trans ⟨?_, fun h => ⟨(), rejectIf_eq_ok.mpr h.1, h.2⟩⟩
  rintro ⟨_, h, hf⟩
  exact ⟨rejectIf_eq_ok.mp h, hf⟩

/-- A failure is the check's, or comes after it. -/
theorem rejectIf_bind_eq_error {c : Prop} [Decidable c] {failure e : ε} {f : Unit → Except ε β}
    (h : rejectIf c failure >>= f = .error e) : e = failure ∨ f () = .error e := by
  unfold rejectIf at h
  split_ifs at h
  · exact .inl (Except.error.inj h).symm
  · exact .inr h

theorem mapError_eq_ok {f : ε → ε'} {x : Except ε α} {a : α} : x.mapError f = .ok a ↔ x = .ok a := by
  rcases x with e | b
  · exact ⟨nofun, nofun⟩
  · exact Iff.of_eq (by rw [Except.mapError, Except.ok.injEq, Except.ok.injEq])

/-- A value that has to be there. -/
theorem elim_eq_ok {o : Option α} {e : ε} {f : α → Except ε β} {b : β} :
    o.elim (.error e) f = .ok b ↔ ∃ a, o = some a ∧ f a = .ok b := by
  rcases o with _ | a
  · exact ⟨nofun, fun ⟨_, h, _⟩ => nomatch h⟩
  · refine ⟨fun h => ⟨a, rfl, h⟩, ?_⟩
    rintro ⟨_, ⟨⟩, h⟩
    exact h

theorem elim_ok_eq_ok {o : Option α} {e : ε} {a : α} : o.elim (.error e) .ok = (.ok a : Except ε α) ↔ o = some a := by
  refine elim_eq_ok.trans ⟨?_, fun h => ⟨a, h, rfl⟩⟩
  rintro ⟨_, h, ⟨⟩⟩
  exact h

/-- A loop that succeeds has one result for each turn. -/
theorem mapM_eq_ok {f : α → Except ε β} {l : List α} {l' : List β} :
    l.mapM f = .ok l' ↔ List.Forall₂ (fun a b => f a = .ok b) l l' := by
  induction l generalizing l' with
  | nil =>
    rw [List.mapM_nil, pure_eq_ok, List.forall₂_nil_left_iff]
    exact eq_comm
  | cons a l ih =>
    rw [List.mapM_cons, bind_eq_ok, List.forall₂_cons_left_iff]
    constructor
    · rintro ⟨b, hb, h⟩
      obtain ⟨bs, hbs, h⟩ := bind_eq_ok.mp h
      exact ⟨b, bs, hb, ih.mp hbs, (pure_eq_ok.mp h).symm⟩
    · rintro ⟨b, bs, hb, hbs, rfl⟩
      exact ⟨b, hb, bind_eq_ok.mpr ⟨bs, ih.mpr hbs, rfl⟩⟩

/-- A loop whose turns succeed succeeds. -/
theorem exists_mapM_eq_ok {f : α → Except ε β} {l : List α} (h : ∀ a ∈ l, ∃ b, f a = .ok b) :
    ∃ l', l.mapM f = .ok l' := by
  induction l with
  | nil => exact ⟨[], rfl⟩
  | cons a l ih =>
    obtain ⟨b, hb⟩ := h a List.mem_cons_self
    obtain ⟨l', hl'⟩ := ih fun c hc => h c (List.mem_cons_of_mem a hc)
    exact ⟨b :: l', mapM_eq_ok.mpr (.cons hb (mapM_eq_ok.mp hl'))⟩

/-- Every result of a loop comes from a turn of it. -/
theorem exists_of_mapM {f : α → Except ε β} {l : List α} {l' : List β} (h : l.mapM f = .ok l') {b : β} (hb : b ∈ l') :
    ∃ a ∈ l, f a = .ok b := by
  have hall := mapM_eq_ok.mp h
  clear h
  induction hall with
  | nil => exact absurd hb List.not_mem_nil
  | @cons a c l l' hac hrest ih =>
    rcases List.mem_cons.mp hb with rfl | hb
    · exact ⟨a, List.mem_cons_self, hac⟩
    · obtain ⟨a', ha', h⟩ := ih hb
      exact ⟨a', List.mem_cons_of_mem a ha', h⟩

/-- A loop that succeeds has a result of each turn. -/
theorem exists_of_mem_mapM {f : α → Except ε β} {l : List α} {l' : List β} (h : l.mapM f = .ok l') {a : α}
    (ha : a ∈ l) : ∃ b ∈ l', f a = .ok b := by
  have hall := mapM_eq_ok.mp h
  clear h
  induction hall with
  | nil => exact absurd ha List.not_mem_nil
  | @cons c b l l' hcb hrest ih =>
    rcases List.mem_cons.mp ha with rfl | ha
    · exact ⟨b, List.mem_cons_self, hcb⟩
    · obtain ⟨b', hb', h⟩ := ih ha
      exact ⟨b', List.mem_cons_of_mem b hb', h⟩

/-! ## Failures of a kind -/

/-- Every failure of the computation is of a kind. -/
def FailsWith (P : ε → Prop) (x : Except ε α) : Prop := ∀ e, x = .error e → P e

namespace FailsWith

variable {P : ε → Prop} {x : Except ε α}

theorem ok (a : α) : FailsWith P (.ok a : Except ε α) := fun _ h => nomatch h

theorem error {e : ε} (h : P e) : FailsWith P (.error e : Except ε α) := by
  intro e' he
  cases he
  exact h

theorem bind {f : α → Except ε β} (hx : FailsWith P x) (hf : ∀ a, FailsWith P (f a)) : FailsWith P (x >>= f) := by
  intro e he
  rcases x with e' | a
  · obtain rfl := Except.error.inj he
    exact hx _ rfl
  · exact hf a e he

theorem rejectIf {c : Prop} [Decidable c] {failure : ε} (h : P failure) : FailsWith P (rejectIf c failure) := by
  unfold Lib.rejectIf
  split_ifs
  · exact .error h
  · exact .ok ()

/-- A value that has to be there. -/
theorem elim {o : Option α} {e : ε} {f : α → Except ε β} (h : P e) (hf : ∀ a, FailsWith P (f a)) :
    FailsWith P (o.elim (.error e) f) := by
  rcases o with _ | a
  · exact .error h
  · exact hf a

theorem mapError {f : ε → ε'} {Q : ε' → Prop} (hx : FailsWith P x) (hf : ∀ e, P e → Q (f e)) :
    FailsWith Q (x.mapError f) := by
  rcases x with e | a
  · exact .error (hf e (hx e rfl))
  · exact .ok a

end FailsWith

/-! ## Two computations -/

/-- Both fail, with the same failure, or both succeed, with related values. -/
def Agrees (R : α → β → Prop) (x : Except ε α) (y : Except ε β) : Prop :=
  (∃ e, x = .error e ∧ y = .error e) ∨ ∃ a b, x = .ok a ∧ y = .ok b ∧ R a b

namespace Agrees

variable {α' β' γ : Type} {R : α → β → Prop} {R' : α' → β' → Prop}

theorem refl (x : Except ε α) : Agrees Eq x x := by
  rcases x with e | a
  · exact .inl ⟨e, rfl, rfl⟩
  · exact .inr ⟨a, a, rfl, rfl, rfl⟩

theorem bind {x : Except ε α} {y : Except ε β} {f : α → Except ε α'} {g : β → Except ε β'} (h : Agrees R x y)
    (hf : ∀ a b, R a b → Agrees R' (f a) (g b)) : Agrees R' (x >>= f) (y >>= g) := by
  rcases h with ⟨e, rfl, rfl⟩ | ⟨a, b, rfl, rfl, hab⟩
  · exact .inl ⟨e, rfl, rfl⟩
  · exact hf a b hab

/-- Loops over the same items, whose turns agree. -/
theorem foldlM {f : α → γ → Except ε α} {g : β → γ → Except ε β}
    (hturn : ∀ a b c, R a b → Agrees R (f a c) (g b c)) (l : List γ) {a : α} {b : β} (h : R a b) :
    Agrees R (l.foldlM f a) (l.foldlM g b) := by
  induction l generalizing a b with
  | nil => exact .inr ⟨a, b, rfl, rfl, h⟩
  | cons c l ih =>
    rw [List.foldlM_cons, List.foldlM_cons]
    exact (hturn a b c h).bind fun _ _ h' => ih h'

end Agrees

/-! ## With a state -/

section State

variable {σ : Type}

/-- A check or a pure computation among steps that pass a state on; a failure keeps the state it happened in. -/
def stateless (x : Except ε α) : EStateM ε σ α := fun s =>
  match x with
  | .ok a => .ok a s
  | .error failure => .error failure s

theorem run_bind_eq_ok {x : EStateM ε σ α} {f : α → EStateM ε σ β} {s s' : σ} {b : β} :
    (x >>= f) s = .ok b s' ↔ ∃ a s₁, x s = .ok a s₁ ∧ f a s₁ = .ok b s' := by
  show EStateM.bind x f s = .ok b s' ↔ _
  unfold EStateM.bind
  rcases x s with ⟨a, s₁⟩ | ⟨failure, s₁⟩
  · refine ⟨fun h => ⟨a, s₁, rfl, h⟩, ?_⟩
    rintro ⟨_, _, ⟨⟩, h⟩
    exact h
  · exact ⟨nofun, fun ⟨_, _, h, _⟩ => nomatch h⟩

theorem stateless_eq_ok {x : Except ε α} {s s' : σ} {a : α} :
    (stateless x : EStateM ε σ α) s = .ok a s' ↔ x = .ok a ∧ s' = s := by
  rcases x with e | b
  · exact ⟨nofun, fun h => nomatch h.1⟩
  · constructor
    · rintro ⟨⟩
      exact ⟨rfl, rfl⟩
    · rintro ⟨⟨⟩, rfl⟩
      rfl

theorem run_pure_eq_ok {s s' : σ} {a b : α} : (pure a : EStateM ε σ α) s = .ok b s' ↔ a = b ∧ s = s' := by
  constructor
  · rintro ⟨⟩
    exact ⟨rfl, rfl⟩
  · rintro ⟨rfl, rfl⟩
    rfl

/-- A pure computation in front of the rest. -/
theorem stateless_bind_eq_ok {x : Except ε α} {f : α → EStateM ε σ β} {s s' : σ} {b : β} :
    ((stateless x : EStateM ε σ α) >>= f) s = .ok b s' ↔ ∃ a, x = .ok a ∧ f a s = .ok b s' := by
  refine run_bind_eq_ok.trans ⟨?_, fun ⟨a, hx, hf⟩ => ⟨a, s, stateless_eq_ok.mpr ⟨hx, rfl⟩, hf⟩⟩
  rintro ⟨a, _, hstep, hf⟩
  obtain ⟨hx, rfl⟩ := stateless_eq_ok.mp hstep
  exact ⟨a, hx, hf⟩

/-- A check in front of the rest. -/
theorem stateless_rejectIf_bind_eq_ok {c : Prop} [Decidable c] {failure : ε} {f : Unit → EStateM ε σ β}
    {s s' : σ} {b : β} :
    ((stateless (rejectIf c failure) : EStateM ε σ Unit) >>= f) s = .ok b s' ↔ ¬ c ∧ f () s = .ok b s' :=
  stateless_bind_eq_ok.trans
    ⟨fun ⟨_, hpass, hf⟩ => ⟨rejectIf_eq_ok.mp hpass, hf⟩, fun ⟨hpass, hf⟩ => ⟨(), rejectIf_eq_ok.mpr hpass, hf⟩⟩

end State

end Lucent.Lib
