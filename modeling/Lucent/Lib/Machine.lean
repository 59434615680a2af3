import Mathlib.Data.List.Induction

/-!
# Lucent.Lib.Machine — runs of a state machine with outputs

A `Machine` answers every input with an output and a new state.  `Steps s evs s'` is a run from `s` to
`s'` whose events (inputs with the outputs they got) are `evs`; `Run evs s` is a run from the initial state.

* `Run.invariant`: an invariant that may look at the whole history, proved one event at a time.
* `Run.invariant_of_respects`: the same for runs whose every input is admissible after what came before it.
* `Steps.preserves`: a state predicate kept by every event of a kind is kept by a run of such events.
* `Run.simulate`: a machine whose steps another one matches has no run the other one lacks.
* `Steps.project`, `Respects.flatMap`: what a machine passes on to a component is a run of the component.
-/

namespace Lucent.Lib

/-- A state machine with inputs `ι` and outputs `ο`. -/
structure Machine (σ ι ο : Type) where
  init : σ
  step : σ → ι → ο × σ

namespace Machine

variable {σ ι ο : Type} (M : Machine σ ι ο)

/-- A run from one state to another, with its events in order. -/
inductive Steps : σ → List (ι × ο) → σ → Prop
  | nil (s : σ) : Steps s [] s
  | cons {s s' : σ} {i : ι} {o : ο} {evs : List (ι × ο)} {s'' : σ} :
      M.step s i = (o, s') → Steps s' evs s'' → Steps s ((i, o) :: evs) s''

/-- A run from the initial state. -/
def Run (evs : List (ι × ο)) (s : σ) : Prop := M.Steps M.init evs s

/-- The state after a sequence of inputs. -/
def after (inputs : List ι) : σ := inputs.foldl (fun s i => (M.step s i).2) M.init

/-- The events of a sequence of inputs. -/
def traceFrom : σ → List ι → List (ι × ο)
  | _, [] => []
  | s, i :: inputs => (i, (M.step s i).1) :: traceFrom (M.step s i).2 inputs

/-- The events of a sequence of inputs, from the initial state. -/
def trace (inputs : List ι) : List (ι × ο) := M.traceFrom M.init inputs

/-- Every input of the run is admissible after the events before it. -/
def Respects (legal : List (ι × ο) → ι → Prop) (evs : List (ι × ο)) : Prop :=
  ∀ pre e post, evs = pre ++ e :: post → legal pre e.1

variable {M}

theorem steps_nil_iff {s s' : σ} : M.Steps s [] s' ↔ s = s' := by
  constructor
  · rintro ⟨⟩; rfl
  · rintro rfl; exact .nil s

theorem steps_cons_iff {s s' : σ} {e : ι × ο} {evs : List (ι × ο)} :
    M.Steps s (e :: evs) s' ↔ ∃ s₁, M.step s e.1 = (e.2, s₁) ∧ M.Steps s₁ evs s' := by
  constructor
  · intro h
    cases h with
    | cons h1 h2 => exact ⟨_, h1, h2⟩
  · rintro ⟨s₁, h1, h2⟩
    exact .cons h1 h2

theorem steps_append_iff {s s' : σ} {evs evs' : List (ι × ο)} :
    M.Steps s (evs ++ evs') s' ↔ ∃ s₁, M.Steps s evs s₁ ∧ M.Steps s₁ evs' s' := by
  induction evs generalizing s with
  | nil => simp [steps_nil_iff]
  | cons e evs ih =>
    simp only [List.cons_append, steps_cons_iff, ih]
    constructor
    · rintro ⟨s₁, h1, s₂, h2, h3⟩; exact ⟨s₂, ⟨s₁, h1, h2⟩, h3⟩
    · rintro ⟨s₂, ⟨s₁, h1, h2⟩, h3⟩; exact ⟨s₁, h1, s₂, h2, h3⟩

theorem steps_singleton_iff {s s' : σ} {e : ι × ο} : M.Steps s [e] s' ↔ M.step s e.1 = (e.2, s') := by
  simp [steps_cons_iff, steps_nil_iff]

/-- A machine is deterministic: the events of a run determine where it ends. -/
theorem Steps.unique {s s₁ s₂ : σ} {evs : List (ι × ο)} (h1 : M.Steps s evs s₁) (h2 : M.Steps s evs s₂) :
    s₁ = s₂ := by
  induction h1 with
  | nil => exact steps_nil_iff.mp h2
  | cons h _ ih =>
    obtain ⟨t, ht, h2⟩ := steps_cons_iff.mp h2
    rw [h] at ht
    cases ht
    exact ih h2

theorem steps_traceFrom (s : σ) (inputs : List ι) :
    M.Steps s (M.traceFrom s inputs) (inputs.foldl (fun s i => (M.step s i).2) s) := by
  induction inputs generalizing s with
  | nil => exact .nil s
  | cons i inputs ih => exact .cons rfl (ih _)

theorem traceFrom_map_fst (s : σ) (inputs : List ι) : (M.traceFrom s inputs).map Prod.fst = inputs := by
  induction inputs generalizing s with
  | nil => rfl
  | cons i inputs ih => exact congrArg (i :: ·) (ih _)

/-- The events of a sequence of inputs are theirs, in order. -/
theorem trace_map_fst (M : Machine σ ι ο) (inputs : List ι) : (M.trace inputs).map Prod.fst = inputs :=
  traceFrom_map_fst M.init inputs

theorem fst_mem_of_mem_trace {M : Machine σ ι ο} {inputs : List ι} {e : ι × ο} (h : e ∈ M.trace inputs) :
    e.1 ∈ inputs :=
  M.trace_map_fst inputs ▸ List.mem_map_of_mem h

/-- The state after a sequence of inputs is reached by the run of their events. -/
theorem run_after (M : Machine σ ι ο) (inputs : List ι) : M.Run (M.trace inputs) (M.after inputs) :=
  steps_traceFrom M.init inputs

/-- A run that goes on after a step whose result is known. -/
theorem run_insert {M : Machine σ ι ο} {inputs : List ι} {i : ι} {r : ο × σ} (h : M.step (M.after inputs) i = r)
    (more : List ι) : M.Run (M.trace inputs ++ (i, r.1) :: M.traceFrom r.2 more)
      (more.foldl (fun s i => (M.step s i).2) r.2) :=
  steps_append_iff.mpr ⟨_, run_after M inputs, .cons h (steps_traceFrom _ more)⟩

/-- Cut a run at one of its events. -/
theorem Run.split {pre post : List (ι × ο)} {e : ι × ο} {s : σ} (h : M.Run (pre ++ e :: post) s) :
    ∃ s₁ s₂, M.Run pre s₁ ∧ M.step s₁ e.1 = (e.2, s₂) ∧ M.Run (pre ++ [e]) s₂ ∧ M.Steps s₂ post s := by
  obtain ⟨s₁, h1, h2⟩ := steps_append_iff.mp h
  obtain ⟨s₂, h2, h3⟩ := steps_cons_iff.mp h2
  exact ⟨s₁, s₂, h1, h2, steps_append_iff.mpr ⟨s₁, h1, steps_singleton_iff.mpr h2⟩, h3⟩

/-- An event of a kind that excludes an earlier event of the kind occurs at one place only. -/
theorem split_unique {α : Type} {P : α → Prop} {evs pre pre' post post' : List α} {e e' : α}
    (hfresh : ∀ pre e post, evs = pre ++ e :: post → P e → ∀ e' ∈ pre, ¬ P e')
    (h : evs = pre ++ e :: post) (he : P e) (h' : evs = pre' ++ e' :: post') (he' : P e') :
    pre = pre' ∧ e = e' ∧ post = post' := by
  rcases List.append_eq_append_iff.mp (h.symm.trans h') with ⟨a, ha, hb⟩ | ⟨a, ha, hb⟩
  · rcases a with _ | ⟨x, a⟩
    · rw [List.nil_append] at hb
      cases hb
      exact ⟨(List.append_nil _).symm.trans ha.symm, rfl, rfl⟩
    · cases hb
      exact absurd he (hfresh _ _ _ h' he' _ (by simp [ha]))
  · rcases a with _ | ⟨x, a⟩
    · rw [List.nil_append] at hb
      cases hb
      exact ⟨ha.trans (List.append_nil _), rfl, rfl⟩
    · cases hb
      exact absurd he' (hfresh _ _ _ h he _ (by simp [ha]))

/-- The last event of a kind occurs at one place only. -/
theorem split_last_unique {α : Type} {P : α → Prop} {evs pre pre' post post' : List α} {e e' : α}
    (h : evs = pre ++ e :: post) (he : P e) (hlast : ∀ x ∈ post, ¬ P x)
    (h' : evs = pre' ++ e' :: post') (he' : P e') (hlast' : ∀ x ∈ post', ¬ P x) : e = e' := by
  rcases List.append_eq_append_iff.mp (h.symm.trans h') with ⟨a, -, hb⟩ | ⟨a, -, hb⟩
  · rcases a with _ | ⟨x, a⟩ <;> cases hb
    · rfl
    · exact absurd he' (hlast _ (by simp))
  · rcases a with _ | ⟨x, a⟩ <;> cases hb
    · rfl
    · exact absurd he (hlast' _ (by simp))

/-- A relation between every two places of a history. -/
theorem pairwise_of_split {α : Type} {R : α → α → Prop} {evs : List α}
    (h : ∀ pre e mid e' post, evs = pre ++ e :: mid ++ e' :: post → R e e') : evs.Pairwise R := by
  induction evs with
  | nil => exact .nil
  | cons e evs ih =>
    refine List.pairwise_cons.mpr ⟨fun e' he' => ?_, ih fun pre a mid b post heq => ?_⟩
    · obtain ⟨mid, post, rfl⟩ := List.append_of_mem he'
      exact h [] e mid e' post rfl
    · exact h (e :: pre) a mid b post (congrArg (e :: ·) heq)

/-- Every event of a run is a step of it. -/
theorem Run.step_of_mem {evs : List (ι × ο)} {s : σ} (h : M.Run evs s) {e : ι × ο} (he : e ∈ evs) :
    ∃ s₁, (M.step s₁ e.1).1 = e.2 := by
  obtain ⟨pre, post, rfl⟩ := List.append_of_mem he
  obtain ⟨s₁, s₂, -, h2, -⟩ := h.split
  exact ⟨s₁, congrArg Prod.fst h2⟩

/-- A state predicate kept by every event of a kind is kept by a run of such events. -/
theorem Steps.preserves {I : σ → Prop} {ok : ι × ο → Prop} {s s' : σ} {evs : List (ι × ο)}
    (hstep : ∀ s i, I s → ok (i, (M.step s i).1) → I (M.step s i).2)
    (h : M.Steps s evs s') (hok : ∀ e ∈ evs, ok e) (hs : I s) : I s' := by
  induction h with
  | nil => exact hs
  | @cons s s₁ i o evs s₂ h1 _ ih =>
    refine ih (fun e he => hok e (List.mem_cons_of_mem _ he)) ?_
    have hi := hstep s i hs
    rw [h1] at hi
    exact hi (hok _ List.mem_cons_self)

theorem Respects.of_append {legal : List (ι × ο) → ι → Prop} {evs evs' : List (ι × ο)}
    (h : Respects legal (evs ++ evs')) : Respects legal evs := by
  rintro pre e post rfl
  exact h pre e (post ++ evs') (by simp)

theorem respects_nil (legal : List (ι × ο) → ι → Prop) : Respects legal [] := by
  intro pre e post h
  exact absurd h.symm (by simp)

theorem Respects.concat {legal : List (ι × ο) → ι → Prop} {evs : List (ι × ο)} {e : ι × ο}
    (h : Respects legal evs) (he : legal evs e.1) : Respects legal (evs ++ [e]) := by
  intro pre e' post heq
  rcases List.eq_nil_or_concat post with rfl | ⟨post, last, rfl⟩
  · obtain ⟨rfl, he'⟩ := List.append_inj' heq rfl
    cases he'
    exact he
  · rw [List.concat_eq_append, ← List.cons_append, ← List.append_assoc] at heq
    exact h pre e' post (List.append_inj' heq rfl).1

/-- **Invariant rule**, for runs whose inputs are admissible: the predicate may read the history. -/
theorem Run.invariant_of_respects {legal : List (ι × ο) → ι → Prop} {I : List (ι × ο) → σ → Prop}
    (h0 : I [] M.init)
    (hstep : ∀ evs s i, M.Run evs s → I evs s → legal evs i →
      I (evs ++ [(i, (M.step s i).1)]) (M.step s i).2) :
    ∀ {evs s}, M.Run evs s → Respects legal evs → I evs s := by
  intro evs
  induction evs using List.reverseRecOn with
  | nil =>
    intro s h _
    obtain rfl := steps_nil_iff.mp h
    exact h0
  | append_singleton evs e ih =>
    intro s h hl
    obtain ⟨s₁, h1, h2⟩ := steps_append_iff.mp h
    rw [steps_singleton_iff] at h2
    have hi := hstep evs s₁ e.1 h1 (ih h1 hl.of_append) (hl evs e [] rfl)
    rw [h2] at hi
    exact hi

/-- **Invariant rule** for all runs. -/
theorem Run.invariant {I : List (ι × ο) → σ → Prop} (h0 : I [] M.init)
    (hstep : ∀ evs s i, M.Run evs s → I evs s → I (evs ++ [(i, (M.step s i).1)]) (M.step s i).2)
    {evs : List (ι × ο)} {s : σ} (h : M.Run evs s) : I evs s := by
  have hl : Respects (fun (_ : List (ι × ο)) (_ : ι) => True) evs := fun _ _ _ _ => trivial
  exact Run.invariant_of_respects h0 (fun evs s i hr hi _ => hstep evs s i hr hi) h hl

/-- **Simulation rule**: if `N` answers every input as `M` does, from related states into related states, then
every run of `M` is a run of `N`. -/
theorem Run.simulate {σ' : Type} {N : Machine σ' ι ο} {R : σ → σ' → Prop} (h0 : R M.init N.init)
    (hstep : ∀ s t i, R s t → (M.step s i).1 = (N.step t i).1 ∧ R (M.step s i).2 (N.step t i).2)
    {evs : List (ι × ο)} {s : σ} (h : M.Run evs s) : ∃ t, N.Run evs t ∧ R s t := by
  refine Run.invariant (I := fun evs s => ∃ t, N.Run evs t ∧ R s t) ⟨N.init, .nil _, h0⟩ ?_ h
  rintro evs s i - ⟨t, ht, hst⟩
  obtain ⟨h1, h2⟩ := hstep s t i hst
  exact ⟨_, steps_append_iff.mpr ⟨t, ht, steps_singleton_iff.mpr (Prod.ext h1.symm rfl)⟩, h2⟩

/-- **Projection rule**: the calls of a component, as the events of the whole show them, are a run of the component. -/
theorem Steps.project {σ' ι' ο' : Type} {N : Machine σ' ι' ο'} {view : σ → σ'} {calls : ι × ο → List (ι' × ο')}
    (hstep : ∀ s i, N.Steps (view s) (calls (i, (M.step s i).1)) (view (M.step s i).2))
    {s s' : σ} {evs : List (ι × ο)} (h : M.Steps s evs s') : N.Steps (view s) (evs.flatMap calls) (view s') := by
  induction h with
  | nil s => exact .nil (view s)
  | @cons s s₁ i o evs s₂ h1 _ ih =>
    have hcalls := hstep s i
    rw [h1] at hcalls
    exact steps_append_iff.mpr ⟨view s₁, hcalls, ih⟩

theorem Respects.append {legal : List (ι × ο) → ι → Prop} {evs evs' : List (ι × ο)} (h : Respects legal evs)
    (h' : ∀ pre e post, evs' = pre ++ e :: post → legal (evs ++ pre) e.1) : Respects legal (evs ++ evs') := by
  induction evs' using List.reverseRecOn with
  | nil => rwa [List.append_nil]
  | append_singleton evs' e ih =>
    rw [← List.append_assoc]
    refine (ih fun pre e' post heq => ?_).concat (h' evs' e [] rfl)
    exact h' pre e' (post ++ [e]) (by rw [heq, List.append_assoc, List.cons_append])

/-- The calls of a component are admissible, if those of every event are. -/
theorem Respects.flatMap {ι' ο' : Type} {legal : List (ι' × ο') → ι' → Prop} {calls : ι × ο → List (ι' × ο')}
    {evs : List (ι × ο)} (h : ∀ pre e post, evs = pre ++ e :: post → ∀ pre' c post', calls e = pre' ++ c :: post' →
      legal (pre.flatMap calls ++ pre') c.1) : Respects legal (evs.flatMap calls) := by
  induction evs using List.reverseRecOn with
  | nil => exact respects_nil legal
  | append_singleton evs e ih =>
    rw [List.flatMap_append, List.flatMap_singleton]
    refine (ih fun pre e' post heq => ?_).append (h evs e [] rfl)
    exact h pre e' (post ++ [e]) (by rw [heq, List.append_assoc, List.cons_append])

end Machine

end Lucent.Lib
