import Lucent.Access.Eviction
import Lucent.Hosted.Ledgers

/-!
# Lucent.Hosted.Holdings — a reservation stays with the request it was issued to

* `holder_unique`: two requests hold different reservations.
* `step_held`: what a request holds after a step it held before, or it was issued in the step.
* `run_held_open`: what a request holds, nobody has finalized; a submitted claim apart.
* `held_owned`: in time, the request owns the entry of what it holds.
-/

namespace Lucent.Hosted

open Lucent.Lib Lucent.Access Lucent.Payments Lucent.VerifiedSource

section Holdings

variable {env : Env} {evs : List Event} {s : Runtime} {n : StoreName} {r : Reservation ℚ}

/-! ## Who holds a reservation -/

/-- A token is brought by one step. -/
theorem token_event_unique (hfresh : Machine.Respects FreshToken evs) {e e' : Event} (he : e ∈ evs) (he' : e' ∈ evs)
    {token : String} (htoken : e.1.action.token? = some token) (htoken' : e'.1.action.token? = some token) : e = e' := by
  obtain ⟨pre, post, heq⟩ := List.append_of_mem he
  obtain ⟨pre', post', heq'⟩ := List.append_of_mem he'
  refine (Machine.split_unique (P := fun e : Event => e.1.action.token? = some token) ?_ heq htoken heq' htoken').2.1
  exact fun pre e post h htoken => hfresh pre e post h token htoken

theorem issues_draws_token (h : (machine env).Run evs s) {c : StoreEvent ℚ} (hc : c ∈ calls n evs)
    (hr : StoreEvent.Issues r c) : StoreEvent.Draws r.token c := by
  obtain ⟨d, hd, -, -⟩ := run_ledger (run_store h n)
  exact issues_draws hd hc hr

/-- A reservation is issued by a step of one request. -/
theorem issuer_unique (h : (machine env).Run evs s) (hfresh : Machine.Respects FreshToken evs) {e e' : Event}
    (he : e ∈ evs) (he' : e' ∈ evs) {c c' : StoreEvent ℚ} (hc : c ∈ callsOf n e) (hc' : c' ∈ callsOf n e')
    (hr : StoreEvent.Issues r c) (hr' : StoreEvent.Issues r c') : e = e' :=
  token_event_unique hfresh he he' (run_token h he hc (issues_draws_token h (mem_calls.mpr ⟨e, he, hc⟩) hr))
    (run_token h he' hc' (issues_draws_token h (mem_calls.mpr ⟨e', he', hc'⟩) hr'))

/-- The step that issued what a request holds. -/
theorem held_issuer (h : (machine env).Run evs s) {id : ℕ} (hheld : (s.phase id).held n = some r) :
    ∃ e ∈ evs, e.1.id = id ∧ ∃ c ∈ callsOf n e, StoreEvent.Issues r c := by
  obtain ⟨e, he, hid, t, k, f, token, heq⟩ := (run_backed h id).held hheld
  refine ⟨e, he, hid, (.reserve t k f token e.1.now, .decided (.reserved r)), ?_, rfl⟩
  rw [heq]
  exact List.mem_cons_self

/-- **Holder**: two requests do not hold the same reservation. -/
theorem holder_unique (h : (machine env).Run evs s) (hfresh : Machine.Respects FreshToken evs) {id id' : ℕ}
    (hheld : (s.phase id).held n = some r) (hheld' : (s.phase id').held n = some r) : id = id' := by
  obtain ⟨e, he, rfl, c, hc, hr⟩ := held_issuer h hheld
  obtain ⟨e', he', rfl, c', hc', hr'⟩ := held_issuer h hheld'
  rw [issuer_unique h hfresh he he' hc hc' hr hr']

/-! ## What a step does to it -/

/-- The claim of this phase is the tombstone of a submission. -/
def Phase.submitted : Phase → Prop
  | .settling .. => True
  | _ => False

theorem finalizes_commit {r' : Reservation ℚ} {response : IdempotencyResponse} {now : ℚ} {o : StoreOutcome ℚ}
    (h : StoreEvent.Finalizes r (.commit r' response now, o)) : r' = r ∧ o = .committed := by
  rcases o with _ | _ | _ | _ | _ | _
  · exact h.elim
  · exact ⟨h, rfl⟩
  all_goals exact h.elim

theorem finalizes_abort {r' : Reservation ℚ} {now : ℚ} {o : StoreOutcome ℚ}
    (h : StoreEvent.Finalizes r (.abort r' now, o)) : r' = r := by
  rcases o with _ | _ | ⟨_ | _⟩ | _ | _ | _
  · exact h.elim
  · exact h.elim
  · exact h.elim
  · exact h
  all_goals exact h.elim

theorem issues_reserve {t f token : String} {k : Option String} {now : ℚ} {o : StoreOutcome ℚ}
    (h : o = .decided (.reserved r)) : StoreEvent.Issues r (.reserve t k f token now, o) := by
  rw [h]
  rfl

/-- What finalizes a reservation is a call by its holder. -/
theorem StoreStep.finalizes {i : Step} {cs : List (StoreEvent ℚ)} {store : Store ℚ} (h : StoreStep env s i n cs store)
    {c : StoreEvent ℚ} (hc : c ∈ cs) (hf : StoreEvent.Finalizes r c) : (s.phase i.id).held n = some r := by
  cases h with
  | none => exact absurd hc List.not_mem_nil
  | reserve =>
    obtain rfl := List.mem_singleton.mp hc
    exact hf.elim
  | commit r' response hheld =>
    obtain rfl := List.mem_singleton.mp hc
    exact (finalizes_commit hf).1 ▸ hheld
  | abort r' hheld =>
    obtain rfl := List.mem_singleton.mp hc
    exact finalizes_abort hf ▸ hheld
  | release r' response hheld =>
    rcases List.mem_cons.mp hc with rfl | hc
    · exact (finalizes_commit hf).1 ▸ hheld
    · obtain rfl := List.mem_singleton.mp hc
      exact finalizes_abort hf ▸ hheld

theorem held_of_ne_claim (h : n ≠ .claim) (route : Route) (claim claim' : Option (Reservation ℚ)) :
    held n route claim = held n route claim' := by
  rcases n with _ | _ | _
  · rcases route with _ | _ | _ <;> rfl
  · rcases route with _ | _ | _ <;> rfl
  · exact absurd rfl h

/-- **Step lemma**: what a request holds after its step was issued in the step, or it held it before and the step did
not finalize it. -/
theorem step_held {i : Step} (hheld : ((step env s i).2.phase i.id).held n = some r)
    (hopen : n = .claim → ¬ ((step env s i).2.phase i.id).submitted) :
    (∃ c ∈ callsOf n (i, (step env s i).1), StoreEvent.Issues r c) ∨
    (s.phase i.id).held n = some r ∧ (n = .claim → ¬ (s.phase i.id).submitted) ∧
      ∀ c ∈ callsOf n (i, (step env s i).1), ¬ StoreEvent.Finalizes r c := by
  have hcase := step_case env s i
  generalize step env s i = x at hcase hheld hopen ⊢
  -- a phase that holds it as the one before did, and a step with no call that finalizes it
  have hsame : ∀ {phase : Phase} {cs : List (StoreEvent ℚ)}, s.phase i.id = phase → phase.held n = some r →
      ¬ phase.submitted → (∀ c ∈ cs, ¬ StoreEvent.Finalizes r c) →
      (∃ c ∈ cs, StoreEvent.Issues r c) ∨
      (s.phase i.id).held n = some r ∧ (n = .claim → ¬ (s.phase i.id).submitted) ∧
        ∀ c ∈ cs, ¬ StoreEvent.Finalizes r c := by
    rintro phase cs rfl hheld hnot hcalls
    exact .inr ⟨hheld, fun _ => hnot, hcalls⟩
  have hnil : ∀ c ∈ ([] : List (StoreEvent ℚ)), ¬ StoreEvent.Finalizes r c := fun c hc => absurd hc List.not_mem_nil
  cases hcase with
  | refused => rw [Runtime.setPhase_self] at hheld; exact nomatch hheld
  | opened => rw [Runtime.setPhase_self] at hheld; rcases n with _ | _ | _ <;> exact nomatch hheld
  | keyed request token _ fingerprint tenantId headers _ _ _ _ _ _ _ hcase =>
    rw [Runtime.setPhase_self] at hheld
    cases hcase with
    | issued r' hr' =>
      rcases n with _ | _ | _ <;> cases hheld
      exact .inl ⟨_, List.mem_cons_self, issues_reserve hr'⟩
    | replayed => exact nomatch hheld
    | refused => exact nomatch hheld
  | paying request token _ fingerprint signature _ _ _ _ _ _ _ hcase =>
    rw [Runtime.setPhase_self] at hheld
    cases hcase with
    | issued r' hr' =>
      rcases n with _ | _ | _ <;> cases hheld
      exact .inl ⟨_, List.mem_cons_self, issues_reserve hr'⟩
    | replayed => exact nomatch hheld
    | refused => exact nomatch hheld
  | rejected task e hphase => rw [Runtime.setPhase_self] at hheld; exact hsame hphase hheld id hnil
  | passed task baseline hphase => rw [Runtime.setPhase_self] at hheld; exact hsame hphase hheld id hnil
  | offered task baseline payment hphase =>
    rw [Runtime.setPhase_self] at hheld
    rcases n with _ | _ | _ <;> exact hsame hphase hheld id hnil
  | unverified task baseline payment e hphase => rw [Runtime.setPhase_self] at hheld; exact hsame hphase hheld id hnil
  | verified task baseline payment accepted answer hphase =>
    rw [Runtime.setPhase_self] at hheld
    exact hsame hphase hheld id hnil
  | claimed task baseline payment token reservation hphase haction hcall =>
    rw [Runtime.setPhase_self] at hheld
    have hbefore : ∀ {n}, n ≠ .claim → Phase.held n (.ready task baseline (some ⟨payment, reservation⟩)) = some r →
        Phase.held n (.verified task baseline payment) = some r := fun hn hheld =>
      (held_of_ne_claim hn ..).trans hheld
    rcases n with _ | _ | _
    · exact hsame hphase (hbefore nofun hheld) id hnil
    · exact hsame hphase (hbefore nofun hheld) id hnil
    · cases hheld
      exact .inl ⟨_, List.mem_cons_self, issues_reserve hcall⟩
  | unclaimed task baseline payment token e hphase =>
    rw [Runtime.setPhase_self] at hheld
    refine hsame hphase hheld id fun c hc hf => ?_
    rcases n with _ | _ | _
    · exact absurd hc List.not_mem_nil
    · exact absurd hc List.not_mem_nil
    · obtain rfl := List.mem_singleton.mp hc
      exact hf.elim
  | unbound task baseline paid e hphase => rw [Runtime.setPhase_self] at hheld; exact hsame hphase hheld id hnil
  | built task baseline paid answer body hphase => rw [Runtime.setPhase_self] at hheld; exact hsame hphase hheld id hnil
  | submitted task body paid hphase =>
    rw [Runtime.setPhase_self] at hheld hopen
    rcases n with _ | _ | _
    · exact hsame hphase hheld id hnil
    · exact hsame hphase hheld id hnil
    · exact absurd trivial (hopen rfl)
  | unsubmitted task body paid e hphase hcall =>
    rw [Runtime.setPhase_self] at hheld
    refine hsame hphase hheld id fun c hc hf => ?_
    rcases n with _ | _ | _
    · exact absurd hc List.not_mem_nil
    · exact absurd hc List.not_mem_nil
    · obtain rfl := List.mem_singleton.mp hc
      exact hcall (finalizes_commit hf).2
  | lost => rw [Runtime.setPhase_self] at hheld; exact nomatch hheld
  | settled => rw [Runtime.setPhase_self] at hheld; exact nomatch hheld
  | completed => rw [Runtime.setPhase_self] at hheld; exact nomatch hheld
  | unstorable task body e hphase => rw [Runtime.setPhase_self] at hheld; exact hsame hphase hheld id hnil
  | stored => rw [Runtime.setPhase_self] at hheld; exact nomatch hheld
  | miscounted task body headers reservation cached e hphase hroute hcall =>
    rw [Runtime.setPhase_self] at hheld
    refine hsame hphase hheld id fun c hc hf => ?_
    rcases n with _ | _ | _
    · obtain rfl := List.mem_singleton.mp hc
      exact hcall (finalizes_commit hf).2
    · exact absurd hc List.not_mem_nil
    · exact absurd hc List.not_mem_nil
  | unstored => rw [Runtime.setPhase_self] at hheld; exact nomatch hheld
  | aborted task claim error hphase =>
    rw [show (abort env s i.id i.now task claim error).2.phase i.id = .finished from Runtime.setPhase_self ..] at hheld
    exact nomatch hheld
  | cancelled => rw [Runtime.setPhase_self] at hheld; exact nomatch hheld
  | ignored => exact .inr ⟨hheld, hopen, hnil⟩

/-- **Run lemma**: what a request holds, nobody has finalized; the claim of a submission apart. -/
theorem run_held_open (h : (machine env).Run evs s) (hfresh : Machine.Respects FreshToken evs) {id : ℕ}
    (hheld : (s.phase id).held n = some r) (hopen : n = .claim → ¬ (s.phase id).submitted) :
    ∀ c ∈ calls n evs, ¬ StoreEvent.Finalizes r c := by
  induction evs using List.reverseRecOn generalizing s with
  | nil => exact fun c hc => absurd hc List.not_mem_nil
  | append_singleton evs e ih =>
    obtain ⟨s₁, h₁, hlast⟩ := Machine.steps_append_iff.mp h
    have hstep : step env s₁ e.1 = (e.2, s) := Machine.steps_singleton_iff.mp hlast
    have hstore := step_storeStep env s₁ e.1 n
    rw [hstep] at hstore
    intro c hc hf
    rw [calls_append, calls_singleton] at hc
    by_cases hid : id = e.1.id
    · subst hid
      have hcase := @step_held env s₁ n r e.1
      rw [hstep] at hcase
      rcases hcase hheld hopen with ⟨c', hc', hissues⟩ | ⟨hheld₁, hopen₁, hnone⟩
      · -- a reservation that is issued now was neither issued nor finalized before
        have htoken := run_token h (List.mem_append_right _ List.mem_cons_self) hc'
          (issues_draws_token h (mem_calls.mpr ⟨e, by simp, hc'⟩) hissues)
        have hnew : ∀ c'' ∈ calls n evs, ¬ StoreEvent.Issues r c'' := by
          intro c'' hc'' hissues''
          obtain ⟨e'', he'', hin⟩ := mem_calls.mp hc''
          exact hfresh evs e [] rfl _ htoken e'' he'' (run_token h₁ he'' hin (issues_draws_token h₁ hc'' hissues''))
        rcases List.mem_append.mp hc with hc | hc
        · obtain ⟨pre, post, heq⟩ := List.append_of_mem hc
          obtain ⟨c'', hc'', hissues''⟩ := hf.issued (run_legal h₁ hfresh.of_append n) heq
          exact hnew c'' (by simp [heq, hc'']) hissues''
        · obtain ⟨c'', hc'', hissues''⟩ := (run_backed h₁ e.1.id).issued (hstore.finalizes hc hf)
          exact hnew c'' hc'' hissues''
      · rcases List.mem_append.mp hc with hc | hc
        · exact ih h₁ hfresh.of_append hheld₁ hopen₁ c hc hf
        · exact hnone c hc hf
    · obtain ⟨phase, hphase⟩ := step_phase env s₁ e.1
      rw [hstep] at hphase
      have hsame : s.phase id = s₁.phase id := by
        rw [show s.phase = _ from hphase, Function.update_of_ne hid]
      rw [hsame] at hheld hopen
      rcases List.mem_append.mp hc with hc | hc
      · exact ih h₁ hfresh.of_append hheld hopen c hc hf
      · exact hid (holder_unique h₁ hfresh.of_append hheld (hstore.finalizes hc hf))

/-- **In time** a request owns the entry of what it holds. -/
theorem held_owned (h : (machine env).Run evs s) (hfresh : Machine.Respects FreshToken evs) {id : ℕ}
    (hheld : (s.phase id).held n = some r) (hopen : n = .claim → ¬ (s.phase id).submitted) {now : ℚ}
    (hclock : ∀ e ∈ evs, e.1.now ≤ now) (hnow : now < r.expiresAt) :
    ∃ d e, (Ledger.machine env.sha256 n.config).Run (calls n evs) d ∧ LedgerOk n.config d ∧
      n.store s = Store.ofEntries d ∧ d.get? (IdempotencyStore.cacheKey r) = some e ∧
      IdempotencyStore.owns (some e) r = true ∧ e.expiresAt = r.expiresAt := by
  obtain ⟨d, hd, hok, hstore⟩ := run_ledger (run_store h n)
  obtain ⟨c, hc, hissues⟩ := (run_backed h id).issued hheld
  obtain ⟨pre, mid, heq⟩ := List.append_of_mem hc
  have hmid : ∀ ev ∈ mid, ev ∈ calls n evs := fun ev hev => by simp [heq, hev]
  have hlegal := run_legal h hfresh n
  have hd' := hd
  rw [heq] at hd' hlegal
  obtain ⟨e, hk, hown, hexp⟩ := pending_kept hd' hlegal hissues
    (fun ev hev t ht => by
      obtain ⟨e, he, hcall⟩ := mem_calls.mp (hmid ev hev)
      rw [run_clock h he hcall ht]
      exact (hclock e he).trans_lt hnow)
    fun ev hev => run_held_open h hfresh hheld hopen ev (hmid ev hev)
  exact ⟨d, e, hd, hok, hstore, hk, hown, hexp⟩

/-- **In time** a request can commit on what it holds. -/
theorem held_commits (h : (machine env).Run evs s) (hfresh : Machine.Respects FreshToken evs) {id : ℕ}
    (hheld : (s.phase id).held n = some r) (hopen : n = .claim → ¬ (s.phase id).submitted) {now : ℚ}
    (hclock : ∀ e ∈ evs, e.1.now ≤ now) (hnow : now < r.expiresAt) {response : IdempotencyResponse}
    (hsize : response.sizeBytes ≤ n.config.maxResponseBytes) :
    (commitIn env now n.config (n.store s) r response).1.2 = .committed := by
  obtain ⟨d, e, -, hok, hstore, hk, hown, hexp⟩ := held_owned h hfresh hheld hopen hclock hnow
  have hcommit := Ledger.commit_ok_of_owns hk hown (hexp ▸ hnow) hsize
  have hstep := @StoreInv.step_eq ℚ _ _ _ _ n.config _ env.sha256 (StoreInv.of_ledger hok) (.commit r response now)
  rw [commitIn, hstore]
  refine (congrArg Prod.fst hstep).trans ?_
  rw [Store.ofEntries, Ledger.step_commit, Ledger.finish_fst, hcommit]

end Holdings

end Lucent.Hosted
