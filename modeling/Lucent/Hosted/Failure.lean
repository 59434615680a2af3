import Lucent.Access.Withdrawal
import Lucent.Hosted.Charge

/-!
# Lucent.Hosted.Failure — a payment that fails before it is submitted

* `Unsettled evs s id`: the request has ended, neither cancelled nor with a tombstone committed.
* `step_aborts`, `run_aborts`: what such a request was issued it holds, or it has aborted.
* `others_drawn`: on a store of the paying clients, the calls of a request are those with its tokens.
* `unsettled_leaves_nothing`: the stores are what the accepted calls of the others have made of them.
-/

namespace Lucent.Hosted

open Lucent.Lib Lucent.Access Lucent.Payments Lucent.VerifiedSource

/-- The tokens that a request has brought. -/
def drawn (id : ℕ) (evs : List Event) : List String :=
  evs.filterMap fun e => if e.1.id = id then e.1.action.token? else none

/-- The calls of the other requests that were not refused. -/
def callsOfOthers (n : StoreName) (id : ℕ) (evs : List Event) : List (StoreEvent ℚ) :=
  (calls n (evs.filter fun e => decide (e.1.id ≠ id))).filter fun c => c.2.accepted

/-- The request has ended, neither cancelled nor with a tombstone committed. -/
structure Unsettled (evs : List Event) (s : Runtime) (id : ℕ) : Prop where
  finished : s.phase id = .finished
  uncancelled : ∀ e ∈ evs, e.1.id = id → e.1.action ≠ .cancel
  uncommitted : ∀ e ∈ evs, e.1.id = id → ∀ c ∈ callsOf .claim e, c.2 ≠ .committed

section Failures

variable {env : Env} {evs pre post : List Event} {s : Runtime} {n : StoreName} {r : Reservation ℚ} {id : ℕ} {e : Event}
  {c : StoreEvent ℚ}

/-! ## The calls of a request -/

/-- The stores of the paying clients evict nothing. -/
theorem keeps_of_ne_access (hn : n ≠ .access) : n.config.evictCompletedEntries = false := by
  rcases n with _ | _ | _
  · exact absurd rfl hn
  · rfl
  · rfl

theorem mem_drawn {token : String} :
    token ∈ drawn id evs ↔ ∃ e ∈ evs, e.1.id = id ∧ e.1.action.token? = some token := by
  simp [drawn, List.mem_filterMap]

/-- A call is made with the token of its step, or with that of what the request holds. -/
theorem StoreStep.token? {i : Step} {cs : List (StoreEvent ℚ)} {store : Store ℚ} (h : StoreStep env s i n cs store)
    (hc : c ∈ cs) : (∃ token, c.1.token? = some token ∧ i.action.token? = some token) ∨
      ∃ r, c.1.token? = some r.token ∧ (s.phase i.id).held n = some r := by
  cases h with
  | none => exact absurd hc List.not_mem_nil
  | reserve tenantId key fingerprint token htoken =>
    obtain rfl := List.mem_singleton.mp hc
    exact .inl ⟨token, rfl, htoken⟩
  | commit r response hheld =>
    obtain rfl := List.mem_singleton.mp hc
    exact .inr ⟨r, rfl, hheld⟩
  | abort r hheld =>
    obtain rfl := List.mem_singleton.mp hc
    exact .inr ⟨r, rfl, hheld⟩
  | release r response hheld =>
    rcases List.mem_cons.mp hc with rfl | hc
    · exact .inr ⟨r, rfl, hheld⟩
    · obtain rfl := List.mem_singleton.mp hc
      exact .inr ⟨r, rfl, hheld⟩

theorem abortIn_outcome (env : Env) (now : ℚ) (cfg : StoreConfig ℚ) (store : Store ℚ) (reservation : Reservation ℚ) :
    (abortIn env now cfg store reservation).1.2 ≠ .committed := by
  unfold abortIn IdempotencyStore.step IdempotencyStore.finish
  dsimp only
  split
  · exact nofun
  · exact nofun

/-- Only a commit returns as one. -/
theorem StoreStep.committed {i : Step} {cs : List (StoreEvent ℚ)} {store : Store ℚ} (h : StoreStep env s i n cs store)
    (hc : c ∈ cs) (hcommitted : c.2 = .committed) : ∃ r response, c = (.commit r response i.now, .committed) := by
  cases h with
  | none => exact absurd hc List.not_mem_nil
  | reserve tenantId key fingerprint token =>
    obtain rfl := List.mem_singleton.mp hc
    obtain ⟨decision, hcall⟩ | ⟨e, hcall⟩ :=
      reserveIn_outcome env i.now n.config (n.store s) tenantId key fingerprint token
    · cases hcall.symm.trans hcommitted
    · cases hcall.symm.trans hcommitted
  | commit r response =>
    obtain rfl := List.mem_singleton.mp hc
    exact ⟨r, response, Prod.ext rfl hcommitted⟩
  | abort r =>
    obtain rfl := List.mem_singleton.mp hc
    exact absurd hcommitted (abortIn_outcome _ _ _ _ _)
  | release r response =>
    rcases List.mem_cons.mp hc with rfl | hc
    · exact ⟨r, response, Prod.ext rfl hcommitted⟩
    · obtain rfl := List.mem_singleton.mp hc
      exact absurd hcommitted (abortIn_outcome _ _ _ _ _)

/-- A request makes its calls with tokens it has brought. -/
theorem run_drawn (h : (machine env).Run evs s) (he : e ∈ evs) (hc : c ∈ callsOf n e) :
    ∃ token, c.1.token? = some token ∧ token ∈ drawn e.1.id evs := by
  obtain ⟨pre, post, rfl⟩ := List.append_of_mem he
  obtain ⟨s₁, s₂, hpre, hstep, -⟩ := run_storeStep h n
  rcases hstep.token? hc with ⟨token, hctoken, htoken⟩ | ⟨r, hctoken, hheld⟩
  · exact ⟨token, hctoken, mem_drawn.mpr ⟨e, he, rfl, htoken⟩⟩
  · obtain ⟨e', he', hid, c', hc', hissues⟩ := held_issuer hpre hheld
    have htoken := run_token hpre he' hc' (issues_draws_token hpre (mem_calls.mpr ⟨e', he', hc'⟩) hissues)
    exact ⟨r.token, hctoken, mem_drawn.mpr ⟨e', List.mem_append_left _ he', hid, htoken⟩⟩

/-- A fresh token is brought by one request. -/
theorem drawn_disjoint (hfresh : Machine.Respects FreshToken evs) {id' : ℕ} {token : String} (h : token ∈ drawn id evs)
    (h' : token ∈ drawn id' evs) : id = id' := by
  obtain ⟨e, he, rfl, htoken⟩ := mem_drawn.mp h
  obtain ⟨e', he', rfl, htoken'⟩ := mem_drawn.mp h'
  rw [token_event_unique hfresh he he' htoken htoken']

theorem by_drawn_iff (h : (machine env).Run evs s) (hfresh : Machine.Respects FreshToken evs) (he : e ∈ evs)
    (hc : c ∈ callsOf n e) : c.1.by (drawn id evs) = true ↔ e.1.id = id := by
  obtain ⟨token, hctoken, hdrawn⟩ := run_drawn h he hc
  rw [StoreOp.by_iff hctoken]
  refine ⟨fun hmem => drawn_disjoint hfresh hdrawn hmem, ?_⟩
  rintro rfl
  exact hdrawn

/-- **The others**: the accepted calls with other tokens are those of the other requests. -/
theorem others_drawn (h : (machine env).Run evs s) (hfresh : Machine.Respects FreshToken evs) {evs' : List Event}
    (hsub : evs' ⊆ evs) : others (drawn id evs) (calls n evs') = callsOfOthers n id evs' := by
  induction evs' with
  | nil => rfl
  | cons e evs' ih =>
    have he : e ∈ evs := hsub List.mem_cons_self
    rw [calls_cons, others_append, ih fun e' he' => hsub (List.mem_cons_of_mem _ he')]
    unfold callsOfOthers
    by_cases hid : e.1.id = id
    · rw [List.filter_cons_of_neg (by simpa using hid)]
      have hnone : others (drawn id evs) (callsOf n e) = [] := by
        refine List.filter_eq_nil_iff.mpr fun c hc => ?_
        rw [(by_drawn_iff h hfresh he hc).mpr hid, Bool.not_true, Bool.and_false]
        exact Bool.false_ne_true
      rw [hnone, List.nil_append]
    · rw [List.filter_cons_of_pos (by simpa using hid), calls_cons, List.filter_append]
      congr 1
      refine List.filter_congr fun c hc => ?_
      have hnot : c.1.by (drawn id evs) = false :=
        Bool.eq_false_iff.mpr fun hby => hid ((by_drawn_iff h hfresh he hc).mp hby)
      rw [hnot, Bool.not_false, Bool.and_true]

/-! ## What a failed request has aborted -/

/-- What a step issues, the request holds. -/
theorem step_issues_held {i : Step} (hc : c ∈ callsOf n (i, (step env s i).1)) (hr : StoreEvent.Issues r c) :
    ((step env s i).2.phase i.id).held n = some r := by
  have hcase := step_case env s i
  generalize step env s i = x at hcase hc ⊢
  -- the call is a reservation, and it was issued
  have hissued : ∀ {call : StoreEvent ℚ}, c ∈ [call] → call.2 = .decided (.reserved r) := by
    intro call hc
    rw [← List.mem_singleton.mp hc]
    exact issues_outcome hr
  cases hcase with
  | keyed request token quota fingerprint tenantId headers emitted phase hphase haction hfingerprint hpath hheaders
      hcase =>
    rw [Runtime.setPhase_self]
    rcases n with _ | _ | _ <;> cases hcase
    case access.issued r' hr' =>
      obtain rfl : r' = r := by simpa using hr'.symm.trans (hissued hc)
      rfl
    case access.replayed cached response hcall hreplay => cases hcall.symm.trans (hissued hc)
    case access.refused error hnot _ => exact absurd (hissued hc) (hnot r)
    all_goals exact absurd hc List.not_mem_nil
  | paying request token quota fingerprint signature emitted phase hphase haction hfingerprint hpath hsignature hcase =>
    rw [Runtime.setPhase_self]
    rcases n with _ | _ | _ <;> cases hcase
    case result.issued r' hr' =>
      obtain rfl : r' = r := by simpa using hr'.symm.trans (hissued hc)
      rfl
    case result.replayed cached response hcall hreplay => cases hcall.symm.trans (hissued hc)
    case result.refused error hnot _ => exact absurd (hissued hc) (hnot r)
    all_goals exact absurd hc List.not_mem_nil
  | claimed task baseline payment token reservation hphase haction hcall =>
    rw [Runtime.setPhase_self]
    rcases n with _ | _ | _
    · exact absurd hc List.not_mem_nil
    · exact absurd hc List.not_mem_nil
    · obtain rfl : reservation = r := by simpa using hcall.symm.trans (hissued hc)
      rfl
  | unclaimed task baseline payment token e hphase haction hcall =>
    rcases n with _ | _ | _
    · exact absurd hc List.not_mem_nil
    · exact absurd hc List.not_mem_nil
    · exact absurd (hissued hc) (hcall r)
  | aborted =>
    obtain ⟨op, o⟩ := c
    obtain ⟨r', rfl⟩ := abort_calls hc
    exact hr.elim
  | unstored =>
    rcases n with _ | _ | _
    · rcases List.mem_cons.mp hc with rfl | hc
      · exact hr.elim
      · obtain rfl := List.mem_singleton.mp hc
        exact hr.elim
    · exact absurd hc List.not_mem_nil
    · exact absurd hc List.not_mem_nil
  | _ =>
    rcases n with _ | _ | _
    all_goals first
      | exact absurd hc List.not_mem_nil
      | exact (List.mem_singleton.mp hc ▸ hr).elim

/-- **Step lemma**: what a request holds on a store of the paying clients it goes on holding, or aborts; unless its task
is cancelled, or the tombstone committed. -/
theorem step_aborts (hn : n ≠ .access) {i : Step} (hbacked : Backed env evs i.id (s.phase i.id))
    (hheld : (s.phase i.id).held n = some r) (hcancel : i.action ≠ .cancel) (hopen : ¬ (s.phase i.id).submitted) :
    ((step env s i).2.phase i.id).held n = some r ∨ ∃ o, (.abort r i.now, o) ∈ callsOf n (i, (step env s i).1) := by
  have hcase := step_case env s i
  generalize step env s i = x at hcase ⊢
  -- a phase that holds what the one before held
  have hsame : ∀ {s' : Runtime} {phase phase' : Phase} {cs : List (StoreEvent ℚ)}, s.phase i.id = phase →
      phase'.held n = phase.held n →
      ((s'.setPhase i.id phase').phase i.id).held n = some r ∨ ∃ o, (.abort r i.now, o) ∈ cs := by
    rintro s' phase phase' cs rfl hsame
    rw [Runtime.setPhase_self, hsame]
    exact .inl hheld
  -- the task of an API key holds nothing here
  have hkeyed : ∀ {task : Task} {body : Bytes} {headers : Headers} {reservation : Reservation ℚ},
      s.phase i.id = .built task body none → task.route ≠ .apiKey headers reservation := by
    intro task body headers reservation hphase hroute
    rw [hphase, Phase.held, hroute] at hheld
    rcases n with _ | _ | _
    · exact hn rfl
    · cases hheld
    · cases hheld
  cases hcase with
  | refused _ hphase => rw [hphase] at hheld; cases hheld
  | opened _ _ _ _ hphase => rw [hphase] at hheld; cases hheld
  | keyed _ _ _ _ _ _ _ _ hphase => rw [hphase] at hheld; cases hheld
  | paying _ _ _ _ _ _ _ hphase => rw [hphase] at hheld; cases hheld
  | rejected _ _ hphase => exact hsame hphase rfl
  | passed _ _ hphase => exact hsame hphase rfl
  | offered _ _ _ hphase => exact hsame hphase rfl
  | unverified _ _ _ _ hphase => exact hsame hphase rfl
  | verified _ _ _ _ _ hphase => exact hsame hphase rfl
  | claimed task baseline payment token reservation hphase =>
    rcases n with _ | _ | _
    · exact absurd rfl hn
    · exact hsame hphase (held_of_ne_claim (fun h => by cases h) ..)
    · rw [hphase] at hheld
      cases hheld
  | unclaimed _ _ _ _ _ hphase => exact hsame hphase rfl
  | unbound _ _ _ _ hphase => exact hsame hphase rfl
  | built _ _ _ _ _ hphase => exact hsame hphase rfl
  | submitted _ _ _ hphase => exact hsame hphase rfl
  | unsubmitted _ _ _ _ hphase => exact hsame hphase rfl
  | lost _ _ _ _ _ hphase => rw [hphase] at hopen; exact absurd trivial hopen
  | settled _ _ _ _ _ _ _ _ hphase => rw [hphase] at hopen; exact absurd trivial hopen
  | completed task body hphase hroute =>
    rw [hphase] at hbacked hheld
    obtain ⟨-, baseline, ⟨now, hcheck⟩, -⟩ := hbacked
    rcases n with _ | _ | _
    · exact absurd rfl hn
    · rcases hroute' : task.route with _ | _ | ⟨signature, r'⟩
      · rw [Phase.held, hroute'] at hheld
        cases hheld
      · exact absurd hroute' (hroute _ _)
      · exact absurd hroute' (checkRequest_unpaid hcheck _ _)
    · cases hheld
  | unstorable _ _ _ hphase => exact hsame hphase rfl
  | stored _ _ _ _ _ hphase _ hroute => exact absurd hroute (hkeyed hphase)
  | miscounted _ _ _ _ _ _ hphase hroute => exact absurd hroute (hkeyed hphase)
  | unstored _ _ _ _ _ hphase hroute => exact absurd hroute (hkeyed hphase)
  | aborted task claim error hphase =>
    rw [hphase] at hheld
    refine .inr ?_
    unfold abort abortKey abortClaim
    rcases n with _ | _ | _
    · exact absurd rfl hn
    · rcases hroute : task.route with _ | _ | ⟨signature, r'⟩ <;> rw [Phase.held, hroute] at hheld
      · cases hheld
      · cases hheld
      · cases hheld
        rcases claim with _ | _ <;> exact ⟨_, List.mem_cons_self⟩
    · obtain rfl : claim = some r := hheld
      rcases task.route with _ | _ | _ <;> exact ⟨_, List.mem_cons_self⟩
  | cancelled haction => exact absurd haction hcancel
  | ignored => exact .inl hheld

/-- A request without a tombstone has not submitted. -/
theorem not_submitted (h : (machine env).Run evs s)
    (hcommit : ∀ e ∈ evs, e.1.id = id → ∀ c ∈ callsOf .claim e, c.2 ≠ .committed) : ¬ (s.phase id).submitted := by
  intro hsubmitted
  have hbacked := run_backed h id
  rcases hphase : s.phase id with _ | _ | _ | _ | _ | _ | ⟨task, body, paid⟩ | _ | _ <;>
    rw [hphase] at hsubmitted hbacked
  case settling =>
    obtain ⟨-, baseline, -, -, e, he, hid, heq⟩ := hbacked
    exact hcommit e he hid (_, .committed) (by rw [callsOf, heq]; exact List.mem_cons_self) rfl
  all_goals exact hsubmitted

/-- **Run lemma**: what a request was issued it holds, or it has aborted. -/
theorem run_aborts (h : (machine env).Run evs s) (hn : n ≠ .access)
    (hcancel : ∀ e ∈ evs, e.1.id = id → e.1.action ≠ .cancel)
    (hcommit : ∀ e ∈ evs, e.1.id = id → ∀ c ∈ callsOf .claim e, c.2 ≠ .committed) (he : e ∈ evs) (hid : e.1.id = id)
    (hc : c ∈ callsOf n e) (hr : StoreEvent.Issues r c) :
    (s.phase id).held n = some r ∨ Recalls evs id fun e => ∃ o, (.abort r e.1.now, o) ∈ callsOf n e := by
  induction evs using List.reverseRecOn generalizing s with
  | nil => exact absurd he List.not_mem_nil
  | append_singleton evs last ih =>
    obtain ⟨s₁, h₁, hlast⟩ := Machine.steps_append_iff.mp h
    have hstep : step env s₁ last.1 = (last.2, s) := Machine.steps_singleton_iff.mp hlast
    have hcommit₁ : ∀ e ∈ evs, e.1.id = id → ∀ c ∈ callsOf .claim e, c.2 ≠ .committed := fun e he =>
      hcommit e (List.mem_append_left _ he)
    rcases List.mem_append.mp he with he | he
    · rcases ih h₁ (fun e he => hcancel e (List.mem_append_left _ he)) hcommit₁ he with hheld | haborted
      · by_cases hlastid : last.1.id = id
        · subst hlastid
          have hcase := step_aborts hn (run_backed h₁ last.1.id) hheld (hcancel last (by simp) rfl)
            (not_submitted h₁ hcommit₁)
          rw [hstep] at hcase
          exact hcase.imp_right fun haborts => .last rfl haborts
        · obtain ⟨phase, hphase⟩ := step_phase env s₁ last.1
          rw [hstep] at hphase
          have hsame : s.phase id = s₁.phase id := by
            rw [show s.phase = _ from hphase, Function.update_of_ne (Ne.symm hlastid)]
          exact .inl (hsame ▸ hheld)
      · exact .inr (haborted.concat last)
    · obtain rfl := List.mem_singleton.mp he
      subst hid
      have hheld := @step_issues_held env s₁ n r c e.1
      rw [hstep] at hheld
      exact .inl (hheld hc hr)

namespace Unsettled

/-- Its calls commit nothing. -/
theorem not_committed (h : (machine env).Run evs s) (hend : Unsettled evs s id) (hn : n ≠ .access) (he : e ∈ evs)
    (hid : e.1.id = id) (hc : c ∈ callsOf n e) : c.2 ≠ .committed := by
  rcases n with _ | _ | _
  · exact absurd rfl hn
  · intro hcommitted
    obtain ⟨i, o⟩ := e
    subst hid
    obtain ⟨pre, post, rfl⟩ := List.append_of_mem he
    obtain ⟨s₁, s₂, -, hstep, -⟩ := run_storeStep h .result
    obtain ⟨r, response, rfl⟩ := hstep.committed hc hcommitted
    obtain ⟨s₁, task, body, paid, answer, signature, hpre, hphase, -⟩ := result_commit_event h hc
    -- an outcome is committed by a request that has submitted
    refine not_submitted hpre (fun e he => hend.uncommitted e (List.mem_append_left _ he)) ?_
    rw [hphase]
    trivial
  · exact hend.uncommitted e he hid c hc

/-- What it was issued it has aborted. -/
theorem aborted (h : (machine env).Run evs s) (hend : Unsettled evs s id) (hn : n ≠ .access) (he : e ∈ evs)
    (hid : e.1.id = id) (hc : c ∈ callsOf n e) (hr : StoreEvent.Issues r c) :
    ∃ now o, (.abort r now, o) ∈ calls n evs := by
  rcases run_aborts h hn hend.uncancelled hend.uncommitted he hid hc hr with hheld | ⟨e', he', -, o, haborts⟩
  · rw [hend.finished] at hheld
    cases hheld
  · exact ⟨e'.1.now, o, mem_calls.mpr ⟨e', he', haborts⟩⟩

/-- **No entry** is left under its tokens. -/
theorem token_notMem (h : (machine env).Run evs s) (hfresh : Machine.Respects FreshToken evs)
    (hend : Unsettled evs s id) (hn : n ≠ .access) {key : CacheKey} {entry : Entry ℚ}
    (hk : (n.store s).entries.get? key = some entry) :
    entry.token ∉ drawn id evs := by
  intro hdrawn
  obtain ⟨d, hd, -, hstore⟩ := run_ledger (run_store h n)
  rw [hstore] at hk
  have hlegal := run_legal h hfresh n
  obtain ⟨r, ⟨c, hc, hissues⟩, htoken⟩ := entry_issued hd hlegal hk
  rw [← htoken] at hdrawn
  obtain ⟨e, he, hce⟩ := mem_calls.mp hc
  have hbrought := run_token h he hce (issues_draws hd hc hissues)
  have hid : e.1.id = id := drawn_disjoint hfresh (mem_drawn.mpr ⟨e, he, rfl, hbrought⟩) hdrawn
  obtain ⟨now, o, haborts⟩ := hend.aborted h hn he hid hce hissues
  refine token_ne_of_aborted hd hlegal ⟨c, hc, hissues⟩ haborts (fun response t hcommit => ?_) hk htoken.symm
  obtain ⟨e', he', hce'⟩ := mem_calls.mp hcommit
  have hid' : e'.1.id = id := (by_drawn_iff h hfresh he' hce').mp ((StoreOp.by_iff rfl).mpr hdrawn)
  exact hend.not_committed h hn he' hid' hce' rfl

/-- Beside the store of any part of the run is the ledger of the others. -/
theorem without (h : (machine env).Run evs s) (hfresh : Machine.Respects FreshToken evs) (hend : Unsettled evs s id)
    (hn : n ≠ .access) {part : List Event} {s₁ : Runtime} (hpart : (machine env).Run part s₁)
    (htimely : Machine.Respects Timely part) (hsub : part ⊆ evs) :
    ∃ d d', n.store s₁ = Store.ofEntries d ∧ LedgerOk n.config d ∧
      (Ledger.machine env.sha256 n.config).Run (callsOfOthers n id part) d' ∧
      ∀ now, (∀ e ∈ part, e.1.now ≤ now) → Ledger.Without (drawn id evs) now d d' := by
  obtain ⟨d, hd, hok, hstore⟩ := run_ledger (run_store hpart n)
  have hev := keeps_of_ne_access hn
  have hcommit : ∀ c ∈ calls n part, c.1.by (drawn id evs) = true → c.2 ≠ .committed := by
    intro c hc hby
    obtain ⟨e, he, hce⟩ := mem_calls.mp hc
    exact hend.not_committed h hn (hsub he) ((by_drawn_iff h hfresh (hsub he) hce).mp hby) hce
  obtain ⟨d', hd', hwithout⟩ := run_without hev hd (run_clockOrdered hpart htimely n) hcommit
  refine ⟨d, d', hstore, hok, others_drawn h hfresh hsub ▸ hd', fun now hnow => hwithout now fun c hc t ht => ?_⟩
  obtain ⟨e, he, hce⟩ := mem_calls.mp hc
  rw [run_clock hpart he hce ht]
  exact hnow e he

end Unsettled

end Failures

/-! ## Nothing is left -/

/-- What a request has left of a store: no entry of its own, the entries of the others at each of its steps, and in the
end what the accepted calls of the others make of an empty store. -/
structure LeavesNothing (env : Env) (n : StoreName) (evs : List Event) (s : Runtime) (id : ℕ) : Prop where
  entries : ∀ key entry, (n.store s).entries.get? key = some entry → entry.token ∉ drawn id evs
  untouched : ∀ pre e post s₁ s₂, evs = pre ++ e :: post → e.1.id = id → (machine env).Run pre s₁ →
    (machine env).Run (pre ++ [e]) s₂ → ∀ key entry, entry.token ∉ drawn id evs →
      (((n.store s₂).dropExpired e.1.now).entries.get? key = some entry ↔
        ((n.store s₁).dropExpired e.1.now).entries.get? key = some entry)
  others : ∃ s', (IdempotencyStore.machine env.sha256 n.config).Run (callsOfOthers n id evs) s' ∧
    ∀ now, (∀ e ∈ evs, e.1.now ≤ now) → Store.Alike env.sha256 n.config now (n.store s) s'

/-- **A failed payment leaves nothing**: in any orderly interleaving, a request that has ended, neither cancelled nor
with a tombstone committed, has left no entry in the two stores of the paying clients; none of its steps touched an entry of
another request; and each store is, expired entries apart, what the accepted calls of the others alone make of it, with
the same decision on every reservation. -/
theorem unsettled_leaves_nothing {env : Env} {evs : List Event} {s : Runtime} (h : (machine env).Run evs s)
    (ho : Machine.Respects Orderly evs) {id : ℕ} (hend : Unsettled evs s id) {n : StoreName} (hn : n ≠ .access) :
    LeavesNothing env n evs s id where
  entries key entry hk := hend.token_notMem h (respects_freshToken ho) hn hk
  untouched := by
    rintro pre e post s₁ s₂ rfl hid hpre hpre' key entry htoken
    have hcut : pre ++ e :: post = (pre ++ [e]) ++ post := by rw [List.append_assoc, List.singleton_append]
    have hbefore : ∀ e' ∈ pre, e'.1.now ≤ e.1.now := (ho pre e post rfl).1
    obtain ⟨d₁, d', hstore₁, -, hd', hwithout₁⟩ :=
      hend.without h (respects_freshToken ho) hn hpre (respects_timely ho.of_append) (List.subset_append_left _ _)
    obtain ⟨d₂, d'', hstore₂, -, hd'', hwithout₂⟩ :=
      hend.without h (respects_freshToken ho) hn hpre'
        (hcut ▸ respects_timely ho : Machine.Respects Timely ((pre ++ [e]) ++ post)).of_append
        (hcut ▸ List.subset_append_left _ _)
    -- the others make no call in between
    have hsame : callsOfOthers n id (pre ++ [e]) = callsOfOthers n id pre := by
      rw [callsOfOthers, List.filter_append, List.filter_singleton, decide_eq_false (by simpa using hid), cond_false,
        List.append_nil]
      rfl
    obtain rfl := Machine.Steps.unique hd' (hsame ▸ hd'')
    have hiff₁ := (hwithout₁ e.1.now hbefore).get?_iff key entry
    have hiff₂ := (hwithout₂ e.1.now fun e' he' => by
      rcases List.mem_append.mp he' with he' | he'
      · exact hbefore e' he'
      · rw [List.mem_singleton.mp he']).get?_iff key entry
    rw [hstore₁, hstore₂, ← Ledger.ofEntries_live, ← Ledger.ofEntries_live]
    constructor
    · intro hk
      exact (hiff₁.mp (hiff₂.mpr ⟨hk, htoken⟩)).1
    · intro hk
      exact (hiff₂.mp (hiff₁.mpr ⟨hk, htoken⟩)).1
  others := by
    obtain ⟨d, d', hstore, hok, hd', hwithout⟩ :=
      hend.without h (respects_freshToken ho) hn h (respects_timely ho) (List.Subset.refl _)
    have hev := keeps_of_ne_access hn
    refine ⟨_, run_ofLedger hd', fun now hnow => ?_⟩
    rw [hstore]
    refine Ledger.Agree.alike hev hok (Ledger.run_ok hd') ((hwithout now hnow).agree fun key entry hk => ?_)
    have hentry : (n.store s).entries.get? key = some entry := by
      rw [hstore]
      exact (Ledger.get?_live.mp hk).1
    exact hend.token_notMem h (respects_freshToken ho) hn hentry

/-! ### Two requests under one key -/

/-- The first request waits for the facilitator while the second one comes under its key; its payment is refused. -/
def contendedSteps : List Step :=
  [⟨1, 0, .arrive (pauseRequest "payment_first_12345" "Zmlyc3Q=") "first" (.receipt 1 1 1)⟩, ⟨1, 0, .preflight⟩,
    ⟨2, 0, .arrive (pauseRequest "payment_first_12345" "Zmlyc3Q=") "second" (.receipt 1 1 1)⟩,
    ⟨1, 0, .verifyAnswer (.returned ⟨false, none⟩)⟩, ⟨1, 0, .abort⟩]

/-- The steps of the other requests alone. -/
def stepsOfOthers (id : ℕ) (steps : List Step) : List Step := steps.filter fun i => decide (i.id ≠ id)

def Phase.isFinished : Phase → Bool
  | .finished => true
  | _ => false

theorem Phase.eq_finished {phase : Phase} (h : phase.isFinished = true) : phase = .finished := by
  cases phase <;> first | rfl | cases h

/-- The first request has ended, no claim was asked for, and nothing is reserved. -/
def leavesRoom (evs : List Event) (s : Runtime) : Bool :=
  (s.phase 1).isFinished && evs.all (fun e => (callsOf .claim e).isEmpty) &&
    decide ((s.paymentIdempotency.dropExpired 0).reservedResponseBytes = 0)

theorem of_leavesRoom {evs : List Event} {s : Runtime} (h : leavesRoom evs s = true) :
    s.phase 1 = .finished ∧ (∀ e ∈ evs, callsOf .claim e = []) ∧
      (s.paymentIdempotency.dropExpired 0).reservedResponseBytes = 0 := by
  simp only [leavesRoom, Bool.and_eq_true, decide_eq_true_eq, List.all_eq_true, List.isEmpty_iff] at h
  exact ⟨Phase.eq_finished h.1.1, h.1.2, h.2⟩

theorem contendedSteps_leavesRoom :
    leavesRoom ((machine pauseService).trace contendedSteps) ((machine pauseService).after contendedSteps) = true := by
  decide +kernel

theorem contendedSteps_others : (((machine pauseService).after
    (stepsOfOthers 1 contendedSteps)).paymentIdempotency.dropExpired 0).reservedResponseBytes ≠ 0 := by
  decide +kernel

theorem contendedSteps_unsettled :
    Unsettled ((machine pauseService).trace contendedSteps) ((machine pauseService).after contendedSteps) 1 where
  finished := (of_leavesRoom contendedSteps_leavesRoom).1
  uncancelled e he _ := by
    have hmem := Machine.fst_mem_of_mem_trace he
    simp only [contendedSteps, List.mem_cons, List.not_mem_nil, or_false] at hmem
    rcases hmem with hi | hi | hi | hi | hi <;> rw [hi] <;> simp
  uncommitted e he _ c hc := by
    rw [(of_leavesRoom contendedSteps_leavesRoom).2.1 e he] at hc
    exact absurd hc List.not_mem_nil

theorem contendedSteps_orderly : Machine.Respects Orderly ((machine pauseService).trace contendedSteps) := by
  refine respects_orderly ?_
  rw [Machine.trace_map_fst]
  decide +kernel

theorem unsettled_leaves_nothing_contended : LeavesNothing pauseService .result
    ((machine pauseService).trace contendedSteps) ((machine pauseService).after contendedSteps) 1 :=
  unsettled_leaves_nothing (Machine.run_after _ _) contendedSteps_orderly contendedSteps_unsettled nofun

/-- Alone the second request would have been given the key, which the first one had while it came. -/
theorem unsettled_refuses_others : ∃ steps : List Step,
    Machine.Respects Orderly ((machine pauseService).trace steps) ∧
    Unsettled ((machine pauseService).trace steps) ((machine pauseService).after steps) 1 ∧
    (((machine pauseService).after steps).paymentIdempotency.dropExpired 0).reservedResponseBytes ≠
      (((machine pauseService).after (stepsOfOthers 1 steps)).paymentIdempotency.dropExpired
        0).reservedResponseBytes := by
  refine ⟨contendedSteps, contendedSteps_orderly, contendedSteps_unsettled, ?_⟩
  rw [(of_leavesRoom contendedSteps_leavesRoom).2.2]
  exact contendedSteps_others.symm

end Lucent.Hosted
