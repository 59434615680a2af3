import Mathlib.Data.Set.Function
import Lucent.Access.Accounting

/-!
# Lucent.Access.Ownership — who may finalize, and what a replay stands for

Runs of the store whose reservations are the ones it issued and whose tokens are fresh (`Legal`).

* `Backed evs key e`: some event wrote `e` under `key`, nothing rewrote the slot since, and no later operation
  read the clock at or past the expiry of `e`.  Every entry of a reachable ledger is backed (`entry_backed`).
* `live_owner`: the owner of a live pending entry is the last reservation issued for its slot.
* `idempotencyStore_ownership`: at most one reservation of a pair can be finalized, each is finalized once and in
  time, and a replay is the response of the last commit for the same arguments.
-/


namespace Lucent.Access

open Lucent.Lib

variable {τ : Type} [LinearOrder τ] [Zero τ] [Add τ] [Sub τ]

/-! ## Events -/

/-- A call with its outcome. -/
abbrev StoreEvent (τ : Type) := StoreOp τ × StoreOutcome τ

namespace StoreEvent

/-- The clock reading of a call; the checks that come before the lock read no clock. -/
def clock? : StoreEvent τ → Option τ
  | (.reserve .., .raised (.invalidInput _)) => none
  | (.commit .., .raised (.responseTooLarge _)) => none
  | (.reserve _ _ _ _ now, _) | (.commit _ _ now, _) | (.abort _ now, _) | (.len now, _)
  | (.cachedResponseBytes now, _) => some now

/-- The event is a `reserve` that issued `reservation`. -/
def Issues (reservation : Reservation τ) : StoreEvent τ → Prop
  | (.reserve .., .decided (.reserved issued)) => issued = reservation
  | _ => False

/-- The event is a `reserve` on `(tenant, key)` with this fingerprint that issued `reservation`. -/
def IssuesFor (tenantId key fingerprint : String) (reservation : Reservation τ) : StoreEvent τ → Prop
  | (.reserve t k f _ _, .decided (.reserved issued)) =>
    t = tenantId ∧ k = some key ∧ f = fingerprint ∧ issued = reservation
  | _ => False

/-- The event finalized `reservation`: a commit that returned, or an abort that returned `True`. -/
def Finalizes (reservation : Reservation τ) : StoreEvent τ → Prop
  | (.commit finalized _ _, .committed) => finalized = reservation
  | (.abort finalized _, .aborted true) => finalized = reservation
  | _ => False

/-- The event is a `reserve` that drew `token`. -/
def Draws (token : String) : StoreEvent τ → Prop
  | (.reserve _ _ _ drawn _, _) => drawn = token
  | _ => False

/-- The event wrote or emptied the slot `key`. -/
def Rewrites (key : CacheKey) (ev : StoreEvent τ) : Prop :=
  ∃ reservation, IdempotencyStore.cacheKey reservation = key ∧ (Issues reservation ev ∨ Finalizes reservation ev)

/-- The event wrote the entry `e` into the slot `key`. -/
def Writes (cfg : StoreConfig τ) (key : CacheKey) (e : Entry τ) : StoreEvent τ → Prop
  | (.reserve .., .decided (.reserved issued)) =>
    IdempotencyStore.cacheKey issued = key ∧ e.token = issued.token ∧ e.fingerprint = issued.fingerprint ∧
      e.state = .reserved ∧ e.response = none ∧ e.expiresAt = issued.expiresAt
  | (.commit owner response now, .committed) =>
    IdempotencyStore.cacheKey owner = key ∧ e.token = owner.token ∧ e.fingerprint = owner.fingerprint ∧
      e.state = .complete ∧ e.response = some response ∧ e.expiresAt = now + cfg.ttlSeconds
  | _ => False

end StoreEvent

open StoreEvent

/-! ## Where an entry comes from -/

namespace Ledger

variable {cfg : StoreConfig τ} {d d' : Ledger τ} {key : CacheKey} {e : Entry τ} {now : τ}

omit [Add τ] [Sub τ] in
theorem get?_of_makeRoom (h : makeRoom cfg d = some d') (hk : d'.get? key = some e) : d.get? key = some e := by
  unfold makeRoom at h
  split_ifs at h with hlen hev
  · cases h
    exact hk
  · obtain ⟨old, -, rfl⟩ := Option.map_eq_some_iff.mp h
    exact (OrderedDict.get?_erase_eq_some_iff.mp hk).2

omit [Add τ] [Sub τ] in
theorem get?_of_makeResponseRoom {bytes turns : ℕ} (hk : (makeResponseRoom cfg bytes turns d).get? key = some e) :
    d.get? key = some e := by
  induction turns generalizing d with
  | zero => exact hk
  | succ turns ih =>
    unfold makeResponseRoom at hk
    split_ifs at hk with hfull
    · rcases hold : oldestCompleted d with _ | old
      · rw [hold] at hk
        exact hk
      · rw [hold] at hk
        exact (OrderedDict.get?_erase_eq_some_iff.mp (ih hk)).2
    · exact hk

omit [Zero τ] [Add τ] [Sub τ] in
/-- What `key` holds after a call that may only have dropped entries. -/
theorem kept {ev : StoreEvent τ} (hk : (live now d).get? key = some e) (hnot : ¬ Rewrites key ev)
    (hclock : ∀ c, clock? ev = some c → c = now) :
    d.get? key = some e ∧ ¬ Rewrites key ev ∧ ∀ c, clock? ev = some c → c < e.expiresAt := by
  obtain ⟨hd, hnow⟩ := get?_live.mp hk
  refine ⟨hd, hnot, fun c hc => ?_⟩
  rw [hclock c hc]
  exact hnow

/-- **Origin**: an entry found after a call was written by it, or was there before, untouched and in time. -/
theorem step_origin (sha256 : Bytes → Bytes) {op : StoreOp τ} (hk : (step sha256 cfg d op).2.get? key = some e) :
    Writes cfg key e (op, (step sha256 cfg d op).1) ∨
    d.get? key = some e ∧ ¬ Rewrites key (op, (step sha256 cfg d op).1) ∧
      ∀ c, clock? (op, (step sha256 cfg d op).1) = some c → c < e.expiresAt := by
  rcases op with ⟨tenantId, key', fingerprint, token, now⟩ | ⟨owner, response, now⟩ | ⟨owner, now⟩ | ⟨now⟩ | ⟨now⟩
  · rcases hcheck : IdempotencyStore.checkReserve tenantId key' fingerprint with detail | ⟨tenant, k, fp⟩
    · rw [step_reserve_error hcheck] at hk ⊢
      exact .inr ⟨hk, by rintro ⟨_, -, h | h⟩ <;> exact h, nofun⟩
    · rw [step_reserve_ok hcheck] at hk ⊢
      have hcase := reserve_case cfg (tenant, sha256 (utf8 k)) fp token now d
      generalize reserve cfg (tenant, sha256 (utf8 k)) fp token now d = r at hk hcase ⊢
      have hno : ∀ o : StoreOutcome τ, (∀ issued, o ≠ .decided (.reserved issued)) →
          ¬ Rewrites key (.reserve tenantId key' fingerprint token now, o) := by
        rintro o ho ⟨issued, -, h | h⟩
        · unfold Issues at h
          split at h
          · rename_i heq
            exact ho _ (congrArg Prod.snd heq)
          · exact h
        · exact h
      rcases hcase with _ | _ | ⟨e', r, hk', -, -⟩ | ⟨-, wait⟩ | ⟨hnone, d', hroom, hadm⟩
      · exact .inr (kept hk (hno _ nofun) fun c hc => (Option.some.inj hc).symm)
      · exact .inr (kept hk (hno _ nofun) fun c hc => (Option.some.inj hc).symm)
      · have hk := (OrderedDict.get?_moveToEnd ..).symm.trans hk
        exact .inr (kept hk (hno _ nofun) fun c hc => (Option.some.inj hc).symm)
      · exact .inr (kept hk (hno _ nofun) fun c hc => (Option.some.inj hc).symm)
      · rcases OrderedDict.get?_push_eq_some_iff.mp hk with ⟨rfl, rfl⟩ | ⟨hne, hk⟩
        · exact .inl ⟨rfl, rfl, rfl, rfl, rfl, rfl⟩
        · refine .inr (kept (get?_of_makeRoom hroom hk) ?_ fun c hc => (Option.some.inj hc).symm)
          rintro ⟨issued, hkey, rfl | h⟩
          · exact hne hkey.symm
          · exact h
  · rw [step_commit] at hk ⊢
    have hcase := commit_case cfg owner response now d
    generalize commit cfg owner response now d = r at hk hcase ⊢
    rcases hcase with hsize | ⟨hsize, hown⟩ | ⟨hsize, e', hk', hown⟩
    · exact .inr ⟨hk, by rintro ⟨_, -, h | h⟩ <;> exact h, nofun⟩
    · exact .inr (kept hk (by rintro ⟨_, -, h | h⟩ <;> exact h) fun c hc => (Option.some.inj hc).symm)
    · rcases OrderedDict.get?_push_eq_some_iff.mp hk with ⟨rfl, rfl⟩ | ⟨hne, hk⟩
      · obtain ⟨-, htok, hfp⟩ := IdempotencyStore.owns_some_iff.mp hown
        exact .inl ⟨rfl, htok, hfp, rfl, rfl, rfl⟩
      · have hlive : (live now d).get? key = some e := by
          split_ifs at hk with hev
          · exact get?_of_makeResponseRoom hk
          · exact hk
        refine .inr (kept hlive ?_ fun c hc => (Option.some.inj hc).symm)
        rintro ⟨_, hkey, h | rfl⟩
        · exact h
        · exact hne hkey.symm
  · rw [step_abort] at hk ⊢
    unfold abort at hk ⊢
    by_cases hown : IdempotencyStore.owns ((live now d).get? (IdempotencyStore.cacheKey owner)) owner = true
    · simp only [hown, if_true] at hk ⊢
      obtain ⟨hne, hk⟩ := OrderedDict.get?_erase_eq_some_iff.mp hk
      refine .inr (kept hk ?_ fun c hc => (Option.some.inj hc).symm)
      rintro ⟨_, hkey, h | rfl⟩
      · exact h
      · exact hne hkey.symm
    · simp only [hown] at hk ⊢
      exact .inr (kept hk (by rintro ⟨_, -, h | h⟩ <;> exact h) fun c hc => (Option.some.inj hc).symm)
  · exact .inr (kept hk (by rintro ⟨_, -, h | h⟩ <;> exact h) fun c hc => (Option.some.inj hc).symm)
  · exact .inr (kept hk (by rintro ⟨_, -, h | h⟩ <;> exact h) fun c hc => (Option.some.inj hc).symm)

end Ledger

/-- Some event wrote `e` under `key`; since then the slot was not rewritten and no operation read the clock at or
past the expiry of `e`. -/
def Backed (cfg : StoreConfig τ) (evs : List (StoreEvent τ)) (key : CacheKey) (e : Entry τ) : Prop :=
  ∃ pre ev post, evs = pre ++ ev :: post ∧ Writes cfg key e ev ∧
    ∀ ev' ∈ post, ¬ Rewrites key ev' ∧ ∀ c, clock? ev' = some c → c < e.expiresAt

section Runs

variable {sha256 : Bytes → Bytes} {cfg : StoreConfig τ} {evs pre post : List (StoreEvent τ)} {d : Ledger τ}
  {ev ev' : StoreEvent τ} {r : Reservation τ}

/-- **Run lemma**: every entry of a reachable ledger is backed. -/
theorem entry_backed (h : (Ledger.machine sha256 cfg).Run evs d) :
    ∀ key e, d.get? key = some e → Backed cfg evs key e := by
  refine Machine.Run.invariant (I := fun evs d => ∀ key e, OrderedDict.get? d key = some e → Backed cfg evs key e)
    ?_ ?_ h
  · intro key e hk
    exact nomatch hk
  · intro evs d op _ ih key e hk
    rcases Ledger.step_origin sha256 hk with hw | ⟨hk, hnot, hclock⟩
    · exact ⟨evs, _, [], rfl, hw, nofun⟩
    · obtain ⟨pre, ev, post, rfl, hw, hpost⟩ := ih key e hk
      refine ⟨pre, ev, post ++ [(op, (Ledger.step sha256 cfg d op).1)], List.append_assoc pre (ev :: post) _, hw, ?_⟩
      intro ev' hev'
      rcases List.mem_append.mp hev' with hev' | hev'
      · exact hpost ev' hev'
      · rw [List.mem_singleton.mp hev']
        exact ⟨hnot, hclock⟩

/-! ## Legal runs -/

/-- A call as the clients of the store make it: `reserve` draws a fresh token, and `commit` and `abort` are given a
reservation that this store issued before. -/
def Legal (evs : List (StoreEvent τ)) : StoreOp τ → Prop
  | .reserve _ _ _ token _ => ∀ ev ∈ evs, ¬ Draws token ev
  | .commit reservation _ _ | .abort reservation _ => ∃ ev ∈ evs, Issues reservation ev
  | .len _ | .cachedResponseBytes _ => True

/-- The fingerprints `reserve` accepts: 1 to 256 encoded bytes. -/
def WellFormedFingerprint (fingerprint : String) : Prop :=
  boundedText (some fingerprint) "request fingerprint" maxFingerprintBytes = .ok fingerprint

theorem boundedText_ok {value : Option String} {name text : String} {n : ℕ}
    (h : boundedText value name n = .ok text) : value = some text := by
  unfold boundedText at h
  split at h
  · exact nomatch h
  · split_ifs at h
    cases h
    rfl

theorem checkReserve_eq_ok_iff {tenantId fingerprint tenant k f : String} {key : Option String} :
    IdempotencyStore.checkReserve tenantId key fingerprint = .ok (tenant, k, f) ↔
      boundedText (some tenantId) "tenant_id" maxTenantIdBytes = .ok tenant ∧
      boundedText key "idempotency key" maxIdempotencyKeyBytes = .ok k ∧
      boundedText (some fingerprint) "request fingerprint" maxFingerprintBytes = .ok f := by
  unfold IdempotencyStore.checkReserve
  rcases boundedText (some tenantId) "tenant_id" maxTenantIdBytes with _ | t'
  · simp [bind, Except.bind]
  rcases boundedText key "idempotency key" maxIdempotencyKeyBytes with _ | k'
  · simp [bind, Except.bind]
  rcases boundedText (some fingerprint) "request fingerprint" maxFingerprintBytes with _ | f'
  · simp [bind, Except.bind]
  · simp [bind, Except.bind, pure, Except.pure]

/-- `checkReserve` lets its arguments through unchanged. -/
theorem checkReserve_ok {tenantId fingerprint tenant k f : String} {key : Option String}
    (h : IdempotencyStore.checkReserve tenantId key fingerprint = .ok (tenant, k, f)) :
    tenant = tenantId ∧ key = some k ∧ f = fingerprint := by
  obtain ⟨htenant, hkey, hfp⟩ := checkReserve_eq_ok_iff.mp h
  exact ⟨(Option.some.inj (boundedText_ok htenant)).symm, boundedText_ok hkey,
    (Option.some.inj (boundedText_ok hfp)).symm⟩

/-- What an issuing event is, in a run. -/
theorem issues_eq_issue (h : (Ledger.machine sha256 cfg).Run evs d) (hev : ev ∈ evs) (hr : Issues r ev) :
    ∃ t k f token now, ev.1 = .reserve t (some k) f token now ∧
      IdempotencyStore.checkReserve t (some k) f = .ok (t, k, f) ∧
      r = Ledger.issue cfg (t, sha256 (utf8 k)) f token now := by
  obtain ⟨d₁, hstep⟩ := h.step_of_mem hev
  obtain ⟨op, o⟩ := ev
  unfold Issues at hr
  split at hr
  · rename_i tenantId key fingerprint token now issued heq
    cases heq
    subst hr
    change (Ledger.step sha256 cfg d₁ _).1 = _ at hstep
    rcases hcheck : IdempotencyStore.checkReserve tenantId key fingerprint with detail | ⟨tenant, k, f⟩
    · rw [Ledger.step_reserve_error hcheck] at hstep
      exact nomatch hstep
    · rw [Ledger.step_reserve_ok hcheck] at hstep
      obtain ⟨rfl, rfl, rfl⟩ := checkReserve_ok hcheck
      have hcase := Ledger.reserve_case cfg (tenant, sha256 (utf8 k)) f token now d₁
      generalize Ledger.reserve cfg (tenant, sha256 (utf8 k)) f token now d₁ = r at hstep hcase
      rcases hcase with _ | _ | _ | _ | _ <;> cases hstep
      exact ⟨tenant, k, f, token, now, rfl, hcheck, rfl⟩
  · exact hr.elim

theorem issues_draws (h : (Ledger.machine sha256 cfg).Run evs d) (hev : ev ∈ evs) (hr : Issues r ev) :
    Draws r.token ev := by
  obtain ⟨t, k, f, token, now, hop, -, rfl⟩ := issues_eq_issue h hev hr
  obtain ⟨op, o⟩ := ev
  cases hop
  rfl

omit [LinearOrder τ] [Zero τ] [Add τ] [Sub τ] in
/-- In a legal run a token is drawn once. -/
theorem draws_unique {token : String} (hl : Machine.Respects Legal evs) {pre' post' : List (StoreEvent τ)}
    (h : evs = pre ++ ev :: post) (hd : Draws token ev) (h' : evs = pre' ++ ev' :: post') (hd' : Draws token ev') :
    pre = pre' ∧ ev = ev' ∧ post = post' := by
  refine Machine.split_unique (P := Draws token) ?_ h hd h' hd'
  intro pre ev post h hd
  have hfresh := hl pre ev post h
  obtain ⟨op, o⟩ := ev
  unfold Draws at hd
  split at hd
  · rename_i heq
    cases heq
    subst hd
    exact hfresh
  · exact hd.elim

/-- A reservation is issued by one event only. -/
theorem issues_unique (h : (Ledger.machine sha256 cfg).Run evs d) (hl : Machine.Respects Legal evs)
    {pre' post' : List (StoreEvent τ)} (h1 : evs = pre ++ ev :: post) (hr : Issues r ev)
    (h2 : evs = pre' ++ ev' :: post') (hr' : Issues r ev') : pre = pre' ∧ ev = ev' ∧ post = post' :=
  draws_unique hl h1 (issues_draws h (by simp [h1]) hr) h2 (issues_draws h (by simp [h2]) hr')

omit [LinearOrder τ] [Zero τ] [Add τ] [Sub τ] in
theorem issues_inj {r' : Reservation τ} (hr : Issues r ev) (hr' : Issues r' ev) : r = r' := by
  unfold Issues at hr hr'
  split at hr
  · exact hr.symm.trans hr'
  · exact hr.elim

/-- An entry has one owner among the reservations of a legal run. -/
theorem owner_unique {r' : Reservation τ} (h : (Ledger.machine sha256 cfg).Run evs d)
    (hl : Machine.Respects Legal evs) (hr : ∃ ev ∈ evs, Issues r ev)
    (hr' : ∃ ev ∈ evs, Issues r' ev) {e : Entry τ} (hown : IdempotencyStore.owns (some e) r = true)
    (hown' : IdempotencyStore.owns (some e) r' = true) : r = r' := by
  obtain ⟨ev, hev, hr⟩ := hr
  obtain ⟨ev', hev', hr'⟩ := hr'
  obtain ⟨pre, post, heq⟩ := List.append_of_mem hev
  obtain ⟨pre', post', heq'⟩ := List.append_of_mem hev'
  have htoken : r.token = r'.token :=
    (IdempotencyStore.owns_some_iff.mp hown).2.1.symm.trans (IdempotencyStore.owns_some_iff.mp hown').2.1
  have hdraws := issues_draws h hev hr
  rw [htoken] at hdraws
  obtain ⟨-, rfl, -⟩ := draws_unique hl heq hdraws heq' (issues_draws h hev' hr')
  exact issues_inj hr hr'

/-- **Live owner**: the owner of a pending entry was issued for its slot, and nothing rewrote the slot since. -/
theorem live_owner (h : (Ledger.machine sha256 cfg).Run evs d) (hl : Machine.Respects Legal evs)
    (hr : ∃ ev ∈ evs, Issues r ev) {e : Entry τ} (hk : d.get? (IdempotencyStore.cacheKey r) = some e)
    (hown : IdempotencyStore.owns (some e) r = true) :
    ∃ pre ev post, evs = pre ++ ev :: post ∧ Issues r ev ∧ e.expiresAt = r.expiresAt ∧
      ∀ ev' ∈ post, ¬ Rewrites (IdempotencyStore.cacheKey r) ev' := by
  obtain ⟨hstate, htok, -⟩ := IdempotencyStore.owns_some_iff.mp hown
  obtain ⟨pre, ev, post, hevs, hw, hpost⟩ := entry_backed h _ e hk
  obtain ⟨ev₁, hev₁, hr₁⟩ := hr
  obtain ⟨pre₁, post₁, hevs₁⟩ := List.append_of_mem hev₁
  unfold Writes at hw
  split at hw
  · rename_i t k f token now issued
    obtain ⟨-, htok', -, -, -, hexp⟩ := hw
    -- the writer drew the token of `r`, so it is the event that issued `r`
    have hdraws : Draws r.token (.reserve t k f token now, .decided (.reserved issued)) := by
      rw [← htok, htok']
      exact issues_draws h (by simp [hevs]) rfl
    obtain ⟨-, rfl, -⟩ := draws_unique hl hevs hdraws hevs₁ (issues_draws h hev₁ hr₁)
    obtain rfl : r = issued := issues_inj hr₁ rfl
    exact ⟨pre, _, post, hevs, hr₁, hexp, fun ev' hev' => (hpost ev' hev').1⟩
  · rw [hw.2.2.2.1] at hstate
    exact nomatch hstate
  · exact hw.elim

/-- Finalizing takes the ownership of a live pending entry. -/
theorem step_finalizes {op : StoreOp τ} (hf : Finalizes r (op, (Ledger.step sha256 cfg d op).1)) :
    ∃ e now, clock? (op, (Ledger.step sha256 cfg d op).1) = some now ∧ now < e.expiresAt ∧
      d.get? (IdempotencyStore.cacheKey r) = some e ∧ IdempotencyStore.owns (some e) r = true := by
  rcases op with ⟨tenantId, key, fingerprint, token, now⟩ | ⟨owner, response, now⟩ | ⟨owner, now⟩ | ⟨now⟩ | ⟨now⟩
  · exact hf.elim
  · rw [Ledger.step_commit] at hf ⊢
    have hcase := Ledger.commit_case cfg owner response now d
    generalize Ledger.commit cfg owner response now d = x at hf hcase ⊢
    rcases hcase with _ | _ | ⟨-, e, hk, hown⟩
    · exact hf.elim
    · exact hf.elim
    · obtain rfl : owner = r := hf
      obtain ⟨hk, hnow⟩ := Ledger.get?_live.mp hk
      exact ⟨e, now, rfl, hnow, hk, hown⟩
  · rw [Ledger.step_abort] at hf ⊢
    unfold Ledger.abort at hf ⊢
    by_cases hown : IdempotencyStore.owns
        ((Ledger.live now d).get? (IdempotencyStore.cacheKey owner)) owner = true
    · simp only [hown, if_true] at hf ⊢
      obtain rfl : owner = r := hf
      rcases hk : (Ledger.live now d).get? (IdempotencyStore.cacheKey owner) with _ | e
      · rw [hk] at hown
        exact absurd hown Bool.false_ne_true
      · rw [hk] at hown
        obtain ⟨hk, hnow⟩ := Ledger.get?_live.mp hk
        exact ⟨e, now, rfl, hnow, hk, hown⟩
    · simp only [hown] at hf
      exact hf.elim
  · exact hf.elim
  · exact hf.elim

omit [LinearOrder τ] [Zero τ] [Add τ] [Sub τ] in
theorem StoreEvent.IssuesFor.issues {t k f : String} (hr : IssuesFor t k f r ev) : Issues r ev := by
  unfold IssuesFor at hr
  unfold Issues
  split at hr
  · exact hr.2.2.2
  · exact hr.elim

/-- The slot and the arguments of a reservation issued for `(t, k)`. -/
theorem issuesFor_cacheKey (h : (Ledger.machine sha256 cfg).Run evs d) (hev : ev ∈ evs) {t k f : String}
    (hr : IssuesFor t k f r ev) : IdempotencyStore.cacheKey r = (t, sha256 (utf8 k)) ∧ r.fingerprint = f ∧
      IdempotencyStore.checkReserve t (some k) f = .ok (t, k, f) := by
  obtain ⟨t', k', f', token, now, hop, hcheck, rfl⟩ := issues_eq_issue h hev hr.issues
  obtain ⟨op, o⟩ := ev
  cases hop
  unfold IssuesFor at hr
  split at hr
  · rename_i heq
    cases heq
    obtain ⟨rfl, hk, rfl, -⟩ := hr
    cases hk
    exact ⟨rfl, rfl, hcheck⟩
  · exact hr.elim

/-- A reservation that can be finalized is the last one issued for its pair. -/
theorem last_issued (h : (Ledger.machine sha256 cfg).Run evs d) (hl : Machine.Respects Legal evs) {t k f : String}
    (hr : ∃ ev ∈ evs, IssuesFor t k f r ev) {op : StoreOp τ}
    (hf : Finalizes r (op, (Ledger.step sha256 cfg d op).1)) :
    ∃ pre ev post, evs = pre ++ ev :: post ∧ IssuesFor t k f r ev ∧
      ∀ ev' ∈ post, ∀ f' r', ¬ IssuesFor t k f' r' ev' := by
  obtain ⟨ev, hev, hfor⟩ := hr
  obtain ⟨e, now, -, -, hk, hown⟩ := step_finalizes hf
  obtain ⟨pre₁, ev₁, post₁, hevs₁, hr₁, -, hpost⟩ := live_owner h hl ⟨ev, hev, hfor.issues⟩ hk hown
  obtain ⟨pre, post, hevs⟩ := List.append_of_mem hev
  obtain ⟨rfl, rfl, rfl⟩ := issues_unique h hl hevs hfor.issues hevs₁ hr₁
  refine ⟨pre, ev, post, hevs, hfor, fun ev' hev' f' r' hfor' => hpost ev' hev' ⟨r', ?_, .inl hfor'.issues⟩⟩
  rw [(issuesFor_cacheKey h (by simp [hevs, hev']) hfor').1, (issuesFor_cacheKey h hev hfor).1]

omit [LinearOrder τ] [Zero τ] [Add τ] [Sub τ] in
/-- What is finalized was issued before. -/
theorem StoreEvent.Finalizes.issued (hl : Machine.Respects Legal evs) (hevs : evs = pre ++ ev :: post)
    (hf : Finalizes r ev) : ∃ ev' ∈ pre, Issues r ev' := by
  have hlegal := hl pre ev post hevs
  obtain ⟨op, o⟩ := ev
  unfold Finalizes at hf
  split at hf
  · rename_i heq
    cases heq
    subst hf
    exact hlegal
  · rename_i heq
    cases heq
    subst hf
    exact hlegal
  · exact hf.elim

/-- A reservation that was finalized cannot be finalized again. -/
theorem not_finalizes_twice (h : (Ledger.machine sha256 cfg).Run evs d) (hl : Machine.Respects Legal evs)
    (hevs : evs = pre ++ ev :: post) (hf : Finalizes r ev) : ∀ ev' ∈ post, ¬ Finalizes r ev' := by
  intro ev' hev' hf'
  obtain ⟨mid, post', rfl⟩ := List.append_of_mem hev'
  have hcut : evs = (pre ++ ev :: mid) ++ ev' :: post' := by simp [hevs]
  obtain ⟨d₁, d₂, h₁, hstep, -, -⟩ := Machine.Run.split (hcut ▸ h)
  have hl₁ : Machine.Respects Legal (pre ++ ev :: mid) := Machine.Respects.of_append (hcut ▸ hl)
  obtain ⟨ev₀, hev₀, hr₀⟩ := hf.issued hl hevs
  obtain ⟨op, o⟩ := ev'
  obtain rfl : (Ledger.step sha256 cfg d₁ op).1 = o := congrArg Prod.fst hstep
  obtain ⟨e, now, -, -, hk, hown⟩ := step_finalizes hf'
  obtain ⟨pre₁, ev₁, post₁, hevs₁, hr₁, -, hpost⟩ := live_owner h₁ hl₁ ⟨ev₀, by simp [hev₀], hr₀⟩ hk hown
  -- the issuing event lies before `ev`, so `ev` is among the events that left the slot alone
  obtain ⟨pre₀, post₀, rfl⟩ := List.append_of_mem hev₀
  obtain ⟨-, -, rfl⟩ :=
    issues_unique h₁ hl₁ (List.append_assoc pre₀ (ev₀ :: post₀) (ev :: mid)) hr₀ hevs₁ hr₁
  exact hpost ev (by simp) ⟨r, rfl, .inr hf⟩

/-- A reservation is finalized before it expires. -/
theorem finalizes_in_time (h : (Ledger.machine sha256 cfg).Run evs d) (hl : Machine.Respects Legal evs)
    (hevs : evs = pre ++ ev :: post) (hf : Finalizes r ev) : ∃ now, clock? ev = some now ∧ now < r.expiresAt := by
  obtain ⟨d₁, d₂, h₁, hstep, -, -⟩ := Machine.Run.split (hevs ▸ h)
  obtain ⟨op, o⟩ := ev
  obtain rfl : (Ledger.step sha256 cfg d₁ op).1 = o := congrArg Prod.fst hstep
  obtain ⟨e, now, hclock, hnow, hk, hown⟩ := step_finalizes hf
  obtain ⟨-, -, -, -, -, hexp, -⟩ :=
    live_owner h₁ (Machine.Respects.of_append (hevs ▸ hl)) (hf.issued hl hevs) hk hown
  exact ⟨now, hclock, hexp ▸ hnow⟩

/-- The idempotency keys named by the calls of a run. -/
def keysOf (evs : List (StoreEvent τ)) : Set String :=
  {key | ∃ t f token now o, (StoreOp.reserve t (some key) f token now, o) ∈ evs}

/-- What a replaying call read. -/
theorem step_replays {t f token : String} {key : Option String} {now : τ} {response : IdempotencyResponse}
    (h : (Ledger.step sha256 cfg d (.reserve t key f token now)).1 = .decided (.replay response)) :
    ∃ k e, key = some k ∧ d.get? (t, sha256 (utf8 k)) = some e ∧ e.fingerprint = f ∧
      e.response = some response ∧ now < e.expiresAt := by
  rcases hcheck : IdempotencyStore.checkReserve t key f with detail | ⟨tenant, k, f'⟩
  · rw [Ledger.step_reserve_error hcheck] at h
    exact nomatch h
  · rw [Ledger.step_reserve_ok hcheck] at h
    obtain ⟨rfl, rfl, rfl⟩ := checkReserve_ok hcheck
    have hcase := Ledger.reserve_case cfg (tenant, sha256 (utf8 k)) f' token now d
    generalize Ledger.reserve cfg (tenant, sha256 (utf8 k)) f' token now d = x at h hcase
    rcases hcase with _ | _ | ⟨e, r, hk, hf, hr⟩ | _ | _ <;> cases h
    obtain ⟨hk, hnow⟩ := Ledger.get?_live.mp hk
    exact ⟨k, e, rfl, hk, hf, hr, hnow⟩

/-- **Replay**: a replayed response was committed by a reservation issued for the same arguments, in a slot that
was not rewritten since, and is still in time. -/
theorem replay_source (h : (Ledger.machine sha256 cfg).Run evs d) (hl : Machine.Respects Legal evs)
    (hsha : Set.InjOn (fun key => sha256 (utf8 key)) (keysOf evs)) {t f token : String} {key : Option String}
    {now : τ} {response : IdempotencyResponse}
    (hevs : evs = pre ++ (.reserve t key f token now, .decided (.replay response)) :: post) :
    ∃ k pre₁ owner T mid, key = some k ∧ pre = pre₁ ++ (.commit owner response T, .committed) :: mid ∧
      (∃ ev ∈ pre₁, IssuesFor t k f owner ev) ∧
      (∀ ev ∈ mid, ¬ Rewrites (IdempotencyStore.cacheKey owner) ev) ∧
      (∀ ev ∈ mid, ∀ c, clock? ev = some c → c < T + cfg.ttlSeconds) ∧ now < T + cfg.ttlSeconds := by
  obtain ⟨d₁, d₂, h₁, hstep, -, -⟩ := Machine.Run.split (hevs ▸ h)
  obtain ⟨k, e, rfl, hk, rfl, hresp, hnow⟩ := step_replays (congrArg Prod.fst hstep)
  have hnamed : k ∈ keysOf evs :=
    ⟨t, e.fingerprint, token, now, _, hevs ▸ List.mem_append_right pre List.mem_cons_self⟩
  obtain ⟨pre₁, ev, mid, rfl, hw, hmid⟩ := entry_backed h₁ _ e hk
  unfold Writes at hw
  split at hw
  · rw [hw.2.2.2.2.1] at hresp
    exact nomatch hresp
  · rename_i owner published T
    obtain ⟨hkey, htok, hfp, -, hpub, hexp⟩ := hw
    rw [hpub] at hresp
    cases hresp
    have hl₁ : Machine.Respects Legal (pre₁ ++ (.commit owner response T, .committed) :: mid) :=
      Machine.Respects.of_append (hevs ▸ hl)
    obtain ⟨ev₀, hev₀, hr₀⟩ := hl₁ pre₁ _ mid rfl
    -- the committed reservation was issued for the same tenant, key and fingerprint
    obtain ⟨t', k', f', token', now', hop, -, rfl⟩ := issues_eq_issue h₁ (by simp [hev₀]) hr₀
    obtain ⟨rfl, hdigest⟩ := Prod.mk.inj hkey
    have hmem : (ev₀.1, ev₀.2) ∈ evs := by simp [hevs, hev₀]
    rw [hop] at hmem
    obtain rfl : k' = k := hsha ⟨_, _, _, _, _, hmem⟩ hnamed hdigest
    refine ⟨k', pre₁, _, T, mid, rfl, rfl, ⟨ev₀, hev₀, ?_⟩, ?_, ?_, hexp ▸ hnow⟩
    · obtain ⟨op, o⟩ := ev₀
      cases hop
      unfold Issues at hr₀
      split at hr₀
      · rename_i heq
        cases heq
        exact ⟨rfl, rfl, hfp.symm, hr₀⟩
      · exact hr₀.elim
    · intro ev hev
      rw [hkey]
      exact (hmid ev hev).1
    · intro ev hev c hc
      exact hexp ▸ (hmid ev hev).2 c hc
  · exact hw.elim

end Runs

/-! ## Ownership and replay fidelity of the store -/

/-- Some call could finalize `reservation` now. -/
def CanFinalize (sha256 : Bytes → Bytes) (cfg : StoreConfig τ) (s : Store τ) (reservation : Reservation τ) : Prop :=
  ∃ op, Finalizes reservation (op, (IdempotencyStore.step sha256 cfg s op).1)

/-- **Ownership and replay fidelity**, on legal runs and for a digest without collisions on the keys in use. -/
theorem idempotencyStore_ownership {sha256 : Bytes → Bytes} {cfg : StoreConfig τ} {evs : List (StoreEvent τ)}
    {s : Store τ} (h : (IdempotencyStore.machine sha256 cfg).Run evs s) (hl : Machine.Respects Legal evs)
    (hsha : Set.InjOn (fun key => sha256 (utf8 key)) (keysOf evs)) :
    -- at most one reservation of a pair can still be finalized, and it is the last one issued for the pair
    (∀ t k f f' r r', (∃ ev ∈ evs, IssuesFor t k f r ev) → (∃ ev ∈ evs, IssuesFor t k f' r' ev) →
      CanFinalize sha256 cfg s r → CanFinalize sha256 cfg s r' → r = r') ∧
    (∀ t k f r, (∃ ev ∈ evs, IssuesFor t k f r ev) → CanFinalize sha256 cfg s r →
      ∃ pre ev post, evs = pre ++ ev :: post ∧ IssuesFor t k f r ev ∧
        ∀ ev' ∈ post, ∀ f' r', ¬ IssuesFor t k f' r' ev') ∧
    -- a reservation is finalized once, and before it expires
    (∀ r pre ev post, evs = pre ++ ev :: post → Finalizes r ev →
      (∀ ev' ∈ pre ++ post, ¬ Finalizes r ev') ∧ ∃ now, clock? ev = some now ∧ now < r.expiresAt) ∧
    -- a replay is the last commit for the same arguments, still in time
    ∀ t key f token now r pre post,
      evs = pre ++ (.reserve t key f token now, .decided (.replay r)) :: post →
      ∃ k pre₁ owner T mid, key = some k ∧ pre = pre₁ ++ (.commit owner r T, .committed) :: mid ∧
        (∃ ev ∈ pre₁, IssuesFor t k f owner ev) ∧
        (∀ ev ∈ mid, ¬ Rewrites (IdempotencyStore.cacheKey owner) ev) ∧
        (∀ ev ∈ mid, ∀ c, clock? ev = some c → c < T + cfg.ttlSeconds) ∧ now < T + cfg.ttlSeconds := by
  obtain ⟨d, hd, hok, rfl⟩ := run_ledger h
  have hfin : ∀ {r}, CanFinalize sha256 cfg (Store.ofEntries d) r →
      ∃ op, Finalizes r (op, (Ledger.step sha256 cfg d op).1) := by
    rintro r ⟨op, hf⟩
    rw [(StoreInv.of_ledger hok).step_eq op] at hf
    exact ⟨op, hf⟩
  refine ⟨?_, ?_, ?_, ?_⟩
  · intro t k f f' r r' hr hr' hc hc'
    obtain ⟨op, hf⟩ := hfin hc
    obtain ⟨op', hf'⟩ := hfin hc'
    obtain ⟨pre, ev, post, hevs, hfor, hpost⟩ := last_issued hd hl hr hf
    obtain ⟨pre', ev', post', hevs', hfor', hpost'⟩ := last_issued hd hl hr' hf'
    obtain rfl := Machine.split_last_unique (P := fun ev => ∃ f r, IssuesFor t k f r ev) hevs ⟨f, r, hfor⟩
      (fun x hx ⟨f, r, hx'⟩ => hpost x hx f r hx') hevs' ⟨f', r', hfor'⟩
      (fun x hx ⟨f, r, hx'⟩ => hpost' x hx f r hx')
    exact issues_inj hfor.issues hfor'.issues
  · intro t k f r hr hc
    obtain ⟨op, hf⟩ := hfin hc
    exact last_issued hd hl hr hf
  · intro r pre ev post hevs hf
    refine ⟨fun ev' hev' hf' => ?_, finalizes_in_time hd hl hevs hf⟩
    rcases List.mem_append.mp hev' with hev' | hev'
    · obtain ⟨pre', post', rfl⟩ := List.append_of_mem hev'
      have hcut : evs = pre' ++ ev' :: (post' ++ ev :: post) := by
        rw [hevs, List.append_assoc, List.cons_append]
      exact not_finalizes_twice hd hl hcut hf' ev (by simp) hf
    · exact not_finalizes_twice hd hl hevs hf ev' hev' hf'
  · intro t key f token now r pre post hevs
    exact replay_source hd hl hsha hevs

/-! ### A reservation that expires and is issued again -/

/-- The defaults of the constructor, scaled down. -/
def demoConfig : StoreConfig ℤ where
  ttlSeconds := 300
  reservationTtlSeconds := 120
  maxEntries := 2
  maxResponseBytes := 64
  maxTotalResponseBytes := 128
  evictCompletedEntries := true
  ttl_pos := by decide
  reservation_ttl_pos := by decide
  entries_pos := by decide
  response_pos := by decide
  response_le_total := by decide

/-- SHA-256 of the key of the run below. -/
def demoKeyDigest : Bytes :=
  [190, 41, 116, 84, 105, 120, 227, 115, 158, 109, 109, 168, 92, 75, 233, 243, 52, 206, 50, 223, 43, 159, 212, 182,
    255, 27, 85, 192, 213, 126, 157, 68]

def demoDigest (message : Bytes) : Bytes := if message = utf8 "key-1" then demoKeyDigest else message

def demoReservation (issuedAt : ℤ) (token : String) : Reservation ℤ :=
  ⟨"agent", issuedAt + 120, demoKeyDigest, "fingerprint", token⟩

def demoResponse : IdempotencyResponse := ⟨200, [111, 107], [], by decide, by decide, by decide⟩

/-- The first owner is slow, the second one commits, and a third call replays. -/
def demoRun : List (StoreEvent ℤ) :=
  [(.reserve "agent" (some "key-1") "fingerprint" "token-1" 0, .decided (.reserved (demoReservation 0 "token-1"))),
    (.reserve "agent" (some "key-1") "fingerprint" "token-2" 130,
      .decided (.reserved (demoReservation 130 "token-2"))),
    (.commit (demoReservation 0 "token-1") demoResponse 131, .raised .invalidReservation),
    (.commit (demoReservation 130 "token-2") demoResponse 132, .committed),
    (.reserve "agent" (some "key-1") "fingerprint" "token-3" 140, .decided (.replay demoResponse))]

theorem demoRun_eq : (IdempotencyStore.machine demoDigest demoConfig).trace (demoRun.map Prod.fst) = demoRun := by
  decide +kernel

theorem demoRun_legal : Machine.Respects Legal demoRun := by
  refine (((((Machine.respects_nil Legal).concat ?_).concat ?_).concat ?_).concat ?_).concat ?_
  · exact nofun
  · simp [Legal, Draws]
  · exact ⟨_, List.mem_cons_self, rfl⟩
  · exact ⟨_, List.mem_cons_of_mem _ List.mem_cons_self, rfl⟩
  · simp [Legal, Draws]

theorem demoRun_keys : keysOf demoRun ⊆ {"key-1"} := by
  rintro key ⟨t, f, token, now, o, h⟩
  simp only [demoRun, List.mem_cons, Prod.mk.injEq, StoreOp.reserve.injEq, Option.some.injEq, reduceCtorEq,
    false_and, false_or, List.not_mem_nil, or_false] at h
  rcases h with h | h | h <;> exact h.1.2.1

/-- The replay of the run comes from the second owner's commit. -/
theorem idempotencyStore_ownership_reissued :
    ∃ k pre owner T mid, some "key-1" = some k ∧
      demoRun.take 4 = pre ++ (.commit owner demoResponse T, .committed) :: mid ∧
      (∃ ev ∈ pre, IssuesFor "agent" k "fingerprint" owner ev) ∧
      (∀ ev ∈ mid, ¬ Rewrites (IdempotencyStore.cacheKey owner) ev) ∧
      (∀ ev ∈ mid, ∀ c, clock? ev = some c → c < T + 300) ∧ (140 : ℤ) < T + 300 := by
  have hrun := Machine.run_after (IdempotencyStore.machine demoDigest demoConfig) (demoRun.map Prod.fst)
  rw [demoRun_eq] at hrun
  have hinj : Set.InjOn (fun key => demoDigest (utf8 key)) (keysOf demoRun) :=
    fun a ha b hb _ => (demoRun_keys ha).trans (demoRun_keys hb).symm
  exact (idempotencyStore_ownership hrun demoRun_legal hinj).2.2.2 "agent" (some "key-1") "fingerprint" "token-3" 140
    demoResponse (demoRun.take 4) [] rfl

end Lucent.Access
