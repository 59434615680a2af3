import Mathlib.Data.List.Perm.Subperm
import Lucent.Access.Atomicity
import Lucent.Access.Durability
import Lucent.Access.Eviction

/-!
# Lucent.Access.Withdrawal — the store without the calls of one client

A client is known by the tokens of its reservations, and has published nothing under them.

* `Without tokens now d d'`: key for key, `d'` has what is live in `d` under other tokens.
* `Without.own`, `Without.refused`, `Without.accepted`: a call of the client changes `d` only, one that is refused
  nothing; any other call has the same outcome on both.
* `run_without`: the calls of the others that were accepted are a run of their own, to such a ledger.
* `Agree.reserve_eq`: ledgers with the same live entries decide every reservation alike.
* `token_ne_of_aborted`: an aborted reservation that was not committed has no entry.
-/


namespace Lucent.Lib.OrderedDict

variable {α β : Type} [DecidableEq α]

/-- What is found in one dictionary is found in the other, so its entries are among them. -/
theorem entries_subperm {d d' : OrderedDict α β} (h : ∀ k v, d.get? k = some v → d'.get? k = some v) :
    d.entries.Subperm d'.entries := by
  refine List.subperm_of_subset d.keys_nodup.of_map fun e he => ?_
  exact get?_eq_some_iff.mp (h e.1 e.2 (get?_eq_some_iff.mpr he))

theorem length_le_of_get? {d d' : OrderedDict α β} (h : ∀ k v, d.get? k = some v → d'.get? k = some v) :
    d.length ≤ d'.length := (entries_subperm h).length_le

theorem sum_le_of_get? {d d' : OrderedDict α β} (h : ∀ k v, d.get? k = some v → d'.get? k = some v) {f : β → ℤ}
    (hf : ∀ v, 0 ≤ f v) : d.sum f ≤ d'.sum f := by
  obtain ⟨l, hperm, hsub⟩ := entries_subperm h
  unfold sum
  rw [← (hperm.map fun e => f e.2).sum_eq]
  refine (hsub.map _).sum_le_sum fun a ha => ?_
  obtain ⟨e, -, rfl⟩ := List.mem_map.mp ha
  exact hf e.2

/-- Dictionaries with the same lookups have the same entries, in some order. -/
theorem entries_perm {d d' : OrderedDict α β} (h : ∀ k, d.get? k = d'.get? k) : d.entries.Perm d'.entries :=
  (entries_subperm fun k _ hk => (h k).symm.trans hk).antisymm (entries_subperm fun k _ hk => (h k).trans hk)

end Lucent.Lib.OrderedDict

namespace Lucent.Access

open Lucent.Lib StoreEvent

variable {τ : Type}

/-! ## Calls -/

/-- The token a call is made with. -/
def StoreOp.token? : StoreOp τ → Option String
  | .reserve _ _ _ token _ => some token
  | .commit reservation _ _ | .abort reservation _ => some reservation.token
  | .len _ | .cachedResponseBytes _ => none

/-- The clock reading a call would make. -/
def StoreOp.now : StoreOp τ → τ
  | .reserve _ _ _ _ now | .commit _ _ now | .abort _ now | .len now | .cachedResponseBytes now => now

/-- The call was decided, and it was not refused. -/
def StoreOutcome.accepted : StoreOutcome τ → Bool
  | .decided _ | .committed | .aborted _ => true
  | .length _ | .bytes _ | .raised _ => false

/-- The call is made with one of these tokens. -/
def StoreOp.by (tokens : List String) (op : StoreOp τ) : Bool := op.token?.any tokens.contains

/-- The calls of the others that were accepted. -/
def others (tokens : List String) (evs : List (StoreEvent τ)) : List (StoreEvent τ) :=
  evs.filter fun ev => ev.2.accepted && !ev.1.by tokens

theorem StoreOp.by_iff {tokens : List String} {op : StoreOp τ} {token : String} (h : op.token? = some token) :
    op.by tokens = true ↔ token ∈ tokens := by
  rw [StoreOp.by, h]
  exact List.contains_iff_mem

theorem others_append (tokens : List String) (evs evs' : List (StoreEvent τ)) :
    others tokens (evs ++ evs') = others tokens evs ++ others tokens evs' := List.filter_append ..

/-- A call reads the clock it would read, or none. -/
theorem clock?_eq_some {ev : StoreEvent τ} {t : τ} (h : clock? ev = some t) : ev.1.now = t := by
  unfold clock? at h
  split at h <;> cases h <;> rfl

theorem others_eq_nil {tokens : List String} {ev : StoreEvent τ} (h : (ev.2.accepted && !ev.1.by tokens) = false) :
    others tokens [ev] = [] := by
  rw [others, List.filter_singleton, h]
  rfl

theorem others_eq_self {tokens : List String} {ev : StoreEvent τ} (h : (ev.2.accepted && !ev.1.by tokens) = true) :
    others tokens [ev] = [ev] := by
  rw [others, List.filter_singleton, h]
  rfl

/-- An accepted call reads the clock. -/
theorem Ledger.clock?_of_accepted {op : StoreOp τ} {o : StoreOutcome τ} (h : o.accepted = true) :
    clock? (op, o) = some op.now := by
  rcases op with _ | _ | _ | _ | _ <;> rcases o with _ | _ | _ | _ | _ | _
  all_goals first | rfl | cases h

namespace Ledger

variable [LinearOrder τ] {d d' : Ledger τ} {key : CacheKey} {e : Entry τ} {now : τ} {tokens : List String}

/-! ## Two ledgers -/

/-- Key for key, `d'` has what is live in `d` under other tokens; under these tokens nothing was published. -/
structure Without (tokens : List String) (now : τ) (d d' : Ledger τ) : Prop where
  get?_iff : ∀ key e, (live now d').get? key = some e ↔ (live now d).get? key = some e ∧ e.token ∉ tokens
  pending : ∀ key e, (live now d).get? key = some e → e.token ∈ tokens → e.response = none

/-- The same live entries, in whatever order of use. -/
def Agree (now : τ) (d d' : Ledger τ) : Prop := ∀ key, (live now d).get? key = (live now d').get? key

theorem Agree.refl (now : τ) (d : Ledger τ) : Agree now d d := fun _ => rfl

theorem agree_live (now : τ) (d : Ledger τ) : Agree now (live now d) d := by
  intro key
  refine Option.ext fun e => ?_
  rw [get?_live]
  exact ⟨fun h => h.1, fun h => ⟨h, (get?_live.mp h).2⟩⟩

theorem agree_moveToEnd (now : τ) (d : Ledger τ) (key' : CacheKey) : Agree now ((live now d).moveToEnd key') d := by
  intro key
  refine Option.ext fun e => ?_
  rw [get?_live, OrderedDict.get?_moveToEnd]
  exact ⟨fun h => h.1, fun h => ⟨h, (get?_live.mp h).2⟩⟩

theorem get?_live_push {key' : CacheKey} {e' : Entry τ} : (live now ((live now d).push key' e')).get? key = some e ↔
    (key = key' ∧ e = e' ∧ now < e.expiresAt) ∨ (key ≠ key' ∧ (live now d).get? key = some e) := by
  rw [get?_live, OrderedDict.get?_push_eq_some_iff]
  constructor
  · rintro ⟨⟨hkey, he⟩ | ⟨hne, hk⟩, hnow⟩
    · exact .inl ⟨hkey, he, hnow⟩
    · exact .inr ⟨hne, hk⟩
  · rintro (⟨hkey, he, hnow⟩ | ⟨hne, hk⟩)
    · exact ⟨.inl ⟨hkey, he⟩, hnow⟩
    · exact ⟨.inr ⟨hne, hk⟩, (get?_live.mp hk).2⟩

theorem get?_live_erase {key' : CacheKey} : (live now ((live now d).erase key')).get? key = some e ↔
    key ≠ key' ∧ (live now d).get? key = some e := by
  rw [get?_live, OrderedDict.get?_erase_eq_some_iff]
  exact ⟨fun h => h.1, fun h => ⟨h, (get?_live.mp h.2).2⟩⟩

namespace Without

theorem empty (tokens : List String) (now : τ) : Without tokens now OrderedDict.empty OrderedDict.empty := by
  have hnone : ∀ key e, (live now (OrderedDict.empty : Ledger τ)).get? key ≠ some e := by
    intro key e hk
    cases (get?_live.mp hk).1
  exact ⟨fun key e => iff_of_false (hnone key e) fun hk => hnone key e hk.1, fun key e hk => absurd hk (hnone key e)⟩

theorem later (h : Without tokens now d d') {now' : τ} (hle : now ≤ now') : Without tokens now' d d' where
  get?_iff key e := by
    rw [get?_live, get?_live]
    constructor
    · rintro ⟨hk, hnow⟩
      obtain ⟨hk', htoken⟩ := (h.get?_iff key e).mp (get?_live.mpr ⟨hk, hle.trans_lt hnow⟩)
      exact ⟨⟨(get?_live.mp hk').1, hnow⟩, htoken⟩
    · rintro ⟨⟨hk, hnow⟩, htoken⟩
      have hk' := (h.get?_iff key e).mpr ⟨get?_live.mpr ⟨hk, hle.trans_lt hnow⟩, htoken⟩
      exact ⟨(get?_live.mp hk').1, hnow⟩
  pending key e hk := by
    obtain ⟨hk, hnow⟩ := get?_live.mp hk
    exact h.pending key e (get?_live.mpr ⟨hk, hle.trans_lt hnow⟩)

theorem congr (h : Without tokens now d d') {d₁ d₁' : Ledger τ} (hd : Agree now d₁ d) (hd' : Agree now d₁' d') :
    Without tokens now d₁ d₁' where
  get?_iff key e := by
    rw [hd key, hd' key]
    exact h.get?_iff key e
  pending key e hk := h.pending key e (hd key ▸ hk)

/-- A ledger without the tokens is what the other one is without them. -/
theorem agree (h : Without tokens now d d') (hnone : ∀ key e, (live now d).get? key = some e → e.token ∉ tokens) :
    Agree now d d' := fun key => Option.ext fun e =>
  ⟨fun hk => (h.get?_iff key e).mpr ⟨hk, hnone key e hk⟩, fun hk => ((h.get?_iff key e).mp hk).1⟩

theorem get?_none (h : Without tokens now d d') (hk : (live now d).get? key = none) :
    (live now d').get? key = none := by
  refine Option.eq_none_iff_forall_ne_some.mpr fun e he => ?_
  cases hk.symm.trans ((h.get?_iff key e).mp he).1

/-- A published entry is in both. -/
theorem published (h : Without tokens now d d') (hk : (live now d).get? key = some e) {response : IdempotencyResponse}
    (hr : e.response = some response) : (live now d').get? key = some e := by
  refine (h.get?_iff key e).mpr ⟨hk, fun htoken => ?_⟩
  cases hr.symm.trans (h.pending key e hk htoken)

/-- The others put an entry into both. -/
theorem push (h : Without tokens now d d') {e' : Entry τ} (he : e'.token ∉ tokens) (key' : CacheKey) :
    Without tokens now ((live now d).push key' e') ((live now d').push key' e') where
  get?_iff key e := by
    rw [get?_live_push, get?_live_push, h.get?_iff key e]
    constructor
    · rintro (⟨hkey, rfl, hnow⟩ | ⟨hne, hk, htoken⟩)
      · exact ⟨.inl ⟨hkey, rfl, hnow⟩, he⟩
      · exact ⟨.inr ⟨hne, hk⟩, htoken⟩
    · rintro ⟨⟨hkey, rfl, hnow⟩ | ⟨hne, hk⟩, htoken⟩
      · exact .inl ⟨hkey, rfl, hnow⟩
      · exact .inr ⟨hne, hk, htoken⟩
  pending key e hk htoken := by
    rcases get?_live_push.mp hk with ⟨-, rfl, -⟩ | ⟨-, hk⟩
    · exact absurd htoken he
    · exact h.pending key e hk htoken

/-- The client puts a pending entry into the first. -/
theorem push_own (h : Without tokens now d d') {e' : Entry τ} (he : e'.token ∈ tokens) (hr : e'.response = none)
    {key' : CacheKey} (hk' : (live now d).get? key' = none) : Without tokens now ((live now d).push key' e') d' where
  get?_iff key e := by
    rw [get?_live_push, h.get?_iff key e]
    constructor
    · rintro ⟨hk, htoken⟩
      refine ⟨.inr ⟨?_, hk⟩, htoken⟩
      rintro rfl
      exact nomatch hk'.symm.trans hk
    · rintro ⟨⟨-, rfl, -⟩ | ⟨-, hk⟩, htoken⟩
      · exact absurd he htoken
      · exact ⟨hk, htoken⟩
  pending key e hk htoken := by
    rcases get?_live_push.mp hk with ⟨-, rfl, -⟩ | ⟨-, hk⟩
    · exact hr
    · exact h.pending key e hk htoken

/-- The others remove an entry from both. -/
theorem erase (h : Without tokens now d d') (key' : CacheKey) :
    Without tokens now ((live now d).erase key') ((live now d').erase key') where
  get?_iff key e := by
    rw [get?_live_erase, get?_live_erase, h.get?_iff key e, and_assoc]
  pending key e hk := h.pending key e (get?_live_erase.mp hk).2

/-- The client removes its entry from the first. -/
theorem erase_own (h : Without tokens now d d') {e' : Entry τ} {key' : CacheKey}
    (hk' : (live now d).get? key' = some e')
    (he : e'.token ∈ tokens) : Without tokens now ((live now d).erase key') d' where
  get?_iff key e := by
    rw [get?_live_erase, h.get?_iff key e]
    constructor
    · rintro ⟨hk, htoken⟩
      refine ⟨⟨?_, hk⟩, htoken⟩
      rintro rfl
      rw [hk'] at hk
      cases hk
      exact htoken he
    · rintro ⟨⟨-, hk⟩, htoken⟩
      exact ⟨hk, htoken⟩
  pending key e hk := h.pending key e (get?_live_erase.mp hk).2

/-- There is room in the second where there is room in the first. -/
theorem room [Zero τ] {cfg : StoreConfig τ} (hev : cfg.evictCompletedEntries = false) (h : Without tokens now d d')
    {d₁ : Ledger τ} (hroom : makeRoom cfg (live now d) = some d₁) (hadm : admits cfg d₁ = true) :
    makeRoom cfg (live now d') = some (live now d') ∧ admits cfg (live now d') = true := by
  have hsub : ∀ key e, (live now d').get? key = some e → (live now d).get? key = some e := fun key e hk =>
    ((h.get?_iff key e).mp hk).1
  have hlength := OrderedDict.length_le_of_get? hsub
  have hcached : cached (live now d') ≤ cached (live now d) :=
    OrderedDict.sum_le_of_get? hsub Entry.cachedBytes_nonneg
  have hreserved : reserved (live now d') ≤ reserved (live now d) :=
    OrderedDict.sum_le_of_get? hsub Entry.reservedBytes_nonneg
  obtain rfl := makeRoom_noEvict hev hroom
  constructor
  · have hlt : (live now d).length < cfg.maxEntries := by
      by_contra hlt
      rw [makeRoom, if_neg hlt, hev] at hroom
      cases hroom
    rw [makeRoom, if_pos (hlength.trans_lt hlt)]
  · simp only [admits, hev, Bool.false_or, decide_eq_true_eq] at hadm ⊢
    omega

end Without

/-! ## One call -/

variable [Zero τ] [Add τ] [Sub τ] {sha256 : Bytes → Bytes} {cfg : StoreConfig τ}

theorem reserve_replays {r : IdempotencyResponse} (hk : (live now d).get? key = some e) (hr : e.response = some r)
    (token : String) :
    reserve cfg key e.fingerprint token now d = (.ok (.replay r), (live now d).moveToEnd key) := by
  unfold reserve
  simp only [hk, hr, ne_eq, not_true_eq_false, if_false]

theorem reserve_issues (hk : (live now d).get? key = none) {d₁ : Ledger τ} (hroom : makeRoom cfg (live now d) = some d₁)
    (hadm : admits cfg d₁ = true) (fingerprint token : String) : reserve cfg key fingerprint token now d =
      (.ok (.reserved (issue cfg key fingerprint token now)), d₁.push key (pending cfg fingerprint token now)) := by
  unfold reserve
  simp only [hk, hroom, hadm, if_true]

omit [Sub τ] in
theorem commit_publishes (hev : cfg.evictCompletedEntries = false) {owner : Reservation τ}
    {response : IdempotencyResponse} (hsize : response.sizeBytes ≤ cfg.maxResponseBytes)
    (hk : (live now d).get? (IdempotencyStore.cacheKey owner) = some e)
    (hown : IdempotencyStore.owns (some e) owner = true) : commit cfg owner response now d =
      (.ok (), (live now d).push (IdempotencyStore.cacheKey owner) (e.completed response (now + cfg.ttlSeconds))) := by
  unfold commit
  rw [if_neg (not_lt.mpr hsize)]
  simp only [hk, hown, if_true, hev, Bool.false_eq_true, if_false]

/-- A call that is not accepted leaves the live entries; before the lock, everything. -/
theorem step_refused {op : StoreOp τ} (h : (step sha256 cfg d op).1.accepted = false) :
    Agree op.now (step sha256 cfg d op).2 d ∧
      (clock? (op, (step sha256 cfg d op).1) = none → (step sha256 cfg d op).2 = d) := by
  rcases op with ⟨tenantId, key', fingerprint, token, now⟩ | ⟨owner, response, now⟩ | ⟨owner, now⟩ | ⟨now⟩ | ⟨now⟩
  · rcases hcheck : IdempotencyStore.checkReserve tenantId key' fingerprint with detail | ⟨tenant, k, f⟩
    · rw [step_reserve_error hcheck]
      exact ⟨.refl now d, fun _ => rfl⟩
    · rw [step_reserve_ok hcheck] at h ⊢
      have hcase := reserve_case cfg (tenant, sha256 (utf8 k)) f token now d
      generalize reserve cfg (tenant, sha256 (utf8 k)) f token now d = x at h hcase ⊢
      rcases hcase with _ | _ | _ | _ | _
      · exact ⟨agree_live now d, nofun⟩
      · exact ⟨agree_live now d, nofun⟩
      · cases h
      · exact ⟨agree_live now d, nofun⟩
      · cases h
  · rw [step_commit] at h ⊢
    have hcase := commit_case cfg owner response now d
    generalize commit cfg owner response now d = x at h hcase ⊢
    rcases hcase with _ | _ | _
    · exact ⟨.refl now d, fun _ => rfl⟩
    · exact ⟨agree_live now d, nofun⟩
    · cases h
  · cases h
  · exact ⟨agree_live now d, nofun⟩
  · exact ⟨agree_live now d, nofun⟩

namespace Without

/-- A call that is not accepted. -/
theorem refused {op : StoreOp τ} (h : Without tokens op.now d d')
    (hnot : (step sha256 cfg d op).1.accepted = false) : Without tokens op.now (step sha256 cfg d op).2 d' :=
  h.congr (step_refused hnot).1 (.refl op.now d')

/-- A call of the client that publishes nothing. -/
theorem own (hev : cfg.evictCompletedEntries = false) {op : StoreOp τ} (h : Without tokens op.now d d')
    (hby : op.by tokens = true) (hcommit : (step sha256 cfg d op).1 ≠ .committed) :
    Without tokens op.now (step sha256 cfg d op).2 d' := by
  by_cases hacc : (step sha256 cfg d op).1.accepted = false
  · exact h.refused hacc
  rcases op with ⟨tenantId, key', fingerprint, token, now⟩ | ⟨owner, response, now⟩ | ⟨owner, now⟩ | ⟨now⟩ | ⟨now⟩ <;>
    dsimp only [StoreOp.now] at h ⊢
  · have htoken : token ∈ tokens := (StoreOp.by_iff rfl).mp hby
    rcases hcheck : IdempotencyStore.checkReserve tenantId key' fingerprint with detail | ⟨tenant, k, f⟩
    · exact absurd (by rw [step_reserve_error hcheck]; rfl) hacc
    · rw [step_reserve_ok hcheck] at hacc ⊢
      have hcase := reserve_case cfg (tenant, sha256 (utf8 k)) f token now d
      generalize reserve cfg (tenant, sha256 (utf8 k)) f token now d = x at hacc hcase ⊢
      rcases hcase with _ | _ | _ | _ | ⟨hk, d₁, hroom, -⟩
      · exact absurd rfl hacc
      · exact absurd rfl hacc
      · exact h.congr (agree_moveToEnd now d _) (.refl now d')
      · exact absurd rfl hacc
      · obtain rfl := makeRoom_noEvict hev hroom
        exact h.push_own htoken rfl hk
  · rw [step_commit] at hacc hcommit ⊢
    have hcase := commit_case cfg owner response now d
    generalize commit cfg owner response now d = x at hacc hcommit hcase ⊢
    rcases hcase with _ | _ | _
    · exact absurd rfl hacc
    · exact absurd rfl hacc
    · exact absurd rfl hcommit
  · have htoken : owner.token ∈ tokens := (StoreOp.by_iff rfl).mp hby
    rw [step_abort]
    unfold abort
    dsimp only
    rcases hk : (live now d).get? (IdempotencyStore.cacheKey owner) with _ | e
    · exact h.congr (agree_live now d) (.refl now d')
    · by_cases hown : IdempotencyStore.owns (some e) owner = true
      · rw [if_pos hown]
        exact h.erase_own hk ((IdempotencyStore.owns_some_iff.mp hown).2.1 ▸ htoken)
      · rw [if_neg hown]
        exact h.congr (agree_live now d) (.refl now d')
  · exact absurd rfl hacc
  · exact absurd rfl hacc

/-- A call of the others that is accepted. -/
theorem accepted (hev : cfg.evictCompletedEntries = false) {op : StoreOp τ} (h : Without tokens op.now d d')
    (hby : op.by tokens = false) (hacc : (step sha256 cfg d op).1.accepted = true) :
    (step sha256 cfg d' op).1 = (step sha256 cfg d op).1 ∧
      Without tokens op.now (step sha256 cfg d op).2 (step sha256 cfg d' op).2 := by
  rcases op with ⟨tenantId, key', fingerprint, token, now⟩ | ⟨owner, response, now⟩ | ⟨owner, now⟩ | ⟨now⟩ | ⟨now⟩ <;>
    dsimp only [StoreOp.now] at h ⊢
  · have htoken : token ∉ tokens := fun hmem =>
      Bool.false_ne_true (hby.symm.trans ((StoreOp.by_iff rfl).mpr hmem))
    rcases hcheck : IdempotencyStore.checkReserve tenantId key' fingerprint with detail | ⟨tenant, k, f⟩
    · rw [step_reserve_error hcheck] at hacc
      cases hacc
    · rw [step_reserve_ok hcheck token now d] at hacc ⊢
      rw [step_reserve_ok hcheck token now d']
      have hcase := reserve_case cfg (tenant, sha256 (utf8 k)) f token now d
      generalize reserve cfg (tenant, sha256 (utf8 k)) f token now d = x at hacc hcase ⊢
      rcases hcase with _ | _ | ⟨e, r, hk, rfl, hr⟩ | _ | ⟨hk, d₁, hroom, hadm⟩
      · cases hacc
      · cases hacc
      · rw [reserve_replays (h.published hk hr) hr]
        exact ⟨rfl, h.congr (agree_moveToEnd now d _) (agree_moveToEnd now d' _)⟩
      · cases hacc
      · obtain ⟨hroom', hadm'⟩ := h.room hev hroom hadm
        obtain rfl := makeRoom_noEvict hev hroom
        rw [reserve_issues (h.get?_none hk) hroom' hadm']
        exact ⟨rfl, h.push htoken _⟩
  · have htoken : owner.token ∉ tokens := fun hmem =>
      Bool.false_ne_true (hby.symm.trans ((StoreOp.by_iff rfl).mpr hmem))
    rw [step_commit] at hacc ⊢
    rw [step_commit]
    have hcase := commit_case cfg owner response now d
    generalize commit cfg owner response now d = x at hacc hcase ⊢
    rcases hcase with _ | _ | ⟨hsize, e, hk, hown⟩
    · cases hacc
    · cases hacc
    · have he : e.token ∉ tokens := (IdempotencyStore.owns_some_iff.mp hown).2.1 ▸ htoken
      have he' : (e.completed response (now + cfg.ttlSeconds)).token ∉ tokens := he
      rw [commit_publishes hev hsize ((h.get?_iff _ e).mpr ⟨hk, he⟩) hown,
        if_neg (by rw [hev]; exact Bool.false_ne_true)]
      exact ⟨rfl, h.push he' _⟩
  · have htoken : owner.token ∉ tokens := fun hmem =>
      Bool.false_ne_true (hby.symm.trans ((StoreOp.by_iff rfl).mpr hmem))
    rw [step_abort, step_abort]
    unfold abort
    dsimp only
    by_cases hown : IdempotencyStore.owns ((live now d).get? (IdempotencyStore.cacheKey owner)) owner = true
    · rcases hk : (live now d).get? (IdempotencyStore.cacheKey owner) with _ | e
      · rw [hk] at hown
        cases hown
      rw [hk] at hown
      have he : e.token ∉ tokens := (IdempotencyStore.owns_some_iff.mp hown).2.1 ▸ htoken
      rw [(h.get?_iff _ e).mpr ⟨hk, he⟩, if_pos hown, if_pos hown]
      exact ⟨rfl, h.erase _⟩
    · have hown' : ¬ IdempotencyStore.owns ((live now d').get? (IdempotencyStore.cacheKey owner)) owner = true := by
        rcases hk : (live now d').get? (IdempotencyStore.cacheKey owner) with _ | e
        · exact Bool.false_ne_true
        · rw [((h.get?_iff _ e).mp hk).1] at hown
          exact hown
      rw [if_neg hown, if_neg hown']
      exact ⟨rfl, h.congr (agree_live now d) (agree_live now d')⟩
  · cases hacc
  · cases hacc

end Without

end Ledger

/-! ## Runs -/

section Runs

variable [LinearOrder τ] [Zero τ] [Add τ] [Sub τ] {sha256 : Bytes → Bytes} {cfg : StoreConfig τ}
  {evs : List (StoreEvent τ)} {d : Ledger τ} {tokens : List String}

/-- **Run lemma**: the accepted calls of the others are a run of their own, to the ledger without the client. -/
theorem run_without (hev : cfg.evictCompletedEntries = false) (h : (Ledger.machine sha256 cfg).Run evs d)
    (hclock : ClockOrdered evs) (hcommit : ∀ ev ∈ evs, ev.1.by tokens = true → ev.2 ≠ .committed) :
    ∃ d', (Ledger.machine sha256 cfg).Run (others tokens evs) d' ∧
      ∀ now, (∀ ev ∈ evs, ∀ t, clock? ev = some t → t ≤ now) → Ledger.Without tokens now d d' := by
  induction evs using List.reverseRecOn generalizing d with
  | nil =>
    obtain rfl := Machine.steps_nil_iff.mp h
    exact ⟨_, .nil _, fun now _ => .empty tokens now⟩
  | append_singleton evs ev ih =>
    obtain ⟨d₁, h₁, hlast⟩ := Machine.steps_append_iff.mp h
    have hstep := Machine.steps_singleton_iff.mp hlast
    obtain ⟨hclock₁, -, hbefore⟩ := List.pairwise_append.mp hclock
    obtain ⟨d', hrun', hwithout⟩ := ih h₁ hclock₁ fun ev' hev' => hcommit ev' (List.mem_append_left _ hev')
    have hcommit := hcommit ev (List.mem_append_right _ (List.mem_singleton_self _))
    obtain ⟨op, o⟩ := ev
    obtain rfl : (Ledger.step sha256 cfg d₁ op).1 = o := congrArg Prod.fst hstep
    obtain rfl : (Ledger.step sha256 cfg d₁ op).2 = d := congrArg Prod.snd hstep
    rw [others_append]
    -- a call that reads the clock finds the ledgers of the calls before related at its reading
    have hrelated : ∀ t, clock? (op, (Ledger.step sha256 cfg d₁ op).1) = some t → Ledger.Without tokens op.now d₁ d' :=
      fun t ht => hwithout op.now fun ev' hev' c hc => clock?_eq_some ht ▸
        hbefore ev' hev' _ (List.mem_singleton_self _) c t hc ht
    have hlast : ∀ {now}, (∀ ev ∈ evs ++ [(op, (Ledger.step sha256 cfg d₁ op).1)], ∀ t, clock? ev = some t → t ≤ now) →
        ∀ t, clock? (op, (Ledger.step sha256 cfg d₁ op).1) = some t → op.now ≤ now := fun hnow t ht =>
      clock?_eq_some ht ▸ hnow _ (List.mem_append_right _ (List.mem_singleton_self _)) t ht
    cases hacc : (Ledger.step sha256 cfg d₁ op).1.accepted with
    | true =>
      have hread : clock? (op, (Ledger.step sha256 cfg d₁ op).1) = some op.now := Ledger.clock?_of_accepted hacc
      cases hby : op.by tokens with
      | true =>
        rw [others_eq_nil (by rw [hacc, hby]; rfl), List.append_nil]
        exact ⟨d', hrun', fun now hnow => ((hrelated _ hread).own hev hby (hcommit hby)).later (hlast hnow _ hread)⟩
      | false =>
        rw [others_eq_self (by rw [hacc, hby]; rfl)]
        obtain ⟨hsame, hafter⟩ := (hrelated _ hread).accepted hev hby hacc
        refine ⟨(Ledger.step sha256 cfg d' op).2, Machine.steps_append_iff.mpr ⟨d', hrun', ?_⟩,
          fun now hnow => hafter.later (hlast hnow _ hread)⟩
        exact Machine.steps_singleton_iff.mpr (Prod.ext hsame rfl)
    | false =>
      rw [others_eq_nil (by rw [hacc]; rfl), List.append_nil]
      refine ⟨d', hrun', fun now hnow => ?_⟩
      cases hread : clock? (op, (Ledger.step sha256 cfg d₁ op).1) with
      | none =>
        rw [(Ledger.step_refused hacc).2 hread]
        exact hwithout now fun ev' hev' => hnow ev' (List.mem_append_left _ hev')
      | some t => exact ((hrelated t hread).refused hacc).later (hlast hnow t hread)

/-- The token of an entry is that of a reservation. -/
theorem entry_issued (h : (Ledger.machine sha256 cfg).Run evs d) (hl : Machine.Respects Legal evs) {key : CacheKey}
    {e : Entry τ} (hk : d.get? key = some e) : ∃ r, (∃ ev ∈ evs, Issues r ev) ∧ r.token = e.token := by
  obtain ⟨pre, ev, post, hsplit, hw, -⟩ := entry_backed h key e hk
  have hev : ev ∈ evs := hsplit ▸ List.mem_append_right _ List.mem_cons_self
  unfold Writes at hw
  split at hw
  · obtain ⟨-, htoken, -⟩ := hw
    exact ⟨_, ⟨_, hev, rfl⟩, htoken.symm⟩
  · obtain ⟨-, htoken, -⟩ := hw
    obtain ⟨ev', hev', hissues⟩ := hl pre _ post hsplit
    exact ⟨_, ⟨ev', hsplit ▸ List.mem_append_left _ hev', hissues⟩, htoken.symm⟩
  · exact hw.elim

/-- **An aborted reservation** that was never committed has left no entry. -/
theorem token_ne_of_aborted (h : (Ledger.machine sha256 cfg).Run evs d) (hl : Machine.Respects Legal evs)
    {r : Reservation τ} (hr : ∃ ev ∈ evs, Issues r ev) {now : τ} {o : StoreOutcome τ} (habort : (.abort r now, o) ∈ evs)
    (hcommit : ∀ response t, (.commit r response t, .committed) ∉ evs) {key : CacheKey} {e : Entry τ}
    (hk : d.get? key = some e) : e.token ≠ r.token := by
  intro htoken
  obtain ⟨ev₀, hev₀, hr₀⟩ := hr
  have hdraws₀ := issues_draws h hev₀ hr₀
  obtain ⟨pre₀, post₀, hsplit₀⟩ := List.append_of_mem hev₀
  -- whoever draws the token issues the reservation
  have hsame : ∀ {ev r'}, ev ∈ evs → Issues r' ev → r'.token = r.token → r' = r ∧ Issues r ev := by
    intro ev r' hev hissues hsame
    obtain ⟨pre', post', hsplit'⟩ := List.append_of_mem hev
    obtain ⟨-, rfl, -⟩ := draws_unique hl hsplit' (hsame ▸ issues_draws h hev hissues) hsplit₀ hdraws₀
    exact ⟨issues_inj hissues hr₀, hr₀⟩
  obtain ⟨pre, ev, post, hsplit, hw, hpost⟩ := entry_backed h key e hk
  have hev : ev ∈ evs := by rw [hsplit]; exact List.mem_append_right _ List.mem_cons_self
  obtain ⟨hissues, hkey, hexp⟩ : Issues r ev ∧ IdempotencyStore.cacheKey r = key ∧ e.expiresAt = r.expiresAt := by
    unfold Writes at hw
    split at hw
    · obtain ⟨hkey, htok, -, -, -, hexp⟩ := hw
      obtain ⟨rfl, hissues⟩ := hsame hev rfl (htok.symm.trans htoken)
      exact ⟨hissues, hkey, hexp⟩
    · obtain ⟨-, htok, -⟩ := hw
      obtain ⟨ev', hev', hissues'⟩ := hl pre _ post hsplit
      obtain ⟨rfl, -⟩ := hsame (by rw [hsplit]; exact List.mem_append_left _ hev') hissues' (htok.symm.trans htoken)
      exact absurd hev (hcommit _ _)
    · exact hw.elim
  subst hsplit
  rcases List.mem_append.mp habort with hbefore | hafter
  · -- it was aborted before it was issued
    obtain ⟨pre', post', rfl⟩ := List.append_of_mem hbefore
    obtain ⟨ev', hev', hissues'⟩ := hl pre' (.abort r now, o) (post' ++ ev :: post) (List.append_assoc ..)
    have hfresh : ev' ∈ pre' ++ (.abort r now, o) :: post' := List.mem_append_left _ hev'
    obtain ⟨op, out⟩ := ev
    have hlegal := hl _ _ _ rfl
    have hdraws := issues_draws h hev hissues
    unfold Draws at hdraws
    split at hdraws
    · rename_i heq
      cases heq
      subst hdraws
      exact hlegal ev' hfresh (issues_draws h (List.mem_append_left _ hfresh) hissues')
    · exact hdraws
  · rcases List.mem_cons.mp hafter with rfl | hafter
    · exact hissues
    -- it was aborted while its entry was there, which removes it
    obtain ⟨mid, post', rfl⟩ := List.append_of_mem hafter
    have hcut : pre ++ ev :: (mid ++ (.abort r now, o) :: post') =
        (pre ++ ev :: mid) ++ (.abort r now, o) :: post' := by
      rw [List.append_assoc, List.cons_append]
    rw [hcut] at h hl
    obtain ⟨d₁, d₂, h₁, hstep, -, -⟩ := h.split
    have hmid : ∀ ev' ∈ mid, ev' ∈ mid ++ (.abort r now, o) :: post' := fun ev' => List.mem_append_left _
    obtain ⟨e₁, hk₁, hown, hexp₁⟩ := pending_kept h₁ hl.of_append hissues
      (fun ev' hev' t ht => hexp ▸ (hpost ev' (hmid ev' hev')).2 t ht)
      fun ev' hev' hf => (hpost ev' (hmid ev' hev')).1 ⟨r, hkey, .inr hf⟩
    obtain ⟨hnot, hread⟩ := hpost (.abort r now, o) (List.mem_append_right _ List.mem_cons_self)
    have hnow : now < e₁.expiresAt := by
      rw [hexp₁, ← hexp]
      exact hread now rfl
    have hlive : (Ledger.live now d₁).get? (IdempotencyStore.cacheKey r) = some e₁ := Ledger.get?_live.mpr ⟨hk₁, hnow⟩
    obtain rfl : .aborted (Ledger.abort r now d₁).1 = o := congrArg Prod.fst hstep
    refine hnot ⟨r, hkey, .inr ?_⟩
    rw [Ledger.abort, hlive, if_pos hown]
    rfl

end Runs

/-! ## Two stores that differ in nothing that counts -/

variable [LinearOrder τ] [Zero τ] [Add τ] [Sub τ] {sha256 : Bytes → Bytes} {cfg : StoreConfig τ}

/-- The stores hold the same entries in time, with the same totals, and decide every reservation alike. -/
structure Store.Alike (sha256 : Bytes → Bytes) (cfg : StoreConfig τ) (now : τ) (s s' : Store τ) : Prop where
  entries : ∀ key, (s.dropExpired now).entries.get? key = (s'.dropExpired now).entries.get? key
  length : (s.dropExpired now).entries.length = (s'.dropExpired now).entries.length
  cachedBytes : (s.dropExpired now).cachedResponseBytes = (s'.dropExpired now).cachedResponseBytes
  reservedBytes : (s.dropExpired now).reservedResponseBytes = (s'.dropExpired now).reservedResponseBytes
  reserves : ∀ tenantId key fingerprint token,
    (IdempotencyStore.step sha256 cfg s (.reserve tenantId key fingerprint token now)).1 =
      (IdempotencyStore.step sha256 cfg s' (.reserve tenantId key fingerprint token now)).1

namespace Ledger

variable {d d' : Ledger τ} {now : τ}

omit [Add τ] in
/-- The wait for room is the same, in whatever order the entries are. -/
theorem capacityError_congr (h : d.entries.Perm d'.entries) :
    IdempotencyStore.capacityError cfg now ⟨d, 0, 0⟩ = IdempotencyStore.capacityError cfg now ⟨d', 0, 0⟩ := by
  have hmin : ∀ d : Ledger τ, IdempotencyStore.capacityError cfg now ⟨d, 0, 0⟩ =
      ((d.values.map fun entry => max 0 (entry.expiresAt - now)).min?).elim
        (.capacity cfg.reservationTtlSeconds) .capacity := by
    intro d
    unfold IdempotencyStore.capacityError
    cases d.values.map fun entry => max 0 (entry.expiresAt - now) <;> rfl
  have hperm : (d.values.map fun entry => max 0 (entry.expiresAt - now)).Perm
      (d'.values.map fun entry => max 0 (entry.expiresAt - now)) := (h.map Prod.snd).map _
  have hsame : (d.values.map fun entry => max 0 (entry.expiresAt - now)).min? =
      (d'.values.map fun entry => max 0 (entry.expiresAt - now)).min? := by
    refine Option.ext fun wait => ?_
    rw [List.min?_eq_some_iff, List.min?_eq_some_iff, hperm.mem_iff]
    exact and_congr_right fun _ => forall_congr' fun b => imp_congr_left hperm.mem_iff
  rw [hmin, hmin, hsame]

/-- Ledgers with the same live entries decide every reservation alike. -/
theorem Agree.reserve_eq (hev : cfg.evictCompletedEntries = false) (h : Agree now d d') (key : CacheKey)
    (fingerprint token : String) :
    (reserve cfg key fingerprint token now d).1 = (reserve cfg key fingerprint token now d').1 := by
  have hperm : (live now d).entries.Perm (live now d').entries := OrderedDict.entries_perm h
  have hlength : (live now d).length = (live now d').length := hperm.length_eq
  have hcached : cached (live now d) = cached (live now d') := (hperm.map _).sum_eq
  have hreserved : reserved (live now d) = reserved (live now d') := (hperm.map _).sum_eq
  have hroom : ∀ d : Ledger τ, makeRoom cfg d = if d.length < cfg.maxEntries then some d else none := by
    intro d
    rw [makeRoom, hev]
    rfl
  unfold reserve
  dsimp only
  rw [h key, hroom, hroom, hlength, capacityError_congr hperm]
  cases (live now d').get? key with
  | some e =>
    dsimp only
    split_ifs
    · rfl
    · cases e.response <;> rfl
  | none =>
    dsimp only
    by_cases hlt : (live now d').length < cfg.maxEntries
    · have hadmits : admits cfg (live now d) = admits cfg (live now d') := by
        rw [admits, admits, hcached, hreserved]
      rw [if_pos hlt, if_pos hlt]
      dsimp only
      rw [hadmits]
      split_ifs <;> rfl
    · rw [if_neg hlt, if_neg hlt]

/-- Ledgers with the same live entries are alike. -/
theorem Agree.alike (hev : cfg.evictCompletedEntries = false) (hd : LedgerOk cfg d) (hd' : LedgerOk cfg d')
    (h : Agree now d d') : Store.Alike sha256 cfg now (Store.ofEntries d) (Store.ofEntries d') := by
  have hperm : (live now d).entries.Perm (live now d').entries := OrderedDict.entries_perm h
  have hstep : ∀ {d : Ledger τ}, LedgerOk cfg d → ∀ op : StoreOp τ,
      (IdempotencyStore.step sha256 cfg (Store.ofEntries d) op).1 = (step sha256 cfg d op).1 := fun hd op =>
    congrArg Prod.fst ((StoreInv.of_ledger hd).step_eq op)
  refine ⟨?_, ?_, ?_, ?_, fun tenantId key fingerprint token => ?_⟩
  · rw [← ofEntries_live, ← ofEntries_live]
    exact h
  · rw [← ofEntries_live, ← ofEntries_live]
    exact hperm.length_eq
  · rw [← ofEntries_live, ← ofEntries_live]
    exact (hperm.map _).sum_eq
  · rw [← ofEntries_live, ← ofEntries_live]
    exact (hperm.map _).sum_eq
  · rw [hstep hd, hstep hd']
    rcases hcheck : IdempotencyStore.checkReserve tenantId key fingerprint with detail | ⟨tenant, k, f⟩
    · rw [step_reserve_error hcheck, step_reserve_error hcheck]
    · rw [step_reserve_ok hcheck token now d, step_reserve_ok hcheck token now d', finish, finish,
        h.reserve_eq hev]
      split <;> rfl

end Ledger

/-- Every run of the ledger is a run of the store. -/
theorem run_ofLedger {evs : List (StoreEvent τ)} {d : Ledger τ} (h : (Ledger.machine sha256 cfg).Run evs d) :
    (IdempotencyStore.machine sha256 cfg).Run evs (Store.ofEntries d) := by
  obtain ⟨s, hrun, -, rfl⟩ := Machine.Run.simulate (N := IdempotencyStore.machine sha256 cfg)
    (R := fun d s => LedgerOk cfg d ∧ s = Store.ofEntries d) ⟨LedgerOk.empty, rfl⟩ (by
      rintro d _ op ⟨hok, rfl⟩
      have heq := @StoreInv.step_eq τ _ _ _ _ cfg _ sha256 (StoreInv.of_ledger hok) op
      exact ⟨congrArg Prod.fst heq.symm, hok.step sha256 op, congrArg Prod.snd heq⟩) h
  exact hrun

end Lucent.Access
