import Mathlib.Data.List.Sort
import Lucent.Access.Durability

/-!
# Lucent.Access.Eviction — with eviction the least recently used response goes first

The source keeps recency in the order of its dictionary alone.  Here it is read off the history: the last use of
a key is the last call that committed or replayed it.

* `lastUse`, `Ledger.byLastUse`: the completed entries, ordered by their last use in the history.
* `run_complete_pairwise`: in every reachable state that is the order of the completed entries in the dictionary.
* `makeResponseRoom_eq`: the loop of a commit drops the shortest prefix of that order that makes the response fit.
* `step_spares`: every other call drops nothing in time, an abort its own reservation apart.
* `pending_kept`: a reservation that nobody finalizes is owned by its holder until it expires.
* `evict_leastRecentlyUsed`: the rules together, for every reachable store.
-/


namespace Lucent.Access

open Lucent.Lib StoreEvent

variable {τ : Type} [LinearOrder τ] [Zero τ] [Add τ] [Sub τ] {sha256 : Bytes → Bytes} {cfg : StoreConfig τ}

/-! ## The last use of a key -/

/-- The key of the completed response that a call published or replayed. -/
def StoreEvent.usedKey? (sha256 : Bytes → Bytes) : StoreEvent τ → Option CacheKey
  | (.reserve tenantId (some key) _ _ _, .decided (.replay _)) => some (tenantId, sha256 (utf8 key))
  | (.commit owner _ _, .committed) => some (IdempotencyStore.cacheKey owner)
  | _ => none

/-- The number of the last call that used `key`, counted from one. -/
def lastUse (sha256 : Bytes → Bytes) (evs : List (StoreEvent τ)) (key : CacheKey) : ℕ :=
  ((evs.zipIdx 1).filter fun p => decide (usedKey? sha256 p.1 = some key)).getLast?.elim 0 Prod.snd

omit [LinearOrder τ] [Zero τ] [Add τ] [Sub τ] in
theorem lastUse_concat (evs : List (StoreEvent τ)) (ev : StoreEvent τ) (key : CacheKey) :
    lastUse sha256 (evs ++ [ev]) key =
      if usedKey? sha256 ev = some key then evs.length + 1 else lastUse sha256 evs key := by
  unfold lastUse
  rw [List.zipIdx_append, List.filter_append]
  by_cases h : usedKey? sha256 ev = some key
  · simp [h, Nat.add_comm]
  · simp [h]

omit [LinearOrder τ] [Zero τ] [Add τ] [Sub τ] in
theorem lastUse_le (evs : List (StoreEvent τ)) (key : CacheKey) : lastUse sha256 evs key ≤ evs.length := by
  induction evs using List.reverseRecOn with
  | nil => exact Nat.zero_le _
  | append_singleton evs ev ih =>
    rw [lastUse_concat, List.length_append, List.length_singleton]
    split_ifs
    · exact le_rfl
    · omega

namespace Ledger

/-- The completed keys, in the order of the dictionary. -/
def complete (d : Ledger τ) : List CacheKey := d.keysWhere fun e => decide (e.state = .complete)

/-- The completed keys, in the order of their last use. -/
def byLastUse (sha256 : Bytes → Bytes) (evs : List (StoreEvent τ)) (d : Ledger τ) : List CacheKey :=
  (complete d).mergeSort fun key key' => decide (lastUse sha256 evs key ≤ lastUse sha256 evs key')

/-- From `d` to `d'` the entries under `keys` go and the others stay, the slot `own` of the call apart. -/
def Drops (d d' : Ledger τ) (own : CacheKey) (keys : List CacheKey) : Prop :=
  ∀ key, key ≠ own → d'.get? key = if key ∈ keys then none else d.get? key

variable {d : Ledger τ} {key : CacheKey} {e : Entry τ} {now : τ}

omit [LinearOrder τ] [Zero τ] [Add τ] [Sub τ] in
theorem oldestCompleted_eq (d : Ledger τ) : oldestCompleted d = (complete d).head? :=
  OrderedDict.findKey?_eq_head? ..

omit [Zero τ] [Add τ] [Sub τ] in
theorem complete_live_sublist (now : τ) (d : Ledger τ) : (complete (live now d)).Sublist (complete d) :=
  OrderedDict.keysWhere_filter_sublist ..

omit [Add τ] [Sub τ] in
theorem complete_makeRoom_sublist {d' : Ledger τ} (h : makeRoom cfg d = some d') :
    (complete d').Sublist (complete d) := by
  unfold makeRoom at h
  split_ifs at h with hlen hev
  · cases h
    exact List.Sublist.refl _
  · obtain ⟨key, -, rfl⟩ := Option.map_eq_some_iff.mp h
    exact OrderedDict.keysWhere_filter_sublist ..

omit [Add τ] [Sub τ] in
theorem complete_makeResponseRoom_sublist {bytes turns : ℕ} :
    (complete (makeResponseRoom cfg bytes turns d)).Sublist (complete d) := by
  induction turns generalizing d with
  | zero => exact List.Sublist.refl _
  | succ turns ih =>
    unfold makeResponseRoom
    split_ifs with hfull
    · rcases oldestCompleted d with _ | old
      · exact List.Sublist.refl _
      · exact ih.trans (OrderedDict.keysWhere_filter_sublist ..)
    · exact List.Sublist.refl _

omit [LinearOrder τ] [Zero τ] [Add τ] [Sub τ] in
/-- A slot that is written anew goes to the end of the order if it is completed, and out of it if it is not. -/
theorem complete_push (d : Ledger τ) (key : CacheKey) (e : Entry τ) :
    complete (d.push key e) = (complete d).filter (fun key' => !decide (key' = key)) ++
      if e.state = .complete then [key] else [] := by
  unfold complete
  rw [OrderedDict.keysWhere_push]
  simp only [decide_eq_true_eq]

/-! ### One call -/

/-- What one call does to the order of the completed keys. -/
inductive OrderStep (sha256 : Bytes → Bytes) (d : Ledger τ) (ev : StoreEvent τ) (d' : Ledger τ) : Prop
  | used (key : CacheKey) (older : List CacheKey) (hkey : usedKey? sha256 ev = some key)
      (holder : older.Sublist (complete d)) (hfresh : key ∉ older) (heq : complete d' = older ++ [key])
  | unused (hkey : usedKey? sha256 ev = none) (hsub : (complete d').Sublist (complete d))

omit [LinearOrder τ] [Zero τ] [Add τ] [Sub τ] in
theorem OrderStep.of_push {ev : StoreEvent τ} {d' : Ledger τ} (hkey : usedKey? sha256 ev = some key)
    (hsub : (complete d').Sublist (complete d)) (hs : e.state = .complete) :
    OrderStep sha256 d ev (d'.push key e) := by
  refine .used key ((complete d').filter fun key' => !decide (key' = key)) hkey
    (List.filter_sublist.trans hsub) (by simp) ?_
  rw [complete_push, if_pos hs]

/-- **Step lemma**: a call puts the key it used at the end, and otherwise only drops keys. -/
theorem step_order (hd : LedgerOk cfg d) (op : StoreOp τ) :
    OrderStep sha256 d (op, (step sha256 cfg d op).1) (step sha256 cfg d op).2 := by
  rcases op with ⟨tenantId, key', fingerprint, token, now⟩ | ⟨owner, response, now⟩ | ⟨owner, now⟩ | ⟨now⟩ | ⟨now⟩
  · rcases hcheck : IdempotencyStore.checkReserve tenantId key' fingerprint with detail | ⟨tenant, k, f⟩
    · rw [step_reserve_error hcheck]
      exact .unused (by cases key' <;> rfl) (List.Sublist.refl _)
    · obtain ⟨rfl, rfl, -⟩ := checkReserve_ok hcheck
      rw [step_reserve_ok hcheck]
      have hcase := reserve_case cfg (tenant, sha256 (utf8 k)) f token now d
      generalize reserve cfg (tenant, sha256 (utf8 k)) f token now d = x at hcase ⊢
      have hlive := complete_live_sublist now d
      rcases hcase with _ | _ | ⟨e, r, hk, -, hr⟩ | _ | ⟨-, d', hroom, -⟩
      · exact .unused rfl hlive
      · exact .unused rfl hlive
      · have hs : e.state = .complete := by
          cases hst : e.state with
          | complete => rfl
          | reserved => exact absurd (((hd.live now).entry_ok _ e hk).reserved hst).1 (by simp [hr])
        have hmove : (live now d).moveToEnd (tenant, sha256 (utf8 k)) =
            (live now d).push (tenant, sha256 (utf8 k)) e := by
          unfold OrderedDict.moveToEnd
          rw [hk]
        rw [hmove]
        exact .of_push rfl hlive hs
      · exact .unused rfl hlive
      · refine .unused rfl ?_
        show (complete (d'.push _ _)).Sublist _
        rw [complete_push, if_neg (by simp [pending]), List.append_nil]
        exact List.filter_sublist.trans ((complete_makeRoom_sublist hroom).trans hlive)
  · rw [step_commit]
    have hcase := commit_case cfg owner response now d
    generalize commit cfg owner response now d = x at hcase ⊢
    rcases hcase with _ | _ | ⟨-, e', hk', hown⟩
    · exact .unused rfl (List.Sublist.refl _)
    · exact .unused rfl (complete_live_sublist now d)
    · refine .of_push rfl ?_ rfl
      split_ifs
      · exact complete_makeResponseRoom_sublist.trans (complete_live_sublist now d)
      · exact complete_live_sublist now d
  · rw [step_abort]
    refine .unused rfl ?_
    unfold abort
    dsimp only
    split_ifs
    · exact (OrderedDict.keysWhere_filter_sublist ..).trans (complete_live_sublist now d)
    · exact complete_live_sublist now d
  · exact .unused rfl (complete_live_sublist now d)
  · exact .unused rfl (complete_live_sublist now d)

/-! ### The order of a reachable dictionary -/

/-- **Run lemma**: the completed entries stand in the dictionary in the order of their last use. -/
theorem run_complete_pairwise {evs : List (StoreEvent τ)} (h : (Ledger.machine sha256 cfg).Run evs d) :
    LedgerOk cfg d ∧
      (complete d).Pairwise fun key key' => lastUse sha256 evs key < lastUse sha256 evs key' := by
  refine Machine.Run.invariant (I := fun evs d => LedgerOk cfg d ∧
    (complete d).Pairwise fun key key' => lastUse sha256 evs key < lastUse sha256 evs key') ?_ ?_ h
  · exact ⟨LedgerOk.empty, .nil⟩
  · rintro evs d op - ⟨hd, hord⟩
    refine ⟨hd.step sha256 op, ?_⟩
    show (complete (step sha256 cfg d op).2).Pairwise fun key key' =>
      lastUse sha256 (evs ++ [(op, (step sha256 cfg d op).1)]) key <
        lastUse sha256 (evs ++ [(op, (step sha256 cfg d op).1)]) key'
    rcases @step_order _ _ _ _ _ sha256 _ _ hd op with ⟨key, older, hkey, holder, hfresh, heq⟩ | ⟨hkey, hsub⟩
    · have hold : ∀ key' ∈ older, lastUse sha256 (evs ++ [(op, (step sha256 cfg d op).1)]) key' =
          lastUse sha256 evs key' := by
        intro key' hmem
        have hne : some key ≠ some key' := fun h => hfresh (Option.some.inj h ▸ hmem)
        rw [lastUse_concat, hkey, if_neg hne]
      rw [heq, List.pairwise_append]
      refine ⟨?_, List.pairwise_singleton _ _, ?_⟩
      · refine (hord.sublist holder).imp_of_mem fun ha hb hlt => ?_
        exact (hold _ ha).trans_lt (hlt.trans_eq (hold _ hb).symm)
      · intro key' hmem last hlast
        obtain rfl := List.mem_singleton.mp hlast
        rw [hold key' hmem, lastUse_concat, hkey, if_pos rfl]
        exact Nat.lt_succ_of_le (lastUse_le evs key')
    · refine (hord.sublist hsub).imp fun hlt => ?_
      rw [lastUse_concat, lastUse_concat, hkey, if_neg (Option.some_ne_none _).symm,
        if_neg (Option.some_ne_none _).symm]
      exact hlt

theorem byLastUse_eq {evs : List (StoreEvent τ)} (h : (Ledger.machine sha256 cfg).Run evs d) (now : τ) :
    byLastUse sha256 evs (live now d) = complete (live now d) := by
  have hord := (run_complete_pairwise h).2.sublist (complete_live_sublist now d)
  exact List.mergeSort_of_pairwise (hord.imp fun hlt => decide_eq_true hlt.le)

/-! ### What a call drops -/

omit [Add τ] [Sub τ] in
/-- The loop of a commit drops the shortest prefix of the order that makes room for the response. -/
theorem makeResponseRoom_eq {bytes : ℕ} (hb : bytes ≤ cfg.maxTotalResponseBytes) {turns : ℕ} {d : Ledger τ}
    (hd : LedgerOk cfg d) (hturns : (complete d).length ≤ turns) :
    ∃ n ≤ (complete d).length, makeResponseRoom cfg bytes turns d = d.without ((complete d).take n) ∧
      cached (d.without ((complete d).take n)) + bytes ≤ cfg.maxTotalResponseBytes ∧
      ∀ m < n, cfg.maxTotalResponseBytes < cached (d.without ((complete d).take m)) + bytes := by
  induction turns generalizing d with
  | zero =>
    have hnil : complete d = [] := List.eq_nil_of_length_eq_zero (Nat.le_zero.mp hturns)
    have hcached := IdempotencyStore.cached_eq_zero hd (by rw [oldestCompleted_eq, hnil]; rfl)
    refine ⟨0, Nat.zero_le _, by simp [makeResponseRoom], ?_, fun m hm => absurd hm (Nat.not_lt_zero m)⟩
    rw [List.take_zero, OrderedDict.without_nil, hcached]
    omega
  | succ turns ih =>
    by_cases hfull : d.cached + bytes > cfg.maxTotalResponseBytes
    · rcases hcomplete : complete d with _ | ⟨key, rest⟩
      · have hcached := IdempotencyStore.cached_eq_zero hd (by rw [oldestCompleted_eq, hcomplete]; rfl)
        omega
      · have hrest : complete (d.erase key) = rest := by
          have hnd : (key :: rest).Nodup := hcomplete ▸ OrderedDict.nodup_keysWhere ..
          unfold complete at hcomplete ⊢
          rw [OrderedDict.keysWhere_erase, hcomplete, List.filter_cons_of_neg (by simp)]
          exact List.filter_eq_self.mpr fun key' hmem => by
            have hne : key' ≠ key := fun h => (List.nodup_cons.mp hnd).1 (h ▸ hmem)
            simpa using hne
        have hshort : (complete (d.erase key)).length ≤ turns := by
          rw [hrest]
          rw [hcomplete, List.length_cons] at hturns
          omega
        obtain ⟨n, hn, heq, hfits, hmin⟩ := ih (hd.erase key) hshort
        rw [hrest] at hn heq hfits hmin
        refine ⟨n + 1, Nat.succ_le_succ hn, ?_, ?_, ?_⟩
        · unfold makeResponseRoom
          rw [if_pos hfull, oldestCompleted_eq, hcomplete, List.head?_cons, List.take_succ_cons]
          exact heq.trans (OrderedDict.erase_without ..)
        · rwa [List.take_succ_cons, ← OrderedDict.erase_without]
        · rintro (_ | m) hm
          · rwa [List.take_zero, OrderedDict.without_nil]
          · rw [List.take_succ_cons, ← OrderedDict.erase_without]
            exact hmin m (Nat.lt_of_succ_lt_succ hm)
    · refine ⟨0, Nat.zero_le _, ?_, ?_, fun m hm => absurd hm (Nat.not_lt_zero m)⟩
      · unfold makeResponseRoom
        rw [if_neg hfull, List.take_zero, OrderedDict.without_nil]
      · rw [List.take_zero, OrderedDict.without_nil]
        omega

omit [LinearOrder τ] [Zero τ] [Add τ] [Sub τ] in
theorem drops_nil (d : Ledger τ) (own : CacheKey) : Drops d d own [] := by
  intro key _
  simp

omit [LinearOrder τ] [Zero τ] [Add τ] [Sub τ] in
theorem Drops.push {d' : Ledger τ} {own : CacheKey} {keys : List CacheKey} (h : Drops d d' own keys)
    (e : Entry τ) : Drops d (d'.push own e) own keys := by
  intro key hne
  rw [OrderedDict.get?_push_of_ne hne]
  exact h key hne

omit [LinearOrder τ] [Zero τ] [Add τ] [Sub τ] in
theorem drops_without (d : Ledger τ) (own : CacheKey) (keys : List CacheKey) : Drops d (d.without keys) own keys := by
  intro key _
  rw [OrderedDict.get?_without]
  congr

/-- A new key costs the oldest completed entry of a full dictionary, if there is one. -/
theorem reserve_drops (hev : cfg.evictCompletedEntries = true) (hk : (live now d).get? key = none)
    (fingerprint token : String) : Drops (live now d) (reserve cfg key fingerprint token now d).2 key
      (if (live now d).length < cfg.maxEntries then [] else (complete (live now d)).take 1) := by
  have hadmits : ∀ d', admits cfg d' = true := fun d' => by simp [admits, hev]
  have hroom : makeRoom cfg (live now d) = if (live now d).length < cfg.maxEntries then some (live now d)
      else (complete (live now d)).head?.map (live now d).erase := by
    unfold makeRoom
    rw [if_pos hev, oldestCompleted_eq]
  unfold reserve
  simp only [hk, hroom, hadmits, if_true]
  by_cases hlen : (live now d).length < cfg.maxEntries
  · rw [if_pos hlen, if_pos hlen]
    exact (drops_nil _ _).push _
  · rw [if_neg hlen, if_neg hlen]
    rcases complete (live now d) with _ | ⟨oldest, rest⟩
    · exact drops_nil _ _
    · have herase : (live now d).erase oldest = (live now d).without [oldest] := by
        rw [← OrderedDict.erase_without, OrderedDict.without_nil]
      show Drops _ (((live now d).erase oldest).push key _) key _
      rw [herase]
      exact Drops.push (drops_without _ _ _) _

/-- A commit that returns drops the shortest prefix of the order that makes room for its response. -/
theorem commit_drops (hev : cfg.evictCompletedEntries = true) (hd : LedgerOk cfg d) {owner : Reservation τ}
    {response : IdempotencyResponse} (h : (step sha256 cfg d (.commit owner response now)).1 = .committed) :
    ∃ n ≤ (complete (live now d)).length,
      Drops (live now d) (step sha256 cfg d (.commit owner response now)).2 (IdempotencyStore.cacheKey owner)
        ((complete (live now d)).take n) ∧
      cached ((live now d).without ((complete (live now d)).take n)) + response.sizeBytes ≤
        cfg.maxTotalResponseBytes ∧
      ∀ m < n, cfg.maxTotalResponseBytes <
        cached ((live now d).without ((complete (live now d)).take m)) + response.sizeBytes := by
  rw [step_commit] at h ⊢
  have hcase := commit_case cfg owner response now d
  generalize commit cfg owner response now d = x at h hcase ⊢
  rcases hcase with _ | _ | ⟨hsize, e, -, -⟩
  · exact nomatch h
  · exact nomatch h
  · have hturns : (complete (live now d)).length ≤ (live now d).length := by
      unfold complete OrderedDict.keysWhere OrderedDict.keys
      rw [List.length_map]
      exact OrderedDict.length_filter_le ..
    obtain ⟨n, hn, heq, hfits, hmin⟩ := makeResponseRoom_eq (hsize.trans cfg.response_le_total) (hd.live now) hturns
    refine ⟨n, hn, ?_, hfits, hmin⟩
    rw [if_pos hev, heq]
    exact Drops.push (drops_without _ _ _) _

/-- **Step lemma**: a call that issues and publishes nothing keeps every entry in time, an abort its own apart. -/
theorem step_spares {op : StoreOp τ} (hissue : ∀ r, (step sha256 cfg d op).1 ≠ .decided (.reserved r))
    (hcommit : (step sha256 cfg d op).1 ≠ .committed) (hk : d.get? key = some e)
    (hclock : ∀ c, clock? (op, (step sha256 cfg d op).1) = some c → c < e.expiresAt) :
    (step sha256 cfg d op).2.get? key = some e ∨ ∃ owner now, op = .abort owner now ∧
      (step sha256 cfg d op).1 = .aborted true ∧ IdempotencyStore.cacheKey owner = key := by
  rcases op with ⟨tenantId, key', fingerprint, token, now⟩ | ⟨owner, response, now⟩ | ⟨owner, now⟩ | ⟨now⟩ | ⟨now⟩
  · rcases hcheck : IdempotencyStore.checkReserve tenantId key' fingerprint with detail | ⟨tenant, k, f⟩
    · rw [step_reserve_error hcheck]
      exact .inl hk
    · rw [step_reserve_ok hcheck] at hissue hclock ⊢
      have hcase := reserve_case cfg (tenant, sha256 (utf8 k)) f token now d
      generalize reserve cfg (tenant, sha256 (utf8 k)) f token now d = x at hissue hclock hcase ⊢
      rcases hcase with _ | _ | _ | _ | _
      · exact .inl (get?_live.mpr ⟨hk, hclock now rfl⟩)
      · exact .inl (get?_live.mpr ⟨hk, hclock now rfl⟩)
      · exact .inl ((OrderedDict.get?_moveToEnd ..).trans (get?_live.mpr ⟨hk, hclock now rfl⟩))
      · exact .inl (get?_live.mpr ⟨hk, hclock now rfl⟩)
      · exact absurd rfl (hissue _)
  · rw [step_commit] at hcommit hclock ⊢
    have hcase := commit_case cfg owner response now d
    generalize commit cfg owner response now d = x at hcommit hclock hcase ⊢
    rcases hcase with _ | _ | _
    · exact .inl hk
    · exact .inl (get?_live.mpr ⟨hk, hclock now rfl⟩)
    · exact absurd rfl hcommit
  · have hlive : (live now d).get? key = some e := get?_live.mpr ⟨hk, hclock now rfl⟩
    rw [step_abort]
    unfold abort
    by_cases hown : IdempotencyStore.owns ((live now d).get? (IdempotencyStore.cacheKey owner)) owner = true
    · rw [if_pos hown]
      by_cases hkey : IdempotencyStore.cacheKey owner = key
      · exact .inr ⟨owner, now, rfl, rfl, hkey⟩
      · exact .inl ((OrderedDict.get?_erase_of_ne (Ne.symm hkey) _).trans hlive)
    · refine .inl ?_
      simpa [hown] using hlive
  · exact .inl (get?_live.mpr ⟨hk, hclock now rfl⟩)
  · exact .inl (get?_live.mpr ⟨hk, hclock now rfl⟩)

theorem reserve_keeps_pending {key' : CacheKey} (hd : LedgerOk cfg d) (hk : (live now d).get? key = some e)
    (hs : e.state = .reserved) (fingerprint token : String) :
    (reserve cfg key' fingerprint token now d).2.get? key = some e := by
  have hcase := reserve_case cfg key' fingerprint token now d
  generalize reserve cfg key' fingerprint token now d = x at hcase ⊢
  rcases hcase with _ | _ | _ | _ | ⟨hnone, d', hroom, -⟩
  · exact hk
  · exact hk
  · exact (OrderedDict.get?_moveToEnd ..).trans hk
  · exact hk
  · have hne : key ≠ key' := by
      rintro rfl
      exact nomatch hnone.symm.trans hk
    refine (OrderedDict.get?_push_of_ne hne ..).trans ?_
    rcases (IdempotencyStore.makeRoom_ok (hd.live now) hroom).2.2.2 with rfl | ⟨old, e', hold, hs', rfl⟩
    · exact hk
    · refine OrderedDict.get?_erase_eq_some_iff.mpr ⟨?_, hk⟩
      rintro rfl
      rw [hk] at hold
      cases hold
      exact nomatch hs.symm.trans hs'

omit [Sub τ] in
theorem commit_keeps_pending (hd : LedgerOk cfg d) (hk : d.get? key = some e) (hs : e.state = .reserved)
    (owner : Reservation τ) (response : IdempotencyResponse) (now : τ)
    (hnow : response.sizeBytes ≤ cfg.maxResponseBytes → now < e.expiresAt) :
    (commit cfg owner response now d).2.get? key = some e ∨
      (commit cfg owner response now d).1 = .ok () ∧ IdempotencyStore.cacheKey owner = key := by
  have hcase := commit_case cfg owner response now d
  generalize commit cfg owner response now d = x at hcase ⊢
  rcases hcase with _ | ⟨hsize, -⟩ | ⟨hsize, e', -, -⟩
  · exact .inl hk
  · exact .inl (get?_live.mpr ⟨hk, hnow hsize⟩)
  · have hlive := get?_live.mpr ⟨hk, hnow hsize⟩
    by_cases hown : IdempotencyStore.cacheKey owner = key
    · exact .inr ⟨rfl, hown⟩
    · refine .inl ((OrderedDict.get?_push_of_ne (Ne.symm hown) ..).trans ?_)
      split_ifs
      · exact (IdempotencyStore.makeResponseRoom_ok (hsize.trans cfg.response_le_total) _ _ (hd.live now) le_rfl).2.2.2
          key e hlive hs
      · exact hlive

/-- **Step lemma**: a pending entry in time stays as it is, unless its owner publishes or aborts it. -/
theorem step_keeps_pending (hd : LedgerOk cfg d) {op : StoreOp τ} (hk : d.get? key = some e) (hs : e.state = .reserved)
    (hclock : ∀ c, clock? (op, (step sha256 cfg d op).1) = some c → c < e.expiresAt) :
    (step sha256 cfg d op).2.get? key = some e ∨
      ∃ owner, IdempotencyStore.cacheKey owner = key ∧ Finalizes owner (op, (step sha256 cfg d op).1) := by
  rcases op with ⟨tenantId, key', fingerprint, token, now⟩ | ⟨owner, response, now⟩ | ⟨owner, now⟩ | ⟨now⟩ | ⟨now⟩
  · refine .inl ?_
    rcases hcheck : IdempotencyStore.checkReserve tenantId key' fingerprint with detail | ⟨tenant, k, f⟩
    · rw [step_reserve_error hcheck]
      exact hk
    · rw [step_reserve_ok hcheck] at hclock ⊢
      rw [finish_snd]
      exact reserve_keeps_pending hd (get?_live.mpr ⟨hk, hclock now (clock?_reserve ..)⟩) hs f token
  · rw [step_commit] at hclock ⊢
    rw [finish_snd]
    have hread : response.sizeBytes ≤ cfg.maxResponseBytes → now < e.expiresAt := by
      intro hsize
      have hcase := commit_case cfg owner response now d
      generalize commit cfg owner response now d = x at hcase hclock
      rcases hcase with hbig | _ | _
      · exact absurd hsize (not_le.mpr hbig)
      · exact hclock now rfl
      · exact hclock now rfl
    rcases commit_keeps_pending hd hk hs owner response now hread with hkept | ⟨hok, hown⟩
    · exact .inl hkept
    · refine .inr ⟨owner, hown, ?_⟩
      rw [finish_fst, hok]
      rfl
  · have hout : (step sha256 cfg d (.abort owner now)).1 = .aborted (abort owner now d).1 := rfl
    rcases step_spares (by simp [hout]) (by simp [hout]) hk hclock with hkept | ⟨owner', now', hop, habort, hown⟩
    · exact .inl hkept
    · cases hop
      rw [habort]
      exact .inr ⟨owner, hown, rfl⟩
  · exact .inl (get?_live.mpr ⟨hk, hclock now rfl⟩)
  · exact .inl (get?_live.mpr ⟨hk, hclock now rfl⟩)

end Ledger

/-- **Run lemma**: a reservation stays with its holder until it expires, if nobody finalizes it. -/
theorem pending_kept {pre mid : List (StoreEvent τ)} {c : StoreEvent τ} {d : Ledger τ} {r : Reservation τ}
    (h : (Ledger.machine sha256 cfg).Run (pre ++ c :: mid) d) (hl : Machine.Respects Legal (pre ++ c :: mid))
    (hr : Issues r c) (hclock : ∀ ev ∈ mid, ∀ t, clock? ev = some t → t < r.expiresAt)
    (hopen : ∀ ev ∈ mid, ¬ Finalizes r ev) :
    ∃ e, d.get? (IdempotencyStore.cacheKey r) = some e ∧ IdempotencyStore.owns (some e) r = true ∧
      e.expiresAt = r.expiresAt := by
  induction mid using List.reverseRecOn generalizing d with
  | nil =>
    obtain ⟨d₁, d₂, -, hstep, -, hlast⟩ := h.split
    obtain rfl := Machine.steps_nil_iff.mp hlast
    obtain ⟨op, o⟩ := c
    obtain rfl : (Ledger.step sha256 cfg d₁ op).1 = o := congrArg Prod.fst hstep
    obtain rfl : (Ledger.step sha256 cfg d₁ op).2 = d₂ := congrArg Prod.snd hstep
    exact (Ledger.step_issues hr).2
  | append_singleton mid ev ih =>
    rw [← List.cons_append, ← List.append_assoc] at h hl
    obtain ⟨d₁, h₁, hlast⟩ := Machine.steps_append_iff.mp h
    have hstep := Machine.steps_singleton_iff.mp hlast
    obtain ⟨e, hk, hown, hexp⟩ := ih h₁ hl.of_append
      (fun ev hev => hclock ev (List.mem_append_left _ hev)) fun ev hev => hopen ev (List.mem_append_left _ hev)
    obtain ⟨op, o⟩ := ev
    obtain rfl : (Ledger.step sha256 cfg d₁ op).1 = o := congrArg Prod.fst hstep
    obtain rfl : (Ledger.step sha256 cfg d₁ op).2 = d := congrArg Prod.snd hstep
    have hin : (op, (Ledger.step sha256 cfg d₁ op).1) ∈ mid ++ [(op, (Ledger.step sha256 cfg d₁ op).1)] := by simp
    rcases Ledger.step_keeps_pending (Ledger.run_ok h₁) hk (IdempotencyStore.owns_some_iff.mp hown).1
      (hexp ▸ hclock _ hin) with hkept | ⟨owner, hkey, hf⟩
    · exact ⟨e, hkept, hown, hexp⟩
    · -- the one who finalizes it owns the entry, so it is the holder
      obtain ⟨e', -, -, -, hk', hown'⟩ := step_finalizes hf
      rw [hkey, hk] at hk'
      cases hk'
      have hissued : ∃ ev ∈ pre ++ c :: mid, Issues r ev := ⟨c, by simp, hr⟩
      obtain rfl := owner_unique h₁ hl.of_append hissued (hf.issued hl rfl) hown hown'
      exact absurd hf (hopen _ hin)

/-! ## Every reachable store -/

open Ledger in
/-- **Eviction** in every reachable state of an evicting store.  A new key costs, when the unexpired entries fill the
store, the least recently used completed one; a commit drops the shortest prefix of the order of use that makes its
response fit; a pending entry in time stays until its owner publishes or aborts it; and no other call drops an entry
in time, in particular no replay, conflict, in-progress rejection or abort. -/
theorem evict_leastRecentlyUsed (hev : cfg.evictCompletedEntries = true) {evs : List (StoreEvent τ)} {s : Store τ}
    (h : (IdempotencyStore.machine sha256 cfg).Run evs s) :
    (∀ tenantId key fingerprint token now tenant k f,
      IdempotencyStore.checkReserve tenantId key fingerprint = .ok (tenant, k, f) →
      (live now s.entries).get? (tenant, sha256 (utf8 k)) = none →
        Drops (live now s.entries)
          (IdempotencyStore.step sha256 cfg s (.reserve tenantId key fingerprint token now)).2.entries
          (tenant, sha256 (utf8 k))
          (if (live now s.entries).length < cfg.maxEntries then []
            else (byLastUse sha256 evs (live now s.entries)).take 1)) ∧
    (∀ owner response now,
      (IdempotencyStore.step sha256 cfg s (.commit owner response now)).1 = .committed →
        ∃ n ≤ (byLastUse sha256 evs (live now s.entries)).length,
          Drops (live now s.entries) (IdempotencyStore.step sha256 cfg s (.commit owner response now)).2.entries
            (IdempotencyStore.cacheKey owner) ((byLastUse sha256 evs (live now s.entries)).take n) ∧
          cached ((live now s.entries).without ((byLastUse sha256 evs (live now s.entries)).take n)) +
            response.sizeBytes ≤ cfg.maxTotalResponseBytes ∧
          ∀ m < n, cfg.maxTotalResponseBytes <
            cached ((live now s.entries).without ((byLastUse sha256 evs (live now s.entries)).take m)) +
              response.sizeBytes) ∧
    (∀ op key e, s.entries.get? key = some e → e.state = .reserved →
      (∀ c, clock? (op, (IdempotencyStore.step sha256 cfg s op).1) = some c → c < e.expiresAt) →
        (IdempotencyStore.step sha256 cfg s op).2.entries.get? key = some e ∨
          ∃ owner, IdempotencyStore.cacheKey owner = key ∧
            Finalizes owner (op, (IdempotencyStore.step sha256 cfg s op).1)) ∧
    (∀ op key e, s.entries.get? key = some e →
      (∀ r, (IdempotencyStore.step sha256 cfg s op).1 ≠ .decided (.reserved r)) →
      (IdempotencyStore.step sha256 cfg s op).1 ≠ .committed →
      (∀ c, clock? (op, (IdempotencyStore.step sha256 cfg s op).1) = some c → c < e.expiresAt) →
        (IdempotencyStore.step sha256 cfg s op).2.entries.get? key = some e ∨
          ∃ owner now, op = .abort owner now ∧ (IdempotencyStore.step sha256 cfg s op).1 = .aborted true ∧
            IdempotencyStore.cacheKey owner = key) := by
  obtain ⟨d, hd, hok, rfl⟩ := run_ledger h
  have hinv : StoreInv cfg (Store.ofEntries d) := StoreInv.of_ledger hok
  have hstep : ∀ op, IdempotencyStore.step sha256 cfg (Store.ofEntries d) op =
      ((step sha256 cfg d op).1, Store.ofEntries (step sha256 cfg d op).2) := fun op => hinv.step_eq op
  have horder : ∀ now, byLastUse sha256 evs (live now d) = complete (live now d) := byLastUse_eq hd
  simp only [hstep, IdempotencyStore.entries_ofEntries, horder]
  refine ⟨?_, ?_, ?_, ?_⟩
  · intro tenantId key fingerprint token now tenant k f hcheck hk
    rw [step_reserve_ok hcheck, finish_snd]
    exact reserve_drops hev hk f token
  · intro owner response now hcommit
    exact commit_drops hev hok hcommit
  · intro op key e hk hs hclock
    exact step_keeps_pending hok hk hs hclock
  · intro op key e hk hissue hcommit hclock
    exact step_spares hissue hcommit hk hclock

/-- Two published keys; the first one is replayed. -/
def touchedOps : List (StoreOp ℤ) :=
  [.reserve "agent" (some "one") "fp-one" "token-1" 0, .reserve "agent" (some "two") "fp-two" "token-2" 0,
    .commit ⟨"agent", 120, utf8 "one", "fp-one", "token-1"⟩ demoResponse 1,
    .commit ⟨"agent", 120, utf8 "two", "fp-two", "token-2"⟩ demoResponse 2,
    .reserve "agent" (some "one") "fp-one" "token-3" 3]

/-- A third key then costs the second one. -/
theorem evict_leastRecentlyUsed_touched :
    (IdempotencyStore.step demoDigest demoConfig
      ((IdempotencyStore.machine demoDigest demoConfig).after touchedOps)
      (.reserve "agent" (some "three") "fp-three" "token-4" 4)).2.entries.get? ("agent", utf8 "two") = none := by
  have h := (evict_leastRecentlyUsed rfl (Machine.run_after (IdempotencyStore.machine demoDigest demoConfig)
    touchedOps)).1 "agent" (some "three") "fp-three" "token-4" 4 "agent" "three" "fp-three" (by decide +kernel)
    (by decide +kernel) ("agent", utf8 "two") (by decide +kernel)
  rw [Ledger.byLastUse, List.mergeSort_of_pairwise (by decide +kernel)] at h
  exact h.trans (if_pos (by decide +kernel))

end Lucent.Access
