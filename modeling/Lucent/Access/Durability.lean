import Lucent.Access.Ownership

/-!
# Lucent.Access.Durability — without eviction a published response stays

* `Ledger.step_keeps`: with `evictCompletedEntries` off, no call removes or overwrites a completed entry, unless
  it reads the clock at or past the expiry of that entry.
* `noEvict_durability`: until its time to live is over, a published response answers every `reserve` on its pair.
* `noEvict_recommit`: a slot that is committed again was issued again, after that time.
-/


namespace Lucent.Access

open Lucent.Lib StoreEvent

variable {τ : Type} [LinearOrder τ] [Zero τ] [Add τ] [Sub τ] {sha256 : Bytes → Bytes} {cfg : StoreConfig τ}

namespace Ledger

variable {d : Ledger τ} {key : CacheKey} {e : Entry τ} {now : τ}

omit [Add τ] [Sub τ] in
theorem makeRoom_noEvict {d' : Ledger τ} (hev : cfg.evictCompletedEntries = false) (h : makeRoom cfg d = some d') :
    d' = d := by
  unfold makeRoom at h
  by_cases hlen : d.length < cfg.maxEntries
  · rw [if_pos hlen] at h
    exact (Option.some.inj h).symm
  · rw [if_neg hlen, hev, if_neg Bool.false_ne_true] at h
    exact nomatch h

omit [LinearOrder τ] [Zero τ] [Add τ] [Sub τ] in
theorem not_owns_complete (hs : e.state = .complete) (owner : Reservation τ) :
    ¬ IdempotencyStore.owns (some e) owner = true := by
  intro hown
  rw [(IdempotencyStore.owns_some_iff.mp hown).1] at hs
  exact nomatch hs

/-- **Step lemma**: a completed entry survives every call that does not see it expired. -/
theorem step_keeps (hev : cfg.evictCompletedEntries = false) (hk : d.get? key = some e) (hs : e.state = .complete)
    (op : StoreOp τ)
    (hclock : ∀ c, clock? (op, (step sha256 cfg d op).1) = some c → c < e.expiresAt) :
    (step sha256 cfg d op).2.get? key = some e := by
  rcases op with ⟨tenantId, key', fingerprint, token, now⟩ | ⟨owner, response, now⟩ | ⟨owner, now⟩ | ⟨now⟩ | ⟨now⟩
  · rcases hcheck : IdempotencyStore.checkReserve tenantId key' fingerprint with detail | ⟨tenant, k, f⟩
    · rw [step_reserve_error hcheck]
      exact hk
    · rw [step_reserve_ok hcheck] at hclock ⊢
      have hcase := reserve_case cfg (tenant, sha256 (utf8 k)) f token now d
      generalize reserve cfg (tenant, sha256 (utf8 k)) f token now d = x at hclock hcase ⊢
      rcases hcase with _ | _ | _ | _ | ⟨hnone, d', hroom, -⟩
      · exact get?_live.mpr ⟨hk, hclock now rfl⟩
      · exact get?_live.mpr ⟨hk, hclock now rfl⟩
      · exact (OrderedDict.get?_moveToEnd ..).trans (get?_live.mpr ⟨hk, hclock now rfl⟩)
      · exact get?_live.mpr ⟨hk, hclock now rfl⟩
      · have hlive := get?_live.mpr ⟨hk, hclock now rfl⟩
        obtain rfl := makeRoom_noEvict hev hroom
        refine OrderedDict.get?_push_eq_some_iff.mpr (.inr ⟨?_, hlive⟩)
        rintro rfl
        rw [hnone] at hlive
        exact nomatch hlive
  · rw [step_commit] at hclock ⊢
    have hcase := commit_case cfg owner response now d
    generalize commit cfg owner response now d = x at hclock hcase ⊢
    rcases hcase with _ | _ | ⟨-, e', hk', hown⟩
    · exact hk
    · exact get?_live.mpr ⟨hk, hclock now rfl⟩
    · have hlive := get?_live.mpr ⟨hk, hclock now rfl⟩
      rw [hev, if_neg Bool.false_ne_true]
      refine OrderedDict.get?_push_eq_some_iff.mpr (.inr ⟨?_, hlive⟩)
      rintro rfl
      rw [hlive] at hk'
      cases hk'
      exact not_owns_complete hs owner hown
  · have hlive : (live now d).get? key = some e := get?_live.mpr ⟨hk, hclock now rfl⟩
    rw [step_abort]
    unfold abort
    by_cases hown : IdempotencyStore.owns ((live now d).get? (IdempotencyStore.cacheKey owner)) owner = true
    · simp only [hown, if_true]
      refine OrderedDict.get?_erase_eq_some_iff.mpr ⟨?_, hlive⟩
      rintro rfl
      rw [hlive] at hown
      exact not_owns_complete hs owner hown
    · simpa [hown] using hlive
  · exact get?_live.mpr ⟨hk, hclock now rfl⟩
  · exact get?_live.mpr ⟨hk, hclock now rfl⟩

/-- A `reserve` whose arguments are checked reads the clock. -/
theorem clock?_reserve (tenantId : String) (key' : Option String) (f f' token token' : String) (d : Ledger τ) :
    clock? (.reserve tenantId key' f' token' now, (finish .decided (reserve cfg key f token now d)).1) =
      some now := by
  have hcase := reserve_case cfg key f token now d
  generalize reserve cfg key f token now d = x at hcase ⊢
  rcases hcase with _ | _ | _ | _ | _ <;> rfl

omit [LinearOrder τ] [Zero τ] [Add τ] [Sub τ] in
theorem finish_fst {α : Type} (done : α → StoreOutcome τ) (r : Except (StoreError τ) α × Ledger τ) :
    (finish done r).1 = match r.1 with
      | .ok a => done a
      | .error e => .raised e := by
  obtain ⟨_ | _, _⟩ := r <;> rfl

/-- What a commit that returned left in the slot. -/
theorem step_committed {owner : Reservation τ} {response : IdempotencyResponse}
    (h : (step sha256 cfg d (.commit owner response now)).1 = .committed) :
    ∃ e, (step sha256 cfg d (.commit owner response now)).2.get? (IdempotencyStore.cacheKey owner) = some e ∧
      e.fingerprint = owner.fingerprint ∧ e.state = .complete ∧ e.response = some response ∧
      e.expiresAt = now + cfg.ttlSeconds := by
  rw [step_commit] at h ⊢
  have hcase := commit_case cfg owner response now d
  generalize commit cfg owner response now d = x at h hcase ⊢
  rcases hcase with _ | _ | ⟨-, e, -, hown⟩
  · exact nomatch h
  · exact nomatch h
  · exact ⟨_, OrderedDict.get?_push_self .., (IdempotencyStore.owns_some_iff.mp hown).2.2, rfl, rfl, rfl⟩

/-- A `reserve` that finds a completed entry in time. -/
theorem reserve_complete {fingerprint token : String} {response : IdempotencyResponse}
    (hk : d.get? key = some e) (hnow : now < e.expiresAt) (hr : e.response = some response) :
    (reserve cfg key fingerprint token now d).1 =
      if fingerprint = e.fingerprint then .ok (.replay response) else .error .conflict := by
  have hlive := get?_live.mpr ⟨hk, hnow⟩
  have hcase := reserve_case cfg key fingerprint token now d
  generalize reserve cfg key fingerprint token now d = x at hcase ⊢
  rcases hcase with ⟨e', hk', hf⟩ | ⟨e', hk', hf, hr'⟩ | ⟨e', r', hk', hf, hr'⟩ | ⟨hnone, -⟩ | ⟨hnone, -, -, -⟩
  · obtain rfl : e = e' := Option.some.inj (hlive.symm.trans hk')
    rw [if_neg (Ne.symm hf)]
  · obtain rfl : e = e' := Option.some.inj (hlive.symm.trans hk')
    rw [hr] at hr'
    exact nomatch hr'
  · obtain rfl : e = e' := Option.some.inj (hlive.symm.trans hk')
    rw [hr] at hr'
    cases hr'
    rw [if_pos hf.symm]
  · rw [hnone] at hlive
    exact nomatch hlive
  · rw [hnone] at hlive
    exact nomatch hlive

end Ledger

/-- What a commit published is there until an operation reads the clock at or past its expiry. -/
theorem committed_kept (hev : cfg.evictCompletedEntries = false) {pre mid : List (StoreEvent τ)} {d : Ledger τ}
    {owner : Reservation τ} {response : IdempotencyResponse} {T : τ}
    (h : (Ledger.machine sha256 cfg).Run (pre ++ (.commit owner response T, .committed) :: mid) d)
    (hclock : ∀ ev ∈ mid, ∀ c, clock? ev = some c → c < T + cfg.ttlSeconds) :
    ∃ e, d.get? (IdempotencyStore.cacheKey owner) = some e ∧ e.fingerprint = owner.fingerprint ∧
      e.state = .complete ∧ e.response = some response ∧ e.expiresAt = T + cfg.ttlSeconds := by
  obtain ⟨d₁, d₂, -, hcommit, -, hmid⟩ := h.split
  have hreturned : (Ledger.step sha256 cfg d₁ (.commit owner response T)).1 = .committed := congrArg Prod.fst hcommit
  have hleft : (Ledger.step sha256 cfg d₁ (.commit owner response T)).2 = d₂ := congrArg Prod.snd hcommit
  obtain ⟨e, hk, hef, hs, hr, hexp⟩ := Ledger.step_committed hreturned
  rw [hleft] at hk
  refine ⟨e, ?_, hef, hs, hr, hexp⟩
  refine Machine.Steps.preserves (I := fun d => OrderedDict.get? d (IdempotencyStore.cacheKey owner) = some e) ?_
    hmid hclock hk
  intro d op hk hc
  exact Ledger.step_keeps hev hk hs op (hexp ▸ hc)

/-- **Durability without eviction.**  After a commit at `T` that returned, as long as no later operation read the
clock at or past `T + ttlSeconds`, every `reserve` on the pair replays the response for the same fingerprint and
raises a conflict for every other well-formed one. -/
theorem noEvict_durability (hev : cfg.evictCompletedEntries = false) {evs : List (StoreEvent τ)} {s : Store τ}
    (h : (IdempotencyStore.machine sha256 cfg).Run evs s) {pre mid post : List (StoreEvent τ)} {t k f f' token : String}
    {owner : Reservation τ} {response : IdempotencyResponse} {T now : τ} {o : StoreOutcome τ}
    (hevs : evs = pre ++ (.commit owner response T, .committed) :: mid ++
      (.reserve t (some k) f' token now, o) :: post)
    (howner : ∃ ev ∈ pre, IssuesFor t k f owner ev)
    (hclock : ∀ ev ∈ mid ++ [(.reserve t (some k) f' token now, o)], ∀ c, clock? ev = some c →
      c < T + cfg.ttlSeconds) :
    (f' = f → o = .decided (.replay response)) ∧
    (f' ≠ f → WellFormedFingerprint f' → o = .raised .conflict) ∧
    (¬ WellFormedFingerprint f' → ∃ detail, o = .raised (.invalidInput detail)) := by
  obtain ⟨d, hd, -, -⟩ := run_ledger h
  obtain ⟨d₁, d₂, hrun, hstep, -, -⟩ := Machine.Run.split (hevs ▸ hd)
  obtain ⟨ev, hev₀, hfor⟩ := howner
  obtain ⟨hkey, hfp, hcheck⟩ := issuesFor_cacheKey hrun (List.mem_append_left _ hev₀) hfor
  -- the entry the commit left is still there
  obtain ⟨e, hkept, hef, hs, hr, hexp⟩ :=
    committed_kept hev hrun fun ev hm => hclock ev (List.mem_append_left _ hm)
  have ho : (Ledger.step sha256 cfg d₁ (.reserve t (some k) f' token now)).1 = o := congrArg Prod.fst hstep
  obtain ⟨ht, hk', -⟩ := checkReserve_eq_ok_iff.mp hcheck
  -- a well-formed fingerprint reaches the lookup
  have hanswer : WellFormedFingerprint f' → o = if f' = f then .decided (.replay response) else .raised .conflict := by
    intro hwf
    rw [Ledger.step_reserve_ok (checkReserve_eq_ok_iff.mpr ⟨ht, hk', hwf⟩)] at ho
    have hnow : now < e.expiresAt := by
      rw [hexp]
      refine hclock _ (List.mem_append_right _ List.mem_cons_self) now ?_
      rw [← ho]
      exact Ledger.clock?_reserve ..
    rw [← ho, Ledger.finish_fst, Ledger.reserve_complete (hkey ▸ hkept) hnow hr, hef, hfp]
    split_ifs <;> rfl
  refine ⟨?_, ?_, ?_⟩
  · rintro rfl
    rw [hanswer (checkReserve_eq_ok_iff.mp hcheck).2.2, if_pos rfl]
  · intro hne hwf
    rw [hanswer hwf, if_neg hne]
  · intro hnot
    rcases hcheck' : IdempotencyStore.checkReserve t (some k) f' with detail | ⟨t', k', f''⟩
    · rw [Ledger.step_reserve_error hcheck'] at ho
      exact ⟨detail, ho.symm⟩
    · obtain ⟨-, -, rfl⟩ := checkReserve_ok hcheck'
      exact absurd (checkReserve_eq_ok_iff.mp hcheck').2.2 hnot

/-! ## Slots that are used again -/

/-- The clock readings of a history do not run back. -/
def ClockOrdered (evs : List (StoreEvent τ)) : Prop :=
  evs.Pairwise fun ev ev' => ∀ c c', clock? ev = some c → clock? ev' = some c' → c ≤ c'

/-- A call that issues a reservation finds nothing in its slot, or something that has expired, and leaves the entry of
the reservation there. -/
theorem Ledger.step_issues {d : Ledger τ} {op : StoreOp τ} {r : Reservation τ}
    (h : Issues r (op, (Ledger.step sha256 cfg d op).1)) :
    (∃ now, clock? (op, (Ledger.step sha256 cfg d op).1) = some now ∧
      ∀ e, d.get? (IdempotencyStore.cacheKey r) = some e → e.expiresAt ≤ now) ∧
    ∃ e, (Ledger.step sha256 cfg d op).2.get? (IdempotencyStore.cacheKey r) = some e ∧
      IdempotencyStore.owns (some e) r = true ∧ e.expiresAt = r.expiresAt := by
  rcases op with ⟨tenantId, key, fingerprint, token, now⟩ | _ | _ | _ | _
  · rcases hcheck : IdempotencyStore.checkReserve tenantId key fingerprint with detail | ⟨tenant, k, f⟩
    · rw [step_reserve_error hcheck] at h
      exact h.elim
    · rw [step_reserve_ok hcheck] at h ⊢
      have hcase := reserve_case cfg (tenant, sha256 (utf8 k)) f token now d
      generalize reserve cfg (tenant, sha256 (utf8 k)) f token now d = x at h hcase ⊢
      rcases hcase with _ | _ | _ | _ | ⟨hnone, d', -, -⟩
      · exact h.elim
      · exact h.elim
      · exact h.elim
      · exact h.elim
      · obtain rfl : Ledger.issue cfg (tenant, sha256 (utf8 k)) f token now = r := h
        refine ⟨⟨now, rfl, fun e hk => ?_⟩, _, OrderedDict.get?_push_self .., ?_, rfl⟩
        · by_contra hnow
          have hlive := get?_live.mpr ⟨hk, not_le.mp hnow⟩
          exact nomatch hnone.symm.trans hlive
        · exact IdempotencyStore.owns_some_iff.mpr ⟨rfl, rfl, rfl⟩
  · exact h.elim
  · exact h.elim
  · exact h.elim
  · exact h.elim

/-- **A slot that is committed again** was issued again in between, when what the first commit had published was
over. -/
theorem noEvict_recommit (hev : cfg.evictCompletedEntries = false) {pre mid post : List (StoreEvent τ)} {d : Ledger τ}
    {owner owner' : Reservation τ} {response response' : IdempotencyResponse} {T T' : τ}
    (h : (Ledger.machine sha256 cfg).Run
      (pre ++ (.commit owner response T, .committed) :: mid ++ (.commit owner' response' T', .committed) :: post) d)
    (hl : Machine.Respects Legal
      (pre ++ (.commit owner response T, .committed) :: mid ++ (.commit owner' response' T', .committed) :: post))
    (hclock : ClockOrdered
      (pre ++ (.commit owner response T, .committed) :: mid ++ (.commit owner' response' T', .committed) :: post))
    (hkey : IdempotencyStore.cacheKey owner' = IdempotencyStore.cacheKey owner) :
    ∃ ev ∈ mid, Issues owner' ev ∧ ∃ now, clock? ev = some now ∧ T + cfg.ttlSeconds ≤ now := by
  obtain ⟨d₁, d₂, h₁, hstep, -, -⟩ := h.split
  have hissued := hl _ _ _ rfl
  have hf : Finalizes owner' (.commit owner' response' T',
      (Ledger.step sha256 cfg d₁ (.commit owner' response' T')).1) := by
    rw [show (Ledger.step sha256 cfg d₁ (.commit owner' response' T')).1 = .committed from congrArg Prod.fst hstep]
    rfl
  obtain ⟨e, now, -, -, hk, hown⟩ := step_finalizes hf
  obtain ⟨pre₁, ev, post₁, heq, hissues, -, hpost⟩ := live_owner h₁ hl.of_append hissued hk hown
  -- the first commit rewrote the slot, so the reservation was issued after it
  have hafter : ∃ x, mid = x ++ ev :: post₁ := by
    rcases List.append_eq_append_iff.mp heq with ⟨a, ha, hb⟩ | ⟨a, ha, hb⟩
    · rcases a with _ | ⟨x, a⟩ <;> cases hb
      · exact hissues.elim
      · exact ⟨a, rfl⟩
    · rcases a with _ | ⟨x, a⟩ <;> cases hb
      · exact hissues.elim
      · exact absurd ⟨owner, hkey.symm, .inr rfl⟩ (hpost (.commit owner response T, .committed) (by simp))
  obtain ⟨x, rfl⟩ := hafter
  refine ⟨ev, by simp, hissues, ?_⟩
  rw [← List.cons_append, ← List.append_assoc] at h₁
  obtain ⟨d₃, d₄, h₃, hissue, -, -⟩ := h₁.split
  obtain ⟨op, o⟩ := ev
  obtain rfl : (Ledger.step sha256 cfg d₃ op).1 = o := congrArg Prod.fst hissue
  obtain ⟨⟨now, hnow, hvacant⟩, -⟩ := Ledger.step_issues hissues
  refine ⟨now, hnow, ?_⟩
  by_contra hearly
  have hordered : ∀ ev' ∈ x, ∀ c, clock? ev' = some c → c < T + cfg.ttlSeconds := by
    intro ev' hev' c hc
    refine lt_of_le_of_lt ?_ (not_le.mp hearly)
    have hpair : [ev', (op, (Ledger.step sha256 cfg d₃ op).1)].Sublist
        (x ++ (op, (Ledger.step sha256 cfg d₃ op).1) :: post₁) :=
      (List.singleton_sublist.mpr hev').append (List.singleton_sublist.mpr List.mem_cons_self)
    have hsub := hpair.trans ((List.sublist_cons_self (.commit owner response T, .committed) _).trans
      ((List.sublist_append_right pre _).trans
        (List.sublist_append_left _ ((.commit owner' response' T', .committed) :: post))))
    exact (List.pairwise_pair.mp (hclock.sublist hsub)) c now hc hnow
  obtain ⟨e', hk', -, -, -, hexp⟩ := committed_kept hev h₃ hordered
  rw [← hkey] at hk'
  exact hearly (hexp ▸ hvacant e' hk')

/-! ### A committed response and two later calls -/

def durableConfig : StoreConfig ℤ := { demoConfig with evictCompletedEntries := false }

/-- After the commit, a call with another fingerprint and one with an empty fingerprint. -/
def durableRun : List (StoreEvent ℤ) :=
  [(.reserve "agent" (some "key-1") "fingerprint" "token-1" 0, .decided (.reserved (demoReservation 0 "token-1"))),
    (.commit (demoReservation 0 "token-1") demoResponse 5, .committed),
    (.reserve "agent" (some "key-1") "other" "token-2" 10, .raised .conflict),
    (.reserve "agent" (some "key-1") "" "token-3" 11,
      .raised (.invalidInput "request fingerprint must contain 1 to 256 encoded bytes"))]

theorem durableRun_run : (IdempotencyStore.machine demoDigest durableConfig).Run durableRun
    ((IdempotencyStore.machine demoDigest durableConfig).after (durableRun.map Prod.fst)) := by
  have heq : (IdempotencyStore.machine demoDigest durableConfig).trace (durableRun.map Prod.fst) = durableRun := by
    decide +kernel
  have h := Machine.run_after (IdempotencyStore.machine demoDigest durableConfig) (durableRun.map Prod.fst)
  rwa [heq] at h

/-- The third call of the run, by the theorem. -/
theorem noEvict_durability_conflict : durableRun[2].2 = .raised .conflict := by
  have hevs : durableRun = durableRun.take 1 ++ (.commit (demoReservation 0 "token-1") demoResponse 5, .committed) :: []
      ++ (.reserve "agent" (some "key-1") "other" "token-2" 10, durableRun[2].2) :: durableRun.drop 3 := rfl
  have howner : ∃ ev ∈ durableRun.take 1,
      IssuesFor "agent" "key-1" "fingerprint" (demoReservation 0 "token-1") ev :=
    ⟨_, List.mem_cons_self, rfl, rfl, rfl, rfl⟩
  have hwf : WellFormedFingerprint "other" := by
    unfold WellFormedFingerprint
    decide
  refine (noEvict_durability rfl durableRun_run hevs howner ?_).2.1 (by decide) hwf
  intro ev hev c hc
  obtain rfl := List.mem_singleton.mp hev
  cases hc
  decide

/-- A conflict for *every* other fingerprint is too much: an empty one is refused before the lookup. -/
theorem noEvict_malformed_fingerprint :
    ¬ ∀ (evs : List (StoreEvent ℤ)) (s : Store ℤ), (IdempotencyStore.machine demoDigest durableConfig).Run evs s →
      ∀ pre mid post t k f f' token owner response T now o,
        evs = pre ++ (.commit owner response T, .committed) :: mid ++
          (.reserve t (some k) f' token now, o) :: post →
        (∃ ev ∈ pre, IssuesFor t k f owner ev) →
        (∀ ev ∈ mid ++ [(.reserve t (some k) f' token now, o)], ∀ c, clock? ev = some c →
          c < T + durableConfig.ttlSeconds) →
        (f' = f → o = .decided (.replay response)) ∧ (f' ≠ f → o = .raised .conflict) := by
  intro hclaim
  have h := hclaim durableRun _ durableRun_run (durableRun.take 1) [durableRun[2]] [] "agent" "key-1" "fingerprint" ""
    "token-3" (demoReservation 0 "token-1") demoResponse 5 11 durableRun[3].2 rfl
    ⟨_, List.mem_cons_self, rfl, rfl, rfl, rfl⟩ ?_
  · exact nomatch h.2 (by decide)
  · intro ev hev c hc
    rcases List.mem_cons.mp hev with rfl | hev
    · cases hc
      decide
    · obtain rfl := List.mem_singleton.mp hev
      cases hc

end Lucent.Access
