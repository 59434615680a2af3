import Lucent.Access.Accounting

/-!
# Lucent.Access.Atomicity — a failed call changes nothing

`reserve` and `commit` may evict entries before they are done, so a failure after an eviction would lose them.

* `Store.dropExpired now s`: the store without its expired entries.  The others keep their order and contents, and
  the counters lose the bytes of the removed entries.
* `reserve_failed`, `commit_failed`, `abort_failed`: a ledger call that fails leaves the live entries, by the cases
  of the call: the evicting ones are those that succeed.
* `failed_call_unchanged`: after any sequence of calls, a failed call of the store only drops expired entries, and
  one refused before the lock not even those.
-/


namespace Lucent.Access

open Lucent.Lib

variable {τ : Type} [LinearOrder τ] [Zero τ] [Add τ] [Sub τ]

/-! ## Dropping what has expired -/

/-- The store without the entries that have expired at `now`. -/
def Store.dropExpired (now : τ) (s : Store τ) : Store τ where
  entries := s.entries.filter (fun _ entry => !decide (entry.expiresAt ≤ now))
  cachedResponseBytes := s.cachedResponseBytes -
    (s.entries.filter (fun _ entry => decide (entry.expiresAt ≤ now))).sum Entry.cachedBytes
  reservedResponseBytes := s.reservedResponseBytes -
    (s.entries.filter (fun _ entry => decide (entry.expiresAt ≤ now))).sum Entry.reservedBytes

/-- An error of a check made before the lock is taken. -/
def StoreError.beforeLock : StoreError τ → Bool
  | .invalidInput _ | .responseTooLarge _ => true
  | _ => false

/-- What a failed call with the clock reading `now` leaves of a store. -/
def Store.afterFailure (error : StoreError τ) (now : τ) (s : Store τ) : Store τ :=
  if error.beforeLock then s else s.dropExpired now

namespace Ledger

variable {cfg : StoreConfig τ} {d : Ledger τ} {now : τ}

omit [Zero τ] [Add τ] [Sub τ] in
theorem live_eq_filter_not (now : τ) (d : Ledger τ) :
    live now d = d.filter (fun _ entry => !decide (entry.expiresAt ≤ now)) :=
  congrArg d.filter (funext fun _ => funext fun entry => by simp [← decide_not, not_le])

omit [Zero τ] [Add τ] [Sub τ] in
/-- With counters that are totals, the live entries are the store without the expired ones. -/
theorem ofEntries_live (now : τ) (d : Ledger τ) :
    Store.ofEntries (live now d) = (Store.ofEntries d).dropExpired now := by
  have hc := d.sum_filter_add_sum_filter_not (fun _ entry => decide (entry.expiresAt ≤ now)) Entry.cachedBytes
  have hr := d.sum_filter_add_sum_filter_not (fun _ entry => decide (entry.expiresAt ≤ now)) Entry.reservedBytes
  have hcached : cached (live now d) = d.cached -
      (d.filter (fun _ entry => decide (entry.expiresAt ≤ now))).sum Entry.cachedBytes := by
    rw [live_eq_filter_not]
    exact eq_sub_of_add_eq' hc
  have hreserved : reserved (live now d) = d.reserved -
      (d.filter (fun _ entry => decide (entry.expiresAt ≤ now))).sum Entry.reservedBytes := by
    rw [live_eq_filter_not]
    exact eq_sub_of_add_eq' hr
  unfold Store.ofEntries Store.dropExpired
  rw [hcached, hreserved, live_eq_filter_not]

/-! ## Failed calls of the ledger -/

/-- `reserve` evicts only on the way to a new reservation. -/
theorem reserve_failed {key : CacheKey} {fingerprint token : String} {error : StoreError τ}
    (h : (reserve cfg key fingerprint token now d).1 = .error error) :
    error.beforeLock = false ∧ (reserve cfg key fingerprint token now d).2 = live now d := by
  have hcase := reserve_case cfg key fingerprint token now d
  generalize reserve cfg key fingerprint token now d = r at h hcase
  rcases hcase with _ | _ | _ | _ | _ <;> cases h <;> exact ⟨rfl, rfl⟩

omit [Sub τ] in
/-- `commit` evicts only on the way to a publication. -/
theorem commit_failed {reservation : Reservation τ} {response : IdempotencyResponse} {error : StoreError τ}
    (h : (commit cfg reservation response now d).1 = .error error) :
    (commit cfg reservation response now d).2 = if error.beforeLock then d else live now d := by
  have hcase := commit_case cfg reservation response now d
  generalize commit cfg reservation response now d = r at h hcase
  rcases hcase with _ | _ | _ <;> cases h <;> rfl

omit [Zero τ] [Add τ] [Sub τ] in
theorem abort_failed {reservation : Reservation τ} (h : (abort reservation now d).1 = false) :
    (abort reservation now d).2 = live now d := by
  unfold abort at h ⊢
  by_cases hown : IdempotencyStore.owns
      ((live now d).get? (IdempotencyStore.cacheKey reservation)) reservation = true
  · simp [hown] at h
  · simp [hown]

end Ledger

/-! ## Failed calls of the store -/

namespace StoreInv

variable {cfg : StoreConfig τ} {s : Store τ} {sha256 : Bytes → Bytes} {now : τ}

omit [Add τ] [Sub τ] in
/-- A call of the ledger that leaves the live entries drops the expired ones of the store. -/
theorem ofEntries_live (h : StoreInv cfg s) (now : τ) :
    Store.ofEntries (Ledger.live now s.entries) = s.dropExpired now := by
  rw [Ledger.ofEntries_live, ← h.2]

theorem reserve_failed (h : StoreInv cfg s) {tenantId fingerprint token : String} {key : Option String}
    {error : StoreError τ}
    (hraised : (IdempotencyStore.step sha256 cfg s (.reserve tenantId key fingerprint token now)).1 = .raised error) :
    (IdempotencyStore.step sha256 cfg s (.reserve tenantId key fingerprint token now)).2 =
      s.afterFailure error now := by
  rw [h.step_eq] at hraised ⊢
  rcases hcheck : IdempotencyStore.checkReserve tenantId key fingerprint with detail | ⟨tenant, k, f⟩
  · rw [Ledger.step_reserve_error hcheck] at hraised ⊢
    cases hraised
    exact h.2.symm
  · rw [Ledger.step_reserve_ok hcheck] at hraised ⊢
    obtain ⟨hlate, hleft⟩ := Ledger.reserve_failed (Ledger.finish_raised (by nofun) hraised)
    have hfinish := Ledger.finish_snd StoreOutcome.decided
      (Ledger.reserve cfg (tenant, sha256 (utf8 k)) f token now s.entries)
    rw [hfinish, hleft, h.ofEntries_live, Store.afterFailure, hlate]
    rfl

theorem commit_failed (h : StoreInv cfg s) {reservation : Reservation τ} {response : IdempotencyResponse}
    {error : StoreError τ}
    (hraised : (IdempotencyStore.step sha256 cfg s (.commit reservation response now)).1 = .raised error) :
    (IdempotencyStore.step sha256 cfg s (.commit reservation response now)).2 = s.afterFailure error now := by
  rw [h.step_eq, Ledger.step_commit] at hraised ⊢
  have hleft := Ledger.commit_failed (Ledger.finish_raised (by nofun) hraised)
  rw [Ledger.finish_snd, hleft, Store.afterFailure]
  split_ifs
  · exact h.2.symm
  · exact h.ofEntries_live now

theorem abort_failed (h : StoreInv cfg s) {reservation : Reservation τ}
    (hfalse : (IdempotencyStore.step sha256 cfg s (.abort reservation now)).1 = .aborted false) :
    (IdempotencyStore.step sha256 cfg s (.abort reservation now)).2 = s.dropExpired now := by
  rw [h.step_eq, Ledger.step_abort] at hfalse ⊢
  rw [← h.ofEntries_live, Ledger.abort_failed (StoreOutcome.aborted.inj hfalse)]

end StoreInv

/-- **Failed calls change nothing.**  After any sequence of calls: a `reserve` or `commit` that raises, and an
`abort` that returns `False`, leave the store without its expired entries and otherwise as it was; a call refused
before the lock leaves the expired ones too. -/
theorem failed_call_unchanged (sha256 : Bytes → Bytes) (cfg : StoreConfig τ) (ops : List (StoreOp τ)) :
    let s := (IdempotencyStore.machine sha256 cfg).after ops
    (∀ tenantId key fingerprint token now error,
      (IdempotencyStore.step sha256 cfg s (.reserve tenantId key fingerprint token now)).1 = .raised error →
      (IdempotencyStore.step sha256 cfg s (.reserve tenantId key fingerprint token now)).2 =
        s.afterFailure error now) ∧
    (∀ reservation response now error,
      (IdempotencyStore.step sha256 cfg s (.commit reservation response now)).1 = .raised error →
      (IdempotencyStore.step sha256 cfg s (.commit reservation response now)).2 = s.afterFailure error now) ∧
    ∀ reservation now,
      (IdempotencyStore.step sha256 cfg s (.abort reservation now)).1 = .aborted false →
      (IdempotencyStore.step sha256 cfg s (.abort reservation now)).2 = s.dropExpired now := by
  intro s
  have hinv : StoreInv cfg s := StoreInv.after sha256 cfg ops
  refine ⟨?_, ?_, ?_⟩
  · intro tenantId key fingerprint token now error h
    exact hinv.reserve_failed h
  · intro reservation response now error h
    exact hinv.commit_failed h
  · intro reservation now h
    exact hinv.abort_failed h

end Lucent.Access
