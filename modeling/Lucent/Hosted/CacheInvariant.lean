import Lucent.Hosted.SourceCache

/-!
# Lucent.Hosted.CacheInvariant — the representation invariant of the source cache

* `Shrunk`: what expiry, eviction and trimming have in common.
* `attempt_cases`, `record_cases`, `step_cases`: what one step can do.
* `CacheInvariant`: the byte counter and its budget, the bounds, the three disjoint sets of keys, and the flight behind a
  key; one step keeps it (`step_cacheInvariant`), so every run does (`sourceCache_representation`).
-/

namespace Lucent.Hosted.VerifiedSourceCache

open Lucent.Lib Lucent.VerifiedSource

section Shrunk

variable {τ : Type}

/-- The bytes of all entries. -/
def totalBytes (c : SourceCache τ) : ℤ := c.entries.sum (fun entry => (entry.sizeBytes : ℤ))

/-! ## What only drops entries -/

/-- `c'` is `c` without some of its entries and failures. -/
structure Shrunk (c c' : SourceCache τ) : Prop where
  entries : ∀ {key entry}, c'.entries.get? key = some entry → c.entries.get? key = some entry
  failures : ∀ {key failure}, c'.failures.get? key = some failure → c.failures.get? key = some failure
  inflight : c'.inflight = c.inflight
  bytes : c'.cachedBytes - totalBytes c' = c.cachedBytes - totalBytes c
  bytes_le : c'.cachedBytes ≤ c.cachedBytes
  entries_le : c'.entries.length ≤ c.entries.length
  failures_le : c'.failures.length ≤ c.failures.length

theorem Shrunk.refl (c : SourceCache τ) : Shrunk c c := ⟨id, id, rfl, rfl, le_refl _, le_refl _, le_refl _⟩

theorem Shrunk.trans {c₁ c₂ c₃ : SourceCache τ} (h : Shrunk c₁ c₂) (h' : Shrunk c₂ c₃) : Shrunk c₁ c₃ :=
  ⟨h.entries ∘ h'.entries, h.failures ∘ h'.failures, h'.inflight.trans h.inflight, h'.bytes.trans h.bytes,
    h'.bytes_le.trans h.bytes_le, h'.entries_le.trans h.entries_le, h'.failures_le.trans h.failures_le⟩

theorem shrunk_eraseEntry {c : SourceCache τ} {key : SourceKey} {entry : SourceCacheEntry τ}
    (h : c.entries.get? key = some entry) :
    Shrunk c { c with entries := c.entries.erase key, cachedBytes := c.cachedBytes - entry.sizeBytes } := by
  refine ⟨fun he => (OrderedDict.get?_erase_eq_some_iff.mp he).2, id, rfl, ?_, by simp, ?_, le_refl _⟩
  · have hsum := OrderedDict.sum_eq_add_erase h (fun e => (e.sizeBytes : ℤ))
    simp only [totalBytes]
    omega
  · have hlen := OrderedDict.length_erase h
    show (c.entries.erase key).length ≤ c.entries.length
    omega

theorem shrunk_eraseFailure {c : SourceCache τ} {key : SourceKey} {failure : SourceFailureEntry τ}
    (h : c.failures.get? key = some failure) : Shrunk c { c with failures := c.failures.erase key } := by
  refine ⟨id, fun hf => (OrderedDict.get?_erase_eq_some_iff.mp hf).2, rfl, rfl, le_refl _, le_refl _, ?_⟩
  have hlen := OrderedDict.length_erase h
  show (c.failures.erase key).length ≤ c.failures.length
  omega

/-- A loop of the expiry, from any point: the items still to come are in the dictionary under distinct keys. -/
theorem foldl_drop {β : Type} {dict : SourceCache τ → OrderedDict SourceKey β} {expired : β → Prop} [DecidablePred expired]
    {drop : SourceCache τ → SourceKey × β → SourceCache τ}
    (hdict : ∀ {c c'}, Shrunk c c' → ∀ {key value}, (dict c').get? key = some value → (dict c).get? key = some value)
    (hdrop : ∀ {c item}, (dict c).get? item.1 = some item.2 →
      Shrunk c (drop c item) ∧ dict (drop c item) = (dict c).erase item.1)
    {items : List (SourceKey × β)} : ∀ {c : SourceCache τ}, (items.map Prod.fst).Nodup →
      (∀ item ∈ items, (dict c).get? item.1 = some item.2) →
      Shrunk c (items.foldl (fun c item => if expired item.2 then drop c item else c) c) ∧
      ∀ key value, (key, value) ∈ items →
        (dict (items.foldl (fun c item => if expired item.2 then drop c item else c) c)).get? key = some value →
          ¬ expired value := by
  induction items with
  | nil => exact fun _ _ => ⟨.refl _, fun _ _ h => absurd h (by simp)⟩
  | cons item items ih =>
    intro c hnodup hmem
    rw [List.map_cons, List.nodup_cons] at hnodup
    rw [List.foldl_cons]
    by_cases hexp : expired item.2
    · rw [if_pos hexp]
      obtain ⟨hshrunk, herase⟩ := hdrop (hmem item (by simp))
      obtain ⟨hrest, hunexp⟩ := @ih (drop c item) hnodup.2 (fun other hother => by
        rw [herase]
        refine OrderedDict.get?_erase_eq_some_iff.mpr ⟨fun heq => hnodup.1 ?_, hmem other (by simp [hother])⟩
        exact heq ▸ List.mem_map_of_mem hother)
      refine ⟨hshrunk.trans hrest, fun key value hin hget => ?_⟩
      rcases List.mem_cons.mp hin with rfl | hin
      · have hgone := hdict hrest hget
        rw [herase] at hgone
        exact absurd (OrderedDict.get?_erase_eq_some_iff.mp hgone).1 (by simp)
      · exact hunexp key value hin hget
    · rw [if_neg hexp]
      obtain ⟨hrest, hunexp⟩ := @ih c hnodup.2 (fun other hother => hmem other (by simp [hother]))
      refine ⟨hrest, fun key value hin hget => ?_⟩
      rcases List.mem_cons.mp hin with rfl | hin
      · exact hexp
      · exact hunexp key value hin hget

end Shrunk

section Loops

variable {τ : Type} [LinearOrder τ]

/-- The entries after `_expire_locked` are old ones, and unexpired. -/
theorem expireLocked_spec (now : τ) (c : SourceCache τ) :
    Shrunk c (expireLocked now c) ∧
      (∀ key entry, (expireLocked now c).entries.get? key = some entry → now < entry.expiresAt) ∧
      ∀ key failure, (expireLocked now c).failures.get? key = some failure → now < failure.expiresAt := by
  obtain ⟨hfirst, hentries⟩ := @foldl_drop τ _ SourceCache.entries (fun entry => entry.expiresAt ≤ now) _ _
    Shrunk.entries (fun h => ⟨shrunk_eraseEntry h, rfl⟩) c.entries.entries c c.entries.keys_nodup
    (fun item hitem => OrderedDict.get?_eq_some_iff.mpr hitem)
  obtain ⟨hsecond, hfailures⟩ := @foldl_drop τ _ SourceCache.failures (fun failure => failure.expiresAt ≤ now) _ _
    Shrunk.failures (fun h => ⟨shrunk_eraseFailure h, rfl⟩) _ (c.entries.entries.foldl (dropEntry now) c)
    (OrderedDict.keys_nodup _) (fun item hitem => OrderedDict.get?_eq_some_iff.mpr hitem)
  refine ⟨hfirst.trans hsecond, fun key entry hget => ?_, fun key failure hget => ?_⟩
  · have hkept := hsecond.entries hget
    exact not_le.mp (hentries key entry (OrderedDict.get?_eq_some_iff.mp (hfirst.entries hkept)) hkept)
  · exact not_le.mp (hfailures key failure (OrderedDict.get?_eq_some_iff.mp (hsecond.failures hget)) hget)

variable [NatCast τ]

theorem evictLoop_spec {cfg : SourceCacheConfig τ} {sizeBytes turns : ℕ} : ∀ {c : SourceCache τ},
    c.entries.length ≤ turns → Shrunk c (evictLoop cfg sizeBytes turns c) ∧
      ((evictLoop cfg sizeBytes turns c).entries.entries = [] ∨
        ((evictLoop cfg sizeBytes turns c).entries.length < cfg.maxEntries ∧
          (evictLoop cfg sizeBytes turns c).cachedBytes + sizeBytes ≤ cfg.maxBytes)) := by
  induction turns with
  | zero =>
    intro c hlen
    exact ⟨.refl _, .inl (List.eq_nil_of_length_eq_zero (Nat.le_zero.mp hlen))⟩
  | succ turns ih =>
    intro c hlen
    unfold evictLoop
    split
    · next hnil => exact ⟨.refl _, .inl hnil⟩
    · next key evicted rest hcons =>
      have hget : c.entries.get? key = some evicted := OrderedDict.get?_eq_some_iff.mpr (by simp [hcons])
      split
      · have hle := OrderedDict.length_erase hget
        obtain ⟨hshrunk, hroom⟩ := @ih
          { c with entries := c.entries.erase key, cachedBytes := c.cachedBytes - evicted.sizeBytes }
          (by show (c.entries.erase key).length ≤ turns; omega)
        exact ⟨(shrunk_eraseEntry hget).trans hshrunk, hroom⟩
      · next hfits =>
        obtain ⟨hlen', hbytes⟩ := not_or.mp hfits
        exact ⟨.refl _, .inr ⟨not_le.mp hlen', not_lt.mp hbytes⟩⟩

theorem trimFailures_spec {cfg : SourceCacheConfig τ} {turns : ℕ} : ∀ {c : SourceCache τ},
    c.failures.length ≤ turns → Shrunk c (trimFailures cfg turns c) ∧
      (trimFailures cfg turns c).failures.length ≤ cfg.maxEntries := by
  induction turns with
  | zero => exact fun hlen => ⟨.refl _, hlen.trans (Nat.zero_le _)⟩
  | succ turns ih =>
    intro c hlen
    unfold trimFailures
    split
    · next hnil => exact ⟨.refl _, by simp [OrderedDict.length, hnil]⟩
    · next key failure rest hcons =>
      have hget : c.failures.get? key = some failure := OrderedDict.get?_eq_some_iff.mpr (by simp [hcons])
      split
      · have hle := OrderedDict.length_erase hget
        obtain ⟨hshrunk, hroom⟩ := @ih { c with failures := c.failures.erase key }
          (by show (c.failures.erase key).length ≤ turns; omega)
        exact ⟨(shrunk_eraseFailure hget).trans hshrunk, hroom⟩
      · next hfits => exact ⟨.refl _, not_lt.mp hfits⟩

end Loops

/-! ## The representation -/

section Representation

variable {τ : Type} [LE τ] [NatCast τ]

/-- What the constructor's limits promise, and which keys exclude each other. -/
structure Representation (cfg : SourceCacheConfig τ) (c : SourceCache τ) : Prop where
  bytes_eq : c.cachedBytes = totalBytes c
  bytes_le : c.cachedBytes ≤ cfg.maxBytes
  entries_le : c.entries.length ≤ cfg.maxEntries
  failures_le : c.failures.length ≤ cfg.maxEntries
  inflight_le : c.inflight.card ≤ cfg.maxEntries
  entries_failures : ∀ key, c.entries.get? key = none ∨ c.failures.get? key = none
  entries_inflight : ∀ key ∈ c.inflight, c.entries.get? key = none
  failures_inflight : ∀ key ∈ c.inflight, c.failures.get? key = none

variable {cfg : SourceCacheConfig τ} {c c' : SourceCache τ} {key : SourceKey}

omit [LE τ] [NatCast τ] in
theorem Shrunk.entries_none (h : Shrunk c c') (hnone : c.entries.get? key = none) : c'.entries.get? key = none := by
  rcases hget : c'.entries.get? key with _ | entry
  · rfl
  · exact nomatch hnone.symm.trans (h.entries hget)

omit [LE τ] [NatCast τ] in
theorem Shrunk.failures_none (h : Shrunk c c') (hnone : c.failures.get? key = none) : c'.failures.get? key = none := by
  rcases hget : c'.failures.get? key with _ | failure
  · rfl
  · exact nomatch hnone.symm.trans (h.failures hget)

theorem Representation.shrunk (h : Representation cfg c) (hs : Shrunk c c') : Representation cfg c' where
  bytes_eq := by have := hs.bytes; have := h.bytes_eq; omega
  bytes_le := hs.bytes_le.trans h.bytes_le
  entries_le := hs.entries_le.trans h.entries_le
  failures_le := hs.failures_le.trans h.failures_le
  inflight_le := hs.inflight ▸ h.inflight_le
  entries_failures key := (h.entries_failures key).imp hs.entries_none hs.failures_none
  entries_inflight key hkey := hs.entries_none (h.entries_inflight key (hs.inflight ▸ hkey))
  failures_inflight key hkey := hs.failures_none (h.failures_inflight key (hs.inflight ▸ hkey))

theorem Representation.moveEntry (h : Representation cfg c) :
    Representation cfg { c with entries := c.entries.moveToEnd key } where
  bytes_eq := h.bytes_eq.trans (OrderedDict.sum_moveToEnd _ _ _).symm
  bytes_le := h.bytes_le
  entries_le := (OrderedDict.length_moveToEnd _ _).trans_le h.entries_le
  failures_le := h.failures_le
  inflight_le := h.inflight_le
  entries_failures key' := by simpa using h.entries_failures key'
  entries_inflight key' hkey := by simpa using h.entries_inflight key' hkey
  failures_inflight := h.failures_inflight

theorem Representation.moveFailure (h : Representation cfg c) :
    Representation cfg { c with failures := c.failures.moveToEnd key } where
  bytes_eq := h.bytes_eq
  bytes_le := h.bytes_le
  entries_le := h.entries_le
  failures_le := (OrderedDict.length_moveToEnd _ _).trans_le h.failures_le
  inflight_le := h.inflight_le
  entries_failures key' := by simpa using h.entries_failures key'
  entries_inflight := h.entries_inflight
  failures_inflight key' hkey := by simpa using h.failures_inflight key' hkey

/-- A flight starts for a key that is nowhere. -/
theorem Representation.insert (h : Representation cfg c) (hentries : c.entries.get? key = none)
    (hfailures : c.failures.get? key = none) (hroom : c.inflight.card < cfg.maxEntries) :
    Representation cfg { c with inflight := insert key c.inflight } where
  bytes_eq := h.bytes_eq
  bytes_le := h.bytes_le
  entries_le := h.entries_le
  failures_le := h.failures_le
  inflight_le := (Finset.card_insert_le _ _).trans hroom
  entries_failures := h.entries_failures
  entries_inflight key' hkey := by
    rcases Finset.mem_insert.mp hkey with rfl | hkey
    · exact hentries
    · exact h.entries_inflight key' hkey
  failures_inflight key' hkey := by
    rcases Finset.mem_insert.mp hkey with rfl | hkey
    · exact hfailures
    · exact h.failures_inflight key' hkey

theorem Representation.erase (h : Representation cfg c) :
    Representation cfg { c with inflight := c.inflight.erase key } where
  bytes_eq := h.bytes_eq
  bytes_le := h.bytes_le
  entries_le := h.entries_le
  failures_le := h.failures_le
  inflight_le := Finset.card_erase_le.trans h.inflight_le
  entries_failures := h.entries_failures
  entries_inflight key' hkey := h.entries_inflight key' (Finset.mem_of_mem_erase hkey)
  failures_inflight key' hkey := h.failures_inflight key' (Finset.mem_of_mem_erase hkey)

/-- A flight lands with an entry that fits. -/
theorem Representation.landEntry (h : Representation cfg c) (hkey : key ∈ c.inflight) {entry : SourceCacheEntry τ}
    (hroom : c.entries.length < cfg.maxEntries) (hbytes : c.cachedBytes + entry.sizeBytes ≤ cfg.maxBytes) :
    Representation cfg { c with
      entries := c.entries.push key entry
      cachedBytes := c.cachedBytes + entry.sizeBytes
      inflight := c.inflight.erase key } where
  bytes_eq := by
    have hsum := OrderedDict.sum_push c.entries key entry (fun e => (e.sizeBytes : ℤ))
    rw [OrderedDict.erase_of_get?_none (h.entries_inflight key hkey)] at hsum
    have hold := h.bytes_eq
    simp only [totalBytes] at hold ⊢
    omega
  bytes_le := hbytes
  entries_le := by
    show (c.entries.push key entry).length ≤ cfg.maxEntries
    rw [OrderedDict.length_push, OrderedDict.erase_of_get?_none (h.entries_inflight key hkey)]
    exact hroom
  failures_le := h.failures_le
  inflight_le := Finset.card_erase_le.trans h.inflight_le
  entries_failures key' := by
    by_cases heq : key' = key
    · exact .inr (heq ▸ h.failures_inflight key hkey)
    · exact (h.entries_failures key').imp_left ((OrderedDict.get?_push_of_ne heq _ _).trans)
  entries_inflight key' hkey' := by
    obtain ⟨hne, hkey'⟩ := Finset.mem_erase.mp hkey'
    exact (OrderedDict.get?_push_of_ne hne _ _).trans (h.entries_inflight key' hkey')
  failures_inflight key' hkey' := h.failures_inflight key' (Finset.mem_of_mem_erase hkey')

/-- A flight lands with a failure, and the failures are trimmed. -/
theorem Representation.landFailure (h : Representation cfg c) (hkey : key ∈ c.inflight)
    {failure : SourceFailureEntry τ} (hs : Shrunk { c with failures := c.failures.push key failure } c')
    (hroom : c'.failures.length ≤ cfg.maxEntries) :
    Representation cfg { c' with inflight := c'.inflight.erase key } where
  bytes_eq := by have := hs.bytes; have := h.bytes_eq; simp only [totalBytes] at *; omega
  bytes_le := hs.bytes_le.trans h.bytes_le
  entries_le := hs.entries_le.trans h.entries_le
  failures_le := hroom
  inflight_le := Finset.card_erase_le.trans (hs.inflight ▸ h.inflight_le)
  entries_failures key' := by
    by_cases heq : key' = key
    · exact .inl (hs.entries_none (heq ▸ h.entries_inflight key hkey))
    · refine (h.entries_failures key').imp hs.entries_none fun hnone => hs.failures_none ?_
      exact (OrderedDict.get?_push_of_ne heq _ _).trans hnone
  entries_inflight key' hkey' :=
    hs.entries_none (h.entries_inflight key' (hs.inflight ▸ Finset.mem_of_mem_erase hkey'))
  failures_inflight key' hkey' := by
    obtain ⟨hne, hkey'⟩ := Finset.mem_erase.mp hkey'
    refine hs.failures_none ((OrderedDict.get?_push_of_ne hne _ _).trans ?_)
    exact h.failures_inflight key' (hs.inflight ▸ hkey')

end Representation

/-! ## What one step can do -/

section Steps

variable {τ : Type} [LinearOrder τ] [Add τ] [NatCast τ] {readFloat : List Char → PyFloat} {lower : String → String}
  {cfg : SourceCacheConfig τ} {key : SourceKey} {now : τ}

/-- A success of a key that has no entry: too big to keep, or kept behind others that were dropped for it. -/
theorem storeSuccessLocked_cases {c c' : SourceCache τ} {result : VerifiedSourceResult}
    (h : Representation cfg c) (hnone : c.entries.get? key = none)
    (hstore : storeSuccessLocked readFloat cfg key result now c = some c') :
    c' = c ∨ ∃ c₁ entry, Shrunk c c₁ ∧ c₁.entries.length < cfg.maxEntries ∧
      c₁.cachedBytes + entry.sizeBytes ≤ cfg.maxBytes ∧ entry.result = result ∧
      entry.expiresAt = now + cfg.ttlSeconds ∧
      c' = { c₁ with entries := c₁.entries.push key entry, cachedBytes := c₁.cachedBytes + entry.sizeBytes } := by
  unfold storeSuccessLocked at hstore
  split at hstore
  · exact nomatch hstore
  · next sizeBytes _ =>
    split at hstore
    · exact .inl (Option.some.inj hstore).symm
    · next hfits =>
      rw [hnone] at hstore
      obtain ⟨hshrunk, hroom⟩ := @evictLoop_spec τ _ _ cfg sizeBytes _ c (le_refl c.entries.length)
      refine .inr ⟨evictLoop cfg sizeBytes c.entries.length c, ⟨result, now + cfg.ttlSeconds, sizeBytes⟩, hshrunk,
        ?_, ?_, rfl, rfl, ?_⟩
      · rcases hroom with hempty | ⟨hlen, -⟩
        · rw [OrderedDict.length, hempty]
          exact cfg.entries_pos
        · exact hlen
      · rcases hroom with hempty | ⟨-, hbytes⟩
        · have hzero : totalBytes (evictLoop cfg sizeBytes c.entries.length c) = 0 := by
            simp [totalBytes, OrderedDict.sum, hempty]
          have hbytes := (h.shrunk hshrunk).bytes_eq
          rw [hbytes, hzero]
          simpa using hfits
        · exact hbytes
      · rw [← OrderedDict.set_eq_push (hshrunk.entries_none hnone)]
        exact (Option.some.inj hstore).symm

/-- A failure: not kept where the backoff is zero, or kept as the newest one. -/
theorem storeFailureLocked_cases (cfg : SourceCacheConfig τ) (key : SourceKey) (error : VerifiedSourceError) (now : τ)
    (c : SourceCache τ) : storeFailureLocked cfg key error now c = c ∨
      (Shrunk { c with failures := c.failures.push key ⟨error, now + cfg.negativeTtlSeconds⟩ }
          (storeFailureLocked cfg key error now c) ∧
        (storeFailureLocked cfg key error now c).failures.length ≤ cfg.maxEntries) := by
  unfold storeFailureLocked
  split
  · simp only [OrderedDict.moveToEnd_set]
    exact .inr (trimFailures_spec (le_refl _))
  · exact .inl rfl

/-- The call of a thread in flight. -/
def flight? : SourceThread → Option (ℤ × String)
  | .resolving call => some call
  | .resolved call _ => some call
  | _ => none

@[simp] theorem flight?_notifyAll (threads : ℕ → SourceThread) (t : ℕ) :
    flight? (notifyAll threads t) = flight? (threads t) := by
  unfold notifyAll
  cases threads t <;> rfl

theorem flight?_update (threads : ℕ → SourceThread) (thread t : ℕ) (phase : SourceThread) :
    flight? (Function.update threads thread phase t) = if t = thread then flight? phase else flight? (threads t) := by
  by_cases h : t = thread
  · rw [h, Function.update_self, if_pos rfl]
  · rw [Function.update_of_ne h, if_neg h]

omit [Add τ] in
/-- A turn of the loop: it returns an entry, raises a failure, waits, raises for want of capacity, or takes off. -/
theorem attempt_cases (lower : String → String) (cfg : SourceCacheConfig τ) (thread : ℕ) (call : ℤ × String)
    (now : τ) (s : SourceState τ) :
    (∃ entry, (expireLocked now s.cache).entries.get? (keyOf lower call) = some entry ∧
      attempt lower cfg thread call now s = (.returned entry.result,
        ⟨{ expireLocked now s.cache with
            entries := (expireLocked now s.cache).entries.moveToEnd (keyOf lower call) },
          Function.update s.threads thread .outside⟩)) ∨
    (∃ failure, (expireLocked now s.cache).failures.get? (keyOf lower call) = some failure ∧
      attempt lower cfg thread call now s = (.cachedFailure failure.error,
        ⟨{ expireLocked now s.cache with
            failures := (expireLocked now s.cache).failures.moveToEnd (keyOf lower call) },
          Function.update s.threads thread .outside⟩)) ∨
    (keyOf lower call ∈ (expireLocked now s.cache).inflight ∧ attempt lower cfg thread call now s =
      (.waits, ⟨expireLocked now s.cache, Function.update s.threads thread (.waiting call false)⟩)) ∨
    attempt lower cfg thread call now s =
      (.capacity capacityError, ⟨expireLocked now s.cache, Function.update s.threads thread .outside⟩) ∨
    ((expireLocked now s.cache).entries.get? (keyOf lower call) = none ∧
      (expireLocked now s.cache).failures.get? (keyOf lower call) = none ∧
      keyOf lower call ∉ (expireLocked now s.cache).inflight ∧
      (expireLocked now s.cache).inflight.card < cfg.maxEntries ∧ attempt lower cfg thread call now s = (.calls,
        ⟨{ expireLocked now s.cache with inflight := insert (keyOf lower call) (expireLocked now s.cache).inflight },
          Function.update s.threads thread (.resolving call)⟩)) := by
  unfold attempt
  rcases hentry : (expireLocked now s.cache).entries.get? (keyOf lower call) with _ | entry
  · rcases hfailure : (expireLocked now s.cache).failures.get? (keyOf lower call) with _ | failure
    · by_cases hin : keyOf lower call ∈ (expireLocked now s.cache).inflight
      · exact .inr (.inr (.inl ⟨hin, by simp [hentry, hfailure, hin]⟩))
      · by_cases hroom : (expireLocked now s.cache).inflight.card ≥ cfg.maxEntries
        · exact .inr (.inr (.inr (.inl (by simp [hentry, hfailure, hin, hroom]))))
        · refine .inr (.inr (.inr (.inr ⟨rfl, rfl, hin, not_le.mp hroom, ?_⟩)))
          simp [hentry, hfailure, hin, hroom]
    · exact .inr (.inl ⟨failure, rfl, by simp [hentry, hfailure]⟩)
  · exact .inl ⟨entry, rfl, by simp [hentry]⟩

/-- What a landing leaves in the cache, and what `resolve` does. -/
inductive Landing (readFloat : List Char → PyFloat) (cfg : SourceCacheConfig τ) (key : SourceKey) (now : τ)
    (c : SourceCache τ) : ResolverOutcome → TurnAnswer → SourceCache τ → Prop
  | success {result c'} : storeSuccessLocked readFloat cfg key result now c = some c' →
      Landing readFloat cfg key now c (.returned result) (.returned result) c'
  | failure (error) : Landing readFloat cfg key now c (.failed error) (.failed error)
      (storeFailureLocked cfg key error now c)
  | invalid : Landing readFloat cfg key now c .invalid (.raised "TypeError") c
  | exception (exception) : Landing readFloat cfg key now c (.raised exception) (.raised exception) c

/-- The section that records an outcome: a landing, or a result whose size cannot be told. -/
theorem record_cases (readFloat : List Char → PyFloat) (lower : String → String) (cfg : SourceCacheConfig τ)
    (thread : ℕ) (call : ℤ × String) (outcome : ResolverOutcome) (now : τ) (s : SourceState τ) :
    (∃ answer c, Landing readFloat cfg (keyOf lower call) now s.cache outcome answer c ∧
      record readFloat lower cfg thread call outcome now s = (answer, land thread (keyOf lower call) c s.threads)) ∨
    (∃ result, outcome = .returned result ∧ result.cacheSizeBytes readFloat = none ∧
      record readFloat lower cfg thread call outcome now s =
        (.raised "ValueError", ⟨s.cache, Function.update s.threads thread .outside⟩)) := by
  cases outcome with
  | failed error => exact .inl ⟨_, _, .failure error, rfl⟩
  | invalid => exact .inl ⟨_, _, .invalid, rfl⟩
  | raised exception => exact .inl ⟨_, _, .exception exception, rfl⟩
  | returned result =>
    rcases hstore : storeSuccessLocked readFloat cfg (keyOf lower call) result now s.cache with _ | c
    · refine .inr ⟨result, rfl, ?_, by simp [record, hstore]⟩
      unfold storeSuccessLocked at hstore
      split at hstore
      · assumption
      · split at hstore <;> cases hstore
    · exact .inl ⟨_, _, .success hstore, by simp [record, hstore]⟩

/-- A step is refused, or a turn of the loop of a thread that is not in flight, or the end of a flight's resolver call,
or the section after it. -/
theorem step_cases (readFloat : List Char → PyFloat) (lower : String → String) (cfg : SourceCacheConfig τ)
    (s : SourceState τ) (turn : Turn τ) :
    step readFloat lower cfg s turn = (.refused, s) ∨
    (∃ thread call now, (turn = .enter thread call now ∨ turn = .wake thread call now) ∧
      flight? (s.threads thread) = none ∧ step readFloat lower cfg s turn = attempt lower cfg thread call now s) ∨
    (∃ thread call outcome, turn = .resolverEnds thread call outcome ∧ s.threads thread = .resolving call ∧
      step readFloat lower cfg s turn =
        (.ended, ⟨s.cache, Function.update s.threads thread (.resolved call outcome)⟩)) ∨
    (∃ thread call outcome now, turn = .record thread call outcome now ∧ s.threads thread = .resolved call outcome ∧
      step readFloat lower cfg s turn = record readFloat lower cfg thread call outcome now s) := by
  cases turn with
  | enter thread call now =>
    by_cases h : s.threads thread = .outside
    · exact .inr (.inl ⟨thread, call, now, .inl rfl, by simp [h, flight?], if_pos h⟩)
    · exact .inl (if_neg h)
  | wake thread call now =>
    by_cases h : s.threads thread = .waiting call true
    · exact .inr (.inl ⟨thread, call, now, .inr rfl, by simp [h, flight?], if_pos h⟩)
    · exact .inl (if_neg h)
  | resolverEnds thread call outcome =>
    by_cases h : s.threads thread = .resolving call
    · exact .inr (.inr (.inl ⟨thread, call, outcome, rfl, h, if_pos h⟩))
    · exact .inl (if_neg h)
  | record thread call outcome now =>
    by_cases h : s.threads thread = .resolved call outcome
    · exact .inr (.inr (.inr ⟨thread, call, outcome, now, rfl, h, if_pos h⟩))
    · exact .inl (if_neg h)

end Steps

/-! ## The invariant -/

section Invariant

variable {τ : Type} [LinearOrder τ] [Add τ] [NatCast τ]

/-- The representation, and one flight behind each key in flight. -/
structure CacheInvariant (lower : String → String) (cfg : SourceCacheConfig τ) (s : SourceState τ) : Prop where
  representation : Representation cfg s.cache
  inflight : ∀ {thread call}, flight? (s.threads thread) = some call → keyOf lower call ∈ s.cache.inflight
  unique : ∀ {thread thread' call call'}, flight? (s.threads thread) = some call →
    flight? (s.threads thread') = some call' → keyOf lower call = keyOf lower call' → thread = thread'

variable {readFloat : List Char → PyFloat} {lower : String → String} {cfg : SourceCacheConfig τ} {s : SourceState τ}

omit [Add τ] in
/-- A step that starts and ends no flight. -/
theorem CacheInvariant.of_flights (h : CacheInvariant lower cfg s) {c : SourceCache τ} {threads : ℕ → SourceThread}
    (hrep : Representation cfg c) (hin : c.inflight = s.cache.inflight)
    (hthreads : ∀ {t call}, flight? (threads t) = some call → flight? (s.threads t) = some call) :
    CacheInvariant lower cfg ⟨c, threads⟩ where
  representation := hrep
  inflight hf := hin ▸ h.inflight (hthreads hf)
  unique hf hf' heq := h.unique (hthreads hf) (hthreads hf') heq

omit [Add τ] in
theorem attempt_cacheInvariant (h : CacheInvariant lower cfg s) (thread : ℕ) (call : ℤ × String) (now : τ) :
    CacheInvariant lower cfg (attempt lower cfg thread call now s).2 := by
  obtain ⟨hshrunk, -⟩ := expireLocked_spec now s.cache
  have hrep := h.representation.shrunk hshrunk
  have hkeep : ∀ {phase}, flight? phase = none → ∀ {t call},
      flight? (Function.update s.threads thread phase t) = some call → flight? (s.threads t) = some call := by
    intro phase hphase t call hf
    rw [flight?_update] at hf
    split at hf
    · exact nomatch hphase.symm.trans hf
    · exact hf
  obtain ⟨entry, -, heq⟩ | ⟨failure, -, heq⟩ | ⟨-, heq⟩ | heq | ⟨hentry, hfailure, hnew, hroom, heq⟩ :=
    attempt_cases lower cfg thread call now s
  all_goals rw [heq]
  · exact h.of_flights hrep.moveEntry hshrunk.inflight (hkeep rfl)
  · exact h.of_flights hrep.moveFailure hshrunk.inflight (hkeep rfl)
  · exact h.of_flights hrep hshrunk.inflight (hkeep rfl)
  · exact h.of_flights hrep hshrunk.inflight (hkeep rfl)
  · -- the key was in flight for nobody, so the new flight is its only one
    have hfresh : ∀ {t other}, flight? (s.threads t) = some other → keyOf lower other ≠ keyOf lower call :=
      fun hf hsame => hnew (hshrunk.inflight ▸ hsame ▸ h.inflight hf)
    refine ⟨hrep.insert hentry hfailure hroom, fun {t other} hf => ?_, fun {t t' other other'} hf hf' hsame => ?_⟩
    · rw [flight?_update] at hf
      split at hf
      · obtain rfl := Option.some.inj hf
        exact Finset.mem_insert_self _ _
      · exact Finset.mem_insert_of_mem (hshrunk.inflight ▸ h.inflight hf)
    · rw [flight?_update] at hf hf'
      split at hf <;> split at hf'
      · next ht ht' => exact ht.trans ht'.symm
      · exact absurd hsame.symm (Option.some.inj hf ▸ hfresh hf')
      · exact absurd hsame (Option.some.inj hf' ▸ hfresh hf)
      · exact h.unique hf hf' hsame

/-- Whatever a landing leaves in the cache keeps the representation. -/
theorem Landing.representation {key : SourceKey} {now : τ} {c c' : SourceCache τ} {outcome : ResolverOutcome}
    {answer : TurnAnswer} (hland : Landing readFloat cfg key now c outcome answer c') (h : Representation cfg c)
    (hkey : key ∈ c.inflight) :
    Representation cfg { c' with inflight := c'.inflight.erase key } ∧ c'.inflight = c.inflight := by
  cases hland with
  | success hstore =>
    obtain rfl | ⟨c₁, entry, hshrunk, hlen, hbytes, -, -, rfl⟩ :=
      storeSuccessLocked_cases h (h.entries_inflight key hkey) hstore
    · exact ⟨h.erase, rfl⟩
    · exact ⟨(h.shrunk hshrunk).landEntry (hshrunk.inflight ▸ hkey) hlen hbytes, hshrunk.inflight⟩
  | failure error =>
    obtain heq | ⟨hshrunk, hlen⟩ := storeFailureLocked_cases cfg key error now c
    · rw [heq]
      exact ⟨h.erase, rfl⟩
    · exact ⟨h.landFailure hkey hshrunk hlen, hshrunk.inflight⟩
  | invalid => exact ⟨h.erase, rfl⟩
  | exception => exact ⟨h.erase, rfl⟩

theorem record_cacheInvariant (h : CacheInvariant lower cfg s) {thread : ℕ} {call : ℤ × String}
    {outcome : ResolverOutcome} (hthread : s.threads thread = .resolved call outcome) (now : τ) :
    CacheInvariant lower cfg (record readFloat lower cfg thread call outcome now s).2 := by
  have hflight : flight? (s.threads thread) = some call := by rw [hthread]; rfl
  obtain ⟨answer, c, hland, heq⟩ | ⟨result, -, -, heq⟩ :=
    record_cases readFloat lower cfg thread call outcome now s
  · rw [heq]
    obtain ⟨hrep, hin⟩ := hland.representation h.representation (h.inflight hflight)
    have hother : ∀ {t other}, flight? (Function.update (notifyAll s.threads) thread .outside t) = some other →
        t ≠ thread ∧ flight? (s.threads t) = some other := by
      intro t other hf
      rw [flight?_update] at hf
      split at hf
      · exact nomatch hf
      · next hne => exact ⟨hne, (flight?_notifyAll _ _).symm.trans hf⟩
    refine ⟨hrep, fun {t other} hf => ?_, fun hf hf' hsame => h.unique (hother hf).2 (hother hf').2 hsame⟩
    obtain ⟨hne, hf⟩ := hother hf
    exact Finset.mem_erase.mpr ⟨fun hsame => hne (h.unique hf hflight hsame), hin ▸ h.inflight hf⟩
  · rw [heq]
    refine h.of_flights h.representation rfl fun {t other} hf => ?_
    rw [flight?_update] at hf
    split at hf
    · exact nomatch hf
    · exact hf

theorem step_cacheInvariant (h : CacheInvariant lower cfg s) (turn : Turn τ) :
    CacheInvariant lower cfg (step readFloat lower cfg s turn).2 := by
  obtain heq | ⟨thread, call, now, -, -, heq⟩ | ⟨thread, call, outcome, -, hthread, heq⟩ |
    ⟨thread, call, outcome, now, -, hthread, heq⟩ := step_cases readFloat lower cfg s turn
  all_goals rw [heq]
  · exact h
  · exact attempt_cacheInvariant h thread call now
  · refine h.of_flights h.representation rfl fun {t other} hf => ?_
    rw [flight?_update] at hf
    split at hf
    · next ht =>
      rw [ht, hthread]
      exact hf
    · exact hf
  · exact record_cacheInvariant h hthread now

omit [Add τ] in
theorem new_cacheInvariant (lower : String → String) (cfg : SourceCacheConfig τ) :
    CacheInvariant lower cfg (new : SourceState τ) where
  representation := {
    bytes_eq := rfl
    bytes_le := Int.natCast_nonneg _
    entries_le := Nat.zero_le _
    failures_le := Nat.zero_le _
    inflight_le := Nat.zero_le _
    entries_failures := fun _ => .inl rfl
    entries_inflight := fun _ _ => rfl
    failures_inflight := fun _ _ => rfl }
  inflight hf := nomatch hf
  unique hf := nomatch hf

theorem run_cacheInvariant {evs : List (Turn τ × TurnAnswer)} (h : (machine readFloat lower cfg).Run evs s) :
    CacheInvariant lower cfg s :=
  Machine.Run.invariant (I := fun _ s => CacheInvariant lower cfg s) (new_cacheInvariant lower cfg)
    (fun _ _ turn _ hs => step_cacheInvariant hs turn) h

/-- In every reachable state the counter is the sum of the sizes and within its budget, the dictionaries and the set in
flight are within their bounds, no key is in two of them, and a success about to be stored has no entry to replace. -/
theorem sourceCache_representation (readFloat : List Char → PyFloat) (lower : String → String)
    (cfg : SourceCacheConfig τ) (turns : List (Turn τ)) :
    Representation cfg ((machine readFloat lower cfg).after turns).cache ∧
      ∀ thread call result, ((machine readFloat lower cfg).after turns).threads thread =
          .resolved call (.returned result) →
        ((machine readFloat lower cfg).after turns).cache.entries.get? (keyOf lower call) = none := by
  have h := run_cacheInvariant (Machine.run_after (machine readFloat lower cfg) turns)
  refine ⟨h.representation, fun thread call result hthread => ?_⟩
  have hflight : flight? (((machine readFloat lower cfg).after turns).threads thread) = some call := by rw [hthread]; rfl
  exact h.representation.entries_inflight _ (h.inflight hflight)

end Invariant

end Lucent.Hosted.VerifiedSourceCache
