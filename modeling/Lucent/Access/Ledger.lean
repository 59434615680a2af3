import Lucent.Access.Store

/-!
# Lucent.Access.Ledger — the store as a ledger of entries

What the store is for, without its bookkeeping: a `Ledger` is the ordered dictionary of entries alone.  Its
operations have no counters, no accounting checks and no branch for a completed entry without a response.

* `Store.ofEntries`: the store whose counters are the totals over its entries.
* `LedgerOk cfg d`: the entries are well formed and within the limits of `cfg`.
* `reserveLocked_eq`, `commit_eq`, `abort_eq`, `len_eq`, `cachedResponseBytes_eq`: on `ofEntries d` with
  `LedgerOk cfg d`, every operation of the source is the ledger operation, and the accounting checks pass.
-/


namespace Lucent.Access

open Lucent.Lib

/-! ## The ledger and its operations -/

/-- The entries of a store, in use order. -/
abbrev Ledger (τ : Type) := OrderedDict CacheKey (Entry τ)

namespace Entry

variable {τ : Type}

/-- The retained bytes of an entry. -/
def cachedBytes (e : Entry τ) : ℤ :=
  match e.response with
  | none => 0
  | some response => response.sizeBytes

/-- The bytes an entry holds in advance. -/
def reservedBytes (e : Entry τ) : ℤ := e.reservedResponseBytes

/-- The entry after its owner published `response`. -/
def completed (e : Entry τ) (response : IdempotencyResponse) (expiresAt : τ) : Entry τ :=
  { e with state := .complete, response := some response, expiresAt, reservedResponseBytes := 0 }

theorem cachedBytes_nonneg (e : Entry τ) : 0 ≤ e.cachedBytes := by
  unfold cachedBytes
  split
  · exact le_rfl
  · exact Int.natCast_nonneg _

theorem reservedBytes_nonneg (e : Entry τ) : 0 ≤ e.reservedBytes := Int.natCast_nonneg _

end Entry

namespace Ledger

variable {τ : Type}

/-- Total of the retained bytes. -/
def cached (d : Ledger τ) : ℤ := d.sum Entry.cachedBytes

/-- Total of the bytes held in advance. -/
def reserved (d : Ledger τ) : ℤ := d.sum Entry.reservedBytes

section Totals

variable {d : Ledger τ} {key : CacheKey} {entry : Entry τ}

theorem cached_eq_add_erase (h : d.get? key = some entry) :
    d.cached = entry.cachedBytes + cached (d.erase key) := OrderedDict.sum_eq_add_erase h _

theorem reserved_eq_add_erase (h : d.get? key = some entry) :
    d.reserved = entry.reservedBytes + reserved (d.erase key) := OrderedDict.sum_eq_add_erase h _

theorem cached_push (d : Ledger τ) (key : CacheKey) (entry : Entry τ) :
    cached (d.push key entry) = entry.cachedBytes + cached (d.erase key) := OrderedDict.sum_push ..

theorem reserved_push (d : Ledger τ) (key : CacheKey) (entry : Entry τ) :
    reserved (d.push key entry) = entry.reservedBytes + reserved (d.erase key) := OrderedDict.sum_push ..

theorem cached_nonneg (d : Ledger τ) : 0 ≤ d.cached := by
  refine List.sum_nonneg fun a ha => ?_
  obtain ⟨e, -, rfl⟩ := List.mem_map.mp ha
  exact e.2.cachedBytes_nonneg

theorem reserved_nonneg (d : Ledger τ) : 0 ≤ d.reserved := by
  refine List.sum_nonneg fun a ha => ?_
  obtain ⟨e, -, rfl⟩ := List.mem_map.mp ha
  exact e.2.reservedBytes_nonneg

end Totals

variable [LinearOrder τ] [Zero τ] [Add τ] [Sub τ]

/-- The entries that have not expired. -/
def live (now : τ) (d : Ledger τ) : Ledger τ := d.filter (fun _ entry => decide (now < entry.expiresAt))

/-- The first completed entry in use order. -/
def oldestCompleted (d : Ledger τ) : Option CacheKey :=
  d.findKey? (fun entry => decide (entry.state = .complete))

/-- Room for one more entry, if there is some or may be made. -/
def makeRoom (cfg : StoreConfig τ) (d : Ledger τ) : Option (Ledger τ) :=
  if d.length < cfg.maxEntries then some d
  else if cfg.evictCompletedEntries then (oldestCompleted d).map d.erase
  else none

/-- The byte budget of a new reservation. -/
def holding (cfg : StoreConfig τ) : ℕ := if cfg.evictCompletedEntries then 0 else cfg.maxResponseBytes

/-- Without eviction a reservation is admitted only with room for a response of maximal size. -/
def admits (cfg : StoreConfig τ) (d : Ledger τ) : Bool :=
  cfg.evictCompletedEntries ||
    decide (d.cached + d.reserved + cfg.maxResponseBytes ≤ cfg.maxTotalResponseBytes)

/-- The reservation handed out by `reserve`. -/
def issue (cfg : StoreConfig τ) (key : CacheKey) (fingerprint token : String) (now : τ) : Reservation τ :=
  { tenantId := key.1, expiresAt := now + cfg.reservationTtlSeconds, keyDigest := key.2, fingerprint, token }

/-- The entry behind that reservation. -/
def pending (cfg : StoreConfig τ) (fingerprint token : String) (now : τ) : Entry τ :=
  { fingerprint, token, state := .reserved, expiresAt := now + cfg.reservationTtlSeconds, response := none
    reservedResponseBytes := holding cfg }

/-- `reserve` on the entries. -/
def reserve (cfg : StoreConfig τ) (key : CacheKey) (fingerprint token : String) (now : τ) (d₀ : Ledger τ) :
    Except (StoreError τ) (Decision τ) × Ledger τ :=
  let d := live now d₀
  let full := IdempotencyStore.capacityError cfg now ⟨d, 0, 0⟩
  match d.get? key with
  | some entry =>
    if entry.fingerprint ≠ fingerprint then (.error .conflict, d)
    else match entry.response with
      | none => (.error (.inProgress (max 0 (entry.expiresAt - now))), d)
      | some response => (.ok (.replay response), d.moveToEnd key)
  | none =>
    match makeRoom cfg d with
    | none => (.error full, d)
    | some d' =>
      if admits cfg d' then
        (.ok (.reserved (issue cfg key fingerprint token now)), d'.push key (pending cfg fingerprint token now))
      else (.error full, d)

/-- Drop completed entries, oldest first, until `bytes` more bytes fit. -/
def makeResponseRoom (cfg : StoreConfig τ) (bytes : ℕ) : ℕ → Ledger τ → Ledger τ
  | 0, d => d
  | turns + 1, d =>
    if d.cached + bytes > cfg.maxTotalResponseBytes then
      match oldestCompleted d with
      | none => d
      | some key => makeResponseRoom cfg bytes turns (d.erase key)
    else d

/-- `commit` on the entries. -/
def commit (cfg : StoreConfig τ) (reservation : Reservation τ) (response : IdempotencyResponse) (now : τ)
    (d₀ : Ledger τ) : Except (StoreError τ) Unit × Ledger τ :=
  if cfg.maxResponseBytes < response.sizeBytes then (.error (.responseTooLarge cfg.maxResponseBytes), d₀)
  else
    let d := live now d₀
    let key := IdempotencyStore.cacheKey reservation
    match d.get? key with
    | none => (.error .invalidReservation, d)
    | some entry =>
      if IdempotencyStore.owns (some entry) reservation then
        let d' := if cfg.evictCompletedEntries then makeResponseRoom cfg response.sizeBytes d.length d else d
        (.ok (), d'.push key (entry.completed response (now + cfg.ttlSeconds)))
      else (.error .invalidReservation, d)

/-- `abort` on the entries. -/
def abort (reservation : Reservation τ) (now : τ) (d₀ : Ledger τ) : Bool × Ledger τ :=
  let d := live now d₀
  let key := IdempotencyStore.cacheKey reservation
  if IdempotencyStore.owns (d.get? key) reservation then (true, d.erase key) else (false, d)

/-- The outcome of a ledger operation that may raise. -/
def finish {α : Type} (done : α → StoreOutcome τ) (r : Except (StoreError τ) α × Ledger τ) :
    StoreOutcome τ × Ledger τ :=
  match r.1 with
  | .ok a => (done a, r.2)
  | .error e => (.raised e, r.2)

omit [LinearOrder τ] [Zero τ] [Add τ] [Sub τ] in
theorem finish_snd {α : Type} (done : α → StoreOutcome τ) (r : Except (StoreError τ) α × Ledger τ) :
    (finish done r).2 = r.2 := by
  obtain ⟨_ | _, _⟩ := r <;> rfl

/-- One call on the ledger. -/
def step (sha256 : Bytes → Bytes) (cfg : StoreConfig τ) (d : Ledger τ) : StoreOp τ → StoreOutcome τ × Ledger τ
  | .reserve tenantId key fingerprint token now =>
    match IdempotencyStore.checkReserve tenantId key fingerprint with
    | .error detail => (.raised (.invalidInput detail), d)
    | .ok (tenant, key, fingerprint) =>
      finish .decided (reserve cfg (tenant, sha256 (utf8 key)) fingerprint token now d)
  | .commit reservation response now => finish (fun _ => .committed) (commit cfg reservation response now d)
  | .abort reservation now => (.aborted (abort reservation now d).1, (abort reservation now d).2)
  | .len now => (.length (live now d).length, live now d)
  | .cachedResponseBytes now => (.bytes (live now d).cached, live now d)

/-! ### What an operation can do -/

variable {sha256 : Bytes → Bytes} {cfg : StoreConfig τ}

theorem step_reserve_error {tenantId fingerprint detail : String} {key : Option String}
    (h : IdempotencyStore.checkReserve tenantId key fingerprint = .error detail) (token : String) (now : τ)
    (d : Ledger τ) :
    step sha256 cfg d (.reserve tenantId key fingerprint token now) = (.raised (.invalidInput detail), d) := by
  simp [step, h]

theorem step_reserve_ok {tenantId fingerprint tenant k f : String} {key : Option String}
    (h : IdempotencyStore.checkReserve tenantId key fingerprint = .ok (tenant, k, f)) (token : String) (now : τ)
    (d : Ledger τ) : step sha256 cfg d (.reserve tenantId key fingerprint token now) =
      finish .decided (reserve cfg (tenant, sha256 (utf8 k)) f token now d) := by
  simp [step, h]

theorem step_commit (owner : Reservation τ) (response : IdempotencyResponse) (now : τ) (d : Ledger τ) :
    step sha256 cfg d (.commit owner response now) =
      finish (fun _ => .committed) (commit cfg owner response now d) := rfl

theorem step_abort (owner : Reservation τ) (now : τ) (d : Ledger τ) : step sha256 cfg d (.abort owner now) =
    (.aborted (abort owner now d).1, (abort owner now d).2) := rfl

/-- The cases of `reserve`. -/
inductive ReserveCase (cfg : StoreConfig τ) (key : CacheKey) (fingerprint token : String) (now : τ) (d : Ledger τ) :
    Except (StoreError τ) (Decision τ) × Ledger τ → Prop
  | conflict (e : Entry τ) (hk : (live now d).get? key = some e) (hf : e.fingerprint ≠ fingerprint) :
      ReserveCase cfg key fingerprint token now d (.error .conflict, live now d)
  | inProgress (e : Entry τ) (hk : (live now d).get? key = some e) (hf : e.fingerprint = fingerprint)
      (hr : e.response = none) :
      ReserveCase cfg key fingerprint token now d (.error (.inProgress (max 0 (e.expiresAt - now))), live now d)
  | replay (e : Entry τ) (r : IdempotencyResponse) (hk : (live now d).get? key = some e)
      (hf : e.fingerprint = fingerprint) (hr : e.response = some r) :
      ReserveCase cfg key fingerprint token now d (.ok (.replay r), (live now d).moveToEnd key)
  | full (hk : (live now d).get? key = none) (wait : τ) :
      ReserveCase cfg key fingerprint token now d (.error (.capacity wait), live now d)
  | issued (hk : (live now d).get? key = none) (d' : Ledger τ) (hroom : makeRoom cfg (live now d) = some d')
      (hadm : admits cfg d' = true) :
      ReserveCase cfg key fingerprint token now d
        (.ok (.reserved (issue cfg key fingerprint token now)), d'.push key (pending cfg fingerprint token now))

omit [Add τ] in
theorem capacityError_eq (cfg : StoreConfig τ) (now : τ) (s : Store τ) :
    ∃ wait, IdempotencyStore.capacityError cfg now s = .capacity wait := by
  unfold IdempotencyStore.capacityError
  split <;> exact ⟨_, rfl⟩

theorem reserve_case (cfg : StoreConfig τ) (key : CacheKey) (fingerprint token : String) (now : τ) (d : Ledger τ) :
    ReserveCase cfg key fingerprint token now d (reserve cfg key fingerprint token now d) := by
  obtain ⟨wait, hwait⟩ := capacityError_eq cfg now ⟨live now d, 0, 0⟩
  unfold reserve
  rcases hk : (live now d).get? key with _ | e
  · rcases hroom : makeRoom cfg (live now d) with _ | d'
    · simpa [hk, hroom, hwait] using .full hk wait
    · by_cases hadm : admits cfg d' = true
      · simpa [hk, hroom, hadm] using .issued hk d' hroom hadm
      · simpa [hk, hroom, hadm, hwait] using .full hk wait
  · by_cases hf : e.fingerprint = fingerprint
    · rcases hr : e.response with _ | r
      · simpa [hk, hf, hr] using .inProgress e hk hf hr
      · simpa [hk, hf, hr] using .replay e r hk hf hr
    · simpa [hk, hf] using .conflict e hk hf

/-- The cases of `commit`. -/
inductive CommitCase (cfg : StoreConfig τ) (reservation : Reservation τ) (response : IdempotencyResponse) (now : τ)
    (d : Ledger τ) : Except (StoreError τ) Unit × Ledger τ → Prop
  | tooLarge (hsize : cfg.maxResponseBytes < response.sizeBytes) :
      CommitCase cfg reservation response now d (.error (.responseTooLarge cfg.maxResponseBytes), d)
  | refused (hsize : response.sizeBytes ≤ cfg.maxResponseBytes)
      (hown : IdempotencyStore.owns ((live now d).get? (IdempotencyStore.cacheKey reservation)) reservation = false) :
      CommitCase cfg reservation response now d (.error .invalidReservation, live now d)
  | published (hsize : response.sizeBytes ≤ cfg.maxResponseBytes) (e : Entry τ)
      (hk : (live now d).get? (IdempotencyStore.cacheKey reservation) = some e)
      (hown : IdempotencyStore.owns (some e) reservation = true) :
      CommitCase cfg reservation response now d (.ok (),
        (if cfg.evictCompletedEntries then makeResponseRoom cfg response.sizeBytes (live now d).length (live now d)
          else live now d).push (IdempotencyStore.cacheKey reservation) (e.completed response (now + cfg.ttlSeconds)))

omit [Sub τ] in
theorem commit_case (cfg : StoreConfig τ) (reservation : Reservation τ) (response : IdempotencyResponse) (now : τ)
    (d : Ledger τ) : CommitCase cfg reservation response now d (commit cfg reservation response now d) := by
  unfold commit
  by_cases hsize : cfg.maxResponseBytes < response.sizeBytes
  · rw [if_pos hsize]
    exact .tooLarge hsize
  rw [if_neg hsize]
  rcases hk : (live now d).get? (IdempotencyStore.cacheKey reservation) with _ | e
  · simpa [hk] using .refused (not_lt.mp hsize) (by simp [hk, IdempotencyStore.owns])
  · by_cases hown : IdempotencyStore.owns (some e) reservation = true
    · simpa [hk, hown] using .published (not_lt.mp hsize) e hk hown
    · simpa [hk, hown] using .refused (not_lt.mp hsize) (by simpa [hk] using hown)

end Ledger

/-! ## Well-formed ledgers -/

section Ok

variable {τ : Type} [LinearOrder τ] [Zero τ]

/-- An entry is either pending without a response, holding its byte budget, or complete with a response
of admissible size, holding nothing. -/
structure EntryOk (cfg : StoreConfig τ) (e : Entry τ) : Prop where
  reserved : e.state = .reserved → e.response = none ∧ e.reservedResponseBytes = Ledger.holding cfg
  complete : e.state = .complete →
    (∃ r, e.response = some r ∧ r.sizeBytes ≤ cfg.maxResponseBytes) ∧ e.reservedResponseBytes = 0

/-- The entries are well formed and within the limits. -/
structure LedgerOk (cfg : StoreConfig τ) (d : Ledger τ) : Prop where
  entry_ok : ∀ k e, d.get? k = some e → EntryOk cfg e
  bytes_le : d.cached + d.reserved ≤ cfg.maxTotalResponseBytes
  length_le : d.length ≤ cfg.maxEntries

/-- The store whose counters are the totals over its entries. -/
def Store.ofEntries (d : Ledger τ) : Store τ := ⟨d, d.cached, d.reserved⟩

namespace Ledger

variable {cfg : StoreConfig τ} {d : Ledger τ} {key : CacheKey} {entry : Entry τ} {now : τ}

omit [Zero τ] in
theorem get?_live : (live now d).get? key = some entry ↔ d.get? key = some entry ∧ now < entry.expiresAt := by
  rw [live, OrderedDict.get?_filter_eq_some_iff, decide_eq_true_iff]

end Ledger

/-! ### What keeps a ledger well formed -/

namespace LedgerOk

variable {cfg : StoreConfig τ} {d : Ledger τ} {key : CacheKey} {entry : Entry τ} {now : τ}

theorem filter (h : LedgerOk cfg d) (p : CacheKey → Entry τ → Bool) : LedgerOk cfg (d.filter p) where
  entry_ok k e hk := h.entry_ok k e (OrderedDict.get?_filter_eq_some_iff.mp hk).1
  bytes_le := by
    have hc : (Ledger.cached (d.filter p)) ≤ d.cached := OrderedDict.sum_filter_le p d Entry.cachedBytes_nonneg
    have hr : (Ledger.reserved (d.filter p)) ≤ d.reserved :=
      OrderedDict.sum_filter_le p d Entry.reservedBytes_nonneg
    have hb := h.bytes_le
    omega
  length_le := (OrderedDict.length_filter_le p d).trans h.length_le

theorem live (h : LedgerOk cfg d) (now : τ) : LedgerOk cfg (Ledger.live now d) := h.filter _

theorem erase (h : LedgerOk cfg d) (key : CacheKey) : LedgerOk cfg (d.erase key) := h.filter _

theorem moveToEnd (h : LedgerOk cfg d) (key : CacheKey) : LedgerOk cfg (d.moveToEnd key) where
  entry_ok k e hk := h.entry_ok k e (by rwa [OrderedDict.get?_moveToEnd] at hk)
  bytes_le := by
    have hc : Ledger.cached (d.moveToEnd key) = d.cached := OrderedDict.sum_moveToEnd ..
    have hr : Ledger.reserved (d.moveToEnd key) = d.reserved := OrderedDict.sum_moveToEnd ..
    rw [hc, hr]
    exact h.bytes_le
  length_le := by rw [OrderedDict.length_moveToEnd]; exact h.length_le

/-- A well-formed entry may be written where its bytes fit and its key has room. -/
theorem push (h : LedgerOk cfg d) (he : EntryOk cfg entry)
    (hb : entry.cachedBytes + entry.reservedBytes + (Ledger.cached (d.erase key) + Ledger.reserved (d.erase key)) ≤
      cfg.maxTotalResponseBytes)
    (hl : (d.erase key).length < cfg.maxEntries) : LedgerOk cfg (d.push key entry) where
  entry_ok k e hk := by
    by_cases hkey : k = key
    · subst hkey
      rw [OrderedDict.get?_push_self, Option.some.injEq] at hk
      exact hk ▸ he
    · rw [OrderedDict.get?_push_of_ne hkey] at hk
      exact h.entry_ok k e hk
  bytes_le := by
    rw [Ledger.cached_push, Ledger.reserved_push]
    omega
  length_le := by rw [OrderedDict.length_push]; omega

theorem empty : LedgerOk cfg (OrderedDict.empty : Ledger τ) where
  entry_ok k e hk := by cases hk
  bytes_le := by
    show (0 : ℤ) + 0 ≤ _
    omega
  length_le := Nat.zero_le _

end LedgerOk

/-! ## The operations of the source on a well-formed ledger -/

namespace IdempotencyStore

open Store

variable {cfg : StoreConfig τ} {d : Ledger τ} {key : CacheKey} {entry : Entry τ} {now : τ}

omit [LinearOrder τ] [Zero τ] in
@[simp] theorem entries_ofEntries (d : Ledger τ) : (ofEntries d).entries = d := rfl

omit [LinearOrder τ] [Zero τ] in
theorem get_eq (s : Store τ) : (get : StoreM τ (Store τ)) s = .ok s s := rfl

omit [LinearOrder τ] [Zero τ] in
/-- `_remove` of a present key passes both accounting checks. -/
theorem remove_eq (h : d.get? key = some entry) : remove key (ofEntries d) = .ok () (ofEntries (d.erase key)) := by
  have hc := Ledger.cached_eq_add_erase h
  have hr := Ledger.reserved_eq_add_erase h
  have hc0 := Ledger.cached_nonneg (d.erase key)
  have hr0 := Ledger.reserved_nonneg (d.erase key)
  have hres : d.reserved - (entry.reservedResponseBytes : ℤ) = Ledger.reserved (d.erase key) := by
    rw [Entry.reservedBytes] at hr
    omega
  unfold remove ofEntries
  simp only [h]
  rw [hres, if_neg (not_lt.mpr hr0)]
  cases hresp : entry.response with
  | none =>
    have : d.cached = Ledger.cached (d.erase key) := by simpa only [Entry.cachedBytes, hresp, zero_add] using hc
    rw [this]
  | some response =>
    have : d.cached - (response.sizeBytes : ℤ) = Ledger.cached (d.erase key) := by
      simp only [Entry.cachedBytes, hresp] at hc
      omega
    simp only [this, if_neg (not_lt.mpr hc0)]

omit [LinearOrder τ] [Zero τ] in
/-- Removing a list of present keys, one after the other. -/
theorem forM_remove_eq (keys : List CacheKey) (hnd : keys.Nodup) (d : Ledger τ)
    (h : ∀ k ∈ keys, ∃ e, d.get? k = some e) :
    keys.forM remove (ofEntries d) = .ok () (ofEntries (d.filter (fun k _ => !keys.contains k))) := by
  induction keys generalizing d with
  | nil =>
    have : d.filter (fun k _ => !([] : List CacheKey).contains k) = d :=
      OrderedDict.ext (List.filter_eq_self.mpr fun _ _ => rfl)
    rw [this]
    rfl
  | cons key keys ih =>
    rw [List.nodup_cons] at hnd
    obtain ⟨e, he⟩ := h key List.mem_cons_self
    have hrest : ∀ k ∈ keys, ∃ e, (d.erase key).get? k = some e := by
      intro k hk
      have hne : k ≠ key := fun hkk => hnd.1 (hkk ▸ hk)
      rw [OrderedDict.get?_erase_of_ne hne]
      exact h k (List.mem_cons_of_mem _ hk)
    have hfilter : (d.erase key).filter (fun k _ => !keys.contains k) =
        d.filter (fun k _ => !(key :: keys).contains k) := by
      refine OrderedDict.ext ?_
      simp only [OrderedDict.entries_filter, OrderedDict.entries_erase, List.filter_filter]
      refine List.filter_congr fun e _ => ?_
      by_cases hk : e.1 = key <;> simp [hk]
    have hstep : (key :: keys).forM remove (ofEntries d) = keys.forM remove (ofEntries (d.erase key)) := by
      show EStateM.bind (remove key) (fun _ => keys.forM remove) (ofEntries d) = _
      simp only [EStateM.bind, remove_eq he]
    rw [hstep, ih hnd.2 _ hrest, hfilter]

omit [Zero τ] in
/-- `_expire` leaves the entries that have not expired. -/
theorem expire_eq (now : τ) (d : Ledger τ) : expire now (ofEntries d) = .ok () (ofEntries (Ledger.live now d)) := by
  unfold expire
  set expired := d.filter (fun _ e => decide (e.expiresAt ≤ now)) with hexp
  have hget : ∀ k ∈ expired.keys, ∃ e, d.get? k = some e ∧ e.expiresAt ≤ now := by
    intro k hk
    obtain ⟨⟨k', e⟩, he, rfl⟩ := List.mem_map.mp hk
    have := OrderedDict.get?_eq_some_iff.mpr he
    rw [hexp, OrderedDict.get?_filter_eq_some_iff, decide_eq_true_iff] at this
    exact ⟨e, this⟩
  show expired.keys.forM remove (ofEntries d) = _
  rw [forM_remove_eq expired.keys expired.keys_nodup d (fun k hk => (hget k hk).imp fun e he => he.1)]
  refine congrArg (fun d' => EStateM.Result.ok () (ofEntries d')) (OrderedDict.ext ?_)
  refine List.filter_congr fun e he => ?_
  have hmem : d.get? e.1 = some e.2 := OrderedDict.get?_eq_some_iff.mpr he
  rw [Bool.eq_iff_iff, Bool.not_eq_true', decide_eq_true_iff, ← not_le, ← Bool.not_eq_true, not_iff_not,
    List.contains_iff_mem]
  constructor
  · intro hk
    obtain ⟨e', he', hle⟩ := hget _ hk
    rw [hmem, Option.some.injEq] at he'
    exact he' ▸ hle
  · intro hle
    exact List.mem_map.mpr ⟨e, List.mem_filter.mpr ⟨he, by simpa using hle⟩, rfl⟩

/-- The result of a ledger operation, with the state as a store. -/
def ofLedger {α : Type} : Except (StoreError τ) α × Ledger τ → EStateM.Result (StoreError τ) (Store τ) α
  | (.ok a, d) => .ok a (ofEntries d)
  | (.error e, d) => .error e (ofEntries d)

/-- `_make_room` is the ledger's, and a full store is unchanged. -/
theorem makeRoom_eq [Sub τ] (cfg : StoreConfig τ) (now : τ) (d : Ledger τ) :
    makeRoom cfg now (ofEntries d) = match Ledger.makeRoom cfg d with
      | some d' => .ok () (ofEntries d')
      | none => .error (capacityError cfg now (ofEntries d)) (ofEntries d) := by
  unfold makeRoom Ledger.makeRoom
  by_cases hl : d.length < cfg.maxEntries
  · rw [if_pos hl]
    show (if d.length < cfg.maxEntries then _ else _) = _
    rw [if_pos hl]
  · rw [if_neg hl]
    show (if d.length < cfg.maxEntries then _ else _) = _
    rw [if_neg hl]
    cases cfg.evictCompletedEntries with
    | false => rfl
    | true =>
      cases ho : Ledger.oldestCompleted d with
      | none =>
        have ho' : oldestCompletedKey (ofEntries d) = none := ho
        simp [ho']
      | some k =>
        have ho' : oldestCompletedKey (ofEntries d) = some k := ho
        obtain ⟨e, he, -⟩ := OrderedDict.findKey?_eq_some ho
        simp [ho', remove_eq he]

/-- Making room keeps the ledger well formed, makes a place, and without eviction changes nothing. -/
theorem makeRoom_ok (hd : LedgerOk cfg d) {d' : Ledger τ} (h : Ledger.makeRoom cfg d = some d') :
    LedgerOk cfg d' ∧ d'.length < cfg.maxEntries ∧ (cfg.evictCompletedEntries = false → d' = d) ∧
      (d' = d ∨ ∃ k e, d.get? k = some e ∧ e.state = .complete ∧ d' = d.erase k) := by
  unfold Ledger.makeRoom at h
  split_ifs at h with hl hev
  · cases h
    exact ⟨hd, hl, fun _ => rfl, Or.inl rfl⟩
  · obtain ⟨k, ho, rfl⟩ := Option.map_eq_some_iff.mp h
    obtain ⟨e, he, hc⟩ := OrderedDict.findKey?_eq_some ho
    have hlen := OrderedDict.length_erase he
    have hle := hd.length_le
    exact ⟨hd.erase k, by omega, fun hf => absurd hev (by simp [hf]), Or.inr ⟨k, e, he, by simpa using hc, rfl⟩⟩

theorem makeRoom_get?_none (hd : LedgerOk cfg d) {d' : Ledger τ} (h : Ledger.makeRoom cfg d = some d')
    (hk : d.get? key = none) : d'.get? key = none := by
  obtain ⟨-, -, -, rfl | ⟨k, e, he, -, rfl⟩⟩ := makeRoom_ok hd h
  · exact hk
  · have hne : key ≠ k := by rintro rfl; rw [hk] at he; cases he
    rw [OrderedDict.get?_erase_of_ne hne, hk]

omit [LinearOrder τ] [Zero τ] in
theorem ofEntries_moveToEnd (d : Ledger τ) (key : CacheKey) :
    ofEntries (d.moveToEnd key) = { ofEntries d with entries := d.moveToEnd key } := by
  have hc : Ledger.cached (d.moveToEnd key) = d.cached := OrderedDict.sum_moveToEnd ..
  have hr : Ledger.reserved (d.moveToEnd key) = d.reserved := OrderedDict.sum_moveToEnd ..
  unfold ofEntries
  rw [hc, hr]

theorem ofEntries_push_pending [Add τ] (cfg : StoreConfig τ) (hk : d.get? key = none) (fingerprint token : String)
    (now : τ) :
    ofEntries (d.push key (Ledger.pending cfg fingerprint token now)) =
      { ofEntries d with
        entries := d.set key (Ledger.pending cfg fingerprint token now)
        reservedResponseBytes := d.reserved + (Ledger.holding cfg : ℕ) } := by
  have hc : Ledger.cached (d.push key (Ledger.pending cfg fingerprint token now)) = d.cached := by
    rw [Ledger.cached_push, OrderedDict.erase_of_get?_none hk]
    exact zero_add _
  have hr : Ledger.reserved (d.push key (Ledger.pending cfg fingerprint token now)) =
      d.reserved + (Ledger.holding cfg : ℕ) := by
    rw [Ledger.reserved_push, OrderedDict.erase_of_get?_none hk, add_comm]
    rfl
  unfold ofEntries
  rw [hc, hr, OrderedDict.set_eq_push hk]

/-- The insertion of a new reservation is the ledger's. -/
theorem reserveNew_eq [Add τ] [Sub τ] (hd : LedgerOk cfg d) (hk : d.get? key = none) (fingerprint token : String)
    (now : τ) :
    reserveNew cfg key fingerprint token now (ofEntries d) = ofLedger (match Ledger.makeRoom cfg d with
      | none => (.error (capacityError cfg now ⟨d, 0, 0⟩), d)
      | some d' =>
        if Ledger.admits cfg d' then
          (.ok (.reserved (Ledger.issue cfg key fingerprint token now)),
            d'.push key (Ledger.pending cfg fingerprint token now))
        else (.error (capacityError cfg now ⟨d, 0, 0⟩), d)) := by
  unfold reserveNew
  simp only [bind, EStateM.bind, makeRoom_eq]
  cases hroom : Ledger.makeRoom cfg d with
  | none => rfl
  | some d' =>
    obtain ⟨-, -, hsame, -⟩ := makeRoom_ok hd hroom
    have hk' := makeRoom_get?_none hd hroom hk
    have hpush := ofEntries_push_pending cfg hk' fingerprint token now
    simp only [get_eq]
    cases hev : cfg.evictCompletedEntries with
    | true =>
      have hadm : Ledger.admits cfg d' = true := by simp [Ledger.admits, hev]
      simp only [hadm, if_true, ofLedger, hpush]
      simp [Ledger.pending, Ledger.issue, Ledger.holding, hev, ofEntries]
      rfl
    | false =>
      obtain rfl := hsame hev
      by_cases hb : d'.cached + d'.reserved + (cfg.maxResponseBytes : ℤ) ≤ cfg.maxTotalResponseBytes
      · have hadm : Ledger.admits cfg d' = true := by simp [Ledger.admits, hb]
        simp only [hadm, if_true, ofLedger, hpush]
        simp [Ledger.pending, Ledger.issue, Ledger.holding, hev, ofEntries, not_lt.mpr hb]
        rfl
      · have hadm : Ledger.admits cfg d' = false := by simp [Ledger.admits, hev, hb]
        simp [hadm, ofLedger, ofEntries, lt_of_not_ge hb]
        rfl

/-- `reserve` under the lock is the ledger's. -/
theorem reserveLocked_eq [Add τ] [Sub τ] (hd : LedgerOk cfg d) (key : CacheKey) (fingerprint token : String) (now : τ) :
    reserveLocked cfg key fingerprint token now (ofEntries d) =
      ofLedger (Ledger.reserve cfg key fingerprint token now d) := by
  have hlive := hd.live now
  unfold reserveLocked Ledger.reserve
  simp only [bind, EStateM.bind, expire_eq, get_eq, entries_ofEntries]
  cases hk : (Ledger.live now d).get? key with
  | none => exact reserveNew_eq hlive hk fingerprint token now
  | some e =>
    have he := hlive.entry_ok key e hk
    by_cases hf : e.fingerprint = fingerprint
    · cases hs : e.state with
      | reserved => simp [hf, hs, (he.reserved hs).1]; rfl
      | complete =>
        obtain ⟨⟨r, hr, -⟩, -⟩ := he.complete hs
        simp [hf, hs, hr, ofLedger, ofEntries_moveToEnd]; rfl
    · simp [hf]; rfl

/-- Without a completed entry nothing is retained. -/
theorem cached_eq_zero (hd : LedgerOk cfg d) (ho : Ledger.oldestCompleted d = none) : d.cached = 0 := by
  refine List.sum_eq_zero fun a ha => ?_
  obtain ⟨⟨k, e⟩, he, rfl⟩ := List.mem_map.mp ha
  have hget := OrderedDict.get?_eq_some_iff.mpr he
  have hst := OrderedDict.findKey?_eq_none ho hget
  cases hs : e.state with
  | reserved => simp [Entry.cachedBytes, ((hd.entry_ok k e hget).reserved hs).1]
  | complete => simp [hs] at hst

/-- With eviction no bytes are held in advance. -/
theorem reserved_eq_zero (hd : LedgerOk cfg d) (hev : cfg.evictCompletedEntries = true) : d.reserved = 0 := by
  refine List.sum_eq_zero fun a ha => ?_
  obtain ⟨⟨k, e⟩, he, rfl⟩ := List.mem_map.mp ha
  have hok := hd.entry_ok k e (OrderedDict.get?_eq_some_iff.mpr he)
  cases hs : e.state with
  | reserved => simp [Entry.reservedBytes, (hok.reserved hs).2, Ledger.holding, hev]
  | complete => simp [Entry.reservedBytes, (hok.complete hs).2]

omit [LinearOrder τ] [Zero τ] in
theorem cached_eq_zero_of_length (h : d.length = 0) : d.cached = 0 := by
  unfold Ledger.cached OrderedDict.sum
  rw [List.length_eq_zero_iff.mp h]
  rfl

/-- What the eviction loop does: it keeps the ledger well formed, removes completed entries only, and ends
with room for the response. -/
theorem makeResponseRoom_ok {bytes : ℕ} (hb : bytes ≤ cfg.maxTotalResponseBytes) :
    ∀ (turns : ℕ) (d : Ledger τ), LedgerOk cfg d → d.length ≤ turns →
      LedgerOk cfg (Ledger.makeResponseRoom cfg bytes turns d) ∧
      Ledger.cached (Ledger.makeResponseRoom cfg bytes turns d) + bytes ≤ cfg.maxTotalResponseBytes ∧
      (∀ k e, (Ledger.makeResponseRoom cfg bytes turns d).get? k = some e → d.get? k = some e) ∧
      (∀ k e, d.get? k = some e → e.state = .reserved →
        (Ledger.makeResponseRoom cfg bytes turns d).get? k = some e)
  | 0, d, hd, hl => by
    have h0 := cached_eq_zero_of_length (Nat.le_zero.mp hl)
    refine ⟨hd, ?_, fun k e h => h, fun k e h _ => h⟩
    show d.cached + (bytes : ℤ) ≤ _
    omega
  | turns + 1, d, hd, hl => by
    unfold Ledger.makeResponseRoom
    split_ifs with hover
    · cases ho : Ledger.oldestCompleted d with
      | none =>
        have h0 := cached_eq_zero hd ho
        omega
      | some key =>
        obtain ⟨e, he, hc⟩ := OrderedDict.findKey?_eq_some ho
        have hlen := OrderedDict.length_erase he
        obtain ⟨h1, h2, h3, h4⟩ := makeResponseRoom_ok hb turns (d.erase key) (hd.erase key) (by omega)
        refine ⟨h1, h2, fun k e' h => ?_, fun k e' h hs => h4 k e' ?_ hs⟩
        · have hk := h3 k e' h
          by_cases hkk : k = key
          · subst hkk; rw [OrderedDict.get?_erase_self] at hk; cases hk
          · rwa [OrderedDict.get?_erase_of_ne hkk] at hk
        · have hkk : k ≠ key := by
            rintro rfl
            rw [he, Option.some.injEq] at h
            subst h
            simp [hs] at hc
          rwa [OrderedDict.get?_erase_of_ne hkk]
    · exact ⟨hd, by omega, fun k e h => h, fun k e h _ => h⟩

/-- `_make_response_room` never runs out of completed entries. -/
theorem makeResponseRoomLoop_eq [Sub τ] {bytes : ℕ} (hb : bytes ≤ cfg.maxTotalResponseBytes)
    (hev : cfg.evictCompletedEntries = true) (now : τ) :
    ∀ (turns : ℕ) (d : Ledger τ), LedgerOk cfg d → d.length ≤ turns →
      makeResponseRoomLoop cfg bytes now turns (ofEntries d) =
        .ok () (ofEntries (Ledger.makeResponseRoom cfg bytes turns d))
  | 0, d, _, hl => by
    have h0 := cached_eq_zero_of_length (Nat.le_zero.mp hl)
    have hover : ¬ (ofEntries d).cachedResponseBytes + (bytes : ℤ) > cfg.maxTotalResponseBytes := by
      show ¬ d.cached + (bytes : ℤ) > _
      omega
    simp only [makeResponseRoomLoop, if_neg hover, Ledger.makeResponseRoom]
  | turns + 1, d, hd, hl => by
    unfold makeResponseRoomLoop Ledger.makeResponseRoom
    by_cases hover : d.cached + (bytes : ℤ) > cfg.maxTotalResponseBytes
    · have hover' : (ofEntries d).cachedResponseBytes + (bytes : ℤ) > cfg.maxTotalResponseBytes := hover
      rw [if_pos hover, if_pos hover']
      cases ho : Ledger.oldestCompleted d with
      | none =>
        have h0 := cached_eq_zero hd ho
        omega
      | some key =>
        obtain ⟨e, he, -⟩ := OrderedDict.findKey?_eq_some ho
        have hlen := OrderedDict.length_erase he
        have ho' : oldestCompletedKey (ofEntries d) = some key := ho
        simp only [hev, ho', Bool.not_true, Bool.false_eq_true, if_false, bind, EStateM.bind, remove_eq he]
        exact makeResponseRoomLoop_eq hb hev now turns (d.erase key) (hd.erase key) (by omega)
    · have hover' : ¬ (ofEntries d).cachedResponseBytes + (bytes : ℤ) > cfg.maxTotalResponseBytes := hover
      rw [if_neg hover, if_neg hover']

omit [LinearOrder τ] [Zero τ] in
theorem owns_some_iff {reservation : Reservation τ} :
    owns (some entry) reservation = true ↔ entry.state = .reserved ∧ entry.token = reservation.token ∧
      entry.fingerprint = reservation.fingerprint := by
  simp [owns, and_assoc]

omit [LinearOrder τ] [Zero τ] in
/-- Publishing a response over a pending entry, in the store's terms. -/
theorem ofEntries_push_completed (hk : d.get? key = some entry) (hr : entry.response = none)
    (response : IdempotencyResponse) (expiresAt : τ) :
    ofEntries (d.push key (entry.completed response expiresAt)) =
      { entries := (d.set key (entry.completed response expiresAt)).moveToEnd key
        cachedResponseBytes := d.cached + response.sizeBytes
        reservedResponseBytes := d.reserved - entry.reservedResponseBytes } := by
  have hc := Ledger.cached_eq_add_erase hk
  have hres := Ledger.reserved_eq_add_erase hk
  have hc' := Ledger.cached_push d key (entry.completed response expiresAt)
  have hres' := Ledger.reserved_push d key (entry.completed response expiresAt)
  simp only [Entry.cachedBytes, Entry.reservedBytes, Entry.completed, hr] at hc hres hc' hres'
  unfold ofEntries
  rw [OrderedDict.moveToEnd_set]
  simp only [Store.mk.injEq, true_and, Entry.completed]
  omega

/-- The owner finds the space for its response. -/
theorem publish_eq [Add τ] [Sub τ] (hd : LedgerOk cfg d) (hk : d.get? key = some entry) (hs : entry.state = .reserved)
    {response : IdempotencyResponse} (hsize : response.sizeBytes ≤ cfg.maxResponseBytes) (now : τ) :
    publish cfg key entry response now (ofEntries d) = .ok () (ofEntries
      ((if cfg.evictCompletedEntries then Ledger.makeResponseRoom cfg response.sizeBytes d.length d else d).push key
        (entry.completed response (now + cfg.ttlSeconds)))) := by
  obtain ⟨hresp, hres⟩ := (hd.entry_ok _ _ hk).reserved hs
  have htotal := hsize.trans cfg.response_le_total
  unfold publish
  cases hev : cfg.evictCompletedEntries with
  | true =>
    obtain ⟨-, -, -, hkeep⟩ := makeResponseRoom_ok htotal d.length d hd le_rfl
    have hloop := makeResponseRoomLoop_eq htotal hev now d.length d hd le_rfl
    have hpub := ofEntries_push_completed (hkeep key entry hk hs) hresp response (now + cfg.ttlSeconds)
    have hzero : entry.reservedResponseBytes = 0 := by rw [hres, Ledger.holding, if_pos hev]
    have hroom : makeResponseRoom cfg response.sizeBytes now (ofEntries d) =
        .ok () (ofEntries (Ledger.makeResponseRoom cfg response.sizeBytes d.length d)) := hloop
    simp only [if_true, bind, EStateM.bind, hroom, get_eq]
    rw [hpub]
    simp [Entry.completed, hzero, ofEntries]
    rfl
  | false =>
    have hpub := ofEntries_push_completed hk hresp response (now + cfg.ttlSeconds)
    have hhold : entry.reservedResponseBytes = cfg.maxResponseBytes := by simp [hres, Ledger.holding, hev]
    have hfits : ¬ (ofEntries d).cachedResponseBytes + (ofEntries d).reservedResponseBytes
        - entry.reservedResponseBytes + response.sizeBytes > cfg.maxTotalResponseBytes := by
      have hb := hd.bytes_le
      show ¬ d.cached + d.reserved - _ + _ > _
      omega
    simp only [Bool.false_eq_true, if_false, bind, EStateM.bind, get_eq,
      if_neg hfits]
    rw [hpub]
    rfl

/-- `commit` is the ledger's; in particular the owner is never refused space. -/
theorem commit_eq [Add τ] [Sub τ] (hd : LedgerOk cfg d) (reservation : Reservation τ) (response : IdempotencyResponse)
    (now : τ) :
    commit cfg reservation response now (ofEntries d) =
      ofLedger (Ledger.commit cfg reservation response now d) := by
  have hlive := hd.live now
  unfold commit Ledger.commit
  by_cases hsize : cfg.maxResponseBytes < response.sizeBytes
  · simp [hsize]; rfl
  simp only [gt_iff_lt, hsize, if_false, bind, EStateM.bind, expire_eq, get_eq]
  rcases Option.eq_none_or_eq_some ((Ledger.live now d).get? (cacheKey reservation)) with hk | ⟨e, hk⟩
  · simp [hk, owns]; rfl
  · by_cases hown : owns (some e) reservation = true
    · have hpub := publish_eq hlive hk (owns_some_iff.mp hown).1 (not_lt.mp hsize) now
      have htest : ¬ (!owns ((ofEntries (Ledger.live now d)).entries.get? (cacheKey reservation)) reservation) = true := by
        simp [hk, hown]
      rw [if_neg htest]
      simp only [entries_ofEntries, hk, hown, if_true]
      exact hpub
    · simp [hk, hown]; rfl

omit [Zero τ] in
/-- `abort` is the ledger's. -/
theorem abort_eq (reservation : Reservation τ) (now : τ) (d : Ledger τ) :
    abort reservation now (ofEntries d) =
      .ok (Ledger.abort reservation now d).1 (ofEntries (Ledger.abort reservation now d).2) := by
  unfold abort Ledger.abort
  simp only [bind, EStateM.bind, expire_eq, get_eq]
  by_cases hown : owns ((Ledger.live now d).get? (cacheKey reservation)) reservation = true
  · rcases Option.eq_none_or_eq_some ((Ledger.live now d).get? (cacheKey reservation)) with hk | ⟨e, hk⟩
    · simp [hk, owns] at hown
    · have htest : ¬ (!owns ((ofEntries (Ledger.live now d)).entries.get? (cacheKey reservation)) reservation) = true := by
        simp [hown]
      rw [if_neg htest, if_pos hown]
      simp only [EStateM.bind, remove_eq hk]
      rfl
  · have htest : (!owns ((ofEntries (Ledger.live now d)).entries.get? (cacheKey reservation)) reservation) = true := by
      simp [hown]
    rw [if_pos htest, if_neg hown]
    rfl

omit [Zero τ] in
theorem len_eq (now : τ) (d : Ledger τ) :
    len now (ofEntries d) = .ok (Ledger.live now d).length (ofEntries (Ledger.live now d)) := by
  unfold len
  simp only [bind, EStateM.bind, expire_eq, get_eq]
  rfl

omit [Zero τ] in
theorem cachedResponseBytes_eq (now : τ) (d : Ledger τ) :
    cachedResponseBytes now (ofEntries d) =
      .ok (Ledger.live now d).cached (ofEntries (Ledger.live now d)) := by
  unfold cachedResponseBytes
  simp only [bind, EStateM.bind, expire_eq, get_eq]
  rfl

end IdempotencyStore

end Ok

end Lucent.Access
