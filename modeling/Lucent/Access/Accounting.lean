import Lucent.Access.Ledger

/-!
# Lucent.Access.Accounting — the byte and entry accounting of the store

`LedgerOk` is kept by every ledger operation (`LedgerOk.step`).  `StoreInv cfg s` says that `s` is `ofEntries` of
a well-formed ledger; under it a call of the store is the call of the ledger (`StoreInv.step_eq`), so every run of
the store is a run of the ledger (`run_ledger`).  From it:

* the counters are the totals over the entries, and the limits hold (`StoreInv.accounted`);
* the accounting checks, the completed entry without a response and the capacity errors inside `commit` are
  unreachable, and the live owner of a reservation always publishes (`idempotencyStore_accounting`).
-/


namespace Lucent.Access

open Lucent.Lib

variable {τ : Type} [LinearOrder τ] [Zero τ] [Add τ] [Sub τ]

/-! ## Every operation keeps a ledger well formed -/

namespace LedgerOk

variable {cfg : StoreConfig τ} {d : Ledger τ} {now : τ}

omit [Sub τ] in
theorem pending (cfg : StoreConfig τ) (fingerprint token : String) (now : τ) :
    EntryOk cfg (Ledger.pending cfg fingerprint token now) :=
  ⟨fun _ => ⟨rfl, rfl⟩, fun h => by cases h⟩

theorem reserve (h : LedgerOk cfg d) (key : CacheKey) (fingerprint token : String) (now : τ) :
    LedgerOk cfg (Ledger.reserve cfg key fingerprint token now d).2 := by
  have hlive := h.live now
  unfold Ledger.reserve
  cases hk : (Ledger.live now d).get? key with
  | some e =>
    by_cases hf : e.fingerprint = fingerprint
    · cases hr : e.response with
      | none => simpa [hk, hf, hr] using hlive
      | some r => simpa [hk, hf, hr] using hlive.moveToEnd key
    · simpa [hk, hf] using hlive
  | none =>
    cases hroom : Ledger.makeRoom cfg (Ledger.live now d) with
    | none => simpa [hk, hroom] using hlive
    | some d' =>
      obtain ⟨hd', hlen, -, -⟩ := IdempotencyStore.makeRoom_ok hlive hroom
      have hk' := IdempotencyStore.makeRoom_get?_none hlive hroom hk
      by_cases hadm : Ledger.admits cfg d' = true
      · have hb := hd'.bytes_le
        have hpush : LedgerOk cfg (d'.push key (Ledger.pending cfg fingerprint token now)) := by
          refine hd'.push (pending ..) ?_ ?_
          · rw [OrderedDict.erase_of_get?_none hk']
            show (0 : ℤ) + (Ledger.holding cfg : ℕ) + (d'.cached + d'.reserved) ≤ _
            cases hev : cfg.evictCompletedEntries with
            | true =>
              rw [Ledger.holding, if_pos hev]
              omega
            | false =>
              simp only [Ledger.admits, hev, Bool.false_or, decide_eq_true_eq] at hadm
              rw [Ledger.holding, hev, if_neg Bool.false_ne_true]
              omega
          · rwa [OrderedDict.erase_of_get?_none hk']
        simpa [hk, hroom, hadm] using hpush
      · simpa [hk, hroom, hadm] using hlive

omit [Sub τ] in
theorem commit (h : LedgerOk cfg d) (reservation : Reservation τ) (response : IdempotencyResponse) (now : τ) :
    LedgerOk cfg (Ledger.commit cfg reservation response now d).2 := by
  have hlive := h.live now
  unfold Ledger.commit
  by_cases hsize : cfg.maxResponseBytes < response.sizeBytes
  · simpa [hsize] using h
  rw [if_neg hsize]
  cases hk : (Ledger.live now d).get? (IdempotencyStore.cacheKey reservation) with
  | none => simpa [hk] using hlive
  | some e =>
    by_cases hown : IdempotencyStore.owns (some e) reservation = true
    · have hs := (IdempotencyStore.owns_some_iff.mp hown).1
      have hsize' : response.sizeBytes ≤ cfg.maxResponseBytes := not_lt.mp hsize
      have hdone : EntryOk cfg (e.completed response (now + cfg.ttlSeconds)) :=
        ⟨fun h => (by cases h), fun _ => ⟨⟨response, rfl, hsize'⟩, rfl⟩⟩
      simp only [hk, hown, if_true]
      cases hev : cfg.evictCompletedEntries with
      | true =>
        obtain ⟨h1, h2, h3, h4⟩ := IdempotencyStore.makeResponseRoom_ok (hsize'.trans cfg.response_le_total)
          (Ledger.live now d).length _ hlive le_rfl
        have hk' := h4 _ e hk hs
        have hlen := OrderedDict.length_erase hk'
        have hle := h1.length_le
        refine h1.push hdone ?_ (by omega)
        have hc := Ledger.cached_eq_add_erase hk'
        have hr := Ledger.reserved_eq_add_erase hk'
        have hz := IdempotencyStore.reserved_eq_zero h1 hev
        have hc0 := e.cachedBytes_nonneg
        have hr0 := e.reservedBytes_nonneg
        simp only [Entry.completed, Entry.cachedBytes, Entry.reservedBytes] at hc hr hc0 hr0 ⊢
        omega
      | false =>
        have hlen := OrderedDict.length_erase hk
        have hle := hlive.length_le
        have hb := hlive.bytes_le
        have hc := Ledger.cached_eq_add_erase hk
        have hr := Ledger.reserved_eq_add_erase hk
        have hhold := ((hlive.entry_ok _ e hk).reserved hs).2
        have hc0 := e.cachedBytes_nonneg
        rw [Ledger.holding, hev, if_neg Bool.false_ne_true] at hhold
        refine hlive.push hdone ?_ (by omega)
        simp only [Entry.completed, Entry.cachedBytes, Entry.reservedBytes] at hc hr hc0 ⊢
        omega
    · simpa [hk, hown] using hlive

omit [Add τ] [Sub τ] in
theorem abort (h : LedgerOk cfg d) (reservation : Reservation τ) (now : τ) :
    LedgerOk cfg (Ledger.abort reservation now d).2 := by
  unfold Ledger.abort
  by_cases hown : IdempotencyStore.owns
      ((Ledger.live now d).get? (IdempotencyStore.cacheKey reservation)) reservation = true
  · simpa [hown] using (h.live now).erase _
  · simpa [hown] using h.live now

omit [Add τ] [Sub τ] in
theorem finish {α : Type} (done : α → StoreOutcome τ) {r : Except (StoreError τ) α × Ledger τ}
    (h : LedgerOk cfg r.2) : LedgerOk cfg (Ledger.finish done r).2 := by
  obtain ⟨_ | _, d⟩ := r <;> exact h

/-- **Step lemma**: every call keeps the ledger well formed. -/
theorem step (h : LedgerOk cfg d) (sha256 : Bytes → Bytes) (op : StoreOp τ) :
    LedgerOk cfg (Ledger.step sha256 cfg d op).2 := by
  rcases op with ⟨tenantId, key, fingerprint, token, now⟩ | ⟨reservation, response, now⟩ | ⟨reservation, now⟩ |
    ⟨now⟩ | ⟨now⟩
  · rcases hcheck : IdempotencyStore.checkReserve tenantId key fingerprint with detail | ⟨tenant, k, f⟩
    · rw [Ledger.step_reserve_error hcheck]
      exact h
    · rw [Ledger.step_reserve_ok hcheck]
      exact (h.reserve (tenant, sha256 (utf8 k)) f token now).finish .decided
  · exact (h.commit reservation response now).finish _
  · exact h.abort reservation now
  · exact h.live now
  · exact h.live now

end LedgerOk

/-! ## The invariant of the store -/

/-- The ledger under any sequence of calls. -/
def Ledger.machine (sha256 : Bytes → Bytes) (cfg : StoreConfig τ) : Machine (Ledger τ) (StoreOp τ) (StoreOutcome τ) :=
  ⟨OrderedDict.empty, Ledger.step sha256 cfg⟩

/-- The counters are the totals over a well-formed ledger. -/
def StoreInv (cfg : StoreConfig τ) (s : Store τ) : Prop := LedgerOk cfg s.entries ∧ s = Store.ofEntries s.entries

namespace StoreInv

variable {cfg : StoreConfig τ} {s : Store τ} {sha256 : Bytes → Bytes}

omit [Add τ] [Sub τ] in
theorem of_ledger {d : Ledger τ} (h : LedgerOk cfg d) : StoreInv cfg (Store.ofEntries d) := ⟨h, rfl⟩

omit [Add τ] [Sub τ] in
theorem new : StoreInv cfg (IdempotencyStore.new : Store τ) := of_ledger LedgerOk.empty

omit [LinearOrder τ] [Zero τ] [Add τ] [Sub τ] in
/-- A call that is the ledger's call has the ledger's outcome and leaves the ledger's entries. -/
theorem finish_eq {α : Type} (done : α → StoreOutcome τ) {call : StoreM τ α}
    {r : Except (StoreError τ) α × Ledger τ} (h : call s = IdempotencyStore.ofLedger r) :
    IdempotencyStore.finish done call s = ((Ledger.finish done r).1, Store.ofEntries (Ledger.finish done r).2) := by
  unfold IdempotencyStore.finish
  rw [h]
  obtain ⟨_ | _, d⟩ := r <;> rfl

/-- **Refinement**: a call of the store is the call of the ledger. -/
theorem step_eq (h : StoreInv cfg s) (op : StoreOp τ) : IdempotencyStore.step sha256 cfg s op =
    ((Ledger.step sha256 cfg s.entries op).1, Store.ofEntries (Ledger.step sha256 cfg s.entries op).2) := by
  obtain ⟨hok, hs⟩ := h
  rcases op with ⟨tenantId, key, fingerprint, token, now⟩ | ⟨reservation, response, now⟩ | ⟨reservation, now⟩ |
    ⟨now⟩ | ⟨now⟩
  · rcases hcheck : IdempotencyStore.checkReserve tenantId key fingerprint with detail | ⟨tenant, key', fp⟩
    · have hrun : IdempotencyStore.reserve sha256 cfg tenantId key fingerprint token now s =
          IdempotencyStore.ofLedger (.error (.invalidInput detail), s.entries) := by
        conv_lhs => rw [hs]
        simp [IdempotencyStore.reserve, hcheck, IdempotencyStore.ofLedger]
      rw [Ledger.step_reserve_error hcheck]
      exact finish_eq StoreOutcome.decided hrun
    · have hrun : IdempotencyStore.reserve sha256 cfg tenantId key fingerprint token now s =
          IdempotencyStore.ofLedger (Ledger.reserve cfg (tenant, sha256 (utf8 key')) fp token now s.entries) := by
        conv_lhs => rw [hs]
        simpa [IdempotencyStore.reserve, hcheck] using IdempotencyStore.reserveLocked_eq hok _ fp token now
      rw [Ledger.step_reserve_ok hcheck]
      exact finish_eq StoreOutcome.decided hrun
  · refine finish_eq _ ?_
    conv_lhs => rw [hs]
    exact IdempotencyStore.commit_eq hok reservation response now
  · refine finish_eq _ (r := (.ok (Ledger.abort reservation now s.entries).1, _)) ?_
    conv_lhs => rw [hs]
    exact IdempotencyStore.abort_eq reservation now s.entries
  · refine finish_eq _ (r := (.ok (Ledger.live now s.entries).length, _)) ?_
    conv_lhs => rw [hs]
    exact IdempotencyStore.len_eq now s.entries
  · refine finish_eq _ (r := (.ok (Ledger.live now s.entries).cached, _)) ?_
    conv_lhs => rw [hs]
    exact IdempotencyStore.cachedResponseBytes_eq now s.entries

/-- **Step lemma**: every call keeps the invariant. -/
theorem step (h : StoreInv cfg s) (op : StoreOp τ) : StoreInv cfg (IdempotencyStore.step sha256 cfg s op).2 := by
  rw [h.step_eq op]
  exact of_ledger (h.1.step sha256 op)

/-- **Run lemma**: every reachable state satisfies the invariant. -/
theorem run {evs : List (StoreOp τ × StoreOutcome τ)}
    (h : (IdempotencyStore.machine sha256 cfg).Run evs s) : StoreInv cfg s :=
  Machine.Run.invariant (I := fun _ s => StoreInv cfg s) new (fun _ _ i _ hs => hs.step i) h

theorem after (sha256 : Bytes → Bytes) (cfg : StoreConfig τ) (ops : List (StoreOp τ)) :
    StoreInv cfg ((IdempotencyStore.machine sha256 cfg).after ops) :=
  run (Machine.run_after _ ops)

end StoreInv

/-- Every run of the store is a run of the ledger. -/
theorem run_ledger {sha256 : Bytes → Bytes} {cfg : StoreConfig τ} {evs : List (StoreOp τ × StoreOutcome τ)}
    {s : Store τ} (h : (IdempotencyStore.machine sha256 cfg).Run evs s) :
    ∃ d, (Ledger.machine sha256 cfg).Run evs d ∧ LedgerOk cfg d ∧ s = Store.ofEntries d := by
  refine Machine.Run.simulate (R := fun s d => LedgerOk cfg d ∧ s = Store.ofEntries d) ⟨LedgerOk.empty, rfl⟩ ?_ h
  rintro _ d op ⟨hok, rfl⟩
  have heq := @StoreInv.step_eq τ _ _ _ _ cfg _ sha256 (StoreInv.of_ledger hok) op
  exact ⟨congrArg Prod.fst heq, hok.step sha256 op, congrArg Prod.snd heq⟩

/-- The ledger of a run is well formed. -/
theorem Ledger.run_ok {sha256 : Bytes → Bytes} {cfg : StoreConfig τ} {evs : List (StoreOp τ × StoreOutcome τ)}
    {d : Ledger τ} (h : (Ledger.machine sha256 cfg).Run evs d) : LedgerOk cfg d :=
  Machine.Run.invariant (I := fun _ d => LedgerOk cfg d) LedgerOk.empty (fun _ _ op _ hd => hd.step sha256 op) h

/-! ## The accounting of a reachable store -/

/-- The size of a completed entry's response. -/
def Entry.completedBytes (e : Entry τ) : ℤ :=
  match e.state, e.response with
  | .complete, some response => response.sizeBytes
  | _, _ => 0

/-- The counters of a store against its entries, and its limits. -/
structure Accounted (cfg : StoreConfig τ) (s : Store τ) : Prop where
  cached_eq : s.cachedResponseBytes = s.entries.sum Entry.completedBytes
  reserved_eq : s.reservedResponseBytes = s.entries.sum (fun e => (e.reservedResponseBytes : ℤ))
  held : ∀ key e, s.entries.get? key = some e → e.reservedResponseBytes =
    if e.state = .reserved ∧ cfg.evictCompletedEntries = false then cfg.maxResponseBytes else 0
  bytes_le : s.cachedResponseBytes + s.reservedResponseBytes ≤ cfg.maxTotalResponseBytes
  length_le : s.entries.length ≤ cfg.maxEntries
  reserved_shape : ∀ key e, s.entries.get? key = some e → e.state = .reserved → e.response = none
  complete_shape : ∀ key e, s.entries.get? key = some e → e.state = .complete →
    ∃ r, e.response = some r ∧ r.sizeBytes ≤ cfg.maxResponseBytes

/-- What a call raises when no defensive branch is taken. -/
def StoreOp.Raises (op : StoreOp τ) (error : StoreError τ) : Prop :=
  match op, error with
  | .reserve .., .invalidInput _ | .reserve .., .conflict | .reserve .., .inProgress _ | .reserve .., .capacity _
  | .commit .., .responseTooLarge _ | .commit .., .invalidReservation => True
  | _, _ => False

namespace EntryOk

variable {cfg : StoreConfig τ} {e : Entry τ}

omit [Add τ] [Sub τ] in
theorem completedBytes_eq (h : EntryOk cfg e) : e.completedBytes = e.cachedBytes := by
  unfold Entry.completedBytes Entry.cachedBytes
  rcases hs : e.state with _ | _
  · rw [(h.reserved hs).1]
  · obtain ⟨⟨r, hr, -⟩, -⟩ := h.complete hs
    rw [hr]

omit [Add τ] [Sub τ] in
theorem held (h : EntryOk cfg e) : e.reservedResponseBytes =
    if e.state = .reserved ∧ cfg.evictCompletedEntries = false then cfg.maxResponseBytes else 0 := by
  rcases hs : e.state with _ | _
  · rw [(h.reserved hs).2, Ledger.holding]
    rcases cfg.evictCompletedEntries with _ | _ <;> simp
  · rw [(h.complete hs).2]
    simp

end EntryOk

omit [Add τ] [Sub τ] in
theorem StoreInv.accounted {cfg : StoreConfig τ} {s : Store τ} (h : StoreInv cfg s) : Accounted cfg s where
  cached_eq := by
    rw [h.2]
    exact OrderedDict.sum_congr fun k e hk => (h.1.entry_ok k e hk).completedBytes_eq.symm
  reserved_eq := by rw [h.2]; rfl
  held key e hk := (h.1.entry_ok key e hk).held
  bytes_le := by rw [h.2]; exact h.1.bytes_le
  length_le := h.1.length_le
  reserved_shape key e hk hs := ((h.1.entry_ok key e hk).reserved hs).1
  complete_shape key e hk hs := ((h.1.entry_ok key e hk).complete hs).1

namespace Ledger

variable {cfg : StoreConfig τ} {d : Ledger τ} {sha256 : Bytes → Bytes}

omit [LinearOrder τ] [Zero τ] [Add τ] [Sub τ] in
theorem finish_raised {α : Type} {done : α → StoreOutcome τ} (hdone : ∀ a e, done a ≠ .raised e)
    {r : Except (StoreError τ) α × Ledger τ} {error : StoreError τ} (h : (finish done r).1 = .raised error) :
    r.1 = .error error := by
  obtain ⟨e | a, d'⟩ := r
  · exact congrArg Except.error (StoreOutcome.raised.inj h)
  · exact absurd h (hdone a error)

/-- The ledger has no defensive branch. -/
theorem step_raises {op : StoreOp τ} {error : StoreError τ} (h : (step sha256 cfg d op).1 = .raised error) :
    op.Raises error := by
  rcases op with ⟨tenantId, key, fingerprint, token, now⟩ | ⟨reservation, response, now⟩ | ⟨reservation, now⟩ |
    ⟨now⟩ | ⟨now⟩
  · rcases hcheck : IdempotencyStore.checkReserve tenantId key fingerprint with detail | ⟨tenant, key', fp⟩
    · rw [step_reserve_error hcheck] at h
      cases h
      trivial
    · rw [step_reserve_ok hcheck] at h
      have hr := finish_raised (by nofun) h
      have hcase := reserve_case cfg (tenant, sha256 (utf8 key')) fp token now d
      generalize reserve cfg (tenant, sha256 (utf8 key')) fp token now d = r at hr hcase
      rcases hcase with _ | _ | _ | _ | _ <;> cases hr <;> trivial
  · have hr := finish_raised (by nofun) h
    have hcase := commit_case cfg reservation response now d
    generalize commit cfg reservation response now d = r at hr hcase
    rcases hcase with _ | _ | _ <;> cases hr <;> trivial
  · exact nomatch h
  · exact nomatch h
  · exact nomatch h

omit [Sub τ] in
/-- The live owner of a reservation publishes every response of admissible size. -/
theorem commit_ok_of_owns {reservation : Reservation τ} {response : IdempotencyResponse} {now : τ} {e : Entry τ}
    (hk : d.get? (IdempotencyStore.cacheKey reservation) = some e)
    (hown : IdempotencyStore.owns (some e) reservation = true) (hnow : now < e.expiresAt)
    (hsize : response.sizeBytes ≤ cfg.maxResponseBytes) : (commit cfg reservation response now d).1 = .ok () := by
  have hlive := get?_live.mpr ⟨hk, hnow⟩
  have hcase := commit_case cfg reservation response now d
  generalize commit cfg reservation response now d = r at hcase ⊢
  rcases hcase with hlarge | ⟨-, hno⟩ | _
  · exact absurd hsize (not_le.mpr hlarge)
  · rw [hlive, hown] at hno
    cases hno
  · rfl

end Ledger

/-- **Accounting and admission.**  After any sequence of calls the store is accounted for; no call takes a
defensive branch; and the live owner of a reservation publishes every response of admissible size. -/
theorem idempotencyStore_accounting (sha256 : Bytes → Bytes) (cfg : StoreConfig τ) (ops : List (StoreOp τ)) :
    let s := (IdempotencyStore.machine sha256 cfg).after ops
    Accounted cfg s ∧
    (∀ op error, (IdempotencyStore.step sha256 cfg s op).1 = .raised error → op.Raises error) ∧
    ∀ (reservation : Reservation τ) (response : IdempotencyResponse) (now : τ) (e : Entry τ),
      s.entries.get? (IdempotencyStore.cacheKey reservation) = some e → now < e.expiresAt →
      IdempotencyStore.owns (some e) reservation = true → response.sizeBytes ≤ cfg.maxResponseBytes →
      (IdempotencyStore.step sha256 cfg s (.commit reservation response now)).1 = .committed := by
  intro s
  have hinv : StoreInv cfg s := StoreInv.after sha256 cfg ops
  refine ⟨hinv.accounted, ?_, ?_⟩
  · intro op error h
    rw [hinv.step_eq op] at h
    exact Ledger.step_raises h
  · intro reservation response now e hk hnow hown hsize
    have hok := Ledger.commit_ok_of_owns hk hown hnow hsize
    rw [hinv.step_eq]
    show (Ledger.finish (fun _ => StoreOutcome.committed) _).1 = _
    unfold Ledger.finish
    rw [hok]

end Lucent.Access
