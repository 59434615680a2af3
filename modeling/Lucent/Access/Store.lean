import Mathlib.Order.Lattice
import Mathlib.Order.MinMax
import Mathlib.Algebra.Group.Basic
import Lucent.Lib.OrderedDict
import Lucent.Lib.Machine
import Lucent.Lib.Text

/-!
# Lucent.Access.Store — the idempotency store of `lucent/access.py`

`IdempotencyStore` as the source has it: an ordered dictionary of entries, two byte counters, lazy expiry
on every operation, and the two admission modes (`evictCompletedEntries`).

* Every operation gets the clock reading it takes under the lock, and `reserve` the token it draws.
* A raise keeps the state it happened in, so `StoreM` is a state monad under exceptions.
* The accounting checks of the source ("defensive invariant") are kept as raises of `runtime`.
* The clock is any linear order with the three operations the store uses; nothing here depends on
  arithmetic laws, so floats without NaN are an instance.
-/

namespace Lucent.Access

open Lucent.Lib

/-! ## Limits -/

def maxTenantIdBytes : ℕ := 128
def maxIdempotencyKeyBytes : ℕ := 256
def maxFingerprintBytes : ℕ := 256
def maxCachedHeaders : ℕ := 64
def maxHeaderLineBytes : ℕ := 8192

/-! ## Responses -/

/-- `_HEADER_NAME_RE`, one character. -/
def headerNameChar (c : Char) : Bool := c.isAlphanum || "!#$%&'*+.^_`|~-".toList.contains c

/-- What `IdempotencyResponse.__post_init__` says against one header line. -/
def headerError (header : String × String) : Option String :=
  if header.1.toList.isEmpty || !header.1.toList.all headerNameChar then
    some "header names must be valid HTTP tokens"
  else if header.2.toList.contains '\r' || header.2.toList.contains '\n' then
    some "header values may not contain newlines"
  else if encodedLength header.1 + encodedLength header.2 > maxHeaderLineBytes then
    some "cached header lines may not exceed 8192 bytes"
  else none

/-- `IdempotencyResponse`, with the checks of its constructor as fields. -/
structure IdempotencyResponse where
  statusCode : ℤ
  body : Bytes
  headers : List (String × String)
  status_range : 100 ≤ statusCode ∧ statusCode ≤ 599
  headers_bounded : headers.length ≤ maxCachedHeaders
  headers_valid : headers.findSome? headerError = none
deriving DecidableEq

namespace IdempotencyResponse

/-- `IdempotencyResponse.from_parts`: the checks of the constructor in source order. -/
def fromParts (statusCode : ℤ) (body : Bytes) (headers : List (String × String)) :
    Except String IdempotencyResponse :=
  if hs : 100 ≤ statusCode ∧ statusCode ≤ 599 then
    if hl : headers.length ≤ maxCachedHeaders then
      match hv : headers.findSome? headerError with
      | none => .ok ⟨statusCode, body, headers, hs, hl, hv⟩
      | some message => .error message
    else .error "headers may not exceed 64 entries"
  else .error "status_code must be between 100 and 599"

/-- A response is built of its own parts only. -/
theorem fromParts_eq_ok_iff {statusCode : ℤ} {body : Bytes} {headers : List (String × String)}
    {r : IdempotencyResponse} : fromParts statusCode body headers = .ok r ↔
      r.statusCode = statusCode ∧ r.body = body ∧ r.headers = headers := by
  constructor
  · intro h
    unfold fromParts at h
    split_ifs at h
    split at h
    · cases h
      exact ⟨rfl, rfl, rfl⟩
    · exact nomatch h
  · rintro ⟨rfl, rfl, rfl⟩
    unfold fromParts
    rw [dif_pos r.status_range, dif_pos r.headers_bounded]
    split
    · rfl
    · rename_i message hmessage
      exact nomatch hmessage.symm.trans r.headers_valid

/-- `size_bytes`: the encoded bytes of the body and of the header lines. -/
def sizeBytes (r : IdempotencyResponse) : ℕ :=
  r.body.length + (r.headers.map (fun h => encodedLength h.1 + encodedLength h.2)).sum

end IdempotencyResponse

/-! ## Errors, reservations, entries -/

section Types

variable (τ : Type)

/-- What an operation raises: the `AccessError`s of the source, and the `RuntimeError` (with its text) of an
accounting underflow. -/
inductive StoreError
  | invalidInput (detail : String)
  | conflict
  | inProgress (retryAfterSeconds : τ)
  | capacity (retryAfterSeconds : τ)
  | invalidReservation
  | responseTooLarge (maxBytes : ℕ)
  | runtime (message : String)
deriving DecidableEq

/-- `IdempotencyReservation`: the ownership proof handed to the caller. -/
structure Reservation where
  tenantId : String
  expiresAt : τ
  keyDigest : Bytes
  fingerprint : String
  token : String
deriving DecidableEq

/-- `IdempotencyDecision`: new work, or a completed response. -/
inductive Decision
  | reserved (reservation : Reservation τ)
  | replay (response : IdempotencyResponse)
deriving DecidableEq

/-- `_EntryState`. -/
inductive EntryState
  | reserved
  | complete
deriving DecidableEq

/-- `_IdempotencyEntry`. -/
structure Entry where
  fingerprint : String
  token : String
  state : EntryState
  expiresAt : τ
  response : Option IdempotencyResponse
  reservedResponseBytes : ℕ
deriving DecidableEq

/-- The dictionary key: tenant and digest of the idempotency key. -/
abbrev CacheKey := String × Bytes

/-- The mutable state of an `IdempotencyStore`. -/
structure Store where
  entries : OrderedDict CacheKey (Entry τ)
  cachedResponseBytes : ℤ
  reservedResponseBytes : ℤ

/-- The parameters of an `IdempotencyStore`, with the checks of its constructor as fields. -/
structure StoreConfig [Zero τ] [LT τ] where
  ttlSeconds : τ
  reservationTtlSeconds : τ
  maxEntries : ℕ
  maxResponseBytes : ℕ
  maxTotalResponseBytes : ℕ
  evictCompletedEntries : Bool
  ttl_pos : 0 < ttlSeconds
  reservation_ttl_pos : 0 < reservationTtlSeconds
  entries_pos : 0 < maxEntries
  response_pos : 0 < maxResponseBytes
  response_le_total : maxResponseBytes ≤ maxTotalResponseBytes

/-- A store operation: state passing, with the state kept when it raises. -/
abbrev StoreM := EStateM (StoreError τ) (Store τ)

end Types

/-- `_bounded_text`: the text checks of `reserve`, on a value that may be absent. -/
def boundedText (value : Option String) (name : String) (maxBytes : ℕ) : Except String String :=
  match value with
  | none => .error (name ++ " must be text")
  | some text =>
    if text.isEmpty || maxBytes < encodedLength text then
      .error (name ++ " must contain 1 to " ++ toString maxBytes ++ " encoded bytes")
    else .ok text

namespace IdempotencyStore

variable {τ : Type} [LinearOrder τ] [Zero τ] [Add τ] [Sub τ]

/-- The dictionary slot a reservation refers to. -/
def cacheKey (reservation : Reservation τ) : CacheKey := (reservation.tenantId, reservation.keyDigest)

/-- `_capacity_error`: retry when the first entry expires. -/
def capacityError (cfg : StoreConfig τ) (now : τ) (s : Store τ) : StoreError τ :=
  match s.entries.values.map (fun entry => max 0 (entry.expiresAt - now)) with
  | [] => .capacity cfg.reservationTtlSeconds
  | wait :: waits => .capacity (waits.foldl min wait)

/-- `_remove`. -/
def remove (key : CacheKey) : StoreM τ Unit := fun s =>
  match s.entries.get? key with
  | none => .error (.runtime "KeyError") s
  | some entry =>
    let s₁ := { s with
      entries := s.entries.erase key
      reservedResponseBytes := s.reservedResponseBytes - entry.reservedResponseBytes }
    if s₁.reservedResponseBytes < 0 then
      .error (.runtime "idempotency response reservation accounting underflow") s₁
    else match entry.response with
      | none => .ok () s₁
      | some response =>
        let s₂ := { s₁ with cachedResponseBytes := s₁.cachedResponseBytes - response.sizeBytes }
        if s₂.cachedResponseBytes < 0 then
          .error (.runtime "idempotency response-byte accounting underflow") s₂
        else .ok () s₂

/-- `_expire`: collect the expired keys, then remove them one after the other. -/
def expire (now : τ) : StoreM τ Unit := fun s =>
  ((s.entries.filter (fun _ entry => decide (entry.expiresAt ≤ now))).keys.forM remove) s

/-- `_oldest_completed_key`. -/
def oldestCompletedKey (s : Store τ) : Option CacheKey :=
  s.entries.findKey? (fun entry => decide (entry.state = .complete))

/-- `_make_room`. -/
def makeRoom (cfg : StoreConfig τ) (now : τ) : StoreM τ Unit := fun s =>
  if s.entries.length < cfg.maxEntries then .ok () s
  else if cfg.evictCompletedEntries then
    match oldestCompletedKey s with
    | some key => remove key s
    | none => .error (capacityError cfg now s) s
  else .error (capacityError cfg now s) s

/-- The loop of `_make_response_room`.  Each turn removes an entry, so the number of entries bounds the
turns; without entries the next turn finds no completed key. -/
def makeResponseRoomLoop (cfg : StoreConfig τ) (requiredBytes : ℕ) (now : τ) : ℕ → StoreM τ Unit
  | 0, s =>
    if s.cachedResponseBytes + requiredBytes > cfg.maxTotalResponseBytes then
      .error (capacityError cfg now s) s
    else .ok () s
  | turns + 1, s =>
    if s.cachedResponseBytes + requiredBytes > cfg.maxTotalResponseBytes then
      if !cfg.evictCompletedEntries then .error (capacityError cfg now s) s
      else match oldestCompletedKey s with
        | none => .error (capacityError cfg now s) s
        | some key => (do remove key; makeResponseRoomLoop cfg requiredBytes now turns) s
    else .ok () s

/-- `_make_response_room`. -/
def makeResponseRoom (cfg : StoreConfig τ) (requiredBytes : ℕ) (now : τ) : StoreM τ Unit := fun s =>
  makeResponseRoomLoop cfg requiredBytes now s.entries.length s

/-- `_owns`. -/
def owns (entry : Option (Entry τ)) (reservation : Reservation τ) : Bool :=
  match entry with
  | none => false
  | some entry =>
    decide (entry.state = .reserved) && decide (entry.token = reservation.token) &&
      decide (entry.fingerprint = reservation.fingerprint)

/-- The part of `reserve` after a lookup that found nothing: make room, check the byte budget, insert. -/
def reserveNew (cfg : StoreConfig τ) (key : CacheKey) (fingerprint token : String) (now : τ) :
    StoreM τ (Decision τ) := do
  makeRoom cfg now
  let s ← get
  let reservedResponseBytes := if cfg.evictCompletedEntries then 0 else cfg.maxResponseBytes
  if !cfg.evictCompletedEntries &&
      s.cachedResponseBytes + s.reservedResponseBytes + reservedResponseBytes > cfg.maxTotalResponseBytes then
    throw (capacityError cfg now s)
  let expiresAt := now + cfg.reservationTtlSeconds
  set { s with
    entries := s.entries.set key
      { fingerprint, token, state := .reserved, expiresAt, response := none, reservedResponseBytes }
    reservedResponseBytes := s.reservedResponseBytes + reservedResponseBytes }
  return .reserved { tenantId := key.1, expiresAt, keyDigest := key.2, fingerprint, token }

/-- The part of `reserve` under the lock. -/
def reserveLocked (cfg : StoreConfig τ) (key : CacheKey) (fingerprint token : String) (now : τ) :
    StoreM τ (Decision τ) := do
  expire now
  let s ← get
  match s.entries.get? key with
  | some existing =>
    if existing.fingerprint ≠ fingerprint then throw .conflict
    if existing.state = .reserved then throw (.inProgress (max 0 (existing.expiresAt - now)))
    match existing.response with
    | none => throw .invalidReservation
    | some response =>
      set { s with entries := s.entries.moveToEnd key }
      return .replay response
  | none => reserveNew cfg key fingerprint token now

/-- The checked arguments of `reserve`, in source order. -/
def checkReserve (tenantId : String) (key : Option String) (fingerprint : String) :
    Except String (String × String × String) := do
  let checkedTenant ← boundedText (some tenantId) "tenant_id" maxTenantIdBytes
  let checkedKey ← boundedText key "idempotency key" maxIdempotencyKeyBytes
  let checkedFingerprint ← boundedText (some fingerprint) "request fingerprint" maxFingerprintBytes
  return (checkedTenant, checkedKey, checkedFingerprint)

variable (sha256 : Bytes → Bytes)

/-- `IdempotencyStore.reserve`; the key may be absent, as a request header may. -/
def reserve (cfg : StoreConfig τ) (tenantId : String) (key : Option String) (fingerprint token : String)
    (now : τ) : StoreM τ (Decision τ) := fun s =>
  match checkReserve tenantId key fingerprint with
  | .error detail => .error (.invalidInput detail) s
  | .ok (tenant, key, fingerprint) => reserveLocked cfg (tenant, sha256 (utf8 key)) fingerprint token now s

/-- The part of `commit` after the ownership test: find the space, then publish over the owned entry. -/
def publish (cfg : StoreConfig τ) (key : CacheKey) (entry : Entry τ) (response : IdempotencyResponse) (now : τ) :
    StoreM τ Unit := do
  if cfg.evictCompletedEntries then makeResponseRoom cfg response.sizeBytes now
  else
    let s ← get
    let projectedBytes := s.cachedResponseBytes + s.reservedResponseBytes
      - entry.reservedResponseBytes + response.sizeBytes
    if projectedBytes > cfg.maxTotalResponseBytes then throw (capacityError cfg now s)
    set { s with reservedResponseBytes := s.reservedResponseBytes - entry.reservedResponseBytes }
  let s ← get
  let reservedResponseBytes := if cfg.evictCompletedEntries then entry.reservedResponseBytes else 0
  set { s with
    entries := (s.entries.set key { entry with
      state := .complete, response := some response, expiresAt := now + cfg.ttlSeconds,
      reservedResponseBytes }).moveToEnd key
    cachedResponseBytes := s.cachedResponseBytes + response.sizeBytes }

/-- `IdempotencyStore.commit`. -/
def commit (cfg : StoreConfig τ) (reservation : Reservation τ) (response : IdempotencyResponse) (now : τ) :
    StoreM τ Unit := do
  if response.sizeBytes > cfg.maxResponseBytes then throw (.responseTooLarge cfg.maxResponseBytes)
  expire now
  let entry? := (← get).entries.get? (cacheKey reservation)
  if !owns entry? reservation then throw .invalidReservation
  match entry? with
  | none => throw .invalidReservation
  | some entry => publish cfg (cacheKey reservation) entry response now

/-- `IdempotencyStore.abort`. -/
def abort (reservation : Reservation τ) (now : τ) : StoreM τ Bool := do
  let key := cacheKey reservation
  expire now
  if !owns ((← get).entries.get? key) reservation then return false
  remove key
  return true

/-- `IdempotencyStore.__len__`. -/
def len (now : τ) : StoreM τ ℕ := do
  expire now
  return (← get).entries.length

/-- `IdempotencyStore.cached_response_bytes`. -/
def cachedResponseBytes (now : τ) : StoreM τ ℤ := do
  expire now
  return (← get).cachedResponseBytes

end IdempotencyStore

/-! ## The store as a machine -/

/-- A call of a store operation, with the clock reading it takes and the token it draws. -/
inductive StoreOp (τ : Type)
  | reserve (tenantId : String) (key : Option String) (fingerprint token : String) (now : τ)
  | commit (reservation : Reservation τ) (response : IdempotencyResponse) (now : τ)
  | abort (reservation : Reservation τ) (now : τ)
  | len (now : τ)
  | cachedResponseBytes (now : τ)
deriving DecidableEq

/-- What a call returns or raises. -/
inductive StoreOutcome (τ : Type)
  | decided (decision : Decision τ)
  | committed
  | aborted (released : Bool)
  | length (n : ℕ)
  | bytes (n : ℤ)
  | raised (error : StoreError τ)
deriving DecidableEq

namespace IdempotencyStore

variable {τ : Type} [LinearOrder τ] [Zero τ] [Add τ] [Sub τ]

/-- The outcome and the state of a call. -/
def finish {α : Type} (done : α → StoreOutcome τ) (call : StoreM τ α) (s : Store τ) :
    StoreOutcome τ × Store τ :=
  match call s with
  | .ok a s' => (done a, s')
  | .error e s' => (.raised e, s')

/-- One call. -/
def step (sha256 : Bytes → Bytes) (cfg : StoreConfig τ) (s : Store τ) : StoreOp τ → StoreOutcome τ × Store τ
  | .reserve tenantId key fingerprint token now =>
    finish .decided (reserve sha256 cfg tenantId key fingerprint token now) s
  | .commit reservation response now => finish (fun _ => .committed) (commit cfg reservation response now) s
  | .abort reservation now => finish .aborted (abort reservation now) s
  | .len now => finish .length (len now) s
  | .cachedResponseBytes now => finish .bytes (cachedResponseBytes now) s

/-- `IdempotencyStore.__init__`: no entries, both counters zero. -/
def new : Store τ := ⟨OrderedDict.empty, 0, 0⟩

/-- The store under any sequence of calls. -/
def machine (sha256 : Bytes → Bytes) (cfg : StoreConfig τ) : Machine (Store τ) (StoreOp τ) (StoreOutcome τ) :=
  ⟨new, step sha256 cfg⟩

end IdempotencyStore

end Lucent.Access
