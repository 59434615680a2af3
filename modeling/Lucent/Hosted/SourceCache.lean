import Mathlib.Data.Finset.Card
import Mathlib.Logic.Function.Basic
import Lucent.Lib.OrderedDict
import Lucent.Lib.Machine
import Lucent.VerifiedSource.Result

/-!
# Lucent.Hosted.SourceCache — `VerifiedSourceCache` of `lucent/hosted.py` under threads

The cache is two ordered dictionaries, a byte counter and the set of keys in flight.  `resolve` is cut where it
holds and releases its lock: the loop runs one turn at a time (`attempt`), a thread that waits leaves the lock, and
the resolver runs unlocked between the turn that starts a flight and the section that records how it ended (`record`).

* A `Turn` names its thread, and is refused where the thread is not at it.
* Every section reads the clock once; the readings are inputs, in no order.
* The clock is any linear order with an addition.
-/

namespace Lucent.Hosted

open Lucent.Lib Lucent.VerifiedSource

/-! ## The data -/

/-- `key`: the chain id and the lower-cased address. -/
abbrev SourceKey := ℤ × String

section Types

variable (τ : Type)

/-- `_SourceCacheEntry`. -/
structure SourceCacheEntry where
  result : VerifiedSourceResult
  expiresAt : τ
  sizeBytes : ℕ
deriving DecidableEq

/-- `_SourceFailureEntry`. -/
structure SourceFailureEntry where
  error : VerifiedSourceError
  expiresAt : τ
deriving DecidableEq

/-- The mutable state of a `VerifiedSourceCache`. -/
structure SourceCache where
  entries : OrderedDict SourceKey (SourceCacheEntry τ)
  failures : OrderedDict SourceKey (SourceFailureEntry τ)
  inflight : Finset SourceKey
  cachedBytes : ℤ

/-- The parameters of a `VerifiedSourceCache`, with the checks of its constructor as fields. -/
structure SourceCacheConfig [LE τ] [NatCast τ] where
  ttlSeconds : τ
  maxEntries : ℕ
  maxBytes : ℕ
  negativeTtlSeconds : τ
  ttl_range : ((1 : ℕ) : τ) ≤ ttlSeconds ∧ ttlSeconds ≤ ((60 : ℕ) : τ)
  entries_pos : 1 ≤ maxEntries
  bytes_pos : 1 ≤ maxBytes
  negative_ttl_range : ((0 : ℕ) : τ) ≤ negativeTtlSeconds ∧ negativeTtlSeconds ≤ ((2 : ℕ) : τ)

end Types

/-- How a call of the resolver ends; `invalid` is a value that is no `VerifiedSourceResult`. -/
inductive ResolverOutcome
  | returned (result : VerifiedSourceResult)
  | failed (error : VerifiedSourceError)
  | invalid
  | raised (exception : String)
deriving DecidableEq

/-- Where a thread is, with the chain id and the address it asked for. -/
inductive SourceThread
  | outside
  | waiting (call : ℤ × String) (notified : Bool)
  | resolving (call : ℤ × String)
  | resolved (call : ℤ × String) (outcome : ResolverOutcome)
deriving DecidableEq

/-- One step of a thread: it calls `resolve`, it gets the lock back after a wait, its resolver call ends, or it records
that end. -/
inductive Turn (τ : Type)
  | enter (thread : ℕ) (call : ℤ × String) (now : τ)
  | wake (thread : ℕ) (call : ℤ × String) (now : τ)
  | resolverEnds (thread : ℕ) (call : ℤ × String) (outcome : ResolverOutcome)
  | record (thread : ℕ) (call : ℤ × String) (outcome : ResolverOutcome) (now : τ)

/-- The thread of a step. -/
def Turn.thread {τ : Type} : Turn τ → ℕ
  | .enter thread .. => thread
  | .wake thread .. => thread
  | .resolverEnds thread .. => thread
  | .record thread .. => thread

/-- What a step does: `resolve` returns; it raises a cached failure, for want of capacity, what its own resolver call
raised, or another exception; it calls the resolver; it waits. -/
inductive TurnAnswer
  | returned (result : VerifiedSourceResult)
  | cachedFailure (error : VerifiedSourceError)
  | capacity (error : VerifiedSourceError)
  | failed (error : VerifiedSourceError)
  | raised (exception : String)
  | calls
  | waits
  | ended
  | refused
deriving DecidableEq

/-- The cache and its threads. -/
structure SourceState (τ : Type) where
  cache : SourceCache τ
  threads : ℕ → SourceThread

namespace VerifiedSourceCache

variable {τ : Type} [LinearOrder τ] [Add τ] [NatCast τ]

/-! ## The locked helpers -/

/-- One turn of the first loop of `_expire_locked`. -/
def dropEntry (now : τ) (c : SourceCache τ) (item : SourceKey × SourceCacheEntry τ) : SourceCache τ :=
  if item.2.expiresAt ≤ now then
    { c with cachedBytes := c.cachedBytes - item.2.sizeBytes, entries := c.entries.erase item.1 }
  else c

/-- One turn of the second loop of `_expire_locked`. -/
def dropFailure (now : τ) (c : SourceCache τ) (item : SourceKey × SourceFailureEntry τ) : SourceCache τ :=
  if item.2.expiresAt ≤ now then { c with failures := c.failures.erase item.1 } else c

/-- `_expire_locked`. -/
def expireLocked (now : τ) (c : SourceCache τ) : SourceCache τ :=
  let c := c.entries.entries.foldl (dropEntry now) c
  c.failures.entries.foldl (dropFailure now) c

/-- The eviction loop of `_store_success_locked`.  Each turn removes an entry, so the number of entries bounds the
turns. -/
def evictLoop (cfg : SourceCacheConfig τ) (sizeBytes : ℕ) : ℕ → SourceCache τ → SourceCache τ
  | 0, c => c
  | turns + 1, c =>
    match c.entries.entries with
    | [] => c
    | (key, evicted) :: _ =>
      if c.entries.length ≥ cfg.maxEntries ∨ c.cachedBytes + sizeBytes > cfg.maxBytes then
        evictLoop cfg sizeBytes turns
          { c with entries := c.entries.erase key, cachedBytes := c.cachedBytes - evicted.sizeBytes }
      else c

variable (readFloat : List Char → PyFloat)

/-- `_store_success_locked`, `none` where `cache_size_bytes` raises. -/
def storeSuccessLocked (cfg : SourceCacheConfig τ) (key : SourceKey) (result : VerifiedSourceResult) (now : τ)
    (c : SourceCache τ) : Option (SourceCache τ) :=
  match result.cacheSizeBytes readFloat with
  | none => none
  | some sizeBytes =>
    if sizeBytes > cfg.maxBytes then some c
    else
      let c := match c.entries.get? key with
        | none => c
        | some replaced =>
          { c with entries := c.entries.erase key, cachedBytes := c.cachedBytes - replaced.sizeBytes }
      let c := evictLoop cfg sizeBytes c.entries.length c
      some { c with
        entries := c.entries.set key ⟨result, now + cfg.ttlSeconds, sizeBytes⟩
        cachedBytes := c.cachedBytes + sizeBytes }

/-- `while len(self._failures) > self._max_entries`. -/
def trimFailures (cfg : SourceCacheConfig τ) : ℕ → SourceCache τ → SourceCache τ
  | 0, c => c
  | turns + 1, c =>
    match c.failures.entries with
    | [] => c
    | (key, _) :: _ =>
      if c.failures.length > cfg.maxEntries then trimFailures cfg turns { c with failures := c.failures.erase key }
      else c

/-- What the section after a `VerifiedSourceError` does to the failure cache. -/
def storeFailureLocked (cfg : SourceCacheConfig τ) (key : SourceKey) (error : VerifiedSourceError) (now : τ)
    (c : SourceCache τ) : SourceCache τ :=
  if cfg.negativeTtlSeconds ≠ ((0 : ℕ) : τ) then
    let c := { c with
      failures := (c.failures.set key ⟨error, now + cfg.negativeTtlSeconds⟩).moveToEnd key }
    trimFailures cfg c.failures.length c
  else c

/-- `notify_all`: every waiting thread is to take the lock again. -/
def notifyAll (threads : ℕ → SourceThread) : ℕ → SourceThread := fun t =>
  match threads t with
  | .waiting call _ => .waiting call true
  | thread => thread

/-! ## `resolve` -/

/-- The refusal for want of room for another flight. -/
def capacityError : VerifiedSourceError :=
  ⟨"SOURCE_CACHE_CAPACITY", "verified-source concurrency capacity was exhausted"⟩

variable (lower : String → String)

/-- The key of a call. -/
def keyOf (call : ℤ × String) : SourceKey := (call.1, lower call.2)

/-- One turn of the loop, under the lock. -/
def attempt (cfg : SourceCacheConfig τ) (thread : ℕ) (call : ℤ × String) (now : τ) (s : SourceState τ) :
    TurnAnswer × SourceState τ :=
  let key := keyOf lower call
  let c := expireLocked now s.cache
  match c.entries.get? key with
  | some entry =>
    (.returned entry.result,
      ⟨{ c with entries := c.entries.moveToEnd key }, Function.update s.threads thread .outside⟩)
  | none => match c.failures.get? key with
    | some failure =>
      (.cachedFailure failure.error,
        ⟨{ c with failures := c.failures.moveToEnd key }, Function.update s.threads thread .outside⟩)
    | none =>
      if key ∈ c.inflight then (.waits, ⟨c, Function.update s.threads thread (.waiting call false)⟩)
      else if c.inflight.card ≥ cfg.maxEntries then
        (.capacity capacityError, ⟨c, Function.update s.threads thread .outside⟩)
      else
        (.calls, ⟨{ c with inflight := insert key c.inflight }, Function.update s.threads thread (.resolving call)⟩)

/-- The section is left with the key out of flight and everybody notified. -/
def land (thread : ℕ) (key : SourceKey) (c : SourceCache τ) (threads : ℕ → SourceThread) : SourceState τ :=
  ⟨{ c with inflight := c.inflight.erase key }, Function.update (notifyAll threads) thread .outside⟩

/-- The section that records how a resolver call ended. -/
def record (cfg : SourceCacheConfig τ) (thread : ℕ) (call : ℤ × String) (outcome : ResolverOutcome) (now : τ)
    (s : SourceState τ) : TurnAnswer × SourceState τ :=
  let key := keyOf lower call
  match outcome with
  | .failed error => (.failed error, land thread key (storeFailureLocked cfg key error now s.cache) s.threads)
  | .invalid => (.raised "TypeError", land thread key s.cache s.threads)
  | .raised exception => (.raised exception, land thread key s.cache s.threads)
  | .returned result =>
    match storeSuccessLocked readFloat cfg key result now s.cache with
    | none => (.raised "ValueError", ⟨s.cache, Function.update s.threads thread .outside⟩)
    | some c => (.returned result, land thread key c s.threads)

/-- One step of one thread. -/
def step (cfg : SourceCacheConfig τ) (s : SourceState τ) : Turn τ → TurnAnswer × SourceState τ
  | .enter thread call now =>
    if s.threads thread = .outside then attempt lower cfg thread call now s else (.refused, s)
  | .wake thread call now =>
    if s.threads thread = .waiting call true then attempt lower cfg thread call now s else (.refused, s)
  | .resolverEnds thread call outcome =>
    if s.threads thread = .resolving call then
      (.ended, ⟨s.cache, Function.update s.threads thread (.resolved call outcome)⟩)
    else (.refused, s)
  | .record thread call outcome now =>
    if s.threads thread = .resolved call outcome then record readFloat lower cfg thread call outcome now s
    else (.refused, s)

/-- `VerifiedSourceCache.__init__`, before any thread came. -/
def new : SourceState τ := ⟨⟨OrderedDict.empty, OrderedDict.empty, ∅, 0⟩, fun _ => .outside⟩

/-- The cache under any interleaving of `resolve` calls. -/
def machine (cfg : SourceCacheConfig τ) : Machine (SourceState τ) (Turn τ) TurnAnswer :=
  ⟨new, step readFloat lower cfg⟩

end VerifiedSourceCache

end Lucent.Hosted
