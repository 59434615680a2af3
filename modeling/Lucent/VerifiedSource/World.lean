import Lucent.Lib.Exactly
import Lucent.VerifiedSource.Provenance

/-!
# Lucent.VerifiedSource.World — what a resolution finds out

A world answers each question one way: what the checks of the clients let through depends on the question, not on the
request, its headers, its number or its time.  Against a network that serves a world, the resolver returns exactly the
resolution of that world (`Lucent.VerifiedSource.Completeness`).

* `Question`, `World`, `Serves`: the questions of the resolver, and a network that answers them.
* `Route`, `Acyclic`, `Resolution`: the resolution as a relation over the world, without requests.
* `holds_iff`: the check of a storage word, turned around.
-/

namespace Lucent.VerifiedSource

open Lucent.Lib

/-! ## Worlds -/

/-- What the resolver asks over JSON-RPC. -/
inductive Question
  | chainId
  | block (tag : String)
  | code (address blockTag : String)
  | storage (address slot blockTag : String)
  | implementation (beacon blockTag : String)

def Question.method : Question → String
  | .chainId => "eth_chainId"
  | .block _ => "eth_getBlockByNumber"
  | .code _ _ => "eth_getCode"
  | .storage _ _ _ => "eth_getStorageAt"
  | .implementation _ _ => "eth_call"

def Question.params : Question → List Json
  | .chainId => []
  | .block tag => [.str tag, .bool false]
  | .code address blockTag => [.str address, .str blockTag]
  | .storage address slot blockTag => [.str address, .str slot, .str blockTag]
  | .implementation beacon blockTag =>
    [.obj [("to", .str beacon), ("data", .str beaconImplementationSelector)], .str blockTag]

/-- The results of the questions, and the records of Sourcify by their address; `none` where there is no result. -/
structure World where
  answer : ℤ → Question → Option Json
  source : String → Option Json

/-- What the checks let through of the answer to a request. -/
def received (net : Network) (maxResponseBytes : ℕ) (notFoundCode : Option String) (n : ℕ) (request : HttpRequest) :
    Except VerifiedSourceError Json := do
  let response ← answered (net.transport n request)
  readResponse net maxResponseBytes notFoundCode response

/-- The network answers in time, and the checks let through what the world answers. -/
structure Serves (net : Network) (world : World) : Prop where
  in_time : ∀ n ≤ maxRpcCalls, net.clock n < net.start + 24
  rpc : ∀ n ≤ maxRpcCalls, ∀ id ≤ maxRpcCalls, ∀ chainId ∈ rpcChains, ∀ (question : Question) (request : HttpRequest),
    request.method = "POST" → request.url = rpcEndpoint chainId →
    request.body = some (rpcBody id question.method question.params) → ∀ result,
    received net rpcResponseBytes none n request >>= rpcResult id = .ok result ↔
      world.answer chainId question = some result
  source : ∀ n ≤ maxRpcCalls, ∀ request : HttpRequest, request.method = "GET" → request.body = none → ∀ document,
    received net sourcifyResponseBytes (some "SOURCE_NOT_VERIFIED") n request = .ok document ↔
      world.source request.url = some document

/-! ## Resolutions -/

section Resolutions

variable (net : Network) (world : World) (chainId : ℤ) (blockTag : String)

/-- The code of an address. -/
def CodeAt (address : String) (identity : CodeIdentity) (raw : Bytes) : Prop :=
  ∃ value, world.answer chainId (.code address blockTag) = some value ∧
    dataBytes maxCodeBytes "bytecode" (some value) = .ok raw ∧ raw ≠ [] ∧ identity = identityOf net address raw

/-- What a slot of an address holds. -/
def SlotAt (address slot : String) (held : Option String) : Prop :=
  ∃ value word, world.answer chainId (.storage address slot blockTag) = some value ∧
    dataBytes 32 "storage word" (some value) = .ok word ∧ Holds word held

/-- What a beacon tells. -/
def BeaconAt (beacon implementation : String) : Prop :=
  ∃ value word, world.answer chainId (.implementation beacon blockTag) = some value ∧
    dataBytes 32 "beacon result" (some value) = .ok word ∧ Holds word (some implementation)

/-- The block of a tag. -/
def BlockAt (tag : String) (block : BlockIdentity) : Prop :=
  ∃ members canonical, world.answer chainId (.block tag) = some (.obj members) ∧
    quantity (Json.lookup "number" members) = .ok (block.number, canonical) ∧
    blockHash (Json.lookup "hash" members) = .ok block.hash

/-- The way from an address to the contract it stands for: over an implementation slot, over a beacon, or nowhere. -/
inductive Route : String → List ProxyHop → CodeIdentity → Bytes → Prop
  | here {address identity code} : CodeAt net world chainId blockTag address identity code →
      SlotAt world chainId blockTag address eip1967ImplementationSlot none →
      SlotAt world chainId blockTag address eip1967BeaconSlot none → Route address [] identity code
  | implementation {address identity code next hops effective effectiveCode} :
      CodeAt net world chainId blockTag address identity code →
      SlotAt world chainId blockTag address eip1967ImplementationSlot (some next) →
      SlotAt world chainId blockTag address eip1967BeaconSlot none →
      Route next hops effective effectiveCode →
      Route address (⟨identity, .eip1967Implementation, next, none⟩ :: hops) effective effectiveCode
  | beacon {address identity code beacon beaconIdentity beaconCode next hops effective effectiveCode} :
      CodeAt net world chainId blockTag address identity code →
      SlotAt world chainId blockTag address eip1967ImplementationSlot none →
      SlotAt world chainId blockTag address eip1967BeaconSlot (some beacon) →
      CodeAt net world chainId blockTag beacon beaconIdentity beaconCode →
      BeaconAt world chainId blockTag beacon next →
      Route next hops effective effectiveCode →
      Route address (⟨identity, .eip1967Beacon, next, some beaconIdentity⟩ :: hops) effective effectiveCode

end Resolutions

/-- No contract of the way comes twice, and no beacon is a contract of the way up to it, or its own implementation. -/
def Acyclic : List String → List ProxyHop → CodeIdentity → Prop
  | visited, [], effective => effective.address ∉ visited
  | visited, hop :: hops, effective => hop.proxy.address ∉ visited ∧
      (∀ beacon, hop.beacon = some beacon → beacon.address ∉ hop.proxy.address :: visited ∧
        hop.implementationAddress ≠ beacon.address) ∧
      Acyclic (hop.proxy.address :: visited) hops effective

/-- The first contract of a way. -/
def firstContract : List ProxyHop → CodeIdentity → CodeIdentity
  | [], effective => effective
  | hop :: _, _ => hop.proxy

/-- **A resolution** of a chain and an address, as a relation over the world. -/
structure Resolution (net : Network) (world : World) (chainId address : Json) (result : VerifiedSourceResult)
    (effectiveCode : Bytes) : Prop where
  requested_chain : chainId = .int result.chainId ∧ result.chainId ∈ rpcChains
  requested_address : ∃ text, address = .str text ∧ isHexWord 40 text = true ∧ result.address = lowerAscii text
  reported_chain : ∃ value number canonical, world.answer result.chainId .chainId = some value ∧
    quantity (some value) = .ok (number, canonical) ∧ (number : ℤ) = result.chainId
  finalized : BlockAt world result.chainId "finalized" result.block
  route : Route net world result.chainId (hexTag result.block.number) result.address result.proxyChain
    result.effectiveContract effectiveCode
  acyclic : Acyclic [] result.proxyChain result.effectiveContract
  bounded : result.proxyChain.length ≤ maxProxyHops
  dispatch : result.proxyChain = [] → hasUnsupportedDispatch effectiveCode = false
  target : result.target = firstContract result.proxyChain result.effectiveContract
  source : ∃ members, world.source (sourcifyContract result.chainId result.effectiveContract.address) =
      some (.obj members) ∧
    Recorded net result.chainId result.effectiveContract effectiveCode result.verificationMatch result.abiHash
      result.abiJson members
  unchanged : BlockAt world result.chainId (hexTag result.block.number) result.block

/-! ## The checks, both ways -/

section Checks

variable {net : Network} {chainId : ℤ}

theorem any_ne_zero_replicate {n : ℕ} {l : Bytes} (h : l ≠ List.replicate n 0) (hlen : l.length = n) :
    l.any (· != 0) = true := by
  by_contra hall
  have hzero := any_ne_zero_eq_false (by simpa using hall : l.any (· != 0) = false)
  exact h (hlen ▸ hzero)

/-- A word holds something exactly when it has the size and the zeros, and then what the reader takes out of it. -/
theorem holds_iff {raw : Bytes} {held : Option String} :
    Holds raw held ↔ ¬ (raw.length ≠ 32 ∨ (raw.take 12).any (· != 0) = true) ∧
      held = if (raw.drop 12).any (· != 0) then some (wordAddress raw) else none := by
  constructor
  · intro h
    cases held with
    | none =>
      obtain rfl : raw = List.replicate 32 0 := h
      exact ⟨by decide, by decide⟩
    | some address =>
      obtain ⟨body, rfl, hlen, hne, rfl⟩ := h
      have htake : (List.replicate 12 0 ++ body).take 12 = List.replicate 12 (0 : UInt8) := by simp
      have hdrop : (List.replicate 12 0 ++ body).drop 12 = body := by simp
      refine ⟨?_, ?_⟩
      · rw [htake]
        simp [hlen]
      · rw [wordAddress, hdrop, if_pos (any_ne_zero_replicate hne hlen)]
  · rintro ⟨hshape, rfl⟩
    obtain ⟨hlen, hzero⟩ := not_or.mp hshape
    exact holds_of_word (not_ne_iff.mp hlen) (by simpa using hzero)

theorem holds_some_iff {raw : Bytes} {address : String} :
    Holds raw (some address) ↔
      ¬ (raw.length ≠ 32 ∨ (raw.take 12).any (· != 0) = true ∨ (!(raw.drop 12).any (· != 0)) = true) ∧
        wordAddress raw = address := by
  rw [holds_iff]
  by_cases hbody : (raw.drop 12).any (· != 0) = true
  · rw [if_pos hbody, Option.some_inj, hbody, Bool.not_true, or_iff_left Bool.false_ne_true, eq_comm (a := address)]
  · rw [if_neg hbody, Bool.eq_false_iff.mpr hbody, Bool.not_false]
    exact ⟨fun h => absurd h.2 (Option.some_ne_none _), fun h => absurd (.inr (.inr rfl)) h.1⟩

end Checks

end Lucent.VerifiedSource
