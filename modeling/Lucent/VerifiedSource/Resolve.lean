import Lucent.VerifiedSource.Client
import Lucent.VerifiedSource.Dispatch

/-!
# Lucent.VerifiedSource.Resolve — `resolve_verified_source` of `lucent/verified_source.py`

The readers of JSON-RPC results, the loop over EIP-1967 proxies, the Sourcify binding with its ABI checks, and the
resolution made of them.
-/

namespace Lucent.VerifiedSource

open Lucent.Lib

def eip1967ImplementationSlot : String := "0x360894a13ba1a3210667c828492db98dca3e2076cc3735a920a3ca505d382bbc"
def eip1967BeaconSlot : String := "0xa3f0ad74e5423aebfd80d3ef4346578335a9a72aeaee59ff6cb3582b35133d50"
def beaconImplementationSelector : String := "0x5c60da1b"

/-! ## Readers -/

/-- What follows `0x`. -/
def afterHexPrefix (text : String) : Option (List Char) :=
  match text.toList with
  | '0' :: 'x' :: digits => some digits
  | _ => none

/-- `ADDRESS_RE.fullmatch` and `HASH_RE.fullmatch`: `0x` and `n` hex digits. -/
def isHexWord (n : ℕ) (text : String) : Bool :=
  (afterHexPrefix text).any (fun digits => digits.length == n && digits.all isHex)

/-- `HEX_DATA_RE.fullmatch`: `0x` and whole bytes, two hex digits each. -/
def isHexData (text : String) : Bool :=
  (afterHexPrefix text).any (fun digits => digits.length % 2 == 0 && digits.all isHex)

/-- `HEX_QUANTITY_RE.fullmatch`. -/
def isHexQuantity (text : String) : Bool :=
  (afterHexPrefix text).any (fun digits =>
    digits == ['0'] || (digits.all isHex && digits.head?.any (fun c => c != '0')))

/-- `hex`. -/
def hexTag (n : ℕ) : String := "0x" ++ natHex n

/-- `_normalize_chain_id`. -/
def normalizeChainId : Json → Except VerifiedSourceError ℤ
  | .int value => do
    rejectIf (value < 1 ∨ value > 2 ^ 63 - 1) ⟨"INVALID_CHAIN_ID", "chain_id is outside the supported numeric range"⟩
    rejectIf (value ∉ rpcChains) ⟨"UNSUPPORTED_CHAIN", "chain_id is not enabled for verified resolution"⟩
    return value
  | _ => .error ⟨"INVALID_CHAIN_ID", "chain_id must be a positive integer"⟩

/-- `_normalize_address`, of a member that may be absent. -/
def normalizeAddress : Option Json → Except VerifiedSourceError String
  | some (.str value) => do
    rejectIf (isHexWord 40 value = false) ⟨"INVALID_ADDRESS", "address must be exactly 20 hexadecimal bytes"⟩
    return lowerAscii value
  | _ => .error ⟨"INVALID_ADDRESS", "address must be exactly 20 hexadecimal bytes"⟩

/-- `_quantity`. -/
def quantity : Option Json → Except VerifiedSourceError (ℕ × String)
  | some (.str value) => do
    rejectIf (value.length > 66 ∨ isHexQuantity value = false)
      ⟨"INVALID_RPC_RESPONSE", "JSON-RPC quantity was malformed"⟩
    let number := hexNat (value.toList.drop 2)
    return (number, hexTag number)
  | _ => .error ⟨"INVALID_RPC_RESPONSE", "JSON-RPC quantity was malformed"⟩

/-- `_hash`. -/
def blockHash : Option Json → Except VerifiedSourceError String
  | some (.str value) => do
    rejectIf (isHexWord 64 value = false) ⟨"INVALID_RPC_RESPONSE", "JSON-RPC block hash was malformed"⟩
    return lowerAscii value
  | _ => .error ⟨"INVALID_RPC_RESPONSE", "JSON-RPC block hash was malformed"⟩

/-- `_data`. -/
def dataBytes (maxBytes : ℕ) (fieldName : String) : Option Json → Except VerifiedSourceError Bytes
  | some (.str value) => do
    rejectIf (isHexData value = false) ⟨"INVALID_RPC_RESPONSE", "JSON-RPC " ++ fieldName ++ " was malformed"⟩
    let raw := hexBytes (value.toList.drop 2)
    rejectIf (raw.length > maxBytes)
      ⟨"RPC_RESULT_TOO_LARGE", "JSON-RPC " ++ fieldName ++ " exceeded its size limit"⟩
    return raw
  | _ => .error ⟨"INVALID_RPC_RESPONSE", "JSON-RPC " ++ fieldName ++ " was malformed"⟩

/-- The number, the tag and the hash of a block. -/
def blockMembers (members : List (String × Json)) : Except VerifiedSourceError (BlockIdentity × String) := do
  let (number, blockTag) ← quantity (Json.lookup "number" members)
  let hash ← blockHash (Json.lookup "hash" members)
  return (⟨number, hash⟩, blockTag)

/-- The block of a document; any defect of it is `failure`. -/
def blockIdentity (failure : VerifiedSourceError) : Json → Except VerifiedSourceError (BlockIdentity × String)
  | .obj members => (blockMembers members).mapError (fun _ => failure)
  | _ => .error failure

/-- `_finalized_block`. -/
def finalizedBlock (net : Network) (chainId : ℤ) : Resolver (BlockIdentity × String) := do
  let value ← rpcCall net chainId "eth_getBlockByNumber" [.str "finalized", .bool false]
  stateless (blockIdentity ⟨"FINALIZED_BLOCK_UNAVAILABLE", "a finalized block was not available"⟩ value)

/-- `_assert_canonical_block`. -/
def assertCanonicalBlock (net : Network) (chainId : ℤ) (block : BlockIdentity) (blockTag : String) : Resolver Unit := do
  let value ← rpcCall net chainId "eth_getBlockByNumber" [.str blockTag, .bool false]
  let (again, _) ← stateless (blockIdentity
    ⟨"FINALIZED_BLOCK_CHANGED", "the pinned finalized block could not be confirmed"⟩ value)
  stateless (rejectIf (again.number ≠ block.number ∨ again.hash ≠ block.hash)
    ⟨"FINALIZED_BLOCK_CHANGED", "the pinned finalized block changed"⟩)

/-- `CodeIdentity` of the bytes of an address. -/
def identityOf (net : Network) (address : String) (raw : Bytes) : CodeIdentity :=
  ⟨address, "0x" ++ hexText (net.keccak raw), raw.length⟩

/-- `_code_identity`. -/
def codeIdentity (net : Network) (chainId : ℤ) (address blockTag : String) : Resolver (CodeIdentity × Bytes) := do
  let value ← rpcCall net chainId "eth_getCode" [.str address, .str blockTag]
  let raw ← stateless (dataBytes maxCodeBytes "bytecode" (some value))
  stateless (rejectIf (raw = [])
    ⟨"NO_CONTRACT_CODE", "contract bytecode was not available at the finalized block"⟩)
  return (identityOf net address raw, raw)

/-- The address in a word. -/
def wordAddress (raw : Bytes) : String := "0x" ++ hexText (raw.drop 12)

/-- `_slot_address`. -/
def slotAddress (net : Network) (chainId : ℤ) (address slot blockTag : String) : Resolver (Option String) := do
  let value ← rpcCall net chainId "eth_getStorageAt" [.str address, .str slot, .str blockTag]
  let raw ← stateless (dataBytes 32 "storage word" (some value))
  stateless (rejectIf (raw.length ≠ 32 ∨ (raw.take 12).any (· != 0))
    ⟨"INVALID_PROXY_SLOT", "an EIP-1967 address slot was malformed"⟩)
  return if (raw.drop 12).any (· != 0) then some (wordAddress raw) else none

/-- `_beacon_implementation`. -/
def beaconImplementation (net : Network) (chainId : ℤ) (beacon blockTag : String) : Resolver String := do
  let value ← rpcCall net chainId "eth_call"
    [.obj [("to", .str beacon), ("data", .str beaconImplementationSelector)], .str blockTag]
  let raw ← stateless (dataBytes 32 "beacon result" (some value))
  stateless (rejectIf (raw.length ≠ 32 ∨ (raw.take 12).any (· != 0) ∨ !(raw.drop 12).any (· != 0))
    ⟨"INVALID_PROXY_BEACON", "the EIP-1967 beacon returned no implementation"⟩)
  return wordAddress raw

/-! ## Proxies -/

/-- What `_resolve_proxy_chain` returns. -/
structure ProxyChain where
  target : CodeIdentity
  targetCode : Bytes
  effective : CodeIdentity
  effectiveCode : Bytes
  hops : List ProxyHop

def proxyCycle : VerifiedSourceError := ⟨"PROXY_CYCLE", "the EIP-1967 implementation chain contained a cycle"⟩

/-- The hop of a turn that found a populated slot, and where it leads. -/
def proxyHop (net : Network) (chainId : ℤ) (blockTag : String) (visited : List String) (identity : CodeIdentity)
    (implementation beaconAddress : Option String) : Resolver ProxyHop :=
  match beaconAddress with
  | none => return ⟨identity, .eip1967Implementation, implementation.getD "", none⟩
  | some beacon => do
    stateless (rejectIf (beacon ∈ visited) proxyCycle)
    let (beaconIdentity, _) ← codeIdentity net chainId beacon blockTag
    let implementation ← beaconImplementation net chainId beacon blockTag
    stateless (rejectIf (implementation = beacon) proxyCycle)
    return ⟨identity, .eip1967Beacon, implementation, some beaconIdentity⟩

/-- What a turn of the loop has read: a contract with its code, and its two slots. -/
structure ProxyTurn where
  identity : CodeIdentity
  code : Bytes
  implementation : Option String
  beaconAddress : Option String

/-- The first half of a turn of the loop in `_resolve_proxy_chain`. -/
def proxyTurn (net : Network) (chainId : ℤ) (blockTag : String) (visited : List String) (current : String) :
    Resolver ProxyTurn := do
  stateless (rejectIf (current ∈ visited) proxyCycle)
  let (identity, code) ← codeIdentity net chainId current blockTag
  let implementation ← slotAddress net chainId current eip1967ImplementationSlot blockTag
  let beaconAddress ← slotAddress net chainId current eip1967BeaconSlot blockTag
  stateless (rejectIf (implementation.isSome ∧ beaconAddress.isSome)
    ⟨"AMBIGUOUS_PROXY", "both EIP-1967 implementation mechanisms were populated"⟩)
  return ⟨identity, code, implementation, beaconAddress⟩

/-- The end of the loop, at a contract without a populated slot. -/
def proxyEnd (target : CodeIdentity × Bytes) (hops : List ProxyHop) (turn : ProxyTurn) : Resolver ProxyChain := do
  stateless (rejectIf (hops = [] ∧ hasUnsupportedDispatch target.2)
    ⟨"UNSUPPORTED_DISPATCH", "target bytecode uses an unsupported dynamic dispatch mechanism"⟩)
  return ⟨target.1, target.2, turn.identity, turn.code, hops⟩

/-- The loop of `_resolve_proxy_chain`, with `MAX_PROXY_HOPS - len(hops)` hops left; the target is that of the first
turn. -/
def proxyLoop (net : Network) (chainId : ℤ) (blockTag : String) :
    ℕ → List String → Option (CodeIdentity × Bytes) → List ProxyHop → String → Resolver ProxyChain
  | 0, visited, target, hops, current => do
    let turn ← proxyTurn net chainId blockTag visited current
    if turn.implementation = none ∧ turn.beaconAddress = none then
      proxyEnd (target.getD (turn.identity, turn.code)) hops turn
    else stateless (.error ⟨"PROXY_DEPTH_EXCEEDED", "the EIP-1967 proxy chain was too deep"⟩)
  | left + 1, visited, target, hops, current => do
    let turn ← proxyTurn net chainId blockTag visited current
    if turn.implementation = none ∧ turn.beaconAddress = none then
      proxyEnd (target.getD (turn.identity, turn.code)) hops turn
    else do
      let hop ← proxyHop net chainId blockTag (current :: visited) turn.identity turn.implementation turn.beaconAddress
      proxyLoop net chainId blockTag left (current :: visited) (some (target.getD (turn.identity, turn.code)))
        (hops ++ [hop]) hop.implementationAddress

/-- `_resolve_proxy_chain`. -/
def resolveProxyChain (net : Network) (chainId : ℤ) (address blockTag : String) : Resolver ProxyChain :=
  proxyLoop net chainId blockTag maxProxyHops [] none [] address

/-! ## The verified ABI -/

/-- `ABI_KINDS`, `NAMED_ABI_KINDS`. -/
def abiKinds : List String := ["constructor", "error", "event", "fallback", "function", "receive"]
def namedAbiKinds : List String := ["error", "event", "function"]

def invalidAbi (message : String) : VerifiedSourceError := ⟨"INVALID_VERIFIED_ABI", message⟩

/-- The type of a parameter, if it is one. -/
def parameterType (members : List (String × Json)) : Option String :=
  match Json.lookup "type" members with
  | some (.str abiType) => if abiType.isEmpty || abiType.length > 256 then none else some abiType
  | _ => none

mutual

/-- `_validate_abi_parameter`. -/
def validateAbiParameter : String → Json → Except VerifiedSourceError Unit
  | scope, .obj members => do
    rejectIf (!((Json.lookup "name" members).getD (.str "")).str?.isSome) (invalidAbi (scope ++ " name was invalid"))
    match parameterType members with
    | none => .error (invalidAbi (scope ++ " type was invalid"))
    | some abiType => if hasPrefix abiType "tuple" then validateComponents scope members else .ok ()
  | scope, .null => .error (invalidAbi (scope ++ " was not an object"))
  | scope, .bool _ => .error (invalidAbi (scope ++ " was not an object"))
  | scope, .int _ => .error (invalidAbi (scope ++ " was not an object"))
  | scope, .float _ => .error (invalidAbi (scope ++ " was not an object"))
  | scope, .str _ => .error (invalidAbi (scope ++ " was not an object"))
  | scope, .arr _ => .error (invalidAbi (scope ++ " was not an object"))
termination_by structural _ v => v

/-- The components of a tuple, looked up among the members. -/
def validateComponents : String → List (String × Json) → Except VerifiedSourceError Unit
  | scope, [] => .error (invalidAbi (scope ++ " tuple components were invalid"))
  | scope, m :: rest => if m.1 = "components" then validateMember scope m else validateComponents scope rest
termination_by structural _ v => v

def validateMember : String → String × Json → Except VerifiedSourceError Unit
  | scope, (_, v) => validateTuple scope v
termination_by structural _ v => v

def validateTuple : String → Json → Except VerifiedSourceError Unit
  | scope, .arr components => do
    rejectIf (components.length > maxAbiEntries) (invalidAbi (scope ++ " tuple components were invalid"))
    validateParameters (scope ++ " tuple component") components
  | scope, .null => .error (invalidAbi (scope ++ " tuple components were invalid"))
  | scope, .bool _ => .error (invalidAbi (scope ++ " tuple components were invalid"))
  | scope, .int _ => .error (invalidAbi (scope ++ " tuple components were invalid"))
  | scope, .float _ => .error (invalidAbi (scope ++ " tuple components were invalid"))
  | scope, .str _ => .error (invalidAbi (scope ++ " tuple components were invalid"))
  | scope, .obj _ => .error (invalidAbi (scope ++ " tuple components were invalid"))
termination_by structural _ v => v

/-- `_validate_abi_parameter` of one parameter after the other. -/
def validateParameters : String → List Json → Except VerifiedSourceError Unit
  | _, [] => .ok ()
  | scope, v :: rest => do
    validateAbiParameter scope v
    validateParameters scope rest
termination_by structural _ v => v

end

/-- One turn over `inputs` and `outputs`. -/
def validateEntryField (members : List (String × Json)) (fieldName : String) : Except VerifiedSourceError Unit :=
  match Json.lookup fieldName members with
  | none => .ok ()
  | some (.arr parameters) => do
    rejectIf (parameters.length > maxAbiEntries) (invalidAbi "verified ABI parameters were invalid")
    validateParameters "verified ABI parameter" parameters
  | some _ => .error (invalidAbi "verified ABI parameters were invalid")

/-- One turn over the entries. -/
def validateAbiEntry : Json → Except VerifiedSourceError Unit
  | .obj members => do
    let kind ← ((Json.lookup "type" members).bind Json.str?).elim
      (.error (invalidAbi "verified ABI entry type was invalid")) .ok
    rejectIf (kind ∉ abiKinds) (invalidAbi "verified ABI entry type was invalid")
    rejectIf (kind ∈ namedAbiKinds ∧ !((Json.lookup "name" members).bind Json.str?).any
      (fun name => !name.isEmpty && name.length ≤ 512)) (invalidAbi "verified ABI entry name was invalid")
    validateEntryField members "inputs"
    validateEntryField members "outputs"
  | _ => .error (invalidAbi "verified ABI entry was not an object")

/-- `_validate_abi`: the canonical JSON. -/
def validateAbi : Option Json → Except VerifiedSourceError Bytes
  | some (.arr entries) => do
    rejectIf (entries.length > maxAbiEntries) (invalidAbi "verified ABI was not a bounded array")
    entries.forM validateAbiEntry
    let encoded ← (Json.dumps false true (.arr entries)).elim
      (.error (invalidAbi "verified ABI was not canonical JSON")) .ok
    rejectIf ((utf8Chars encoded).length > maxAbiBytes) (invalidAbi "verified ABI exceeded its encoded size limit")
    return utf8Chars encoded
  | _ => .error (invalidAbi "verified ABI was not a bounded array")

/-! ## Sourcify -/

/-- `VERIFIED_MATCHES`. -/
def verifiedMatches : List String := ["exact_match", "match"]

/-- `SOURCIFY_CONTRACT`. -/
def sourcifyContract (chainId : ℤ) (address : String) : String :=
  "https://sourcify.dev/server/v2/contract/" ++ toString chainId ++ "/" ++ address ++
    "?fields=abi,runtimeBytecode.onchainBytecode"

/-- `response_chain in (chain_id, str(chain_id))`. -/
def namesChain (chainId : ℤ) : Option Json → Bool
  | some (.int n) => n == chainId
  | some (.str s) => s == toString chainId
  | _ => false

/-- A member that is one of the verified matches. -/
def verifiedMatch (members : List (String × Json)) (key : String) : Option String :=
  ((Json.lookup key members).bind Json.str?).filter (fun text => verifiedMatches.contains text)

def identityMismatch : VerifiedSourceError := ⟨"SOURCE_IDENTITY_MISMATCH", "verified source address did not match"⟩

/-- The bytecode that the answer recorded. -/
def recordedBytecode : Option Json → Except VerifiedSourceError Bytes
  | some (.obj runtime) => dataBytes maxCodeBytes "verified runtime bytecode" (Json.lookup "onchainBytecode" runtime)
  | _ => .error ⟨"INVALID_SOURCE_RESPONSE", "verified runtime bytecode was missing"⟩

/-- What `_sourcify_binding` makes of the answer. -/
def readBinding (net : Network) (chainId : ℤ) (contract : CodeIdentity) (runtimeCode : Bytes) :
    Json → Except VerifiedSourceError (String × String × Bytes)
  | .obj members => do
    rejectIf (namesChain chainId (Json.lookup "chainId" members) = false)
      ⟨"SOURCE_IDENTITY_MISMATCH", "verified source chain identity did not match"⟩
    let responseAddress ← (normalizeAddress (Json.lookup "address" members)).mapError (fun _ => identityMismatch)
    rejectIf (responseAddress ≠ contract.address) identityMismatch
    rejectIf (verifiedMatch members "match" = none)
      ⟨"SOURCE_NOT_RUNTIME_VERIFIED", "source did not have a runtime verification"⟩
    let runtimeMatch ← (verifiedMatch members "runtimeMatch").elim
      (.error ⟨"SOURCE_NOT_RUNTIME_VERIFIED", "source did not have a runtime verification"⟩) .ok
    let recordedCode ← recordedBytecode (Json.lookup "runtimeBytecode" members)
    rejectIf (recordedCode ≠ runtimeCode)
      ⟨"SOURCE_CODE_MISMATCH", "verified source bytecode did not match the finalized runtime"⟩
    let abiJson ← validateAbi (Json.lookup "abi" members)
    return (runtimeMatch, "sha256:" ++ hexText (net.sha256 abiJson), abiJson)
  | _ => .error ⟨"INVALID_SOURCE_RESPONSE", "verified source response was not an object"⟩

/-- `_sourcify_binding`. -/
def sourcifyBinding (net : Network) (chainId : ℤ) (contract : CodeIdentity) (runtimeCode : Bytes) :
    Resolver (String × String × Bytes) := do
  let response ← httpJson net "GET" (sourcifyContract chainId contract.address) none sourcifyResponseBytes
    (some "SOURCE_NOT_VERIFIED")
  stateless (readBinding net chainId contract runtimeCode response)

/-! ## The resolution -/

/-- `resolve_verified_source`, from the clients on. -/
def resolveWith (net : Network) (chainId : ℤ) (address : String) : Resolver VerifiedSourceResult := do
  let value ← rpcCall net chainId "eth_chainId" []
  let (reportedChain, _) ← stateless (quantity (some value))
  stateless (rejectIf ((reportedChain : ℤ) ≠ chainId)
    ⟨"RPC_CHAIN_MISMATCH", "the allowlisted RPC reported a different chain"⟩)
  let (block, blockTag) ← finalizedBlock net chainId
  let chain ← resolveProxyChain net chainId address blockTag
  let (verificationMatch, abiHash, abiJson) ← sourcifyBinding net chainId chain.effective chain.effectiveCode
  assertCanonicalBlock net chainId block blockTag
  return {
    chainId, address, block
    target := chain.target
    effectiveContract := chain.effective
    proxyChain := chain.hops
    verificationMatch, abiHash, abiJson }

/-- `resolve_verified_source`, with what went over the wire. -/
def resolveVerifiedSource (net : Network) (chainId address : Json) :
    Except VerifiedSourceError (VerifiedSourceResult × List Exchange) := do
  let normalizedChain ← normalizeChainId chainId
  let normalizedAddress ← normalizeAddress (some address)
  match resolveWith net normalizedChain normalizedAddress ⟨0, 1, 0, []⟩ with
  | .ok result client => .ok (result, client.exchanges)
  | .error failure _ => .error failure

end Lucent.VerifiedSource
