import Lucent.Lib.Loads

/-!
# Lucent.VerifiedSource.Result — what `lucent/verified_source.py` returns and raises
-/

namespace Lucent.VerifiedSource

open Lucent.Lib

/-- `VerifiedSourceError`. -/
structure VerifiedSourceError where
  code : String
  message : String
deriving DecidableEq

/-- `BlockIdentity`. -/
structure BlockIdentity where
  number : ℕ
  hash : String
deriving DecidableEq

/-- `CodeIdentity`. -/
structure CodeIdentity where
  address : String
  keccak256 : String
  sizeBytes : ℕ
deriving DecidableEq

/-- The kind of a hop: `eip1967_implementation` or `eip1967_beacon`. -/
inductive ProxyKind
  | eip1967Implementation
  | eip1967Beacon
deriving DecidableEq

/-- `ProxyHop`. -/
structure ProxyHop where
  proxy : CodeIdentity
  kind : ProxyKind
  implementationAddress : String
  beacon : Option CodeIdentity
deriving DecidableEq

/-- `VerifiedSourceResult`. -/
structure VerifiedSourceResult where
  chainId : ℤ
  address : String
  block : BlockIdentity
  target : CodeIdentity
  effectiveContract : CodeIdentity
  proxyChain : List ProxyHop
  verificationMatch : String
  abiHash : String
  abiJson : Bytes
deriving DecidableEq

/-- The `abi` property: the canonical JSON, decoded. -/
def VerifiedSourceResult.abi (readFloat : List Char → PyFloat) (r : VerifiedSourceResult) : Option Json :=
  Json.loads readFloat r.abiJson

/-! ## `to_dict` -/

def BlockIdentity.toDict (b : BlockIdentity) : Json := .obj [("number", .int b.number), ("hash", .str b.hash)]

def CodeIdentity.toDict (c : CodeIdentity) : Json :=
  .obj [("address", .str c.address), ("keccak256", .str c.keccak256), ("size_bytes", .int c.sizeBytes)]

def ProxyKind.text : ProxyKind → String
  | .eip1967Implementation => "eip1967_implementation"
  | .eip1967Beacon => "eip1967_beacon"

def ProxyHop.toDict (hop : ProxyHop) : Json :=
  .obj ([("proxy", hop.proxy.toDict), ("kind", .str hop.kind.text),
    ("implementation_address", .str hop.implementationAddress)] ++
    (hop.beacon.map (fun beacon => ("beacon", beacon.toDict))).toList)

def VerifiedSourceResult.toDict (readFloat : List Char → PyFloat) (r : VerifiedSourceResult) : Option Json := do
  let abi ← r.abi readFloat
  return .obj [("chain_id", .int r.chainId), ("address", .str r.address), ("block", r.block.toDict),
    ("target", r.target.toDict), ("proxy_chain", .arr (r.proxyChain.map ProxyHop.toDict)),
    ("abi_binding", .obj [("provider", .str "sourcify_v2"), ("address", .str r.effectiveContract.address),
      ("runtime_code_hash", .str r.effectiveContract.keccak256),
      ("runtime_code_size_bytes", .int r.effectiveContract.sizeBytes), ("match", .str r.verificationMatch),
      ("abi_hash", .str r.abiHash), ("abi", abi)])]

/-- `cache_size_bytes`, `none` where it raises. -/
def VerifiedSourceResult.cacheSizeBytes (readFloat : List Char → PyFloat) (r : VerifiedSourceResult) : Option ℕ := do
  let document ← r.toDict readFloat
  let encoded ← document.dumps false true
  return (utf8Chars encoded).length

/-- The chain ids of `RPC_ENDPOINTS`. -/
def rpcChains : List ℤ := [1, 8453]

end Lucent.VerifiedSource
