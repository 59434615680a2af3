import Lucent.Lib.Checked
import Lucent.Lib.Json

/-!
# Lucent.Preflight.Abi — the ABI helpers of `scripts/common.py`

`validateAbi` checks an ABI as `validate_abi` does and returns its function entries with the fields the analyzers
read back.  A `ValueError` is its text; `Failure` is what leaves the request handler.

`Env` is what the analysis calls outside the repository: hashing, the ABI codec and type registry, the ABI cache on
disk, and the two text methods whose Unicode tables are not reproduced here.
-/

namespace Lucent.Preflight

open Lucent.Lib

/-- What an analysis raises: a `PreflightInputError`, or any other exception. -/
inductive Failure
  | input (code message : String)
  | other (exception : String)
deriving DecidableEq

/-- A value of the ABI decoder.  Addresses are texts, fixed-point numbers are `other` with their rendering. -/
inductive AbiValue
  | bytes (value : Bytes)
  | bool (value : Bool)
  | int (value : ℤ)
  | str (value : String)
  | seq (items : List AbiValue)
  | other (text : String)

/-- The code the analysis calls. -/
structure Env where
  sha256 : Bytes → Bytes
  keccak : Bytes → Bytes
  /-- `str.lower`. -/
  lower : String → String
  lower_ascii : ∀ s, isAscii s = true → lower s = lowerAscii s
  /-- `repr` of a text. -/
  repr : String → String
  /-- `eth_abi.is_encodable_type`; the text is that of a `ValueError`. -/
  isEncodableType : String → Except String Bool
  /-- `eth_abi.decode(types, data, strict=True)`, `none` for an exception. -/
  abiDecode : List String → Bytes → Option (List AbiValue)
  /-- `eth_abi.encode`, `none` for an exception. -/
  abiEncode : List String → List AbiValue → Option Bytes
  /-- The parsed content of a file in `abi_cache`. -/
  cachedAbi : ℤ → String → Option Json

/-! ## Chain ids, addresses, identifiers -/

def maxChainId : ℤ := 2 ^ 63 - 1
def maxAbiEntries : ℕ := 1024
def maxRemoteBytes : ℕ := 4 * 1024 * 1024

/-- `normalize_chain_id`; an absent value is `None`. -/
def normalizeChainId (value : Option Json) : Except String ℤ :=
  match value with
  | some (.int chainId) =>
    if chainId < 1 ∨ maxChainId < chainId then
      .error ("chain id must be between 1 and " ++ toString maxChainId)
    else .ok chainId
  | _ => .error "chain id must be a positive integer"

/-- `ADDRESS_RE.fullmatch`. -/
def isAddress (text : String) : Bool :=
  match text.toList with
  | '0' :: 'x' :: digits => decide (digits.length = 40) && digits.all isHex
  | _ => false

/-- `normalize_address`. -/
def normalizeAddress (value : Option Json) : Except String String :=
  match value with
  | some (.str text) =>
    if isAddress text then .ok (lowerAscii text)
    else .error "address must be 0x followed by exactly 40 hexadecimal characters"
  | _ => .error "address must be 0x followed by exactly 40 hexadecimal characters"

/-- `SOLIDITY_IDENTIFIER_RE.fullmatch`. -/
def isIdentifier (text : String) : Bool :=
  match text.toList with
  | [] => false
  | first :: rest => (first.isAlpha || first == '_' || first == '$') &&
      rest.all (fun c => c.isAlphanum || c == '_' || c == '$')

/-! ## Types -/

/-- An input of an ABI function, or a component of a tuple. -/
structure AbiInput where
  name : Option String
  type : String
  components : List AbiInput

/-- An ABI entry of type `function`. -/
structure AbiFunction where
  name : String
  inputs : List AbiInput
  stateMutability : Option String
  payable : Option Bool

/-- `ARRAY_TYPE_RE.fullmatch`, with its group. -/
def arrayBase? (abiType : String) : Option String :=
  match abiType.toList.reverse with
  | ']' :: rest =>
    match rest.dropWhile Char.isDigit with
    | '[' :: base => if base.contains '\n' then none else some (String.ofList base.reverse)
    | _ => none
  | _ => none

/-- The type without its array suffixes, of which there are at most as many as characters. -/
def scalarType : ℕ → String → String
  | 0, abiType => abiType
  | fuel + 1, abiType =>
    match arrayBase? abiType with
    | none => abiType
    | some base => scalarType fuel base

mutual

/-- `canonical_type`. -/
def canonicalType : AbiInput → String
  | ⟨_, abiType, components⟩ =>
    if hasPrefix abiType "tuple" then
      "(" ++ joinText "," (canonicalTypes components) ++ ")" ++ dropChars 5 abiType
    else abiType
termination_by structural i => i

def canonicalTypes : List AbiInput → List String
  | [] => []
  | i :: rest => canonicalType i :: canonicalTypes rest
termination_by structural i => i

end

/-- `signature`. -/
def signature (fn : AbiFunction) : String := fn.name ++ "(" ++ joinText "," (canonicalTypes fn.inputs) ++ ")"

/-- `selector`: the first four bytes of the hash. -/
def selector (env : Env) (sig : String) : Bytes := (env.keccak (utf8 sig)).take 4

/-- `signable_functions`, on the function entries of the ABI. -/
def signableFunctions (abi : List AbiFunction) : List AbiFunction :=
  abi.filter (fun fn => !(fn.stateMutability == some "view" || fn.stateMutability == some "pure"))

/-! ## Validation -/

/-- The checks of an input after its components, in the source's order. -/
def checkEncodable (env : Env) (scope : String) (i : AbiInput) : Except String AbiInput :=
  match env.isEncodableType (canonicalType i) with
  | .error message => .error message
  | .ok false =>
    .error (scope ++ " input type " ++ env.repr (canonicalType i) ++ " is not an EVM ABI type")
  | .ok true => .ok i

/-- The name and the type of an input, before its components are looked at. -/
def checkInputHead (scope : String) (members : List (String × Json)) : Except String (Option String × String) :=
  let typed (name : Option String) : Except String (Option String × String) :=
    match Json.lookup "type" members with
    | some (.str abiType) =>
      if ["uint", "int", "fixed", "ufixed", "byte"].contains (scalarType abiType.length abiType) then
        .error (scope ++ " input type must use its canonical EVM ABI spelling")
      else .ok (name, abiType)
    | _ => .error (scope ++ " input type must be a string")
  match Json.lookup "name" members with
  | none => typed none
  | some (.str name) => typed (some name)
  | some _ => .error (scope ++ " input name must be a string")

mutual

/-- `validate_inputs`. -/
def validateInputs (env : Env) : String → Json → Except String (List AbiInput)
  | scope, .arr items => validateItems env scope items
  | scope, .null => .error (scope ++ " inputs must be a JSON array")
  | scope, .bool _ => .error (scope ++ " inputs must be a JSON array")
  | scope, .int _ => .error (scope ++ " inputs must be a JSON array")
  | scope, .float _ => .error (scope ++ " inputs must be a JSON array")
  | scope, .str _ => .error (scope ++ " inputs must be a JSON array")
  | scope, .obj _ => .error (scope ++ " inputs must be a JSON array")
termination_by structural _ v => v

def validateItems (env : Env) : String → List Json → Except String (List AbiInput)
  | _, [] => .ok []
  | scope, item :: rest => do
    let i ← validateInput env scope item
    let others ← validateItems env scope rest
    .ok (i :: others)
termination_by structural _ v => v

def validateInput (env : Env) : String → Json → Except String AbiInput
  | scope, .obj members => do
    let (name, abiType) ← checkInputHead scope members
    let components ←
      if hasPrefix abiType "tuple" then validateComponents env (scope ++ " tuple") members else .ok []
    checkEncodable env scope ⟨name, abiType, components⟩
  | scope, .null => .error (scope ++ " input must be a JSON object")
  | scope, .bool _ => .error (scope ++ " input must be a JSON object")
  | scope, .int _ => .error (scope ++ " input must be a JSON object")
  | scope, .float _ => .error (scope ++ " input must be a JSON object")
  | scope, .str _ => .error (scope ++ " input must be a JSON object")
  | scope, .arr _ => .error (scope ++ " input must be a JSON object")
termination_by structural _ v => v

/-- `validate_inputs` on the `components` member. -/
def validateComponents (env : Env) : String → List (String × Json) → Except String (List AbiInput)
  | scope, [] => .error (scope ++ " inputs must be a JSON array")
  | scope, m :: rest =>
    if m.1 = "components" then validateMember env scope m else validateComponents env scope rest
termination_by structural _ v => v

def validateMember (env : Env) : String → String × Json → Except String (List AbiInput)
  | scope, (_, v) => validateInputs env scope v
termination_by structural _ v => v

end

/-- One entry of `validate_abi`; an entry of another type is `none`. -/
def validateEntry (env : Env) (entry : Json) : Except String (Option AbiFunction) :=
  if !(entry.get? "type").any (Json.isStr "function") then .ok none
  else
    match entry.get? "name" with
    | some (.str name) =>
      if !isIdentifier name then .error "ABI function name must be a Solidity identifier"
      else do
        let scope := "ABI function " ++ env.repr name
        let inputs ← validateInputs env scope ((entry.get? "inputs").getD .null)
        let stateMutability ← match entry.get? "stateMutability" with
          | none | some .null => .ok none
          | some (.str mutability) =>
            if ["pure", "view", "nonpayable", "payable"].contains mutability then .ok (some mutability)
            else .error (scope ++ " has invalid stateMutability")
          | some _ => .error (scope ++ " has invalid stateMutability")
        let payable ← match entry.get? "payable" with
          | none | some .null => .ok none
          | some (.bool flag) => .ok (some flag)
          | some _ => .error (scope ++ " has invalid payable flag")
        match stateMutability, payable with
        | some mutability, some flag =>
          if flag != (mutability == "payable") then .error (scope ++ " has conflicting mutability fields")
          else .ok (some ⟨name, inputs, stateMutability, payable⟩)
        | _, _ => .ok (some ⟨name, inputs, stateMutability, payable⟩)
    | _ => .error "ABI function name must be a Solidity identifier"

def isObject : Json → Bool
  | .obj _ => true
  | _ => false

/-- `validate_abi`: the function entries, in order. -/
def validateAbi (env : Env) (value : Json) : Except String (List AbiFunction) :=
  match value with
  | .arr entries =>
    if entries.length > maxAbiEntries then
      .error ("contract ABI exceeds " ++ toString maxAbiEntries ++ " entries")
    else if !entries.all isObject then .error "every contract ABI entry must be a JSON object"
    else
      match Json.dumps true false value with
      | none => .error "contract ABI must contain only finite JSON values"
      | some encoded =>
        if (utf8Chars encoded).length > maxRemoteBytes then .error "contract ABI exceeds encoded size limit"
        else do
          let functions ← entries.mapM (validateEntry env)
          .ok (functions.filterMap id)
  | _ => .error "contract ABI must be a JSON array"

/-- `descriptor_abi`, from `context.contract` on.  The texts are those of the `ValueError`s. -/
def descriptorAbi (env : Env) (descriptor : Json) : Except String (List AbiFunction) :=
  match (descriptor.get? "context").bind (·.get? "contract") with
  | none => .error "descriptor must contain context.contract"
  | some contract =>
    if !isObject contract then .error "descriptor context.contract must be a JSON object"
    else
      match contract.get? "abi" with
      | some (.arr entries) => validateAbi env (.arr entries)
      | _ =>
        match contract.get? "deployments" with
        | some (.arr (deployment :: _)) =>
          if !isObject deployment then .error "descriptor deployment must be a JSON object"
          else do
            let chainId ← normalizeChainId (deployment.get? "chainId")
            let address ← normalizeAddress (deployment.get? "address")
            match env.cachedAbi chainId address with
            | some cached => validateAbi env cached
            | none =>
              .error ("verified ABI is not cached for deployment " ++ toString chainId ++ ":" ++ address)
        | _ => .error "descriptor must contain an inline ABI or at least one deployment"

end Lucent.Preflight
