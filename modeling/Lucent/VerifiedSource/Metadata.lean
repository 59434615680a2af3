import Lucent.Lib.Cbor

/-!
# Lucent.VerifiedSource.Metadata — the Solidity metadata trailer of `lucent/verified_source.py`

`_cbor_length`, `_cbor_blob`, `_is_solidity_metadata` and `_without_solidity_metadata` as the source has them, on
byte lists.  `none` is the source's `None`, and inside the loop its `return False`.
-/

namespace Lucent.VerifiedSource

open Lucent.Lib

/-- `int.from_bytes`, big-endian. -/
def fromBytes (value : Bytes) : ℕ := Cbor.ofBigEndian value

/-- `value[start:stop]`. -/
def slice (value : Bytes) (start stop : ℕ) : Bytes := (value.take stop).drop start

/-- The argument bytes of the additional informations 24, 25 and 26, with the least length each may encode. -/
def cborArgument : ℕ → Option (ℕ × ℕ)
  | 24 => some (1, 24)
  | 25 => some (2, 1 <<< 8)
  | 26 => some (4, 1 <<< 16)
  | _ => none

/-- `_cbor_length`: a minimal definite length of the expected major type, and where its content starts. -/
def cborLength (value : Bytes) (offset majorType : ℕ) : Option (ℕ × ℕ) := do
  let initial ← value[offset]?
  if initial.toNat >>> 5 ≠ majorType then none
  let additional := initial.toNat &&& 0x1F
  let offset := offset + 1
  if additional < 24 then return (additional, offset)
  let (byteCount, minimum) ← cborArgument additional
  if offset + byteCount > value.length then none
  let length := fromBytes (slice value offset (offset + byteCount))
  if length < minimum then none
  return (length, offset + byteCount)

/-- `_cbor_blob`. -/
def cborBlob (value : Bytes) (offset majorType : ℕ) : Option (Bytes × ℕ) := do
  let (length, contentOffset) ← cborLength value offset majorType
  let stop := contentOffset + length
  if stop > value.length then none
  return (slice value contentOffset stop, stop)

/-- `SOLIDITY_METADATA_KEYS`. -/
def solidityMetadataKeys : List String := ["ipfs", "bzzr0", "bzzr1", "experimental", "solc"]

/-- A byte of the class `[0-9A-Za-z.+-]`. -/
def prereleaseByte (byte : UInt8) : Bool :=
  (0x30 ≤ byte && byte ≤ 0x39) || (0x41 ≤ byte && byte ≤ 0x5A) || (0x61 ≤ byte && byte ≤ 0x7A) ||
    byte == 0x2E || byte == 0x2B || byte == 0x2D

/-- `SOLC_PRERELEASE_RE.fullmatch`: a digit, then 2 to 95 bytes of the class. -/
def solcPrerelease : Bytes → Bool
  | [] => false
  | first :: rest => (0x30 ≤ first && first ≤ 0x39) && decide (2 ≤ rest.length) && decide (rest.length ≤ 95) &&
      rest.all prereleaseByte

/-- `bytes.decode("ascii")`. -/
def decodeAscii (value : Bytes) : Option String :=
  if value.all (fun byte => byte < 0x80) then some (String.ofList (value.map fun byte => Char.ofNat byte.toNat))
  else none

/-- The variables of the loop of `_is_solidity_metadata`. -/
structure MetadataScan where
  offset : ℕ
  keys : List String
  sourceKeys : ℕ

/-- One turn of the loop: a key and its value. -/
def metadataItem (payload : Bytes) (s : MetadataScan) : Option MetadataScan := do
  let (keyBytes, offset) ← cborBlob payload s.offset 3
  let key ← decodeAscii keyBytes
  if key ∉ solidityMetadataKeys ∨ key ∈ s.keys then none
  let keys := key :: s.keys
  if key = "experimental" then
    if payload[offset]? ≠ some 0xF5 then none
    return { s with offset := offset + 1, keys }
  if key = "solc" then
    match cborBlob payload offset 2 with
    | some ([_, _, _], offset) => return { s with offset, keys }
    | _ =>
      let (prerelease, offset) ← cborBlob payload offset 3
      if !solcPrerelease prerelease then none
      return { s with offset, keys }
  let (hashBytes, offset) ← cborBlob payload offset 2
  if key = "ipfs" then
    if hashBytes.length ≠ 34 ∨ hashBytes.take 2 ≠ [0x12, 0x20] then none
  else
    if hashBytes.length ≠ 32 then none
  return { offset, keys, sourceKeys := s.sourceKeys + 1 }

/-- The loop, for the remaining number of items. -/
def metadataItems (payload : Bytes) : ℕ → MetadataScan → Option MetadataScan
  | 0, s => some s
  | items + 1, s => do
    let s ← metadataItem payload s
    metadataItems payload items s

/-- `_is_solidity_metadata`. -/
def isSolidityMetadata (payload : Bytes) : Bool :=
  match cborLength payload 0 5 with
  | none => false
  | some (itemCount, offset) =>
    if 1 ≤ itemCount ∧ itemCount ≤ solidityMetadataKeys.length then
      match metadataItems payload itemCount ⟨offset, [], 0⟩ with
      | none => false
      | some s => decide (s.offset = payload.length) && decide ("solc" ∈ s.keys) && decide (s.sourceKeys ≤ 1)
    else false

/-- `_without_solidity_metadata`.  The source's `metadata_start < 1` is `length < metadataLength + 3`. -/
def withoutSolidityMetadata (bytecode : Bytes) : Bytes :=
  if bytecode.length < 4 then bytecode
  else
    let metadataLength := fromBytes (bytecode.drop (bytecode.length - 2))
    let metadataStart := bytecode.length - metadataLength - 2
    if metadataLength = 0 ∨ bytecode.length < metadataLength + 3 ∨ bytecode[metadataStart - 1]? ≠ some 0xFE then
      bytecode
    else if isSolidityMetadata (slice bytecode metadataStart (bytecode.length - 2)) then bytecode.take metadataStart
    else bytecode

/-- Only a trailer is removed. -/
theorem withoutSolidityMetadata_prefix (bytecode : Bytes) :
    ∃ trailer, bytecode = withoutSolidityMetadata bytecode ++ trailer := by
  unfold withoutSolidityMetadata
  dsimp only
  split_ifs
  · exact ⟨[], (List.append_nil _).symm⟩
  · exact ⟨[], (List.append_nil _).symm⟩
  · exact ⟨_, (List.take_append_drop _ _).symm⟩
  · exact ⟨[], (List.append_nil _).symm⟩

end Lucent.VerifiedSource
