import Lucent.Preflight.Binding

/-!
# Lucent.Preflight.Transaction — `preflight_transaction` of `lucent/preflight.py`

The request is one JSON value; the result keeps the members that depend on it.  `acceptedCall` is the part of
`preflight_transaction` that may reject, `assessCall` the part that analyzes the accepted call.
-/

namespace Lucent.Preflight

open Lucent.Lib

def maxCalldataBytes : ℕ := 128 * 1024
def maxBytesPreview : ℕ := 64
def uint256Max : ℕ := 2 ^ 256 - 1

/-! ## Parsing -/

/-- `parse_calldata`. -/
def parseCalldata (value : Option Json) : Except Failure Bytes :=
  let malformed : Except Failure Bytes :=
    .error (.input "INVALID_CALLDATA" "transaction data must be a 0x-prefixed hexadecimal string")
  match value with
  | some (.str text) =>
    match text.toList with
    | '0' :: 'x' :: body =>
      if body.isEmpty || !body.all isHex then malformed
      else if body.length < 8 then
        .error (.input "INVALID_CALLDATA" "transaction data must contain a four-byte selector")
      else if body.length % 2 = 1 then
        .error (.input "INVALID_CALLDATA" "transaction data must contain an even number of hex digits")
      else if body.length / 2 > maxCalldataBytes then
        .error (.input "CALLDATA_TOO_LARGE" ("calldata exceeds " ++ toString maxCalldataBytes ++ " bytes"))
      else .ok (hexBytes body)
    | _ => malformed
  | _ => malformed

/-- `HEX_QUANTITY_RE.fullmatch`, with the digits. -/
def hexQuantity? (text : String) : Option (List Char) :=
  match text.toList with
  | '0' :: 'x' :: digits =>
    if digits == ['0'] || (digits.head?.any (fun c => isHex c && c != '0') && digits.all isHex) then some digits
    else none
  | _ => none

/-- `parse_value`. -/
def parseValue (value : Json) : Except Failure ℕ :=
  let bounded (amount : ℤ) : Except Failure ℕ :=
    if amount < 0 ∨ (uint256Max : ℤ) < amount then
      .error (.input "INVALID_VALUE" "transaction value exceeds uint256")
    else .ok amount.toNat
  let malformed : Except Failure ℕ :=
    .error (.input "INVALID_VALUE" "transaction value must be an integer or canonical hex quantity")
  match value with
  | .bool _ => .error (.input "INVALID_VALUE" "transaction value must be a uint256")
  | .int amount => bounded amount
  | .str text =>
    match hexQuantity? text with
    | some digits => bounded (hexNat digits)
    | none => malformed
  | _ => malformed

/-- `_deployment_matches`. -/
def deploymentMatches (descriptor : Json) (chainId : ℤ) (address : String) : Bool :=
  match ((descriptor.get? "context").bind (·.get? "contract")).bind (·.get? "deployments") with
  | some (.arr deployments) => deployments.any fun deployment =>
      isObject deployment &&
        (match normalizeChainId (deployment.get? "chainId"), normalizeAddress (deployment.get? "address") with
          | .ok depChain, .ok depAddress => depChain == chainId && depAddress == address
          | _, _ => false)
  | _ => false

/-- `_resolve_call`. -/
def resolveCall (env : Env) (abi : List AbiFunction) (calldata : Bytes) : Except Failure AbiFunction :=
  let text := "0x" ++ hexText (calldata.take 4)
  match (signableFunctions abi).filter (fun fn => selector env (signature fn) == calldata.take 4) with
  | [] => .error (.input "UNKNOWN_SELECTOR" ("selector " ++ text ++ " is absent from the descriptor ABI"))
  | [fn] => .ok fn
  | _ :: _ :: _ =>
    .error (.input "SELECTOR_COLLISION" ("selector " ++ text ++ " does not resolve to one unique function"))

/-! ## Decoding -/

mutual

/-- `_json_safe`. -/
def jsonSafe (env : Env) : AbiValue → Json
  | .bytes value =>
    if value.length ≤ maxBytesPreview then .str ("0x" ++ hexText value)
    else .obj [("encoding", .str "bytes"), ("length", .int value.length),
      ("prefix", .str ("0x" ++ hexText (value.take maxBytesPreview))),
      ("sha256", .str (hexText (env.sha256 value))), ("truncated", .bool true)]
  | .seq items => .arr (jsonSafeItems env items)
  | .bool value => .bool value
  | .int value => .str (toString value)
  | .str value => .str value
  | .other text => .str text
termination_by structural v => v

def jsonSafeItems (env : Env) : List AbiValue → List Json
  | [] => []
  | v :: rest => jsonSafe env v :: jsonSafeItems env rest
termination_by structural items => items

end

/-- `item.get("name") or f"arg{index}"`. -/
def argumentName (index : ℕ) (i : AbiInput) : String := (named i.name).getD ("arg" ++ toString index)

/-- `zip(inputs, values, strict=True)`, rendered from the index on. -/
def renderArguments (env : Env) : ℕ → List AbiInput → List AbiValue → Except Failure (List DecodedArgument)
  | _, [], [] => .ok []
  | index, i :: inputs, value :: values => do
    let others ← renderArguments env (index + 1) inputs values
    return ⟨argumentName index i, canonicalType i, jsonSafe env value⟩ :: others
  | _, _, _ => .error (.other "ValueError")

/-- `_decode_arguments`, with the decoded values. -/
def decodeArguments (env : Env) (fn : AbiFunction) (calldata : Bytes) :
    Except Failure (List AbiValue × List DecodedArgument) :=
  match env.abiDecode (canonicalTypes fn.inputs) (calldata.drop 4) with
  | none => .error (.input "CALLDATA_DECODE_FAILED" "calldata does not decode against the selected ABI function")
  | some values =>
    match env.abiEncode (canonicalTypes fn.inputs) values with
    | none => .error (.other "EncodingError")
    | some encoded =>
      if encoded ≠ calldata.drop 4 then
        .error (.input "CALLDATA_NOT_CANONICAL"
          "calldata contains trailing or non-canonical bytes outside the selected ABI arguments")
      else do
        let decoded ← renderArguments env 0 fn.inputs values
        return (values, decoded)

/-! ## Verdicts -/

inductive Gate
  | safeToPresent
  | review
  | block
deriving DecidableEq

structure Verdict where
  gate : Gate
  code : String
  reason : String

/-- `_call_verdict`. -/
def callVerdict (findings : List AuditFinding) (comprehension : Classification) (danger : List DangerFinding)
    (hasFormat : Bool) : Verdict :=
  let audited (severity : Severity) : Bool := findings.any (fun finding => finding.severity == severity)
  let dangerous (severity : Severity) : Bool := danger.any (fun finding => finding.severity == severity)
  if !hasFormat then
    ⟨.block, "MISSING_CLEAR_SIGNING_FORMAT", "the selected function has no exact clear-signing format"⟩
  else if audited .critical then
    ⟨.block, "PRESENTATION_CRITICAL", "the selected screen hides information required to sign"⟩
  else if dangerous .critical then
    ⟨.block, "DANGER_CRITICAL", "the selected function exposes a CRITICAL ABI-pattern danger"⟩
  else if comprehension.tier == .critical || comprehension.tier == .high then
    ⟨.review, if comprehension.unlimitedApproval then "UNLIMITED_APPROVAL" else "COMPREHENSION_REVIEW",
      if comprehension.reason.isEmpty then "high-consequence authorization" else comprehension.reason⟩
  else if audited .high || audited .medium then
    ⟨.review, "PRESENTATION_REVIEW", "the selected screen has presentation findings requiring review"⟩
  else if dangerous .high || dangerous .medium then
    ⟨.review, "DANGER_REVIEW", "the selected function has a structural capability requiring review"⟩
  else ⟨.safeToPresent, "PRESENTATION_CLEAR", "the selected call is clear enough to present to a signer"⟩

/-- `_binding_verdict`. -/
def bindingVerdict (binding : Binding) : Option Verdict :=
  if binding.findings.isEmpty then none
  else some ⟨.block, "PRESENTATION_UNBOUND", "the selected screen does not visibly bind every signed call value"⟩

/-- `is_payable` of `_value_verdict`. -/
def AbiFunction.acceptsValue (fn : AbiFunction) : Bool :=
  match fn.stateMutability with
  | some mutability => mutability == "payable"
  | none => fn.payable == some true

/-- `_value_verdict`. -/
def valueVerdict (fn : AbiFunction) (value : ℕ) : Option Verdict :=
  if value = 0 || fn.acceptsValue then none
  else some ⟨.block, "NONPAYABLE_WITH_VALUE",
    "the transaction sends native value to a function not declared payable"⟩

/-! ## Call-dependent refinement -/

/-- The first decoded argument of exactly this type. -/
def firstOfType (type : String) (decoded : List DecodedArgument) : Option DecodedArgument :=
  decoded.find? (fun item => item.type == type)

/-- The first decoded argument of an unsigned integer type. -/
def firstUint (decoded : List DecodedArgument) : Option DecodedArgument :=
  decoded.find? (fun item => hasPrefix item.type "uint")

/-- The name of the argument the revocation of an allowance is about. -/
def revokedSpender (env : Env) (decoded : List DecodedArgument) : String :=
  ((((decoded.reverse.find? (fun item => env.lower item.name == "spender")).or
    (firstOfType "address" decoded))).map (·.name)).getD "spender"

/-- `_apply_call_dependent_comprehension`. -/
def applyCallDependentComprehension (env : Env) (fn : AbiFunction) (decoded : List DecodedArgument)
    (comprehension : Classification) : Classification :=
  let name := env.lower fn.name
  if name == "setapprovalforall" then
    if (firstOfType "bool" decoded).any (·.value.isBool false) then
      let operator := ((firstOfType "address" decoded).map (·.name)).getD "operator"
      { comprehension with
        tier := .low
        revocation := true
        reason := "removes an operator's collection-wide transfer authority"
        sentence := "You revoke " ++ braces operator ++ "'s authority over all tokens." }
    else comprehension
  else if name != "approve" then comprehension
  else match firstUint decoded with
    | none => comprehension
    | some amount =>
      if hasText (env.lower amount.name) "tokenid" then comprehension
      else if amount.value.isStr "0" then
        { comprehension with
          tier := .low
          revocation := true
          reason := "sets the fungible-token allowance to zero, revoking future spending"
          sentence := "You revoke " ++ braces (revokedSpender env decoded) ++ "'s token allowance." }
      else if !amount.value.isStr (toString uint256Max) then comprehension
      else
        { comprehension with
          tier := .critical
          unlimitedApproval := true
          reason := "the calldata grants the maximum uint256 allowance, allowing the spender to pull tokens until " ++
            "the approval is changed or revoked" }

/-- `_apply_call_dependent_danger`. -/
def applyCallDependentDanger (env : Env) (fn : AbiFunction) (decoded : List DecodedArgument)
    (findings : List DangerFinding) : List DangerFinding :=
  if env.lower fn.name != "setapprovalforall" then findings
  else if (firstOfType "bool" decoded).any (·.value.isBool false) then
    findings.filter (fun finding => finding.primitive != "unbounded-delegation")
  else findings

/-! ## The request -/

/-- The first key that is not allowed, in text order. -/
def unknownKey (allowed : List String) (members : List (String × Json)) : Option String :=
  ((members.map Prod.fst).filter (fun key => !allowed.contains key)).insertionSort (· ≤ ·) |>.head?

/-- An accepted call: everything that was parsed, resolved and decoded. -/
structure AcceptedCall where
  chainId : ℤ
  sender : String
  address : String
  calldata : Bytes
  value : ℕ
  descriptor : Descriptor
  function : AbiFunction
  values : List AbiValue
  decoded : List DecodedArgument

/-- A member that has to be a known one. -/
def rejectUnknown (allowed : List String) (code message : String) (members : List (String × Json)) :
    Except Failure Unit :=
  match unknownKey allowed members with
  | none => .ok ()
  | some key => .error (.input code (message ++ key))

/-- `descriptor["context"]["contract"]["abi"]` is an array. -/
def hasInlineAbi (descriptor : Json) : Bool :=
  match ((descriptor.get? "context").bind (·.get? "contract")).bind (·.get? "abi") with
  | some (.arr _) => true
  | _ => false

/-- `preflight_transaction` up to the decoded arguments. -/
def acceptedCall (env : Env) (args : Json) : Except Failure AcceptedCall := do
  let members ← requireObject (.input "INVALID_REQUEST" "request must be a JSON object") (some args)
  rejectUnknown ["transaction", "descriptor"] "UNKNOWN_REQUEST_FIELD" "unsupported request field: " members
  let transaction ← requireObject (.input "INVALID_TRANSACTION" "transaction must be a JSON object")
    (Json.lookup "transaction" members)
  rejectUnknown ["chain_id", "from", "to", "data", "value"] "UNKNOWN_TRANSACTION_FIELD"
    "unsupported transaction field: " transaction
  let chainId ← (normalizeChainId (Json.lookup "chain_id" transaction)).mapError (.input "INVALID_TRANSACTION")
  let sender ← (normalizeAddress (Json.lookup "from" transaction)).mapError (.input "INVALID_TRANSACTION")
  let address ← (normalizeAddress (Json.lookup "to" transaction)).mapError (.input "INVALID_TRANSACTION")
  let calldata ← parseCalldata (Json.lookup "data" transaction)
  let value ← parseValue ((Json.lookup "value" transaction).getD (.str "0x0"))
  let descriptor ← validateDescriptor env (Json.lookup "descriptor" members)
  rejectIf (!hasInlineAbi descriptor.raw)
    (.input "INLINE_ABI_REQUIRED" "v1 transaction preflight requires context.contract.abi inline")
  rejectIf (!deploymentMatches descriptor.raw chainId address)
    (.input "DEPLOYMENT_MISMATCH" "descriptor deployments do not bind to transaction chain_id and to address")
  let function ← resolveCall env descriptor.abi calldata
  validateSelectedFunction function
  let (values, decoded) ← decodeArguments env function calldata
  return ⟨chainId, sender, address, calldata, value, descriptor, function, values, decoded⟩

/-- What the result says of one call, as far as it depends on the call. -/
structure PreflightResult where
  callFingerprint : String
  call : AcceptedCall
  verdict : Verdict
  audit : AuditReport
  comprehension : Classification
  danger : List DangerFinding
  binding : Binding

/-- The format of the selected function. -/
def AcceptedCall.format (call : AcceptedCall) : Option Format := assoc (signature call.function) call.descriptor.formats

/-- `normalized_request`. -/
def normalizedRequest (call : AcceptedCall) : Json :=
  .obj [("transaction", .obj [("chain_id", .int call.chainId), ("from", .str call.sender), ("to", .str call.address),
    ("data", .str ("0x" ++ hexText call.calldata)), ("value", .str ("0x" ++ natHex call.value))]),
    ("descriptor", call.descriptor.raw)]

/-- `_fingerprint`. -/
def fingerprint (env : Env) (value : Json) : Except Failure String := do
  let bytes ← canonicalJson value
  return "sha256:" ++ hexText (env.sha256 bytes)

/-- The final verdict: native value first, then a blocked screen, then the binding. -/
def finalVerdict (fn : AbiFunction) (value : ℕ) (analyzer : Verdict) (binding : Binding) : Verdict :=
  match valueVerdict fn value with
  | some verdict => verdict
  | none =>
    if analyzer.gate == .block then analyzer
    else (bindingVerdict binding).getD analyzer

/-- `preflight_transaction` from the decoded arguments on. -/
def assessCall (env : Env) (call : AcceptedCall) : Except Failure PreflightResult := do
  let fn := call.function
  let fmt := call.format
  let formats := match fmt with
    | some fmt => [(signature fn, fmt)]
    | none => []
  let audit ← audit [fn] formats
  let comprehension ← classify env fn fmt
  let comprehension := applyCallDependentComprehension env fn call.decoded comprehension
  let danger := (applyCallDependentDanger env fn call.decoded (assess env fn)).insertionSort
    (fun a b => a.severity.rank ≤ b.severity.rank)
  let binding := presentationBinding env fn fmt call.value (some call.decoded)
  let analyzer := callVerdict audit.findings comprehension danger fmt.isSome
  let callFingerprint ← fingerprint env (normalizedRequest call)
  return ⟨callFingerprint, call, finalVerdict fn call.value analyzer binding, audit, comprehension, danger, binding⟩

/-- `preflight_transaction`. -/
def preflightTransaction (env : Env) (args : Json) : Except Failure PreflightResult := do
  let call ← acceptedCall env args
  assessCall env call

/-! ## What acceptance establishes -/

theorem hexBytes_length (digits : List Char) : (hexBytes digits).length = digits.length / 2 := by
  induction digits using hexBytes.induct with
  | case1 hi lo rest ih =>
    rw [hexBytes, List.length_cons, ih, List.length_cons, List.length_cons]
    omega
  | case2 digits h =>
    rcases digits with _ | ⟨hi, _ | ⟨lo, rest⟩⟩
    · rfl
    · simp [hexBytes]
    · exact absurd rfl (h hi lo rest)

theorem parseCalldata_ok {value : Option Json} {calldata : Bytes} (h : parseCalldata value = .ok calldata) :
    4 ≤ calldata.length := by
  unfold parseCalldata at h
  split at h
  · split at h
    · dsimp only at h
      split_ifs at h with hhex hshort hodd hlarge
      cases h
      rw [hexBytes_length]
      omega
    · exact nomatch h
  · exact nomatch h

/-- The resolved function is the only signable one with the selector. -/
theorem resolveCall_ok {env : Env} {abi : List AbiFunction} {calldata : Bytes} {fn : AbiFunction}
    (h : resolveCall env abi calldata = .ok fn) : (signableFunctions abi).filter
      (fun other => selector env (signature other) == calldata.take 4) = [fn] := by
  unfold resolveCall at h
  dsimp only at h
  split at h
  · exact nomatch h
  · rename_i fn' hfilter
    cases h
    exact hfilter
  · exact nomatch h

theorem resolveCall_selector {env : Env} {abi : List AbiFunction} {calldata : Bytes} {fn : AbiFunction}
    (h : resolveCall env abi calldata = .ok fn) : selector env (signature fn) = calldata.take 4 := by
  have hmem : fn ∈ (signableFunctions abi).filter _ := resolveCall_ok h ▸ List.mem_singleton_self fn
  exact beq_iff_eq.mp (List.mem_filter.mp hmem).2

/-- The arguments were decoded from the bytes after the selector and encode to them. -/
structure Decoded (env : Env) (fn : AbiFunction) (calldata : Bytes) (values : List AbiValue)
    (decoded : List DecodedArgument) : Prop where
  decodes : env.abiDecode (canonicalTypes fn.inputs) (calldata.drop 4) = some values
  canonical : env.abiEncode (canonicalTypes fn.inputs) values = some (calldata.drop 4)
  rendered : renderArguments env 0 fn.inputs values = .ok decoded

theorem decodeArguments_ok {env : Env} {fn : AbiFunction} {calldata : Bytes} {values : List AbiValue}
    {decoded : List DecodedArgument} (h : decodeArguments env fn calldata = .ok (values, decoded)) :
    Decoded env fn calldata values decoded := by
  unfold decodeArguments at h
  split at h
  · exact nomatch h
  · rename_i values' hvalues
    split at h
    · exact nomatch h
    · rename_i encoded hencoded
      split_ifs at h with hcanonical
      obtain ⟨decoded', hdecoded, h⟩ := bind_eq_ok.mp h
      cases h
      exact ⟨hvalues, not_not.mp hcanonical ▸ hencoded, hdecoded⟩

/-- A member of the transaction of a request. -/
def transactionMember (args : Json) (key : String) : Option Json := (args.get? "transaction").bind (·.get? key)

/-- The parts of a call, each read from its member of the request or from the parts before it. -/
structure CallRead (env : Env) (args : Json) (call : AcceptedCall) : Prop where
  chainId : normalizeChainId (transactionMember args "chain_id") = .ok call.chainId
  sender : normalizeAddress (transactionMember args "from") = .ok call.sender
  address : normalizeAddress (transactionMember args "to") = .ok call.address
  calldata : parseCalldata (transactionMember args "data") = .ok call.calldata
  value : parseValue ((transactionMember args "value").getD (.str "0x0")) = .ok call.value
  descriptor : validateDescriptor env (args.get? "descriptor") = .ok call.descriptor
  resolved : resolveCall env call.descriptor.abi call.calldata = .ok call.function
  selected : validateSelectedFunction call.function = .ok ()
  decoded : decodeArguments env call.function call.calldata = .ok (call.values, call.decoded)

theorem acceptedCall_read {env : Env} {args : Json} {call : AcceptedCall} (h : acceptedCall env args = .ok call) :
    CallRead env args call := by
  unfold acceptedCall at h
  obtain ⟨members, hmembers, h⟩ := bind_eq_ok.mp h
  obtain ⟨_, -, h⟩ := bind_eq_ok.mp h
  obtain ⟨transaction, htransaction, h⟩ := bind_eq_ok.mp h
  obtain ⟨_, -, h⟩ := bind_eq_ok.mp h
  obtain ⟨chainId, hchain, h⟩ := bind_eq_ok.mp h
  obtain ⟨sender, hsender, h⟩ := bind_eq_ok.mp h
  obtain ⟨address, haddress, h⟩ := bind_eq_ok.mp h
  obtain ⟨calldata, hcalldata, h⟩ := bind_eq_ok.mp h
  obtain ⟨value, hvalue, h⟩ := bind_eq_ok.mp h
  obtain ⟨descriptor, hdescriptor, h⟩ := bind_eq_ok.mp h
  obtain ⟨-, h⟩ := rejectIf_bind_eq_ok.mp h
  obtain ⟨-, h⟩ := rejectIf_bind_eq_ok.mp h
  obtain ⟨function, hfunction, h⟩ := bind_eq_ok.mp h
  obtain ⟨_, hselected, h⟩ := bind_eq_ok.mp h
  obtain ⟨⟨values, decoded⟩, hdecoded, h⟩ := bind_eq_ok.mp h
  cases h
  obtain rfl : args = .obj members := Option.some.inj (requireObject_eq_ok hmembers)
  have hmember : ∀ key, transactionMember (.obj members) key = Json.lookup key transaction := by
    intro key
    rw [transactionMember, Json.get?, requireObject_eq_ok htransaction, Option.bind_some, Json.get?]
  constructor
  case chainId =>
    rw [hmember]
    exact mapError_eq_ok.mp hchain
  case sender =>
    rw [hmember]
    exact mapError_eq_ok.mp hsender
  case address =>
    rw [hmember]
    exact mapError_eq_ok.mp haddress
  case calldata =>
    rw [hmember]
    exact hcalldata
  case value =>
    rw [hmember]
    exact hvalue
  case descriptor => exact hdescriptor
  case resolved => exact hfunction
  case selected => exact hselected
  case decoded => exact hdecoded

/-- An accepted call. -/
structure Accepted (env : Env) (call : AcceptedCall) : Prop where
  descriptor : ∃ json, validateDescriptor env json = .ok call.descriptor
  calldata : 4 ≤ call.calldata.length
  resolved : resolveCall env call.descriptor.abi call.calldata = .ok call.function
  selected : Selected call.function
  decoded : Decoded env call.function call.calldata call.values call.decoded

theorem acceptedCall_ok {env : Env} {args : Json} {call : AcceptedCall} (h : acceptedCall env args = .ok call) :
    Accepted env call := by
  have hread := acceptedCall_read h
  exact ⟨⟨_, hread.descriptor⟩, parseCalldata_ok hread.calldata, hread.resolved,
    validateSelectedFunction_ok hread.selected, decodeArguments_ok hread.decoded⟩

/-- The analysis of an accepted call, member by member. -/
structure Assessed (env : Env) (r : PreflightResult) : Prop where
  comprehension : ∃ comprehension, classify env r.call.function r.call.format = .ok comprehension ∧
    r.comprehension = applyCallDependentComprehension env r.call.function r.call.decoded comprehension
  danger : r.danger = (applyCallDependentDanger env r.call.function r.call.decoded
    (assess env r.call.function)).insertionSort (fun a b => a.severity.rank ≤ b.severity.rank)
  binding : r.binding = presentationBinding env r.call.function r.call.format r.call.value (some r.call.decoded)
  verdict : r.verdict = finalVerdict r.call.function r.call.value
    (callVerdict r.audit.findings r.comprehension r.danger r.call.format.isSome) r.binding

theorem assessCall_ok {env : Env} {call : AcceptedCall} {r : PreflightResult} (h : assessCall env call = .ok r) :
    r.call = call ∧ Assessed env r := by
  unfold assessCall at h
  obtain ⟨audit, -, h⟩ := bind_eq_ok.mp h
  obtain ⟨comprehension, hcomprehension, h⟩ := bind_eq_ok.mp h
  obtain ⟨fingerprint, -, h⟩ := bind_eq_ok.mp h
  cases h
  exact ⟨rfl, ⟨comprehension, hcomprehension, rfl⟩, rfl, rfl, rfl⟩

theorem preflightTransaction_ok {env : Env} {args : Json} {r : PreflightResult}
    (h : preflightTransaction env args = .ok r) :
    acceptedCall env args = .ok r.call ∧ Accepted env r.call ∧ Assessed env r := by
  obtain ⟨call, haccepted, h⟩ := bind_eq_ok.mp h
  obtain ⟨rfl, hassessed⟩ := assessCall_ok h
  exact ⟨haccepted, acceptedCall_ok haccepted, hassessed⟩

/-! ## Cleared verdicts -/

/-- What is left of the analyzers when none of them objects. -/
theorem callVerdict_safe {findings : List AuditFinding} {comprehension : Classification}
    {danger : List DangerFinding} {hasFormat : Bool}
    (h : (callVerdict findings comprehension danger hasFormat).gate = .safeToPresent) : hasFormat = true ∧
      (∀ finding ∈ findings, finding.severity = .low) ∧ (∀ finding ∈ danger, finding.severity = .low) ∧
        comprehension.tier ≠ .critical ∧ comprehension.tier ≠ .high := by
  unfold callVerdict at h
  dsimp only at h
  split_ifs at h with hformat hcritical hdanger htier haudit hrisk
  have hlow : ∀ severity : Severity, severity ≠ .critical → severity ≠ .high → severity ≠ .medium →
      severity = .low := by
    intro severity h1 h2 h3
    rcases severity with _ | _ | _ | _
    · exact absurd rfl h1
    · exact absurd rfl h2
    · exact absurd rfl h3
    · rfl
  simp only [Bool.or_eq_true, List.any_eq_true, beq_iff_eq, not_or, not_exists, not_and] at *
  refine ⟨by simpa using hformat, ?_, ?_, htier.1, htier.2⟩
  · exact fun finding hmem => hlow _ (hcritical finding hmem) (haudit.1 finding hmem) (haudit.2 finding hmem)
  · exact fun finding hmem => hlow _ (hdanger finding hmem) (hrisk.1 finding hmem) (hrisk.2 finding hmem)

theorem finalVerdict_safe {fn : AbiFunction} {value : ℕ} {analyzer : Verdict} {binding : Binding}
    (h : (finalVerdict fn value analyzer binding).gate = .safeToPresent) :
    (value ≠ 0 → fn.acceptsValue = true) ∧ analyzer.gate = .safeToPresent ∧ binding.findings = [] := by
  unfold finalVerdict at h
  rcases hvalue : valueVerdict fn value with _ | verdict
  · rw [hvalue] at h
    dsimp only at h
    have hpayable : value ≠ 0 → fn.acceptsValue = true := by
      unfold valueVerdict at hvalue
      split_ifs at hvalue with hcond
      intro hne
      simpa [hne] using hcond
    split_ifs at h with hblock
    · rw [h] at hblock
      exact nomatch hblock
    · unfold bindingVerdict at h
      split_ifs at h with hempty
      · exact ⟨hpayable, h, List.isEmpty_iff.mp hempty⟩
      · exact nomatch h
  · rw [hvalue] at h
    unfold valueVerdict at hvalue
    split_ifs at hvalue
    cases hvalue
    exact nomatch h

end Lucent.Preflight
