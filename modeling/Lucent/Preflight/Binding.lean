import Lucent.Preflight.Danger

/-!
# Lucent.Preflight.Binding — roles, intents and the presentation binding of `lucent/preflight.py`

`presentationBinding` lists what the visible fields of a format fail to bind of a call.  It runs on functions that
passed `validateSelectedFunction`, whose inputs all have names.

* `expectedInputRoles`: the role map, from the name hints.
* `intentMatchesKnownAction`: the policy-owned texts.
* `bindField`: one turn of the loop over the fields.
* `coverage`: the signed leaves of the inputs against the visible paths.
-/

namespace Lucent.Preflight

open Lucent.Lib

/-- `UNVERIFIED_FIELD_FORMATS`. -/
def unverifiedFieldFormats : List String := ["calldata", "tokenAmount", "nftName", "date", "unit", "enum"]

/-! ## Names -/

/-- The text of a name that validation has seen. -/
def AbiInput.nameText (i : AbiInput) : String := i.name.getD ""

/-- The failure of `_validate_selected_function`. -/
def unbindable (message : String) : Failure := .input "UNBINDABLE_ABI" message

mutual

/-- `validate_inputs` of `_validate_selected_function`, up to the check for duplicates: the names. -/
def validateInputNames : String → List AbiInput → Except Failure (List String)
  | _, [] => .ok []
  | scope, i :: rest => do
    let name ← validateInputName scope i
    let names ← validateInputNames scope rest
    return name :: names
termination_by structural _ inputs => inputs

def validateInputName : String → AbiInput → Except Failure String
  | scope, ⟨name, abiType, components⟩ =>
    if !name.any isIdentifier then .error (unbindable (scope ++ " inputs require unique Solidity identifiers"))
    else if hasPrefix abiType "tuple" then do
      let inner := scope ++ "." ++ name.getD ""
      let names ← validateInputNames inner components
      rejectIf (¬ names.Nodup) (unbindable (inner ++ " inputs contain duplicate names"))
      return name.getD ""
    else .ok (name.getD "")
termination_by structural _ i => i

end

/-- `_validate_selected_function`. -/
def validateSelectedFunction (fn : AbiFunction) : Except Failure Unit := do
  rejectIf (!isIdentifier fn.name) (unbindable "selected function has an invalid name")
  let names ← validateInputNames fn.name fn.inputs
  rejectIf (¬ names.Nodup) (unbindable (fn.name ++ " inputs contain duplicate names"))

/-! ## Roles -/

inductive Role
  | recipient
  | amount
  | spender
  | operator
  | approved
  | tokenId
  | sender
  | contract
  | nativeValue
deriving DecidableEq

/-- `ROLE_LABELS`. -/
def Role.labels : Role → List String
  | .recipient => ["to", "recipient", "destination", "receiver"]
  | .amount => ["amount", "value", "quantity"]
  | .spender => ["spender"]
  | .operator => ["operator"]
  | .approved => ["approved", "approval", "enabled"]
  | .tokenId => ["token id", "tokenid", "id"]
  | .sender => ["from", "sender"]
  | .contract => ["to", "contract", "destination"]
  | .nativeValue => ["amount", "value", "eth amount", "native value"]

/-- `_label_matches_role`. -/
def labelMatchesRole (env : Env) (role : Role) (label : String) : Bool :=
  role.labels.contains (joinText " " (words (replaceChar '_' " " (env.lower label))))

/-- `candidates`. -/
def candidates (fn : AbiFunction) (typePrefix : String) : List AbiInput :=
  fn.inputs.filter (fun i => hasPrefix i.type typePrefix)

/-- The name of an input without case and outer underscores. -/
def AbiInput.hintName (env : Env) (i : AbiInput) : String := stripChars (· == '_') (i.lowerName env)

/-- `choose`: the first input a hint occurs in, else the first one. -/
def choose (env : Env) (items : List AbiInput) (hints : List String) : Option AbiInput :=
  (items.find? (fun i => hints.any (hasText (i.hintName env) ·))).or items.head?

/-- A dictionary entry written: in place where the key is there. -/
def setRole (name : String) (role : Role) (roles : List (String × Role)) : List (String × Role) :=
  if roles.any (fun entry => entry.1 == name) then
    roles.map (fun entry => if entry.1 == name then (name, role) else entry)
  else roles ++ [(name, role)]

/-- A role for an input that was chosen. -/
def assignRole (i : Option AbiInput) (role : Role) (roles : List (String × Role)) : List (String × Role) :=
  match i with
  | none => roles
  | some i => setRole i.nameText role roles

/-- The calls with a recipient and an amount. -/
def transferLike (env : Env) (fn : AbiFunction) : Bool :=
  let name := env.lower fn.name
  hasText name "transfer" || name == "send" || name == "withdraw" || fn.declaredPayable

/-- The inputs the roles go to. -/
def roleRecipient (env : Env) (fn : AbiFunction) : Option AbiInput :=
  choose env (candidates fn "address") ["to", "recipient", "receiver", "destination", "dst"]

def roleAmount (env : Env) (fn : AbiFunction) : Option AbiInput :=
  choose env (candidates fn "uint") ["amount", "value", "quantity", "qty"]

def roleOperator (env : Env) (fn : AbiFunction) : Option AbiInput :=
  choose env (candidates fn "address") ["operator", "spender"]

def roleApproved (env : Env) (fn : AbiFunction) : Option AbiInput :=
  choose env (candidates fn "bool") ["approved", "enabled", "allow"]

def roleSpender (env : Env) (fn : AbiFunction) : Option AbiInput :=
  choose env (candidates fn "address") ["spender", "to", "operator"]

def roleNumeric (env : Env) (fn : AbiFunction) : Option AbiInput :=
  choose env (candidates fn "uint") ["amount", "allowance", "tokenid", "token_id"]

/-- The numeric input of an approval is a token id. -/
def namesToken (env : Env) (i : AbiInput) : Bool := hasText (replaceChar '_' "" (i.lowerName env)) "tokenid"

/-- `_expected_input_roles`. -/
def expectedInputRoles (env : Env) (fn : AbiFunction) : List (String × Role) :=
  let name := env.lower fn.name
  let roles : List (String × Role) :=
    if transferLike env fn then
      assignRole (roleAmount env fn) .amount (assignRole (roleRecipient env fn) .recipient [])
    else []
  if name == "setapprovalforall" then
    assignRole (roleApproved env fn) .approved (assignRole (roleOperator env fn) .operator roles)
  else if name == "approve" then
    let nft := (roleNumeric env fn).any (namesToken env)
    assignRole (roleNumeric env fn) (if nft then .tokenId else .amount)
      (assignRole (roleSpender env fn) (if nft then .recipient else .spender) roles)
  else roles

/-- `roles.get(name)`. -/
def roleOf (roles : List (String × Role)) (name : String) : Option Role := assoc name roles

/-- `by_role.get(role)`: the last input of the role. -/
def inputOf (roles : List (String × Role)) (role : Role) : Option String :=
  (roles.reverse.find? (fun entry => entry.2 == role)).map Prod.fst

/-! ## Decoded arguments -/

/-- An element of `decoded_arguments`. -/
structure DecodedArgument where
  name : String
  type : String
  value : Json

/-- `decoded_by_name.get(name)`; the last argument of a name counts. -/
def decodedValue (decoded : List DecodedArgument) (name : String) : Option Json :=
  (decoded.reverse.find? (fun item => item.name == name)).map (·.value)

/-! ## Intents -/

/-- `_normalize_ui_text`. -/
def normalizeUiText (env : Env) (text : String) : String :=
  joinText " " (words (env.lower (stripChars isSpace text)))

/-- The texts a known action may carry: intents and interpolated intents. -/
structure ActionTexts where
  intents : List String
  interpolated : List String

/-- The texts of a grant and of its revocation: one of them for decoded calls, both without a call. -/
def grantOrRevoke (isRevocation : Option Bool) (grant revoke : ActionTexts) : ActionTexts :=
  match isRevocation with
  | some true => revoke
  | some false => grant
  | none => ⟨grant.intents ++ revoke.intents, grant.interpolated ++ revoke.interpolated⟩

/-- What `_intent_matches_known_action` asks of the texts: nothing, a refusal, or one of the texts. -/
inductive KnownAction
  | unknown
  | unbound
  | texts (allowed : ActionTexts)

/-- The texts of a transfer. -/
def transferTexts (amount recipient : String) : ActionTexts :=
  ⟨["send tokens", "transfer tokens"],
    ["send " ++ braces amount ++ " to " ++ braces recipient,
      "transfer " ++ braces amount ++ " to " ++ braces recipient]⟩

/-- The texts of an NFT approval. -/
def approveNftTexts (recipient tokenId : String) : ActionTexts :=
  ⟨["approve nft"], ["approve " ++ braces recipient ++ " for token " ++ braces tokenId]⟩

/-- The texts of an allowance, granted or revoked. -/
def allowanceTexts (isRevocation : Option Bool) (spender amount : String) : ActionTexts :=
  grantOrRevoke isRevocation
    ⟨["approve token spending", "set allowance"],
      ["approve " ++ braces spender ++ " to spend " ++ braces amount,
        "set " ++ braces spender ++ " allowance to " ++ braces amount]⟩
    ⟨["revoke token spending", "revoke allowance"],
      ["revoke " ++ braces spender ++ " allowance", "revoke " ++ braces spender ++ " token allowance"]⟩

/-- The texts of an operator approval, granted or revoked. -/
def operatorTexts (isRevocation : Option Bool) (operator : String) : ActionTexts :=
  grantOrRevoke isRevocation
    ⟨["set operator", "approve operator"],
      ["approve " ++ braces operator ++ " as operator", "set " ++ braces operator ++ " as operator"]⟩
    ⟨["revoke operator"], ["revoke " ++ braces operator ++ " as operator"]⟩

/-- A name that is there and not empty. -/
def named (name : Option String) : Option String := name.filter (!·.isEmpty)

/-- The branches of `_intent_matches_known_action`. -/
def knownAction (env : Env) (fn : AbiFunction) (decoded : Option (List DecodedArgument)) : KnownAction :=
  let name := env.lower fn.name
  let roles := expectedInputRoles env fn
  if hasText name "transfer" || name == "send" then
    match named (inputOf roles .recipient), named (inputOf roles .amount) with
    | some recipient, some amount => .texts (transferTexts amount recipient)
    | _, _ => .unbound
  else if name == "approve" then
    if (inputOf roles .tokenId).isSome then
      match named (inputOf roles .recipient), named (inputOf roles .tokenId) with
      | some recipient, some tokenId => .texts (approveNftTexts recipient tokenId)
      | _, _ => .unbound
    else
      match named (inputOf roles .spender), named (inputOf roles .amount) with
      | some spender, some amount => .texts (allowanceTexts
          (decoded.map (fun items => (decodedValue items amount).any (Json.isStr "0"))) spender amount)
      | _, _ => .unbound
  else if name == "setapprovalforall" then
    match named (inputOf roles .operator), named (inputOf roles .approved) with
    | some operator, some approved => .texts (operatorTexts
        (decoded.map (fun items => (decodedValue items approved).any (Json.isBool false))) operator)
    | _, _ => .unbound
  else .unknown

/-- `_intent_matches_known_action`. -/
def intentMatchesKnownAction (env : Env) (fn : AbiFunction) (fmt : Format) (decoded : Option (List DecodedArgument)) :
    Bool :=
  match knownAction env fn decoded with
  | .unknown => true
  | .unbound => false
  | .texts allowed =>
    fmt.intent.any (fun intent => allowed.intents.contains (normalizeUiText env intent)) &&
      (match fmt.interpolatedIntent with
        | none => true
        | some text => allowed.interpolated.contains (normalizeUiText env text))

/-! ## Findings -/

/-- A binding finding; all of them are CRITICAL.  `details` are the further members. -/
structure BindingFinding where
  code : String
  issue : String
  details : List (String × Json)

structure Binding where
  complete : Bool
  findings : List BindingFinding

def textOrNull (text : Option String) : Json :=
  match text with
  | none => .null
  | some s => .str s

/-! ## Paths -/

/-- `_path_target`. -/
def pathTarget : AbiInput → List String → Option AbiInput
  | i, [] => some i
  | i, segment :: rest =>
    if segment = "[]" then
      match arrayBase? i.type with
      | none => none
      | some base => pathTarget { i with type := base } rest
    else if !hasPrefix i.type "tuple" then none
    else match i.components.find? (fun component => component.name == some segment) with
      | none => none
      | some component => pathTarget component rest

/-- The number of array suffixes of a type, and the type without them. -/
def peelArrays : ℕ → String → ℕ × String
  | 0, abiType => (0, abiType)
  | fuel + 1, abiType =>
    match arrayBase? abiType with
    | none => (0, abiType)
    | some base => ((peelArrays fuel base).1 + 1, (peelArrays fuel base).2)

mutual

/-- `_abi_leaf_paths`; the recursion on array suffixes is `peelArrays`. -/
def abiLeafPaths : AbiInput → List String → List (List String)
  | ⟨_, abiType, components⟩, pre =>
    let peeled := peelArrays abiType.length abiType
    let pre := pre ++ List.replicate peeled.1 "[]"
    if hasPrefix peeled.2 "tuple" && !components.isEmpty then componentLeafPaths 0 components pre else [pre]
termination_by structural i => i

def componentLeafPaths : ℕ → List AbiInput → List String → List (List String)
  | _, [], _ => []
  | index, component :: rest, pre =>
    let name := (named component.name).getD ("component" ++ toString index)
    abiLeafPaths component (pre ++ [name]) ++ componentLeafPaths (index + 1) rest pre
termination_by structural _ components => components

end

/-- `_format_matches_abi`. -/
def formatMatchesAbi (abiType : String) (fieldFormat : Option String) : Bool :=
  let format := fieldFormat.getD "raw"
  if !allowedFieldFormats.contains format then false
  else if (arrayBase? abiType).isSome || hasPrefix abiType "tuple" then ["raw", "calldata"].contains format
  else if abiType == "address" then ["raw", "addressName"].contains format
  else if abiType == "bool" then ["raw", "enum"].contains format
  else if hasPrefix abiType "uint" || hasPrefix abiType "int" then
    ["raw", "amount", "tokenAmount", "nftName", "date", "duration", "unit", "enum"].contains format
  else if hasPrefix abiType "bytes" then ["raw", "calldata"].contains format
  else if abiType == "string" then ["raw", "enum"].contains format
  else format == "raw"

/-! ## One field -/

/-- What one field contributes: findings, a visible path, and a visible native value. -/
structure BoundField where
  findings : List BindingFinding
  path : Option (List String)
  valueField : Option Field

/-- A field that only has findings. -/
def BoundField.onlyFindings (findings : List BindingFinding) : BoundField := ⟨findings, none, none⟩

/-- A field on `@.from` or `@.to`. -/
def bindContainer (env : Env) (role : Role) (field : Field) : BoundField :=
  let visible := field.universallyVisible
  .onlyFindings
    ((if visible && field.format != some "addressName" then
      [⟨"FIELD_FORMAT_MISMATCH", "sender and destination must use the addressName display format",
        [("abi_type", .str "address"), ("format", textOrNull field.format)]⟩] else []) ++
    (if visible && !labelMatchesRole env role (field.label.getD "") then
      [⟨"ROLE_LABEL_MISMATCH", "container field label contradicts its transaction role", []⟩] else []))

/-- A field on `@.value`. -/
def bindValue (env : Env) (field : Field) : BoundField :=
  if !field.universallyVisible then .onlyFindings []
  else if field.format != some "amount" then
    .onlyFindings [⟨"FIELD_FORMAT_MISMATCH", "native value must use the amount display format",
      [("path", .str "@.value"), ("abi_type", .str "uint256"), ("format", textOrNull field.format)]⟩]
  else
    { findings := if labelMatchesRole env .nativeValue (field.label.getD "") then [] else
        [⟨"ROLE_LABEL_MISMATCH", "native-value label contradicts its transaction role", []⟩]
      path := none
      valueField := some field }

/-- The role of the argument at the path; only a whole argument has one. -/
def expectedRole (roles : List (String × Role)) (segments : List String) : Option Role :=
  if segments.length = 1 then roleOf roles (segments.headD "") else none

/-- A field on an argument that resolves to `target`: the first check that fails, or the visible path. -/
def bindArgument (env : Env) (roles : List (String × Role)) (path : String) (segments : List String)
    (target : AbiInput) (field : Field) : BoundField :=
  let argument : String × Json := ("argument", .str (joinText "." segments))
  let format : String × Json := ("format", textOrNull field.format)
  if !field.universallyVisible then .onlyFindings []
  else if !formatMatchesAbi target.type field.format then
    .onlyFindings [⟨"FIELD_FORMAT_MISMATCH", "display field format is incompatible with the selected ABI value",
      [("path", .str path), ("abi_type", .str target.type), format]⟩]
  else if target.type == "address" && field.format != some "addressName" then
    .onlyFindings [⟨"RAW_ADDRESS_PRESENTATION", "an address value is not rendered with addressName", [argument]⟩]
  else if field.format.any unverifiedFieldFormats.contains then
    .onlyFindings [⟨"FORMAT_ASSURANCE_UNSUPPORTED",
      "this formatter requires resolution semantics outside the v1 profile", [argument, format]⟩]
  else if !(field.params.getD []).isEmpty then
    .onlyFindings [⟨"FORMAT_ASSURANCE_UNSUPPORTED",
      "formatter parameters are outside the deterministic v1 profile", [argument, format]⟩]
  else if (expectedRole roles segments).any (fun role => !labelMatchesRole env role (field.label.getD "")) then
    .onlyFindings [⟨"ROLE_LABEL_MISMATCH", "field label contradicts the ABI argument's transaction role", [argument]⟩]
  else ⟨[], some segments, none⟩

/-- One turn of the loop over the fields. -/
def bindField (env : Env) (fn : AbiFunction) (roles : List (String × Role)) (field : Field) : BoundField :=
  if field.path == some "@.from" then bindContainer env .sender field
  else if field.path == some "@.to" then bindContainer env .contract field
  else if field.path == some "@.value" then bindValue env field
  else match field.path.filter (hasPrefix · "#.") with
    | none => .onlyFindings [⟨"UNSUPPORTED_FIELD_PATH",
        "display field path is outside the supported call/value namespaces", [("path", textOrNull field.path)]⟩]
    | some path =>
      let segments := splitOn '.' (dropChars 2 path)
      let root := segments.headD ""
      -- inputs have distinct names, so the first one is the one the source's dictionary holds
      match (fn.inputs.find? (fun i => !root.isEmpty && i.nameText == root)).bind (pathTarget · (segments.drop 1)) with
      | none => .onlyFindings [⟨"FIELD_PATH_UNRESOLVED",
          "display field path does not resolve against the selected ABI", [("path", .str path)]⟩]
      | some target => bindArgument env roles path segments target field

/-! ## Coverage -/

/-- The findings of one signed leaf. -/
def coverLeaf (visiblePaths : List (List String)) (required : List String) : List BindingFinding :=
  let argument : String × Json := ("argument", .str (joinText "." (required.filter (!·.isEmpty))))
  if visiblePaths.contains required then
    if required.length = 1 then []
    else [⟨if required.contains "[]" then "COLLECTION_NOT_EXPANDED" else "STRUCTURED_VALUE_UNSUPPORTED",
      "container rendering does not prove every signed leaf is visible", [argument]⟩]
  else [⟨"ARGUMENT_NOT_VISIBLE", "a signed ABI value has no universally visible display field", [argument]⟩]

/-- The findings of the signed leaves of the inputs. -/
def coverage (fn : AbiFunction) (visiblePaths : List (List String)) : List BindingFinding :=
  fn.inputs.flatMap (fun i => (abiLeafPaths i [i.nameText]).flatMap (coverLeaf visiblePaths))

/-! ## Opaque values -/

mutual

/-- The findings of a rendered value, in the order in which the source's stack visits them. -/
def opaqueFindings (argument : String) : Json → List BindingFinding
  | .arr items => opaqueItems argument items
  | .obj members =>
    if (Json.lookup "truncated" members).any (Json.isBool true) then
      [⟨"OPAQUE_VALUE_TRUNCATED", "a signed byte value exceeds the bounded human-readable preview",
        [("argument", .str argument)]⟩]
    else []
  | .str s =>
    if 256 < s.length then
      [⟨"OPAQUE_VALUE_TOO_LONG", "a signed string value is too long for complete human review",
        [("argument", .str argument)]⟩]
    else []
  | .null => []
  | .bool _ => []
  | .int _ => []
  | .float _ => []
termination_by structural v => v

def opaqueItems (argument : String) : List Json → List BindingFinding
  | [] => []
  | v :: rest => opaqueItems argument rest ++ opaqueFindings argument v
termination_by structural items => items

end

/-! ## The binding -/

/-- The findings of `_presentation_binding` on a format. -/
def bindingFindings (env : Env) (fn : AbiFunction) (fmt : Format) (value : ℕ)
    (decoded : Option (List DecodedArgument)) : List BindingFinding :=
  let bound := fmt.fields.map (bindField env fn (expectedInputRoles env fn))
  (if intentMatchesKnownAction env fn fmt decoded then [] else
    [⟨"INTENT_ACTION_MISMATCH", "descriptor intent is not bound to the classified call action and values", []⟩]) ++
  bound.flatMap (·.findings) ++
  coverage fn (bound.filterMap (·.path)) ++
  (if decide (0 < value) && !(bound.filterMap (·.valueField)).any (fun field =>
      field.visible == some "always" && field.format == some "amount") then
    [⟨"VALUE_NOT_VISIBLE", "nonzero native value is not rendered as an always-visible amount",
      [("path", .str "@.value")]⟩] else []) ++
  (decoded.getD []).flatMap (fun item => opaqueFindings item.name item.value)

/-- `_presentation_binding`. -/
def presentationBinding (env : Env) (fn : AbiFunction) (fmt : Option Format) (value : ℕ)
    (decoded : Option (List DecodedArgument)) : Binding :=
  match fmt with
  | none => ⟨false, []⟩
  | some fmt =>
    let findings := bindingFindings env fn fmt value decoded
    ⟨findings.isEmpty, findings⟩

/-! ## Selected functions -/

/-- What `_validate_selected_function` leaves: identifiers as names, all inputs with different ones. -/
structure Selected (fn : AbiFunction) : Prop where
  function : isIdentifier fn.name = true
  named : ∀ i ∈ fn.inputs, i.name = some i.nameText
  identifier : ∀ i ∈ fn.inputs, isIdentifier i.nameText = true
  distinct : (fn.inputs.map AbiInput.nameText).Nodup

theorem validateInputName_ok {scope : String} {i : AbiInput} {name : String}
    (h : validateInputName scope i = .ok name) : i.name = some name ∧ isIdentifier name = true := by
  obtain ⟨inputName, abiType, components⟩ := i
  unfold validateInputName at h
  have hname : ∀ n, inputName.any isIdentifier = true → inputName.getD "" = n →
      inputName = some n ∧ isIdentifier n = true := by
    intro n hid hn
    obtain ⟨m, rfl, hm⟩ := (Option.any_eq_true _ _).mp hid
    obtain rfl : m = n := hn
    exact ⟨rfl, hm⟩
  split_ifs at h with hid htuple
  · obtain ⟨names, -, h⟩ := bind_eq_ok.mp h
    obtain ⟨-, h⟩ := rejectIf_bind_eq_ok.mp h
    exact hname name (by simpa using hid) (pure_eq_ok.mp h)
  · exact hname name (by simpa using hid) (Except.ok.inj h)

theorem validateInputNames_ok {scope : String} {inputs : List AbiInput} {names : List String}
    (h : validateInputNames scope inputs = .ok names) :
    names = inputs.map AbiInput.nameText ∧
      ∀ i ∈ inputs, i.name = some i.nameText ∧ isIdentifier i.nameText = true := by
  induction inputs generalizing names with
  | nil =>
    cases h
    exact ⟨rfl, nofun⟩
  | cons i inputs ih =>
    obtain ⟨name, hname, h⟩ := bind_eq_ok.mp h
    obtain ⟨rest, hrest, h⟩ := bind_eq_ok.mp h
    cases h
    obtain ⟨rfl, hall⟩ := ih hrest
    obtain ⟨hsome, hid⟩ := validateInputName_ok hname
    obtain rfl : i.nameText = name := by rw [AbiInput.nameText, hsome, Option.getD_some]
    refine ⟨rfl, ?_⟩
    intro j hj
    rcases List.mem_cons.mp hj with rfl | hj
    · exact ⟨hsome, hid⟩
    · exact hall j hj

theorem validateSelectedFunction_ok {fn : AbiFunction} {u : Unit} (h : validateSelectedFunction fn = .ok u) :
    Selected fn := by
  unfold validateSelectedFunction at h
  obtain ⟨hid, h⟩ := rejectIf_bind_eq_ok.mp h
  obtain ⟨names, hnames, h⟩ := bind_eq_ok.mp h
  obtain ⟨rfl, hall⟩ := validateInputNames_ok hnames
  refine ⟨by simpa using hid, fun i hi => (hall i hi).1, fun i hi => (hall i hi).2, ?_⟩
  exact not_not.mp (rejectIf_eq_ok.mp h)

theorem isIdentifier_ne_empty {text : String} (h : isIdentifier text = true) : text ≠ "" := by
  rintro rfl
  exact absurd h (by decide)

/-- An input is the only one of its name. -/
theorem Selected.find?_input {fn : AbiFunction} (h : Selected fn) {i : AbiInput} (hi : i ∈ fn.inputs) :
    fn.inputs.find? (fun j => !i.nameText.isEmpty && j.nameText == i.nameText) = some i := by
  have hne : i.nameText.isEmpty = false := by
    rw [String.isEmpty_eq_false_iff]
    exact isIdentifier_ne_empty (h.identifier i hi)
  obtain ⟨pre, post, hinputs⟩ := List.append_of_mem hi
  have hdistinct := h.distinct
  rw [hinputs, List.map_append, List.map_cons, List.nodup_append] at hdistinct
  rw [hinputs, List.find?_append, List.find?_eq_none.mpr, Option.none_or, List.find?_cons_of_pos]
  · simp [hne]
  · intro j hj hname
    simp only [hne, Bool.not_false, Bool.true_and, beq_iff_eq] at hname
    exact hdistinct.2.2 _ (List.mem_map_of_mem hj) _ List.mem_cons_self hname

/-! ## Leaves -/

theorem peelArrays_of_none {abiType : String} (h : arrayBase? abiType = none) (fuel : ℕ) :
    peelArrays fuel abiType = (0, abiType) := by
  rcases fuel with _ | fuel
  · rfl
  · rw [peelArrays, h]

/-- An array type has a suffix to peel. -/
theorem peelArrays_pos {abiType : String} (h : (arrayBase? abiType).isSome = true) :
    0 < (peelArrays abiType.length abiType).1 := by
  obtain ⟨base, hbase⟩ := Option.isSome_iff_exists.mp h
  rcases hlen : abiType.length with _ | n
  · have hnil : abiType.toList = [] := List.eq_nil_of_length_eq_zero (by rwa [String.length_toList])
    rw [arrayBase?, hnil] at hbase
    exact nomatch hbase
  · rw [peelArrays, hbase]
    exact Nat.succ_pos _

mutual

/-- A leaf path is at least as long as its prefix, and there is one. -/
theorem abiLeafPaths_length : ∀ (i : AbiInput) (pre : List String),
    abiLeafPaths i pre ≠ [] ∧ ∀ path ∈ abiLeafPaths i pre, pre.length ≤ path.length
  | ⟨name, abiType, components⟩, pre => by
    have hall := componentLeafPaths_length components 0
      (pre ++ List.replicate (peelArrays abiType.length abiType).1 "[]")
    rw [abiLeafPaths]
    split_ifs with htuple
    · refine ⟨fun hnil => ?_, fun path hpath => ?_⟩
      · have hempty := hall.1 hnil
        rw [hempty] at htuple
        simp at htuple
      · have hlen := hall.2 path hpath
        rw [List.length_append] at hlen
        omega
    · refine ⟨List.cons_ne_nil _ _, fun path hpath => ?_⟩
      rw [List.mem_singleton.mp hpath, List.length_append]
      omega

/-- The leaf paths of components are longer than their prefix. -/
theorem componentLeafPaths_length : ∀ (components : List AbiInput) (index : ℕ) (pre : List String),
    (componentLeafPaths index components pre = [] → components = []) ∧
      ∀ path ∈ componentLeafPaths index components pre, pre.length + 1 ≤ path.length
  | [], index, pre => ⟨fun _ => rfl, nofun⟩
  | component :: rest, index, pre => by
    have hfirst := abiLeafPaths_length component (pre ++ [(named component.name).getD ("component" ++ toString index)])
    have hrest := componentLeafPaths_length rest (index + 1) pre
    rw [componentLeafPaths]
    refine ⟨fun hnil => absurd (List.append_eq_nil_iff.mp hnil).1 hfirst.1, fun path hpath => ?_⟩
    rcases List.mem_append.mp hpath with hpath | hpath
    · have hlen := hfirst.2 path hpath
      rwa [List.length_append] at hlen
    · exact hrest.2 path hpath

end

/-- An input whose leaves are all no longer than its own path is one leaf: neither an array nor a tuple with
components. -/
theorem abiLeafPaths_scalar {i : AbiInput} {pre : List String}
    (h : ∀ path ∈ abiLeafPaths i pre, path.length = pre.length) :
    arrayBase? i.type = none ∧ ¬ (hasPrefix i.type "tuple" = true ∧ i.components ≠ []) ∧ abiLeafPaths i pre = [pre] := by
  obtain ⟨name, abiType, components⟩ := i
  have hall := componentLeafPaths_length components 0
    (pre ++ List.replicate (peelArrays abiType.length abiType).1 "[]")
  rw [abiLeafPaths] at h
  have harray : arrayBase? abiType = none := by
    by_contra hsome
    have hpos := peelArrays_pos (Option.isSome_iff_ne_none.mpr hsome)
    split_ifs at h with htuple
    · obtain ⟨path, hpath⟩ := List.exists_mem_of_ne_nil _ (mt hall.1 (by rintro rfl; simp at htuple))
      have hlen := hall.2 path hpath
      have heq := h path hpath
      rw [List.length_append, List.length_replicate] at hlen
      omega
    · have heq := h _ List.mem_cons_self
      rw [List.length_append, List.length_replicate] at heq
      omega
  rw [peelArrays_of_none harray] at h hall
  have hpre : pre ++ List.replicate 0 "[]" = pre := List.append_nil pre
  simp only [hpre] at h hall
  have htuple : ¬ (hasPrefix abiType "tuple" = true ∧ components ≠ []) := by
    rintro ⟨htup, hne⟩
    rw [if_pos (by simp [htup, hne])] at h
    obtain ⟨path, hpath⟩ := List.exists_mem_of_ne_nil _ (mt hall.1 hne)
    have hlen := hall.2 path hpath
    have heq := h path hpath
    omega
  refine ⟨harray, htuple, ?_⟩
  rw [abiLeafPaths, peelArrays_of_none harray, if_neg (by simpa using fun hp => not_not.mp (not_and.mp htuple hp))]
  exact congrArg (· :: []) hpre

theorem coverLeaf_eq_nil {visiblePaths : List (List String)} {required : List String}
    (h : coverLeaf visiblePaths required = []) : required ∈ visiblePaths ∧ required.length = 1 := by
  unfold coverLeaf at h
  split_ifs at h with hvisible hlen
  exact ⟨List.contains_iff_mem.mp hvisible, hlen⟩

/-- **Coverage**: when no leaf is missed, every input is one scalar leaf with a visible path. -/
theorem coverage_eq_nil {fn : AbiFunction} {visiblePaths : List (List String)} (h : coverage fn visiblePaths = [])
    {i : AbiInput} (hi : i ∈ fn.inputs) : arrayBase? i.type = none ∧
      ¬ (hasPrefix i.type "tuple" = true ∧ i.components ≠ []) ∧ [i.nameText] ∈ visiblePaths := by
  have hleaf : ∀ path ∈ abiLeafPaths i [i.nameText], path ∈ visiblePaths ∧ path.length = 1 := by
    intro path hpath
    exact coverLeaf_eq_nil (List.flatMap_eq_nil_iff.mp (List.flatMap_eq_nil_iff.mp h i hi) path hpath)
  obtain ⟨harray, htuple, hpaths⟩ := abiLeafPaths_scalar (fun path hpath => (hleaf path hpath).2)
  exact ⟨harray, htuple, (hleaf _ (hpaths ▸ List.mem_singleton_self _)).1⟩

/-! ## Fields -/

theorem hasPrefix_eq {text pre : String} (h : hasPrefix text pre = true) :
    text = pre ++ dropChars pre.length text := by
  obtain ⟨rest, hrest⟩ := List.isPrefixOf_iff_prefix.mp h
  rw [← String.toList_inj, String.toList_append, dropChars, String.toList_ofList, ← hrest, ← String.length_toList,
    List.drop_left]

/-- What a visible path of one segment says of its field. -/
structure ShowsArgument (i : AbiInput) (field : Field) : Prop where
  path : field.path = some ("#." ++ i.nameText)
  visible : field.universallyVisible = true
  compatible : formatMatchesAbi i.type field.format = true
  address : i.type = "address" → field.format = some "addressName"
  verified : ∀ format, field.format = some format → format ∉ unverifiedFieldFormats
  params : field.params.getD [] = []

theorem bindArgument_path {env : Env} {roles : List (String × Role)} {path : String} {segments shown : List String}
    {target : AbiInput} {field : Field} (h : (bindArgument env roles path segments target field).path = some shown) :
    shown = segments ∧ field.universallyVisible = true ∧ formatMatchesAbi target.type field.format = true ∧
      (target.type = "address" → field.format = some "addressName") ∧
      (∀ format, field.format = some format → format ∉ unverifiedFieldFormats) ∧ field.params.getD [] = [] := by
  unfold bindArgument at h
  split_ifs at h with hvisible hformat haddress hverified hparams hrole
  iterate 6 exact nomatch h
  refine ⟨(Option.some.inj h).symm, by simpa using hvisible, by simpa using hformat, ?_, ?_, by simpa using hparams⟩
  · intro haddr
    simpa [haddr] using haddress
  · intro format hsome hmem
    rw [hsome, Option.any_some] at hverified
    exact hverified (List.contains_iff_mem.mpr hmem)

/-- A visible argument's label is one of its role. -/
theorem bindArgument_label {env : Env} {roles : List (String × Role)} {path : String} {segments shown : List String}
    {target : AbiInput} {field : Field} (h : (bindArgument env roles path segments target field).path = some shown)
    {role : Role} (hrole : expectedRole roles segments = some role) :
    labelMatchesRole env role (field.label.getD "") = true := by
  unfold bindArgument at h
  split_ifs at h with hvisible hformat haddress hverified hparams hlabel
  iterate 6 exact nomatch h
  rw [hrole, Option.any_some, Bool.not_eq_true', Bool.not_eq_false] at hlabel
  exact hlabel

/-- A field with the path of an input was bound as that argument. -/
theorem bindField_argument {env : Env} {fn : AbiFunction} (hfn : Selected fn) {roles : List (String × Role)}
    {field : Field} {i : AbiInput} (hi : i ∈ fn.inputs)
    (h : (bindField env fn roles field).path = some [i.nameText]) : field.path = some ("#." ++ i.nameText) ∧
      ∃ path, (bindArgument env roles path [i.nameText] i field).path = some [i.nameText] := by
  unfold bindField at h
  split_ifs at h with hfrom hto hvalue
  · exact nomatch h
  · exact nomatch h
  · unfold bindValue at h
    split_ifs at h <;> exact nomatch h
  · rcases hpath : field.path.filter (hasPrefix · "#.") with _ | path
    · rw [hpath] at h
      exact nomatch h
    · obtain ⟨hsome, hpre⟩ := Option.filter_eq_some_iff.mp hpath
      simp only [hpath] at h
      split at h
      · exact nomatch h
      · rename_i target htarget
        have hsegments := (bindArgument_path h).1
        rw [← hsegments, List.headD_cons, hfn.find?_input hi, List.drop_one, List.tail_cons, Option.bind_some] at htarget
        obtain rfl : i = target := Option.some.inj htarget
        have hname := splitOn_eq_singleton hsegments.symm
        refine ⟨?_, path, hsegments ▸ h⟩
        rw [hsome, ← hname]
        exact congrArg some (hasPrefix_eq hpre)

/-- **A field that shows an input** has its path, and passed every check of the argument. -/
theorem bindField_path {env : Env} {fn : AbiFunction} (hfn : Selected fn) {roles : List (String × Role)}
    {field : Field} {i : AbiInput} (hi : i ∈ fn.inputs)
    (h : (bindField env fn roles field).path = some [i.nameText]) : ShowsArgument i field := by
  obtain ⟨hname, path, hbound⟩ := bindField_argument hfn hi h
  obtain ⟨-, hvisible, hformat, haddress, hverified, hparams⟩ := bindArgument_path hbound
  exact ⟨hname, hvisible, hformat, haddress, hverified, hparams⟩

/-- The label of a field that shows an input with a role is one of the role. -/
theorem bindField_label {env : Env} {fn : AbiFunction} (hfn : Selected fn) {roles : List (String × Role)}
    {field : Field} {i : AbiInput} (hi : i ∈ fn.inputs)
    (h : (bindField env fn roles field).path = some [i.nameText]) {role : Role}
    (hrole : roleOf roles i.nameText = some role) : labelMatchesRole env role (field.label.getD "") = true := by
  obtain ⟨-, path, hbound⟩ := bindField_argument hfn hi h
  exact bindArgument_label hbound hrole

/-- A visible native value is on `@.value`. -/
theorem bindField_value {env : Env} {fn : AbiFunction} {roles : List (String × Role)} {field shown : Field}
    (h : (bindField env fn roles field).valueField = some shown) : shown = field ∧ field.path = some "@.value" := by
  unfold bindField at h
  split_ifs at h with hfrom hto hvalue
  · exact nomatch h
  · exact nomatch h
  · unfold bindValue at h
    split_ifs at h
    iterate 2 exact nomatch h
    all_goals exact ⟨(Option.some.inj h).symm, beq_iff_eq.mp hvalue⟩
  · split at h
    · exact nomatch h
    · dsimp only at h
      split at h
      · exact nomatch h
      · unfold bindArgument at h
        split_ifs at h <;> exact nomatch h

end Lucent.Preflight
