import Lucent.Preflight.Transaction

/-!
# Lucent.Preflight.Clearance — what `safe_to_present` guarantees

* `ClearPresentation`: a screen that shows every signed value of a call, with analyzers that found nothing.
* `preflightTransaction_clear`: a cleared request has one.
-/

namespace Lucent.Preflight

open Lucent.Lib

/-! ## Decoded values -/

/-- `w` is the value `v` or occurs in it. -/
inductive Within : AbiValue → AbiValue → Prop
  | refl (v : AbiValue) : Within v v
  | item {w v : AbiValue} {items : List AbiValue} : v ∈ items → Within w v → Within w (.seq items)

/-- A value a signer can read whole: at most 64 bytes, at most 256 characters. -/
def Readable : AbiValue → Prop
  | .bytes value => value.length ≤ 64
  | .str value => value.length ≤ 256
  | _ => True

theorem opaqueItems_eq_nil {env : Env} {argument : String} {items : List AbiValue}
    (h : opaqueItems argument (jsonSafeItems env items) = []) {v : AbiValue} (hv : v ∈ items) :
    opaqueFindings argument (jsonSafe env v) = [] := by
  induction items with
  | nil => exact absurd hv List.not_mem_nil
  | cons w items ih =>
    obtain ⟨hrest, hfirst⟩ := List.append_eq_nil_iff.mp h
    rcases List.mem_cons.mp hv with rfl | hv
    · exact hfirst
    · exact ih hrest hv

/-- A rendered value without findings is readable, inside and out. -/
theorem readable_of_rendered {env : Env} {argument : String} {v w : AbiValue}
    (h : opaqueFindings argument (jsonSafe env v) = []) (hw : Within w v) : Readable w := by
  induction hw with
  | refl =>
    rcases w with value | value | value | value | items | value
    · rw [jsonSafe] at h
      split_ifs at h with hlen
      · exact hlen
      · exact nomatch h
    · trivial
    · trivial
    · rw [jsonSafe, opaqueFindings] at h
      split_ifs at h with hlen
      exact Nat.le_of_not_lt hlen
    · trivial
    · trivial
  | item hmem _ ih =>
    rw [jsonSafe, opaqueFindings] at h
    exact ih (opaqueItems_eq_nil h hmem)

/-- Each decoded value is rendered under the name of its input. -/
theorem renderArguments_ok {env : Env} {index : ℕ} {inputs : List AbiInput} {values : List AbiValue}
    {decoded : List DecodedArgument} (h : renderArguments env index inputs values = .ok decoded) {v : AbiValue}
    (hv : v ∈ values) : ∃ item ∈ decoded, item.value = jsonSafe env v := by
  induction inputs generalizing index values decoded with
  | nil =>
    rcases values with _ | ⟨w, values⟩
    · exact absurd hv List.not_mem_nil
    · exact nomatch h
  | cons i inputs ih =>
    rcases values with _ | ⟨w, values⟩
    · exact nomatch h
    · obtain ⟨others, hothers, h⟩ := bind_eq_ok.mp h
      cases h
      rcases List.mem_cons.mp hv with rfl | hv
      · exact ⟨_, List.mem_cons_self, rfl⟩
      · obtain ⟨item, hitem, hvalue⟩ := ih hothers hv
        exact ⟨item, List.mem_cons_of_mem _ hitem, hvalue⟩

/-! ## The screen -/

/-- The screen shows an input: a scalar with exactly one field, which is always visible, has no parameters, and
renders addresses by name and other types by a deterministic format of theirs. -/
structure ShowsInput (fmt : Format) (i : AbiInput) : Prop where
  scalar : arrayBase? i.type = none ∧ ¬ (hasPrefix i.type "tuple" = true ∧ i.components ≠ [])
  shown : ∃ field, fmt.fields.filter (fun field => field.path == some ("#." ++ i.nameText)) = [field] ∧
    (field.visible = none ∨ field.visible = some "always") ∧ field.params.getD [] = [] ∧
    if i.type = "address" then field.format = some "addressName"
    else ∃ format ∈ ["raw", "amount", "duration"], field.format = some format ∧
      formatMatchesAbi i.type (some format) = true

/-- The screen shows the native value as an amount that is always visible. -/
def ShowsValue (fmt : Format) : Prop :=
  ∃ field ∈ fmt.fields, field.path = some "@.value" ∧ field.format = some "amount" ∧ field.visible = some "always"

/-- **What `safe_to_present` stands for**, of a result whose function has the format `fmt`. -/
structure ClearPresentation (env : Env) (r : PreflightResult) (fmt : Format) : Prop where
  /-- The descriptor has a format under exactly the signature of the resolved function. -/
  format : ∃ entry, displayFormat r.call.descriptor.raw (signature r.call.function) = some entry ∧
    validateFormat env (signature r.call.function) entry = .ok fmt
  /-- Every input is shown. -/
  inputs : ∀ i ∈ r.call.function.inputs, ShowsInput fmt i
  /-- Native value goes to a payable function, and is shown. -/
  value : r.call.value ≠ 0 → r.call.function.acceptsValue = true ∧ ShowsValue fmt
  /-- Every decoded value is short enough to be read. -/
  readable : ∀ v ∈ r.call.values, ∀ w, Within w v → Readable w
  /-- The analyzers found nothing. -/
  audit : ∀ finding ∈ r.audit.findings, finding.severity = .low
  danger : r.danger = []
  comprehension : r.comprehension.tier ≠ .critical ∧ r.comprehension.tier ≠ .high
  /-- The calldata is the selector of the function and the encoding of the decoded values. -/
  calldata : ∃ encoded, r.call.calldata = selector env (signature r.call.function) ++ encoded ∧
    (selector env (signature r.call.function)).length = 4 ∧
    env.abiDecode (canonicalTypes r.call.function.inputs) encoded = some r.call.values ∧
    env.abiEncode (canonicalTypes r.call.function.inputs) r.call.values = some encoded

/-- A field that shows an input in a format without duplicate paths is its only one. -/
theorem filter_path_eq {fields : List Field} (h : (fields.filterMap Field.path).Nodup) {field : Field} {path : String}
    (hmem : field ∈ fields) (hpath : field.path = some path) :
    fields.filter (fun other => other.path == some path) = [field] := by
  obtain ⟨pre, post, rfl⟩ := List.append_of_mem hmem
  rw [List.filterMap_append, List.filterMap_cons_some hpath, List.nodup_append, List.nodup_cons] at h
  obtain ⟨-, ⟨hpost, -⟩, hpre⟩ := h
  have hnone : ∀ {other : Field} {l : List Field}, path ∉ l.filterMap Field.path → other ∈ l →
      ¬ (other.path == some path) = true := by
    intro other l hl hother heq
    exact hl (List.mem_filterMap.mpr ⟨other, hother, beq_iff_eq.mp heq⟩)
  rw [List.filter_append, List.filter_cons, if_pos (beq_iff_eq.mpr hpath),
    List.filter_eq_nil_iff.mpr fun other => hnone fun hin => hpre path hin path List.mem_cons_self rfl,
    List.filter_eq_nil_iff.mpr fun other => hnone hpost]
  rfl

/-- The formats of a visible scalar field that are neither resolved elsewhere nor of another type. -/
theorem deterministic_format {abiType format : String} (haddress : abiType ≠ "address")
    (hallowed : format ∈ allowedFieldFormats) (hverified : format ∉ unverifiedFieldFormats)
    (hmatch : formatMatchesAbi abiType (some format) = true) : format ∈ ["raw", "amount", "duration"] := by
  simp only [allowedFieldFormats, unverifiedFieldFormats, List.mem_cons, List.not_mem_nil, or_false, not_or] at *
  rcases hallowed with rfl | rfl | rfl | rfl | rfl | rfl | rfl | rfl | rfl | rfl
  any_goals tauto
  -- `addressName` is for addresses only
  unfold formatMatchesAbi at hmatch
  rw [beq_eq_false_iff_ne.mpr haddress] at hmatch
  simp only [Option.getD_some, Bool.false_eq_true, if_false] at hmatch
  split_ifs at hmatch <;> exact absurd hmatch (by decide)

theorem ShowsArgument.showsInput {fmt : Format} (hfmt : FormatOk fmt) {i : AbiInput} {field : Field}
    (hmem : field ∈ fmt.fields) (h : ShowsArgument i field)
    (hscalar : arrayBase? i.type = none ∧ ¬ (hasPrefix i.type "tuple" = true ∧ i.components ≠ [])) :
    ShowsInput fmt i := by
  refine ⟨hscalar, field, filter_path_eq hfmt.distinct hmem h.path, ?_, h.params, ?_⟩
  · have hvisible := h.visible
    simpa [Field.universallyVisible] using hvisible
  · split_ifs with haddress
    · exact h.address haddress
    · obtain ⟨format, hallowed, hformat⟩ := (hfmt.fields field hmem).format h.visible
      have hmatch := h.compatible
      rw [hformat] at hmatch
      exact ⟨format, deterministic_format haddress hallowed (h.verified format hformat) hmatch, hformat, hmatch⟩

/-- **A complete binding** shows every input and the native value, and leaves no value opaque. -/
theorem bindingFindings_eq_nil {env : Env} {fn : AbiFunction} (hfn : Selected fn) {fmt : Format} (hfmt : FormatOk fmt)
    {value : ℕ} {decoded : List DecodedArgument} (h : bindingFindings env fn fmt value (some decoded) = []) :
    (∀ i ∈ fn.inputs, ShowsInput fmt i) ∧ (value ≠ 0 → ShowsValue fmt) ∧
      ∀ item ∈ decoded, opaqueFindings item.name item.value = [] := by
  unfold bindingFindings at h
  simp only [List.append_eq_nil_iff] at h
  obtain ⟨⟨⟨-, hcoverage⟩, hvalue⟩, hopaque⟩ := h
  refine ⟨?_, ?_, List.flatMap_eq_nil_iff.mp hopaque⟩
  · intro i hi
    obtain ⟨harray, htuple, hpath⟩ := coverage_eq_nil hcoverage hi
    obtain ⟨bound, hbound, hpath⟩ := List.mem_filterMap.mp hpath
    obtain ⟨field, hmem, rfl⟩ := List.mem_map.mp hbound
    exact (bindField_path hfn hi hpath).showsInput hfmt hmem ⟨harray, htuple⟩
  · intro hne
    split_ifs at hvalue with hcond
    rw [decide_eq_true (Nat.pos_of_ne_zero hne), Bool.true_and, Bool.not_eq_true', Bool.not_eq_false,
      List.any_eq_true] at hcond
    obtain ⟨shown, hshown, hvisible⟩ := hcond
    obtain ⟨bound, hbound, hshown⟩ := List.mem_filterMap.mp hshown
    obtain ⟨field, hmem, rfl⟩ := List.mem_map.mp hbound
    obtain ⟨rfl, hpath⟩ := bindField_value hshown
    obtain ⟨halways, hamount⟩ := (Bool.and_eq_true _ _).mp hvisible
    exact ⟨shown, hmem, hpath, beq_iff_eq.mp hamount, beq_iff_eq.mp halways⟩

/-! ## Cleared requests -/

/-- The refinement drops findings and adds none. -/
theorem applyCallDependentDanger_subset (env : Env) (fn : AbiFunction) (decoded : List DecodedArgument)
    (findings : List DangerFinding) : applyCallDependentDanger env fn decoded findings ⊆ findings := by
  unfold applyCallDependentDanger
  split_ifs
  · exact List.Subset.refl _
  · exact List.filter_subset_self findings
  · exact List.Subset.refl _

/-- A refined call without findings above LOW has none. -/
theorem Assessed.danger_eq_nil {env : Env} {r : PreflightResult} (h : Assessed env r)
    (hlow : ∀ finding ∈ r.danger, finding.severity = .low) : r.danger = [] := by
  refine List.eq_nil_iff_forall_not_mem.mpr fun finding hmem => ?_
  have hassess : finding ∈ assess env r.call.function := by
    rw [h.danger, List.mem_insertionSort] at hmem
    exact applyCallDependentDanger_subset env _ _ _ hmem
  exact assess_severity env r.call.function finding hassess (hlow finding hmem)

/-- **Clearance**: a request with gate `safe_to_present` has a clear presentation. -/
theorem preflightTransaction_clear {env : Env} {args : Json} {r : PreflightResult}
    (h : preflightTransaction env args = .ok r) (hsafe : r.verdict.gate = .safeToPresent) :
    ∃ fmt, r.call.format = some fmt ∧ ClearPresentation env r fmt := by
  obtain ⟨-, haccepted, hassessed⟩ := preflightTransaction_ok h
  rw [hassessed.verdict] at hsafe
  obtain ⟨hpayable, hcall, hbinding⟩ := finalVerdict_safe hsafe
  obtain ⟨hformat, haudit, hdanger, hcritical, hhigh⟩ := callVerdict_safe hcall
  obtain ⟨fmt, hfmt⟩ := Option.isSome_iff_exists.mp hformat
  obtain ⟨json, hdescriptor⟩ := haccepted.descriptor
  obtain ⟨-, entry, hentry, hvalid⟩ := validateDescriptor_format hdescriptor hfmt
  rw [hassessed.binding, hfmt] at hbinding
  obtain ⟨hinputs, hvalue, hopaque⟩ := bindingFindings_eq_nil haccepted.selected (validateFormat_ok hvalid) hbinding
  have hselector := resolveCall_selector haccepted.resolved
  refine ⟨fmt, hfmt, ⟨entry, hentry, hvalid⟩, hinputs, fun hne => ⟨hpayable hne, hvalue hne⟩, ?_, haudit,
    hassessed.danger_eq_nil hdanger, ⟨hcritical, hhigh⟩, r.call.calldata.drop 4, ?_, ?_, haccepted.decoded.decodes,
    haccepted.decoded.canonical⟩
  · intro v hv w hw
    obtain ⟨item, hitem, hjson⟩ := renderArguments_ok haccepted.decoded.rendered hv
    have hempty := hopaque item hitem
    rw [hjson] at hempty
    exact readable_of_rendered hempty hw
  · rw [hselector, List.take_append_drop]
  · rw [hselector, List.length_take]
    exact Nat.min_eq_left haccepted.calldata

/-! ## A cleared request -/

/-- The bytes of a text of hexadecimal digits. -/
def hexOf (text : String) : Bytes := hexBytes text.toList

/-- A number as a word of 32 bytes, and back. -/
def wordOf (n : ℕ) : Bytes := (List.range 32).reverse.map (fun k => UInt8.ofNat (n / 256 ^ k))
def natOf (word : Bytes) : ℕ := word.foldl (fun n b => 256 * n + b.toNat) 0

/-- One word of the ABI codec, for the types that fill one. -/
def decodeWord (abiType : String) (word : Bytes) : Option AbiValue :=
  if abiType = "address" then
    if natOf word < 2 ^ 160 then some (.str ("0x" ++ hexText (word.drop 12))) else none
  else if abiType = "uint256" then some (.int (natOf word))
  else if abiType = "bool" then if natOf word < 2 then some (.bool (decide (natOf word = 1))) else none
  else none

def encodeWord (abiType : String) (value : AbiValue) : Option Bytes :=
  match value with
  | .str text => if abiType = "address" then some (List.replicate 12 0 ++ hexBytes (text.toList.drop 2)) else none
  | .int n => if abiType = "uint256" ∧ 0 ≤ n ∧ n < 2 ^ 256 then some (wordOf n.toNat) else none
  | .bool b => if abiType = "bool" then some (wordOf (if b then 1 else 0)) else none
  | _ => none

def decodeWords : List String → Bytes → Option (List AbiValue)
  | [], _ => some []
  | abiType :: types, data => do
    let value ← if data.length < 32 then none else decodeWord abiType (data.take 32)
    let values ← decodeWords types (data.drop 32)
    return value :: values

def encodeWords : List String → List AbiValue → Option Bytes
  | [], [] => some []
  | abiType :: types, value :: values => do
    let word ← encodeWord abiType value
    let words ← encodeWords types values
    return word ++ words
  | _, _ => none

/-- Digests of signatures. -/
def demoKeccak (data : Bytes) : Bytes :=
  if data = utf8 "transfer(address,uint256)" then
    hexOf "a9059cbb2ab09eb219583f4a59a5d0623ade346d962bcd4e46b11da047c9049b"
  else if data = utf8 "transferFrom(address,address,uint256)" then
    hexOf "23b872dd7302113369cda2901243429419bec145408fa8b352b3dd92b66c680b"
  else if data = utf8 "approve(address,uint256)" then
    hexOf "095ea7b334ae44009aa867bfb386f5c3b4b443ac6f0ee573fa91c4608fbadfba"
  else []

/-- Words as ABI values, the digests of a few signatures, and `digest` as the digest of the request. -/
def demoEnv (digest : Bytes) : Env where
  sha256 _ := digest
  keccak := demoKeccak
  lower := lowerAscii
  lower_ascii _ _ := rfl
  repr text := "'" ++ text ++ "'"
  isEncodableType abiType := .ok (["address", "uint256", "bool"].contains abiType)
  abiDecode := decodeWords
  abiEncode := encodeWords
  cachedAbi _ _ := none

/-- An ABI input and a display field, as JSON. -/
def inputJson (name abiType : String) : Json := .obj [("name", .str name), ("type", .str abiType)]
def fieldJson (path label format : String) : Json :=
  .obj [("path", .str path), ("label", .str label), ("format", .str format)]

/-- A call of one function on one contract, with the descriptor of that function. -/
def callRequest (name signature data : String) (inputs : List Json) (format : List (String × Json)) : Json :=
  .obj [("transaction", .obj [("chain_id", .int 1), ("from", .str "0x1111111111111111111111111111111111111111"),
      ("to", .str "0x2222222222222222222222222222222222222222"), ("data", .str data), ("value", .str "0x0")]),
    ("descriptor", .obj [
      ("context", .obj [("contract", .obj [
        ("abi", .arr [.obj [("type", .str "function"), ("name", .str name), ("inputs", .arr inputs),
          ("stateMutability", .str "nonpayable")]]),
        ("deployments", .arr [.obj [("chainId", .int 1),
          ("address", .str "0x2222222222222222222222222222222222222222")]])])]),
      ("display", .obj [("formats", .obj [(signature, .obj format)])])])]

/-- A transfer of 1000 units to a named address. -/
def transferRequest : Json :=
  callRequest "transfer" "transfer(address,uint256)"
    ("0xa9059cbb" ++ "0000000000000000000000003333333333333333333333333333333333333333" ++
      "00000000000000000000000000000000000000000000000000000000000003e8")
    [inputJson "to" "address", inputJson "amount" "uint256"]
    [("intent", .str "Send tokens"), ("interpolatedIntent", .str "Send \x7bamount\x7d to \x7bto\x7d"),
      ("fields", .arr [fieldJson "#.to" "To" "addressName", fieldJson "#.amount" "Amount" "raw"])]

def transferDigest : Bytes := hexOf "8be9c902b8831480932d6565d6b1f7860af4bc9fec2f5e7bd7f7572b8d23eb66"

/-- The request is answered by a result that satisfies `p`. -/
def answers (p : PreflightResult → Bool) : Except Failure PreflightResult → Bool
  | .ok r => p r
  | .error _ => false

theorem exists_of_answers {p : PreflightResult → Bool} {result : Except Failure PreflightResult}
    (h : answers p result = true) : ∃ r, result = .ok r ∧ p r = true := by
  rcases result with failure | r
  · exact nomatch h
  · exact ⟨r, rfl, h⟩

/-- The transfer is cleared. -/
theorem transferRequest_answer : answers (fun r => decide (r.verdict.gate = .safeToPresent))
    (preflightTransaction (demoEnv transferDigest) transferRequest) = true := by decide +kernel

theorem preflightTransaction_clear_transfer : ∃ r fmt,
    preflightTransaction (demoEnv transferDigest) transferRequest = .ok r ∧ r.call.format = some fmt ∧
      ClearPresentation (demoEnv transferDigest) r fmt := by
  obtain ⟨r, hr, hsafe⟩ := exists_of_answers transferRequest_answer
  obtain ⟨fmt, hfmt, hclear⟩ := preflightTransaction_clear hr (of_decide_eq_true hsafe)
  exact ⟨r, fmt, hr, hfmt, hclear⟩

end Lucent.Preflight
