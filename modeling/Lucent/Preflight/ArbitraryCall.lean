import Lucent.Preflight.Headline

/-!
# Lucent.Preflight.ArbitraryCall — calls with a target and a calldata blob

* `ArbitraryCallShape`: an address input named like a call target, and a bytes input named like calldata.
* `finalVerdict_block_iff`: what blocks a call.
* `arbitraryCall_block_iff`: of the calls with that shape, `danger.py` lets those pass whose name is one of a receiver
  hook; they are blocked only where something else blocks them.
-/

namespace Lucent.Preflight

open Lucent.Lib

/-- The (target, calldata) shape of an arbitrary external call; names are compared without case. -/
structure ArbitraryCallShape (env : Env) (fn : AbiFunction) : Prop where
  target : ∃ i ∈ fn.inputs, i.type = "address" ∧ env.lower i.nameText ∈ targetNames
  calldata : ∃ i ∈ fn.inputs, i.type = "bytes" ∧ env.lower i.nameText ∈ calldataNames

/-- The token hooks and transfers of the ERC standards that take bytes. -/
def standardSignatures : List String :=
  ["onERC721Received(address,address,uint256,bytes)",
    "onERC1155Received(address,address,uint256,uint256,bytes)",
    "onERC1155BatchReceived(address,address,uint256[],uint256[],bytes)",
    "tokensReceived(address,address,address,uint256,bytes,bytes)",
    "safeTransferFrom(address,address,uint256,bytes)",
    "safeTransferFrom(address,address,uint256,uint256,bytes)",
    "safeBatchTransferFrom(address,address,uint256[],uint256[],bytes)"]

/-- The screen hides a value: a payable function without `@.value`, or a token amount without a token. -/
def HidesValue (fn : AbiFunction) (fmt : Format) : Prop :=
  (fn.declaredPayable = true ∧ ∀ field ∈ fmt.fields, field.path ≠ some "@.value") ∨
    ∃ field ∈ fmt.fields, field.format = some "tokenAmount" ∧
      (Json.lookup "token" (field.params.getD [])).any Json.truthy = false ∧
      (Json.lookup "tokenPath" (field.params.getD [])).any Json.truthy = false

/-- Something other than the shape blocks the call: value for a nonpayable function, no format, a hidden value, or a
signed value the screen does not bind. -/
def BlockedOtherwise (env : Env) (call : AcceptedCall) : Prop :=
  (call.value ≠ 0 ∧ call.function.acceptsValue = false) ∨ call.format = none ∨
    ∃ fmt, call.format = some fmt ∧ (HidesValue call.function fmt ∨
      bindingFindings env call.function fmt call.value (some call.decoded) ≠ [])

/-! ## What blocks -/

theorem callVerdict_block_iff {findings : List AuditFinding} {comprehension : Classification}
    {danger : List DangerFinding} {hasFormat : Bool} :
    (callVerdict findings comprehension danger hasFormat).gate = .block ↔ hasFormat = false ∨
      (∃ finding ∈ findings, finding.severity = .critical) ∨ ∃ finding ∈ danger, finding.severity = .critical := by
  simp only [callVerdict]
  split_ifs with hformat hcritical hdanger
  · exact ⟨fun _ => .inl (by simpa using hformat), fun _ => rfl⟩
  · simp only [List.any_eq_true, beq_iff_eq] at hcritical
    exact ⟨fun _ => .inr (.inl hcritical), fun _ => rfl⟩
  · simp only [List.any_eq_true, beq_iff_eq] at hdanger
    exact ⟨fun _ => .inr (.inr hdanger), fun _ => rfl⟩
  all_goals
    simp only [List.any_eq_true, beq_iff_eq] at hcritical hdanger
    refine ⟨nofun, ?_⟩
    rintro (h | h | h)
    · exact absurd h (by simpa using hformat)
    · exact absurd h hcritical
    · exact absurd h hdanger

theorem finalVerdict_block_iff {fn : AbiFunction} {value : ℕ} {analyzer : Verdict} {binding : Binding} :
    (finalVerdict fn value analyzer binding).gate = .block ↔
      (value ≠ 0 ∧ fn.acceptsValue = false) ∨ analyzer.gate = .block ∨ binding.findings ≠ [] := by
  unfold finalVerdict valueVerdict bindingVerdict
  by_cases hvalue : value = 0 ∨ fn.acceptsValue = true
  · rw [if_pos (by simpa using hvalue)]
    have hno : ¬ (value ≠ 0 ∧ fn.acceptsValue = false) := by
      rintro ⟨hne, hfalse⟩
      rcases hvalue with hzero | htrue
      · exact hne hzero
      · exact nomatch htrue.symm.trans hfalse
    dsimp only
    split_ifs with hblock hempty
    · exact ⟨fun _ => .inr (.inl (by simpa using hblock)), fun _ => by simpa using hblock⟩
    · rw [Option.getD_none]
      refine ⟨fun h => .inr (.inl h), ?_⟩
      rintro (h | h | h)
      · exact absurd h hno
      · exact h
      · exact absurd (List.isEmpty_iff.mp hempty) h
    · exact ⟨fun _ => .inr (.inr (by simpa using hempty)), fun _ => rfl⟩
  · rw [if_neg (by simpa using hvalue)]
    rw [not_or, Bool.not_eq_true] at hvalue
    exact ⟨fun _ => .inl hvalue, fun _ => rfl⟩

/-! ## The screen -/

theorem mem_ite_singleton {α : Type} {c : Bool} {a b : α} :
    a ∈ (if c = true then [b] else []) ↔ c = true ∧ a = b := by
  split_ifs with h
  · simp [h]
  · simp [h]

theorem auditField_critical {types : List (String × String)} {sig : String} {field : Field} :
    (∃ finding ∈ auditField types (fun severity issue => ⟨severity, bareName sig, issue⟩) field,
      finding.severity = .critical) ↔ field.format = some "tokenAmount" ∧
        (Json.lookup "token" (field.params.getD [])).any Json.truthy = false ∧
        (Json.lookup "tokenPath" (field.params.getD [])).any Json.truthy = false := by
  constructor
  · rintro ⟨finding, hmem, hsev⟩
    simp only [auditField, List.mem_append, mem_ite_singleton] at hmem
    rcases hmem with (⟨-, rfl⟩ | ⟨hcond, rfl⟩) | ⟨-, rfl⟩
    · exact nomatch hsev
    · simpa [and_assoc] using hcond
    · exact nomatch hsev
  · intro hcond
    refine ⟨_, List.mem_append_left _ (List.mem_append_right _ (mem_ite_singleton.mpr ⟨?_, rfl⟩)), rfl⟩
    simpa [and_assoc] using hcond

theorem auditScreen_critical {fn : AbiFunction} {sig : String} {fmt : Format} {findings : List AuditFinding}
    (h : auditScreen fn sig fmt = .ok findings) :
    (∃ finding ∈ findings, finding.severity = .critical) ↔ HidesValue fn fmt := by
  unfold auditScreen at h
  obtain ⟨types, -, h⟩ := bind_eq_ok.mp h
  obtain rfl := pure_eq_ok.mp h
  have hfields : (∃ finding ∈ fmt.fields.flatMap
        (auditField types fun severity issue => ⟨severity, bareName sig, issue⟩), finding.severity = .critical) ↔
      ∃ field ∈ fmt.fields, field.format = some "tokenAmount" ∧
        (Json.lookup "token" (field.params.getD [])).any Json.truthy = false ∧
        (Json.lookup "tokenPath" (field.params.getD [])).any Json.truthy = false := by
    constructor
    · rintro ⟨finding, hmem, hsev⟩
      obtain ⟨field, hfield, hmem⟩ := List.mem_flatMap.mp hmem
      exact ⟨field, hfield, auditField_critical.mp ⟨finding, hmem, hsev⟩⟩
    · rintro ⟨field, hfield, hcond⟩
      obtain ⟨finding, hmem, hsev⟩ := auditField_critical.mpr hcond
      exact ⟨finding, List.mem_flatMap.mpr ⟨field, hfield, hmem⟩, hsev⟩
  have hpayable : (fn.stateMutability == some "payable" &&
      (fmt.fields.find? (fun field => field.path == some "@.value")).isNone) = true ↔
        fn.declaredPayable = true ∧ ∀ field ∈ fmt.fields, field.path ≠ some "@.value" := by
    rw [Bool.and_eq_true, Option.isNone_iff_eq_none, List.find?_eq_none]
    simp only [AbiFunction.declaredPayable, beq_iff_eq, ne_eq]
  unfold HidesValue
  rw [← hfields, ← hpayable]
  constructor
  · rintro ⟨finding, hmem, hsev⟩
    simp only [List.mem_append, mem_ite_singleton] at hmem
    rcases hmem with ((((((⟨-, rfl⟩ | ⟨hcond, rfl⟩) | ⟨-, rfl⟩) | ⟨-, rfl⟩) | hmem) | ⟨-, rfl⟩) | ⟨-, rfl⟩) | ⟨-, rfl⟩
    · exact nomatch hsev
    · exact .inl hcond
    · exact nomatch hsev
    · exact nomatch hsev
    · exact .inr ⟨finding, hmem, hsev⟩
    · exact nomatch hsev
    · exact nomatch hsev
    · exact nomatch hsev
  · simp only [List.mem_append, mem_ite_singleton]
    rintro (hcond | ⟨finding, hmem, hsev⟩)
    · exact ⟨_, .inl (.inl (.inl (.inl (.inl (.inl (.inr ⟨hcond, rfl⟩)))))), rfl⟩
    · exact ⟨finding, .inl (.inl (.inl (.inr hmem))), hsev⟩

theorem signableFunctions_singleton {fn : AbiFunction} {abi : List AbiFunction} (h : fn ∈ signableFunctions abi) :
    signableFunctions [fn] = [fn] := by
  rw [signableFunctions, List.filter_cons, if_pos (List.mem_filter.mp h).2, List.filter_nil]

/-- The audit of one function with its format is that of its screen. -/
theorem audit_one {fn : AbiFunction} (hfn : signableFunctions [fn] = [fn]) {fmt : Format} {report : AuditReport}
    (h : audit [fn] [(signature fn, fmt)] = .ok report) :
    ∃ findings, auditScreen fn (signature fn) fmt = .ok findings ∧ ∀ finding, finding ∈ report.findings ↔
      finding ∈ findings := by
  have htable : signableTable (signableFunctions [fn]) = [(signature fn, fn)] := by
    rw [hfn]
    rfl
  unfold audit at h
  rw [htable] at h
  obtain ⟨screens, hscreens, h⟩ := bind_eq_ok.mp h
  obtain rfl := pure_eq_ok.mp h
  rw [List.mapM_cons, assoc_cons, if_pos rfl] at hscreens
  obtain ⟨findings, hfindings, hscreens⟩ := bind_eq_ok.mp hscreens
  obtain ⟨rest, hrest, hscreens⟩ := bind_eq_ok.mp hscreens
  obtain rfl := pure_eq_ok.mp hscreens
  obtain rfl := pure_eq_ok.mp hrest
  refine ⟨findings, hfindings, fun finding => ?_⟩
  simp [List.mem_insertionSort]

theorem assessCall_audit {env : Env} {call : AcceptedCall} {r : PreflightResult} (h : assessCall env call = .ok r) :
    audit [call.function] (match call.format with
      | some fmt => [(signature call.function, fmt)]
      | none => []) = .ok r.audit := by
  unfold assessCall at h
  obtain ⟨audit, haudit, h⟩ := bind_eq_ok.mp h
  obtain ⟨comprehension, -, h⟩ := bind_eq_ok.mp h
  obtain ⟨digest, -, h⟩ := bind_eq_ok.mp h
  cases h
  exact haudit

theorem Accepted.signable {env : Env} {call : AcceptedCall} (h : Accepted env call) :
    call.function ∈ signableFunctions call.descriptor.abi := by
  have hmem : call.function ∈ (signableFunctions call.descriptor.abi).filter _ :=
    resolveCall_ok h.resolved ▸ List.mem_singleton_self call.function
  exact (List.mem_filter.mp hmem).1

/-! ## The shape -/

/-- A character that is a letter in lower case matches it. -/
theorem foldsTo_toLower (c : Char) : foldsTo c.toLower c = true := by
  simp [foldsTo]

theorem matchesWord_lowerAscii {word text : String} (h : lowerAscii text = word) :
    matchesWord word.toList text.toList = true := by
  rw [← h, lowerAscii, String.toList_ofList]
  induction text.toList with
  | nil => rfl
  | cons c rest ih => rw [List.map_cons, matchesWord, foldsTo_toLower, ih, Bool.and_self]

theorem isIdentifier_ascii {text : String} (h : isIdentifier text = true) : isAscii text = true := by
  have halpha : ∀ {c : Char}, c.isAlpha = true → c.toNat < 128 := by
    intro c hc
    have hrange := alpha_range hc
    omega
  have hother : ∀ {c : Char}, (c == '_' || c == '$') = true → c.toNat < 128 := by
    intro c hc
    rcases (Bool.or_eq_true _ _).mp hc with hc | hc
    · rw [beq_iff_eq.mp hc]
      decide
    · rw [beq_iff_eq.mp hc]
      decide
  unfold isIdentifier at h
  unfold isAscii
  split at h
  · exact absurd h Bool.false_ne_true
  · rename_i first rest htext
    obtain ⟨hfirst, hrest⟩ := (Bool.and_eq_true _ _).mp h
    rw [htext, List.all_cons, Bool.and_eq_true, decide_eq_true_eq, List.all_eq_true]
    refine ⟨?_, fun c hc => decide_eq_true ?_⟩
    · rw [Bool.or_assoc] at hfirst
      exact ((Bool.or_eq_true _ _).mp hfirst).elim halpha hother
    · have hchar := List.all_eq_true.mp hrest c hc
      rw [Bool.or_assoc] at hchar
      rcases (Bool.or_eq_true _ _).mp hchar with hchar | hchar
      · have hrange := alphanum_range hchar
        omega
      · exact hother hchar

theorem namedTargetAndCalldata_of_shape {env : Env} {fn : AbiFunction} (hfn : Selected fn)
    (h : ArbitraryCallShape env fn) : namedTargetAndCalldata fn = true := by
  have hnamed : ∀ {i : AbiInput} {wordList : List String}, i ∈ fn.inputs → env.lower i.nameText ∈ wordList →
      namedOneOf wordList i = true := by
    intro i wordList hi hmem
    refine List.any_eq_true.mpr ⟨_, hmem, ?_⟩
    rw [env.lower_ascii _ (isIdentifier_ascii (hfn.identifier i hi))]
    exact matchesWord_lowerAscii rfl
  obtain ⟨⟨target, htarget, htype, htname⟩, data, hdata, hdtype, hdname⟩ := h
  refine (Bool.and_eq_true _ _).mpr ⟨List.any_eq_true.mpr ⟨target, htarget, ?_⟩, List.any_eq_true.mpr ⟨data, hdata, ?_⟩⟩
  · rw [htype, hnamed htarget htname]
    rfl
  · rw [hdtype, hnamed hdata hdname]
    rfl

/-- Outside the receiver hooks the shape is a CRITICAL danger, whatever is decoded. -/
theorem assess_of_shape {env : Env} {fn : AbiFunction} (hshape : namedTargetAndCalldata fn = true)
    (hname : env.lower fn.name ∉ receiverHooks) (decoded : List DecodedArgument) :
    ∃ finding ∈ applyCallDependentDanger env fn decoded (assess env fn), finding.severity = .critical := by
  have hassess : ∃ finding ∈ assess env fn, finding.severity = .critical ∧
      finding.primitive = "arbitrary-external-call" := by
    unfold assess
    dsimp only
    rw [if_neg (by simpa using hname), hshape, Bool.or_true, if_pos (Eq.refl true)]
    have hfirst : ∀ {finding : DangerFinding} {a b c d e f : List DangerFinding},
        finding ∈ [finding] ++ a ++ b ++ c ++ d ++ e ++ f := by
      intros
      simp only [List.mem_append, List.mem_singleton, true_or]
    exact ⟨_, hfirst, rfl, rfl⟩
  obtain ⟨finding, hmem, hcritical, hprimitive⟩ := hassess
  refine ⟨finding, ?_, hcritical⟩
  unfold applyCallDependentDanger
  split_ifs
  · exact hmem
  · refine List.mem_filter.mpr ⟨hmem, ?_⟩
    rw [hprimitive]
    decide
  · exact hmem

/-- A receiver hook is no CRITICAL danger. -/
theorem assess_of_hook {env : Env} {fn : AbiFunction} (hname : env.lower fn.name ∈ receiverHooks) :
    ∀ finding ∈ assess env fn, finding.severity ≠ .critical := by
  intro finding hmem
  have hhook : receiverHooks.contains (env.lower fn.name) = true := List.contains_iff_mem.mpr hname
  have hquiet : ∀ lname ∈ receiverHooks, hasText lname "delegate" = false ∧
      ["selfdestruct", "kill", "destroy", "destruct"].contains lname = false ∧
      hasText lname "selfdestruct" = false ∧ (lname == "upgradetoandcall") = false ∧
      hasText lname "upgrade" = false := by decide +kernel
  obtain ⟨hdelegate, hkill, hdestruct, hupgrade, hupgrades⟩ := hquiet _ hname
  simp only [assess, hhook, hdelegate, hkill, hdestruct, hupgrade, hupgrades, if_true, Bool.false_and, Bool.or_self,
    Bool.false_eq_true, if_false, List.nil_append, List.append_nil, List.mem_append, mem_ite_singleton] at hmem
  rcases hmem with (⟨-, rfl⟩ | ⟨-, rfl⟩) | ⟨-, rfl⟩
  all_goals simp

/-- **The arbitrary-call shape**: a call with it, and with none of the standard signatures, is blocked if and only if
its name is not that of a receiver hook, or something else blocks it. -/
theorem arbitraryCall_block_iff {env : Env} {args : Json} {r : PreflightResult}
    (h : preflightTransaction env args = .ok r) (hshape : ArbitraryCallShape env r.call.function)
    (_hsignature : signature r.call.function ∉ standardSignatures) :
    r.verdict.gate = .block ↔
      env.lower r.call.function.name ∉ receiverHooks ∨ BlockedOtherwise env r.call := by
  obtain ⟨call, hcall, hassess⟩ := bind_eq_ok.mp h
  obtain ⟨rfl, hassessed⟩ := assessCall_ok hassess
  have haccepted := acceptedCall_ok hcall
  have hdanger : (∃ finding ∈ r.danger, finding.severity = .critical) ↔
      env.lower r.call.function.name ∉ receiverHooks := by
    simp only [hassessed.danger, List.mem_insertionSort]
    constructor
    · rintro ⟨finding, hmem, hcritical⟩ hhook
      exact assess_of_hook hhook finding (applyCallDependentDanger_subset env _ _ _ hmem) hcritical
    · exact fun hname => assess_of_shape (namedTargetAndCalldata_of_shape haccepted.selected hshape) hname _
  have haudit := assessCall_audit hassess
  rw [hassessed.verdict, finalVerdict_block_iff, callVerdict_block_iff, hdanger, hassessed.binding]
  unfold BlockedOtherwise
  rcases hfmt : r.call.format with _ | fmt
  · simp [presentationBinding]
  · rw [hfmt] at haudit
    obtain ⟨findings, hscreen, hmem⟩ := audit_one (signableFunctions_singleton haccepted.signable) haudit
    have hhides : (∃ finding ∈ r.audit.findings, finding.severity = .critical) ↔ HidesValue r.call.function fmt := by
      simp only [hmem]
      exact auditScreen_critical hscreen
    rw [hhides]
    have hshuffle : ∀ {value hidden danger unbound : Prop},
        value ∨ (hidden ∨ danger) ∨ unbound ↔ danger ∨ value ∨ hidden ∨ unbound := by
      intros
      tauto
    simp only [presentationBinding, Option.isSome_some, Option.some.injEq, exists_eq_left', reduceCtorEq, false_or]
    exact hshuffle

/-- A call with a target and calldata, named like the token transfers that are let pass. -/
def hookRequest : Json :=
  callRequest "safeTransferFrom" "safeTransferFrom(address,uint256,bytes)"
    ("0x007eccd5" ++ "0000000000000000000000003333333333333333333333333333333333333333" ++
      "00000000000000000000000000000000000000000000000000000000000003e8" ++
      "0000000000000000000000000000000000000000000000000000000000000060" ++
      "0000000000000000000000000000000000000000000000000000000000000004" ++
      "deadbeef00000000000000000000000000000000000000000000000000000000")
    [inputJson "target" "address", inputJson "amount" "uint256", inputJson "data" "bytes"]
    [("intent", .str "Send tokens"), ("fields", .arr [fieldJson "#.target" "To" "addressName",
      fieldJson "#.amount" "Amount" "raw", fieldJson "#.data" "Data" "raw"])]

/-- The arguments of the call: three words, the last one the offset of the bytes, then the bytes. -/
def hookEncoding : Bytes :=
  wordOf 0x3333333333333333333333333333333333333333 ++ wordOf 1000 ++ wordOf 96 ++ wordOf 4 ++
    (hexOf "deadbeef" ++ List.replicate 28 0)

/-- The codec, on the types and the values of the call. -/
def hookEnv : Env :=
  { demoEnv (hexOf "2944751b1b1aa3a481bd69b7a65dfa49ffae19102343ea94097325faf5509e56") with
    keccak := fun data => if data = utf8 "safeTransferFrom(address,uint256,bytes)" then
      hexOf "007eccd52b04523b65755ad88bad0ec6e6ba08994899002d85c6cc043cb6d431" else []
    isEncodableType := fun abiType => .ok (["address", "uint256", "bytes"].contains abiType)
    abiDecode := fun types data =>
      if types = ["address", "uint256", "bytes"] ∧ data = hookEncoding then
        some [.str "0x3333333333333333333333333333333333333333", .int 1000, .bytes (hexOf "deadbeef")]
      else none
    abiEncode := fun types values =>
      match values with
      | [.str "0x3333333333333333333333333333333333333333", .int 1000, .bytes data] =>
        if types = ["address", "uint256", "bytes"] ∧ data = hexOf "deadbeef" then some hookEncoding else none
      | _ => none }

/-- The request is accepted and cleared; its function has the shape, under the name of a hook but not its signature. -/
theorem hookRequest_answer : answers (fun r => decide (r.verdict.gate = .safeToPresent) &&
    r.call.function.inputs.any (fun i => i.type == "address" && targetNames.contains (hookEnv.lower i.nameText)) &&
    r.call.function.inputs.any (fun i => i.type == "bytes" && calldataNames.contains (hookEnv.lower i.nameText)) &&
    !standardSignatures.contains (signature r.call.function)) (preflightTransaction hookEnv hookRequest) = true := by
  decide +kernel

theorem arbitraryCallShape_of_any {env : Env} {fn : AbiFunction}
    (htarget : fn.inputs.any (fun i => i.type == "address" && targetNames.contains (env.lower i.nameText)) = true)
    (hdata : fn.inputs.any (fun i => i.type == "bytes" && calldataNames.contains (env.lower i.nameText)) = true) :
    ArbitraryCallShape env fn := by
  simp only [List.any_eq_true, Bool.and_eq_true, beq_iff_eq, List.contains_iff_mem] at htarget hdata
  exact ⟨htarget, hdata⟩

/-- The call is cleared. -/
theorem hook_cleared : ∃ r, preflightTransaction hookEnv hookRequest = .ok r ∧
    ArbitraryCallShape hookEnv r.call.function ∧ signature r.call.function ∉ standardSignatures ∧
      r.verdict.gate = .safeToPresent := by
  obtain ⟨r, hr, hall⟩ := exists_of_answers hookRequest_answer
  simp only [Bool.and_eq_true, decide_eq_true_eq, Bool.not_eq_true'] at hall
  obtain ⟨⟨⟨hgate, htarget⟩, hdata⟩, hsignature⟩ := hall
  refine ⟨r, hr, arbitraryCallShape_of_any htarget hdata, fun hmem => ?_, hgate⟩
  exact nomatch (List.contains_iff_mem.mpr hmem).symm.trans hsignature

theorem arbitraryCall_block_iff_hook : ∃ r, preflightTransaction hookEnv hookRequest = .ok r ∧
    ¬ (hookEnv.lower r.call.function.name ∉ receiverHooks ∨ BlockedOtherwise hookEnv r.call) := by
  obtain ⟨r, hr, hall⟩ := exists_of_answers hookRequest_answer
  simp only [Bool.and_eq_true, decide_eq_true_eq, Bool.not_eq_true'] at hall
  obtain ⟨⟨⟨hgate, htarget⟩, hdata⟩, hsignature⟩ := hall
  refine ⟨r, hr, fun hother => ?_⟩
  have hblock := (arbitraryCall_block_iff hr (arbitraryCallShape_of_any htarget hdata)
    fun hmem => nomatch (List.contains_iff_mem.mpr hmem).symm.trans hsignature).mpr hother
  exact nomatch hgate.symm.trans hblock

end Lucent.Preflight
