import Lucent.Preflight.CheckDescriptor
import Lucent.Preflight.Fingerprint
import Lucent.Preflight.Sentence

/-!
# Lucent.Preflight.Malformed — which requests raise something other than an input error

* `Raises`: a computation ends with an exception that is not a `PreflightInputError`.
* `Unreadable`: a display format with a path that is not hashable, or a visible label that is not a text.
* `preflightTransaction_stable_iff`: every request is answered or refused with an input error, except those whose
  validation comes to such a format.
-/

namespace Lucent.Preflight

open Lucent.Lib

/-! ## Raising -/

/-- The computation ends with an exception that is not an input error. -/
def Raises {α : Type} (x : Except Failure α) : Prop := ∃ exception, x = .error (.other exception)

variable {α β : Type}

theorem not_raises_ok (a : α) : ¬ Raises (.ok a : Except Failure α) := by
  rintro ⟨_, ⟨⟩⟩

theorem not_raises_input (code message : String) : ¬ Raises (.error (.input code message) : Except Failure α) := by
  rintro ⟨_, ⟨⟩⟩

theorem raises_pure (a : α) : Raises (pure a : Except Failure α) ↔ False := iff_false_intro (not_raises_ok a)

theorem raises_bind {x : Except Failure α} {f : α → Except Failure β} :
    Raises (x >>= f) ↔ Raises x ∨ ∃ a, x = .ok a ∧ Raises (f a) := by
  rcases x with failure | a
  · refine ⟨?_, ?_⟩
    · rintro ⟨exception, h⟩
      exact .inl ⟨exception, congrArg Except.error (Except.error.inj h)⟩
    · rintro (⟨exception, h⟩ | ⟨_, h, -⟩)
      · exact ⟨exception, congrArg Except.error (Except.error.inj h)⟩
      · exact nomatch h
  · refine ⟨fun h => .inr ⟨a, rfl, h⟩, ?_⟩
    rintro (⟨_, h⟩ | ⟨_, h, hf⟩)
    · exact nomatch h
    · exact Except.ok.inj h ▸ hf

/-- A step that does not raise. -/
theorem raises_bind_of_not {x : Except Failure α} {f : α → Except Failure β} (h : ¬ Raises x) :
    Raises (x >>= f) ↔ ∃ a, x = .ok a ∧ Raises (f a) :=
  raises_bind.trans (or_iff_right h)

theorem not_raises_rejectIf {c : Prop} [Decidable c] (code message : String) :
    ¬ Raises (rejectIf c (.input code message)) := by
  unfold rejectIf
  split_ifs
  · exact not_raises_input code message
  · exact not_raises_ok ()

/-- A check. -/
theorem raises_rejectIf_bind {c : Prop} [Decidable c] {code message : String} {f : Unit → Except Failure β} :
    Raises (rejectIf c (.input code message) >>= f) ↔ ¬ c ∧ Raises (f ()) := by
  rw [raises_bind_of_not (not_raises_rejectIf code message)]
  refine ⟨?_, fun h => ⟨(), rejectIf_eq_ok.mpr h.1, h.2⟩⟩
  rintro ⟨_, hok, hf⟩
  exact ⟨rejectIf_eq_ok.mp hok, hf⟩

/-- A `ValueError` that is turned into an input error. -/
theorem not_raises_mapError {x : Except String α} {f : String → Failure}
    (hf : ∀ text exception, f text ≠ .other exception) :
    ¬ Raises (x.mapError f) := by
  rintro ⟨exception, h⟩
  rcases x with text | a
  · exact hf text exception (Except.error.inj h)
  · exact nomatch h

theorem not_raises_requireObject {code message : String} {value : Option Json} :
    ¬ Raises (requireObject (.input code message) value) := by
  unfold requireObject
  split
  · exact not_raises_ok _
  · exact not_raises_input code message

/-- The first turn of a loop that does not succeed raises. -/
theorem raises_mapM {f : α → Except Failure β} {l : List α} :
    Raises (l.mapM f) ↔ ∃ pre a post, l = pre ++ a :: post ∧ (∀ b ∈ pre, ∃ c, f b = .ok c) ∧ Raises (f a) := by
  induction l with
  | nil =>
    refine ⟨fun h => absurd h (not_raises_ok []), ?_⟩
    rintro ⟨pre, a, post, h, -, -⟩
    exact absurd h (by simp)
  | cons a l ih =>
    have hrest : ∀ b : β, Raises (l.mapM f >>= fun rest => pure (b :: rest)) ↔ Raises (l.mapM f) := by
      intro b
      rw [raises_bind]
      refine or_iff_left ?_
      rintro ⟨rest, -, h⟩
      exact not_raises_ok _ h
    rw [List.mapM_cons, raises_bind]
    constructor
    · rintro (h | ⟨b, hb, h⟩)
      · exact ⟨[], a, l, rfl, nofun, h⟩
      · obtain ⟨pre, a', post, rfl, hpre, h⟩ := ih.mp ((hrest b).mp h)
        exact ⟨a :: pre, a', post, rfl, List.forall_mem_cons.mpr ⟨⟨b, hb⟩, hpre⟩, h⟩
    · rintro ⟨pre, a', post, heq, hpre, h⟩
      rcases pre with _ | ⟨b, pre⟩
      · obtain ⟨rfl, rfl⟩ := List.cons.inj heq
        exact .inl h
      · obtain ⟨rfl, rfl⟩ := List.cons.inj heq
        obtain ⟨⟨c, hc⟩, hpre⟩ := List.forall_mem_cons.mp hpre
        exact .inr ⟨c, hc, (hrest c).mpr (ih.mpr ⟨pre, a', post, rfl, hpre, h⟩)⟩

/-- A loop whose turns succeed or raise. -/
theorem raises_mapM_iff_exists {f : α → Except Failure β} {l : List α}
    (h : ∀ a ∈ l, Raises (f a) ∨ ∃ b, f a = .ok b) : Raises (l.mapM f) ↔ ∃ a ∈ l, Raises (f a) := by
  rw [raises_mapM]
  constructor
  · rintro ⟨pre, a, post, rfl, -, hraises⟩
    exact ⟨a, by simp, hraises⟩
  · rintro ⟨a, ha, hraises⟩
    induction l with
    | nil => exact nomatch ha
    | cons b l ih =>
      obtain ⟨hb, hl⟩ := List.forall_mem_cons.mp h
      rcases hb with hb | hb
      · exact ⟨[], b, l, rfl, nofun, hb⟩
      · have ha : a ∈ l := (List.mem_cons.mp ha).resolve_left (by
          rintro rfl
          obtain ⟨exception, hexc⟩ := hraises
          obtain ⟨c, hc⟩ := hb
          exact nomatch hexc.symm.trans hc)
        obtain ⟨pre, first, post, rfl, hpre, hfirst⟩ := ih hl ha
        exact ⟨b :: pre, first, post, rfl, List.forall_mem_cons.mpr ⟨hb, hpre⟩, hfirst⟩

/-! ## Display formats -/

/-- The value is an array or an object. -/
def isContainer : Json → Bool
  | .arr _ | .obj _ => true
  | _ => false

/-- The fields of a display format that has the form of one. -/
def displayFields (fmt : Json) : Option (List Json) :=
  if isObject fmt then
    match fmt.get? "fields" with
    | none => some []
    | some (.arr fields) => if fields.all isObject then some fields else none
    | some _ => none
  else none

/-- A field that is always on the screen, with a label that is neither empty nor a text. -/
def NontextLabel (fields : List Json) : Prop :=
  ∃ field ∈ fields, absentOr "always" (field.get? "visible") = true ∧
    ∃ label, field.get? "label" = some label ∧ label.truthy = true ∧ label.str? = none

/-- **Formats that raise**: at most sixteen fields, and an array or an object for a path, or, with all paths different,
a visible label that is not a text. -/
def Unreadable (fmt : Json) : Prop :=
  ∃ fields, displayFields fmt = some fields ∧ fields.length ≤ maxFieldsPerFormat ∧
    ((∃ path ∈ rawPaths fields, isContainer path = true) ∨
      ∃ keys, (rawPaths fields).mapM hashKey = .ok keys ∧ keys.Nodup ∧ NontextLabel fields)

theorem raises_hashKey {v : Json} : Raises (hashKey v) ↔ isContainer v = true := by
  rcases v with _ | b | n | x | s | items | members
  all_goals first
    | exact ⟨fun h => absurd h (not_raises_ok _), nofun⟩
    | exact ⟨fun _ => rfl, fun _ => ⟨_, rfl⟩⟩

theorem raises_paths {paths : List Json} :
    Raises (paths.mapM hashKey) ↔ ∃ path ∈ paths, isContainer path = true := by
  rw [raises_mapM_iff_exists fun path _ => ?_]
  · simp only [raises_hashKey]
  · rcases path with _ | b | n | x | s | items | members
    all_goals first
      | exact .inr ⟨_, rfl⟩
      | exact .inl ⟨_, rfl⟩

theorem raises_visibleLabels {env : Env} {fields : List Json} :
    Raises (visibleLabels env fields) ↔ NontextLabel fields := by
  unfold visibleLabels NontextLabel
  rw [raises_mapM_iff_exists fun field _ => ?_]
  · refine exists_congr fun field => ?_
    rw [List.mem_filter, Bool.and_eq_true, Option.any_eq_true, and_assoc, and_assoc]
    refine and_congr_right fun _ => and_congr_right fun _ => ⟨?_, ?_⟩
    · rintro ⟨⟨label, hlabel, htruthy⟩, hraises⟩
      refine ⟨label, hlabel, htruthy, ?_⟩
      rw [hlabel] at hraises
      rcases label with _ | b | n | x | s | items | members
      all_goals first
        | rfl
        | exact absurd hraises (not_raises_ok _)
    · rintro ⟨label, hlabel, htruthy, htext⟩
      refine ⟨⟨label, hlabel, htruthy⟩, ?_⟩
      rw [hlabel]
      rcases label with _ | b | n | x | s | items | members
      all_goals first
        | exact ⟨_, rfl⟩
        | exact nomatch htext
  · split
    · exact .inr ⟨_, rfl⟩
    · exact .inl ⟨_, rfl⟩

theorem not_raises_textMember {env : Env} {sig key : String} {field : Json} :
    ¬ Raises (textMember env sig field key) := by
  unfold textMember
  split
  · exact not_raises_ok _
  · exact not_raises_ok _
  · exact not_raises_input _ _

theorem not_raises_paramsMember {env : Env} {sig : String} {field : Json} : ¬ Raises (paramsMember env sig field) := by
  unfold paramsMember
  split
  · exact not_raises_ok _
  · exact not_raises_ok _
  · exact not_raises_ok _
  · exact not_raises_input _ _

theorem not_raises_intentMember {env : Env} {sig key : String} {fmt : Json} :
    ¬ Raises (intentMember env sig fmt key) := by
  unfold intentMember
  split
  · exact not_raises_ok _
  · exact not_raises_ok _
  · exact not_raises_input _ _

theorem not_raises_checkVisible {env : Env} {sig : String} {field : Field} : ¬ Raises (checkVisible env sig field) := by
  unfold checkVisible
  split_ifs
  · simp only [descriptorFailure, raises_rejectIf_bind, not_and]
    exact fun _ _ => not_raises_rejectIf _ _
  · exact not_raises_ok ()

theorem not_raises_checkParams {env : Env} {field : Field} : ¬ Raises (checkParams env field) := by
  unfold checkParams
  dsimp only
  split
  · exact not_raises_ok ()
  · simp only [descriptorFailure, raises_rejectIf_bind, not_and]
    exact fun _ _ _ => not_raises_rejectIf _ _

theorem not_raises_validateField {env : Env} {sig : String} {field : Json} :
    ¬ Raises (validateField env sig field) := by
  unfold validateField
  simp only [descriptorFailure, raises_rejectIf_bind, raises_bind_of_not not_raises_textMember,
    raises_bind_of_not not_raises_paramsMember, raises_bind_of_not not_raises_checkVisible,
    raises_bind_of_not not_raises_checkParams]
  rintro ⟨_, -, _, -, _, -, _, -, -, _, -, _, -, _, -, h⟩
  exact not_raises_ok _ h

/-- The `fields` member of an object is an array of objects, or an input error. -/
theorem fieldsMember_eq_ok {env : Env} {sig : String} {fmt : Json} {fields : List Json} (hfmt : isObject fmt = true) :
    fieldsMember env sig fmt = .ok fields ↔ displayFields fmt = some fields := by
  unfold fieldsMember displayFields
  rw [if_pos hfmt]
  rcases fmt.get? "fields" with _ | v
  · exact ⟨fun h => congrArg some (Except.ok.inj h), fun h => congrArg Except.ok (Option.some.inj h)⟩
  · rcases v with _ | b | n | x | s | items | members
    case arr =>
      dsimp only
      split_ifs
      · exact ⟨fun h => congrArg some (Except.ok.inj h), fun h => congrArg Except.ok (Option.some.inj h)⟩
      · exact ⟨nofun, nofun⟩
    all_goals exact ⟨nofun, nofun⟩

theorem not_raises_fieldsMember {env : Env} {sig : String} {fmt : Json} : ¬ Raises (fieldsMember env sig fmt) := by
  unfold fieldsMember
  split
  · exact not_raises_ok _
  · split_ifs
    · exact not_raises_ok _
    · exact not_raises_input _ _
  · exact not_raises_input _ _

theorem not_raises_mapM {f : α → Except Failure β} {l : List α} (h : ∀ a, ¬ Raises (f a)) : ¬ Raises (l.mapM f) := by
  rw [raises_mapM]
  rintro ⟨_, a, _, -, -, hraises⟩
  exact h a hraises

/-- **One format** raises exactly when it is unreadable. -/
theorem raises_validateFormat {env : Env} {sig : String} {fmt : Json} :
    Raises (validateFormat env sig fmt) ↔ Unreadable fmt := by
  have hfields : ∀ fields : List Json, ¬ Raises (fields.mapM (validateField env sig)) := fun fields =>
    not_raises_mapM fun _ => not_raises_validateField
  unfold validateFormat
  simp only [descriptorFailure, raises_rejectIf_bind, raises_bind_of_not not_raises_fieldsMember,
    raises_bind_of_not (hfields _), raises_bind_of_not not_raises_intentMember,
    @raises_bind _ _ ((rawPaths _).mapM hashKey), @raises_bind _ _ (visibleLabels env _), raises_paths,
    raises_visibleLabels, raises_pure, and_false, exists_false, or_false, not_not, not_lt]
  constructor
  · rintro ⟨hobject, fields, hok, hlen, hraises⟩
    exact ⟨fields, (fieldsMember_eq_ok (by simpa using hobject)).mp hok, hlen, hraises⟩
  · rintro ⟨fields, hdisplay, hlen, hraises⟩
    have hobject : isObject fmt = true := by
      unfold displayFields at hdisplay
      split_ifs at hdisplay with h
      exact h
    exact ⟨by simpa using hobject, fields, (fieldsMember_eq_ok hobject).mpr hdisplay, hlen, hraises⟩

/-! ## Requests -/

/-- The descriptor is within the bounds and has a valid ABI, and these display formats. -/
def DescriptorReaches (env : Env) (json : Option Json) (formats : List (String × Json)) : Prop :=
  (∃ members, json = some (.obj members) ∧
    (∃ raw, canonicalJson (.obj members) = .ok raw ∧ raw.length ≤ maxDescriptorBytes) ∧
    Json.depthFrom maxJsonDepth 0 (.obj members) ≤ maxJsonDepth ∧
    Json.allText (fun s => decide (s.length ≤ maxTextLength)) (.obj members) = true ∧
    (∃ abi, descriptorAbi env (.obj members) = .ok abi) ∧
    ∃ display, Json.lookup "display" members = some (.obj display) ∧
      Json.lookup "formats" display = some (.obj formats)) ∧ formats.length ≤ maxFormats

/-- **The validation of a request comes to its display formats**: its transaction is well-formed, and so is its
descriptor up to them. -/
structure ReachesFormats (env : Env) (args : Json) (formats : List (String × Json)) : Prop where
  request : ∃ members, args = .obj members ∧ unknownKey ["transaction", "descriptor"] members = none
  transaction : ∃ members, args.get? "transaction" = some (.obj members) ∧
    unknownKey ["chain_id", "from", "to", "data", "value"] members = none
  chainId : ∃ chainId, normalizeChainId (transactionMember args "chain_id") = .ok chainId
  sender : ∃ sender, normalizeAddress (transactionMember args "from") = .ok sender
  address : ∃ address, normalizeAddress (transactionMember args "to") = .ok address
  calldata : ∃ calldata, parseCalldata (transactionMember args "data") = .ok calldata
  value : ∃ value, parseValue ((transactionMember args "value").getD (.str "0x0")) = .ok value
  descriptor : DescriptorReaches env (args.get? "descriptor") formats

/-- The first format that is not accepted is unreadable. -/
def FirstUnreadable (env : Env) (formats : List (String × Json)) : Prop :=
  ∃ pre entry post, formats = pre ++ entry :: post ∧
    (∀ other ∈ pre, ∃ fmt, validateFormat env other.1 other.2 = .ok fmt) ∧ Unreadable entry.2

theorem raises_validateFormats {env : Env} {formats : List (String × Json)} :
    Raises (formats.mapM (validateFormatEntry env)) ↔ FirstUnreadable env formats := by
  have hentry : ∀ entry : String × Json, Raises (validateFormatEntry env entry) ↔ Unreadable entry.2 := by
    intro entry
    unfold validateFormatEntry
    simp only [raises_bind, raises_validateFormat, raises_pure, and_false, exists_false, or_false]
  have hok : ∀ entry : String × Json, (∃ typed, validateFormatEntry env entry = .ok typed) ↔
      ∃ fmt, validateFormat env entry.1 entry.2 = .ok fmt := by
    intro entry
    unfold validateFormatEntry
    refine ⟨fun h => ?_, fun h => ?_⟩
    · obtain ⟨typed, h⟩ := h
      obtain ⟨fmt, hfmt, -⟩ := bind_eq_ok.mp h
      exact ⟨fmt, hfmt⟩
    · obtain ⟨fmt, hfmt⟩ := h
      exact ⟨_, bind_eq_ok.mpr ⟨fmt, hfmt, rfl⟩⟩
  simp only [raises_mapM, FirstUnreadable, hentry, hok]

theorem not_raises_canonicalJson {value : Json} : ¬ Raises (canonicalJson value) := by
  unfold canonicalJson
  split
  · exact not_raises_input _ _
  · exact not_raises_ok _

theorem requireObject_iff {failure : Failure} {value : Option Json} {members : List (String × Json)} :
    requireObject failure value = .ok members ↔ value = some (.obj members) :=
  ⟨requireObject_eq_ok, fun h => h ▸ rfl⟩

theorem raises_validateDescriptor {env : Env} {json : Option Json} :
    Raises (validateDescriptor env json) ↔ ∃ formats, DescriptorReaches env json formats ∧ FirstUnreadable env formats := by
  have habi : ∀ members, ¬ Raises ((descriptorAbi env (.obj members)).mapError descriptorFailure) := fun members =>
    not_raises_mapError fun _ _ => nofun
  unfold validateDescriptor
  simp only [descriptorFailure, raises_rejectIf_bind, raises_bind_of_not not_raises_requireObject,
    raises_bind_of_not not_raises_canonicalJson, raises_bind_of_not (habi _),
    @raises_bind _ _ (List.mapM (validateFormatEntry env) _), raises_validateFormats, raises_pure, and_false,
    exists_false, or_false, not_lt, requireObject_iff, mapError_eq_ok, Bool.not_eq_true', Bool.not_eq_false]
  constructor
  · rintro ⟨members, rfl, raw, hraw, hlen, hdepth, htext, abi, habi, display, hdisplay, formats, hformats, hcount, hfirst⟩
    exact ⟨formats, ⟨⟨members, rfl, ⟨raw, hraw, hlen⟩, hdepth, htext, ⟨abi, habi⟩, display, hdisplay, hformats⟩, hcount⟩,
      hfirst⟩
  · rintro ⟨formats, ⟨⟨members, rfl, ⟨raw, hraw, hlen⟩, hdepth, htext, ⟨abi, habi⟩, display, hdisplay, hformats⟩, hcount⟩,
      hfirst⟩
    exact ⟨members, rfl, raw, hraw, hlen, hdepth, htext, abi, habi, display, hdisplay, formats, hformats, hcount, hfirst⟩

/-- What the calls of `eth_abi` do: values that were decoded are as many as the types, and can be encoded. -/
structure Codec (env : Env) : Prop where
  length : ∀ types data values, env.abiDecode types data = some values → values.length = types.length
  encodes : ∀ types data values, env.abiDecode types data = some values → (env.abiEncode types values).isSome = true

theorem not_raises_rejectUnknown {allowed : List String} {code message : String} {members : List (String × Json)} :
    ¬ Raises (rejectUnknown allowed code message members) := by
  unfold rejectUnknown
  split
  · exact not_raises_ok _
  · exact not_raises_input _ _

theorem rejectUnknown_eq_ok {allowed : List String} {code message : String} {members : List (String × Json)}
    {u : Unit} : rejectUnknown allowed code message members = .ok u ↔ unknownKey allowed members = none := by
  unfold rejectUnknown
  split
  · rename_i h
    exact ⟨fun _ => h, fun _ => rfl⟩
  · rename_i key h
    exact ⟨nofun, fun hnone => nomatch h.symm.trans hnone⟩

theorem not_raises_parseCalldata {value : Option Json} : ¬ Raises (parseCalldata value) := by
  unfold parseCalldata
  dsimp only
  split
  · split
    · split_ifs
      all_goals first
        | exact not_raises_input _ _
        | exact not_raises_ok _
    · exact not_raises_input _ _
  · exact not_raises_input _ _

theorem not_raises_parseValue {value : Json} : ¬ Raises (parseValue value) := by
  have hbounded : ∀ {amount : ℤ}, ¬ Raises (if amount < 0 ∨ (uint256Max : ℤ) < amount then
      .error (.input "INVALID_VALUE" "transaction value exceeds uint256") else .ok amount.toNat :
        Except Failure ℕ) := by
    intro amount
    split_ifs
    · exact not_raises_input _ _
    · exact not_raises_ok _
  unfold parseValue
  dsimp only
  split
  · exact not_raises_input _ _
  · exact hbounded
  · split
    · exact hbounded
    · exact not_raises_input _ _
  · exact not_raises_input _ _

theorem not_raises_resolveCall {env : Env} {abi : List AbiFunction} {calldata : Bytes} :
    ¬ Raises (resolveCall env abi calldata) := by
  unfold resolveCall
  dsimp only
  split
  · exact not_raises_input _ _
  · exact not_raises_ok _
  · exact not_raises_input _ _

mutual

theorem not_raises_validateInputNames : ∀ (scope : String) (inputs : List AbiInput),
    ¬ Raises (validateInputNames scope inputs)
  | _, [] => not_raises_ok _
  | scope, i :: rest => by
    rw [validateInputNames]
    simp only [raises_bind, not_raises_validateInputName scope i, not_raises_validateInputNames scope rest, raises_pure,
      and_false, exists_false, or_false, not_false_eq_true]

theorem not_raises_validateInputName : ∀ (scope : String) (i : AbiInput), ¬ Raises (validateInputName scope i)
  | scope, ⟨name, abiType, components⟩ => by
    rw [validateInputName]
    split_ifs
    · exact not_raises_input _ _
    · simp only [unbindable, raises_rejectIf_bind, raises_bind_of_not (not_raises_validateInputNames _ components),
        raises_pure, and_false, exists_false, not_false_eq_true]
    · exact not_raises_ok _

end

theorem not_raises_validateSelectedFunction {fn : AbiFunction} : ¬ Raises (validateSelectedFunction fn) := by
  unfold validateSelectedFunction
  simp only [unbindable, raises_rejectIf_bind, raises_bind_of_not (not_raises_validateInputNames _ _)]
  rintro ⟨-, _, -, h⟩
  exact not_raises_rejectIf _ _ h

theorem canonicalTypes_length (inputs : List AbiInput) : (canonicalTypes inputs).length = inputs.length := by
  induction inputs with
  | nil => rfl
  | cons i inputs ih => rw [canonicalTypes, List.length_cons, List.length_cons, ih]

theorem exists_renderArguments {env : Env} {inputs : List AbiInput} {values : List AbiValue} (index : ℕ)
    (h : values.length = inputs.length) : ∃ decoded, renderArguments env index inputs values = .ok decoded := by
  induction inputs generalizing index values with
  | nil =>
    rw [List.eq_nil_of_length_eq_zero h]
    exact ⟨[], rfl⟩
  | cons i inputs ih =>
    rcases values with _ | ⟨value, values⟩
    · exact nomatch h
    · obtain ⟨decoded, hdecoded⟩ := ih (index + 1) (Nat.succ.inj h)
      exact ⟨_, bind_eq_ok.mpr ⟨decoded, hdecoded, rfl⟩⟩

theorem not_raises_decodeArguments {env : Env} (henv : Codec env) {fn : AbiFunction} {calldata : Bytes} :
    ¬ Raises (decodeArguments env fn calldata) := by
  unfold decodeArguments
  split
  · exact not_raises_input _ _
  · rename_i values hvalues
    obtain ⟨encoded, hencoded⟩ := Option.isSome_iff_exists.mp (henv.encodes _ _ _ hvalues)
    rw [hencoded]
    dsimp only
    split_ifs
    · exact not_raises_input _ _
    · obtain ⟨decoded, hdecoded⟩ := @exists_renderArguments env _ _ 0
        ((henv.length _ _ _ hvalues).trans (canonicalTypes_length fn.inputs))
      rw [hdecoded]
      exact not_raises_ok _

theorem raises_acceptedCall {env : Env} (henv : Codec env) {args : Json} :
    Raises (acceptedCall env args) ↔ ∃ formats, ReachesFormats env args formats ∧ FirstUnreadable env formats := by
  have hnormal : ∀ {γ : Type} {x : Except String γ} {code : String}, ¬ Raises (x.mapError (.input code)) :=
    not_raises_mapError fun _ _ => nofun
  unfold acceptedCall
  simp only [raises_rejectIf_bind, raises_bind_of_not not_raises_requireObject,
    raises_bind_of_not not_raises_rejectUnknown, raises_bind_of_not hnormal,
    raises_bind_of_not not_raises_parseCalldata, raises_bind_of_not not_raises_parseValue,
    @raises_bind _ _ (validateDescriptor env _), raises_validateDescriptor, raises_bind_of_not not_raises_resolveCall,
    raises_bind_of_not not_raises_validateSelectedFunction, raises_bind_of_not (not_raises_decodeArguments henv),
    raises_pure, and_false, exists_false, or_false, requireObject_iff, rejectUnknown_eq_ok, mapError_eq_ok]
  have hmember : ∀ {members transaction : List (String × Json)},
      Json.lookup "transaction" members = some (.obj transaction) →
      ∀ key, transactionMember (.obj members) key = Json.lookup key transaction := by
    intro members transaction h key
    rw [transactionMember, Json.get?, h, Option.bind_some, Json.get?]
  constructor
  · rintro ⟨members, hargs, _, hknown, transaction, htransaction, _, hfields, chainId, hchain, sender, hsender, address,
      haddress, calldata, hcalldata, value, hvalue, formats, hdescriptor, hfirst⟩
    obtain rfl := Option.some.inj hargs
    have hkey := hmember htransaction
    refine ⟨formats, ⟨⟨members, rfl, hknown⟩, ⟨transaction, htransaction, hfields⟩, ?_, ?_, ?_, ?_, ?_, hdescriptor⟩,
      hfirst⟩
    · exact ⟨chainId, hkey _ ▸ hchain⟩
    · exact ⟨sender, hkey _ ▸ hsender⟩
    · exact ⟨address, hkey _ ▸ haddress⟩
    · exact ⟨calldata, hkey _ ▸ hcalldata⟩
    · exact ⟨value, hkey _ ▸ hvalue⟩
  · rintro ⟨formats, ⟨⟨members, rfl, hknown⟩, ⟨transaction, htransaction, hfields⟩, ⟨chainId, hchain⟩,
      ⟨sender, hsender⟩, ⟨address, haddress⟩, ⟨calldata, hcalldata⟩, ⟨value, hvalue⟩, hdescriptor⟩, hfirst⟩
    rw [hmember htransaction] at hchain hsender haddress hcalldata hvalue
    exact ⟨members, rfl, (), hknown, transaction, htransaction, (), hfields, chainId, hchain, sender, hsender, address,
      haddress, calldata, hcalldata, value, hvalue, formats, hdescriptor, hfirst⟩

/-! ## The analysis of an accepted call -/

section Analysis

variable {env : Env} {fn : AbiFunction} {fmt : Option Format}

theorem Selected.nameKey (hfn : Selected fn) {i : AbiInput} (hi : i ∈ fn.inputs) : i.nameKey = .ok i.nameText := by
  rw [AbiInput.nameKey, hfn.named i hi]

theorem not_raises_audit (hfn : Selected fn) {formats : List (String × Format)} : ¬ Raises (audit [fn] formats) := by
  have htypes : ¬ Raises (inputTypes fn.inputs) := by
    unfold inputTypes
    have hnames : ¬ Raises (fn.inputs.mapM AbiInput.nameKey) := by
      rw [raises_mapM]
      rintro ⟨pre, i, post, hinputs, -, hraises⟩
      rw [hfn.nameKey (hinputs ▸ by simp)] at hraises
      exact not_raises_ok _ hraises
    simp only [raises_bind_of_not hnames, raises_pure, and_false, exists_false, not_false_eq_true]
  have hscreen : ∀ sig fmt, ¬ Raises (auditScreen fn sig fmt) := by
    intro sig fmt
    unfold auditScreen
    simp only [raises_bind_of_not htypes, raises_pure, and_false, exists_false, not_false_eq_true]
  have hentry : ∀ entry ∈ signableTable (signableFunctions [fn]), entry.2 = fn := by
    intro entry hentry
    exact List.mem_singleton.mp (List.mem_of_mem_filter (mem_signableTable hentry).1)
  unfold audit
  rw [raises_bind]
  rintro (hraises | ⟨screens, -, hraises⟩)
  · obtain ⟨pre, entry, post, hsplit, -, hraises⟩ := raises_mapM.mp hraises
    rw [hentry entry (hsplit ▸ by simp)] at hraises
    split at hraises
    · exact hscreen _ _ hraises
    · split_ifs at hraises <;> exact not_raises_ok _ hraises
  · exact not_raises_ok _ hraises

theorem Selected.not_raises_party (hfn : Selected fn) {i : Option AbiInput} (hi : ∀ j, i = some j → j ∈ fn.inputs)
    (default phrase : String) : ¬ Raises (party i default phrase) := by
  rcases i with _ | i
  · exact not_raises_ok _
  · rw [hfn.party_eq (hi i rfl)]
    exact not_raises_ok _

theorem not_raises_classify (hfn : Selected fn) : ¬ Raises (classify env fn fmt) := by
  have hinput : ∀ typePrefix, ∀ j, hasInput fn typePrefix = some j → j ∈ fn.inputs := fun _ _ h =>
    List.mem_of_find?_eq_some h
  have hnamed : ∀ typePrefix hint, ∀ j, (hasInputNamed env fn typePrefix hint).or (hasInput fn typePrefix) = some j →
      j ∈ fn.inputs := by
    intro typePrefix hint j h
    rcases Option.or_eq_some_iff.mp h with h | ⟨-, h⟩
    · exact List.mem_of_find?_eq_some h
    · exact hinput _ _ h
  have hsent : ¬ Raises (sentAmount env fn) := by
    unfold sentAmount
    split_ifs
    · exact not_raises_ok _
    · exact hfn.not_raises_party (hnamed _ _) _ _
  have hshown : ¬ Raises (recipientShownRaw fn fmt) := by
    obtain ⟨raw, hraw⟩ : ∃ raw, recipientShownRaw fn fmt = .ok raw := hfn.recipientShownRaw_ok
    rw [hraw]
    exact not_raises_ok raw
  unfold classify
  split
  all_goals simp only [raises_bind_of_not (hfn.not_raises_party (hinput _) _ _),
    raises_bind_of_not (hfn.not_raises_party (hnamed _ _) _ _), raises_bind_of_not hsent, raises_bind_of_not hshown,
    permitSpender, transferRecipient, raises_pure, not_raises_ok, and_false, exists_false, not_false_eq_true]

theorem not_raises_assessCall {call : AcceptedCall} (hfn : Selected call.function) :
    ¬ Raises (assessCall env call) := by
  have hfingerprint : ¬ Raises (fingerprint env (normalizedRequest call)) := by
    unfold fingerprint
    simp only [raises_bind_of_not not_raises_canonicalJson, raises_pure, and_false, exists_false, not_false_eq_true]
  unfold assessCall
  simp only [raises_bind_of_not (not_raises_audit hfn), raises_bind_of_not (not_raises_classify hfn),
    raises_bind_of_not hfingerprint, raises_pure, and_false, exists_false, not_false_eq_true]

end Analysis

/-- **Malformed requests**: a request is answered, or refused with an input error, if and only if its validation does
not come to display formats of which the first one that is not accepted is unreadable. -/
theorem preflightTransaction_stable_iff {env : Env} (henv : Codec env) (args : Json) :
    ((∃ r, preflightTransaction env args = .ok r) ∨
      ∃ code message, preflightTransaction env args = .error (.input code message)) ↔
        ∀ formats, ReachesFormats env args formats → ¬ FirstUnreadable env formats := by
  have hraises : Raises (preflightTransaction env args) ↔
      ∃ formats, ReachesFormats env args formats ∧ FirstUnreadable env formats := by
    unfold preflightTransaction
    rw [raises_bind, raises_acceptedCall henv]
    refine or_iff_left ?_
    rintro ⟨call, hcall, h⟩
    exact not_raises_assessCall (acceptedCall_ok hcall).selected h
  have hstable : ((∃ r, preflightTransaction env args = .ok r) ∨
      ∃ code message, preflightTransaction env args = .error (.input code message)) ↔
        ¬ Raises (preflightTransaction env args) := by
    constructor
    · rintro (⟨r, h⟩ | ⟨code, message, h⟩) hraise
      · exact not_raises_ok r (h ▸ hraise)
      · exact not_raises_input code message (h ▸ hraise)
    · intro h
      rcases hresult : preflightTransaction env args with (⟨code, message⟩ | exception) | r
      · exact .inr ⟨code, message, rfl⟩
      · exact absurd ⟨exception, hresult⟩ h
      · exact .inl ⟨r, rfl⟩
  rw [hstable, hraises]
  refine ⟨fun h formats hreach hfirst => h ⟨formats, hreach, hfirst⟩, ?_⟩
  rintro h ⟨formats, hreach, hfirst⟩
  exact h formats hreach hfirst

/-! ## A request that raises -/

theorem natOf_lt (word : Bytes) : natOf word < 256 ^ word.length := by
  have hfold : ∀ (l : Bytes) (n : ℕ), l.foldl (fun n b => 256 * n + b.toNat) n < 256 ^ l.length * (n + 1) := by
    intro l
    induction l with
    | nil => exact fun n => by simp
    | cons b l ih =>
      intro n
      have hb : b.toNat < 256 := b.toNat_lt
      refine Nat.lt_of_lt_of_le (ih (256 * n + b.toNat)) ?_
      rw [List.length_cons, Nat.pow_succ, Nat.mul_assoc]
      exact Nat.mul_le_mul_left _ (by omega)
  simpa [natOf] using hfold word 0

theorem encodeWord_decodeWord {abiType : String} {word : Bytes} (hlen : word.length ≤ 32) {value : AbiValue}
    (h : decodeWord abiType word = some value) : (encodeWord abiType value).isSome = true := by
  have hlt : natOf word < 2 ^ 256 :=
    Nat.lt_of_lt_of_le (natOf_lt word) (Nat.le_trans (Nat.pow_le_pow_right (by decide) hlen) (by decide))
  unfold decodeWord at h
  split_ifs at h with haddress hsmall huint hbool hbit
  · obtain rfl := Option.some.inj h
    simp [encodeWord, haddress]
  · obtain rfl := Option.some.inj h
    have hint : (natOf word : ℤ) < 2 ^ 256 := Int.ofNat_lt.mpr hlt
    rw [encodeWord, if_pos ⟨huint, Int.natCast_nonneg _, hint⟩]
    rfl
  · obtain rfl := Option.some.inj h
    simp [encodeWord, hbool]

/-- The words of the demo environment are a codec. -/
theorem demoEnv_codec (digest : Bytes) : Codec (demoEnv digest) := by
  have hboth : ∀ (types : List String) (data : Bytes) (values : List AbiValue), decodeWords types data = some values →
      values.length = types.length ∧ (encodeWords types values).isSome = true := by
    intro types
    induction types with
    | nil =>
      intro data values h
      obtain rfl := Option.some.inj h
      exact ⟨rfl, rfl⟩
    | cons abiType types ih =>
      intro data values h
      rw [decodeWords] at h
      split_ifs at h
      · exact nomatch h
      obtain ⟨value, hvalue, h⟩ := Option.bind_eq_some_iff.mp h
      obtain ⟨rest, hrest, h⟩ := Option.bind_eq_some_iff.mp h
      obtain rfl := Option.some.inj h
      obtain ⟨hlen, hencode⟩ := ih _ _ hrest
      obtain ⟨word, hword⟩ := Option.isSome_iff_exists.mp
        (encodeWord_decodeWord (by rw [List.length_take]; exact Nat.min_le_left _ _) hvalue)
      obtain ⟨words, hwords⟩ := Option.isSome_iff_exists.mp hencode
      refine ⟨by rw [List.length_cons, List.length_cons, hlen], ?_⟩
      rw [encodeWords, hword, hwords]
      rfl
  exact ⟨fun types data values h => (hboth types data values h).1, fun types data values h =>
    (hboth types data values h).2⟩

/-- A transfer whose only display field has an array for a path. -/
def arrayPathRequest : Json :=
  callRequest "transfer" "transfer(address,uint256)" "0xa9059cbb" [inputJson "to" "address", inputJson "amount" "uint256"]
    [("fields", .arr [.obj [("path", .arr [])]])]

theorem arrayPathRequest_raises : Raises (preflightTransaction (demoEnv []) arrayPathRequest) := by
  have hraises : (match preflightTransaction (demoEnv []) arrayPathRequest with
      | .error (.other _) => true
      | _ => false) = true := by decide +kernel
  rcases hresult : preflightTransaction (demoEnv []) arrayPathRequest with (⟨code, message⟩ | exception) | r
  · rw [hresult] at hraises
    exact nomatch hraises
  · exact ⟨exception, rfl⟩
  · rw [hresult] at hraises
    exact nomatch hraises

/-- The request is neither answered nor refused with an input error. -/
theorem arrayPath_unstable : ¬ ((∃ r, preflightTransaction (demoEnv []) arrayPathRequest = .ok r) ∨
    ∃ code message, preflightTransaction (demoEnv []) arrayPathRequest = .error (.input code message)) := by
  obtain ⟨exception, hraises⟩ := arrayPathRequest_raises
  rintro (⟨r, h⟩ | ⟨code, message, h⟩)
  · exact nomatch hraises.symm.trans h
  · exact nomatch hraises.symm.trans h

theorem preflightTransaction_stable_iff_arrayPath :
    ¬ ∀ formats, ReachesFormats (demoEnv []) arrayPathRequest formats → ¬ FirstUnreadable (demoEnv []) formats := by
  obtain ⟨exception, hraises⟩ := arrayPathRequest_raises
  intro hall
  rcases (preflightTransaction_stable_iff (demoEnv_codec []) arrayPathRequest).mpr hall with ⟨r, h⟩ | ⟨code, message, h⟩
  · exact nomatch hraises.symm.trans h
  · exact nomatch hraises.symm.trans h

end Lucent.Preflight
