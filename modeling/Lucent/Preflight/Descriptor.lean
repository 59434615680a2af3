import Lucent.Preflight.Abi

/-!
# Lucent.Preflight.Descriptor — `validate_descriptor` of `lucent/preflight.py`

The checks run on the JSON value in the source's order and return the descriptor with typed formats: a field keeps
the members the analyzers read (`path`, `label`, `format`, `visible`, `params`), a format its fields and intents.

* `Field.universallyVisible`: `visible` is absent or `always`.
* `FieldOk`, `FormatOk`: what an accepted field and format satisfy (`validateFormat_ok`).
* `validateDescriptor_format`: a typed format is an accepted entry of `display.formats`.
-/

namespace Lucent.Preflight

open Lucent.Lib

def maxDescriptorBytes : ℕ := 512 * 1024
def maxFormats : ℕ := 1024
def maxFieldsPerFormat : ℕ := 16
def maxJsonDepth : ℕ := 16
def maxTextLength : ℕ := 8192

/-- `ALLOWED_FIELD_FORMATS`. -/
def allowedFieldFormats : List String :=
  ["raw", "addressName", "calldata", "amount", "tokenAmount", "nftName", "date", "duration", "unit", "enum"]

/-- A display field. -/
structure Field where
  path : Option String
  label : Option String
  format : Option String
  visible : Option String
  params : Option (List (String × Json))

/-- `visible in (None, "always")`. -/
def Field.universallyVisible (field : Field) : Bool :=
  field.visible == none || field.visible == some "always"

/-- A display format; `blank` when the object has no members at all. -/
structure Format where
  blank : Bool
  fields : List Field
  intent : Option String
  interpolatedIntent : Option String

/-- A validated descriptor. -/
structure Descriptor where
  raw : Json
  abi : List AbiFunction
  formats : List (String × Format)

/-- A rejected descriptor. -/
def descriptorFailure (message : String) : Failure := .input "INVALID_DESCRIPTOR" message

def invalidDescriptor {α : Type} (message : String) : Except Failure α := .error (descriptorFailure message)

/-- The members of an object; anything else, or nothing, fails. -/
def requireObject (failure : Failure) (value : Option Json) : Except Failure (List (String × Json)) :=
  match value with
  | some (.obj members) => .ok members
  | _ => .error failure

/-! ## One format -/

/-- The hashable values, as far as equality of set members goes. -/
inductive HashKey
  | text (s : String)
  | number (x : ℚ)
deriving DecidableEq

/-- A set member; a list or an object is not hashable. -/
def hashKey : Json → Except Failure HashKey
  | .str s => .ok (.text s)
  | .arr _ | .obj _ => .error (.other "TypeError")
  | v => .ok (.number (v.number?.getD 0))

/-- The values of `field.get("path")` other than `None`. -/
def rawPaths (fields : List Json) : List Json := (fields.filterMap (·.get? "path")).filter (!·.isNull)

/-- `field.get(key) in (None, text)`. -/
def absentOr (text : String) (value : Option Json) : Bool :=
  match value with
  | none => true
  | some v => v.isNull || v.isStr text

/-- The normalized labels of the universally visible fields; a label that is not a text has no `lower`. -/
def visibleLabels (env : Env) (fields : List Json) : Except Failure (List String) :=
  (fields.filter (fun field => absentOr "always" (field.get? "visible") && (field.get? "label").any Json.truthy)).mapM
    fun field => match field.get? "label" with
      | some (.str label) => .ok (joinText " " (words (env.lower label)))
      | _ => .error (.other "AttributeError")

/-- A member that has to be a text where it is present. -/
def textMember (env : Env) (signature : String) (field : Json) (key : String) : Except Failure (Option String) :=
  match field.get? key with
  | none => .ok none
  | some (.str s) => .ok (some s)
  | some _ => invalidDescriptor
      ("display format " ++ env.repr signature ++ " field " ++ env.repr key ++ " must be a string")

/-- The `params` member. -/
def paramsMember (env : Env) (signature : String) (field : Json) : Except Failure (Option (List (String × Json))) :=
  match field.get? "params" with
  | none | some .null => .ok none
  | some (.obj members) => .ok (some members)
  | some _ => invalidDescriptor ("display format " ++ env.repr signature ++ " field 'params' must be an object")

/-- The parameters of which a format requires exactly one. -/
def requiredOneOf : String → Option (String × String)
  | "tokenAmount" => some ("token", "tokenPath")
  | "calldata" => some ("callee", "calleePath")
  | "nftName" => some ("collection", "collectionPath")
  | _ => none

/-- `params.get(key) is not None`. -/
def hasParam (params : List (String × Json)) (key : String) : Bool := (Json.lookup key params).any (!·.isNull)

/-- `params.get(key)` is one of the texts. -/
def paramIn (params : List (String × Json)) (key : String) (texts : List String) : Bool :=
  (Json.lookup key params).any (fun v => v.str?.any texts.contains)

/-- The checks of a field that is always on the screen. -/
def checkVisible (env : Env) (signature : String) (field : Field) : Except Failure Unit :=
  if field.universallyVisible then do
    rejectIf field.path.isNone (descriptorFailure ("visible field in " ++ env.repr signature ++ " requires a path"))
    rejectIf (!field.label.any (fun label => !(words label).isEmpty))
      (descriptorFailure ("visible field in " ++ env.repr signature ++ " requires a non-empty label"))
    rejectIf (!field.format.any allowedFieldFormats.contains)
      (descriptorFailure ("visible field in " ++ env.repr signature ++ " requires an explicit supported format"))
  else .ok ()

/-- The checks of the parameters a format requires. -/
def checkParams (env : Env) (field : Field) : Except Failure Unit :=
  let params := field.params.getD []
  match field.format with
  | none => .ok ()
  | some format => do
    let keys := (requiredOneOf format).getD ("", "")
    rejectIf ((requiredOneOf format).isSome && hasParam params keys.1 == hasParam params keys.2)
      (descriptorFailure ("field format " ++ env.repr format ++ " requires exactly one of (" ++ env.repr keys.1 ++
        ", " ++ env.repr keys.2 ++ ")"))
    rejectIf (format == "date" && !paramIn params "encoding" ["timestamp", "blockheight"])
      (descriptorFailure "field format 'date' requires timestamp or blockheight encoding")
    rejectIf (format == "unit" && !(Json.lookup "base" params).any (·.str?.isSome))
      (descriptorFailure "field format 'unit' requires a string base")
    rejectIf (format == "enum" && !(Json.lookup "$ref" params).any (·.str?.isSome))
      (descriptorFailure "field format 'enum' requires a $ref")

/-- One turn of the loop over the fields. -/
def validateField (env : Env) (signature : String) (field : Json) : Except Failure Field := do
  let path ← textMember env signature field "path"
  let label ← textMember env signature field "label"
  let format ← textMember env signature field "format"
  let visible ← textMember env signature field "visible"
  rejectIf (format.any (!allowedFieldFormats.contains ·))
    (descriptorFailure ("display format " ++ env.repr signature ++ " uses an unknown field format"))
  let params ← paramsMember env signature field
  checkVisible env signature ⟨path, label, format, visible, params⟩
  checkParams env ⟨path, label, format, visible, params⟩
  return ⟨path, label, format, visible, params⟩

/-- An intent that has to be a text where it is present. -/
def intentMember (env : Env) (signature : String) (fmt : Json) (key : String) : Except Failure (Option String) :=
  match fmt.get? key with
  | none => .ok none
  | some (.str s) => .ok (some s)
  | some _ => invalidDescriptor ("display format " ++ env.repr signature ++ " " ++ key ++ " must be a string")

def isEmptyObject : Json → Bool
  | .obj members => members.isEmpty
  | _ => false

/-- The `fields` member, an array of objects; none where it is absent. -/
def fieldsMember (env : Env) (signature : String) (fmt : Json) : Except Failure (List Json) :=
  match fmt.get? "fields" with
  | none => .ok []
  | some (.arr fields) =>
    if fields.all isObject then .ok fields
    else invalidDescriptor ("display format " ++ env.repr signature ++ " must contain a fields array")
  | some _ => invalidDescriptor ("display format " ++ env.repr signature ++ " must contain a fields array")

/-- One turn of the loop over the formats. -/
def validateFormat (env : Env) (signature : String) (fmt : Json) : Except Failure Format := do
  rejectIf (!isObject fmt) (descriptorFailure "every display format must map a signature to an object")
  let fields ← fieldsMember env signature fmt
  rejectIf (fields.length > maxFieldsPerFormat)
    (descriptorFailure ("display format " ++ env.repr signature ++ " exceeds " ++ toString maxFieldsPerFormat ++
      " fields"))
  let paths ← (rawPaths fields).mapM hashKey
  rejectIf (¬ paths.Nodup)
    (descriptorFailure ("display format " ++ env.repr signature ++ " has duplicate field paths"))
  let labels ← visibleLabels env fields
  rejectIf (¬ labels.Nodup)
    (descriptorFailure ("display format " ++ env.repr signature ++ " has duplicate visible labels"))
  let typed ← fields.mapM (validateField env signature)
  let intent ← intentMember env signature fmt "intent"
  let interpolatedIntent ← intentMember env signature fmt "interpolatedIntent"
  return ⟨isEmptyObject fmt, typed, intent, interpolatedIntent⟩

/-! ## The descriptor -/

/-- `_canonical_json`. -/
def canonicalJson (value : Json) : Except Failure Bytes :=
  match Json.dumps false true value with
  | none => .error (.input "INVALID_JSON_VALUE" "request contains a non-canonical JSON value")
  | some chars => .ok (utf8Chars chars)

/-- One entry of `display.formats`. -/
def validateFormatEntry (env : Env) (entry : String × Json) : Except Failure (String × Format) := do
  let fmt ← validateFormat env entry.1 entry.2
  return (entry.1, fmt)

/-- `validate_descriptor`; an absent descriptor is `None`. -/
def validateDescriptor (env : Env) (descriptor : Option Json) : Except Failure Descriptor := do
  let members ← requireObject (descriptorFailure "descriptor must be a JSON object") descriptor
  let raw ← canonicalJson (.obj members)
  rejectIf (raw.length > maxDescriptorBytes)
    (.input "DESCRIPTOR_TOO_LARGE" ("descriptor exceeds " ++ toString maxDescriptorBytes ++ " encoded bytes"))
  rejectIf (Json.depthFrom maxJsonDepth 0 (.obj members) > maxJsonDepth)
    (.input "DESCRIPTOR_TOO_DEEP" ("descriptor nesting may not exceed " ++ toString maxJsonDepth ++ " levels"))
  rejectIf (!Json.allText (fun s => decide (s.length ≤ maxTextLength)) (.obj members))
    (.input "DESCRIPTOR_TEXT_TOO_LONG"
      ("descriptor strings may not exceed " ++ toString maxTextLength ++ " characters"))
  let abi ← (descriptorAbi env (.obj members)).mapError descriptorFailure
  let display ← requireObject (descriptorFailure "descriptor must contain display") (Json.lookup "display" members)
  let formats ← requireObject (descriptorFailure "descriptor display.formats must be a JSON object")
    (Json.lookup "formats" display)
  rejectIf (formats.length > maxFormats)
    (.input "TOO_MANY_FORMATS" ("descriptor exceeds " ++ toString maxFormats ++ " format entries"))
  let typed ← formats.mapM (validateFormatEntry env)
  return ⟨.obj members, abi, typed⟩

/-! ## What validation establishes -/

/-- A field that is always on the screen has a path, a label and a known format. -/
structure FieldOk (field : Field) : Prop where
  path : field.universallyVisible = true → field.path.isSome = true
  label : field.universallyVisible = true → ∃ label, field.label = some label ∧ words label ≠ []
  format : field.universallyVisible = true → ∃ format ∈ allowedFieldFormats, field.format = some format

/-- The fields are as they have to be, and no two share a path. -/
structure FormatOk (fmt : Format) : Prop where
  fields : ∀ field ∈ fmt.fields, FieldOk field
  distinct : (fmt.fields.filterMap Field.path).Nodup

theorem textMember_eq_ok {env : Env} {signature key : String} {field : Json} {text : Option String}
    (h : textMember env signature field key = .ok text) : field.get? key = text.map .str := by
  unfold textMember at h
  split at h
  · rename_i hget
    cases h
    exact hget
  · rename_i s hget
    cases h
    exact hget
  · exact nomatch h

theorem checkVisible_ok {env : Env} {signature : String} {field : Field} {u : Unit}
    (h : checkVisible env signature field = .ok u) : FieldOk field := by
  unfold checkVisible at h
  split_ifs at h with hvisible
  · obtain ⟨hpath, h⟩ := rejectIf_bind_eq_ok.mp h
    obtain ⟨hlabel, h⟩ := rejectIf_bind_eq_ok.mp h
    have hformat := rejectIf_eq_ok.mp h
    rw [Bool.not_eq_true', Bool.not_eq_false, Option.any_eq_true] at hlabel hformat
    obtain ⟨label, hlabel, hwords⟩ := hlabel
    obtain ⟨format, hformat, hallowed⟩ := hformat
    refine ⟨fun _ => ?_, fun _ => ⟨label, hlabel, ?_⟩, fun _ => ⟨format, List.contains_iff_mem.mp hallowed, hformat⟩⟩
    · rwa [Option.isNone_iff_eq_none, ← ne_eq, ← Option.isSome_iff_ne_none] at hpath
    · intro hnil
      rw [hnil] at hwords
      exact nomatch hwords
  · exact ⟨fun hv => absurd hv hvisible, fun hv => absurd hv hvisible, fun hv => absurd hv hvisible⟩

/-- An accepted field is as it has to be, and its path is the one of the object. -/
theorem validateField_ok {env : Env} {signature : String} {json : Json} {field : Field}
    (h : validateField env signature json = .ok field) : FieldOk field ∧ json.get? "path" = field.path.map .str := by
  unfold validateField at h
  obtain ⟨path, hpath, h⟩ := bind_eq_ok.mp h
  obtain ⟨label, -, h⟩ := bind_eq_ok.mp h
  obtain ⟨format, -, h⟩ := bind_eq_ok.mp h
  obtain ⟨visible, -, h⟩ := bind_eq_ok.mp h
  obtain ⟨-, h⟩ := rejectIf_bind_eq_ok.mp h
  obtain ⟨params, -, h⟩ := bind_eq_ok.mp h
  obtain ⟨_, hvisible, h⟩ := bind_eq_ok.mp h
  obtain ⟨_, -, h⟩ := bind_eq_ok.mp h
  cases h
  exact ⟨checkVisible_ok hvisible, textMember_eq_ok hpath⟩

/-- The paths that are compared are those of the typed fields. -/
theorem rawPaths_eq {env : Env} {signature : String} {fields : List Json} {typed : List Field}
    (h : List.Forall₂ (fun json field => validateField env signature json = .ok field) fields typed) :
    rawPaths fields = (typed.filterMap Field.path).map .str := by
  induction h with
  | nil => rfl
  | @cons json field fields typed hfield _ ih =>
    have hpath := (validateField_ok hfield).2
    rcases hp : field.path with _ | path
    · rw [hp] at hpath
      rw [rawPaths, List.filterMap_cons, hpath, List.filterMap_cons_none hp]
      exact ih
    · rw [hp] at hpath
      rw [rawPaths, List.filterMap_cons, hpath, List.filterMap_cons_some hp, List.map_cons, ← ih]
      rfl

theorem hashKeys_of_texts {texts : List String} {keys : List HashKey}
    (h : (texts.map Json.str).mapM hashKey = .ok keys) : keys = texts.map .text := by
  induction texts generalizing keys with
  | nil =>
    cases h
    rfl
  | cons text texts ih =>
    rw [List.map_cons, List.mapM_cons] at h
    obtain ⟨key, hkey, h⟩ := bind_eq_ok.mp h
    obtain ⟨rest, hrest, h⟩ := bind_eq_ok.mp h
    cases hkey
    cases h
    rw [ih hrest, List.map_cons]

theorem validateFormat_ok {env : Env} {signature : String} {json : Json} {fmt : Format}
    (h : validateFormat env signature json = .ok fmt) : FormatOk fmt := by
  unfold validateFormat at h
  obtain ⟨-, h⟩ := rejectIf_bind_eq_ok.mp h
  obtain ⟨fields, -, h⟩ := bind_eq_ok.mp h
  obtain ⟨-, h⟩ := rejectIf_bind_eq_ok.mp h
  obtain ⟨paths, hpaths, h⟩ := bind_eq_ok.mp h
  obtain ⟨hnodup, h⟩ := rejectIf_bind_eq_ok.mp h
  obtain ⟨labels, -, h⟩ := bind_eq_ok.mp h
  obtain ⟨-, h⟩ := rejectIf_bind_eq_ok.mp h
  obtain ⟨typed, htyped, h⟩ := bind_eq_ok.mp h
  obtain ⟨intent, -, h⟩ := bind_eq_ok.mp h
  obtain ⟨interpolated, -, h⟩ := bind_eq_ok.mp h
  cases h
  refine ⟨?_, ?_⟩
  · intro field hmem
    obtain ⟨json, -, hfield⟩ := exists_of_mapM htyped hmem
    exact (validateField_ok hfield).1
  · rw [rawPaths_eq (mapM_eq_ok.mp htyped)] at hpaths
    rw [hashKeys_of_texts hpaths, not_not] at hnodup
    exact hnodup.of_map _

/-- The entry of `display.formats` under a key. -/
def displayFormat (descriptor : Json) (key : String) : Option Json :=
  ((descriptor.get? "display").bind (·.get? "formats")).bind (·.get? key)

/-- Value of a key in an ordered list of entries. -/
def assoc {α : Type} (key : String) (entries : List (String × α)) : Option α :=
  (entries.find? (fun entry => entry.1 == key)).map Prod.snd

theorem assoc_cons {α : Type} (key : String) (entry : String × α) (entries : List (String × α)) :
    assoc key (entry :: entries) = if entry.1 = key then some entry.2 else assoc key entries := by
  unfold assoc
  rw [List.find?_cons]
  by_cases h : entry.1 = key
  · rw [if_pos h, beq_iff_eq.mpr h]
    rfl
  · rw [if_neg h, beq_eq_false_iff_ne.mpr h]

theorem mem_of_assoc {α : Type} {key : String} {entries : List (String × α)} {value : α}
    (h : assoc key entries = some value) : (key, value) ∈ entries := by
  obtain ⟨entry, hentry, rfl⟩ := Option.map_eq_some_iff.mp h
  have hkey := List.find?_some hentry
  rw [← beq_iff_eq.mp hkey]
  exact List.mem_of_find?_eq_some hentry

/-- A typed format is the validated entry of its key. -/
theorem lookup_of_assoc {env : Env} {members : List (String × Json)} {typed : List (String × Format)}
    (h : List.Forall₂ (fun entry fmt => validateFormatEntry env entry = .ok fmt) members typed) {key : String}
    {fmt : Format} (hfmt : assoc key typed = some fmt) :
    ∃ json, Json.lookup key members = some json ∧ validateFormat env key json = .ok fmt := by
  induction h with
  | nil => exact nomatch hfmt
  | @cons entry fmt' members typed hentry _ ih =>
    obtain ⟨fmt'', hvalid, hpure⟩ := bind_eq_ok.mp hentry
    cases hpure
    rw [assoc_cons] at hfmt
    unfold Json.lookup
    split_ifs at hfmt ⊢ with hkey
    · cases hfmt
      subst hkey
      exact ⟨entry.2, rfl, hvalid⟩
    · exact ih hfmt

theorem requireObject_eq_ok {failure : Failure} {value : Option Json} {members : List (String × Json)}
    (h : requireObject failure value = .ok members) : value = some (.obj members) := by
  unfold requireObject at h
  split at h
  · cases h
    rfl
  · exact nomatch h

/-- A validated descriptor is the document it was read from, and its formats are the entries of `display.formats`. -/
theorem validateDescriptor_ok {env : Env} {json : Option Json} {descriptor : Descriptor}
    (h : validateDescriptor env json = .ok descriptor) : json = some descriptor.raw ∧
      ∃ formats, (descriptor.raw.get? "display").bind (·.get? "formats") = some (.obj formats) ∧
        List.Forall₂ (fun entry fmt => validateFormatEntry env entry = .ok fmt) formats descriptor.formats := by
  unfold validateDescriptor at h
  obtain ⟨members, hmembers, h⟩ := bind_eq_ok.mp h
  obtain ⟨raw, -, h⟩ := bind_eq_ok.mp h
  obtain ⟨-, h⟩ := rejectIf_bind_eq_ok.mp h
  obtain ⟨-, h⟩ := rejectIf_bind_eq_ok.mp h
  obtain ⟨-, h⟩ := rejectIf_bind_eq_ok.mp h
  obtain ⟨abi, -, h⟩ := bind_eq_ok.mp h
  obtain ⟨display, hdisplay, h⟩ := bind_eq_ok.mp h
  obtain ⟨formats, hformats, h⟩ := bind_eq_ok.mp h
  obtain ⟨-, h⟩ := rejectIf_bind_eq_ok.mp h
  obtain ⟨typed, htyped, h⟩ := bind_eq_ok.mp h
  cases h
  refine ⟨requireObject_eq_ok hmembers, formats, ?_, mapM_eq_ok.mp htyped⟩
  rw [Json.get?, requireObject_eq_ok hdisplay, Option.bind_some, Json.get?, requireObject_eq_ok hformats]

/-- **A format of a validated descriptor** is an entry of `display.formats` that was accepted under its key. -/
theorem validateDescriptor_format {env : Env} {json : Option Json} {descriptor : Descriptor}
    (h : validateDescriptor env json = .ok descriptor) {key : String} {fmt : Format}
    (hfmt : assoc key descriptor.formats = some fmt) :
    json = some descriptor.raw ∧
      ∃ entry, displayFormat descriptor.raw key = some entry ∧ validateFormat env key entry = .ok fmt := by
  obtain ⟨hraw, formats, hformats, htyped⟩ := validateDescriptor_ok h
  obtain ⟨entry, hentry, hvalid⟩ := lookup_of_assoc htyped hfmt
  refine ⟨hraw, entry, ?_, hvalid⟩
  rw [displayFormat, hformats, Option.bind_some, Json.get?]
  exact hentry

end Lucent.Preflight
