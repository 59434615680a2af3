import Lucent.Attest.Semverify
import Lucent.Lib.Substitution
import Lucent.Preflight.Clearance

/-!
# Lucent.Attest.Preview — the previewed screen, `scripts/preview.py`

`render` fills the arguments of a call into the intent of its format, one input after another, and lists the fields.

* `renderIntent`: the loop over the inputs; `renderIntent_eq`: it is `replaceAll` of the placeholders.
* `Filled`: the placeholders of the template are replaced all at once, and nothing else is.
* `render_filled_iff`: this holds exactly if no placeholder comes to occur in the text of an argument.
-/

namespace Lucent.Attest

open Lucent.Lib Lucent.Preflight Substitution

/-- What a preview calls outside the repository. -/
structure Previewer where
  env : Env
  /-- `wei / 10**18` with six decimals, in floating point. -/
  fixedEther : ℤ → Except String String
  /-- `int` of a text, a byte string or a decimal. -/
  parseInt : AbiValue → Except String ℤ
  /-- `to_checksum_address`. -/
  checksumAddress : AbiValue → Except String String
  /-- `str` of a JSON value. -/
  format : Json → String

/-! ## Values -/

/-- `text.rstrip(c)`. -/
def rstripChar (c : Char) (text : String) : String :=
  String.ofList (text.toList.reverse.dropWhile (· == c)).reverse

/-- `fmt_amount_wei`. -/
def fmtAmountWei (p : Previewer) (wei : ℤ) : Except String String := do
  let text ← p.fixedEther wei
  return rstripChar '.' (rstripChar '0' text) ++ " ETH"

/-- The number with its unit. -/
def counted (n : ℤ) (unit : String) : String := toString n ++ " " ++ unit ++ (if n ≠ 1 then "s" else "")

/-- `fmt_duration`. -/
def fmtDuration (secs : ℤ) : String :=
  let years := secs / (365 * 86400)
  let days := secs % (365 * 86400) / 86400
  let parts := (if years ≠ 0 then [counted years "year"] else []) ++ (if days ≠ 0 then [counted days "day"] else [])
  if parts.isEmpty then toString secs ++ " sec" else joinText ", " parts

/-- `fmt_raw`. -/
def fmtRaw : AbiValue → String
  | .bytes value => "0x" ++ hexText value
  | .bool value => if value then "true" else "false"
  | .seq items => counted items.length "item"
  | .int value => toString value
  | .str value => value
  | .other text => text

/-- `int(value)`. -/
def intOf (p : Previewer) : AbiValue → Except String ℤ
  | .int value => .ok value
  | .bool value => .ok (if value then 1 else 0)
  | .seq _ => .error "TypeError"
  | value => p.parseInt value

/-- `apply_format`. -/
def applyFormat (p : Previewer) (format : Json) (value : AbiValue) : Except String String :=
  if format.isStr "amount" then do
    let wei ← intOf p value
    fmtAmountWei p wei
  else if format.isStr "duration" then do
    let secs ← intOf p value
    return fmtDuration secs
  else if format.isStr "addressName" then p.checksumAddress value
  else .ok (fmtRaw value)

/-! ## The call -/

/-- A call, decoded against the ABI of a descriptor. -/
structure PreviewCall where
  signature : String
  names : List String
  values : List AbiValue
  format : Json

/-- `decoded`. -/
def PreviewCall.decoded (call : PreviewCall) : List (String × AbiValue) := call.names.zip call.values

/-- The call with its format. -/
def previewCall (p : Previewer) (desc : Json) (data : Bytes) : Except String PreviewCall := do
  let abi ← (descriptorAbi p.env desc).mapError (fun _ => "ValueError")
  -- a later function replaces an earlier one in `selector_index`
  match abi.reverse.find? (fun fn => selector p.env (signature fn) == data.take 4) with
  | none => .error "KeyError"
  | some fn => do
    let values ← (p.env.abiDecode (canonicalTypes fn.inputs) (data.drop 4)).elim (.error "DecodingError") .ok
    let names ← fn.inputs.mapM (fun i => i.name.elim (.error "KeyError") .ok)
    let display ← item "display" desc
    let formats ← item "formats" display
    let format ← item (signature fn) formats
    return ⟨signature fn, names, values, format⟩

/-- The text the arguments are filled into; a template that is no text raises. -/
def PreviewCall.template (call : PreviewCall) : Except String String := do
  let interpolated ← getOr "interpolatedIntent" .null call.format
  let intent ← if interpolated.truthy then .ok interpolated else getOr "intent" (.str call.signature) call.format
  match intent with
  | .str text => return text
  | _ => .error "AttributeError"

/-! ## The intent -/

/-- The placeholder of an input. -/
def placeholder (name : String) : String := "\x7b" ++ name ++ "\x7d"

/-- `text.replace(token, fill)`. -/
def replaceText (token fill text : String) : String :=
  String.ofList (replaceWord token.toList fill.toList text.toList)

/-- One turn of the loop over the inputs. -/
def fillInput (decoded : List (String × AbiValue)) (intent name : String) : Except String String :=
  if hasText intent (placeholder name) then
    match decodedOf decoded name with
    | some value => .ok (replaceText (placeholder name) (fmtRaw value) intent)
    | none => .error "KeyError"
  else .ok intent

/-- The template with the arguments and the native value filled in. -/
def renderIntent (p : Previewer) (call : PreviewCall) (value : ℤ) (template : String) : Except String String := do
  let intent ← call.names.foldlM (fillInput call.decoded) template
  let amount ← fmtAmountWei p value
  return replaceText (placeholder "@.value") amount intent

/-! ## The fields -/

/-- `_resolve`. -/
def resolvePath (path : Json) (value : ℤ) (decoded : List (String × AbiValue)) : Except String (Option AbiValue) :=
  match path with
  | .str path =>
    if path = "@.value" then .ok (some (.int value))
    else if hasPrefix path "#." then
      let leaf := dropChars 2 path
      .ok (decodedOf decoded
        (if hasSuffix leaf ".[]" then String.ofList (leaf.toList.take (leaf.toList.length - 3)) else leaf))
    else .ok none
  | _ => .error "AttributeError"

/-- The label of a field and what is shown under it, unless it is passed over. -/
def renderField (p : Previewer) (value : ℤ) (decoded : List (String × AbiValue)) (field : Json) :
    Except String (Option (Json × String)) := do
  let visible ← getOr "visible" .null field
  if visible.isStr "never" then return none
  else do
    let path ← item "path" field
    match ← resolvePath path value decoded with
    | none => return none
    | some raw => do
      let format ← getOr "format" (.str "raw") field
      let shown ← applyFormat p format raw
      let label ← item "label" field
      return some (label, shown)

/-- What `render` returns. -/
structure PreviewScreen where
  lines : List String
  expected : List Json

/-- `render`; the destination of the call is not looked at. -/
def render (p : Previewer) (desc : Json) (value : ℤ) (data : Bytes) : Except String PreviewScreen := do
  let call ← previewCall p desc data
  let template ← call.template
  let intent ← renderIntent p call value template
  let title ← getOr "intent" (.str "") call.format
  let member ← getOr "fields" (.arr []) call.format
  let fields ← iterate member
  let shown ← fields.mapM (renderField p value call.decoded)
  let rows := shown.filterMap id
  return ⟨("| " ++ intent) :: rows.map (fun row => "|   " ++ p.format row.1 ++ ": " ++ row.2) ++
      ["| [ Reject ]   [ Sign ]"],
    (title :: rows.flatMap (fun row => [row.1, .str row.2])).filter Json.truthy⟩

/-! ## Filling in -/

/-- What is put in for the placeholders: the arguments, then the native value. -/
def PreviewCall.fills (call : PreviewCall) (amount : String) : List (List Char × List Char) :=
  call.decoded.map (fun entry => ((placeholder entry.1).toList, (fmtRaw entry.2).toList)) ++
    [((placeholder "@.value").toList, amount.toList)]

/-- The value of a name that occurs once. -/
theorem decodedOf_eq_some {decoded : List (String × AbiValue)} (hnames : (decoded.map Prod.fst).Nodup)
    {entry : String × AbiValue} (hentry : entry ∈ decoded) : decodedOf decoded entry.1 = some entry.2 := by
  unfold decodedOf
  cases hfind : decoded.reverse.find? (fun other => other.1 == entry.1) with
  | none =>
    have hne := List.find?_eq_none.mp hfind entry (List.mem_reverse.mpr hentry)
    exact absurd (beq_self_eq_true entry.1) hne
  | some other =>
    have hother : other ∈ decoded := List.mem_reverse.mp (List.mem_of_find?_eq_some hfind)
    have hname : other.1 = entry.1 := by simpa using List.find?_some hfind
    rw [List.inj_on_of_nodup_map hnames hother hentry hname]
    rfl

theorem decodedOf_eq_none {decoded : List (String × AbiValue)} {name : String} (h : name ∉ decoded.map Prod.fst) :
    decodedOf decoded name = none := by
  unfold decodedOf
  rw [List.find?_eq_none.mpr, Option.map_none]
  intro other hother hname
  exact h (beq_iff_eq.mp hname ▸ List.mem_map_of_mem (List.mem_reverse.mp hother))

/-- The loop over the inputs replaces the placeholders of the arguments, one after another. -/
theorem foldlM_fillInput {decoded : List (String × AbiValue)} {names : List String} {values : List AbiValue}
    (hfound : ∀ entry ∈ names.zip values, decodedOf decoded entry.1 = some entry.2)
    (hmissing : ∀ name ∈ names.drop values.length, decodedOf decoded name = none) {template intent : String}
    (h : names.foldlM (fillInput decoded) template = .ok intent) :
    intent.toList = replaceAll ((names.zip values).map fun entry =>
      ((placeholder entry.1).toList, (fmtRaw entry.2).toList)) template.toList := by
  induction names generalizing values template with
  | nil =>
    obtain rfl := Except.ok.inj h
    rfl
  | cons name names ih =>
    rw [List.foldlM_cons] at h
    obtain ⟨next, hnext, h⟩ := bind_eq_ok.mp h
    cases values with
    | nil =>
      have hnone := hmissing name List.mem_cons_self
      have hsame : template = next := by
        unfold fillInput at hnext
        rw [hnone] at hnext
        split_ifs at hnext
        exact Except.ok.inj hnext
      subst hsame
      have hrest := @ih [] (fun entry hentry => absurd (List.zip_nil_right ▸ hentry) List.not_mem_nil)
        (fun other hother => hmissing other (List.mem_cons_of_mem name hother)) _ h
      rwa [List.zip_nil_right] at hrest ⊢
    | cons value values =>
      have hvalue := hfound (name, value) List.mem_cons_self
      have hstep : next.toList = replaceWord (placeholder name).toList (fmtRaw value).toList template.toList := by
        unfold fillInput at hnext
        rw [hvalue] at hnext
        split_ifs at hnext with hoccurs
        · rw [← Except.ok.inj hnext, replaceText, String.toList_ofList]
        · rw [← Except.ok.inj hnext, replaceWord_of_not_infix fun hinfix => hoccurs (hasText_iff.mpr hinfix)]
      have hrest := @ih values (fun entry hentry => hfound entry (List.mem_cons_of_mem _ hentry)) hmissing _ h
      rw [hrest, hstep]
      rfl

/-- The names that have a value. -/
theorem map_fst_zip (names : List String) (values : List AbiValue) :
    (names.zip values).map Prod.fst = names.take values.length := by
  induction names generalizing values with
  | nil => rw [List.zip_nil_left, List.take_nil, List.map_nil]
  | cons name names ih =>
    cases values with
    | nil => rfl
    | cons value values => exact congrArg (name :: ·) (ih values)

/-- Where the names are distinct, the intent is the template with all placeholders replaced, one after another. -/
theorem renderIntent_eq {p : Previewer} {call : PreviewCall} {value : ℤ} {template amount intent : String}
    (hnames : call.names.Nodup) (hamount : fmtAmountWei p value = .ok amount)
    (h : renderIntent p call value template = .ok intent) :
    intent.toList = replaceAll (call.fills amount) template.toList := by
  obtain ⟨filled, hfilled, h⟩ := bind_eq_ok.mp h
  obtain ⟨amount', hamount', h⟩ := bind_eq_ok.mp h
  obtain rfl := Except.ok.inj (hamount.symm.trans hamount')
  have hkeys : call.decoded.map Prod.fst = call.names.take call.values.length :=
    map_fst_zip call.names call.values
  have hnodup : (call.decoded.map Prod.fst).Nodup := hkeys ▸ hnames.sublist (List.take_sublist _ _)
  have hloop := foldlM_fillInput (fun entry hentry => decodedOf_eq_some hnodup hentry)
    (fun name hname => decodedOf_eq_none fun hmem => by
      rw [hkeys] at hmem
      have hsplit := List.take_append_drop call.values.length call.names ▸ hnames
      exact (List.nodup_append.mp hsplit).2.2 name hmem name hname rfl) hfilled
  rw [← Except.ok.inj h, replaceText, String.toList_ofList, hloop, PreviewCall.fills, replaceAll, replaceAll,
    List.foldl_append]
  rfl

/-! ## The first line -/

/-- The line is the template with its placeholders filled in all at once, and the code replaces no other occurrence. -/
structure Filled (fills : List (List Char × List Char)) (template line : String) : Prop where
  divides : Divides fills template.toList (fillAll fills [.literal template.toList])
  simultaneous : line.toList = "| ".toList ++ shown (fillAll fills [.literal template.toList])
  onlyTemplate : OnlyReplacedInText fills template.toList [.literal template.toList]

theorem fills_ne_nil {call : PreviewCall} {amount : String} : ∀ f ∈ call.fills amount, f.1 ≠ [] := by
  intro f hf
  have hplaceholder : ∀ name, (placeholder name).toList ≠ [] := by
    intro name
    rw [placeholder, String.toList_append, String.toList_append]
    exact List.append_ne_nil_of_right_ne_nil _ (by decide)
  rcases List.mem_append.mp hf with hf | hf
  · obtain ⟨entry, -, rfl⟩ := List.mem_map.mp hf
    exact hplaceholder entry.1
  · exact List.mem_singleton.mp hf ▸ hplaceholder "@.value"

/-- **The first line is a simultaneous substitution** exactly if no placeholder of a later input, and none of the native
value, occurs in the template with the earlier arguments filled in but where the template itself has it. -/
theorem render_filled_iff {p : Previewer} {desc : Json} {value : ℤ} {data : Bytes} {call : PreviewCall}
    {template amount : String} {screen : PreviewScreen} (hcall : previewCall p desc data = .ok call)
    (hnames : call.names.Nodup) (htemplate : call.template = .ok template) (hamount : fmtAmountWei p value = .ok amount)
    (hscreen : render p desc value data = .ok screen) :
    (∃ line, screen.lines.head? = some line ∧ Filled (call.fills amount) template line) ↔
      OnlyInText (call.fills amount) [.literal template.toList] := by
  have hshown : shown [.literal template.toList] = template.toList := List.append_nil _
  obtain ⟨intent, hintent, hline⟩ : ∃ intent, renderIntent p call value template = .ok intent ∧
      screen.lines.head? = some ("| " ++ intent) := by
    obtain ⟨call', hcall', h⟩ := bind_eq_ok.mp hscreen
    obtain rfl := Except.ok.inj (hcall.symm.trans hcall')
    obtain ⟨template', htemplate', h⟩ := bind_eq_ok.mp h
    obtain rfl := Except.ok.inj (htemplate.symm.trans htemplate')
    obtain ⟨intent, hintent, h⟩ := bind_eq_ok.mp h
    obtain ⟨title, -, h⟩ := bind_eq_ok.mp h
    obtain ⟨member, -, h⟩ := bind_eq_ok.mp h
    obtain ⟨fields, -, h⟩ := bind_eq_ok.mp h
    obtain ⟨rows, -, h⟩ := bind_eq_ok.mp h
    exact ⟨intent, hintent, (Except.ok.inj h) ▸ rfl⟩
  constructor
  · rintro ⟨line, -, hfilled⟩
    have honly : OnlyReplacedInText (call.fills amount) (shown [.literal template.toList]) [.literal template.toList] := by
      rw [hshown]
      exact hfilled.onlyTemplate
    exact onlyReplacedInText_iff.mp honly
  · intro honly
    refine ⟨_, hline, divides_fillAll fills_ne_nil _, ?_, ?_⟩
    · rw [String.toList_append, renderIntent_eq hnames hamount hintent, ← replaceAll_eq_shown_fillAll honly, hshown]
    · have hreplaced := onlyReplacedInText_iff.mpr honly
      rwa [hshown] at hreplaced

/-! ## A note from one person to another -/

/-- A decoder that finds two texts: the sender and "Bob". -/
def notePreviewer (sender : String) : Previewer where
  env := { demoEnv [] with
    keccak := fun _ => [1, 2, 3, 4]
    isEncodableType := fun _ => .ok true
    abiDecode := fun _ _ => some [.str sender, .str "Bob"] }
  fixedEther _ := .ok "0.000000"
  parseInt _ := .error "ValueError"
  checksumAddress _ := .error "TypeError"
  format v := (v.str?).getD "?"

def noteTemplate : String := "\x7ba\x7d writes to \x7bb\x7d"

def noteDescriptor : Json :=
  ((callRequest "note" "note(string,string)" "0x01020304" [inputJson "a" "string", inputJson "b" "string"]
    [("intent", .str noteTemplate)]).get? "descriptor").getD .null

def noteCall (sender : String) : PreviewCall :=
  ⟨"note(string,string)", ["a", "b"], [.str sender, .str "Bob"], .obj [("intent", .str noteTemplate)]⟩

set_option maxRecDepth 20000 in
theorem previewCall_note (sender : String) :
    previewCall (notePreviewer sender) noteDescriptor [1, 2, 3, 4] = .ok (noteCall sender) := rfl

/-- The first line of the note. -/
def noteLine (sender : String) : Option String :=
  match render (notePreviewer sender) noteDescriptor 0 [1, 2, 3, 4] with
  | .ok screen => screen.lines.head?
  | .error _ => none

theorem exists_screen_note {sender line : String} (h : noteLine sender = some line) :
    ∃ screen, render (notePreviewer sender) noteDescriptor 0 [1, 2, 3, 4] = .ok screen ∧
      screen.lines.head? = some line := by
  unfold noteLine at h
  split at h
  · rename_i screen hscreen
    exact ⟨screen, hscreen, h⟩
  · exact nomatch h

theorem fmtAmountWei_note (sender : String) : fmtAmountWei (notePreviewer sender) 0 = .ok "0 ETH" := by
  have hamount : (match fmtAmountWei (notePreviewer "") 0 with
    | .ok text => decide (text = "0 ETH")
    | .error _ => false) = true := by decide +kernel
  show fmtAmountWei (notePreviewer "") 0 = _
  split at hamount
  · rename_i text htext
    rw [htext, of_decide_eq_true hamount]
  · exact nomatch hamount

/-- Alice's note is filled in as it should be. -/
theorem render_filled_iff_alice : ∃ screen,
    render (notePreviewer "Alice") noteDescriptor 0 [1, 2, 3, 4] = .ok screen ∧
      ((∃ line, screen.lines.head? = some line ∧ Filled ((noteCall "Alice").fills "0 ETH") noteTemplate line) ↔
        OnlyInText ((noteCall "Alice").fills "0 ETH") [.literal noteTemplate.toList]) := by
  obtain ⟨screen, hscreen, -⟩ := exists_screen_note (show noteLine "Alice" = some "| Alice writes to Bob" by decide +kernel)
  exact ⟨screen, hscreen, render_filled_iff (previewCall_note "Alice") (by decide) rfl (fmtAmountWei_note "Alice") hscreen⟩

/-- A sender who signs as the placeholder of the recipient is shown as the recipient. -/
theorem note_impersonates : ∃ screen,
    render (notePreviewer (placeholder "b")) noteDescriptor 0 [1, 2, 3, 4] = .ok screen ∧
      screen.lines.head? = some "| Bob writes to Bob" ∧
      String.ofList (shown (fillAll ((noteCall (placeholder "b")).fills "0 ETH") [.literal noteTemplate.toList])) =
        "\x7bb\x7d writes to Bob" ∧
      ¬ ∃ line, screen.lines.head? = some line ∧
        Filled ((noteCall (placeholder "b")).fills "0 ETH") noteTemplate line := by
  obtain ⟨screen, hscreen, hline⟩ :=
    exists_screen_note (show noteLine (placeholder "b") = some "| Bob writes to Bob" by decide +kernel)
  have hmeant : String.ofList (shown (fillAll ((noteCall (placeholder "b")).fills "0 ETH")
      [.literal noteTemplate.toList])) = "\x7bb\x7d writes to Bob" := by decide +kernel
  refine ⟨screen, hscreen, hline, hmeant, ?_⟩
  rintro ⟨line, hhead, hfilled⟩
  obtain rfl := Option.some.inj (hhead.symm.trans hline)
  have hsimultaneous := hfilled.simultaneous
  rw [← @String.toList_ofList (shown _), hmeant] at hsimultaneous
  exact absurd hsimultaneous (by decide)

end Lucent.Attest
