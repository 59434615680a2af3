import Lucent.Preflight.Descriptor

/-!
# Lucent.Preflight.Audit — `scripts/audit.py`

`audit` scores the screens of a list of functions against a list of formats.  The only exception it can raise on a
validated descriptor is the `KeyError` of an input without a name.
-/

namespace Lucent.Preflight

open Lucent.Lib

/-- The severities of findings, worst first. -/
inductive Severity
  | critical
  | high
  | medium
  | low
deriving DecidableEq

/-- `PENALTY`. -/
def Severity.penalty : Severity → ℕ
  | .critical => 25
  | .high => 10
  | .medium => 4
  | .low => 2

/-- The position in `PENALTY`, and in `SEV_ORDER` as far as that goes. -/
def Severity.rank : Severity → ℕ
  | .critical => 0
  | .high => 1
  | .medium => 2
  | .low => 3

structure AuditFinding where
  severity : Severity
  function : String
  issue : String
deriving DecidableEq

structure AuditReport where
  score : ℕ
  grade : String
  signableFunctions : ℕ
  coveredFunctions : ℕ
  findings : List AuditFinding

def intentMax : ℕ := 30
def labelMax : ℕ := 20

/-! ## Format keys -/

/-- `strip`, on characters. -/
def stripSpace (text : List Char) : List Char :=
  ((text.dropWhile isSpace).reverse.dropWhile isSpace).reverse

/-- The pieces of `_split_top`: commas split where the running depth, which starts at `depth`, is zero. -/
def splitTopPieces : ℤ → List Char → List Char → List (List Char)
  | _, current, [] => [current.reverse]
  | depth, current, c :: rest =>
    if c = '(' then splitTopPieces (depth + 1) (c :: current) rest
    else if c = ')' then splitTopPieces (depth - 1) (c :: current) rest
    else if c = ',' ∧ depth = 0 then current.reverse :: splitTopPieces depth [] rest
    else splitTopPieces depth (c :: current) rest

/-- `_split_top`; blank pieces are dropped. -/
def splitTop (params : List Char) : List (List Char) :=
  ((splitTopPieces 0 [] params).map stripSpace).filter (!·.isEmpty)

/-- The group a component starts with, without its outer parentheses, and what follows it. -/
def leadingGroup : ℤ → List Char → List Char → Option (List Char × List Char)
  | _, _, [] => none
  | depth, group, c :: rest =>
    let depth := depth + (if c = '(' then 1 else 0) - (if c = ')' then 1 else 0)
    if depth = 0 then some ((group.reverse).drop 1, rest) else leadingGroup depth (c :: group) rest

/-- `c.split()[0]`. -/
def firstWord (text : List Char) : List Char := ((runs isSpace [] text).head?).getD []

/-- Comma-joined characters. -/
def commaJoin : List (List Char) → List Char
  | [] => []
  | [part] => part
  | part :: rest => part ++ ',' :: commaJoin rest

/-- `canon_component`; a group is shorter than the component it starts, so the length bounds the nesting. -/
def canonComponent : ℕ → List Char → List Char
  | 0, c => c
  | fuel + 1, c =>
    if c.head? = some '(' then
      match leadingGroup 0 [] c with
      | none => c
      | some (inner, rest) =>
        let group := '(' :: commaJoin ((splitTop inner).map (canonComponent fuel)) ++ [')']
        group ++ (if rest.head? = some '[' then firstWord rest else [])
    else firstWord c

/-- `_canonical_key`. -/
def canonicalKey (key : String) : String :=
  let chars := key.toList
  if !chars.contains '(' || !hasSuffix key ")" then key
  else
    let name := chars.takeWhile (· ≠ '(')
    let params := ((chars.dropWhile (· ≠ '(')).drop 1).dropLast
    String.ofList (name ++ '(' :: commaJoin ((splitTop params).map (canonComponent chars.length)) ++ [')'])

/-! ## The screens -/

/-- The text before the first parenthesis, `sig.split("(")[0]`. -/
def bareName (sig : String) : String := String.ofList (sig.toList.takeWhile (· ≠ '('))

/-- `GRADES`. -/
def gradeOf (score : ℕ) : String :=
  if 90 ≤ score then "A" else if 80 ≤ score then "B" else if 70 ≤ score then "C" else if 60 ≤ score then "D" else "F"

/-- `inp["name"]`. -/
def AbiInput.nameKey (i : AbiInput) : Except Failure String :=
  match i.name with
  | some name => .ok name
  | none => .error (.other "KeyError")

/-- `{i["name"]: i["type"] for i in inputs if i["name"]}`. -/
def inputTypes (inputs : List AbiInput) : Except Failure (List (String × String)) := do
  let names ← inputs.mapM AbiInput.nameKey
  return ((names.zip (inputs.map (·.type))).filter (fun entry => !entry.1.isEmpty))

/-- `input_types.get(leaf, "")`; the last entry of a name counts. -/
def typeOf (types : List (String × String)) (leaf : String) : String :=
  ((types.reverse.find? (fun entry => entry.1 == leaf)).map Prod.snd).getD ""

/-- The first segment of a `#.` path. -/
def argumentLeaf (path : Option String) : Option String :=
  match path with
  | some text => if hasPrefix text "#." then (splitOn '.' (dropChars 2 text)).head? else none
  | none => none

/-- The findings of one field. -/
def auditField (types : List (String × String)) (flag : Severity → String → AuditFinding) (field : Field) :
    List AuditFinding :=
  let leaf := argumentLeaf field.path
  let leafText := leaf.getD "None"
  let params := field.params.getD []
  (if leaf.any (fun name => !name.isEmpty && hasPrefix (typeOf types name) "address") &&
      field.format == some "raw" && field.visible != some "never" then
    [flag .high ("address '" ++ leafText ++ "' shown as raw hex, not addressName")] else []) ++
  (if field.format == some "tokenAmount" && !(Json.lookup "token" params).any Json.truthy &&
      !(Json.lookup "tokenPath" params).any Json.truthy then
    [flag .critical ("tokenAmount '" ++ leafText ++ "' has no token/tokenPath")] else []) ++
  (if field.label.any (fun label => !label.isEmpty && decide (labelMax < label.length)) then
    [flag .medium ("field label exceeds " ++ toString labelMax ++ " chars")] else [])

/-- `fmt.get(key)` is a non-empty text. -/
def shown (text : Option String) : Bool := text.any (!·.isEmpty)

/-- The findings of a function with a format. -/
def auditScreen (fn : AbiFunction) (sig : String) (fmt : Format) : Except Failure (List AuditFinding) := do
  let flag : Severity → String → AuditFinding := fun severity issue => ⟨severity, bareName sig, issue⟩
  let types ← inputTypes fn.inputs
  let payable := fn.stateMutability == some "payable"
  let valueField := fmt.fields.find? (fun field => field.path == some "@.value")
  let visible := fmt.fields.filter (fun field => field.visible != some "never")
  let movesValue := payable || fmt.fields.any (fun field =>
    field.format == some "amount" || field.format == some "tokenAmount")
  return (if !shown fmt.intent && !shown fmt.interpolatedIntent then [flag .high "no intent"] else []) ++
    (if payable && valueField.isNone then
      [flag .critical "payable but never displays the ETH amount (@.value)"] else []) ++
    (if !fn.inputs.isEmpty && visible.isEmpty then
      [flag .high "no visible field, blind-signs despite a descriptor"] else []) ++
    (if valueField.any (fun field => field.visible != some "always") then
      [flag .low "payable amount not pinned visible:always"] else []) ++
    fmt.fields.flatMap (auditField types flag) ++
    (if fmt.intent.any (fun text => decide (intentMax < text.length)) then
      [flag .medium ("intent exceeds " ++ toString intentMax ++ " chars")] else []) ++
    (if fmt.interpolatedIntent.any (fun text => decide (intentMax < text.length)) then
      [flag .medium ("interpolatedIntent exceeds " ++ toString intentMax ++ " chars")] else []) ++
    (if movesValue && decide (2 ≤ visible.length) && !shown fmt.interpolatedIntent then
      [flag .low "value-moving function without interpolatedIntent"] else [])

/-- The entries of `{signature(f): f for f in signable}`: one for each signature, at the place of its first
function and with its last one. -/
def signableTable : List AbiFunction → List (String × AbiFunction)
  | [] => []
  | fn :: rest =>
    let others := signableTable rest
    (signature fn, (assoc (signature fn) others).getD fn) :: others.filter (fun entry => entry.1 != signature fn)

/-- `audit`, on the functions and formats of a validated descriptor. -/
def audit (abi : List AbiFunction) (formats : List (String × Format)) : Except Failure AuditReport := do
  let signable := signableTable (signableFunctions abi)
  let known (key : String) : Bool := signable.any (fun entry => entry.1 == key)
  let noncanonical := (formats.filter (fun entry =>
    canonicalKey entry.1 != entry.1 && known (canonicalKey entry.1))).map (fun entry => canonicalKey entry.1)
  let orphans := (formats.filter (fun entry => !known entry.1 && !known (canonicalKey entry.1))).map fun _ =>
    (⟨.low, bareName "unmatched-format",
      "orphan format entry matches no signable function in the ABI"⟩ : AuditFinding)
  let screens ← signable.mapM fun entry =>
    match assoc entry.1 formats with
    | some fmt => auditScreen entry.2 entry.1 fmt
    | none =>
      if noncanonical.contains entry.1 then
        .ok [⟨.high, bareName entry.1, "format entry is keyed non-canonically; wallets match the canonical " ++
          "signature, so this entry never renders"⟩]
      else .ok [⟨.high, bareName entry.1, "signable function has no descriptor entry (blind-signs)"⟩]
  let findings := orphans ++ screens.flatten
  let score := 100 - (findings.map (fun finding => finding.severity.penalty)).sum
  return {
    score
    grade := gradeOf score
    signableFunctions := signable.length
    coveredFunctions := (signable.filter (fun entry => formats.any (fun f => f.1 == entry.1))).length
    findings := findings.insertionSort (fun a b => a.severity.rank ≤ b.severity.rank) }

end Lucent.Preflight
