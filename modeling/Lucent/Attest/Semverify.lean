import Lucent.Preflight.Abi
import Mathlib.Data.List.Dedup

/-!
# Lucent.Attest.Semverify — `scripts/semverify.py`, and `run_semverify` of `scripts/attest.py`

* `movements`: what a receipt says was moved or approved.
* `screenClaims`: what the screen of a descriptor shows of a call.
* `verifyOne`: the findings of one transaction.
* `evaluate`: the loop over the test vectors; `runSemverify`: its verdict.

The explorer answers each vector by its position in the file, so that two fetches of one hash may differ.  What is raised
is the name of the exception.
-/

namespace Lucent.Attest

open Lucent.Lib Lucent.Preflight

/-- What the tools get from outside: the analyzers' environment, the explorer and the fork. -/
structure Host where
  env : Env
  /-- `int(text, 16)`, `none` for a `ValueError`. -/
  hexInt : String → Option ℤ
  /-- `ETHERSCAN_API_KEY`. -/
  apiKey : Option String
  /-- `_tx` and `_receipt`, for the vector at a position. -/
  transaction : ℕ → Json → Except String Json
  receipt : ℕ → Json → Except String Json
  /-- `_simulate_vector`. -/
  simulate : ℕ → Json → Except String (Json × Json)

/-! ## Subscripts -/

/-- `value[key]` with a text as the key. -/
def item (key : String) : Json → Except String Json
  | .obj members => (Json.lookup key members).elim (.error "KeyError") .ok
  | _ => .error "TypeError"

/-- `value.get(key, default)`. -/
def getOr (key : String) (default : Json) : Json → Except String Json
  | .obj members => .ok ((Json.lookup key members).getD default)
  | _ => .error "AttributeError"

/-- `value.lower()`. -/
def lowered (host : Host) : Json → Except String String
  | .str s => .ok (host.env.lower s)
  | _ => .error "AttributeError"

/-- `int(value, 16)`. -/
def hexNumber (host : Host) : Json → Except String ℤ
  | .str s => (host.hexInt s).elim (.error "ValueError") .ok
  | _ => .error "TypeError"

/-- The ASCII whitespace of C's `isspace`: the separators U+001C to U+001F are not in it. -/
def asciiSpaces : List Char := ['\t', '\n', '\x0b', '\x0c', '\r', ' ']

/-- `bytes.fromhex`, which passes over ASCII whitespace between bytes. -/
def fromHex : List Char → Option Bytes
  | [] => some []
  | [c] => if c ∈ asciiSpaces then some [] else none
  | c :: d :: rest =>
    if c ∈ asciiSpaces then fromHex (d :: rest)
    else do
      let hi ← hexValue? c
      let lo ← hexValue? d
      let bytes ← fromHex rest
      return UInt8.ofNat (16 * hi + lo) :: bytes

/-! ## Movements -/

def transferTopic : String := "0xddf252ad1be2c89b69c2b068fc378daa952ba7f163c4a11628f55a4df523b3ef"
def transferSingleTopic : String := "0xc3d58168c5ae7397731d063d5bbf3d657854427343f4c083240f7aacaa2d0f62"
def approvalForAllTopic : String := "0x17307eab39ab6107e8899845ad3d59bd9653f200f220920489ca2b5937696c31"

/-- `RECIPIENT_LABELS`. -/
def recipientLabels : List String := ["to", "recipient", "send to", "receiver"]

/-- `ZERO_ADDRESS`. -/
def zeroAddress : String := "0x0000000000000000000000000000000000000000"

/-- An asset movement or an approval. -/
inductive Movement
  | eth (destination : String) (amount : ℤ)
  | erc20 (source destination : String) (amount : ℤ)
  | erc1155 (source destination : String) (id amount : ℤ)
  | approval (owner operator : String) (approved : Bool)
deriving DecidableEq

/-- The `kind` of a movement. -/
def Movement.kind : Movement → String
  | .eth .. => "eth"
  | .erc20 .. => "erc20"
  | .erc1155 .. => "erc1155"
  | .approval .. => "approval"

/-- The destination and the amount of a token movement. -/
def Movement.token? : Movement → Option (String × ℤ)
  | .erc20 _ destination amount => some (destination, amount)
  | .erc1155 _ destination _ amount => some (destination, amount)
  | _ => none

/-- `text[-n:]`. -/
def lastChars (n : ℕ) (s : String) : String := String.ofList (s.toList.drop (s.toList.length - n))

/-- `text[i:j]`. -/
def sliceChars (i j : ℕ) (s : String) : String := String.ofList ((s.toList.take j).drop i)

/-- `_addr`. -/
def topicAddress (host : Host) : Json → Except String String
  | .str topic => .ok (host.env.lower ("0x" ++ lastChars 40 topic))
  | _ => .error "TypeError"

/-- `topics[0].lower()`, and the topics after the first one where they are an array. -/
def firstTopic (host : Host) : Json → Except String (String × List Json)
  | .arr (first :: rest) => do
    let topic ← lowered host first
    return (topic, rest)
  | .arr [] => .error "IndexError"
  | .str s => (s.toList.head?).elim (.error "IndexError") (fun c => .ok (host.env.lower (String.singleton c), []))
  | .obj _ => .error "KeyError"
  | _ => .error "TypeError"

/-- The movement of one log entry, if it is of a known kind. -/
def logMovement (host : Host) (log : Json) : Except String (Option Movement) := do
  let topics ← item "topics" log
  let (topic, rest) ← firstTopic host topics
  match rest with
  | [second, third] =>
    if topic = transferTopic then do
      let source ← topicAddress host second
      let destination ← topicAddress host third
      let data ← item "data" log
      let amount ← if data.isStr "0x" || data.isStr "" then .ok 0 else hexNumber host data
      return some (.erc20 source destination amount)
    else if topic = approvalForAllTopic then do
      let owner ← topicAddress host second
      let operator ← topicAddress host third
      let data ← item "data" log
      let flag ← hexNumber host data
      return some (.approval owner operator (decide (flag = 1)))
    else return none
  | [_, third, fourth] =>
    if topic = transferSingleTopic then do
      let data ← item "data" log
      match data with
      | .str text => do
        let words := dropChars 2 text
        let source ← topicAddress host third
        let destination ← topicAddress host fourth
        let id ← hexNumber host (.str (sliceChars 0 64 words))
        let amount ← hexNumber host (.str (sliceChars 64 128 words))
        return some (.erc1155 source destination id amount)
      | _ => .error "TypeError"
    else return none
  | _ => return none

/-- `movements`. -/
def movements (host : Host) (tx receipt : Json) : Except String (List Movement) := do
  let field ← item "value" tx
  let value ← hexNumber host field
  let native ← if 0 < value then do
      let field ← item "to" tx
      let destination ← lowered host field
      .ok [Movement.eth destination value]
    else .ok []
  let field ← item "logs" receipt
  let logs ← iterate field
  let moved ← logs.mapM (logMovement host)
  return native ++ moved.filterMap id

/-! ## The screen -/

/-- What the screen shows: addresses, the native value, and addresses under labels. -/
structure Screen where
  shown : List String
  showsValue : Bool
  labelled : List (String × String)

/-- `decoded.get(name)`; the last value of a name counts. -/
def decodedOf (decoded : List (String × AbiValue)) (name : String) : Option AbiValue :=
  (decoded.reverse.find? (fun entry => entry.1 == name)).map Prod.snd

/-- One turn of the loop over the fields. -/
def screenField (host : Host) (decoded : List (String × AbiValue)) (screen : Screen) (field : Json) :
    Except String Screen := do
  let visible ← getOr "visible" .null field
  if visible.isStr "never" then return screen
  else
    let path ← getOr "path" (.str "") field
    let screen := { screen with showsValue := screen.showsValue || path.isStr "@.value" }
    let format ← getOr "format" .null field
    if !format.isStr "addressName" then return screen
    else match path with
      | .str path =>
        if !hasPrefix path "#." then return screen
        else match decodedOf decoded ((splitOn '.' (dropChars 2 path)).headD "") with
          | some (.str v) =>
            if !hasPrefix v "0x" then return screen
            else do
              let label ← getOr "label" (.str "") field
              match label with
              | .str label => return { screen with
                  shown := screen.shown ++ [host.env.lower v]
                  labelled := screen.labelled ++ [(host.env.lower (stripChars isSpace label), host.env.lower v)] }
              | _ => .error "AttributeError"
          | _ => return screen
      | _ => .error "AttributeError"

/-- The format of a signature, an empty one where there is none. -/
def screenFormat (desc : Json) (sig : String) : Except String Json := do
  let display ← item "display" desc
  let formats ← item "formats" display
  getOr sig (.obj []) formats

/-- `screen_claims`. -/
def screenClaims (host : Host) (desc : Json) (data : Bytes) : Except String (String × Screen) := do
  let abi ← (descriptorAbi host.env desc).mapError (fun _ => "ValueError")
  -- a later function replaces an earlier one in `selector_index`
  match abi.reverse.find? (fun fn => selector host.env (signature fn) == data.take 4) with
  | none => .error "KeyError"
  | some fn => do
    let names ← fn.inputs.mapM (fun i => i.name.elim (.error "KeyError") .ok)
    let values ← (host.env.abiDecode (canonicalTypes fn.inputs) (data.drop 4)).elim (.error "DecodingError") .ok
    let format ← screenFormat desc (signature fn)
    let fieldsMember ← getOr "fields" (.arr []) format
    let fields ← iterate fieldsMember
    let screen ← fields.foldlM (screenField host (names.zip values)) ⟨[], false, []⟩
    return (signature fn, screen)

/-! ## One transaction -/

/-- The addresses tokens went to. -/
def recipients (moves : List Movement) : List String :=
  (moves.filterMap Movement.token?).filterMap fun token =>
    if 0 < token.2 ∧ token.1 ≠ zeroAddress then some token.1 else none

/-- The findings about a screen, given what was moved. -/
def findings (screen : Screen) (contract : String) (moves : List Movement) : List (String × String) :=
  (if moves.any (fun m => m.kind == "eth") && !screen.showsValue then
    [("CRITICAL", "spends ETH but the screen shows no amount")] else []) ++
  moves.flatMap (fun m =>
    (match m.token? with
      | some (destination, _) =>
        if (recipients moves).contains destination && !screen.shown.contains destination && destination != contract then
          [("HIGH", "asset sent to " ++ sliceChars 0 10 destination ++ "... not shown on screen")] else []
      | none => []) ++
    (match m with
      | .approval _ operator true => if !screen.shown.contains operator then
          [("CRITICAL", "approves operator " ++ sliceChars 0 10 operator ++ "... not shown")] else []
      | _ => [])) ++
  (if (recipients moves).isEmpty then [] else
    (screen.labelled.filter (fun entry => recipientLabels.any (hasPrefix entry.1 ·) &&
      !(recipients moves).contains entry.2 && entry.2 != contract)).map (fun entry =>
        ("CRITICAL", "screen labels " ++ sliceChars 0 10 entry.2 ++ "... as recipient, but assets went elsewhere")))

/-- What `verify_one` returns. -/
structure Verified where
  signature : String
  moves : List Movement
  findings : List (String × String)

/-- `verify_one`. -/
def verifyOne (host : Host) (desc contract tx receipt : Json) : Except String Verified := do
  let input ← item "input" tx
  let data ← match input with
    | .str text => (fromHex (text.toList.drop 2)).elim (.error "ValueError") .ok
    | _ => .error "TypeError"
  let (sig, screen) ← screenClaims host desc data
  let moves ← movements host tx receipt
  let address ← lowered host contract
  return ⟨sig, moves, findings screen address moves⟩

/-! ## The test vectors -/

/-- A row of the report. -/
structure Row where
  signature : String
  source : Json
  ok : Bool
  movements : List String
  findings : List (String × String)

/-- The accumulators of the loop. -/
structure Tally where
  rows : List Row
  divergences : ℕ
  skipped : List (Json × String)

/-- A checked vector is counted. -/
def Tally.count (tally : Tally) (source : Json) (v : Verified) : Tally :=
  { tally with
    rows := tally.rows ++ [⟨v.signature, source, v.findings.isEmpty,
      (v.moves.map Movement.kind).dedup.insertionSort (· ≤ ·), v.findings⟩]
    divergences := tally.divergences + v.findings.length }

/-- One turn of the loop over the vectors. -/
def checkVector (host : Host) (simulate : Bool) (desc contract : Json) (index : ℕ) (tally : Tally) (v : Json) :
    Except String Tally := do
  let h ← getOr "txHash" .null v
  if h.truthy then do
    let tx ← host.transaction index h
    let receipt ← host.receipt index h
    let verified ← verifyOne host desc contract tx receipt
    return tally.count h verified
  else do
    let call ← getOr "call" .null v
    if simulate && call.truthy then
      match host.simulate index call with
      | .error reason => do
        let function ← getOr "function" .null call
        return { tally with skipped := tally.skipped ++ [(function, sliceChars 0 160 reason)] }
      | .ok (tx, receipt) => do
        let verified ← verifyOne host desc contract tx receipt
        let function ← getOr "function" (.str "?") call
        match function with
        | .str name => return tally.count (.str ("fork:" ++ name)) verified
        | _ => .error "TypeError"
    else return tally

/-- The loop over the vectors, from a position on. -/
def checkVectors (host : Host) (simulate : Bool) (desc contract : Json) : ℕ → Tally → List Json → Except String Tally
  | _, tally, [] => .ok tally
  | index, tally, v :: rest => do
    let tally ← checkVector host simulate desc contract index tally v
    checkVectors host simulate desc contract (index + 1) tally rest

/-- `desc["context"]["contract"]["deployments"][0]["address"]`. -/
def contractAddress (desc : Json) : Except String Json := do
  let context ← item "context" desc
  let contract ← item "contract" context
  let deployments ← item "deployments" contract
  match deployments with
  | .arr (deployment :: _) => item "address" deployment
  | .arr [] => .error "IndexError"
  | .obj _ => .error "KeyError"
  | _ => .error "TypeError"

/-- `evaluate`, on the parsed files: `total` is the number of rows. -/
def evaluate (host : Host) (simulate : Bool) (desc tests : Json) : Except String Tally := do
  let field ← item "tests" tests
  let contract ← contractAddress desc
  let vectors ← iterate field
  checkVectors host simulate desc contract 0 ⟨[], 0, []⟩ vectors

/-- What `run_semverify` returns. -/
structure Outcome where
  ran : Bool
  passed : Option Bool
  verified : Option ℕ
  total : Option ℕ

/-- `run_semverify`. -/
def runSemverify (host : Host) (desc tests : Json) : Except String Outcome :=
  if (host.apiKey.getD "").isEmpty then .ok ⟨false, none, none, none⟩
  else do
    let tally ← evaluate host false desc tests
    return ⟨true, some (decide (tally.divergences = 0) && decide (0 < tally.rows.length)),
      some (tally.rows.filter (·.ok)).length, some tally.rows.length⟩

end Lucent.Attest
