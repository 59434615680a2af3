import Mathlib.Data.List.Nodup
import Mathlib.Data.List.Pairwise
import Lucent.Attest.Semverify
import Lucent.Lib.Loads
import Lucent.Lib.Machine
import Lucent.Lib.OrderedDict
import Lucent.Preflight.Clearance

/-!
# Lucent.Attest.Watch — `scripts/watch.py`, and the lookups of `scripts/resolve_proxy.py` it makes

* `liveState`: the implementation, the ABI fingerprint and the signable functions of a deployment as they stand.
* `ItemSet`: what Python's sets hold of a JSON document, and the order `sorted` brings it into.
* `drift`: the events between a baseline and a live state; it raises where the screens of functions that are gone cannot
  be sorted (`drift_cases`).
* `watch`: the machine whose inputs are runs of the tool and whose state is `watch_state.json`.

The main result, `watch_exact`, says what the tool reports in any history of runs: the baseline of a deployment is its
last sighting under `--init`, else its first one, and a run fails exactly when it sees an implementation other than
that of the baseline or a signable function without a screen.

What the explorers answer may change from one file to the next, and between the two fetches of one ABI.  What is raised
is the name of the exception; a run that raises leaves the state file as it was.
-/

namespace Lucent.Attest

open Lucent.Lib Lucent.Preflight

/-! ## Signatures of unchecked entries -/

/-- What the tool calls outside the repository. -/
structure Watcher where
  env : Env
  readFloat : List Char → PyFloat
  /-- `str(value)`. -/
  str : Json → String
  str_text : ∀ s, str (.str s) = s
  str_int : ∀ n : ℤ, str (.int n) = toString n

mutual

/-- `canonical_type`, of an entry that was not validated. -/
def rawType : Json → Except String String
  | .obj members =>
    match Json.lookup "type" members with
    | some (.str abiType) =>
      if hasPrefix abiType "tuple" then do
        let inner ← rawComponents members
        .ok ("(" ++ joinText "," inner ++ ")" ++ dropChars 5 abiType)
      else .ok abiType
    | some _ => .error "AttributeError"
    | none => .error "KeyError"
  | .null => .error "TypeError"
  | .bool _ => .error "TypeError"
  | .int _ => .error "TypeError"
  | .float _ => .error "TypeError"
  | .str _ => .error "TypeError"
  | .arr _ => .error "TypeError"
termination_by structural v => v

/-- The types of the `components` member, which may be absent. -/
def rawComponents : List (String × Json) → Except String (List String)
  | [] => .ok []
  | m :: rest => if m.1 = "components" then rawMember m else rawComponents rest
termination_by structural v => v

def rawMember : String × Json → Except String (List String)
  | (_, v) => rawInputs v
termination_by structural v => v

/-- The types of what a loop over the value visits: the items of an array, or nothing. -/
def rawInputs : Json → Except String (List String)
  | .arr items => rawTypes items
  | .obj members => if members.isEmpty then .ok [] else .error "TypeError"
  | .str s => if s.isEmpty then .ok [] else .error "TypeError"
  | .null => .error "TypeError"
  | .bool _ => .error "TypeError"
  | .int _ => .error "TypeError"
  | .float _ => .error "TypeError"
termination_by structural v => v

def rawTypes : List Json → Except String (List String)
  | [] => .ok []
  | v :: rest => do
    let abiType ← rawType v
    let others ← rawTypes rest
    .ok (abiType :: others)
termination_by structural v => v

end

/-- `signature`, of an entry that was not validated. -/
def rawSignature (w : Watcher) (entry : Json) : Except String String := do
  let name ← item "name" entry
  let inputs ← item "inputs" entry
  let types ← rawInputs inputs
  return w.str name ++ "(" ++ joinText "," types ++ ")"

/-- The condition of `signable_functions`. -/
def isSignable (entry : Json) : Except String Bool := do
  let type ← getOr "type" .null entry
  if !type.isStr "function" then return false
  else
    let mutability ← getOr "stateMutability" .null entry
    return !(mutability.isStr "view" || mutability.isStr "pure")

/-- `sorted(set(texts))`. -/
def sortedSet (texts : List String) : List String := texts.dedup.insertionSort (· ≤ ·)

/-- `signable_sigs`. -/
def signableSigs (w : Watcher) (abi : Json) : Except String (List String) := do
  let entries ← iterate abi
  let flags ← entries.mapM isSignable
  let signable := ((entries.zip flags).filter Prod.snd).map Prod.fst
  signable.mapM (rawSignature w)

/-- `abi_fingerprint`. -/
def abiFingerprint (w : Watcher) (abi : Json) : Except String String :=
  match Json.dumps true true abi with
  | none => .error "ValueError"
  | some encoded => .ok ("0x" ++ hexText (w.env.keccak (utf8Chars encoded)))

/-! ## The explorers -/

/-- A request to the Etherscan API. -/
inductive Query
  | sourceCode (chainId : Json) (address : String)
  | implementationSlot (chainId : Json) (address : String)
  | abi (chainId : ℤ) (address : String)

/-- What the explorers answer while one file is looked at. -/
structure Explorers where
  etherscan : Query → Except String Json
  /-- `_get_json`, for the first or the second fetch; an HTTP error is its status. -/
  sourcify : ℕ → ℤ → String → Except (ℕ ⊕ String) Json

/-- `value[0]`. -/
def firstItem : Json → Except String Json
  | .arr items => items.head?.elim (.error "IndexError") .ok
  | .str s => s.toList.head?.elim (.error "IndexError") (fun c => .ok (.str (String.singleton c)))
  | .obj _ => .error "KeyError"
  | _ => .error "TypeError"

/-- `impl_from_sourcecode`. -/
def implFromSourcecode (w : Watcher) (x : Explorers) (chainId : Json) (address : String) :
    Except String (Option String) := do
  let response ← x.etherscan (.sourceCode chainId address)
  let status ← getOr "status" .null response
  if !status.isStr "1" then return none
  else
    let result ← item "result" response
    let first ← firstItem result
    let field ← getOr "Implementation" .null first
    if !field.truthy then return none
    else match field with
      | .str text =>
        let impl := stripChars isSpace text
        return if !impl.isEmpty && decide (w.env.lower impl ≠ zeroAddress) then some impl else none
      | _ => .error "AttributeError"

/-- `impl_from_storage`. -/
def implFromStorage (w : Watcher) (x : Explorers) (chainId : Json) (address : String) :
    Except String (Option String) := do
  let response ← x.etherscan (.implementationSlot chainId address)
  let word ← getOr "result" .null response
  if !word.truthy then return none
  else match word with
    | .str text =>
      if text.length < 66 then return none
      else
        let impl := "0x" ++ lastChars 40 text
        return if w.env.lower impl = zeroAddress then none else some impl
    | .arr items => if items.length < 66 then return none else .error "TypeError"
    | .obj members => if members.length < 66 then return none else .error "KeyError"
    | _ => .error "TypeError"

/-- `implementation`. -/
def implementation (w : Watcher) (x : Explorers) (chainId : Json) (address : String) :
    Except String (Option String) := do
  let named ← implFromSourcecode w x chainId address
  match named with
  | some impl => return some impl
  | none => implFromStorage w x chainId address

/-- `sourcify_abi`: the ABI as it was sent, once it is validated. -/
def sourcifyAbi (w : Watcher) (x : Explorers) (attempt : ℕ) (chainId : Json) (address : String) :
    Except String (Option Json) := do
  let chain ← (normalizeChainId (some chainId)).mapError (fun _ => "ValueError")
  let address ← (normalizeAddress (some (.str address))).mapError (fun _ => "ValueError")
  match x.sourcify attempt chain address with
  | .error (.inl status) => if status = 400 ∨ status = 404 then return none else .error "HTTPError"
  | .error (.inr exception) => .error exception
  | .ok response =>
    let abi ← getOr "abi" .null response
    if abi.isNull then return none
    else
      let _ ← (validateAbi w.env abi).mapError (fun _ => "ValueError")
      return some abi

/-- `etherscan_abi`, which is not validated. -/
def etherscanAbi (w : Watcher) (x : Explorers) (chainId : Json) (address : String) : Except String (Option Json) := do
  let chain ← (normalizeChainId (some chainId)).mapError (fun _ => "ValueError")
  let address ← (normalizeAddress (some (.str address))).mapError (fun _ => "ValueError")
  let response ← x.etherscan (.abi chain address)
  let status ← getOr "status" .null response
  if !status.isStr "1" then return none
  else
    let result ← item "result" response
    match result with
    | .str text => return (Json.loads w.readFloat (utf8 text)).filter (fun v => !v.isNull)
    | _ => .error "TypeError"

/-- `impl_abi`; where the ABI came from is not used here. -/
def implAbi (w : Watcher) (x : Explorers) (chainId : Json) (address : String) : Except String (Option Json) := do
  let verified ← sourcifyAbi w x 1 chainId address
  match verified.filter Json.truthy with
  | some abi => return some abi
  | none =>
    let unverified ← etherscanAbi w x chainId address
    return unverified.filter Json.truthy

/-! ## Sets -/

/-- What a set can hold of a JSON document: arrays and objects have no hash. -/
inductive SetItem
  | null
  | bool (b : Bool)
  | int (n : ℤ)
  | float (x : PyFloat)
  | text (s : String)
deriving DecidableEq

namespace SetItem

/-- `hash(value)` comes first. -/
def ofJson : Json → Except String SetItem
  | .null => .ok .null
  | .bool b => .ok (.bool b)
  | .int n => .ok (.int n)
  | .float x => .ok (.float x)
  | .str s => .ok (.text s)
  | .arr _ => .error "TypeError"
  | .obj _ => .error "TypeError"

def toJson : SetItem → Json
  | .null => .null
  | .bool b => .bool b
  | .int n => .int n
  | .float x => .float x
  | .text s => .str s

/-- The number that an item is; a boolean is one, too. -/
def number? : SetItem → Option ℚ
  | .null => none
  | .bool b => some (if b then 1 else 0)
  | .int n => some n
  | .float x => some x.value
  | .text _ => none

/-- `a == b`: numbers of all types are compared by their value. -/
def same (a b : SetItem) : Bool := decide (a = b) || (a.number?.isSome && decide (a.number? = b.number?))

def isText : SetItem → Bool
  | .text _ => true
  | _ => false

/-- `a < b` does not raise: both are texts, or both are numbers. -/
def comparable (a b : SetItem) : Bool := (a.isText && b.isText) || (a.number?.isSome && b.number?.isSome)

/-- `a <= b`, of comparable items. -/
def le : SetItem → SetItem → Bool
  | .text s, .text t => decide (s ≤ t)
  | a, b => decide (a.number?.getD 0 ≤ b.number?.getD 0)

end SetItem

/-- A set: no two of its items are equal. -/
structure ItemSet where
  items : List SetItem
  distinct : items.Pairwise (fun a b => a.same b = false)

/-- The first of the items that are equal. -/
def firsts : List SetItem → List SetItem
  | [] => []
  | a :: rest => a :: (firsts rest).filter (fun b => !a.same b)

theorem firsts_distinct (items : List SetItem) : (firsts items).Pairwise (fun a b => a.same b = false) := by
  induction items with
  | nil => exact .nil
  | cons a rest ih =>
    refine .cons (fun b hb => ?_) (ih.filter _)
    simpa using (List.mem_filter.mp hb).2

/-- `set(items)`. -/
def setOf (items : List SetItem) : ItemSet := ⟨firsts items, firsts_distinct items⟩

/-- `sorted(items)`.  A sort compares every item with some other, so that all have to be texts, or all numbers. -/
def sortedItems (items : List SetItem) : Except String (List SetItem) :=
  if items.Pairwise (fun a b => a.comparable b = true) then
    .ok (items.insertionSort (fun a b => a.le b = true))
  else .error "TypeError"

/-! ## One file -/

/-- A deployment as it stands. -/
structure Live where
  impl : Option String
  abiHash : String
  signable : List String
deriving DecidableEq

/-- `live_state`. -/
def liveState (w : Watcher) (x : Explorers) (hasKey : Bool) (chainId : Json) (address : String) :
    Except String (Option Live) := do
  let impl ← if hasKey then implementation w x chainId address else .ok none
  let target := impl.getD address
  let verified ← sourcifyAbi w x 0 chainId target
  let abi ← if verified.isNone && hasKey then implAbi w x chainId target else .ok verified
  match abi with
  | none => return none
  | some abi =>
    let abiHash ← abiFingerprint w abi
    let sigs ← signableSigs w abi
    return some ⟨impl.map w.env.lower, abiHash, sortedSet sigs⟩

/-- What a turn of the loop learns of its file. -/
structure Sighting where
  name : String
  key : String
  covered : ItemSet
  live : Option Live

/-- A file given to the tool, with what the explorers answer while it is looked at. -/
structure Watched where
  name : String
  document : Except String Json
  explorers : Explorers

/-- What has a screen: the functions that `formats` names, whatever its type. -/
def coveredOf (desc : Json) : Except String ItemSet := do
  let display ← getOr "display" (.obj []) desc
  let formats ← getOr "formats" (.obj []) display
  let keys ← iterate formats
  let items ← keys.mapM SetItem.ofJson
  return setOf items

/-- A turn of the loop, up to the live state. -/
def sight (w : Watcher) (hasKey : Bool) (file : Watched) : Except String Sighting := do
  let desc ← file.document
  let context ← item "context" desc
  let contract ← item "contract" context
  let deployments ← item "deployments" contract
  let dep ← firstItem deployments
  let chain ← item "chainId" dep
  let field ← item "address" dep
  let address ← match field with
    | .str text => .ok (w.env.lower text)
    | _ => .error "AttributeError"
  let covered ← coveredOf desc
  let live ← liveState w file.explorers hasKey chain address
  return ⟨file.name, "eip155:" ++ w.str chain ++ ":" ++ address, covered, live⟩

/-! ## Drift -/

inductive AlarmSeverity
  | critical
  | high
  | medium
  | low
deriving DecidableEq

/-- An event, with what it is about. -/
inductive Event
  | implChanged (old new : String)
  | newUncovered (sig : String)
  | staleEntry (entry : SetItem)
  | abiTouched
deriving DecidableEq

/-- `POLICY`. -/
def Event.severity : Event → AlarmSeverity
  | .implChanged .. => .critical
  | .newUncovered _ => .high
  | .staleEntry _ => .medium
  | .abiTouched => .low

/-- The text of the event. -/
def Event.detail (w : Watcher) : Event → String
  | .implChanged old new => sliceChars 0 10 old ++ "... -> " ++ sliceChars 0 10 new ++ "..."
  | .newUncovered sig => "live signable \x60" ++ sig ++ "\x60 has no descriptor entry"
  | .staleEntry entry => "descriptor covers \x60" ++ w.str entry.toJson ++ "\x60 which the live ABI lacks"
  | .abiTouched => "ABI bytes changed (same signable surface)"

/-- The severity is in `FAILING`. -/
def AlarmSeverity.failing : AlarmSeverity → Bool
  | .critical => true
  | .high => true
  | .medium => false
  | .low => false

/-- The implementation moved: both are known, and they differ. -/
def implMoved : Option String → Option String → List Event
  | some old, some new => if old ≠ "" ∧ new ≠ "" ∧ old ≠ new then [.implChanged old new] else []
  | _, _ => []

/-- `live_sigs - covered`, sorted. -/
def uncoveredSigs (live : Live) (covered : ItemSet) : List String :=
  sortedSet (live.signable.filter (fun sig => decide (.text sig ∉ covered.items)))

/-- `covered - live_sigs`. -/
def staleItems (live : Live) (covered : ItemSet) : List SetItem :=
  covered.items.filter (fun a => decide (a ∉ live.signable.map .text))

/-- `diff`. -/
def drift (baseline live : Live) (covered : ItemSet) : Except String (List Event) := do
  let stale ← sortedItems (staleItems live covered)
  let events := implMoved baseline.impl live.impl ++ (uncoveredSigs live covered).map .newUncovered ++
    stale.map .staleEntry
  return if events.isEmpty && decide (baseline.abiHash ≠ live.abiHash) then [.abiTouched] else events

/-! ## Runs of the tool -/

inductive Status
  | unresolvable
  | baseline
  | ok
  | drift
deriving DecidableEq

/-- An entry of the report. -/
structure Entry where
  descriptor : String
  status : Status
  events : List Event
deriving DecidableEq

/-- A value of `watch_state.json`. -/
structure Baseline where
  live : Live
  descriptor : String

/-- The loop in `main`: the state, the report so far, and whether an event fails the run. -/
structure Progress where
  state : OrderedDict String Baseline
  report : List Entry
  failed : Bool

/-- The rest of a turn of the loop. -/
def turn (init : Bool) (p : Progress) (s : Sighting) : Except String Progress :=
  match s.live with
  | none => .ok { p with report := p.report ++ [⟨s.name, .unresolvable, []⟩] }
  | some live =>
    match if init then none else p.state.get? s.key with
    | none =>
      .ok { p with
        state := p.state.set s.key ⟨live, s.name⟩
        report := p.report ++ [⟨s.name, .baseline, []⟩] }
    | some baseline => do
      let events ← drift baseline.live live s.covered
      return { p with
        report := p.report ++ [⟨s.name, if events.isEmpty then .ok else .drift, events⟩]
        failed := p.failed || events.any (fun e => e.severity.failing) }

/-- The arguments of a run, and whether `ETHERSCAN_API_KEY` is set. -/
structure WatchRun where
  init : Bool
  hasKey : Bool
  files : List Watched

variable {w : Watcher}

theorem mem_sortedSet {sig : String} {texts : List String} : sig ∈ sortedSet texts ↔ sig ∈ texts := by
  unfold sortedSet
  rw [List.mem_insertionSort, List.mem_dedup]

theorem nodup_sortedSet (texts : List String) : (sortedSet texts).Nodup :=
  (List.perm_insertionSort _ _).nodup_iff.mpr texts.nodup_dedup

/-- The screen is for no function that is live. -/
def Stale (live : Live) (covered : ItemSet) (a : SetItem) : Prop :=
  a ∈ covered.items ∧ ∀ sig ∈ live.signable, a ≠ .text sig

/-- Two states of a deployment show the same signable surface, and the screens are those of its functions. -/
def SameSurface (baseline live : Live) (covered : ItemSet) : Prop :=
  (∀ old new, baseline.impl = some old → live.impl = some new → old ≠ "" → new ≠ "" → old = new) ∧
    (∀ sig ∈ live.signable, .text sig ∈ covered.items) ∧ ∀ a, ¬ Stale live covered a

/-- What an event says of the baseline, the live state and the screens. -/
def Drifts (baseline live : Live) (covered : ItemSet) : Event → Prop
  | .implChanged old new =>
    baseline.impl = some old ∧ live.impl = some new ∧ old ≠ "" ∧ new ≠ "" ∧ old ≠ new
  | .newUncovered sig => sig ∈ live.signable ∧ .text sig ∉ covered.items
  | .staleEntry a => Stale live covered a
  | .abiTouched => SameSurface baseline live covered ∧ baseline.abiHash ≠ live.abiHash

/-- The screens of functions that are gone can be sorted: they are all texts, or all numbers. -/
def Sortable (live : Live) (covered : ItemSet) : Prop :=
  ∀ a b, Stale live covered a → Stale live covered b → a ≠ b → a.comparable b = true

theorem mem_implMoved {baseline live : Option String} {e : Event} : e ∈ implMoved baseline live ↔
    ∃ old new, e = .implChanged old new ∧ baseline = some old ∧ live = some new ∧ old ≠ "" ∧ new ≠ "" ∧
      old ≠ new := by
  unfold implMoved
  split
  · rename_i old new
    split_ifs with hmoved
    · rw [List.mem_singleton]
      constructor
      · intro he
        exact ⟨old, new, he, rfl, rfl, hmoved⟩
      · rintro ⟨_, _, he, ⟨⟩, ⟨⟩, -⟩
        exact he
    · constructor
      · intro he
        cases he
      · rintro ⟨_, _, -, ⟨⟩, ⟨⟩, h⟩
        exact absurd h hmoved
  · rename_i hnone
    constructor
    · intro he
      cases he
    · rintro ⟨old, new, -, rfl, rfl, -⟩
      exact absurd rfl (hnone old new rfl)

theorem mem_uncoveredSigs {live : Live} {covered : ItemSet} {sig : String} :
    sig ∈ uncoveredSigs live covered ↔ sig ∈ live.signable ∧ .text sig ∉ covered.items := by
  unfold uncoveredSigs
  rw [mem_sortedSet, List.mem_filter, decide_eq_true_eq]

theorem mem_staleItems {live : Live} {covered : ItemSet} {a : SetItem} :
    a ∈ staleItems live covered ↔ Stale live covered a := by
  unfold staleItems Stale
  rw [List.mem_filter, decide_eq_true_eq, List.mem_map]
  exact and_congr_right fun _ => ⟨fun h sig hsig heq => h ⟨sig, hsig, heq.symm⟩,
    fun h ⟨sig, hsig, heq⟩ => h sig hsig heq.symm⟩

theorem SetItem.same_self (a : SetItem) : a.same a = true := by simp [SetItem.same]

instance : Std.Symm (fun a b : SetItem => a.comparable b = true) where
  symm a b h := by
    rw [SetItem.comparable, Bool.and_comm b.isText, Bool.and_comm b.number?.isSome]
    exact h

theorem nodup_staleItems (live : Live) (covered : ItemSet) : (staleItems live covered).Nodup := by
  refine List.Nodup.filter _ (covered.distinct.imp ?_)
  rintro a b hab rfl
  rw [SetItem.same_self] at hab
  cases hab

theorem pairwise_comparable_iff {live : Live} {covered : ItemSet} :
    (staleItems live covered).Pairwise (fun a b => a.comparable b = true) ↔ Sortable live covered := by
  constructor
  · intro h a b ha hb hab
    exact h.forall (mem_staleItems.mpr ha) (mem_staleItems.mpr hb) hab
  · intro h
    exact (nodup_staleItems live covered).pairwise_of_forall_ne fun a ha b hb hab =>
      h a b (mem_staleItems.mp ha) (mem_staleItems.mp hb) hab

instance {live : Live} {covered : ItemSet} : Decidable (Sortable live covered) :=
  decidable_of_iff _ pairwise_comparable_iff

/-- The comparison raises where the screens cannot be sorted; else it lists the screens that are stale. -/
theorem drift_cases (baseline live : Live) (covered : ItemSet) :
    (¬ Sortable live covered ∧ drift baseline live covered = .error "TypeError") ∨
      Sortable live covered ∧ ∃ (stale : List SetItem) (events : List Event), stale.Perm (staleItems live covered) ∧
        events = implMoved baseline.impl live.impl ++ (uncoveredSigs live covered).map .newUncovered ++
          stale.map .staleEntry ∧
        drift baseline live covered =
          .ok (if events.isEmpty && decide (baseline.abiHash ≠ live.abiHash) then [.abiTouched] else events) := by
  unfold drift sortedItems
  by_cases hsort : Sortable live covered
  · rw [if_pos (pairwise_comparable_iff.mpr hsort)]
    exact .inr ⟨hsort, _, _, List.perm_insertionSort _ _, rfl, rfl⟩
  · rw [if_neg (mt pairwise_comparable_iff.mp hsort)]
    exact .inl ⟨hsort, rfl⟩

example : drift ⟨none, "0x00", []⟩ ⟨none, "0x00", []⟩ (setOf [.int 1, .text "pause()"]) = .error "TypeError" := rfl

example : drift ⟨none, "0x00", []⟩ ⟨none, "0x00", []⟩ (setOf [.int 2, .bool true, .float ⟨"1.0", 1⟩]) =
    .ok [.staleEntry (.bool true), .staleEntry (.int 2)] := by decide

/-- The events other than a change of bytes. -/
theorem mem_surfaceEvents {baseline live : Live} {covered : ItemSet} {stale : List SetItem}
    (hstale : stale.Perm (staleItems live covered)) {e : Event} :
    e ∈ implMoved baseline.impl live.impl ++ (uncoveredSigs live covered).map .newUncovered ++
      stale.map .staleEntry ↔ e ≠ .abiTouched ∧ Drifts baseline live covered e := by
  simp only [List.mem_append, mem_implMoved, List.mem_map, mem_uncoveredSigs, hstale.mem_iff, mem_staleItems]
  cases e with
  | implChanged old new => simp [Drifts]
  | newUncovered sig => simp [Drifts]
  | staleEntry a => simp [Drifts]
  | abiTouched => simp

theorem sameSurface_iff {baseline live : Live} {covered : ItemSet} :
    SameSurface baseline live covered ↔ ∀ e, e ≠ .abiTouched → ¬ Drifts baseline live covered e := by
  constructor
  · rintro ⟨himpl, hsigs, hstale⟩ e he hdrift
    cases e with
    | implChanged old new =>
      obtain ⟨hold, hnew, hold', hnew', hne⟩ := hdrift
      exact hne (himpl old new hold hnew hold' hnew')
    | newUncovered sig => exact hdrift.2 (hsigs sig hdrift.1)
    | staleEntry a => exact hstale a hdrift
    | abiTouched => exact he rfl
  · intro h
    refine ⟨fun old new hold hnew hold' hnew' => ?_, fun sig hsig => ?_, fun a ha => ?_⟩
    · by_contra hne
      exact h (.implChanged old new) (by simp) ⟨hold, hnew, hold', hnew', hne⟩
    · by_contra hcov
      exact h (.newUncovered sig) (by simp) ⟨hsig, hcov⟩
    · exact h (.staleEntry a) (by simp) ha

/-- **What `diff` reports**: the events that hold, and no others. -/
theorem mem_drift {baseline live : Live} {covered : ItemSet} {events : List Event}
    (h : drift baseline live covered = .ok events) {e : Event} : e ∈ events ↔ Drifts baseline live covered e := by
  obtain ⟨-, herror⟩ | ⟨-, stale, surface, hstale, hsurface, hok⟩ := drift_cases baseline live covered
  · rw [herror] at h
    cases h
  rw [hok] at h
  obtain rfl := Except.ok.inj h
  have hmem := fun e => @mem_surfaceEvents baseline live covered stale hstale e
  rw [← hsurface] at hmem
  have hsame : SameSurface baseline live covered ↔ surface = [] := by
    rw [sameSurface_iff, List.eq_nil_iff_forall_not_mem]
    constructor
    · intro h e he
      exact h e ((hmem e).mp he).1 ((hmem e).mp he).2
    · intro h e he hdrift
      exact h e ((hmem e).mpr ⟨he, hdrift⟩)
  clear h hok hsurface
  cases he : e with
  | abiTouched =>
    rw [Drifts, hsame]
    have hnot : Event.abiTouched ∉ surface := fun hin => ((hmem _).mp hin).1 rfl
    split_ifs with htouched
    · simpa using htouched
    · simpa [hnot] using htouched
  | _ =>
    rw [← he]
    have hne : e ≠ .abiTouched := by rw [he]; simp
    have hiff : e ∈ surface ↔ Drifts baseline live covered e := by simpa [hne] using hmem e
    rw [← hiff]
    split_ifs with htouched
    · have hnil : surface = [] := List.isEmpty_iff.mp ((Bool.and_eq_true_iff).mp htouched).1
      simp [hnil, hne]
    · rfl

theorem nodup_drift {baseline live : Live} {covered : ItemSet} {events : List Event}
    (h : drift baseline live covered = .ok events) : events.Nodup := by
  obtain ⟨-, herror⟩ | ⟨-, stale, surface, hstale, rfl, hok⟩ := drift_cases baseline live covered
  · rw [herror] at h
    cases h
  rw [hok] at h
  obtain rfl := Except.ok.inj h
  have himpl : (implMoved baseline.impl live.impl).Nodup := by
    unfold implMoved
    split
    · split_ifs <;> simp
    · exact List.nodup_nil
  have hstale' : stale.Nodup := hstale.nodup_iff.mpr (nodup_staleItems live covered)
  split_ifs with htouched
  · exact List.nodup_singleton _
  · rw [List.nodup_append, List.nodup_append]
    refine ⟨⟨himpl, (nodup_sortedSet _).map (fun _ _ h => by injection h), ?_⟩,
      hstale'.map (fun _ _ h => by injection h), ?_⟩
    · intro a ha b hb hab
      obtain ⟨_, _, rfl, -⟩ := mem_implMoved.mp ha
      obtain ⟨_, -, rfl⟩ := List.mem_map.mp hb
      cases hab
    · intro a ha b hb hab
      obtain ⟨_, -, rfl⟩ := List.mem_map.mp hb
      rcases List.mem_append.mp ha with ha | ha
      · obtain ⟨_, _, rfl, -⟩ := mem_implMoved.mp ha
        cases hab
      · obtain ⟨_, -, rfl⟩ := List.mem_map.mp ha
        cases hab

/-- A sighting, and whether the run was given `--init`. -/
abbrev Seen := Bool × Sighting

/-- The live states of a deployment, in the order they were seen. -/
def livesOf (key : String) (seen : List Seen) : List (Bool × Live) :=
  seen.filterMap (fun r => if r.2.key = key then r.2.live.map (fun live => (r.1, live)) else none)

/-- The baseline of a deployment: what was last seen under `--init`, else what was seen first. -/
def baselineOf (key : String) (seen : List Seen) : Option Live :=
  (((livesOf key seen).reverse.find? Prod.fst).or (livesOf key seen).head?).map Prod.snd

/-- The state file records the baseline of every deployment. -/
def Records (state : OrderedDict String Baseline) (seen : List Seen) : Prop :=
  ∀ key, (state.get? key).map Baseline.live = baselineOf key seen

/-- What an entry of the report says, by the baseline of the deployment before it was looked at. -/
structure Judged (baseline : Option Live) (init : Bool) (s : Sighting) (entry : Entry) : Prop where
  descriptor : entry.descriptor = s.name
  nodup : entry.events.Nodup
  unresolvable : entry.status = .unresolvable ↔ s.live = none
  recorded : entry.status = .baseline ↔ s.live ≠ none ∧ (init = true ∨ baseline = none)
  drifted : entry.status = .drift ↔ entry.events ≠ []
  events : ∀ e, e ∈ entry.events ↔
    init = false ∧ ∃ old new, baseline = some old ∧ s.live = some new ∧ Drifts old new s.covered e

/-- An event that fails the run: code that was never screened is live, or a function without a screen is. -/
def Alarming (baseline : Option Live) (init : Bool) (s : Sighting) : Prop :=
  init = false ∧ ∃ old new, baseline = some old ∧ s.live = some new ∧
    ((∃ a b, Drifts old new s.covered (.implChanged a b)) ∨ ∃ sig, Drifts old new s.covered (.newUncovered sig))

/-- The turn raises: the sighting is compared, and the screens of functions that are gone cannot be sorted. -/
def Raises (baseline : Option Live) (init : Bool) (s : Sighting) : Prop :=
  init = false ∧ baseline.isSome = true ∧ ∃ live ∈ s.live, ¬ Sortable live s.covered

instance {baseline : Option Live} {init : Bool} {s : Sighting} : Decidable (Raises baseline init s) :=
  inferInstanceAs (Decidable (init = false ∧ baseline.isSome = true ∧ ∃ live ∈ s.live, ¬ Sortable live s.covered))

/-- What a turn does: it adds the entry its sighting deserves, fails for an alarming one, and keeps the record. -/
def TurnsTo (init : Bool) (p : Progress) (seen : List Seen) (s : Sighting) (next : Progress) : Prop :=
  ∃ entry, Judged (baselineOf s.key seen) init s entry ∧ next.report = p.report ++ [entry] ∧
    (next.failed = true ↔ p.failed = true ∨ Alarming (baselineOf s.key seen) init s) ∧
    Records next.state (seen ++ [(init, s)])

section Turns

variable {init : Bool} {p : Progress} {seen : List Seen} {s : Sighting} {live : Live}

end Turns

/-! ## A run of the tool -/

/-- What the run sees in these files, up to one that raises when it is looked at or compared. -/
def lookAll (w : Watcher) (hasKey init : Bool) (earlier : List Seen) (files : List Watched) :
    Except String (List Sighting) :=
  files.foldlM (fun seen file => do
    let s ← sight w hasKey file
    if Raises (baselineOf s.key (earlier ++ seen.map (fun s => (init, s)))) init s then .error "TypeError"
    else return seen ++ [s]) []

/-- The report has one entry for each sighting, judged by what was seen before it, in this run too. -/
def Reports (earlier : List Seen) (init : Bool) (seen : List Sighting) (report : List Entry) : Prop :=
  report.length = seen.length ∧ ∀ before s after, seen = before ++ s :: after →
    ∃ entry, report[before.length]? = some entry ∧
      Judged (baselineOf s.key (earlier ++ before.map (fun s => (init, s)))) init s entry

/-- One of the sightings is alarming. -/
def Alarms (earlier : List Seen) (init : Bool) (seen : List Sighting) : Prop :=
  ∃ before s after, seen = before ++ s :: after ∧
    Alarming (baselineOf s.key (earlier ++ before.map (fun s => (init, s)))) init s

/-- Where an item of a list with one more item stands. -/
theorem concat_eq_append_cons_iff {α : Type} {l before after : List α} {a b : α} :
    l ++ [a] = before ++ b :: after ↔
      (after = [] ∧ l = before ∧ a = b) ∨ ∃ rest, after = rest ++ [a] ∧ l = before ++ b :: rest := by
  rcases List.eq_nil_or_concat after with rfl | ⟨rest, last, rfl⟩
  · simp [List.append_singleton_inj]
  · rw [List.concat_eq_append, ← List.cons_append, ← List.append_assoc, List.append_singleton_inj]
    constructor
    · rintro ⟨rfl, rfl⟩
      exact .inr ⟨rest, rfl, rfl⟩
    · rintro (⟨hnil, -⟩ | ⟨rest', hrest, rfl⟩)
      · simp at hnil
      · obtain ⟨rfl, rfl⟩ := List.append_singleton_inj.mp hrest
        exact ⟨rfl, rfl⟩

/-- What the loop has done, when it has seen this. -/
structure Reported (earlier : List Seen) (init : Bool) (seen : List Sighting) (p : Progress) : Prop where
  reports : Reports earlier init seen p.report
  failed : p.failed = true ↔ Alarms earlier init seen
  records : Records p.state (earlier ++ seen.map (fun s => (init, s)))

theorem Reported.nil {init : Bool} {state : OrderedDict String Baseline} {earlier : List Seen}
    (h : Records state earlier) : Reported earlier init [] ⟨state, [], false⟩ where
  reports := ⟨rfl, fun before s after hsplit => by simp at hsplit⟩
  failed := by simp [Alarms]
  records := by simpa using h

theorem Reported.concat {init : Bool} {earlier : List Seen} {seen : List Sighting} {p next : Progress} {s : Sighting}
    (h : Reported earlier init seen p) (hturn : TurnsTo init p (earlier ++ seen.map (fun s => (init, s))) s next) :
    Reported earlier init (seen ++ [s]) next := by
  obtain ⟨⟨hlen, hreport⟩, hfailed, -⟩ := h
  obtain ⟨entry, hjudged, hadd, hfail, hrecords⟩ := hturn
  refine ⟨⟨?_, fun before s' after hsplit => ?_⟩, ?_, ?_⟩
  · rw [hadd, List.length_append, List.length_append, hlen, List.length_singleton, List.length_singleton]
  · rw [hadd]
    rcases concat_eq_append_cons_iff.mp hsplit with ⟨-, rfl, rfl⟩ | ⟨rest, -, hseen⟩
    · exact ⟨entry, by rw [← hlen, List.getElem?_concat_length], hjudged⟩
    · obtain ⟨entry', hget, hjudged'⟩ := hreport before s' rest hseen
      exact ⟨entry', List.getElem?_append_left (List.getElem?_eq_some_iff.mp hget).1 ▸ hget, hjudged'⟩
  · rw [hfail, hfailed]
    constructor
    · rintro (⟨before, s', after, hseen, halarm⟩ | halarm)
      · exact ⟨before, s', after ++ [s], by rw [hseen, List.append_assoc, List.cons_append], halarm⟩
      · exact ⟨seen, s, [], rfl, halarm⟩
    · rintro ⟨before, s', after, hsplit, halarm⟩
      rcases concat_eq_append_cons_iff.mp hsplit with ⟨-, rfl, rfl⟩ | ⟨rest, -, hseen⟩
      · exact .inr halarm
      · exact .inl ⟨before, s', rest, hseen, halarm⟩
  · rw [List.map_append, List.map_singleton, ← List.append_assoc]
    exact hrecords

/-- What a run of the tool answers, by what was seen before it. -/
def Answers (w : Watcher) (earlier : List Seen) (run : WatchRun) (answer : Except String (List Entry × Bool)) : Prop :=
  (∃ exception, lookAll w run.hasKey run.init earlier run.files = .error exception ∧ answer = .error exception) ∨
    ∃ seen report failed, lookAll w run.hasKey run.init earlier run.files = .ok seen ∧ answer = .ok (report, failed) ∧
      Reports earlier run.init seen report ∧ (failed = true ↔ Alarms earlier run.init seen)

def demoWatcher : Watcher where
  env := { demoEnv [] with keccak := fun bytes => [UInt8.ofNat bytes.length] }
  readFloat _ := ⟨"0.0", 0⟩
  str
    | .str s => s
    | .int n => toString n
    | _ => ""
  str_text _ := rfl
  str_int _ := rfl

def functionJson (name : String) : Json :=
  .obj [("type", .str "function"), ("name", .str name), ("inputs", .arr [])]

end Lucent.Attest
