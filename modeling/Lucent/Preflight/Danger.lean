import Lucent.Preflight.Comprehend

/-!
# Lucent.Preflight.Danger — `assess` of `scripts/danger.py`

Names are matched as the source's regular expressions do.  Function names are Solidity identifiers (`validateAbi`),
so their case folding is the ASCII one; input names may be any text, so `foldsTo` has the other characters that match
an ASCII letter when case is ignored.
-/

namespace Lucent.Preflight

open Lucent.Lib

structure DangerFinding where
  severity : Severity
  function : String
  primitive : String
  why : String
deriving DecidableEq

/-! ## Regular expressions -/

/-- The character matches the lower-case ASCII letter when case is ignored. -/
def foldsTo (letter c : Char) : Bool :=
  c.toLower == letter || (letter == 'i' && (c.toNat == 0x130 || c.toNat == 0x131)) ||
    (letter == 's' && c.toNat == 0x17F) || (letter == 'k' && c.toNat == 0x212A)

/-- The characters match the word when case is ignored. -/
def matchesWord : List Char → List Char → Bool
  | [], text => text.isEmpty || text == ['\n']
  | _, [] => false
  | letter :: word, c :: text => foldsTo letter c && matchesWord word text

/-- `^(…|…)$` on the name of an input, ignoring case. -/
def namedOneOf (wordList : List String) (i : AbiInput) : Bool :=
  wordList.any (fun word => matchesWord word.toList (i.name.getD "").toList)

/-- `_TARGET_NAME`. -/
def targetNames : List String := ["target", "dest", "destination", "callee", "impl", "implementation"]

/-- `_CALLDATA_NAME`. -/
def calldataNames : List String := ["data", "calldata", "payload", "_data", "callback", "bytecode"]

/-- `_CALL_FN`. -/
def callFunctions : List String :=
  ["execute", "exec", "multicall", "aggregate", "tryaggregate", "forward", "proxy", "call", "functioncall",
    "delegatecall", "dispatch", "relay", "batch"]

/-- `_RECEIVER_HOOKS`. -/
def receiverHooks : List String :=
  ["onerc721received", "onerc1155received", "onerc1155batchreceived", "tokensreceived", "safetransferfrom",
    "safebatchtransferfrom"]

/-- `_SWEEP_HINT`. -/
def sweepHints : List String := ["withdraw", "sweep", "drain", "rescue", "recover", "skim", "collect"]

/-- `_ADMIN_HINT`. -/
def adminHints : List String :=
  ["transferownership", "setadmin", "setowner", "grantrole", "renounce", "setimplementation"]

/-! ## The findings of a function -/

/-- `_types`. -/
def types (fn : AbiFunction) : List String := canonicalTypes fn.inputs

/-- `_named_target_and_calldata`. -/
def namedTargetAndCalldata (fn : AbiFunction) : Bool :=
  fn.inputs.any (fun i => hasPrefix i.type "address" && namedOneOf targetNames i) &&
    fn.inputs.any (fun i => i.type == "bytes" && namedOneOf calldataNames i)

/-- `_is_call_fn`. -/
def isCallFn (fn : AbiFunction) : Bool := callFunctions.any (hasPrefix (lowerAscii fn.name) ·)

/-- `_multicall`. -/
def multicall (env : Env) (fn : AbiFunction) : Bool :=
  (types fn).contains "bytes[]" &&
    ["multicall", "aggregate", "batch", "execute"].any (hasText (env.lower fn.name) ·)

/-- `assess`. -/
def assess (env : Env) (fn : AbiFunction) : List DangerFinding :=
  let lname := env.lower fn.name
  let flag : Severity → String → String → DangerFinding := fun severity primitive why =>
    ⟨severity, fn.name, primitive, why⟩
  let takesAddress := (types fn).any (hasPrefix · "address")
  (if receiverHooks.contains lname then []
    else if isCallFn fn || namedTargetAndCalldata fn then
      [flag .critical "arbitrary-external-call"
        ("declares an unbounded external call (call-family name or a target-address + calldata-blob signature) — " ++
          "the signer cannot bound its effect by reading the screen; the canonical wallet-drainer primitive. A " ++
          "clear sentence cannot make it safe.")]
    else if multicall env fn then
      [flag .critical "multicall"
        ("aggregates a bytes[] batch of raw calls — the combined effect is unbounded and cannot be summarised on " ++
          "one screen.")]
    else []) ++
  -- the source also searches `delegatecall|delegate`, which the second test implies
  (if hasText lname "delegate" && takesAddress then
    [flag .critical "delegatecall"
      ("name implies DELEGATECALL — runs foreign code in this contract's own storage/authority context; a " ++
        "compromised or swapped target owns everything.")] else []) ++
  (if ["selfdestruct", "kill", "destroy", "destruct"].contains lname || hasText lname "selfdestruct" then
    [flag .critical "self-destruct"
      ("reachable SELFDESTRUCT — can delete the contract and force-send its balance; irreversible.")] else []) ++
  (if lname == "upgradetoandcall" || (hasText lname "upgrade" && namedTargetAndCalldata fn) then
    [flag .critical "upgrade-and-execute"
      ("swaps the contract's code AND runs a call in one signature — the single most powerful action a proxy " ++
        "exposes.")] else []) ++
  (if lname == "setapprovalforall" then
    [flag .high "unbounded-delegation"
      "grants an operator control over ALL of the signer's assets in this contract until revoked."] else []) ++
  (if adminHints.any (hasText lname ·) then
    [flag .high "authority-transfer"
      ("changes who controls the contract (ownership/admin/role) — affects every user, not just the signer's " ++
        "funds.")] else []) ++
  (if sweepHints.any (hasText lname ·) && takesAddress then
    [flag .medium "value-sweep-to-arbitrary-address"
      "moves held value to a caller-supplied address — verify the destination is not attacker-controlled."] else [])

/-- No finding of `assess` is LOW. -/
theorem assess_severity (env : Env) (fn : AbiFunction) : ∀ finding ∈ assess env fn, finding.severity ≠ .low := by
  intro finding h
  simp only [assess, List.mem_append] at h
  have hone : ∀ {c : Bool} {f : DangerFinding}, f.severity ≠ .low → finding ∈ (if c = true then [f] else []) →
      finding.severity ≠ .low := by
    intro c f hf hmem
    split_ifs at hmem
    · rw [List.mem_singleton.mp hmem]
      exact hf
    · exact absurd hmem List.not_mem_nil
  rcases h with (((((h | h) | h) | h) | h) | h) | h
  · split_ifs at h
    · exact absurd h List.not_mem_nil
    · rw [List.mem_singleton.mp h]
      exact nofun
    · rw [List.mem_singleton.mp h]
      exact nofun
    · exact absurd h List.not_mem_nil
  all_goals exact hone (by exact nofun) h

end Lucent.Preflight
