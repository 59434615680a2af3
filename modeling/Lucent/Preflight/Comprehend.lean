import Lucent.Preflight.Audit

/-!
# Lucent.Preflight.Comprehend — `classify` of `scripts/comprehend.py`

`consequence` is the chain of conditions of `classify`, `classify` the tier, reason and sentence of the branch taken.
Sentences quote the names of ABI inputs between braces; the only exception is the `KeyError` of a quoted input
without a name.
-/

namespace Lucent.Preflight

open Lucent.Lib

/-- `TIER_ORDER`. -/
inductive Tier
  | critical
  | high
  | medium
  | low
  | info
deriving DecidableEq

/-- What `classify` returns, with the marks the call-dependent refinement adds. -/
structure Classification where
  tier : Tier
  reason : String
  sentence : String
  revocation : Bool
  unlimitedApproval : Bool

/-- The branches of `classify`. -/
inductive Consequence
  | operatorGrant
  | nftApproval
  | allowance
  | authority
  | permit
  | transfer
  | described
  | unexplained
deriving DecidableEq

/-- The text in braces. -/
def braces (text : String) : String := "\x7b" ++ text ++ "\x7d"

/-- `lbl(leaf, default)`. -/
def lbl (leaf default : String) : String := braces (if leaf.isEmpty then default else leaf)

/-- `(i.get("name") or "").lower()`. -/
def AbiInput.lowerName (env : Env) (i : AbiInput) : String := env.lower (i.name.getD "")

/-- `_has_input`, without and with a name hint. -/
def hasInput (fn : AbiFunction) (typePrefix : String) : Option AbiInput :=
  fn.inputs.find? (fun i => hasPrefix (canonicalType i) typePrefix)

def hasInputNamed (env : Env) (fn : AbiFunction) (typePrefix hint : String) : Option AbiInput :=
  fn.inputs.find? (fun i => hasPrefix (canonicalType i) typePrefix && hasText (i.lowerName env) hint)

/-- The quoted name of an input that was found, or a phrase for one that was not. -/
def party (i : Option AbiInput) (default phrase : String) : Except Failure String :=
  match i with
  | none => .ok phrase
  | some i => do
    let name ← i.nameKey
    return lbl name default

/-- `fn.get("stateMutability") == "payable"`. -/
def AbiFunction.declaredPayable (fn : AbiFunction) : Bool := fn.stateMutability == some "payable"

/-- The conditions of `classify`, in order. -/
def consequence (env : Env) (fn : AbiFunction) (fmt : Option Format) : Consequence :=
  let lname := env.lower fn.name
  if lname == "setapprovalforall" || (hasText lname "approval" && (hasInput fn "bool").isSome) then .operatorGrant
  else if lname == "approve" || lname == "increaseallowance" || hasSuffix lname "approve" then
    if (hasInput fn "uint").any (fun amount => hasText (amount.lowerName env) "tokenid") then .nftApproval
    else .allowance
  else if ["upgrade", "setimplementation", "setadmin", "transferownership", "setowner", "grantrole"].any
      (hasText lname ·) then .authority
  else if hasText lname "permit" then .permit
  else if hasText lname "transfer" || lname == "send" || lname == "withdraw" || fn.declaredPayable then .transfer
  else if fmt.any (fun fmt => shown fmt.intent || shown fmt.interpolatedIntent) then .described
  else .unexplained

/-- The inputs a transfer sentence is about. -/
def transferRecipient (env : Env) (fn : AbiFunction) : Option AbiInput :=
  (hasInputNamed env fn "address" "to").or (hasInput fn "address")

def transferAmount (env : Env) (fn : AbiFunction) : Option AbiInput :=
  (hasInputNamed env fn "uint" "amount").or (hasInput fn "uint")

/-- What a transfer sends: the native value of a payable function, else an amount. -/
def sentAmount (env : Env) (fn : AbiFunction) : Except Failure String :=
  if fn.declaredPayable then .ok (braces "@value") else party (transferAmount env fn) "amount" (braces "amount")

/-- The input a permit sentence is about. -/
def permitSpender (env : Env) (fn : AbiFunction) : Option AbiInput :=
  (hasInputNamed env fn "address" "spend").or (hasInput fn "address")

/-- `_recipient_shown_raw`. -/
def recipientShownRaw (fn : AbiFunction) (fmt : Option Format) : Except Failure Bool :=
  match fmt.filter (!·.blank) with
  | none => .ok (hasInput fn "address").isSome
  | some fmt =>
    let rec go : List AbiInput → Except Failure Bool
      | [] => .ok false
      | i :: rest =>
        if hasPrefix (canonicalType i) "address" then do
          let name ← i.nameKey
          -- the last field of a path counts
          match fmt.fields.reverse.find? (fun field => field.path == some ("#." ++ name)) with
          | none => .ok true
          | some field =>
            if field.visible == some "never" || field.format != some "addressName" then .ok true else go rest
        else go rest
    go fn.inputs

/-- `classify`. -/
def classify (env : Env) (fn : AbiFunction) (fmt : Option Format) : Except Failure Classification :=
  match consequence env fn fmt with
  | .operatorGrant => do
    let who ← party (hasInput fn "address") "operator" "an operator"
    return ⟨.critical,
      "grants operator control over your ENTIRE collection/balance, not a single asset — the approval persists " ++
        "until you revoke it",
      "You let " ++ who ++ " transfer ANY of your tokens in this contract, at any time, until you revoke it.",
      false, false⟩
  | .nftApproval => do
    let who ← party (hasInput fn "address") "spender" "a spender"
    let tok ← party (hasInput fn "uint") "token id" "an amount"
    return ⟨.high,
      "grants control of ONE specific NFT (by token id) to the approved address — they can transfer that NFT out " ++
        "of your wallet until you revoke it",
      "You let " ++ who ++ " take the NFT with id " ++ tok ++ " from your wallet, until you revoke it.",
      false, false⟩
  | .allowance => do
    let who ← party (hasInput fn "address") "spender" "a spender"
    let amt ← party (hasInput fn "uint") "amount" "an amount"
    return ⟨.high,
      "an ERC-20 allowance lets the spender pull tokens from YOUR wallet later, without another signature — check " ++
        "for an UNLIMITED amount, the single most-exploited drainer pattern",
      "You let " ++ who ++ " spend up to " ++ amt ++
        " of your tokens on your behalf, until you change or revoke it.",
      false, false⟩
  | .authority =>
    .ok ⟨.critical,
      "changes WHO controls the contract or WHAT code runs — a consequence far beyond moving your own funds",
      "You change the control or code of the contract (" ++ fn.name ++ "), affecting everyone who uses it.",
      false, false⟩
  | .permit => do
    let who ← party (permitSpender env fn) "spender" "a spender"
    return ⟨.high,
      "a permit is an OFF-CHAIN approval — no transaction appears in your history, so it is easy to grant and forget",
      "You sign an off-chain approval letting " ++ who ++
        " spend your tokens — it takes effect with no transaction from you.",
      false, false⟩
  | .transfer => do
    let who ← party (transferRecipient env fn) "recipient" "a recipient"
    let amt ← sentAmount env fn
    let rawAddr ← recipientShownRaw fn fmt
    return ⟨if rawAddr then .high else .medium,
      "moves value out of your wallet now — verify the recipient is who you expect" ++
        (if rawAddr then "; the recipient is shown as RAW HEX, which is unreadable and the exact surface " ++
          "address-poisoning attacks exploit" else ""),
      "You send " ++ amt ++ " to " ++ who ++ " now.", false, false⟩
  | .described =>
    .ok ⟨.high,
      "Lucent has not classified this function's consequence; caller-authored intent cannot substitute for policy " ++
        "semantics",
      "You call " ++ fn.name ++ "; Lucent has not classified its consequence.", false, false⟩
  | .unexplained =>
    .ok ⟨.high,
      "unclassified consequence AND no intent on the screen — the human has nothing to understand the action from " ++
        "(an unexplained screen is worse than none: it invites blind approval)",
      "You call " ++ fn.name ++ " — the screen does not explain what this does.", false, false⟩

/-! ## What `classify` never says -/

/-- The sentence is one of a revocation. -/
def revokes (sentence : String) : Bool := hasPrefix sentence "You revoke "

/-- `classify` knows no revocation. -/
theorem classify_not_revocation {env : Env} {fn : AbiFunction} {fmt : Option Format} {c : Classification}
    (h : classify env fn fmt = .ok c) : c.revocation = false ∧ revokes c.sentence = false := by
  have hsays : ∀ start rest : String, hasPrefix start "You revoke " = false → hasPrefix "You revoke " start = false →
      revokes (start ++ rest) = false := fun start rest hs hr => hasPrefix_append_eq_false hs hr rest
  unfold classify at h
  split at h
  · obtain ⟨who, -, h⟩ := bind_eq_ok.mp h
    cases h
    simp only [String.append_assoc, true_and]
    exact hsays "You let " _ (by decide) (by decide)
  · obtain ⟨who, -, h⟩ := bind_eq_ok.mp h
    obtain ⟨tok, -, h⟩ := bind_eq_ok.mp h
    cases h
    simp only [String.append_assoc, true_and]
    exact hsays "You let " _ (by decide) (by decide)
  · obtain ⟨who, -, h⟩ := bind_eq_ok.mp h
    obtain ⟨amt, -, h⟩ := bind_eq_ok.mp h
    cases h
    simp only [String.append_assoc, true_and]
    exact hsays "You let " _ (by decide) (by decide)
  · cases h
    simp only [String.append_assoc, true_and]
    exact hsays "You change the control or code of the contract (" _ (by decide) (by decide)
  · obtain ⟨who, -, h⟩ := bind_eq_ok.mp h
    cases h
    simp only [String.append_assoc, true_and]
    exact hsays "You sign an off-chain approval letting " _ (by decide) (by decide)
  · obtain ⟨who, -, h⟩ := bind_eq_ok.mp h
    obtain ⟨amt, -, h⟩ := bind_eq_ok.mp h
    obtain ⟨rawAddr, -, h⟩ := bind_eq_ok.mp h
    cases h
    simp only [String.append_assoc, true_and]
    exact hsays "You send " _ (by decide) (by decide)
  · cases h
    simp only [String.append_assoc, true_and]
    exact hsays "You call " _ (by decide) (by decide)
  · cases h
    simp only [String.append_assoc, true_and]
    exact hsays "You call " _ (by decide) (by decide)

/-- A function named like an approval grants an operator, an NFT or an allowance, and none of these is a low tier. -/
theorem classify_approval_tier {env : Env} {fn : AbiFunction} {fmt : Option Format} {c : Classification}
    (h : classify env fn fmt = .ok c)
    (hname : env.lower fn.name = "approve" ∨ env.lower fn.name = "setapprovalforall") :
    c.tier = .critical ∨ c.tier = .high := by
  have hcases : consequence env fn fmt = .operatorGrant ∨ consequence env fn fmt = .nftApproval ∨
      consequence env fn fmt = .allowance := by
    unfold consequence
    rcases hname with hname | hname
    · rw [hname]
      dsimp only
      split_ifs
      · exact .inl rfl
      · exact .inr (.inl rfl)
      · exact .inr (.inr rfl)
      all_goals contradiction
    · rw [hname]
      exact .inl rfl
  unfold classify at h
  rcases hcases with hcase | hcase | hcase
  · rw [hcase] at h
    obtain ⟨who, -, h⟩ := bind_eq_ok.mp h
    cases h
    exact .inl rfl
  · rw [hcase] at h
    obtain ⟨who, -, h⟩ := bind_eq_ok.mp h
    obtain ⟨tok, -, h⟩ := bind_eq_ok.mp h
    cases h
    exact .inr rfl
  · rw [hcase] at h
    obtain ⟨who, -, h⟩ := bind_eq_ok.mp h
    obtain ⟨amt, -, h⟩ := bind_eq_ok.mp h
    cases h
    exact .inr rfl

end Lucent.Preflight
