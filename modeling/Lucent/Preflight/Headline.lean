import Lucent.Preflight.Clearance

/-!
# Lucent.Preflight.Headline — who owns the headline of a cleared call

* `PolicyOwned`: the headline of a format is one of the fixed texts for its function and the decoded values.
* `cleared_headline_iff`: the headline of a cleared call is policy-owned exactly when its function is named like a
  transfer or an approval.
* `cleared_unowned`: every other cleared function is `withdraw` or payable.
-/

namespace Lucent.Preflight

open Lucent.Lib

/-- The intent is one of `intents`, and the interpolated intent, where there is one, one of `templates`. -/
structure Headline (env : Env) (fmt : Format) (intents templates : List String) : Prop where
  intent : ∃ text, fmt.intent = some text ∧ normalizeUiText env text ∈ intents
  interpolated : ∀ text, fmt.interpolatedIntent = some text → normalizeUiText env text ∈ templates

/-- The policy has a headline for a call of `fn` with the arguments `decoded`, and the format carries it. -/
inductive PolicyOwned (env : Env) (fn : AbiFunction) (decoded : List DecodedArgument) (fmt : Format) : Prop
  | transfer {recipient amount : String} :
      hasText (env.lower fn.name) "transfer" = true ∨ env.lower fn.name = "send" →
      inputOf (expectedInputRoles env fn) .recipient = some recipient →
      inputOf (expectedInputRoles env fn) .amount = some amount →
      Headline env fmt ["send tokens", "transfer tokens"]
        ["send " ++ braces amount ++ " to " ++ braces recipient,
          "transfer " ++ braces amount ++ " to " ++ braces recipient] →
      PolicyOwned env fn decoded fmt
  | approveNft {recipient tokenId : String} : env.lower fn.name = "approve" →
      inputOf (expectedInputRoles env fn) .recipient = some recipient →
      inputOf (expectedInputRoles env fn) .tokenId = some tokenId →
      Headline env fmt ["approve nft"] ["approve " ++ braces recipient ++ " for token " ++ braces tokenId] →
      PolicyOwned env fn decoded fmt
  | grantAllowance {spender amount : String} : env.lower fn.name = "approve" →
      inputOf (expectedInputRoles env fn) .spender = some spender →
      inputOf (expectedInputRoles env fn) .amount = some amount →
      ¬ (decodedValue decoded amount).any (Json.isStr "0") = true →
      Headline env fmt ["approve token spending", "set allowance"]
        ["approve " ++ braces spender ++ " to spend " ++ braces amount,
          "set " ++ braces spender ++ " allowance to " ++ braces amount] →
      PolicyOwned env fn decoded fmt
  | revokeAllowance {spender amount : String} : env.lower fn.name = "approve" →
      inputOf (expectedInputRoles env fn) .spender = some spender →
      inputOf (expectedInputRoles env fn) .amount = some amount →
      (decodedValue decoded amount).any (Json.isStr "0") = true →
      Headline env fmt ["revoke token spending", "revoke allowance"]
        ["revoke " ++ braces spender ++ " allowance", "revoke " ++ braces spender ++ " token allowance"] →
      PolicyOwned env fn decoded fmt
  | grantOperator {operator approved : String} : env.lower fn.name = "setapprovalforall" →
      inputOf (expectedInputRoles env fn) .operator = some operator →
      inputOf (expectedInputRoles env fn) .approved = some approved →
      ¬ (decodedValue decoded approved).any (Json.isBool false) = true →
      Headline env fmt ["set operator", "approve operator"]
        ["approve " ++ braces operator ++ " as operator", "set " ++ braces operator ++ " as operator"] →
      PolicyOwned env fn decoded fmt
  | revokeOperator {operator approved : String} : env.lower fn.name = "setapprovalforall" →
      inputOf (expectedInputRoles env fn) .operator = some operator →
      inputOf (expectedInputRoles env fn) .approved = some approved →
      (decodedValue decoded approved).any (Json.isBool false) = true →
      Headline env fmt ["revoke operator"] ["revoke " ++ braces operator ++ " as operator"] →
      PolicyOwned env fn decoded fmt

/-- The function is named like a transfer or an approval. -/
def NamesKnownAction (env : Env) (fn : AbiFunction) : Prop :=
  hasText (env.lower fn.name) "transfer" = true ∨ env.lower fn.name ∈ ["send", "approve", "setapprovalforall"]

section Texts

variable {env : Env} {fn : AbiFunction} {decoded : List DecodedArgument} {fmt : Format}

theorem named_eq_some {name : Option String} {text : String} (h : named name = some text) : name = some text :=
  (Option.filter_eq_some_iff.mp h).1

/-- The texts the binding step asks for are those of a headline. -/
theorem headline_of_match {allowed : ActionTexts} (haction : knownAction env fn (some decoded) = .texts allowed)
    (h : intentMatchesKnownAction env fn fmt (some decoded) = true) :
    Headline env fmt allowed.intents allowed.interpolated := by
  unfold intentMatchesKnownAction at h
  rw [haction] at h
  obtain ⟨hintent, hinterpolated⟩ := (Bool.and_eq_true _ _).mp h
  obtain ⟨text, htext, hmem⟩ := (Option.any_eq_true _ _).mp hintent
  refine ⟨⟨text, htext, List.contains_iff_mem.mp hmem⟩, fun other hother => ?_⟩
  rw [hother] at hinterpolated
  exact List.contains_iff_mem.mp hinterpolated

/-- **The texts of a known action** are those of a policy-owned headline. -/
theorem policyOwned_of_match (hname : NamesKnownAction env fn)
    (h : intentMatchesKnownAction env fn fmt (some decoded) = true) : PolicyOwned env fn decoded fmt := by
  have hunbound : knownAction env fn (some decoded) ≠ .unbound := by
    intro hbad
    unfold intentMatchesKnownAction at h
    rw [hbad] at h
    exact nomatch h
  have hheadline : ∀ allowed, knownAction env fn (some decoded) = .texts allowed →
      Headline env fmt allowed.intents allowed.interpolated := fun _ haction => headline_of_match haction h
  unfold knownAction at hunbound hheadline
  dsimp only at hunbound hheadline
  split_ifs at hunbound hheadline with htransfer happrove htoken hoperator
  · split at hunbound
    · rename_i recipient amount hrecipient hamount
      rw [hrecipient, hamount] at hheadline
      refine .transfer ?_ (named_eq_some hrecipient) (named_eq_some hamount) (hheadline _ rfl)
      simpa using htransfer
    · exact absurd rfl hunbound
  · split at hunbound
    · rename_i recipient tokenId hrecipient htokenId
      rw [hrecipient, htokenId] at hheadline
      exact .approveNft (beq_iff_eq.mp happrove) (named_eq_some hrecipient) (named_eq_some htokenId)
        (hheadline _ rfl)
    · exact absurd rfl hunbound
  · split at hunbound
    · rename_i spender amount hspender hamount
      rw [hspender, hamount] at hheadline
      have htexts := hheadline _ rfl
      by_cases hzero : (decodedValue decoded amount).any (Json.isStr "0") = true
      · rw [allowanceTexts, Option.map_some, hzero] at htexts
        exact .revokeAllowance (beq_iff_eq.mp happrove) (named_eq_some hspender) (named_eq_some hamount) hzero htexts
      · rw [allowanceTexts, Option.map_some, Bool.eq_false_iff.mpr hzero] at htexts
        exact .grantAllowance (beq_iff_eq.mp happrove) (named_eq_some hspender) (named_eq_some hamount) hzero htexts
    · exact absurd rfl hunbound
  · split at hunbound
    · rename_i operator approved hoper happroved
      rw [hoper, happroved] at hheadline
      have htexts := hheadline _ rfl
      by_cases hfalse : (decodedValue decoded approved).any (Json.isBool false) = true
      · rw [operatorTexts, Option.map_some, hfalse] at htexts
        exact .revokeOperator (beq_iff_eq.mp hoperator) (named_eq_some hoper) (named_eq_some happroved) hfalse htexts
      · rw [operatorTexts, Option.map_some, Bool.eq_false_iff.mpr hfalse] at htexts
        exact .grantOperator (beq_iff_eq.mp hoperator) (named_eq_some hoper) (named_eq_some happroved) hfalse htexts
    · exact absurd rfl hunbound
  · -- no template: the name is none of the known ones
    exfalso
    unfold NamesKnownAction at hname
    simp only [List.mem_cons, List.not_mem_nil, or_false] at hname
    simp only [Bool.or_eq_true, beq_iff_eq] at htransfer happrove hoperator
    tauto

theorem PolicyOwned.named (h : PolicyOwned env fn decoded fmt) : NamesKnownAction env fn := by
  unfold NamesKnownAction
  rcases h with hname | hname | hname | hname | hname | hname
  · exact hname.imp_right fun hsend => by simp [hsend]
  all_goals exact .inr (by simp [hname])

end Texts

/-- **Headlines**: the headline of a cleared call is policy-owned if and only if its function is named like a transfer
or an approval. -/
theorem cleared_headline_iff {env : Env} {args : Json} {r : PreflightResult}
    (h : preflightTransaction env args = .ok r) (hsafe : r.verdict.gate = .safeToPresent) :
    (∃ fmt, r.call.format = some fmt ∧ PolicyOwned env r.call.function r.call.decoded fmt) ↔
      NamesKnownAction env r.call.function := by
  obtain ⟨-, -, hassessed⟩ := preflightTransaction_ok h
  rw [hassessed.verdict] at hsafe
  obtain ⟨-, hcall, hbinding⟩ := finalVerdict_safe hsafe
  obtain ⟨fmt, hfmt⟩ := Option.isSome_iff_exists.mp (callVerdict_safe hcall).1
  rw [hassessed.binding, hfmt] at hbinding
  have hmatch : intentMatchesKnownAction env r.call.function fmt (some r.call.decoded) = true := by
    have hnil : bindingFindings env r.call.function fmt r.call.value (some r.call.decoded) = [] := hbinding
    unfold bindingFindings at hnil
    simp only [List.append_eq_nil_iff] at hnil
    by_contra hcon
    rw [if_neg hcon] at hnil
    exact List.cons_ne_nil _ _ hnil.1.1.1.1
  constructor
  · rintro ⟨_, -, howned⟩
    exact howned.named
  · exact fun hname => ⟨fmt, hfmt, policyOwned_of_match hname hmatch⟩

/-- A withdrawal, under a headline of the caller's own. -/
def withdrawRequest : Json :=
  callRequest "withdraw" "withdraw(uint256)"
    ("0x2e1a7d4d" ++ "00000000000000000000000000000000000000000000000000000000000003e8") [inputJson "amount" "uint256"]
    [("intent", .str "Claim your reward"), ("fields", .arr [fieldJson "#.amount" "Amount" "raw"])]

def withdrawEnv : Env :=
  { demoEnv (hexOf "ebcf9b98d66ffdf5574df3fc1e702b979c3af59e55813e3d11a3778d8306cedc") with
    keccak := fun data => if data = utf8 "withdraw(uint256)" then
      hexOf "2e1a7d4d13322e7b96f9a57413e1525c250fb7a9021cf91d1540d5b69f16a49f" else [] }

/-- The request is accepted and cleared, with the caller's headline and a function without a headline of the policy. -/
theorem withdrawRequest_answer : answers (fun r => decide (r.verdict.gate = .safeToPresent) &&
    r.call.format.any (fun fmt => fmt.intent == some "Claim your reward") &&
    !hasText (withdrawEnv.lower r.call.function.name) "transfer" &&
    !(["send", "approve", "setapprovalforall"].contains (withdrawEnv.lower r.call.function.name)))
    (preflightTransaction withdrawEnv withdrawRequest) = true := by decide +kernel

theorem not_namesKnownAction {env : Env} {fn : AbiFunction} (htransfer : hasText (env.lower fn.name) "transfer" = false)
    (hnames : ["send", "approve", "setapprovalforall"].contains (env.lower fn.name) = false) :
    ¬ NamesKnownAction env fn := by
  rintro (h | h)
  · exact nomatch h.symm.trans htransfer
  · exact nomatch (List.contains_iff_mem.mpr h).symm.trans hnames

/-- The withdrawal is cleared under the caller's headline, and the policy owns none for it. -/
theorem withdraw_cleared_unowned : ∃ r, preflightTransaction withdrawEnv withdrawRequest = .ok r ∧
    r.verdict.gate = .safeToPresent ∧
      (∃ fmt, r.call.format = some fmt ∧ fmt.intent = some "Claim your reward") ∧
        ¬ ∃ fmt, r.call.format = some fmt ∧ PolicyOwned withdrawEnv r.call.function r.call.decoded fmt := by
  obtain ⟨r, hr, hall⟩ := exists_of_answers withdrawRequest_answer
  simp only [Bool.and_eq_true, decide_eq_true_eq, Bool.not_eq_true', Option.any_eq_true, beq_iff_eq] at hall
  obtain ⟨⟨⟨hgate, hformat⟩, htransfer⟩, hnames⟩ := hall
  refine ⟨r, hr, hgate, hformat, ?_⟩
  rintro ⟨_, -, howned⟩
  exact not_namesKnownAction htransfer hnames howned.named

theorem cleared_headline_iff_withdraw : ∃ r, preflightTransaction withdrawEnv withdrawRequest = .ok r ∧
    ¬ ∃ fmt, r.call.format = some fmt ∧ PolicyOwned withdrawEnv r.call.function r.call.decoded fmt := by
  obtain ⟨r, hr, hall⟩ := exists_of_answers withdrawRequest_answer
  simp only [Bool.and_eq_true, decide_eq_true_eq, Bool.not_eq_true'] at hall
  obtain ⟨⟨⟨hgate, -⟩, htransfer⟩, hnames⟩ := hall
  exact ⟨r, hr, fun howned => not_namesKnownAction htransfer hnames ((cleared_headline_iff hr hgate).mp howned)⟩

/-! ## Which functions are cleared without a headline of the policy -/

/-- What is neither CRITICAL nor HIGH moves value. -/
theorem classify_transfer_of_tier {env : Env} {fn : AbiFunction} {fmt : Option Format} {c : Classification}
    (h : classify env fn fmt = .ok c) (hcritical : c.tier ≠ .critical) (hhigh : c.tier ≠ .high) :
    consequence env fn fmt = .transfer := by
  unfold classify at h
  split at h
  case h_6 hcase => exact hcase
  case h_1 =>
    obtain ⟨who, -, h⟩ := bind_eq_ok.mp h
    cases h
    exact absurd rfl hcritical
  case h_4 =>
    cases h
    exact absurd rfl hcritical
  case h_2 | h_3 =>
    obtain ⟨who, -, h⟩ := bind_eq_ok.mp h
    obtain ⟨amount, -, h⟩ := bind_eq_ok.mp h
    cases h
    exact absurd rfl hhigh
  case h_5 =>
    obtain ⟨who, -, h⟩ := bind_eq_ok.mp h
    cases h
    exact absurd rfl hhigh
  case h_7 | h_8 =>
    cases h
    exact absurd rfl hhigh

/-- A call that is not named like an approval is classified by its function alone. -/
theorem applyCallDependentComprehension_eq {env : Env} {fn : AbiFunction} {decoded : List DecodedArgument}
    {c : Classification} (hset : env.lower fn.name ≠ "setapprovalforall") (happrove : env.lower fn.name ≠ "approve") :
    applyCallDependentComprehension env fn decoded c = c := by
  unfold applyCallDependentComprehension
  dsimp only
  rw [if_neg (by simpa using hset), if_pos (by simpa using happrove)]

/-- **Unowned headlines**: a cleared function without a headline of the policy is `withdraw`, or payable. -/
theorem cleared_unowned {env : Env} {args : Json} {r : PreflightResult} (h : preflightTransaction env args = .ok r)
    (hsafe : r.verdict.gate = .safeToPresent) (hname : ¬ NamesKnownAction env r.call.function) :
    env.lower r.call.function.name = "withdraw" ∨ r.call.function.declaredPayable = true := by
  obtain ⟨-, -, hassessed⟩ := preflightTransaction_ok h
  obtain ⟨c, hc, hrefined⟩ := hassessed.comprehension
  rw [hassessed.verdict] at hsafe
  obtain ⟨-, -, -, hcritical, hhigh⟩ := callVerdict_safe (finalVerdict_safe hsafe).2.1
  unfold NamesKnownAction at hname
  simp only [List.mem_cons, List.not_mem_nil, or_false, not_or] at hname
  obtain ⟨htransfer, hsend, happrove, hset⟩ := hname
  rw [hrefined, applyCallDependentComprehension_eq hset happrove] at hcritical hhigh
  have hcase := classify_transfer_of_tier hc hcritical hhigh
  unfold consequence at hcase
  dsimp only at hcase
  split_ifs at hcase with _ _ _ _ _ hlike
  simpa [htransfer, hsend] using hlike

end Lucent.Preflight
