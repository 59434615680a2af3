import Lucent.Preflight.Clearance

/-!
# Lucent.Preflight.Approval — grants and revocations

Whether a call of `approve` or `setApprovalForAll` revokes is decided twice: the role map picks the token id, the
amount or the flag by name hints, the refinement of the comprehension looks at the first argument of the type.

* `Grants`: by the role map the call grants something.
* `ReadsAsGrant`: the argument the refinement looks at does not read as a revocation.
* `grant_reviewed_iff`: a grant is reviewed and not called a revocation if and only if it also reads as a grant.
-/

namespace Lucent.Preflight

open Lucent.Lib

/-! ## The two readings -/

/-- The call is named like an approval. -/
def NamedApproval (env : Env) (fn : AbiFunction) : Prop :=
  env.lower fn.name = "approve" ∨ env.lower fn.name = "setapprovalforall"

/-- By the role map the call grants something: an NFT, an amount that is not zero, or an operator's authority. -/
def Grants (env : Env) (call : AcceptedCall) : Prop :=
  ∃ i ∈ call.function.inputs,
    roleOf (expectedInputRoles env call.function) i.nameText = some .tokenId ∨
    (roleOf (expectedInputRoles env call.function) i.nameText = some .amount ∧
      (decodedValue call.decoded i.nameText).any (·.isStr "0") = false) ∨
    (roleOf (expectedInputRoles env call.function) i.nameText = some .approved ∧
      (decodedValue call.decoded i.nameText).any (·.isBool true) = true)

/-- The first argument of the type reads as a grant: the first flag is not false; the first unsigned integer is a
token id by its name, or not zero. -/
def ReadsAsGrant (env : Env) (call : AcceptedCall) : Prop :=
  (env.lower call.function.name = "setapprovalforall" →
    ∀ item, firstOfType "bool" call.decoded = some item → item.value.isBool false = false) ∧
  (env.lower call.function.name = "approve" →
    ∀ item, firstUint call.decoded = some item →
      hasText (env.lower item.name) "tokenid" = true ∨ item.value.isStr "0" = false)

/-! ## The refinement -/

section Refinement

variable {env : Env} {fn : AbiFunction} {decoded : List DecodedArgument} (c : Classification)

/-- What a refinement that finds no revocation may change: the tier, and only upwards. -/
structure KeepsMeaning (c c' : Classification) : Prop where
  revocation : c'.revocation = c.revocation
  sentence : c'.sentence = c.sentence
  tier : c'.tier = c.tier ∨ c'.tier = .critical

theorem KeepsMeaning.rfl : KeepsMeaning c c := ⟨Eq.refl _, Eq.refl _, .inl (Eq.refl _)⟩

theorem refine_setApprovalForAll (decoded : List DecodedArgument) (hname : env.lower fn.name = "setapprovalforall") :
    ((firstOfType "bool" decoded).any (·.value.isBool false) = true →
      (applyCallDependentComprehension env fn decoded c).revocation = true) ∧
    ((firstOfType "bool" decoded).any (·.value.isBool false) = false →
      applyCallDependentComprehension env fn decoded c = c) := by
  unfold applyCallDependentComprehension
  rw [hname]
  refine ⟨fun h => ?_, fun h => ?_⟩
  · simp only [beq_self_eq_true, if_true, h]
  · simp only [beq_self_eq_true, if_true, h, Bool.false_eq_true, if_false]

theorem refine_approve_none (hname : env.lower fn.name = "approve") (h : firstUint decoded = none) :
    applyCallDependentComprehension env fn decoded c = c := by
  unfold applyCallDependentComprehension
  rw [hname, h]
  exact Eq.refl c

theorem refine_approve_some (hname : env.lower fn.name = "approve") {item : DecodedArgument}
    (h : firstUint decoded = some item) :
    (hasText (env.lower item.name) "tokenid" = false ∧ item.value.isStr "0" = true →
      (applyCallDependentComprehension env fn decoded c).revocation = true) ∧
    (hasText (env.lower item.name) "tokenid" = true ∨ item.value.isStr "0" = false →
      KeepsMeaning c (applyCallDependentComprehension env fn decoded c)) := by
  unfold applyCallDependentComprehension
  rw [hname, h]
  have hset : ("approve" == "setapprovalforall") = false := by decide
  have hother : ("approve" != "approve") = false := by decide
  simp only [hset, hother, Bool.false_eq_true, if_false]
  refine ⟨?_, ?_⟩
  · rintro ⟨htoken, hzero⟩
    rw [if_neg (Bool.eq_false_iff.mp htoken), if_pos hzero]
  · intro hkeep
    by_cases htoken : hasText (env.lower item.name) "tokenid" = true
    · rw [if_pos htoken]
      exact .rfl c
    · have hzero := hkeep.resolve_left htoken
      rw [if_neg htoken, if_neg (Bool.eq_false_iff.mp hzero)]
      split_ifs
      · exact .rfl c
      · exact ⟨Eq.refl _, Eq.refl _, .inr (Eq.refl _)⟩

/-- **The refinement** marks a revocation exactly where the argument it looks at reads as one. -/
theorem refine_reads {call : AcceptedCall} (hname : NamedApproval env call.function) :
    (¬ ReadsAsGrant env call →
      (applyCallDependentComprehension env call.function call.decoded c).revocation = true) ∧
    (ReadsAsGrant env call →
      KeepsMeaning c (applyCallDependentComprehension env call.function call.decoded c)) := by
  rcases hname with hname | hname
  · have hset : env.lower call.function.name ≠ "setapprovalforall" := by
      rw [hname]
      decide
    rcases hfirst : firstUint call.decoded with _ | item
    · have hreads : ReadsAsGrant env call := by
        refine ⟨fun h => absurd h hset, fun _ item h => ?_⟩
        rw [hfirst] at h
        exact nomatch h
      refine ⟨fun hnot => absurd hreads hnot, fun _ => ?_⟩
      rw [refine_approve_none c hname hfirst]
      exact .rfl c
    · obtain ⟨hrevokes, hkeeps⟩ := refine_approve_some c hname hfirst
      refine ⟨fun hreads => hrevokes ?_, fun hreads => hkeeps (hreads.2 hname item hfirst)⟩
      by_contra hcon
      refine hreads ⟨fun h => absurd h hset, fun _ other hother => ?_⟩
      obtain rfl : item = other := Option.some.inj (hfirst.symm.trans hother)
      rw [not_and_or, Bool.not_eq_false, Bool.not_eq_true] at hcon
      exact hcon
  · have happrove : env.lower call.function.name ≠ "approve" := by
      rw [hname]
      decide
    obtain ⟨hrevokes, hkeeps⟩ := refine_setApprovalForAll c call.decoded hname
    rcases hfirst : firstOfType "bool" call.decoded with _ | item
    · have hreads : ReadsAsGrant env call := by
        refine ⟨fun _ item h => ?_, fun h => absurd h happrove⟩
        rw [hfirst] at h
        exact nomatch h
      rw [hfirst] at hkeeps
      refine ⟨fun hnot => absurd hreads hnot, fun _ => ?_⟩
      rw [hkeeps (Eq.refl _)]
      exact .rfl c
    · rw [hfirst] at hrevokes hkeeps
      refine ⟨fun hreads => hrevokes ?_, fun hreads => ?_⟩
      · by_contra hcon
        refine hreads ⟨fun _ other hother => ?_, fun h => absurd h happrove⟩
        obtain rfl : item = other := Option.some.inj (hfirst.symm.trans hother)
        exact Bool.eq_false_iff.mpr hcon
      · rw [hkeeps (hreads.1 hname item hfirst)]
        exact .rfl c

end Refinement

/-! ## Grants -/

/-- A grant is handled as one: reviewed or blocked, not marked and not described as a revocation. -/
structure HandledAsGrant (r : PreflightResult) : Prop where
  gate : r.verdict.gate = .review ∨ r.verdict.gate = .block
  revocation : r.comprehension.revocation = false
  sentence : revokes r.comprehension.sentence = false

theorem Gate.eq_review_or_block {gate : Gate} (h : gate ≠ .safeToPresent) : gate = .review ∨ gate = .block := by
  rcases gate with _ | _ | _
  · exact absurd rfl h
  · exact .inl rfl
  · exact .inr rfl

/-- **Grants**: the calls that grant something by the role map are all handled as grants, if and only if they also
read as grants to the refinement. -/
theorem grant_reviewed_iff {env : Env} {args : Json} {r : PreflightResult}
    (h : preflightTransaction env args = .ok r) (hname : NamedApproval env r.call.function) :
    (Grants env r.call → HandledAsGrant r) ↔ (Grants env r.call → ReadsAsGrant env r.call) := by
  obtain ⟨-, haccepted, hassessed⟩ := preflightTransaction_ok h
  obtain ⟨c, hc, hrefined⟩ := hassessed.comprehension
  obtain ⟨hrevokes, hkeeps⟩ := refine_reads c hname
  rw [← hrefined] at hrevokes hkeeps
  obtain ⟨hrevocation, hsentence⟩ := classify_not_revocation hc
  refine imp_congr_right fun _ => ⟨fun hhandled => ?_, fun hreads => ?_⟩
  · by_contra hreads
    have hmarked := hrevokes hreads
    rw [hhandled.revocation] at hmarked
    exact nomatch hmarked
  · have hmeaning := hkeeps hreads
    refine ⟨Gate.eq_review_or_block fun hsafe => ?_, hmeaning.revocation.trans hrevocation,
      hmeaning.sentence ▸ hsentence⟩
    rw [hassessed.verdict] at hsafe
    obtain ⟨-, -, -, hcritical, hhigh⟩ := callVerdict_safe (finalVerdict_safe hsafe).2.1
    have htier := classify_approval_tier hc hname
    rcases hmeaning.tier with heq | heq
    · rw [heq] at hcritical hhigh
      exact htier.elim hcritical hhigh
    · exact hcritical heq

/-- An approval of the NFT with id 0, whose input is called `token_id`. -/
def approveRequest : Json :=
  callRequest "approve" "approve(address,uint256)"
    ("0x095ea7b3" ++ "0000000000000000000000003333333333333333333333333333333333333333" ++
      "0000000000000000000000000000000000000000000000000000000000000000")
    [inputJson "to" "address", inputJson "token_id" "uint256"]
    [("intent", .str "Approve NFT"),
      ("fields", .arr [fieldJson "#.to" "To" "addressName", fieldJson "#.token_id" "Token ID" "raw"])]

def approveEnv : Env := demoEnv (hexOf "30fb4ea1d5cc88a2b9618bc6c076446853a859c0dd30197794c534e1a6dd7d04")

/-- The request is accepted, its id has the role of a token id, and it is cleared as a revocation. -/
theorem approveRequest_answer : answers (fun r => decide (r.verdict.gate = .safeToPresent) &&
    r.comprehension.revocation && r.comprehension.sentence == "You revoke \x7bto\x7d's token allowance." &&
    approveEnv.lower r.call.function.name == "approve" && r.call.function.inputs.any (fun i =>
      roleOf (expectedInputRoles approveEnv r.call.function) i.nameText == some .tokenId))
    (preflightTransaction approveEnv approveRequest) = true := by decide +kernel

/-- The approval of the NFT is cleared, and described as the revocation of an allowance. -/
theorem approve_tokenId_zero : ∃ r, preflightTransaction approveEnv approveRequest = .ok r ∧
    NamedApproval approveEnv r.call.function ∧ Grants approveEnv r.call ∧ r.verdict.gate = .safeToPresent ∧
      r.comprehension.revocation = true ∧
        r.comprehension.sentence = "You revoke \x7bto\x7d's token allowance." := by
  obtain ⟨r, hr, hall⟩ := exists_of_answers approveRequest_answer
  simp only [Bool.and_eq_true, decide_eq_true_eq, beq_iff_eq, List.any_eq_true] at hall
  obtain ⟨⟨⟨⟨hgate, hrevocation⟩, hsentence⟩, hname⟩, i, hi, hrole⟩ := hall
  exact ⟨r, hr, .inl hname, ⟨i, hi, .inl hrole⟩, hgate, hrevocation, hsentence⟩

/-- It does not read as the grant it is. -/
theorem grant_reviewed_iff_tokenId : ∃ r, preflightTransaction approveEnv approveRequest = .ok r ∧
    ¬ (Grants approveEnv r.call → ReadsAsGrant approveEnv r.call) := by
  obtain ⟨r, hr, hall⟩ := exists_of_answers approveRequest_answer
  simp only [Bool.and_eq_true, decide_eq_true_eq, beq_iff_eq, List.any_eq_true] at hall
  obtain ⟨⟨⟨⟨-, hrevocation⟩, -⟩, hname⟩, i, hi, hrole⟩ := hall
  refine ⟨r, hr, fun hreads => ?_⟩
  have hhandled := (grant_reviewed_iff hr (.inl hname)).mpr hreads ⟨i, hi, .inl hrole⟩
  rw [hhandled.revocation] at hrevocation
  exact nomatch hrevocation

end Lucent.Preflight
