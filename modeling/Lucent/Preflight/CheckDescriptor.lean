import Lucent.Preflight.ArbitraryCall

/-!
# Lucent.Preflight.CheckDescriptor — `check_descriptor` of `lucent/preflight.py`, and its gate against that of a call

* `comprehend`, `scan`: the reports of `comprehend.py` and `danger.py` on a whole descriptor.
* `overallVerdict`, `checkDescriptor`: the gate of a descriptor.
* `checkDescriptor_refines`: a call of a cleared descriptor is blocked only for its value, or for a value too long to be
  read; it is never left to review.
-/

namespace Lucent.Preflight

open Lucent.Lib

/-! ## The reports -/

/-- The position in `TIER_ORDER`. -/
def Tier.rank : Tier → ℕ
  | .critical => 0
  | .high => 1
  | .medium => 2
  | .low => 3
  | .info => 4

/-- `TIER_PENALTY`. -/
def Tier.penalty : Tier → ℕ
  | .critical => 30
  | .high => 12
  | .medium => 5
  | .low => 2
  | .info => 0

/-- The classification of one function. -/
structure Comprehended where
  function : String
  signature : String
  classification : Classification

structure ComprehensionReport where
  score : ℕ
  grade : String
  worstTier : Tier
  functions : List Comprehended

/-- `comprehend`, on the functions and formats of a validated descriptor. -/
def comprehend (env : Env) (abi : List AbiFunction) (formats : List (String × Format)) :
    Except Failure ComprehensionReport := do
  let results ← (signableFunctions abi).mapM fun fn => do
    let c ← classify env fn (assoc (signature fn) formats)
    return (⟨fn.name, signature fn, c⟩ : Comprehended)
  let sorted := results.insertionSort (fun a b => a.classification.tier.rank ≤ b.classification.tier.rank)
  let score := 100 - (sorted.map (fun result => result.classification.tier.penalty)).sum
  return {
    score
    grade := gradeOf score
    worstTier := (sorted.head?.map (·.classification.tier)).getD .info
    functions := sorted }

structure DangerReport where
  findings : List DangerFinding
  critical : ℕ
  worstSeverity : Option Severity
  signableFunctions : ℕ

/-- `scan`. -/
def scan (env : Env) (abi : List AbiFunction) : DangerReport :=
  let findings := ((signableFunctions abi).flatMap (assess env)).insertionSort
    (fun a b => a.severity.rank ≤ b.severity.rank)
  { findings
    critical := (findings.filter (fun finding => finding.severity == .critical)).length
    worstSeverity := findings.head?.map (·.severity)
    signableFunctions := (signableFunctions abi).length }

/-! ## The gate of a descriptor -/

/-- `overall_verdict`. -/
def overallVerdict (audit : AuditReport) (danger : DangerReport) (comprehension : ComprehensionReport) : Verdict :=
  let audited (severity : Severity) : Bool := audit.findings.any (fun finding => finding.severity == severity)
  let dangerous (severity : Severity) : Bool := danger.findings.any (fun finding => finding.severity == severity)
  if danger.signableFunctions = 0 then
    ⟨.block, "NO_SIGNABLE_FUNCTIONS", "the ABI contains no transaction function Lucent can assess"⟩
  else if audited .critical then
    ⟨.block, "PRESENTATION_CRITICAL", "a CRITICAL presentation defect hides information required to sign"⟩
  else if dangerous .critical then
    ⟨.block, "DANGER_CRITICAL", "the ABI exposes a CRITICAL structural danger primitive"⟩
  else if audited .high || audited .medium then
    ⟨.review, "PRESENTATION_REVIEW", "the descriptor has presentation findings requiring human review"⟩
  else if comprehension.worstTier == .critical || comprehension.worstTier == .high then
    ⟨.review, "COMPREHENSION_REVIEW", "at least one function has a high-consequence authorization"⟩
  else if dangerous .high || dangerous .medium then
    ⟨.review, "DANGER_REVIEW", "the ABI exposes a structural capability requiring human review"⟩
  else ⟨.safeToPresent, "PRESENTATION_CLEAR",
    "no blocking presentation defect or known ABI-pattern danger was found"⟩

/-- The native value a call of the function may carry. -/
def potentialValue (fn : AbiFunction) : ℕ :=
  if fn.stateMutability == some "payable" || fn.payable == some true then 1 else 0

/-- The binding of one function without a call; a function that cannot be bound is a finding. -/
def functionBinding (env : Env) (formats : List (String × Format)) (fn : AbiFunction) : Except Failure Binding :=
  match validateSelectedFunction fn with
  | .ok () => .ok (presentationBinding env fn (assoc (signature fn) formats) (potentialValue fn) none)
  | .error (.input code message) => .ok ⟨false, [⟨code, message, []⟩]⟩
  | .error (.other exception) => .error (.other exception)

structure DescriptorCheck where
  verdict : Verdict
  audit : AuditReport
  comprehension : ComprehensionReport
  danger : DangerReport
  functions : List (String × Binding)

/-- `check_descriptor`. -/
def checkDescriptor (env : Env) (args : Json) : Except Failure DescriptorCheck := do
  let missing : Failure := .input "MISSING_DESCRIPTOR" "descriptor is required"
  let members ← requireObject missing (some args)
  rejectIf (Json.lookup "descriptor" members).isNone missing
  let descriptor ← validateDescriptor env (Json.lookup "descriptor" members)
  let audit ← audit descriptor.abi descriptor.formats
  let comprehension ← comprehend env descriptor.abi descriptor.formats
  let danger := scan env descriptor.abi
  let functions ← (signableFunctions descriptor.abi).mapM fun fn => do
    let binding ← functionBinding env descriptor.formats fn
    return (signature fn, binding)
  let verdict :=
    if functions.all (fun entry => entry.2.findings.isEmpty) then overallVerdict audit danger comprehension
    else ⟨.block, "PRESENTATION_UNBOUND", "at least one function does not visibly bind every signed ABI value"⟩
  return ⟨verdict, audit, comprehension, danger, functions⟩

/-! ## What a cleared descriptor says of each function -/

/-- What is left of the reports when the gate is clear. -/
theorem overallVerdict_safe {audit : AuditReport} {danger : DangerReport} {comprehension : ComprehensionReport}
    (h : (overallVerdict audit danger comprehension).gate = .safeToPresent) :
    (∀ finding ∈ audit.findings, finding.severity = .low) ∧ (∀ finding ∈ danger.findings, finding.severity = .low) ∧
      comprehension.worstTier ≠ .critical ∧ comprehension.worstTier ≠ .high := by
  have hlow : ∀ {severity : Severity}, severity ≠ .critical → severity ≠ .high → severity ≠ .medium →
      severity = .low := by
    intro severity hcritical hhigh hmedium
    rcases severity with _ | _ | _ | _
    · exact absurd rfl hcritical
    · exact absurd rfl hhigh
    · exact absurd rfl hmedium
    · rfl
  unfold overallVerdict at h
  dsimp only at h
  split_ifs at h with hnone hcritical hdanger haudit htier hrisk
  simp only [Bool.or_eq_true, List.any_eq_true, beq_iff_eq, not_or, not_exists, not_and] at *
  refine ⟨fun finding hmem => ?_, fun finding hmem => ?_, htier⟩
  · exact hlow (hcritical finding hmem) (haudit.1 finding hmem) (haudit.2 finding hmem)
  · exact hlow (hdanger finding hmem) (hrisk.1 finding hmem) (hrisk.2 finding hmem)

/-- A cleared descriptor. -/
structure ClearedDescriptor (env : Env) (descriptor : Descriptor) : Prop where
  audit : ∃ report, audit descriptor.abi descriptor.formats = .ok report ∧
    ∀ finding ∈ report.findings, finding.severity = .low
  danger : ∀ fn ∈ signableFunctions descriptor.abi, assess env fn = []
  comprehension : ∀ fn ∈ signableFunctions descriptor.abi, ∃ c,
    classify env fn (assoc (signature fn) descriptor.formats) = .ok c ∧ c.tier ≠ .critical ∧ c.tier ≠ .high
  binding : ∀ fn ∈ signableFunctions descriptor.abi, ∃ binding,
    functionBinding env descriptor.formats fn = .ok binding ∧ binding.findings = []

/-- The worst tier comes first. -/
theorem tier_of_worst {results : List Comprehended} {result : Comprehended} (hmem : result ∈ results)
    (h : (((results.insertionSort
      (fun a b => a.classification.tier.rank ≤ b.classification.tier.rank)).head?.map
        (·.classification.tier)).getD .info) ≠ .critical ∧ (((results.insertionSort
      (fun a b => a.classification.tier.rank ≤ b.classification.tier.rank)).head?.map
        (·.classification.tier)).getD .info) ≠ .high) :
    result.classification.tier ≠ .critical ∧ result.classification.tier ≠ .high := by
  set le : Comprehended → Comprehended → Prop :=
    fun a b => a.classification.tier.rank ≤ b.classification.tier.rank with hle
  have htotal : Std.Total le := ⟨fun a b => Nat.le_total _ _⟩
  have htrans : IsTrans Comprehended le := ⟨fun _ _ _ => Nat.le_trans⟩
  have hsorted := List.pairwise_insertionSort le results
  have hin : result ∈ results.insertionSort le := (List.mem_insertionSort le).mpr hmem
  have hrank : ∀ {tier : Tier}, tier ≠ .critical ∧ tier ≠ .high ↔ 2 ≤ tier.rank := by
    intro tier
    rcases tier with _ | _ | _ | _ | _ <;> simp [Tier.rank]
  rw [hrank] at h ⊢
  rcases hsort : results.insertionSort le with _ | ⟨worst, rest⟩
  · rw [hsort] at hin
    exact absurd hin List.not_mem_nil
  · rw [hsort] at hin hsorted h
    rcases List.mem_cons.mp hin with rfl | hin
    · exact h
    · exact Nat.le_trans h (List.rel_of_pairwise_cons hsorted hin)

theorem checkDescriptor_safe {env : Env} {args : Json} {check : DescriptorCheck}
    (h : checkDescriptor env args = .ok check) (hsafe : check.verdict.gate = .safeToPresent) :
    ∃ descriptor, validateDescriptor env (args.get? "descriptor") = .ok descriptor ∧
      ClearedDescriptor env descriptor := by
  unfold checkDescriptor at h
  obtain ⟨members, hmembers, h⟩ := bind_eq_ok.mp h
  obtain ⟨-, h⟩ := rejectIf_bind_eq_ok.mp h
  obtain ⟨descriptor, hdescriptor, h⟩ := bind_eq_ok.mp h
  obtain ⟨report, hreport, h⟩ := bind_eq_ok.mp h
  obtain ⟨comprehension, hcomprehension, h⟩ := bind_eq_ok.mp h
  obtain ⟨functions, hfunctions, h⟩ := bind_eq_ok.mp h
  obtain rfl := pure_eq_ok.mp h
  obtain rfl : args = .obj members := Option.some.inj (requireObject_eq_ok hmembers)
  dsimp only at hsafe
  split_ifs at hsafe with hbound
  obtain ⟨haudit, hdanger, htier⟩ := overallVerdict_safe hsafe
  refine ⟨descriptor, hdescriptor, ⟨report, hreport, haudit⟩, fun fn hfn => ?_, fun fn hfn => ?_, fun fn hfn => ?_⟩
  · refine List.eq_nil_iff_forall_not_mem.mpr fun finding hmem => ?_
    have hfinding : finding ∈ (scan env descriptor.abi).findings :=
      (List.mem_insertionSort _).mpr (List.mem_flatMap.mpr ⟨fn, hfn, hmem⟩)
    exact assess_severity env fn finding hmem (hdanger finding hfinding)
  · unfold comprehend at hcomprehension
    obtain ⟨results, hresults, hcomprehension⟩ := bind_eq_ok.mp hcomprehension
    obtain rfl := pure_eq_ok.mp hcomprehension
    obtain ⟨result, hresult, hturn⟩ := exists_of_mem_mapM hresults hfn
    obtain ⟨c, hc, hpure⟩ := bind_eq_ok.mp hturn
    obtain rfl := pure_eq_ok.mp hpure
    exact ⟨c, hc, tier_of_worst hresult htier⟩
  · obtain ⟨entry, hentry, hb⟩ := exists_of_mem_mapM hfunctions hfn
    obtain ⟨binding, hbinding, hpure⟩ := bind_eq_ok.mp hb
    obtain rfl := pure_eq_ok.mp hpure
    exact ⟨binding, hbinding, List.isEmpty_iff.mp (List.all_eq_true.mp hbound _ hentry)⟩

/-! ## The audit of a function -/

theorem mem_signableTable {l : List AbiFunction} {sig : String} {fn : AbiFunction} (h : (sig, fn) ∈ signableTable l) :
    fn ∈ l ∧ sig = signature fn := by
  induction l generalizing sig fn with
  | nil => exact absurd h List.not_mem_nil
  | cons f l ih =>
    rw [signableTable, List.mem_cons] at h
    rcases h with h | h
    · obtain ⟨rfl, rfl⟩ := Prod.mk.inj h
      rcases hassoc : assoc (signature f) (signableTable l) with _ | g
      · exact ⟨List.mem_cons_self, rfl⟩
      · obtain ⟨hg, hsig⟩ := ih (mem_of_assoc hassoc)
        exact ⟨List.mem_cons_of_mem _ hg, hsig⟩
    · obtain ⟨hfn, hsig⟩ := ih (List.mem_filter.mp h).1
      exact ⟨List.mem_cons_of_mem _ hfn, hsig⟩

/-- A function that is the only one with its signature is the one the audit looks at. -/
theorem mem_signableTable_of_unique {l : List AbiFunction} {fn : AbiFunction} (hfn : fn ∈ l)
    (hunique : ∀ f ∈ l, signature f = signature fn → f = fn) : (signature fn, fn) ∈ signableTable l := by
  induction l with
  | nil => exact absurd hfn List.not_mem_nil
  | cons f l ih =>
    rw [signableTable, List.mem_cons]
    by_cases hsig : signature f = signature fn
    · refine .inl ?_
      obtain rfl := hunique f List.mem_cons_self hsig
      rcases hassoc : assoc (signature f) (signableTable l) with _ | g
      · rfl
      · obtain ⟨hg, hgsig⟩ := mem_signableTable (mem_of_assoc hassoc)
        rw [hunique g (List.mem_cons_of_mem _ hg) hgsig.symm]
        rfl
    · refine .inr (List.mem_filter.mpr ⟨ih ?_ fun g hg => hunique g (List.mem_cons_of_mem _ hg), ?_⟩)
      · exact (List.mem_cons.mp hfn).resolve_left fun heq => hsig (heq ▸ rfl)
      · simpa using Ne.symm hsig

/-- The audit of a descriptor contains that of the screen of each of its functions; a function without a format is a
HIGH finding. -/
theorem audit_screen {abi : List AbiFunction} {formats : List (String × Format)} {report : AuditReport}
    (h : audit abi formats = .ok report) {fn : AbiFunction}
    (hfn : (signature fn, fn) ∈ signableTable (signableFunctions abi))
    (hlow : ∀ finding ∈ report.findings, finding.severity = .low) :
    ∃ fmt findings, assoc (signature fn) formats = some fmt ∧ auditScreen fn (signature fn) fmt = .ok findings ∧
      ∀ finding ∈ findings, finding.severity = .low := by
  unfold audit at h
  obtain ⟨screens, hscreens, h⟩ := bind_eq_ok.mp h
  obtain rfl := pure_eq_ok.mp h
  obtain ⟨findings, hin, hscreen⟩ := exists_of_mem_mapM hscreens hfn
  have hfindings : ∀ finding ∈ findings, finding.severity = .low := by
    intro finding hmem
    refine hlow finding ((List.mem_insertionSort _).mpr (List.mem_append_right _ ?_))
    exact List.mem_flatten.mpr ⟨findings, hin, hmem⟩
  rcases hfmt : assoc (signature fn) formats with _ | fmt
  · simp only [hfmt] at hscreen
    split_ifs at hscreen <;>
    · obtain rfl := Except.ok.inj hscreen
      exact nomatch hfindings _ (List.mem_singleton_self _)
  · simp only [hfmt] at hscreen
    exact ⟨fmt, findings, rfl, hscreen, hfindings⟩

/-! ## The binding of a call -/

mutual

/-- The findings of a rendered value are about its length. -/
theorem opaqueFindings_code (argument : String) : ∀ (v : Json), ∀ finding ∈ opaqueFindings argument v,
    finding.code = "OPAQUE_VALUE_TRUNCATED" ∨ finding.code = "OPAQUE_VALUE_TOO_LONG"
  | .arr items, finding, h => opaqueItems_code argument items finding h
  | .obj members, finding, h => by
    rw [opaqueFindings] at h
    split_ifs at h
    · exact .inl (List.mem_singleton.mp h ▸ rfl)
    · exact absurd h List.not_mem_nil
  | .str s, finding, h => by
    rw [opaqueFindings] at h
    split_ifs at h
    · exact .inr (List.mem_singleton.mp h ▸ rfl)
    · exact absurd h List.not_mem_nil
  | .null, _, h => absurd h List.not_mem_nil
  | .bool _, _, h => absurd h List.not_mem_nil
  | .int _, _, h => absurd h List.not_mem_nil
  | .float _, _, h => absurd h List.not_mem_nil

theorem opaqueItems_code (argument : String) : ∀ (items : List Json), ∀ finding ∈ opaqueItems argument items,
    finding.code = "OPAQUE_VALUE_TRUNCATED" ∨ finding.code = "OPAQUE_VALUE_TOO_LONG"
  | [], _, h => absurd h List.not_mem_nil
  | v :: rest, finding, h => (List.mem_append.mp h).elim (opaqueItems_code argument rest finding)
      (opaqueFindings_code argument v finding)

end

section Call

variable {env : Env} {fn : AbiFunction} {fmt : Format} {decoded : List DecodedArgument}

/-- What is known of an action does not depend on the values of a call, unless it is an approval. -/
theorem knownAction_decoded (happrove : env.lower fn.name ≠ "approve")
    (hset : env.lower fn.name ≠ "setapprovalforall") :
    knownAction env fn (some decoded) = knownAction env fn none := by
  unfold knownAction
  simp only [beq_eq_false_iff_ne.mpr happrove, beq_eq_false_iff_ne.mpr hset, Bool.false_eq_true, if_false]

theorem intentMatches_decoded (happrove : env.lower fn.name ≠ "approve")
    (hset : env.lower fn.name ≠ "setapprovalforall") :
    intentMatchesKnownAction env fn fmt (some decoded) = intentMatchesKnownAction env fn fmt none := by
  unfold intentMatchesKnownAction
  rw [knownAction_decoded happrove hset]

/-- A value the function accepts counts as potential. -/
theorem potentialValue_pos (h : fn.acceptsValue = true) : 0 < potentialValue fn := by
  unfold AbiFunction.acceptsValue at h
  unfold potentialValue
  split at h
  · rename_i mutability hmutability
    rw [hmutability, beq_iff_eq.mp h]
    exact Nat.one_pos
  · rw [h, Bool.or_true]
    exact Nat.one_pos

/-- **The binding of a call** adds findings about values that are too long only, where the function binds without one
and accepts the value. -/
theorem bindingFindings_call (happrove : env.lower fn.name ≠ "approve")
    (hset : env.lower fn.name ≠ "setapprovalforall") {value : ℕ} (hvalue : value ≠ 0 → fn.acceptsValue = true)
    (h : bindingFindings env fn fmt (potentialValue fn) none = []) :
    bindingFindings env fn fmt value (some decoded) =
      decoded.flatMap (fun item => opaqueFindings item.name item.value) := by
  unfold bindingFindings at h ⊢
  dsimp only at h ⊢
  simp only [List.append_eq_nil_iff] at h
  obtain ⟨⟨⟨⟨hintent, hfields⟩, hcoverage⟩, hnative⟩, -⟩ := h
  rw [intentMatches_decoded happrove hset, hintent, hfields, hcoverage, Option.getD_some]
  have hshown : ∀ shown : Bool, (if (decide (0 < potentialValue fn) && !shown) = true then
      [(⟨"VALUE_NOT_VISIBLE", "nonzero native value is not rendered as an always-visible amount",
        [("path", .str "@.value")]⟩ : BindingFinding)] else []) = [] → (decide (0 < value) && !shown) = false := by
    intro shown hnil
    by_cases hzero : value = 0
    · simp [hzero]
    · rw [decide_eq_true (potentialValue_pos (hvalue hzero)), Bool.true_and] at hnil
      rcases shown with _ | _
      · exact nomatch hnil
      · exact Bool.and_false _
  rw [if_neg (Bool.eq_false_iff.mp (hshown _ hnative))]
  rfl

end Call

/-! ## Refinement -/

/-- Analyzers that find nothing above LOW leave the call clear. -/
theorem callVerdict_clear {findings : List AuditFinding} {comprehension : Classification} {danger : List DangerFinding}
    (haudit : ∀ finding ∈ findings, finding.severity = .low) (hdanger : danger = [])
    (hcritical : comprehension.tier ≠ .critical) (hhigh : comprehension.tier ≠ .high) :
    (callVerdict findings comprehension danger true).gate = .safeToPresent := by
  have hnone : ∀ {severity : Severity}, severity ≠ .low →
      findings.any (fun finding => finding.severity == severity) = false := by
    intro severity hne
    refine Bool.eq_false_iff.mpr fun hany => ?_
    obtain ⟨finding, hmem, hsev⟩ := List.any_eq_true.mp hany
    exact hne ((beq_iff_eq.mp hsev).symm.trans (haudit finding hmem))
  simp [callVerdict, hdanger, hcritical, hhigh, @hnone .critical (by decide), @hnone .high (by decide),
    @hnone .medium (by decide)]

/-- **The gate of a descriptor refines that of its calls**: a call of a cleared descriptor is never left to review, and
is blocked only for value sent to a nonpayable function, or for values that are too long to be read. -/
theorem checkDescriptor_refines {env : Env} {args request : Json} {check : DescriptorCheck} {r : PreflightResult}
    (hcheck : checkDescriptor env args = .ok check) (hsafe : check.verdict.gate = .safeToPresent)
    (hcall : preflightTransaction env request = .ok r)
    (hsame : request.get? "descriptor" = args.get? "descriptor") :
    r.verdict.gate ≠ .review ∧ (r.verdict.gate = .block → r.verdict.code = "NONPAYABLE_WITH_VALUE" ∨
      (r.verdict.code = "PRESENTATION_UNBOUND" ∧ ∀ finding ∈ r.binding.findings,
        finding.code = "OPAQUE_VALUE_TRUNCATED" ∨ finding.code = "OPAQUE_VALUE_TOO_LONG")) := by
  obtain ⟨descriptor, hdescriptor, hcleared⟩ := checkDescriptor_safe hcheck hsafe
  obtain ⟨call, haccepted, hassess⟩ := bind_eq_ok.mp hcall
  obtain ⟨rfl, hassessed⟩ := assessCall_ok hassess
  -- the call is made with the same validated descriptor
  obtain rfl : descriptor = r.call.descriptor := by
    rw [← hsame, (acceptedCall_read haccepted).descriptor] at hdescriptor
    exact Except.ok.inj hdescriptor.symm
  have hcallee := acceptedCall_ok haccepted
  have hfn := hcallee.signable
  have hunique : ∀ f ∈ signableFunctions r.call.descriptor.abi,
      signature f = signature r.call.function → f = r.call.function := by
    intro f hf hsig
    have hmem : f ∈ (signableFunctions r.call.descriptor.abi).filter
        (fun other => selector env (signature other) == r.call.calldata.take 4) :=
      List.mem_filter.mpr ⟨hf, beq_iff_eq.mpr (hsig ▸ resolveCall_selector hcallee.resolved)⟩
    rw [resolveCall_ok hcallee.resolved] at hmem
    exact List.mem_singleton.mp hmem
  -- the analyzers found nothing in the function
  obtain ⟨report, hreport, hlow⟩ := hcleared.audit
  obtain ⟨fmt, findings, hfmt, hscreen, hfindings⟩ :=
    audit_screen hreport (mem_signableTable_of_unique hfn hunique) hlow
  have hformat : r.call.format = some fmt := hfmt
  obtain ⟨c, hc, hcritical, hhigh⟩ := hcleared.comprehension _ hfn
  have hnames : env.lower r.call.function.name ≠ "approve" ∧ env.lower r.call.function.name ≠ "setapprovalforall" := by
    refine ⟨fun hname => ?_, fun hname => ?_⟩
    · exact (classify_approval_tier hc (.inl hname)).elim hcritical hhigh
    · exact (classify_approval_tier hc (.inr hname)).elim hcritical hhigh
  have hanalyzer : (callVerdict r.audit.findings r.comprehension r.danger r.call.format.isSome).gate
      = .safeToPresent := by
    have haudit := assessCall_audit hassess
    rw [hformat] at haudit
    obtain ⟨findings', hscreen', hmem⟩ := audit_one (signableFunctions_singleton hfn) haudit
    obtain rfl : findings = findings' := Except.ok.inj (hscreen.symm.trans hscreen')
    obtain ⟨c', hc', hrefined⟩ := hassessed.comprehension
    obtain rfl : c = c' := Except.ok.inj (hc.symm.trans hc')
    rw [hformat, hrefined, applyCallDependentComprehension_eq hnames.2 hnames.1]
    refine callVerdict_clear (fun finding hin => hfindings finding ((hmem finding).mp hin)) ?_ hcritical hhigh
    have hnone := applyCallDependentDanger_subset env r.call.function r.call.decoded (assess env r.call.function)
    rw [hcleared.danger _ hfn] at hnone
    rw [hassessed.danger, hcleared.danger _ hfn, List.subset_nil.mp hnone]
    rfl
  -- only the value of the call, and the length of its arguments, are left
  have hbinding : (r.call.value ≠ 0 → r.call.function.acceptsValue = true) →
      r.binding.findings = r.call.decoded.flatMap (fun item => opaqueFindings item.name item.value) := by
    intro hvalue
    obtain ⟨binding, hbinding, hbound⟩ := hcleared.binding _ hfn
    unfold functionBinding at hbinding
    split at hbinding
    · obtain rfl := Except.ok.inj hbinding
      rw [hfmt] at hbound
      rw [hassessed.binding, hformat]
      exact bindingFindings_call hnames.1 hnames.2 hvalue hbound
    · obtain rfl := Except.ok.inj hbinding
      exact nomatch hbound
    · exact nomatch hbinding
  rw [hassessed.verdict]
  unfold finalVerdict valueVerdict
  by_cases hvalue : r.call.value = 0 ∨ r.call.function.acceptsValue = true
  · rw [if_pos (by simpa using hvalue)]
    dsimp only
    rw [if_neg (by rw [hanalyzer]; exact nofun)]
    unfold bindingVerdict
    split_ifs with hempty
    · rw [Option.getD_none, hanalyzer]
      exact ⟨nofun, nofun⟩
    · refine ⟨nofun, fun _ => .inr ⟨rfl, fun finding hmem => ?_⟩⟩
      rw [hbinding fun hne => hvalue.resolve_left hne] at hmem
      obtain ⟨item, -, hmem⟩ := List.mem_flatMap.mp hmem
      exact opaqueFindings_code item.name item.value finding hmem
  · rw [if_neg (by simpa using hvalue)]
    exact ⟨nofun, fun _ => .inl rfl⟩

/-- The descriptor of the transfer, as `check_descriptor` gets it. -/
def transferDescriptor : Json := .obj [("descriptor", (transferRequest.get? "descriptor").getD .null)]

theorem transferDescriptor_safe : ∃ check, checkDescriptor (demoEnv transferDigest) transferDescriptor = .ok check ∧
    check.verdict.gate = .safeToPresent := by
  have hsafe : (match checkDescriptor (demoEnv transferDigest) transferDescriptor with
      | .ok check => decide (check.verdict.gate = .safeToPresent)
      | .error _ => false) = true := by decide +kernel
  rcases hcheck : checkDescriptor (demoEnv transferDigest) transferDescriptor with failure | check
  · rw [hcheck] at hsafe
    exact nomatch hsafe
  · rw [hcheck] at hsafe
    exact ⟨check, rfl, of_decide_eq_true hsafe⟩

theorem checkDescriptor_refines_transfer : ∃ r,
    preflightTransaction (demoEnv transferDigest) transferRequest = .ok r ∧ r.verdict.gate ≠ .review := by
  obtain ⟨check, hcheck, hsafe⟩ := transferDescriptor_safe
  obtain ⟨r, hr, -⟩ := exists_of_answers transferRequest_answer
  exact ⟨r, hr, (checkDescriptor_refines hcheck hsafe hr rfl).1⟩

end Lucent.Preflight
