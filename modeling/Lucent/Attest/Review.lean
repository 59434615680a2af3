import Lucent.Attest.Attestation
import Lucent.Preflight.CheckDescriptor

/-!
# Lucent.Attest.Review — the published review of descriptors, `scripts/review.py`

* `reviewDescriptor`: the checks of one descriptor; a vector file that cannot be evaluated is a skip.
* `mdOne`, `markdownReport`: the report on several descriptors.
* `reviewDescriptor_rows`: a row of a semantic verification is marked by whether it has findings.
* `markdownReport_published_iff`: the report is published exactly if no row has a finding.

`"; ".join` is given the findings of a row, which are pairs and not texts.
-/

namespace Lucent.Attest

open Lucent.Lib Lucent.Preflight

/-! ## The checks of a descriptor -/

/-- What `_lint` returns; an absent member is empty. -/
structure Lint where
  status : String
  abiValidation : String
  detail : String
  reason : String

/-- A descriptor file, and what there is beside it. -/
structure Subject where
  /-- `path.stem`. -/
  stem : String
  desc : Json
  /-- `tests_path.name`. -/
  testsName : String
  /-- The content of the vectors file, where there is one. -/
  tests : Option (Except String Json)
  /-- The run of the linter. -/
  lint : Except Failure Lint

/-- What a review gets from outside. -/
structure Desk where
  host : Host
  /-- `str` of a value. -/
  format : Json → String
  /-- The name and the text of an exception, without local paths. -/
  describe : String → String

/-- What `_semverify` returns. -/
inductive Semverification
  | skipped (reason : String)
  | ok (tally : Tally)

/-- A review that was possible. -/
structure Reviewed where
  verdict : Verdict
  lint : Lint
  audit : AuditReport
  comprehension : ComprehensionReport
  danger : DangerReport
  bindings : List (String × Binding)
  semverify : Semverification

/-- What `review_descriptor` returns; the error of a review that was not possible. -/
structure Review where
  descriptor : String
  deployments : List String
  outcome : Except String Reviewed

/-- `_deployments`. -/
def deploymentTexts (desk : Desk) (desc : Json) : Except String (List String) := do
  let context ← getOr "context" (.obj []) desc
  let contract ← getOr "contract" (.obj []) context
  let field ← getOr "deployments" (.arr []) contract
  let deployments ← iterate field
  deployments.mapM fun d => do
    let chain ← getOr "chainId" (.str "?") d
    let address ← getOr "address" (.str "?") d
    return "eip155:" ++ desk.format chain ++ " " ++ desk.format address

/-- `_semverify`. -/
def semverification (desk : Desk) (subject : Subject) : Semverification :=
  match subject.tests with
  | none => .skipped ("no test vectors at tests/" ++ subject.testsName)
  | some tests =>
    if (desk.host.apiKey.getD "").isEmpty then
      .skipped "ETHERSCAN_API_KEY not set; receipts cannot be fetched"
    else
      match tests >>= evaluate desk.host false subject.desc with
      | .error exception => .skipped (desk.describe exception)
      | .ok tally => .ok tally

/-- The entries of the ABI that `descriptor_abi` finds. -/
def abiEntries (env : Env) (desc : Json) : List Json :=
  let contract := ((desc.get? "context").bind (·.get? "contract")).getD .null
  match contract.get? "abi" with
  | some (.arr entries) => entries
  | _ =>
    match contract.get? "deployments" with
    | some (.arr (deployment :: _)) =>
      match normalizeChainId (deployment.get? "chainId"), normalizeAddress (deployment.get? "address") with
      | .ok chainId, .ok address =>
        match env.cachedAbi chainId address with
        | some (.arr entries) => entries
        | _ => []
      | _, _ => []
    | _ => []

/-- `abi_err`, where the ABI cannot be resolved or is empty. -/
def abiProblem (desk : Desk) (desc : Json) : Option String :=
  match descriptorAbi desk.host.env desc with
  | .error message => some (desk.describe message)
  | .ok _ => if (abiEntries desk.host.env desc).isEmpty then some "" else none

/-- `review_descriptor`; `check_descriptor` runs the same analyzers on the same descriptor. -/
def reviewDescriptor (desk : Desk) (runLint runSemverify : Bool) (subject : Subject) : Except Failure Review :=
  match abiProblem desk subject.desc with
  | some problem => do
    let deployments ← (deploymentTexts desk subject.desc).mapError .other
    return ⟨subject.stem, deployments,
      .error ("could not resolve the contract ABI (" ++ problem ++ "); review requires the verified ABI")⟩
  | none => do
    let shared ← checkDescriptor desk.host.env (.obj [("descriptor", subject.desc)])
    let deployments ← (deploymentTexts desk subject.desc).mapError .other
    let lint ← (if runLint then subject.lint else .ok ⟨"skipped", "", "", "--no-lint"⟩)
    return ⟨subject.stem, deployments, .ok {
      verdict := shared.verdict
      lint
      audit := shared.audit
      comprehension := shared.comprehension
      danger := shared.danger
      bindings := shared.functions
      semverify := if runSemverify then semverification desk subject else .skipped "--no-semverify" }⟩

/-! ## The report -/

def severityText : Severity → String
  | .critical => "CRITICAL"
  | .high => "HIGH"
  | .medium => "MEDIUM"
  | .low => "LOW"

def tierText : Tier → String
  | .critical => "CRITICAL"
  | .high => "HIGH"
  | .medium => "MEDIUM"
  | .low => "LOW"
  | .info => "INFO"

def gateText : Gate → String
  | .safeToPresent => "safe_to_present"
  | .review => "review"
  | .block => "block"

/-- An item of a Python list: a text, or a tuple of texts. -/
inductive Item
  | text (s : String)
  | tuple (items : List String)

/-- `separator.join(items)`. -/
def join (separator : String) (items : List Item) : Except String String := do
  let texts ← items.mapM fun item => match item with
    | .text s => .ok s
    | .tuple _ => .error "TypeError"
  return joinText separator texts

/-- The finding of a row, as `verify_one` builds it. -/
def findingItem (finding : String × String) : Item := .tuple [finding.1, finding.2]

/-- The line about a vector that is not ok. -/
def divergenceLine (desk : Desk) (row : Row) : Except String String := do
  let text ← join "; " (row.findings.map findingItem)
  return "- DIVERGENCE `" ++ row.signature ++ "` (" ++ desk.format row.source ++ "): " ++ text

/-- The section on semantic verification. -/
def semverifyLines (desk : Desk) : Semverification → Except String (List String)
  | .skipped reason => .ok ["- skipped: " ++ reason]
  | .ok tally => do
    let divergent ← (tally.rows.filter (fun row => !row.ok)).mapM (divergenceLine desk)
    return ("- verified " ++ toString (tally.rows.filter (·.ok)).length ++ "/" ++ toString tally.rows.length ++
        " vectors, " ++ toString tally.divergences ++ " divergence(s)") :: divergent ++
      tally.skipped.map fun skip => "- skipped vector " ++ desk.format skip.1 ++ ": " ++ skip.2

/-- The section on the linter. -/
def lintLines (lint : Lint) : List String :=
  ("### Lint: " ++ lint.status) ::
    (if lint.abiValidation.isEmpty then [] else ["- ABI validation: " ++ lint.abiValidation]) ++
    (if lint.detail.isEmpty then [] else ["", "```", lint.detail, "```"]) ++
    (if lint.reason.isEmpty then [] else ["- " ++ lint.reason])

/-- The section on the screens. -/
def auditLines (report : AuditReport) : List String :=
  ["", "### Screen audit: grade " ++ report.grade ++ " (" ++ toString report.score ++ "/100)"] ++
    report.findings.map (fun f => "- " ++ severityText f.severity ++ " `" ++ f.function ++ "`: " ++ f.issue) ++
    (if report.findings.isEmpty then ["- no issues"] else [])

/-- The section on comprehension. -/
def comprehensionLines (report : ComprehensionReport) : List String :=
  let flagged := report.functions.filter fun f =>
    [Tier.critical, Tier.high, Tier.medium].contains f.classification.tier
  ["", "### Comprehension: grade " ++ report.grade ++ " (" ++ toString report.score ++ "/100), worst tier " ++
      tierText report.worstTier] ++
    flagged.flatMap (fun f => ["- " ++ tierText f.classification.tier ++ " `" ++ f.function ++ "`",
      "  - screen: " ++ f.classification.sentence, "  - why: " ++ f.classification.reason]) ++
    (if flagged.isEmpty then ["- no function above LOW comprehension risk"] else [])

/-- The section on dangerous primitives. -/
def dangerLines (report : DangerReport) : List String :=
  ["", "### Danger surface"] ++
    (if report.findings.isEmpty then
      ["- no dangerous primitives among " ++ toString report.signableFunctions ++ " signable functions"]
    else report.findings.flatMap fun f =>
      ["- " ++ severityText f.severity ++ " `" ++ f.function ++ "`: " ++ f.primitive, "  - " ++ f.why])

/-- `_md_one`. -/
def mdOne (desk : Desk) (r : Review) : Except String String :=
  let head := ["## " ++ r.descriptor, ""] ++ r.deployments.map fun d => "- deployment: `" ++ d ++ "`"
  match r.outcome with
  | .error reason => .ok (joinText "\n" (head ++ ["", "**Review not possible:** " ++ reason, ""]))
  | .ok d => do
    let semantic ← semverifyLines desk d.semverify
    return joinText "\n" (head ++
      ["- signable functions: " ++ toString d.audit.signableFunctions ++ ", covered: " ++
          toString d.audit.coveredFunctions,
        "", "**Verdict: " ++ gateText d.verdict.gate ++ "** - " ++ d.verdict.reason, ""] ++
      lintLines d.lint ++ auditLines d.audit ++ comprehensionLines d.comprehension ++ dangerLines d.danger ++
      ["", "### Semantic verification"] ++ semantic ++ [""])

/-- A row of the table of all reviews. -/
def tableRow (r : Review) : String :=
  match r.outcome with
  | .error _ => "| " ++ r.descriptor ++ " | error | - | - | - |"
  | .ok d => "| " ++ r.descriptor ++ " | " ++ gateText d.verdict.gate ++ " | " ++ d.audit.grade ++ " | " ++
      d.comprehension.grade ++ " | " ++ toString d.danger.findings.length ++ " |"

/-- `markdown_report`. -/
def markdownReport (desk : Desk) (results : List Review) : Except String String := do
  let head := ["# ERC-7730 descriptor review", ""] ++
    if 1 < results.length then
      ["| descriptor | verdict | audit | comprehension | danger findings |", "|---|---|---|---|---|"] ++
        results.map tableRow ++ [""]
    else []
  let body ← results.mapM (mdOne desk)
  return joinText "\n" (head ++ body ++ ["---", "",
    "Produced by Lucent (audit + comprehension + danger + semantic verification",
    "over ERC-7730 descriptors). Reproduce any section from the repo root:", "", "```",
    "make audit DESC=<descriptor.json>", "make comprehend DESC=<descriptor.json>",
    "make danger DESC=<descriptor.json>", "make semverify DESC=<descriptor.json>   # needs ETHERSCAN_API_KEY",
    "```", ""])

/-! ## Rows and findings -/

/-- The rows of a semantic verification that ran. -/
def Review.rows (r : Review) : List Row :=
  match r.outcome with
  | .ok { semverify := .ok tally, .. } => tally.rows
  | _ => []

/-- Every row is marked ok exactly if it has no findings. -/
def Marked (rows : List Row) : Prop := ∀ row ∈ rows, row.ok = row.findings.isEmpty

theorem marked_checkVectors {host : Host} {desc contract : Json} {vectors : List Json} :
    ∀ {index : ℕ} {tally tally' : Tally},
    Marked tally.rows → checkVectors host false desc contract index tally vectors = .ok tally' → Marked tally'.rows := by
  induction vectors with
  | nil =>
    intro index tally tally' hmarked h
    obtain rfl := Except.ok.inj h
    exact hmarked
  | cons v rest ih =>
    intro index tally tally' hmarked h
    obtain ⟨next, hstep, hrest⟩ := bind_eq_ok.mp h
    refine ih ?_ hrest
    obtain ⟨source, verified, -, rfl⟩ | ⟨-, rfl⟩ := checkVector_eq_ok_iff.mp hstep
    · intro row hrow
      rcases List.mem_append.mp hrow with hrow | hrow
      · exact hmarked row hrow
      · obtain rfl := List.mem_singleton.mp hrow
        rfl
    · exact hmarked

theorem marked_evaluate {host : Host} {desc tests : Json} {tally : Tally} (h : evaluate host false desc tests = .ok tally) :
    Marked tally.rows := by
  obtain ⟨field, -, h⟩ := bind_eq_ok.mp h
  obtain ⟨contract, -, h⟩ := bind_eq_ok.mp h
  obtain ⟨vectors, -, h⟩ := bind_eq_ok.mp h
  exact marked_checkVectors (fun row hrow => absurd hrow List.not_mem_nil) h

/-- The rows of a review are those of `evaluate`. -/
theorem reviewDescriptor_rows {desk : Desk} {runLint runSemverify : Bool} {subject : Subject} {r : Review}
    (h : reviewDescriptor desk runLint runSemverify subject = .ok r) : Marked r.rows := by
  have hnone : Marked [] := fun row hrow => absurd hrow List.not_mem_nil
  unfold reviewDescriptor at h
  split at h
  · obtain ⟨deployments, -, h⟩ := bind_eq_ok.mp h
    obtain rfl := Except.ok.inj h
    exact hnone
  · obtain ⟨shared, -, h⟩ := bind_eq_ok.mp h
    obtain ⟨deployments, -, h⟩ := bind_eq_ok.mp h
    obtain ⟨lint, -, h⟩ := bind_eq_ok.mp h
    obtain rfl := Except.ok.inj h
    cases runSemverify with
    | false => exact hnone
    | true =>
      unfold Review.rows
      simp only [if_true]
      cases hsemverify : semverification desk subject with
      | skipped reason => exact hnone
      | ok tally =>
        unfold semverification at hsemverify
        split at hsemverify
        · exact nomatch hsemverify
        · split_ifs at hsemverify
          split at hsemverify
          · exact nomatch hsemverify
          · rename_i tests _ tally' hevaluate
            obtain rfl := Semverification.ok.inj hsemverify
            obtain ⟨json, -, hevaluate⟩ := bind_eq_ok.mp hevaluate
            exact marked_evaluate hevaluate

/-! ## The published report -/

/-- Findings are joined as if they were texts, which succeeds only where there are none. -/
theorem exists_divergenceLine_iff (desk : Desk) (row : Row) :
    (∃ line, divergenceLine desk row = .ok line) ↔ row.findings = [] := by
  unfold divergenceLine
  refine ⟨fun ⟨line, h⟩ => ?_, fun h => ?_⟩
  · obtain ⟨text, htext, -⟩ := bind_eq_ok.mp h
    obtain ⟨texts, htexts, -⟩ := bind_eq_ok.mp htext
    cases hfindings : row.findings with
    | nil => rfl
    | cons finding rest =>
      rw [hfindings, mapM_eq_ok] at htexts
      rcases htexts with _ | ⟨hhead, -⟩
      exact nomatch hhead
  · rw [h]
    exact ⟨_, rfl⟩

theorem exists_semverifyLines_iff (desk : Desk) (tally : Tally) :
    (∃ lines, semverifyLines desk (.ok tally) = .ok lines) ↔
      ∀ row ∈ tally.rows, row.ok = false → row.findings = [] := by
  have hmem : ∀ row, row ∈ tally.rows.filter (fun row => !row.ok) ↔ row ∈ tally.rows ∧ row.ok = false := by
    intro row
    rw [List.mem_filter, Bool.not_eq_true']
  refine ⟨fun ⟨lines, h⟩ row hrow hok => ?_, fun h => ?_⟩
  · obtain ⟨divergent, hdivergent, -⟩ := bind_eq_ok.mp h
    obtain ⟨line, hline⟩ := exists_of_mem_mapM hdivergent ((hmem row).mpr ⟨hrow, hok⟩)
    exact (exists_divergenceLine_iff desk row).mp ⟨line, hline.2⟩
  · obtain ⟨divergent, hdivergent⟩ := exists_mapM_eq_ok fun row hrow =>
      (exists_divergenceLine_iff desk row).mpr (h row ((hmem row).mp hrow).1 ((hmem row).mp hrow).2)
    exact ⟨_, bind_eq_ok.mpr ⟨divergent, hdivergent, rfl⟩⟩

theorem exists_mdOne_iff (desk : Desk) (r : Review) :
    (∃ text, mdOne desk r = .ok text) ↔ ∀ row ∈ r.rows, row.ok = false → row.findings = [] := by
  obtain ⟨descriptor, deployments, reason | d⟩ := r
  · exact iff_of_true ⟨_, rfl⟩ fun row hrow => absurd hrow List.not_mem_nil
  · have hlines : (∃ text, mdOne desk ⟨descriptor, deployments, .ok d⟩ = .ok text) ↔
        ∃ lines, semverifyLines desk d.semverify = .ok lines := by
      refine ⟨fun ⟨text, h⟩ => ?_, fun ⟨lines, h⟩ => ⟨_, bind_eq_ok.mpr ⟨lines, h, rfl⟩⟩⟩
      obtain ⟨lines, hlines, -⟩ := bind_eq_ok.mp h
      exact ⟨lines, hlines⟩
    rw [hlines]
    obtain ⟨verdict, lint, audit, comprehension, danger, bindings, reason | tally⟩ := d
    · exact iff_of_true ⟨_, rfl⟩ fun row hrow => absurd hrow List.not_mem_nil
    · exact exists_semverifyLines_iff desk tally

theorem exists_markdownReport_iff (desk : Desk) (results : List Review) :
    (∃ report, markdownReport desk results = .ok report) ↔
      ∀ r ∈ results, ∀ row ∈ r.rows, row.ok = false → row.findings = [] := by
  refine ⟨fun ⟨report, h⟩ r hr => ?_, fun h => ?_⟩
  · obtain ⟨body, hbody, -⟩ := bind_eq_ok.mp h
    obtain ⟨text, htext⟩ := exists_of_mem_mapM hbody hr
    exact (exists_mdOne_iff desk r).mp ⟨text, htext.2⟩
  · obtain ⟨body, hbody⟩ := exists_mapM_eq_ok fun r hr => (exists_mdOne_iff desk r).mpr (h r hr)
    exact ⟨_, bind_eq_ok.mpr ⟨body, hbody, rfl⟩⟩

/-- The report is returned, and has every finding of every vector that is not ok. -/
def Published (desk : Desk) (results : List Review) : Prop :=
  ∃ report, markdownReport desk results = .ok report ∧ ∀ r ∈ results, ∀ row ∈ r.rows, row.ok = false →
    ∀ finding ∈ row.findings, hasText report finding.1 = true ∧ hasText report finding.2 = true

/-- **The report on some reviews is published** exactly if no vector of theirs has a finding. -/
theorem markdownReport_published_iff (desk : Desk) {results : List Review}
    (hresults : ∀ r ∈ results, ∃ runLint runSemverify subject,
      reviewDescriptor desk runLint runSemverify subject = .ok r) :
    Published desk results ↔ ∀ r ∈ results, ∀ row ∈ r.rows, row.findings = [] := by
  refine ⟨fun ⟨report, hreport, _⟩ r hr row hrow => ?_, fun h => ?_⟩
  · obtain ⟨runLint, runSemverify, subject, hreview⟩ := hresults r hr
    have hmarked := reviewDescriptor_rows hreview row hrow
    cases hok : row.ok with
    | true => exact List.isEmpty_iff.mp (hmarked.symm.trans hok)
    | false => exact (exists_markdownReport_iff desk results).mp ⟨report, hreport⟩ r hr row hrow hok
  · obtain ⟨report, hreport⟩ := (exists_markdownReport_iff desk results).mpr fun r hr row hrow _ => h r hr row hrow
    refine ⟨report, hreport, fun r hr row hrow _ finding hfinding => ?_⟩
    rw [h r hr row hrow] at hfinding
    exact absurd hfinding List.not_mem_nil

/-! ## A transfer to another address -/

/-- The transfer of `transferRequest`, whose tokens go to an address its screen does not show. -/
def misdirectedHost : Host :=
  { revertedHost with receipt := fun _ _ => .ok (.obj [("logs", .arr [.obj [
      ("topics", .arr [.str transferTopic, .str "0x0000000000000000000000001111111111111111111111111111111111111111",
        .str "0x0000000000000000000000004444444444444444444444444444444444444444"]),
      ("data", .str "0x3e8")]])]) }

/-- A desk with the host, for which every value but a text is shown as `?`. -/
def plainDesk (host : Host) : Desk := ⟨host, fun v => (v.str?).getD "?", id⟩

/-- The descriptor with its vectors, reviewed without the linter. -/
def reviewedTransfer (host : Host) : Except Failure Review :=
  reviewDescriptor (plainDesk host) false true
    ⟨"transfer", revertedDescriptor, "transfer.tests.json", some (.ok revertedTests), .ok ⟨"skipped", "", "", ""⟩⟩

theorem misdirected_finding : (match reviewedTransfer misdirectedHost with
    | .ok r => r.rows.any (fun row => !row.findings.isEmpty)
    | .error _ => false) = true := by decide +kernel

theorem reverted_review : (reviewedTransfer revertedHost).isOk = true := by decide +kernel

/-- The reverted transfer has no finding, and its review is published. -/
theorem markdownReport_published_iff_reverted : ∃ r, reviewedTransfer revertedHost = .ok r ∧
    (Published (plainDesk revertedHost) [r] ↔ ∀ r' ∈ [r], ∀ row ∈ r'.rows, row.findings = []) := by
  rcases hreview : reviewedTransfer revertedHost with failure | r
  · have hok := reverted_review
    rw [hreview] at hok
    exact nomatch hok
  · exact ⟨r, rfl, markdownReport_published_iff (plainDesk revertedHost) fun r' hr' =>
      ⟨false, true, _, List.mem_singleton.mp hr' ▸ hreview⟩⟩

/-- The finding about the transfer is lost: there is no report. -/
theorem misdirected_unpublished : ¬ ∀ (desk : Desk) (results : List Review),
    (∀ r ∈ results, ∃ runLint runSemverify subject, reviewDescriptor desk runLint runSemverify subject = .ok r) →
      Published desk results := by
  intro hpublished
  rcases hreview : reviewedTransfer misdirectedHost with failure | r
  · have hfinding := misdirected_finding
    rw [hreview] at hfinding
    exact nomatch hfinding
  · have hfinding := misdirected_finding
    rw [hreview] at hfinding
    obtain ⟨row, hrow, hrowFinding⟩ := List.any_eq_true.mp hfinding
    have hmarked := reviewDescriptor_rows hreview row hrow
    obtain ⟨report, hreport, -⟩ := hpublished (plainDesk misdirectedHost) [r] fun r' hr' =>
      ⟨false, true, _, List.mem_singleton.mp hr' ▸ hreview⟩
    rw [Bool.not_eq_true'] at hrowFinding
    have hnil := (exists_markdownReport_iff _ _).mp ⟨report, hreport⟩ r List.mem_cons_self row hrow
      (hmarked.trans hrowFinding)
    rw [hnil] at hrowFinding
    exact nomatch hrowFinding

end Lucent.Attest
