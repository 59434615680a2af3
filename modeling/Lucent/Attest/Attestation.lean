import Lucent.Attest.Semverify
import Lucent.Preflight.Clearance

/-!
# Lucent.Attest.Attestation — what the attestation's `passed` says of the test vectors

* Step: a turn of the loop checks a vector with a `txHash` and passes over any other one (`checkVector_eq_ok_iff`).
* Run: a loop without a divergence found every vector clean, or passed over it (`checkVectors_passed_iff`).
* `passed` therefore means that every vector was checked exactly where each was mined and executed
  (`runSemverify_sound_iff`): the status of a receipt is never read.
-/

namespace Lucent.Attest

open Lucent.Lib Lucent.Preflight

/-- A vector that names no transaction. -/
def Unmined (v : Json) : Prop := ∃ h, getOr "txHash" .null v = .ok h ∧ h.truthy = false

/-- The transaction of the vector was executed. -/
def Executed (host : Host) (index : ℕ) (v : Json) : Prop :=
  ∃ h receipt, getOr "txHash" .null v = .ok h ∧ h.truthy = true ∧ host.receipt index h = .ok receipt ∧
    item "status" receipt = .ok (.str "0x1")

/-- What `verify_one` says of the transaction of the vector. -/
def VerifiedAs (host : Host) (desc contract : Json) (index : ℕ) (v h : Json) (verified : Verified) : Prop :=
  ∃ tx receipt, getOr "txHash" .null v = .ok h ∧ h.truthy = true ∧ host.transaction index h = .ok tx ∧
    host.receipt index h = .ok receipt ∧ verifyOne host desc contract tx receipt = .ok verified

/-- The transaction of the vector is fetched and `verify_one` finds nothing. -/
def Clean (host : Host) (desc contract : Json) (index : ℕ) (v : Json) : Prop :=
  ∃ h verified, VerifiedAs host desc contract index v h verified ∧ verified.findings = []

/-- The vector was checked: against the receipt of a transaction that was executed, and without a finding. -/
def Checked (host : Host) (desc contract : Json) (index : ℕ) (v : Json) : Prop :=
  ∃ h tx receipt verified, getOr "txHash" .null v = .ok h ∧ h.truthy = true ∧ host.transaction index h = .ok tx ∧
    host.receipt index h = .ok receipt ∧ item "status" receipt = .ok (.str "0x1") ∧
    verifyOne host desc contract tx receipt = .ok verified ∧ verified.findings = []

/-- The vectors and the contract of the two files. -/
def Reads (desc tests contract : Json) (vectors : List Json) : Prop :=
  ∃ field, item "tests" tests = .ok field ∧ iterate field = .ok vectors ∧ contractAddress desc = .ok contract

theorem checked_iff {host : Host} {desc contract : Json} {index : ℕ} {v : Json} :
    Checked host desc contract index v ↔ Clean host desc contract index v ∧ Executed host index v := by
  constructor
  · rintro ⟨h, tx, receipt, verified, hget, htrue, htx, hreceipt, hstatus, hverify, hnone⟩
    exact ⟨⟨h, verified, ⟨tx, receipt, hget, htrue, htx, hreceipt, hverify⟩, hnone⟩,
      ⟨h, receipt, hget, htrue, hreceipt, hstatus⟩⟩
  · rintro ⟨⟨h, verified, ⟨tx, receipt, hget, htrue, htx, hreceipt, hverify⟩, hnone⟩,
      ⟨h', receipt', hget', -, hreceipt', hstatus⟩⟩
    obtain rfl : h = h' := Except.ok.inj (hget.symm.trans hget')
    obtain rfl : receipt = receipt' := Except.ok.inj (hreceipt.symm.trans hreceipt')
    exact ⟨h, tx, receipt, verified, hget, htrue, htx, hreceipt, hstatus, hverify, hnone⟩

/-! ## Step -/

theorem getOr_eq_ok {key : String} {default v value : Json} (h : getOr key default v = .ok value) :
    ∃ members, v = .obj members := by
  cases v with
  | obj members => exact ⟨members, rfl⟩
  | _ => exact nomatch h

/-- A turn of the loop without the fork: a vector is counted as `verify_one` finds it, or passed over. -/
theorem checkVector_eq_ok_iff {host : Host} {desc contract : Json} {index : ℕ} {tally tally' : Tally} {v : Json} :
    checkVector host false desc contract index tally v = .ok tally' ↔
      (∃ h verified, VerifiedAs host desc contract index v h verified ∧ tally' = tally.count h verified) ∨
      (Unmined v ∧ tally' = tally) := by
  unfold checkVector
  constructor
  · intro hok
    obtain ⟨h, hget, hok⟩ := bind_eq_ok.mp hok
    split at hok
    · next htrue =>
      obtain ⟨tx, htx, hok⟩ := bind_eq_ok.mp hok
      obtain ⟨receipt, hreceipt, hok⟩ := bind_eq_ok.mp hok
      obtain ⟨verified, hverify, hok⟩ := bind_eq_ok.mp hok
      exact .inl ⟨h, verified, ⟨tx, receipt, hget, htrue, htx, hreceipt, hverify⟩, (Except.ok.inj hok).symm⟩
    · next htrue =>
      obtain ⟨call, -, hok⟩ := bind_eq_ok.mp hok
      exact .inr ⟨⟨h, hget, by simpa using htrue⟩, (Except.ok.inj hok).symm⟩
  · rintro (⟨h, verified, ⟨tx, receipt, hget, htrue, htx, hreceipt, hverify⟩, rfl⟩ | ⟨⟨h, hget, hfalse⟩, rfl⟩)
    · refine bind_eq_ok.mpr ⟨h, hget, ?_⟩
      rw [if_pos htrue]
      exact bind_eq_ok.mpr ⟨tx, htx, bind_eq_ok.mpr ⟨receipt, hreceipt, bind_eq_ok.mpr ⟨verified, hverify, rfl⟩⟩⟩
    · obtain ⟨members, rfl⟩ := getOr_eq_ok hget
      refine bind_eq_ok.mpr ⟨h, hget, ?_⟩
      rw [if_neg (by simp [hfalse])]
      exact bind_eq_ok.mpr ⟨_, rfl, rfl⟩

/-! ## Run -/

theorem divergences_le_of_checkVectors {host : Host} {desc contract : Json} {vectors : List Json} :
    ∀ {index : ℕ} {tally tally' : Tally}, checkVectors host false desc contract index tally vectors = .ok tally' →
      tally.divergences ≤ tally'.divergences := by
  induction vectors with
  | nil => rintro index tally tally' ⟨⟩; exact le_refl _
  | cons v rest ih =>
    intro index tally tally' h
    obtain ⟨next, hstep, hrest⟩ := bind_eq_ok.mp h
    have hle : tally.divergences ≤ next.divergences := by
      obtain ⟨_, _, -, rfl⟩ | ⟨-, rfl⟩ := checkVector_eq_ok_iff.mp hstep
      · exact Nat.le_add_right _ _
      · exact le_refl _
    exact le_trans hle (ih hrest)

/-- The loop ends with rows and without a divergence. -/
def PassesFrom (host : Host) (desc contract : Json) (index : ℕ) (tally : Tally) (vectors : List Json) : Prop :=
  ∃ tally', checkVectors host false desc contract index tally vectors = .ok tally' ∧ tally'.divergences = 0 ∧
    0 < tally'.rows.length

theorem passesFrom_nil {host : Host} {desc contract : Json} {index : ℕ} {tally : Tally} :
    PassesFrom host desc contract index tally [] ↔ tally.divergences = 0 ∧ 0 < tally.rows.length :=
  ⟨fun ⟨_, h, hdiv, hrows⟩ => Except.ok.inj h ▸ ⟨hdiv, hrows⟩, fun h => ⟨tally, rfl, h⟩⟩

/-- A clean vector leaves a row, a vector without a transaction leaves nothing, and no other one is let through. -/
theorem passesFrom_cons {host : Host} {desc contract : Json} {index : ℕ} {tally : Tally} {v : Json} {rest : List Json} :
    PassesFrom host desc contract index tally (v :: rest) ↔
      (∃ h verified, VerifiedAs host desc contract index v h verified ∧ verified.findings = [] ∧
        PassesFrom host desc contract (index + 1) (tally.count h verified) rest) ∨
      (Unmined v ∧ PassesFrom host desc contract (index + 1) tally rest) := by
  constructor
  · rintro ⟨tally', h, hdiv, hrows⟩
    obtain ⟨next, hstep, hrest⟩ := bind_eq_ok.mp h
    obtain ⟨h, verified, hverified, rfl⟩ | ⟨hunmined, rfl⟩ := checkVector_eq_ok_iff.mp hstep
    · have hle := divergences_le_of_checkVectors hrest
      have hnone : verified.findings.length = 0 := by
        simp only [Tally.count] at hle
        omega
      exact .inl ⟨h, verified, hverified, List.eq_nil_of_length_eq_zero hnone, tally', hrest, hdiv, hrows⟩
    · exact .inr ⟨hunmined, tally', hrest, hdiv, hrows⟩
  · rintro (⟨h, verified, hverified, -, tally', hrest, hpass⟩ | ⟨hunmined, tally', hrest, hpass⟩)
    · exact ⟨tally', bind_eq_ok.mpr ⟨_, checkVector_eq_ok_iff.mpr (.inl ⟨h, verified, hverified, rfl⟩), hrest⟩, hpass⟩
    · exact ⟨tally', bind_eq_ok.mpr ⟨_, checkVector_eq_ok_iff.mpr (.inr ⟨hunmined, rfl⟩), hrest⟩, hpass⟩

/-- The loop passes exactly where every vector is clean or names no transaction, and some row is there. -/
theorem checkVectors_passed_iff {host : Host} {desc contract : Json} {vectors : List Json} :
    ∀ {index : ℕ} {tally : Tally}, PassesFrom host desc contract index tally vectors ↔
      tally.divergences = 0 ∧
      (∀ i v, vectors[i]? = some v → Clean host desc contract (index + i) v ∨ Unmined v) ∧
      (0 < tally.rows.length ∨ ∃ i v, vectors[i]? = some v ∧ Clean host desc contract (index + i) v) := by
  induction vectors with
  | nil => intro index tally; simp [passesFrom_nil]
  | cons v rest ih =>
    intro index tally
    have hshift : ∀ i, index + 1 + i = index + (i + 1) := fun i => by omega
    rw [passesFrom_cons]
    constructor
    · rintro (⟨h, verified, hverified, hnone, hpass⟩ | ⟨hunmined, hpass⟩)
      · obtain ⟨hdiv, hall, -⟩ := ih.mp hpass
        have hclean : Clean host desc contract (index + 0) v := ⟨h, verified, hverified, hnone⟩
        refine ⟨by simp only [Tally.count] at hdiv; omega, ?_, .inr ⟨0, v, rfl, hclean⟩⟩
        rintro (_ | i) w hw
        · exact .inl (Option.some.inj hw ▸ hclean)
        · rw [← hshift]
          exact hall i w (by simpa using hw)
      · obtain ⟨hdiv, hall, hsome⟩ := ih.mp hpass
        refine ⟨hdiv, ?_, hsome.imp_right ?_⟩
        · rintro (_ | i) w hw
          · exact .inr (Option.some.inj hw ▸ hunmined)
          · rw [← hshift]
            exact hall i w (by simpa using hw)
        · rintro ⟨i, w, hw, hclean⟩
          exact ⟨i + 1, w, by simpa using hw, hshift i ▸ hclean⟩
    · rintro ⟨hdiv, hall, hsome⟩
      have hrest : ∀ i w, rest[i]? = some w → Clean host desc contract (index + 1 + i) w ∨ Unmined w := fun i w hw => by
        rw [hshift]
        exact hall (i + 1) w (by simpa using hw)
      obtain ⟨h, verified, hverified, hnone⟩ | hunmined := hall 0 v rfl
      · refine .inl ⟨h, verified, hverified, hnone, ih.mpr ⟨?_, hrest, .inl ?_⟩⟩
        · simp [Tally.count, hdiv, hnone]
        · simp [Tally.count]
      · by_cases hrows : 0 < tally.rows.length
        · exact .inr ⟨hunmined, ih.mpr ⟨hdiv, hrest, .inl hrows⟩⟩
        obtain ⟨i, w, hw, hclean⟩ := hsome.resolve_left hrows
        cases i with
        | zero =>
          obtain rfl : v = w := Option.some.inj hw
          obtain ⟨h, verified, hverified, hnone⟩ := hclean
          refine .inl ⟨h, verified, hverified, hnone, ih.mpr ⟨?_, hrest, .inl ?_⟩⟩
          · simp [Tally.count, hdiv, hnone]
          · simp [Tally.count]
        | succ i =>
          exact .inr ⟨hunmined, ih.mpr ⟨hdiv, hrest, .inr ⟨i, w, by simpa using hw, hshift i ▸ hclean⟩⟩⟩

/-! ## The attestation -/

/-- The two files and the fetches on which the attestation passes: there is a key, some vector names a transaction,
and `verify_one` finds nothing in any that does. -/
def Passable (host : Host) (desc tests contract : Json) (vectors : List Json) : Prop :=
  (host.apiKey.getD "").isEmpty = false ∧ Reads desc tests contract vectors ∧
    (∀ i v, vectors[i]? = some v → Clean host desc contract i v ∨ Unmined v) ∧
    ∃ i v, vectors[i]? = some v ∧ Clean host desc contract i v

theorem runSemverify_passed_iff {host : Host} {desc tests : Json} :
    (∃ outcome, runSemverify host desc tests = .ok outcome ∧ outcome.passed = some true) ↔
      ∃ contract vectors, Passable host desc tests contract vectors := by
  unfold runSemverify
  by_cases hkey : (host.apiKey.getD "").isEmpty = true
  · rw [if_pos hkey]
    constructor
    · rintro ⟨outcome, ⟨⟩, hpassed⟩
      exact nomatch hpassed
    · rintro ⟨contract, vectors, hkey', -⟩
      exact absurd hkey (by simp [hkey'])
  · rw [if_neg hkey]
    constructor
    · rintro ⟨outcome, hok, hpassed⟩
      obtain ⟨tally, heval, hok⟩ := bind_eq_ok.mp hok
      obtain rfl := Except.ok.inj hok
      obtain ⟨hdiv, hrows⟩ : tally.divergences = 0 ∧ 0 < tally.rows.length := by simpa using hpassed
      obtain ⟨field, hfield, heval⟩ := bind_eq_ok.mp heval
      obtain ⟨contract, hcontract, heval⟩ := bind_eq_ok.mp heval
      obtain ⟨vectors, hvectors, heval⟩ := bind_eq_ok.mp heval
      obtain ⟨-, hall, hsome⟩ := checkVectors_passed_iff.mp ⟨tally, heval, hdiv, hrows⟩
      simp only [Nat.zero_add] at hall hsome
      exact ⟨contract, vectors, by simpa using hkey, ⟨field, hfield, hvectors, hcontract⟩, hall,
        hsome.resolve_left (by simp)⟩
    · rintro ⟨contract, vectors, -, ⟨field, hfield, hvectors, hcontract⟩, hall, hsome⟩
      obtain ⟨tally, heval, hdiv, hrows⟩ := (@checkVectors_passed_iff host desc contract vectors 0 ⟨[], 0, []⟩).mpr
        ⟨rfl, by simpa using hall, .inr (by simpa using hsome)⟩
      refine ⟨_, bind_eq_ok.mpr ⟨tally, ?_, rfl⟩, by simp [hdiv, hrows]⟩
      exact bind_eq_ok.mpr ⟨field, hfield,
        bind_eq_ok.mpr ⟨contract, hcontract, bind_eq_ok.mpr ⟨vectors, hvectors, heval⟩⟩⟩

theorem reads_unique {desc tests contract contract' : Json} {vectors vectors' : List Json}
    (h : Reads desc tests contract vectors) (h' : Reads desc tests contract' vectors') :
    contract = contract' ∧ vectors = vectors' := by
  obtain ⟨field, hfield, hvectors, hcontract⟩ := h
  obtain ⟨field', hfield', hvectors', hcontract'⟩ := h'
  obtain rfl : field = field' := Except.ok.inj (hfield.symm.trans hfield')
  exact ⟨Except.ok.inj (hcontract.symm.trans hcontract'), Except.ok.inj (hvectors.symm.trans hvectors')⟩

/-- `passed` means that every vector was checked exactly where no file that passes holds a vector without a
transaction or with one that was not executed. -/
theorem runSemverify_sound_iff (host : Host) (desc tests : Json) :
    (∀ outcome, runSemverify host desc tests = .ok outcome → outcome.passed = some true →
      ∃ contract vectors, Reads desc tests contract vectors ∧
        ∀ i v, vectors[i]? = some v → Checked host desc contract i v) ↔
    ∀ contract vectors, Passable host desc tests contract vectors →
      ∀ i v, vectors[i]? = some v → Executed host i v := by
  constructor
  · intro hsound contract vectors hpass i v hv
    obtain ⟨outcome, hok, hpassed⟩ := runSemverify_passed_iff.mpr ⟨contract, vectors, hpass⟩
    obtain ⟨contract', vectors', hreads, hall⟩ := hsound outcome hok hpassed
    obtain ⟨rfl, rfl⟩ := reads_unique hpass.2.1 hreads
    exact (checked_iff.mp (hall i v hv)).2
  · intro hexecuted outcome hok hpassed
    obtain ⟨contract, vectors, hpass⟩ := runSemverify_passed_iff.mp ⟨outcome, hok, hpassed⟩
    obtain ⟨-, hreads, hclean, -⟩ := id hpass
    refine ⟨contract, vectors, hreads, fun i v hv => ?_⟩
    have hex := hexecuted contract vectors hpass i v hv
    refine checked_iff.mpr ⟨(hclean i v hv).resolve_right ?_, hex⟩
    rintro ⟨h, hget, hfalse⟩
    obtain ⟨h', receipt, hget', htrue, -⟩ := hex
    obtain rfl : h = h' := Except.ok.inj (hget.symm.trans hget')
    exact absurd htrue (by simp [hfalse])

/-! ## A reverted transaction -/

/-- `int(text, 16)` of plain hex digits, with or without `0x`. -/
def plainHexInt (text : String) : Option ℤ :=
  let digits := if hasPrefix text "0x" then text.toList.drop 2 else text.toList
  if digits.isEmpty || !digits.all isHex then none else some (hexNat digits)

/-- The transfer of `transferRequest`, mined and reverted. -/
def revertedHost : Host where
  env := demoEnv []
  hexInt := plainHexInt
  apiKey := some "key"
  transaction _ _ := .ok (.obj [("to", .str "0x2222222222222222222222222222222222222222"), ("value", .str "0x0"),
    ("input", .str ("0xa9059cbb" ++ "0000000000000000000000003333333333333333333333333333333333333333" ++
      "00000000000000000000000000000000000000000000000000000000000003e8"))])
  receipt _ _ := .ok (.obj [("status", .str "0x0"), ("logs", .arr [])])
  simulate _ _ := .error "RuntimeError"

def revertedDescriptor : Json := (transferRequest.get? "descriptor").getD .null

/-- A vector whose transaction was reverted, and a vector that was never mined. -/
def revertedTests : Json := .obj [("tests", .arr [
  .obj [("txHash", .str "0x5a1e8a3c3c1e7bbd0a6b6e2d5f4c3b2a19080706050403020100ffeeddccbbaa")],
  .obj [("call", .obj [("signer", .str "0x4444444444444444444444444444444444444444"),
    ("function", .str "transfer(address,uint256)")])]])]

theorem revertedTests_passes : (match runSemverify revertedHost revertedDescriptor revertedTests with
    | .ok outcome => decide (outcome.passed = some true)
    | .error _ => false) = true := by decide +kernel

/-- The attestation passes over both: the reverted transaction left no logs, the other vector is dropped. -/
theorem runSemverify_unsound_reverted : ¬ ∀ outcome,
    runSemverify revertedHost revertedDescriptor revertedTests = .ok outcome → outcome.passed = some true →
      ∃ contract vectors, Reads revertedDescriptor revertedTests contract vectors ∧
        ∀ i v, vectors[i]? = some v → Checked revertedHost revertedDescriptor contract i v := by
  intro hsound
  have hpasses := revertedTests_passes
  rcases hrun : runSemverify revertedHost revertedDescriptor revertedTests with failure | outcome
  · rw [hrun] at hpasses
    exact nomatch hpasses
  rw [hrun] at hpasses
  obtain ⟨contract, vectors, ⟨field, hfield, hvectors, -⟩, hall⟩ := hsound outcome hrun (of_decide_eq_true hpasses)
  obtain rfl := Except.ok.inj hfield
  obtain rfl := Except.ok.inj hvectors
  obtain ⟨h, tx, receipt, verified, -, -, -, hreceipt, hstatus, -⟩ := hall 0 _ rfl
  obtain rfl := Except.ok.inj hreceipt
  exact absurd (Except.ok.inj hstatus) (by simp)

end Lucent.Attest
