import Lucent.Preflight.CheckDescriptor
import Lucent.Preflight.FormatKey

/-!
# Lucent.Preflight.FormatAudit — what the audit says of a key with parameter names

* `auditFunction`: the turn of `audit` for one function that can be signed; `audit_eq_ok` cuts a report into them.
* `Reported`: the report says that the format of a function is keyed non-canonically.
* `reported_iff`: this is said of a function that can be signed, has a key with names and has no canonical one.
* `canonicalKey_reported_iff`: canonicalization inverts naming, and when a named key is reported.
-/

namespace Lucent.Preflight

open Lucent.Lib

variable {abi : List AbiFunction} {formats : List (String × Format)} {fn : AbiFunction} {report : AuditReport}

/-! ## The turns of the audit -/

/-- `noncanonical` of `audit`, its keys. -/
def noncanonicalKeys (abi : List AbiFunction) (formats : List (String × Format)) : List String :=
  (formats.filter (fun entry => canonicalKey entry.1 != entry.1 &&
    (signableTable (signableFunctions abi)).any (fun fn => fn.1 == canonicalKey entry.1))).map
    (fun entry => canonicalKey entry.1)

def noncanonicalIssue : String :=
  "format entry is keyed non-canonically; wallets match the canonical " ++ "signature, so this entry never renders"

/-- The finding about a function whose format is keyed non-canonically. -/
def noncanonicalFinding (sig : String) : AuditFinding := ⟨.high, bareName sig, noncanonicalIssue⟩

def missingFinding (sig : String) : AuditFinding :=
  ⟨.high, bareName sig, "signable function has no descriptor entry (blind-signs)"⟩

/-- The turn of `audit` for one function that can be signed. -/
def auditFunction (abi : List AbiFunction) (formats : List (String × Format)) (entry : String × AbiFunction) :
    Except Failure (List AuditFinding) :=
  match assoc entry.1 formats with
  | some fmt => auditScreen entry.2 entry.1 fmt
  | none =>
    if (noncanonicalKeys abi formats).contains entry.1 then .ok [noncanonicalFinding entry.1]
    else .ok [missingFinding entry.1]

/-- A report is made of the turns of the audit, and of orphans. -/
theorem audit_eq_ok (h : audit abi formats = .ok report) :
    ∃ screens, (signableTable (signableFunctions abi)).mapM (auditFunction abi formats) = .ok screens ∧
      ∀ own ∈ screens, ∀ finding ∈ own, finding ∈ report.findings := by
  unfold audit at h
  obtain ⟨screens, hscreens, h⟩ := bind_eq_ok.mp h
  obtain rfl := pure_eq_ok.mp h
  refine ⟨screens, hscreens, fun own hown finding hfinding => ?_⟩
  exact (List.mem_insertionSort _).mpr (List.mem_append_right _ (List.mem_flatten.mpr ⟨own, hown, hfinding⟩))

theorem exists_audit {screens : List (List AuditFinding)}
    (h : (signableTable (signableFunctions abi)).mapM (auditFunction abi formats) = .ok screens) :
    ∃ report, audit abi formats = .ok report := by
  unfold audit
  exact ⟨_, bind_eq_ok.mpr ⟨screens, h, rfl⟩⟩

/-! ## Screens -/

/-- The screens of an audit can be read: the parameters of a function with a format have a `name`. -/
def Auditable (abi : List AbiFunction) (formats : List (String × Format)) : Prop :=
  ∀ entry ∈ signableTable (signableFunctions abi), (∃ fmt, assoc entry.1 formats = some fmt) →
    ∀ i ∈ entry.2.inputs, ∃ name, i.name = some name

theorem nameKey_eq_ok {i : AbiInput} {name : String} : i.nameKey = .ok name ↔ i.name = some name := by
  unfold AbiInput.nameKey
  rcases i.name with _ | n
  · exact ⟨nofun, nofun⟩
  · exact ⟨fun h => congrArg some (Except.ok.inj h), fun h => congrArg Except.ok (Option.some.inj h)⟩

/-- A screen is audited when the parameters have names. -/
theorem exists_auditScreen_iff {sig : String} {fmt : Format} :
    (∃ findings, auditScreen fn sig fmt = .ok findings) ↔ ∀ i ∈ fn.inputs, ∃ name, i.name = some name := by
  constructor
  · rintro ⟨findings, h⟩ i hi
    obtain ⟨types, htypes, -⟩ := bind_eq_ok.mp h
    obtain ⟨names, hnames, -⟩ := bind_eq_ok.mp htypes
    obtain ⟨name, -, hname⟩ := exists_of_mem_mapM hnames hi
    exact ⟨name, nameKey_eq_ok.mp hname⟩
  · intro h
    obtain ⟨names, hnames⟩ := exists_mapM_eq_ok (f := AbiInput.nameKey) (l := fn.inputs) fun i hi => by
      obtain ⟨name, hname⟩ := h i hi
      exact ⟨name, nameKey_eq_ok.mpr hname⟩
    exact ⟨_, bind_eq_ok.mpr ⟨_, bind_eq_ok.mpr ⟨names, hnames, rfl⟩, rfl⟩⟩

/-- No screen has the finding about a key: the other findings of its severity begin with another letter. -/
theorem auditScreen_canonical {sig sig' : String} {fmt : Format} {findings : List AuditFinding}
    (h : auditScreen fn sig fmt = .ok findings) : noncanonicalFinding sig' ∉ findings := by
  have hsev : ∀ {severity name issue}, severity ≠ .high → noncanonicalFinding sig' ≠ ⟨severity, name, issue⟩ :=
    fun hne heq => hne (AuditFinding.mk.inj heq).1.symm
  have hissue : ∀ {severity name} {issue : String}, issue.toList.head? ≠ some 'f' →
      noncanonicalFinding sig' ≠ ⟨severity, name, issue⟩ := by
    intro severity name issue hne heq
    have hhead : noncanonicalIssue.toList.head? = some 'f' := by decide
    rw [(AuditFinding.mk.inj heq).2.2] at hhead
    exact hne hhead
  unfold auditScreen at h
  obtain ⟨types, -, h⟩ := bind_eq_ok.mp h
  obtain rfl := pure_eq_ok.mp h
  intro hmem
  simp only [List.mem_append, mem_ite_singleton] at hmem
  rcases hmem with ((((((⟨-, h⟩ | ⟨-, h⟩) | ⟨-, h⟩) | ⟨-, h⟩) | hmem) | ⟨-, h⟩) | ⟨-, h⟩) | ⟨-, h⟩
  · exact hissue (by decide) h
  · exact hsev (by decide) h
  · exact hissue (by decide) h
  · exact hsev (by decide) h
  · obtain ⟨field, -, hmem⟩ := List.mem_flatMap.mp hmem
    simp only [auditField, List.mem_append, mem_ite_singleton] at hmem
    rcases hmem with (⟨-, h⟩ | ⟨-, h⟩) | ⟨-, h⟩
    · refine hissue ?_ h
      rw [String.toList_append, String.toList_append, List.append_assoc, List.head?_append_of_ne_nil _ (by decide)]
      decide
    · exact hsev (by decide) h
    · exact hsev (by decide) h
  · exact hsev (by decide) h
  · exact hsev (by decide) h
  · exact hsev (by decide) h

/-- The audit makes a report when it can read the screens. -/
theorem exists_audit_iff : (∃ report, audit abi formats = .ok report) ↔ Auditable abi formats := by
  constructor
  · rintro ⟨report, h⟩ entry hentry ⟨fmt, hfmt⟩
    obtain ⟨screens, hscreens, -⟩ := audit_eq_ok h
    obtain ⟨own, -, hown⟩ := exists_of_mem_mapM hscreens hentry
    simp only [auditFunction, hfmt] at hown
    exact exists_auditScreen_iff.mp ⟨own, hown⟩
  · intro h
    obtain ⟨screens, hscreens⟩ := exists_mapM_eq_ok (f := auditFunction abi formats) fun entry hentry => by
      unfold auditFunction
      rcases hfmt : assoc entry.1 formats with _ | fmt
      · dsimp only
        split_ifs <;> exact ⟨_, rfl⟩
      · exact exists_auditScreen_iff.mpr (h entry hentry ⟨fmt, hfmt⟩)
    exact exists_audit hscreens

/-! ## Named keys -/

/-- The report says of a function that its format is keyed non-canonically. -/
def Reported (abi : List AbiFunction) (formats : List (String × Format)) (fn : AbiFunction) : Prop :=
  ∃ report entry own, audit abi formats = .ok report ∧ entry ∈ signableTable (signableFunctions abi) ∧
    entry.1 = signature fn ∧ auditFunction abi formats entry = .ok own ∧ noncanonicalFinding (signature fn) ∈ own

/-- What is reported of a function is in the report. -/
theorem Reported.mem (h : Reported abi formats fn) :
    ∃ report, audit abi formats = .ok report ∧ noncanonicalFinding (signature fn) ∈ report.findings := by
  obtain ⟨report, entry, own, hreport, hentry, -, hown, hmem⟩ := h
  obtain ⟨screens, hscreens, hall⟩ := audit_eq_ok hreport
  obtain ⟨own', hin, hown'⟩ := exists_of_mem_mapM hscreens hentry
  obtain rfl := Except.ok.inj (hown.symm.trans hown')
  exact ⟨report, hreport, hall _ hin _ hmem⟩

theorem assoc_eq_none_iff {α : Type} {key : String} {entries : List (String × α)} :
    assoc key entries = none ↔ key ∉ entries.map Prod.fst := by
  induction entries with
  | nil => simp [assoc]
  | cons entry entries ih =>
    rw [assoc_cons, List.map_cons, List.mem_cons, not_or]
    split_ifs with hkey
    · exact ⟨nofun, fun h => absurd hkey.symm h.1⟩
    · exact ih.trans ⟨fun h => ⟨fun heq => hkey heq.symm, h⟩, And.right⟩

/-- A signature that can be signed has its turn. -/
theorem exists_mem_signableTable {l : List AbiFunction} {sig : String} :
    (∃ g, (sig, g) ∈ signableTable l) ↔ ∃ g ∈ l, signature g = sig := by
  constructor
  · rintro ⟨g, hg⟩
    obtain ⟨hmem, rfl⟩ := mem_signableTable hg
    exact ⟨g, hmem, rfl⟩
  · rintro ⟨g, hg, rfl⟩
    induction l with
    | nil => exact absurd hg List.not_mem_nil
    | cons f l ih =>
      by_cases hsig : signature f = signature g
      · exact ⟨_, by rw [signableTable, hsig]; exact List.mem_cons_self⟩
      · obtain ⟨g', hg'⟩ := ih ((List.mem_cons.mp hg).resolve_left fun heq => hsig (heq ▸ rfl))
        exact ⟨g', List.mem_cons_of_mem _ (List.mem_filter.mpr ⟨hg', by simpa using Ne.symm hsig⟩)⟩

theorem mem_noncanonicalKeys {sig : String} : sig ∈ noncanonicalKeys abi formats ↔
    (∃ g ∈ signableFunctions abi, signature g = sig) ∧ ∃ key ∈ formats.map Prod.fst, key ≠ sig ∧
      canonicalKey key = sig := by
  have hknown : ∀ sig, (signableTable (signableFunctions abi)).any (fun fn => fn.1 == sig) = true ↔
      ∃ g ∈ signableFunctions abi, signature g = sig := by
    intro sig
    rw [← exists_mem_signableTable, List.any_eq_true]
    constructor
    · rintro ⟨⟨sig', g⟩, hmem, heq⟩
      obtain rfl := beq_iff_eq.mp heq
      exact ⟨g, hmem⟩
    · rintro ⟨g, hmem⟩
      exact ⟨_, hmem, beq_self_eq_true _⟩
  constructor
  · intro h
    obtain ⟨entry, hentry, rfl⟩ := List.mem_map.mp h
    obtain ⟨hmem, hcond⟩ := List.mem_filter.mp hentry
    obtain ⟨hne, hany⟩ := Bool.and_eq_true_iff.mp hcond
    exact ⟨(hknown _).mp hany, entry.1, List.mem_map_of_mem hmem, (bne_iff_ne.mp hne).symm, rfl⟩
  · rintro ⟨hsignable, key, hkey, hne, rfl⟩
    obtain ⟨entry, hmem, rfl⟩ := List.mem_map.mp hkey
    refine List.mem_map.mpr ⟨entry, List.mem_filter.mpr ⟨hmem, ?_⟩, rfl⟩
    exact Bool.and_eq_true_iff.mpr ⟨bne_iff_ne.mpr hne.symm, (hknown _).mpr hsignable⟩

/-- **What the audit reports**: a function that can be signed, with a key that canonicalizes to its signature, and
without its signature among the keys. -/
theorem reported_iff : Reported abi formats fn ↔ Auditable abi formats ∧
    (∃ g ∈ signableFunctions abi, signature g = signature fn) ∧ signature fn ∉ formats.map Prod.fst ∧
    ∃ key ∈ formats.map Prod.fst, canonicalKey key = signature fn := by
  constructor
  · rintro ⟨report, ⟨sig, g⟩, own, hreport, hentry, rfl, hown, hmem⟩
    rcases hfmt : assoc (signature fn) formats with _ | fmt
    · simp only [auditFunction, hfmt] at hown
      split_ifs at hown with hkeys
      · obtain ⟨hsignable, key, hkey, -, hcanonical⟩ := mem_noncanonicalKeys.mp (List.contains_iff_mem.mp hkeys)
        exact ⟨exists_audit_iff.mp ⟨report, hreport⟩, hsignable, assoc_eq_none_iff.mp hfmt, key, hkey, hcanonical⟩
      · obtain rfl := Except.ok.inj hown
        have hissue : noncanonicalIssue ≠ "signable function has no descriptor entry (blind-signs)" := by decide
        exact absurd (AuditFinding.mk.inj (List.mem_singleton.mp hmem)).2.2 hissue
    · simp only [auditFunction, hfmt] at hown
      exact absurd hmem (auditScreen_canonical hown)
  · rintro ⟨hauditable, hsignable, hnone, key, hkey, hcanonical⟩
    obtain ⟨report, hreport⟩ := exists_audit_iff.mpr hauditable
    obtain ⟨g, hg⟩ := exists_mem_signableTable.mpr hsignable
    have hkeys : (noncanonicalKeys abi formats).contains (signature fn) = true :=
      List.contains_iff_mem.mpr (mem_noncanonicalKeys.mpr
        ⟨hsignable, key, hkey, fun heq => hnone (heq ▸ hkey), hcanonical⟩)
    refine ⟨report, _, [noncanonicalFinding (signature fn)], hreport, hg, rfl, ?_, List.mem_singleton_self _⟩
    simp only [auditFunction, assoc_eq_none_iff.mpr hnone, hkeys, if_true]

/-- **Format keys.**  Canonicalization takes every spelling of a signature to the signature; a canonically keyed
function is never reported, and one with a named key is reported if and only if it can be signed and its signature is
no key too (and the audit makes a report at all). -/
theorem canonicalKey_reported_iff {key : String} (h : Spells fn key) (abi : List AbiFunction)
    (formats : List (String × Format)) :
    canonicalKey key = signature fn ∧ canonicalKey (signature fn) = signature fn ∧
    (signature fn ∈ formats.map Prod.fst → ¬ Reported abi formats fn) ∧
    (key ∈ formats.map Prod.fst → (Reported abi formats fn ↔ Auditable abi formats ∧
      (∃ g ∈ signableFunctions abi, signature g = signature fn) ∧ signature fn ∉ formats.map Prod.fst)) := by
  have hcanonical := canonicalKey_of_spells h
  refine ⟨hcanonical, canonicalKey_of_spells h.signature, ?_, ?_⟩
  · intro hkeyed hreported
    exact (reported_iff.mp hreported).2.2.1 hkeyed
  · intro hkey
    rw [reported_iff]
    constructor
    · rintro ⟨hauditable, hsignable, hnone, -⟩
      exact ⟨hauditable, hsignable, hnone⟩
    · rintro ⟨hauditable, hsignable, hnone⟩
      exact ⟨hauditable, hsignable, hnone, key, hkey, hcanonical⟩

/-! ## A function with two keys -/

def swapFunction : AbiFunction where
  name := "swap"
  inputs := [⟨some "params", "tuple[]", [⟨some "a", "address", []⟩, ⟨some "b", "uint256", []⟩]⟩, ⟨some "path", "bytes", []⟩]
  stateMutability := some "nonpayable"
  payable := none

def swapKey : String := "swap((address a,uint256 b)[] params, bytes path)"

def swapFormat : Format := ⟨false, [], some "Swap", none⟩

/-- A named elementary parameter. -/
theorem spellsParam_elementary {abiType name : String} (hne : abiType ≠ "")
    (halnum : ∀ c ∈ abiType.toList, c.isAlphanum = true) (htuple : hasPrefix abiType "tuple" = false)
    (hname : isIdentifier name = true) {before : List Char} (hbefore : Blank before) :
    SpellsParam ⟨some name, abiType, []⟩ (before ++ (abiType.toList ++ (' ' :: name.toList)) ++ []) := by
  have htype := @SpellsType.elementary (some name) abiType.toList [] []
    (fun h => hne (String.toList_eq_nil_iff.mp h)) halnum (by simpa [arraySuffix] using htuple)
  simp only [arraySuffix, List.flatMap_nil, List.append_nil, String.ofList_toList] at htype
  exact .mk hbefore htype (.inr ⟨[' '], name, List.cons_ne_nil _ _, by simp [Blank, isSpace], hname, rfl⟩)
    fun _ hc => absurd hc List.not_mem_nil

theorem spells_swapKey : Spells swapFunction swapKey := by
  have hblank : Blank [] := fun _ hc => absurd hc List.not_mem_nil
  have hspace : Blank [' '] := by simp [Blank, isSpace]
  have ha := @spellsParam_elementary "address" "a" (by decide) (List.all_eq_true.mp (by decide)) (by decide) (by decide)
    [] hblank
  have hb := @spellsParam_elementary "uint256" "b" (by decide) (List.all_eq_true.mp (by decide)) (by decide) (by decide)
    [] hblank
  have hpath := @spellsParam_elementary "bytes" "path" (by decide) (List.all_eq_true.mp (by decide)) (by decide) (by decide)
    [' '] hspace
  have htuple := SpellsType.tuple (some "params") [none] (.cons ha (.single hb))
  have hparams := SpellsParam.mk hblank htuple
    (.inr ⟨[' '], "params", List.cons_ne_nil _ _, hspace, by decide, rfl⟩) hblank
  exact ⟨by decide, _, .cons hparams (.single hpath), by decide⟩

theorem auditable_swap (formats : List (String × Format)) : Auditable [swapFunction] formats := by
  rintro ⟨sig, g⟩ hentry - i hi
  obtain ⟨hg, -⟩ := mem_signableTable hentry
  obtain rfl := List.mem_singleton.mp (List.mem_of_mem_filter hg)
  simp only [swapFunction, List.mem_cons, List.not_mem_nil, or_false] at hi
  rcases hi with rfl | rfl
  · exact ⟨_, rfl⟩
  · exact ⟨_, rfl⟩

theorem swap_signable : swapFunction ∈ signableFunctions [swapFunction] :=
  List.mem_filter.mpr ⟨List.mem_singleton_self _, rfl⟩

theorem canonicalKey_reported_iff_swap : canonicalKey swapKey = "swap((address,uint256)[],bytes)" ∧
    Reported [swapFunction] [(swapKey, swapFormat)] swapFunction := by
  obtain ⟨hcanonical, -, -, hreported⟩ := canonicalKey_reported_iff spells_swapKey [swapFunction] [(swapKey, swapFormat)]
  refine ⟨hcanonical.trans (by decide), (hreported List.mem_cons_self).mpr ⟨auditable_swap _, ?_, by decide⟩⟩
  exact ⟨swapFunction, swap_signable, rfl⟩

/-- With its signature among the keys, the named key of a function is not reported. -/
theorem named_key_unreported : ¬ ∀ (fn : AbiFunction) (key : String) (abi : List AbiFunction)
    (formats : List (String × Format)), Spells fn key → key ≠ signature fn → key ∈ formats.map Prod.fst →
    fn ∈ signableFunctions abi → Auditable abi formats → Reported abi formats fn := by
  intro hall
  have hreported := hall swapFunction swapKey [swapFunction]
    [(swapKey, swapFormat), (signature swapFunction, swapFormat)] spells_swapKey (by decide) List.mem_cons_self
    swap_signable (auditable_swap _)
  exact (reported_iff.mp hreported).2.2.1 (List.mem_cons_of_mem _ List.mem_cons_self)

end Lucent.Preflight
