import Lucent.Attest.Watch
import Lucent.Attest.Faithful
import Lucent.Preflight.FormatAudit

/-!
# Lucent.Attest.Surface — the watcher and the audit see one set of functions

The watcher writes the signature of an entry from the JSON it was sent; the analyzers write it from the entry as it
was validated.  For an ABI that passes `validate_abi` the two agree (`signableSigs_of_validated`), so that the alarms
of the watcher are the gaps in the coverage that the audit reports (`drift_agrees_with_audit`).
-/

namespace Lucent.Attest

open Lucent.Lib Lucent.Preflight

/-! ## The two ways to write a signature -/

theorem checkEncodable_eq {env : Env} {scope : String} {i i' : AbiInput} (h : checkEncodable env scope i = .ok i') :
    i = i' := by
  unfold checkEncodable at h
  split at h
  · cases h
  · cases h
  · exact Except.ok.inj h

theorem checkInputHead_type {scope : String} {members : List (String × Json)} {name : Option String}
    {abiType : String} (h : checkInputHead scope members = .ok (name, abiType)) :
    Json.lookup "type" members = some (.str abiType) := by
  unfold checkInputHead at h
  simp only at h
  split at h
  · split at h
    · split_ifs at h
      cases h
      assumption
    · cases h
  · split at h
    · split_ifs at h
      cases h
      assumption
    · cases h
  · cases h

mutual

theorem rawInputs_of_validated {env : Env} : ∀ (v : Json) {scope : String} {inputs : List AbiInput},
    validateInputs env scope v = .ok inputs → rawInputs v = .ok (canonicalTypes inputs)
  | .arr items, _, _, h => by
    rw [validateInputs] at h
    rw [rawInputs]
    exact rawTypes_of_validated items h
  | .null, _, _, h => by simp [validateInputs] at h
  | .bool _, _, _, h => by simp [validateInputs] at h
  | .int _, _, _, h => by simp [validateInputs] at h
  | .float _, _, _, h => by simp [validateInputs] at h
  | .str _, _, _, h => by simp [validateInputs] at h
  | .obj _, _, _, h => by simp [validateInputs] at h

theorem rawTypes_of_validated {env : Env} : ∀ (items : List Json) {scope : String} {inputs : List AbiInput},
    validateItems env scope items = .ok inputs → rawTypes items = .ok (canonicalTypes inputs)
  | [], _, _, h => by
    rw [validateItems] at h
    cases h
    rfl
  | v :: rest, _, _, h => by
    rw [validateItems] at h
    obtain ⟨i, hi, h⟩ := bind_eq_ok.mp h
    obtain ⟨others, hothers, h⟩ := bind_eq_ok.mp h
    cases h
    rw [rawTypes, rawType_of_validated v hi, rawTypes_of_validated rest hothers]
    rfl

theorem rawType_of_validated {env : Env} : ∀ (v : Json) {scope : String} {i : AbiInput},
    validateInput env scope v = .ok i → rawType v = .ok (canonicalType i)
  | .obj members, _, _, h => by
    rw [validateInput] at h
    obtain ⟨⟨name, abiType⟩, hhead, h⟩ := bind_eq_ok.mp h
    simp only at h
    rw [rawType, checkInputHead_type hhead]
    simp only
    by_cases htuple : hasPrefix abiType "tuple" = true
    · rw [if_pos htuple] at h
      obtain ⟨components, hcomponents, h⟩ := bind_eq_ok.mp h
      obtain rfl := checkEncodable_eq h
      rw [if_pos htuple, rawComponents_of_validated members hcomponents, canonicalType, if_pos htuple]
      rfl
    · rw [if_neg htuple] at h
      obtain rfl := checkEncodable_eq h
      rw [if_neg htuple, canonicalType, if_neg htuple]
  | .null, _, _, h => by simp [validateInput] at h
  | .bool _, _, _, h => by simp [validateInput] at h
  | .int _, _, _, h => by simp [validateInput] at h
  | .float _, _, _, h => by simp [validateInput] at h
  | .str _, _, _, h => by simp [validateInput] at h
  | .arr _, _, _, h => by simp [validateInput] at h

theorem rawComponents_of_validated {env : Env} : ∀ (members : List (String × Json)) {scope : String}
    {inputs : List AbiInput}, validateComponents env scope members = .ok inputs →
      rawComponents members = .ok (canonicalTypes inputs)
  | [], _, _, h => by simp [validateComponents] at h
  | m :: rest, _, _, h => by
    rw [validateComponents] at h
    rw [rawComponents]
    by_cases hkey : m.1 = "components"
    · rw [if_pos hkey] at h
      rw [if_pos hkey]
      exact rawMember_of_validated m h
    · rw [if_neg hkey] at h
      rw [if_neg hkey]
      exact rawComponents_of_validated rest h

theorem rawMember_of_validated {env : Env} : ∀ (m : String × Json) {scope : String} {inputs : List AbiInput},
    validateMember env scope m = .ok inputs → rawMember m = .ok (canonicalTypes inputs)
  | (_, v), _, _, h => by
    rw [validateMember] at h
    rw [rawMember]
    exact rawInputs_of_validated v h

end

variable {w : Watcher}

/-- The `stateMutability` of an entry that passes its check. -/
def entryMutability (scope : String) (members : List (String × Json)) : Except String (Option String) :=
  match Json.lookup "stateMutability" members with
  | none | some .null => .ok none
  | some (.str mutability) =>
    if ["pure", "view", "nonpayable", "payable"].contains mutability then .ok (some mutability)
    else .error (scope ++ " has invalid stateMutability")
  | some _ => .error (scope ++ " has invalid stateMutability")

/-- The `payable` flag of an entry that passes its check. -/
def entryPayable (scope : String) (members : List (String × Json)) : Except String (Option Bool) :=
  match Json.lookup "payable" members with
  | none | some .null => .ok none
  | some (.bool flag) => .ok (some flag)
  | some _ => .error (scope ++ " has invalid payable flag")

/-- The two fields do not contradict each other. -/
def entryFunction (scope name : String) (inputs : List AbiInput) (mutability : Option String) (payable : Option Bool) :
    Except String (Option AbiFunction) :=
  match mutability, payable with
  | some m, some flag =>
    if flag != (m == "payable") then .error (scope ++ " has conflicting mutability fields")
    else .ok (some ⟨name, inputs, mutability, payable⟩)
  | _, _ => .ok (some ⟨name, inputs, mutability, payable⟩)

/-- The check of a named entry of type `function`, part by part. -/
theorem validateEntry_eq {env : Env} {members : List (String × Json)} {name : String}
    (htype : (Json.lookup "type" members).any (Json.isStr "function") = true)
    (hname : Json.lookup "name" members = some (.str name)) (hid : isIdentifier name = true) :
    validateEntry env (.obj members) = (do
      let inputs ← validateInputs env ("ABI function " ++ env.repr name) ((Json.lookup "inputs" members).getD .null)
      let mutability ← entryMutability ("ABI function " ++ env.repr name) members
      let payable ← entryPayable ("ABI function " ++ env.repr name) members
      entryFunction ("ABI function " ++ env.repr name) name inputs mutability payable) := by
  unfold validateEntry entryMutability entryPayable
  simp only [htype, Json.get?, hname, hid, Bool.not_true, Bool.false_eq_true, if_false]
  refine congrArg (Bind.bind _) (funext fun inputs => ?_)
  rcases Json.lookup "stateMutability" members with _ | _ | _ | _ | _ | mutability | _ | _
  case some.str =>
    simp only
    split_ifs
    · rcases Json.lookup "payable" members with _ | _ | _ | _ | _ | _ | _ | _ <;> rfl
    · rfl
  all_goals rcases Json.lookup "payable" members with _ | _ | _ | _ | _ | _ | _ | _ <;> rfl

theorem isStr_iff {s : String} {v : Json} : v.isStr s = true ↔ v = .str s := by
  cases v <;> simp [Json.isStr]

/-- What the check of an entry of type `function` reads of it. -/
structure EntryReads (env : Env) (members : List (String × Json)) (fn : AbiFunction) : Prop where
  type : Json.lookup "type" members = some (.str "function")
  name : Json.lookup "name" members = some (.str fn.name)
  inputs : ∃ scope v, Json.lookup "inputs" members = some v ∧ validateInputs env scope v = .ok fn.inputs
  mutability : ∀ s, fn.stateMutability = some s ↔ Json.lookup "stateMutability" members = some (.str s)

theorem entryMutability_reads {scope : String} {members : List (String × Json)} {mutability : Option String}
    (h : entryMutability scope members = .ok mutability) (s : String) :
    mutability = some s ↔ Json.lookup "stateMutability" members = some (.str s) := by
  unfold entryMutability at h
  split at h
  · rename_i hnone
    cases h
    simp [hnone]
  · rename_i hnull
    cases h
    simp [hnull]
  · rename_i text htext
    split_ifs at h
    cases h
    simp [htext]
  · cases h

theorem entryFunction_eq {scope name : String} {inputs : List AbiInput} {mutability : Option String}
    {payable : Option Bool} {fn? : Option AbiFunction}
    (h : entryFunction scope name inputs mutability payable = .ok fn?) :
    fn? = some ⟨name, inputs, mutability, payable⟩ := by
  unfold entryFunction at h
  split at h
  · split_ifs at h
    exact (Except.ok.inj h).symm
  · exact (Except.ok.inj h).symm

/-- An entry that passes its check is of another type, or it is read whole. -/
theorem validateEntry_cases {env : Env} {members : List (String × Json)} {fn? : Option AbiFunction}
    (h : validateEntry env (.obj members) = .ok fn?) :
    (fn? = none ∧ Json.lookup "type" members ≠ some (.str "function")) ∨
      ∃ fn, fn? = some fn ∧ EntryReads env members fn := by
  by_cases htype : (Json.lookup "type" members).any (Json.isStr "function") = true
  · refine .inr ?_
    have htext : Json.lookup "type" members = some (.str "function") := by
      cases hv : Json.lookup "type" members with
      | none =>
        rw [hv] at htype
        cases htype
      | some v =>
        rw [hv] at htype
        exact congrArg some (isStr_iff.mp htype)
    have hnamed : ∃ name, Json.lookup "name" members = some (.str name) ∧ isIdentifier name = true := by
      unfold validateEntry at h
      rw [if_neg (by simpa [Json.get?] using htype)] at h
      split at h
      · rename_i name hname
        split_ifs at h with hid
        · exact ⟨name, hname, by simpa using hid⟩
      · cases h
    obtain ⟨name, hname, hid⟩ := hnamed
    rw [validateEntry_eq htype hname hid] at h
    obtain ⟨inputs, hinputs, h⟩ := bind_eq_ok.mp h
    obtain ⟨mutability, hmutability, h⟩ := bind_eq_ok.mp h
    obtain ⟨payable, -, h⟩ := bind_eq_ok.mp h
    refine ⟨_, entryFunction_eq h, htext, hname, ?_, entryMutability_reads hmutability⟩
    cases hlookup : Json.lookup "inputs" members with
    | none =>
      rw [hlookup, Option.getD_none, validateInputs] at hinputs
      cases hinputs
    | some v => exact ⟨_, v, rfl, by rwa [hlookup] at hinputs⟩
  · refine .inl ⟨?_, ?_⟩
    · unfold validateEntry at h
      rw [if_pos (by simpa [Json.get?] using htype)] at h
      exact (Except.ok.inj h).symm
    · intro htext
      exact htype (by simp [htext, Json.isStr])

/-- `signable_functions` keeps the entry, as a validated one. -/
def signableFunction (fn : AbiFunction) : Bool :=
  !(fn.stateMutability == some "view" || fn.stateMutability == some "pure")

theorem isSignable_of_reads {env : Env} {members : List (String × Json)} {fn : AbiFunction}
    (h : EntryReads env members fn) : isSignable (.obj members) = .ok (signableFunction fn) := by
  have hview : ∀ s, ((Json.lookup "stateMutability" members).getD .null).isStr s = (fn.stateMutability == some s) := by
    intro s
    rw [Bool.eq_iff_iff, getD_null_isStr, beq_iff_eq]
    exact (h.mutability s).symm
  unfold isSignable signableFunction
  simp only [getOr, h.type, Option.getD_some]
  rw [← hview, ← hview]
  rfl

theorem isSignable_of_other {members : List (String × Json)}
    (h : Json.lookup "type" members ≠ some (.str "function")) : isSignable (.obj members) = .ok false := by
  unfold isSignable
  simp only [getOr]
  have hother : ((Json.lookup "type" members).getD .null).isStr "function" = false := by
    rw [← Bool.not_eq_true, getD_null_isStr]
    exact h
  show (if (!((Json.lookup "type" members).getD .null).isStr "function") = true then _ else _) = _
  rw [hother]
  rfl

theorem rawSignature_of_reads {env : Env} {members : List (String × Json)} {fn : AbiFunction}
    (h : EntryReads env members fn) : rawSignature w (.obj members) = .ok (signature fn) := by
  obtain ⟨scope, v, hv, hinputs⟩ := h.inputs
  unfold rawSignature signature
  simp only [item, h.name, hv, Option.elim_some]
  show (do
    let types ← rawInputs v
    return w.str (.str fn.name) ++ "(" ++ joinText "," types ++ ")") = _
  rw [rawInputs_of_validated v hinputs, w.str_text]
  rfl

/-- The signature the watcher lists for an entry, if it lists one. -/
theorem signable_of_validated {entry : Json} {fn? : Option AbiFunction} (hobject : isObject entry = true)
    (h : validateEntry w.env entry = .ok fn?) :
    isSignable entry = .ok (fn?.any signableFunction) ∧
      ∀ fn, fn? = some fn → rawSignature w entry = .ok (signature fn) := by
  cases entry with
  | obj members =>
    rcases validateEntry_cases h with ⟨rfl, hother⟩ | ⟨fn, rfl, hreads⟩
    · refine ⟨isSignable_of_other hother, fun fn hfn => ?_⟩
      cases hfn
    · refine ⟨isSignable_of_reads hreads, fun fn' hfn => ?_⟩
      obtain rfl := Option.some.inj hfn
      exact rawSignature_of_reads hreads
  | _ => cases hobject

/-- The functions of the entries, kept by the flag of each. -/
theorem flagged_filterMap {entries : List Json} {fns : List (Option AbiFunction)}
    (h : List.Forall₂ (fun entry fn? => isObject entry = true ∧ validateEntry w.env entry = .ok fn?) entries fns) :
    entries.mapM isSignable = .ok (fns.map (fun fn? => fn?.any signableFunction)) ∧
      (((entries.zip (fns.map (fun fn? => fn?.any signableFunction))).filter Prod.snd).map Prod.fst).mapM
        (rawSignature w) = .ok ((signableFunctions (fns.filterMap id)).map signature) := by
  induction h with
  | nil => exact ⟨rfl, rfl⟩
  | @cons entry fn? entries fns hentry _ ih =>
    obtain ⟨hflag, hsig⟩ := signable_of_validated hentry.1 hentry.2
    refine ⟨?_, ?_⟩
    · rw [List.mapM_cons, hflag, ih.1]
      rfl
    · rw [List.map_cons, List.zip_cons_cons, List.filter_cons]
      cases fn? with
      | none => exact ih.2
      | some fn =>
        rw [show (some fn :: fns).filterMap id = fn :: fns.filterMap id from rfl]
        unfold signableFunctions at ih ⊢
        rw [List.filter_cons]
        cases hkeep : signableFunction fn with
        | false =>
          have hnot : (!(fn.stateMutability == some "view" || fn.stateMutability == some "pure")) = false := hkeep
          rw [hnot]
          simp only [Option.any_some, hkeep, Bool.false_eq_true, if_false]
          exact ih.2
        | true =>
          have hyes : (!(fn.stateMutability == some "view" || fn.stateMutability == some "pure")) = true := hkeep
          rw [hyes]
          simp only [Option.any_some, hkeep, if_true, List.map_cons, List.mapM_cons, hsig fn rfl, ih.2]
          rfl

/-- **The two listings agree**: for an ABI that passes `validate_abi`, what the watcher lists is what the analyzers
sign for. -/
theorem signableSigs_of_validated {abi : Json} {fns : List AbiFunction} (h : validateAbi w.env abi = .ok fns) :
    signableSigs w abi = .ok ((signableFunctions fns).map signature) := by
  unfold validateAbi at h
  split at h
  · rename_i entries
    split_ifs at h with hlen hobjects
    split at h
    · cases h
    split_ifs at h
    obtain ⟨functions, hfunctions, h⟩ := bind_eq_ok.mp h
    cases h
    have hall : ∀ entry ∈ entries, isObject entry = true := by simpa using hobjects
    obtain ⟨hflags, hsigs⟩ := flagged_filterMap (w := w)
      ((List.forall₂_and_left _ _).mpr ⟨hall, mapM_eq_ok.mp hfunctions⟩)
    unfold signableSigs
    rw [show iterate (.arr entries) = .ok entries from rfl]
    show (entries.mapM isSignable >>= fun flags => (((entries.zip flags).filter Prod.snd).map Prod.fst).mapM
      (rawSignature w)) = _
    rw [hflags]
    exact hsigs
  · cases h

/-! ## The audit of the same functions -/

theorem nodup_signableTable (l : List AbiFunction) : ((signableTable l).map Prod.fst).Nodup := by
  induction l with
  | nil => exact List.nodup_nil
  | cons fn rest ih =>
    rw [signableTable, List.map_cons, List.nodup_cons]
    refine ⟨fun hmem => ?_, (List.filter_sublist.map _).nodup ih⟩
    obtain ⟨entry, hentry, hkey⟩ := List.mem_map.mp hmem
    simpa [hkey] using (List.mem_filter.mp hentry).2

/-- The table of the audit has the signatures that the watcher lists. -/
theorem signableTable_perm (l : List AbiFunction) :
    ((signableTable l).map Prod.fst).Perm (sortedSet (l.map signature)) := by
  refine (List.perm_ext_iff_of_nodup (nodup_signableTable l) (nodup_sortedSet _)).mpr fun sig => ?_
  rw [mem_sortedSet, List.mem_map, List.mem_map, ← exists_mem_signableTable]
  constructor
  · rintro ⟨entry, hentry, rfl⟩
    exact ⟨entry.2, hentry⟩
  · rintro ⟨g, hg⟩
    exact ⟨_, hg, rfl⟩

/-- The signatures of the alarms about functions without a screen. -/
def uncovered (events : List Event) : List String :=
  events.filterMap (fun
    | .newUncovered sig => some sig
    | _ => none)

theorem mem_uncovered {events : List Event} {sig : String} : sig ∈ uncovered events ↔ .newUncovered sig ∈ events := by
  unfold uncovered
  rw [List.mem_filterMap]
  constructor
  · rintro ⟨e, he, hsome⟩
    cases e <;> cases hsome
    exact he
  · intro he
    exact ⟨_, he, rfl⟩

theorem nodup_uncovered {baseline live : Live} {covered : ItemSet} {events : List Event}
    (h : drift baseline live covered = .ok events) : (uncovered events).Nodup := by
  unfold uncovered
  refine (nodup_drift h).filterMap ?_
  rintro (_ | sig | _ | _) (_ | sig' | _ | _) b hb hb' <;> cases hb <;> cases hb'
  rfl

/-- A text is equal to itself only, so that a set keeps it. -/
theorem text_mem_firsts {items : List SetItem} {sig : String} : .text sig ∈ firsts items ↔ .text sig ∈ items := by
  induction items with
  | nil => rfl
  | cons a rest ih =>
    have hsame : a.same (.text sig) = decide (a = .text sig) := by
      cases a <;> simp [SetItem.same, SetItem.number?]
    rw [firsts, List.mem_cons, List.mem_cons, List.mem_filter, ih, hsame]
    by_cases ha : a = .text sig
    · simp [ha]
    · simp [ha]

theorem mem_of_mem_firsts {items : List SetItem} {a : SetItem} (h : a ∈ firsts items) : a ∈ items := by
  induction items with
  | nil => exact h
  | cons b rest ih =>
    rcases List.mem_cons.mp h with rfl | h
    · exact List.mem_cons_self
    · exact List.mem_cons_of_mem b (ih (List.mem_filter.mp h).1)

/-- The texts, as a set. -/
def textsOf (texts : List String) : ItemSet := setOf (texts.map .text)

theorem text_mem_textsOf {texts : List String} {sig : String} : .text sig ∈ (textsOf texts).items ↔ sig ∈ texts := by
  refine text_mem_firsts.trans ?_
  simp

/-- Texts can be sorted, so that the comparison does not raise. -/
theorem exists_drift_textsOf (baseline live : Live) (texts : List String) :
    ∃ events, drift baseline live (textsOf texts) = .ok events := by
  have htext : ∀ a, Stale live (textsOf texts) a → ∃ sig, a = .text sig := by
    rintro a ⟨ha, -⟩
    obtain ⟨sig, -, rfl⟩ := List.mem_map.mp (mem_of_mem_firsts ha)
    exact ⟨sig, rfl⟩
  have hsort : Sortable live (textsOf texts) := by
    intro a b ha hb _
    obtain ⟨sig, rfl⟩ := htext a ha
    obtain ⟨sig', rfl⟩ := htext b hb
    rfl
  obtain ⟨hnot, -⟩ | ⟨-, _, _, -, -, hok⟩ := drift_cases baseline live (textsOf texts)
  · exact absurd hsort hnot
  · exact ⟨_, hok⟩

/-- The functions that the screens of a validated descriptor cover. -/
theorem coveredOf_validated {desc : Json} {descriptor : Descriptor}
    (h : validateDescriptor w.env (some desc) = .ok descriptor) :
    coveredOf desc = .ok (textsOf (descriptor.formats.map Prod.fst)) := by
  obtain ⟨hraw, formats, hformats, htyped⟩ := validateDescriptor_ok h
  obtain rfl := Option.some.inj hraw
  obtain ⟨display, hdisplay, hmembers⟩ := Option.bind_eq_some_iff.mp hformats
  have hget : ∀ {key : String} {v u : Json}, v.get? key = some u → getOr key (.obj []) v = .ok u := by
    intro key v u hv
    cases v with
    | obj members =>
      unfold getOr
      simp only
      rw [show Json.lookup key members = some u from hv]
      rfl
    | _ => cases hv
  have hkeys : formats.map Prod.fst = descriptor.formats.map Prod.fst := by
    refine List.forall₂_eq_eq_eq ▸ List.forall₂_map_left_iff.mpr (List.forall₂_map_right_iff.mpr (htyped.imp ?_))
    intro entry fmt hentry
    obtain ⟨fmt', -, hpure⟩ := bind_eq_ok.mp hentry
    cases hpure
    rfl
  have htexts : (formats.map (fun m => Json.str m.1)).mapM SetItem.ofJson =
      .ok ((formats.map Prod.fst).map SetItem.text) := by
    rw [List.map_map]
    refine mapM_eq_ok.mpr (List.forall₂_map_left_iff.mpr (List.forall₂_map_right_iff.mpr ?_))
    exact List.forall₂_same.mpr (fun _ _ => rfl)
  unfold coveredOf
  rw [hget hdisplay]
  show (getOr "formats" (.obj []) display >>= fun formats => iterate formats >>= fun keys =>
    keys.mapM SetItem.ofJson >>= fun items => pure (setOf items)) = _
  rw [hget hmembers, ← hkeys]
  show ((formats.map (fun m => Json.str m.1)).mapM SetItem.ofJson >>= fun items => pure (setOf items)) = _
  rw [htexts]
  rfl

/-- The report counts the table, and the part of it that has formats. -/
theorem audit_counts {abi : List AbiFunction} {formats : List (String × Format)} {report : AuditReport}
    (h : audit abi formats = .ok report) :
    report.signableFunctions = (signableTable (signableFunctions abi)).length ∧
      report.coveredFunctions = ((signableTable (signableFunctions abi)).map Prod.fst).countP
        (fun sig => decide (sig ∈ formats.map Prod.fst)) := by
  unfold audit at h
  obtain ⟨screens, -, h⟩ := bind_eq_ok.mp h
  obtain rfl := pure_eq_ok.mp h
  refine ⟨rfl, ?_⟩
  rw [List.countP_map, List.countP_eq_length_filter]
  refine congrArg List.length (List.filter_congr fun entry _ => ?_)
  rw [Bool.eq_iff_iff, List.any_eq_true, Function.comp_apply, decide_eq_true_eq, List.mem_map]
  simp only [beq_iff_eq]

/-- A function without a format is flagged. -/
theorem audit_flags {abi : List AbiFunction} {formats : List (String × Format)} {report : AuditReport}
    (h : audit abi formats = .ok report) {fn : AbiFunction} (hfn : fn ∈ signableFunctions abi)
    (hnone : signature fn ∉ formats.map Prod.fst) :
    missingFinding (signature fn) ∈ report.findings ∨ noncanonicalFinding (signature fn) ∈ report.findings := by
  obtain ⟨screens, hscreens, hreport⟩ := audit_eq_ok h
  obtain ⟨g, hg⟩ := exists_mem_signableTable.mpr ⟨fn, hfn, rfl⟩
  obtain ⟨own, hown, hturn⟩ := exists_of_mem_mapM hscreens hg
  unfold auditFunction at hturn
  simp only [assoc_eq_none_iff.mpr hnone] at hturn
  split_ifs at hturn
  · cases hturn
    exact .inr (hreport _ hown _ List.mem_cons_self)
  · cases hturn
    exact .inl (hreport _ hown _ List.mem_cons_self)

/-- **The alarms of the watcher are the gaps of the audit.**  The comparison does not raise; the audit counts the
functions that the watcher lists, and as covered those of which the watcher raises no alarm; it flags every other one as
blind-signed. -/
theorem drift_agrees_with_audit {abi desc : Json} {fns : List AbiFunction} {descriptor : Descriptor}
    {report : AuditReport} {sigs : List String} {covered : ItemSet} (baseline live : Live)
    (habi : validateAbi w.env abi = .ok fns) (hsigs : signableSigs w abi = .ok sigs)
    (hlive : live.signable = sortedSet sigs) (hdesc : validateDescriptor w.env (some desc) = .ok descriptor)
    (hcovered : coveredOf desc = .ok covered) (haudit : audit fns descriptor.formats = .ok report) :
    ∃ events, drift baseline live covered = .ok events ∧ report.signableFunctions = live.signable.length ∧
      report.coveredFunctions + (uncovered events).length = report.signableFunctions ∧
      ∀ sig ∈ uncovered events,
        missingFinding sig ∈ report.findings ∨ noncanonicalFinding sig ∈ report.findings := by
  obtain rfl := Except.ok.inj (hsigs.symm.trans (signableSigs_of_validated habi))
  obtain rfl := Except.ok.inj (hcovered.symm.trans (coveredOf_validated hdesc))
  obtain ⟨events, hdrift⟩ := exists_drift_textsOf baseline live (descriptor.formats.map Prod.fst)
  obtain ⟨hcount, hcovers⟩ := audit_counts haudit
  have htable := signableTable_perm (signableFunctions fns)
  rw [← hlive] at htable
  have hlength : report.signableFunctions = live.signable.length := by
    rw [hcount, ← htable.length_eq, List.length_map]
  have hgaps : (uncovered events).Perm
      (live.signable.filter (fun sig => !decide (sig ∈ descriptor.formats.map Prod.fst))) := by
    refine (List.perm_ext_iff_of_nodup (nodup_uncovered hdrift) ?_).mpr fun sig => ?_
    · exact (hlive ▸ nodup_sortedSet _ : live.signable.Nodup).filter _
    · rw [mem_uncovered, mem_drift hdrift, List.mem_filter, Drifts, text_mem_textsOf]
      simp
  refine ⟨events, hdrift, hlength, ?_, fun sig hsig => ?_⟩
  · rw [hcovers, htable.countP_eq, hgaps.length_eq, hlength, ← List.countP_eq_length_filter,
      List.length_eq_countP_add_countP (fun sig => decide (sig ∈ descriptor.formats.map Prod.fst))]
    simp
  · rw [mem_uncovered, mem_drift hdrift, Drifts, text_mem_textsOf] at hsig
    obtain ⟨hmem, hnot⟩ := hsig
    rw [hlive, mem_sortedSet] at hmem
    obtain ⟨fn, hfn, rfl⟩ := List.mem_map.mp hmem
    exact audit_flags haudit hfn hnot

/-! ## The function that was added later -/

def pauseAbi : Json := .arr (["pause", "sweep"].map functionJson)

def pauseDescriptor : Json := .obj [
  ("context", .obj [("contract", .obj [("abi", pauseAbi)])]),
  ("display", .obj [("formats", .obj [("pause()", .obj [("intent", .str "Pause"), ("fields", .arr [])])])])]

def pauseLive : Live := ⟨none, "0x00", ["pause()", "sweep()"]⟩

theorem pauseDescriptor_audited : (do
    let fns ← (validateAbi demoWatcher.env pauseAbi).toOption
    let descriptor ← (validateDescriptor demoWatcher.env (some pauseDescriptor)).toOption
    let report ← (audit fns descriptor.formats).toOption
    return report.coveredFunctions) = some 1 := by decide +kernel

theorem ok_of_toOption {ε α : Type} {x : Except ε α} {a : α} (h : x.toOption = some a) : x = .ok a := by
  cases x with
  | error e => cases h
  | ok b => exact congrArg Except.ok (Option.some.inj h)

/-- The audit covers one of two functions, and the watcher raises one alarm. -/
theorem drift_agrees_with_audit_sweep : ∃ fns descriptor report events,
    validateAbi demoWatcher.env pauseAbi = .ok fns ∧
      validateDescriptor demoWatcher.env (some pauseDescriptor) = .ok descriptor ∧
      audit fns descriptor.formats = .ok report ∧ report.coveredFunctions = 1 ∧
      drift pauseLive pauseLive (textsOf ["pause()"]) = .ok events ∧
      report.signableFunctions = pauseLive.signable.length ∧
      report.coveredFunctions + (uncovered events).length = report.signableFunctions ∧
      ∀ sig ∈ uncovered events, missingFinding sig ∈ report.findings ∨ noncanonicalFinding sig ∈ report.findings := by
  obtain ⟨fns, hfns, h⟩ := Option.bind_eq_some_iff.mp pauseDescriptor_audited
  obtain ⟨descriptor, hdescriptor, h⟩ := Option.bind_eq_some_iff.mp h
  obtain ⟨report, hreport, h⟩ := Option.bind_eq_some_iff.mp h
  have hcovered : coveredOf pauseDescriptor = .ok (textsOf ["pause()"]) := rfl
  have hsigs : (signableSigs demoWatcher pauseAbi).toOption = some ["pause()", "sweep()"] := by decide
  obtain ⟨events, hdrift, hall⟩ := drift_agrees_with_audit pauseLive pauseLive (ok_of_toOption hfns)
    (ok_of_toOption hsigs) (by decide) (ok_of_toOption hdescriptor) hcovered (ok_of_toOption hreport)
  exact ⟨fns, descriptor, report, events, ok_of_toOption hfns, ok_of_toOption hdescriptor, ok_of_toOption hreport,
    Option.some.inj h, hdrift, hall⟩

end Lucent.Attest
