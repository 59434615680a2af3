import Lucent.Preflight.Clearance
import Lucent.Preflight.Sentence

/-!
# Lucent.Preflight.Recipient — who is shown as the recipient

The role of a recipient goes to the first address whose name has a hint in it, and only the argument with the role
has to carry a recipient's label.

* `NamedRecipient`, `HintsRecipient`: a name that is one of the hints, and one that only contains one.
* `recipient_role_iff`: the role goes to an argument named as the recipient if and only if no address before the
  first one so named contains a hint.
* `recipient_label_iff`: only the recipient carries a recipient's label if and only if one visible field does.
-/

namespace Lucent.Preflight

open Lucent.Lib

/-! ## Names -/

/-- The hints of a recipient. -/
def recipientHints : List String := ["to", "recipient", "receiver", "destination", "dst"]

/-- The name, lower-cased and without outer underscores, is one of the hints. -/
def NamedRecipient (env : Env) (i : AbiInput) : Prop := i.hintName env ∈ recipientHints

/-- The name contains one of the hints. -/
def HintsRecipient (env : Env) (i : AbiInput) : Prop := ∃ hint ∈ recipientHints, hasText (i.hintName env) hint = true

instance (env : Env) (i : AbiInput) : Decidable (NamedRecipient env i) := inferInstanceAs (Decidable (_ ∈ _))

instance (env : Env) (i : AbiInput) : Decidable (HintsRecipient env i) :=
  inferInstanceAs (Decidable (∃ hint ∈ recipientHints, hasText (i.hintName env) hint = true))

/-- A call whose recipient is classified by the name hints of a transfer alone. -/
structure TransferClass (env : Env) (fn : AbiFunction) : Prop where
  transferLike : transferLike env fn = true
  not_approve : env.lower fn.name ≠ "approve"
  not_setApprovalForAll : env.lower fn.name ≠ "setapprovalforall"

/-- The input has the role of the recipient. -/
def RecipientRole (env : Env) (fn : AbiFunction) (i : AbiInput) : Prop :=
  roleOf (expectedInputRoles env fn) i.nameText = some .recipient

/-- No address before the first one named as the recipient contains a hint. -/
def NoEarlierHint (env : Env) (fn : AbiFunction) : Prop :=
  ∀ before i after, candidates fn "address" = before ++ i :: after → NamedRecipient env i →
    (∀ j ∈ before, ¬ NamedRecipient env j) → ∀ j ∈ before, ¬ HintsRecipient env j

/-- Where an address is named as the recipient, the input with the role is so named. -/
def RoleFollowsName (env : Env) (fn : AbiFunction) : Prop :=
  (∃ i ∈ candidates fn "address", NamedRecipient env i) →
    ∃ i ∈ fn.inputs, NamedRecipient env i ∧ ∀ j ∈ fn.inputs, RecipientRole env fn j ↔ j = i

theorem NamedRecipient.hints {env : Env} {i : AbiInput} (h : NamedRecipient env i) : HintsRecipient env i :=
  ⟨_, h, hasText_iff.mpr (List.infix_refl _)⟩

/-- The first element with `q` has `p`, where some element does, if and only if none before the first one with `p`
has `q`. -/
theorem find?_iff_none_before {α : Type} {l : List α} {p q : α → Bool} (hpq : ∀ a, p a = true → q a = true) {a : α}
    (hfind : l.find? q = some a) (hsome : ∃ b ∈ l, p b = true) :
    p a = true ↔ ∀ before b after, l = before ++ b :: after → p b = true → (∀ c ∈ before, ¬ p c = true) →
      ∀ c ∈ before, ¬ q c = true := by
  constructor
  · rintro hpa before b after rfl - hnone c hc hqc
    obtain ⟨d, hd⟩ := Option.isSome_iff_exists.mp (List.find?_isSome.mpr ⟨c, hc, hqc⟩)
    rw [List.find?_append, hd, Option.some_or] at hfind
    obtain rfl := Option.some.inj hfind
    exact hnone d (List.mem_of_find?_eq_some hd) hpa
  · intro h
    obtain ⟨b, hb⟩ := Option.isSome_iff_exists.mp (List.find?_isSome.mpr hsome)
    obtain ⟨hpb, before, after, rfl, hnone⟩ := List.find?_eq_some_iff_append.mp hb
    have hskip := h before b after rfl hpb fun c hc => by simpa using hnone c hc
    rw [List.find?_append, List.find?_eq_none.mpr hskip, Option.none_or, List.find?_cons_of_pos (hpq b hpb)] at hfind
    obtain rfl := Option.some.inj hfind
    exact hpb

/-! ## The role -/

section Role

variable {env : Env} {fn : AbiFunction}

theorem TransferClass.roles (h : TransferClass env fn) : expectedInputRoles env fn = transferRoles env fn := by
  unfold expectedInputRoles
  simp only [h.transferLike, if_true, beq_eq_false_iff_ne.mpr h.not_approve,
    beq_eq_false_iff_ne.mpr h.not_setApprovalForAll, Bool.false_eq_true, if_false]
  rfl

/-- The role goes to the input chosen for it, and to no other. -/
theorem roleOf_transferRoles (hfn : Selected fn) {name : String} :
    roleOf (transferRoles env fn) name = some .recipient ↔ (roleRecipient env fn).map AbiInput.nameText = some name := by
  constructor
  · intro h
    rcases mem_transferRoles (mem_of_assoc h) with ⟨-, hrole⟩ | ⟨hname, -⟩
    · exact nomatch hrole
    · exact hname
  · intro h
    obtain ⟨i, hi, rfl⟩ := Option.map_eq_some_iff.mp h
    unfold transferRoles
    rw [hi]
    rcases hamount : roleAmount env fn with _ | j
    · exact (assoc_cons ..).trans (if_pos rfl)
    · have hne := hfn.names_ne (mem_candidates_of_choose (by decide) hi) (mem_candidates_of_choose (by decide) hamount)
      show roleOf (setRole j.nameText .amount [(i.nameText, .recipient)]) i.nameText = some .recipient
      rw [setRole, if_neg (by simpa using hne)]
      exact (assoc_cons ..).trans (if_pos rfl)

/-- Another address has no role. -/
theorem roleOf_transferRoles_none (hfn : Selected fn) {i j : AbiInput} (hi : roleRecipient env fn = some i)
    (hj : j ∈ candidates fn "address") (hne : j ≠ i) : roleOf (transferRoles env fn) j.nameText = none := by
  by_contra hsome
  obtain ⟨role, hrole⟩ := Option.ne_none_iff_exists'.mp hsome
  rcases mem_transferRoles (mem_of_assoc hrole) with ⟨hname, -⟩ | ⟨hname, -⟩
  · obtain ⟨k, hk, hname⟩ := Option.map_eq_some_iff.mp hname
    exact hfn.names_ne hj (mem_candidates_of_choose (by decide) hk) hname.symm
  · rw [hi] at hname
    have hmem := mem_candidates_of_choose (by decide) hi
    exact hne (List.inj_on_of_nodup_map hfn.distinct (List.mem_filter.mp hj).1 (List.mem_filter.mp hmem).1
      (Option.some.inj hname).symm)

theorem TransferClass.recipientRole_iff (h : TransferClass env fn) (hfn : Selected fn) {i j : AbiInput}
    (hi : roleRecipient env fn = some i) (hj : j ∈ fn.inputs) : RecipientRole env fn j ↔ j = i := by
  rw [RecipientRole, h.roles, roleOf_transferRoles hfn, hi]
  refine ⟨fun hname => ?_, fun heq => heq ▸ rfl⟩
  exact List.inj_on_of_nodup_map hfn.distinct hj
    (List.mem_filter.mp (mem_candidates_of_choose (by decide) hi)).1 (Option.some.inj hname).symm

/-- The chosen input is named as the recipient exactly where no earlier address has a hint. -/
theorem named_roleRecipient_iff (hnamed : ∃ i ∈ candidates fn "address", NamedRecipient env i) :
    ∃ i, roleRecipient env fn = some i ∧ (NamedRecipient env i ↔ NoEarlierHint env fn) := by
  obtain ⟨k, hk, hkn⟩ := hnamed
  let p : AbiInput → Bool := fun i => decide (NamedRecipient env i)
  let q : AbiInput → Bool := fun i => recipientHints.any (hasText (i.hintName env) ·)
  have hp : ∀ i, p i = true ↔ NamedRecipient env i := fun i => decide_eq_true_iff
  have hq : ∀ i, q i = true ↔ HintsRecipient env i := fun i => List.any_eq_true
  have hfound : ((candidates fn "address").find? q).isSome = true :=
    List.find?_isSome.mpr ⟨k, hk, (hq k).mpr hkn.hints⟩
  obtain ⟨i, hi⟩ := Option.isSome_iff_exists.mp hfound
  have hchoose : roleRecipient env fn = ((candidates fn "address").find? q).or (candidates fn "address").head? := rfl
  refine ⟨i, by rw [hchoose, hi, Option.some_or], ?_⟩
  have hiff := find?_iff_none_before (fun a ha => (hq a).mpr ((hp a).mp ha).hints) hi ⟨k, hk, (hp k).mpr hkn⟩
  simp only [hp, hq] at hiff
  exact hiff

/-- **The role follows the name** exactly where no earlier address has a hint. -/
theorem roleFollowsName_iff (h : TransferClass env fn) (hfn : Selected fn) :
    RoleFollowsName env fn ↔ NoEarlierHint env fn := by
  by_cases hnamed : ∃ i ∈ candidates fn "address", NamedRecipient env i
  · obtain ⟨i, hi, hiff⟩ := named_roleRecipient_iff hnamed
    rw [← hiff]
    have hmem : i ∈ fn.inputs := (List.mem_filter.mp (mem_candidates_of_choose (by decide) hi)).1
    refine ⟨fun hfollows => ?_, fun hin _ => ⟨i, hmem, hin, fun j => h.recipientRole_iff hfn hi⟩⟩
    obtain ⟨j, hj, hjn, hrole⟩ := hfollows hnamed
    obtain rfl := (hrole i hmem).mp ((h.recipientRole_iff hfn hi hmem).mpr rfl)
    exact hjn
  · refine ⟨fun _ before i after heq hin => absurd ⟨i, ?_, hin⟩ hnamed, fun _ hex => absurd hex hnamed⟩
    rw [heq]
    exact List.mem_append_right _ List.mem_cons_self

end Role

/-! ## Labels of cleared calls -/

/-- A visible field of an argument under a label of a recipient. -/
def labelledRecipient (env : Env) (field : Field) : Bool :=
  field.universallyVisible && field.path.any (hasPrefix · "#.") &&
    labelMatchesRole env .recipient (field.label.getD "")

/-- The input is shown under a label of a recipient. -/
def ShownAsRecipient (env : Env) (fmt : Format) (i : AbiInput) : Prop :=
  ∃ field ∈ fmt.fields, labelledRecipient env field = true ∧ field.path = some ("#." ++ i.nameText)

/-- An argument of another name is shown as the recipient, and every address named as the recipient may carry any
label. -/
def ShowsMisnamed (env : Env) (fn : AbiFunction) (fmt : Format) : Prop :=
  ∃ i ∈ fn.inputs, ¬ NamedRecipient env i ∧ ShownAsRecipient env fmt i ∧
    (∃ j ∈ candidates fn "address", NamedRecipient env j) ∧
    ∀ j ∈ candidates fn "address", NamedRecipient env j → roleOf (expectedInputRoles env fn) j.nameText = none

/-- The visible arguments under a label of a recipient are the input with the role, and no other. -/
def OnlyRecipientLabelled (env : Env) (fn : AbiFunction) (fmt : Format) : Prop :=
  ∃ i ∈ fn.inputs, RecipientRole env fn i ∧ ∀ field ∈ fmt.fields, field.universallyVisible = true →
    field.path.any (hasPrefix · "#.") = true →
      (labelMatchesRole env .recipient (field.label.getD "") = true ↔ field.path = some ("#." ++ i.nameText))

section Cleared

variable {env : Env} {args : Json} {r : PreflightResult} {fmt : Format}

/-- What a cleared call says of its binding. -/
theorem cleared_binding (h : preflightTransaction env args = .ok r) (hsafe : r.verdict.gate = .safeToPresent)
    (hfmt : r.call.format = some fmt) : Selected r.call.function ∧ FormatOk fmt ∧
      bindingFindings env r.call.function fmt r.call.value (some r.call.decoded) = [] := by
  obtain ⟨-, haccepted, hassessed⟩ := preflightTransaction_ok h
  rw [hassessed.verdict] at hsafe
  obtain ⟨-, -, hbinding⟩ := finalVerdict_safe hsafe
  obtain ⟨json, hdescriptor⟩ := haccepted.descriptor
  obtain ⟨-, entry, -, hvalid⟩ := validateDescriptor_format hdescriptor hfmt
  rw [hassessed.binding, hfmt] at hbinding
  exact ⟨haccepted.selected, validateFormat_ok hvalid, hbinding⟩

/-- The input with the role of the recipient is shown under a label of one. -/
theorem shown_of_role (h : preflightTransaction env args = .ok r) (hsafe : r.verdict.gate = .safeToPresent)
    (hfmt : r.call.format = some fmt) {i : AbiInput} (hi : i ∈ r.call.function.inputs)
    (hrole : RecipientRole env r.call.function i) : ShownAsRecipient env fmt i := by
  obtain ⟨hfn, -, hbinding⟩ := cleared_binding h hsafe hfmt
  unfold bindingFindings at hbinding
  simp only [List.append_eq_nil_iff] at hbinding
  obtain ⟨-, -, hpath⟩ := coverage_eq_nil hbinding.1.1.2 hi
  obtain ⟨bound, hbound, hpath⟩ := List.mem_filterMap.mp hpath
  obtain ⟨field, hmem, rfl⟩ := List.mem_map.mp hbound
  have hshows := bindField_path hfn hi hpath
  have hlabel := bindField_label hfn hi hpath hrole
  refine ⟨field, hmem, ?_, hshows.path⟩
  have hprefixed : hasPrefix ("#." ++ i.nameText) "#." = true := by
    rw [hasPrefix, String.toList_append]
    exact List.isPrefixOf_iff_prefix.mpr (List.prefix_append _ _)
  rw [labelledRecipient, hshows.visible, hshows.path, Option.any_some, hprefixed, hlabel]
  rfl

/-- **Recipients of cleared calls**: the role follows the name, and no argument of another name is shown as the
recipient in its place, if and only if no address before the first one so named contains a hint. -/
theorem recipient_role_iff {fn : AbiFunction} (h : validateSelectedFunction fn = .ok ()) (hclass : TransferClass env fn) :
    (RoleFollowsName env fn ↔ NoEarlierHint env fn) ∧
    ∀ args r fmt, preflightTransaction env args = .ok r → r.verdict.gate = .safeToPresent → r.call.function = fn →
      r.call.format = some fmt → (¬ ShowsMisnamed env fn fmt ↔ NoEarlierHint env fn) := by
  have hfn := validateSelectedFunction_ok h
  refine ⟨roleFollowsName_iff hclass hfn, ?_⟩
  rintro args r fmt hr hsafe rfl hfmt
  rw [← roleFollowsName_iff hclass hfn]
  constructor
  · intro hnot hnamed
    obtain ⟨i, hi, -⟩ := named_roleRecipient_iff hnamed
    have hrole := fun {j} => @TransferClass.recipientRole_iff env _ hclass hfn i j hi
    have hmem : i ∈ r.call.function.inputs := (List.mem_filter.mp (mem_candidates_of_choose (by decide) hi)).1
    refine ⟨i, hmem, ?_, fun j => hrole⟩
    by_contra hin
    refine hnot ⟨i, hmem, hin, shown_of_role hr hsafe hfmt hmem ((hrole hmem).mpr rfl), hnamed, fun j hj hjn => ?_⟩
    rw [hclass.roles]
    exact roleOf_transferRoles_none hfn hi hj fun heq => hin (heq ▸ hjn)
  · rintro hfollows ⟨i, -, -, -, hnamed, hfree⟩
    obtain ⟨j, hj, hjn, hrole⟩ := hfollows hnamed
    obtain ⟨k, hk, -⟩ := named_roleRecipient_iff hnamed
    have hkc := mem_candidates_of_choose (by decide) hk
    obtain rfl : k = j :=
      (hrole k (List.mem_filter.mp hkc).1).mp ((hclass.recipientRole_iff hfn hk (List.mem_filter.mp hkc).1).mpr rfl)
    have hsome : RecipientRole env r.call.function k := (hrole k hj).mpr rfl
    exact nomatch hsome.symm.trans (hfree k hkc hjn)

/-- **Labels of cleared calls**: only the input with the role is under a label of a recipient if and only if at most
one visible argument is. -/
theorem recipient_label_iff (h : preflightTransaction env args = .ok r) (hsafe : r.verdict.gate = .safeToPresent)
    (hfmt : r.call.format = some fmt) (hrole : ∃ i ∈ r.call.function.inputs, RecipientRole env r.call.function i) :
    OnlyRecipientLabelled env r.call.function fmt ↔ fmt.fields.countP (labelledRecipient env) ≤ 1 := by
  obtain ⟨-, hok, -⟩ := cleared_binding h hsafe hfmt
  have hlabelled : ∀ field, labelledRecipient env field = true ↔ field.universallyVisible = true ∧
      field.path.any (hasPrefix · "#.") = true ∧ labelMatchesRole env .recipient (field.label.getD "") = true := by
    intro field
    rw [labelledRecipient, Bool.and_eq_true, Bool.and_eq_true, and_assoc]
  constructor
  · rintro ⟨i, hi, hir, hall⟩
    obtain ⟨shown, hmem, -, hpath⟩ := shown_of_role h hsafe hfmt hi hir
    have honly := filter_path_eq hok.distinct hmem hpath
    calc fmt.fields.countP (labelledRecipient env)
      _ ≤ fmt.fields.countP (fun field => field.path == some ("#." ++ i.nameText)) := by
          refine List.countP_mono_left fun field hfield hl => ?_
          obtain ⟨hvisible, hprefixed, hlabel⟩ := (hlabelled field).mp hl
          exact beq_iff_eq.mpr ((hall field hfield hvisible hprefixed).mp hlabel)
      _ = 1 := by rw [List.countP_eq_length_filter, honly, List.length_singleton]
  · intro hone
    obtain ⟨i, hi, hir⟩ := hrole
    obtain ⟨shown, hmem, hl, hpath⟩ := shown_of_role h hsafe hfmt hi hir
    refine ⟨i, hi, hir, fun field hfield hvisible hprefixed => ⟨fun hlabel => ?_, fun hname => ?_⟩⟩
    · have hfl := (hlabelled field).mpr ⟨hvisible, hprefixed, hlabel⟩
      rw [List.countP_eq_length_filter] at hone
      have hshown : shown ∈ fmt.fields.filter (labelledRecipient env) := List.mem_filter.mpr ⟨hmem, hl⟩
      obtain ⟨only, honly⟩ := List.length_eq_one_iff.mp (hone.antisymm (List.length_pos_of_mem hshown))
      have hin : field ∈ fmt.fields.filter (labelledRecipient env) := List.mem_filter.mpr ⟨hfield, hfl⟩
      rw [honly, List.mem_singleton] at hin hshown
      rw [hin, ← hshown, hpath]
    · have honly := filter_path_eq hok.distinct hmem hpath
      have hin : field ∈ fmt.fields.filter (fun other => other.path == some ("#." ++ i.nameText)) :=
        List.mem_filter.mpr ⟨hfield, beq_iff_eq.mpr hname⟩
      rw [honly] at hin
      rw [List.mem_singleton.mp hin]
      exact ((hlabelled shown).mp hl).2.2

end Cleared

/-! ## Two cleared calls -/

instance (env : Env) (fn : AbiFunction) (i : AbiInput) : Decidable (RecipientRole env fn i) :=
  inferInstanceAs (Decidable (_ = _))

instance (env : Env) (fmt : Format) (i : AbiInput) : Decidable (ShownAsRecipient env fmt i) :=
  inferInstanceAs (Decidable (∃ field ∈ fmt.fields, _ ∧ _))

instance (env : Env) (fn : AbiFunction) (fmt : Format) : Decidable (ShowsMisnamed env fn fmt) :=
  inferInstanceAs (Decidable (∃ i ∈ fn.inputs, _ ∧ _ ∧ (∃ j ∈ candidates fn "address", NamedRecipient env j) ∧
    ∀ j ∈ candidates fn "address", NamedRecipient env j → _ = _))

/-- `transferToken(token, recipient, amount)`, with the token under the label of the recipient. -/
def transferTokenRequest : Json :=
  callRequest "transferToken" "transferToken(address,address,uint256)"
    ("0xf5537ede" ++ "0000000000000000000000003333333333333333333333333333333333333333" ++
      "0000000000000000000000004444444444444444444444444444444444444444" ++
      "00000000000000000000000000000000000000000000000000000000000003e8")
    [inputJson "token" "address", inputJson "recipient" "address", inputJson "amount" "uint256"]
    [("intent", .str "Send tokens"), ("fields", .arr [fieldJson "#.token" "Recipient" "addressName",
      fieldJson "#.recipient" "Token" "addressName", fieldJson "#.amount" "Amount" "raw"])]

def transferTokenEnv : Env :=
  { demoEnv (hexOf "eff1e7177994bda2a3a73993ea380ade1567bbe5a5680ec0361d4470a17e067d") with
    keccak := fun data => if data = utf8 "transferToken(address,address,uint256)" then
      hexOf "f5537ede4763d97b5cf86d9eb6ae77ccd8560b8b2d4bd4503537c6b2996a7a9b" else [] }

theorem transferTokenRequest_answer : answers (fun r => decide (r.verdict.gate = .safeToPresent) &&
    (validateSelectedFunction r.call.function).isOk && transferLike transferTokenEnv r.call.function &&
    decide (transferTokenEnv.lower r.call.function.name = "transfertoken") &&
    r.call.format.any (fun fmt => decide (ShowsMisnamed transferTokenEnv r.call.function fmt)) &&
    r.call.function.inputs.any (fun i => decide (RecipientRole transferTokenEnv r.call.function i) &&
      !decide (NamedRecipient transferTokenEnv i)))
    (preflightTransaction transferTokenEnv transferTokenRequest) = true := by decide +kernel

theorem isOk_unit {x : Except Failure Unit} (h : x.isOk = true) : x = .ok () := by
  rcases x with e | u
  · exact nomatch h
  · rfl

/-- The call is cleared with the role, and the label, at the token. -/
theorem transferToken_misnamed : ∃ r fmt, preflightTransaction transferTokenEnv transferTokenRequest = .ok r ∧
    r.verdict.gate = .safeToPresent ∧ validateSelectedFunction r.call.function = .ok () ∧
      TransferClass transferTokenEnv r.call.function ∧ r.call.format = some fmt ∧
        ¬ RoleFollowsName transferTokenEnv r.call.function ∧ ShowsMisnamed transferTokenEnv r.call.function fmt := by
  obtain ⟨r, hr, hall⟩ := exists_of_answers transferTokenRequest_answer
  simp only [Bool.and_eq_true, decide_eq_true_eq, Option.any_eq_true, List.any_eq_true, Bool.not_eq_true',
    decide_eq_false_iff_not] at hall
  obtain ⟨⟨⟨⟨⟨hgate, hvalid⟩, hlike⟩, hname⟩, fmt, hfmt, hshows⟩, i, hi, hrole, hin⟩ := hall
  refine ⟨r, fmt, hr, hgate, isOk_unit hvalid, ⟨hlike, by rw [hname]; decide, by rw [hname]; decide⟩, hfmt, ?_, hshows⟩
  intro hfollows
  obtain ⟨-, -, -, -, hnamed, -⟩ := hshows
  obtain ⟨j, -, hjn, hiff⟩ := hfollows hnamed
  exact hin ((hiff i hi).mp hrole ▸ hjn)

theorem recipient_role_iff_transferToken : ∃ r, preflightTransaction transferTokenEnv transferTokenRequest = .ok r ∧
    ¬ NoEarlierHint transferTokenEnv r.call.function := by
  obtain ⟨r, hr, hall⟩ := exists_of_answers transferTokenRequest_answer
  simp only [Bool.and_eq_true, decide_eq_true_eq, Option.any_eq_true] at hall
  obtain ⟨⟨⟨⟨⟨hgate, hvalid⟩, hlike⟩, hname⟩, fmt, hfmt, hshows⟩, -⟩ := hall
  have hiff := (recipient_role_iff (isOk_unit hvalid)
    ⟨hlike, by rw [hname]; decide, by rw [hname]; decide⟩).2 _ r fmt hr hgate rfl hfmt
  exact ⟨r, hr, fun hnone => hiff.mpr hnone hshows⟩

/-- `transferFrom(from, to, amount)`, with two arguments under labels of a recipient. -/
def twoRecipientsRequest : Json :=
  callRequest "transferFrom" "transferFrom(address,address,uint256)"
    ("0x23b872dd" ++ "0000000000000000000000003333333333333333333333333333333333333333" ++
      "0000000000000000000000004444444444444444444444444444444444444444" ++
      "00000000000000000000000000000000000000000000000000000000000003e8")
    [inputJson "from" "address", inputJson "to" "address", inputJson "amount" "uint256"]
    [("intent", .str "Send tokens"), ("fields", .arr [fieldJson "#.from" "Receiver" "addressName",
      fieldJson "#.to" "To" "addressName", fieldJson "#.amount" "Amount" "raw"])]

def twoRecipientsEnv : Env := demoEnv (hexOf "cb6f9809ad8ce1d2cc1c36c78fa13ca6ab20883ced9c72e6ed16d448db05193b")

theorem twoRecipientsRequest_answer : answers (fun r => decide (r.verdict.gate = .safeToPresent) &&
    r.call.function.inputs.any (fun i => decide (RecipientRole twoRecipientsEnv r.call.function i)) &&
    r.call.format.any (fun fmt => decide (2 ≤ fmt.fields.countP (labelledRecipient twoRecipientsEnv)) &&
      r.call.function.inputs.any (fun i => i.name == some "from" &&
        !decide (RecipientRole twoRecipientsEnv r.call.function i) && decide (ShownAsRecipient twoRecipientsEnv fmt i))))
    (preflightTransaction twoRecipientsEnv twoRecipientsRequest) = true := by decide +kernel

/-- The call is cleared with its sender under the label of a recipient. -/
theorem transferFrom_two_recipients : ∃ r fmt, preflightTransaction twoRecipientsEnv twoRecipientsRequest = .ok r ∧
    r.verdict.gate = .safeToPresent ∧ r.call.format = some fmt ∧
      (∃ i ∈ r.call.function.inputs, RecipientRole twoRecipientsEnv r.call.function i) ∧
        (∃ i ∈ r.call.function.inputs, i.name = some "from" ∧ ShownAsRecipient twoRecipientsEnv fmt i) ∧
          ¬ OnlyRecipientLabelled twoRecipientsEnv r.call.function fmt := by
  obtain ⟨r, hr, hall⟩ := exists_of_answers twoRecipientsRequest_answer
  simp only [Bool.and_eq_true, decide_eq_true_eq, Option.any_eq_true, List.any_eq_true, Bool.not_eq_true',
    decide_eq_false_iff_not, beq_iff_eq] at hall
  obtain ⟨⟨hgate, hrole⟩, fmt, hfmt, -, i, hi, ⟨hname, hother⟩, hshown⟩ := hall
  refine ⟨r, fmt, hr, hgate, hfmt, hrole, ⟨i, hi, hname, hshown⟩, ?_⟩
  rintro ⟨j, -, hjr, honly⟩
  obtain ⟨field, hmem, hlabelled, hpath⟩ := hshown
  rw [labelledRecipient, Bool.and_eq_true, Bool.and_eq_true] at hlabelled
  obtain ⟨⟨hvisible, hprefixed⟩, hlabel⟩ := hlabelled
  have heq := Option.some.inj (hpath.symm.trans ((honly field hmem hvisible hprefixed).mp hlabel))
  have hnames : i.nameText = j.nameText := (String.append_right_inj "#.").mp heq
  exact hother (by rw [RecipientRole, hnames]; exact hjr)

theorem recipient_label_iff_transferFrom : ∃ r fmt,
    preflightTransaction twoRecipientsEnv twoRecipientsRequest = .ok r ∧ r.call.format = some fmt ∧
      ¬ OnlyRecipientLabelled twoRecipientsEnv r.call.function fmt := by
  obtain ⟨r, hr, hall⟩ := exists_of_answers twoRecipientsRequest_answer
  simp only [Bool.and_eq_true, decide_eq_true_eq, Option.any_eq_true, List.any_eq_true] at hall
  obtain ⟨⟨hgate, i, hi, hrole⟩, fmt, hfmt, htwo, -⟩ := hall
  exact ⟨r, fmt, hr, hfmt, fun honly => absurd ((recipient_label_iff hr hgate hfmt ⟨i, hi, hrole⟩).mp honly) (by omega)⟩

end Lucent.Preflight
