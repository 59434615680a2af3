import Lucent.Preflight.Clearance

/-!
# Lucent.Preflight.Sentence — the arguments a sentence names

The sentence of `classify` and the role map choose arguments by name hints, from different lists of hints.  Both take
the first input of a type with a hint, or else the first input of the type (`pick`).

* `SameChoice`: two lists of hints lead to the same input.
* `sentence_roles_iff`: the sentence of a transfer, or of an allowance, names the inputs with the roles if and only if
  the hints lead to the same inputs.
-/

namespace Lucent.Preflight

open Lucent.Lib

/-! ## Picking an input -/

/-- The name of the input has one of the hints in it. -/
def hinted (env : Env) (hints : List String) (i : AbiInput) : Bool := hints.any (hasText (i.lowerName env) ·)

/-- The first input with a hint, or else the first input. -/
def pick (env : Env) (items : List AbiInput) (hints : List String) : Option AbiInput :=
  (items.find? (hinted env hints)).or items.head?

/-- The first input with one of the hints `wide` also has one of the hints `narrow`; or it is the first of all, and
no input has one of the hints `narrow`. -/
def SameChoice (env : Env) (items : List AbiInput) (wide narrow : List String) : Prop :=
  ∀ i, items.find? (hinted env wide) = some i →
    hinted env narrow i = true ∨ (items.head? = some i ∧ ∀ j ∈ items, hinted env narrow j = false)

/-- Two searches with the same fallback find the same, where the second one looks for more. -/
theorem find?_or_head?_eq_iff {α : Type} {l : List α} {p q : α → Bool} (hpq : ∀ a, p a = true → q a = true) :
    (l.find? p).or l.head? = (l.find? q).or l.head? ↔
      ∀ a, l.find? q = some a → p a = true ∨ (l.head? = some a ∧ ∀ b ∈ l, p b = false) := by
  rcases hq : l.find? q with _ | a
  · have hp : l.find? p = none := by
      refine List.find?_eq_none.mpr fun b hb hpb => ?_
      exact List.find?_eq_none.mp hq b hb (hpq b hpb)
    rw [hp]
    exact ⟨fun _ => nofun, fun _ => rfl⟩
  · obtain ⟨hqa, pre, post, rfl, hpre⟩ := List.find?_eq_some_iff_append.mp hq
    have hskip : ∀ b ∈ pre, ¬ p b = true := by
      intro b hb hpb
      have hnot := hpre b hb
      rw [hpq b hpb] at hnot
      exact nomatch hnot
    have hfind : (pre ++ a :: post).find? p = (a :: post).find? p := by
      rw [List.find?_append, List.find?_eq_none.mpr hskip, Option.none_or]
    rw [hfind, Option.some_or]
    by_cases hpa : p a = true
    · rw [List.find?_cons_of_pos hpa]
      refine ⟨fun _ b hb => .inl ?_, fun _ => rfl⟩
      exact Option.some.inj hb ▸ hpa
    · rw [List.find?_cons_of_neg hpa]
      rcases hpost : post.find? p with _ | b
      · rw [Option.none_or]
        refine ⟨fun hhead c hc => .inr ⟨hhead.trans hc, fun d hd => ?_⟩, fun h => ?_⟩
        · rcases List.mem_append.mp hd with hd | hd
          · exact Bool.eq_false_iff.mpr (hskip d hd)
          · rcases List.mem_cons.mp hd with rfl | hd
            · exact Bool.eq_false_iff.mpr hpa
            · exact Bool.eq_false_iff.mpr (List.find?_eq_none.mp hpost d hd)
        · exact (h a rfl).elim (fun hcon => absurd hcon hpa) (·.1)
      · have hpb := List.find?_some hpost
        rw [Option.some_or]
        refine ⟨fun heq => absurd (Option.some.inj heq ▸ hpb) hpa, fun h => ?_⟩
        rcases h a rfl with hcon | ⟨-, hall⟩
        · exact absurd hcon hpa
        · have hmem : b ∈ pre ++ a :: post :=
            List.mem_append_right _ (List.mem_cons_of_mem _ (List.mem_of_find?_eq_some hpost))
          rw [hall b hmem] at hpb
          exact nomatch hpb

theorem pick_eq_iff (env : Env) (items : List AbiInput) {wide narrow : List String} (h : narrow ⊆ wide) :
    pick env items narrow = pick env items wide ↔ SameChoice env items wide narrow := by
  refine find?_or_head?_eq_iff fun i hi => ?_
  obtain ⟨hint, hmem, htext⟩ := List.any_eq_true.mp hi
  exact List.any_eq_true.mpr ⟨hint, h hmem, htext⟩

theorem pick_mem {env : Env} {items : List AbiInput} {hints : List String} {i : AbiInput}
    (h : pick env items hints = some i) : i ∈ items := by
  rcases Option.or_eq_some_iff.mp h with h | ⟨-, h⟩
  · exact List.mem_of_find?_eq_some h
  · exact List.mem_of_mem_head? h

/-! ## The hints of the roles -/

/-- A hint that neither starts nor ends with an underscore. -/
def plainHint (hint : String) : Bool :=
  hint.toList.head?.any (· != '_') && hint.toList.getLast?.any (· != '_')

/-- Outer underscores do not matter to a plain hint. -/
theorem hasText_hintName {env : Env} {i : AbiInput} {hint : String} (h : plainHint hint = true) :
    hasText (i.hintName env) hint = hasText (i.lowerName env) hint := by
  obtain ⟨hhead, hlast⟩ := (Bool.and_eq_true _ _).mp h
  obtain ⟨first, hhead, hf⟩ := (Option.any_eq_true _ _).mp hhead
  obtain ⟨last, hlast, hl⟩ := (Option.any_eq_true _ _).mp hlast
  exact hasText_stripChars hhead hlast (by simpa using hf) (by simpa using hl) _

theorem choose_eq_pick {env : Env} {items : List AbiInput} {hints : List String} (h : hints.all plainHint = true) :
    choose env items hints = pick env items hints := by
  have hname : ∀ i : AbiInput, hints.any (hasText (i.hintName env) ·) = hinted env hints i := by
    intro i
    rw [Bool.eq_iff_iff, hinted, List.any_eq_true, List.any_eq_true]
    refine exists_congr fun hint => and_congr_right fun hmem => ?_
    rw [hasText_hintName (List.all_eq_true.mp h hint hmem)]
  simp only [choose, pick, hname]

/-- `_has_input` looks for a canonical type, `candidates` for a declared one; for scalars that is the same. -/
theorem hasPrefix_canonicalType {i : AbiInput} {typePrefix : String} (htuple : hasPrefix "tuple" typePrefix = false)
    (hparen : hasPrefix "(" typePrefix = false) (hself : hasPrefix typePrefix "(" = false)
    (hother : hasPrefix typePrefix "tuple" = false) :
    hasPrefix (canonicalType i) typePrefix = hasPrefix i.type typePrefix := by
  obtain ⟨name, abiType, components⟩ := i
  rw [canonicalType]
  split_ifs with h
  · rw [String.append_assoc, String.append_assoc, hasPrefix_append_eq_false hparen hself, hasPrefix_eq h,
      hasPrefix_append_eq_false htuple hother]
  · rfl

/-- The two types the sentences and the roles are about. -/
def scalarPrefix (typePrefix : String) : Bool :=
  ["tuple", "("].all (fun start => !hasPrefix start typePrefix && !hasPrefix typePrefix start)

theorem hasPrefix_canonical_eq {typePrefix : String} (h : scalarPrefix typePrefix = true) (i : AbiInput) :
    hasPrefix (canonicalType i) typePrefix = hasPrefix i.type typePrefix := by
  simp only [scalarPrefix, List.all_cons, List.all_nil, Bool.and_true, Bool.and_eq_true, Bool.not_eq_true'] at h
  exact hasPrefix_canonicalType h.1.1 h.2.1 h.2.2 h.1.2

theorem hasInput_eq_pick (env : Env) (fn : AbiFunction) {typePrefix : String} (h : scalarPrefix typePrefix = true) :
    hasInput fn typePrefix = pick env (candidates fn typePrefix) [] := by
  have hnone : (candidates fn typePrefix).find? (hinted env []) = none := List.find?_eq_none.mpr fun _ _ => nofun
  rw [pick, hnone, Option.none_or, candidates, List.head?_filter, hasInput]
  simp only [hasPrefix_canonical_eq h]

theorem hasInputNamed_eq_pick (env : Env) (fn : AbiFunction) {typePrefix : String} (h : scalarPrefix typePrefix = true)
    (hint : String) :
    (hasInputNamed env fn typePrefix hint).or (hasInput fn typePrefix) = pick env (candidates fn typePrefix) [hint] := by
  rw [pick, candidates, List.find?_filter, List.head?_filter, hasInput, hasInputNamed]
  simp only [hasPrefix_canonical_eq h, hinted, List.any_cons, List.any_nil, Bool.or_false, Bool.decide_and,
    Bool.decide_eq_true]

/-! ## The role map -/

theorem mem_of_inputOf {roles : List (String × Role)} {role : Role} {name : String}
    (h : inputOf roles role = some name) : (name, role) ∈ roles := by
  obtain ⟨⟨n, r⟩, hfind, rfl⟩ := Option.map_eq_some_iff.mp h
  have hrole : (r == role) = true := List.find?_some (p := fun entry : String × Role => entry.2 == role) hfind
  obtain rfl : r = role := beq_iff_eq.mp hrole
  exact List.mem_reverse.mp (List.mem_of_find?_eq_some hfind)

/-- A role that was just given to an input is that input's, unless an earlier key has it too. -/
theorem inputOf_setRole_self {roles : List (String × Role)} {name : String} {role : Role}
    (h : ∀ other, (other, role) ∈ roles → other = name ∨ ∀ r, (name, r) ∉ roles) :
    inputOf (setRole name role roles) role = some name := by
  unfold setRole
  split_ifs with hkey
  · obtain ⟨⟨n, r⟩, hmem, hn⟩ := List.any_eq_true.mp hkey
    obtain rfl : n = name := beq_iff_eq.mp hn
    have hset : (n, role) ∈ roles.map (fun entry => if entry.1 == n then (n, role) else entry) :=
      List.mem_map.mpr ⟨(n, r), hmem, by rw [if_pos (beq_self_eq_true n)]⟩
    have hsome : (inputOf (roles.map (fun entry => if entry.1 == n then (n, role) else entry)) role).isSome = true := by
      rw [inputOf, Option.isSome_map, List.find?_isSome]
      exact ⟨(n, role), List.mem_reverse.mpr hset, beq_self_eq_true role⟩
    obtain ⟨other, hother⟩ := Option.isSome_iff_exists.mp hsome
    rw [hother]
    obtain ⟨⟨m, r'⟩, hm, heq⟩ := List.mem_map.mp (mem_of_inputOf hother)
    split_ifs at heq with hmn
    · exact congrArg some (Prod.mk.inj heq).1.symm
    · cases heq
      rcases h other hm with rfl | hnone
      · rfl
      · exact absurd hmem (hnone r)
  · rw [inputOf, List.reverse_append, List.reverse_singleton, List.singleton_append, List.find?_cons_of_pos]
    · rfl
    · exact beq_self_eq_true role

theorem mem_assignRole {i : Option AbiInput} {role role' : Role} {roles : List (String × Role)} {name : String}
    (h : (name, role') ∈ assignRole i role roles) :
    (i.map AbiInput.nameText = some name ∧ role' = role) ∨ (name, role') ∈ roles := by
  rcases i with _ | i
  · exact .inr h
  · unfold assignRole setRole at h
    dsimp only at h
    split_ifs at h with hkey
    · obtain ⟨entry, hentry, heq⟩ := List.mem_map.mp h
      split_ifs at heq with hn
      · exact .inl ⟨congrArg some (Prod.mk.inj heq).1, (Prod.mk.inj heq).2.symm⟩
      · exact .inr (heq ▸ hentry)
    · rcases List.mem_append.mp h with h | h
      · exact .inr h
      · obtain ⟨rfl, rfl⟩ := Prod.mk.inj (List.mem_singleton.mp h)
        exact .inl ⟨rfl, rfl⟩

/-! ## The roles of a call -/

section Roles

variable {env : Env} {fn : AbiFunction}

theorem mem_candidates_of_choose {items : List AbiInput} {hints : List String} {i : AbiInput}
    (hplain : hints.all plainHint = true) (h : choose env items hints = some i) : i ∈ items := by
  rw [choose_eq_pick hplain] at h
  exact pick_mem h

theorem choose_eq_none {items : List AbiInput} {hints : List String} (h : choose env items hints = none) :
    items = [] := List.head?_eq_none_iff.mp (Option.or_eq_none_iff.mp h).2

/-- An address and an unsigned integer are two inputs, so they have two names. -/
theorem Selected.names_ne (hfn : Selected fn) {i j : AbiInput} (hi : i ∈ candidates fn "address")
    (hj : j ∈ candidates fn "uint") : i.nameText ≠ j.nameText := by
  obtain ⟨hi, hti⟩ := List.mem_filter.mp hi
  obtain ⟨hj, htj⟩ := List.mem_filter.mp hj
  intro hname
  obtain rfl : i = j := List.inj_on_of_nodup_map hfn.distinct hi hj hname
  rw [hasPrefix_eq hti, hasPrefix_append_eq_false (by decide) (by decide)] at htj
  exact nomatch htj

/-- The roles of a call that is like a transfer. -/
def transferRoles (env : Env) (fn : AbiFunction) : List (String × Role) :=
  assignRole (roleAmount env fn) .amount (assignRole (roleRecipient env fn) .recipient [])

theorem mem_transferRoles {name : String} {role : Role} (h : (name, role) ∈ transferRoles env fn) :
    ((roleAmount env fn).map AbiInput.nameText = some name ∧ role = .amount) ∨
      ((roleRecipient env fn).map AbiInput.nameText = some name ∧ role = .recipient) := by
  rcases mem_assignRole h with h | h
  · exact .inl h
  · rcases mem_assignRole h with h | h
    · exact .inr h
    · exact absurd h List.not_mem_nil

/-- **Roles of a transfer**: the recipient and the amount are the inputs chosen for them. -/
theorem inputOf_transferRoles {R A : String}
    (hR : inputOf (transferRoles env fn) .recipient = some R) (hA : inputOf (transferRoles env fn) .amount = some A) :
    (roleRecipient env fn).map AbiInput.nameText = some R ∧ (roleAmount env fn).map AbiInput.nameText = some A := by
  refine ⟨?_, ?_⟩
  · rcases mem_transferRoles (mem_of_inputOf hR) with ⟨-, h⟩ | ⟨h, -⟩
    · exact nomatch h
    · exact h
  · rcases mem_transferRoles (mem_of_inputOf hA) with ⟨h, -⟩ | ⟨-, h⟩
    · exact h
    · exact nomatch h

/-- The roles of an approval, over those of a payable one. -/
theorem expectedInputRoles_approve (hname : env.lower fn.name = "approve") : ∃ base,
    (base = [] ∨ base = transferRoles env fn) ∧ expectedInputRoles env fn =
      assignRole (roleNumeric env fn) (if (roleNumeric env fn).any (namesToken env) then .tokenId else .amount)
        (assignRole (roleSpender env fn)
          (if (roleNumeric env fn).any (namesToken env) then .recipient else .spender) base) := by
  refine ⟨if transferLike env fn then transferRoles env fn else [], ?_, ?_⟩
  · split_ifs
    · exact .inr rfl
    · exact .inl rfl
  · unfold expectedInputRoles
    rw [hname]
    rfl

/-- **Roles of an approval**: the spender and the amount are the inputs chosen for them. -/
theorem inputOf_approveRoles (hfn : Selected fn) (hname : env.lower fn.name = "approve") {S A : String}
    (hS : inputOf (expectedInputRoles env fn) .spender = some S)
    (hA : inputOf (expectedInputRoles env fn) .amount = some A) :
    (roleSpender env fn).map AbiInput.nameText = some S ∧ (roleNumeric env fn).map AbiInput.nameText = some A := by
  obtain ⟨base, hbase, hroles⟩ := expectedInputRoles_approve hname
  have hmem : ∀ {name : String} {role : Role}, (name, role) ∈ base →
      ((roleAmount env fn).map AbiInput.nameText = some name ∧ role = .amount) ∨
        ((roleRecipient env fn).map AbiInput.nameText = some name ∧ role = .recipient) := by
    rcases hbase with rfl | rfl
    · exact fun h => absurd h List.not_mem_nil
    · exact mem_transferRoles
  rw [hroles] at hS hA
  have hspender : (roleSpender env fn).map AbiInput.nameText = some S ∧
      (roleNumeric env fn).any (namesToken env) = false := by
    rcases mem_assignRole (mem_of_inputOf hS) with ⟨-, h⟩ | h
    · split_ifs at h
    · rcases mem_assignRole h with ⟨h, hrole⟩ | h
      · split_ifs at hrole with htoken
        exact ⟨h, Bool.eq_false_iff.mpr htoken⟩
      · rcases hmem h with ⟨-, h⟩ | ⟨-, h⟩ <;> exact nomatch h
  obtain ⟨hspender, htoken⟩ := hspender
  refine ⟨hspender, ?_⟩
  rw [htoken] at hA
  rcases hnumeric : roleNumeric env fn with _ | j
  · -- without an unsigned integer no input has the role of an amount
    exfalso
    have hnone : roleAmount env fn = none := by
      have hitems : candidates fn "uint" = [] := choose_eq_none hnumeric
      rw [roleAmount, choose, hitems]
      rfl
    rw [hnumeric] at hA
    rcases mem_assignRole (mem_of_inputOf hA) with ⟨h, -⟩ | h
    · exact nomatch h
    · rcases mem_assignRole h with ⟨-, h⟩ | h
      · exact nomatch h
      · rcases hmem h with ⟨h, -⟩ | ⟨-, h⟩
        · rw [hnone] at h
          exact nomatch h
        · exact nomatch h
  · have hj := mem_candidates_of_choose (by decide) hnumeric
    have haddress : ∀ {o : Option AbiInput}, (∀ i, o = some i → i ∈ candidates fn "address") →
        o.map AbiInput.nameText ≠ some j.nameText := by
      intro o ho h
      obtain ⟨i, hi, hname⟩ := Option.map_eq_some_iff.mp h
      exact hfn.names_ne (ho i hi) hj hname
    have hself : inputOf (setRole j.nameText .amount (assignRole (roleSpender env fn) .spender base)) .amount =
        some j.nameText := by
      -- another amount is the one of a payable call, and then no key before it is the name of `j`
      refine inputOf_setRole_self fun other hother => ?_
      rcases mem_assignRole hother with ⟨-, h⟩ | hother
      · exact nomatch h
      · rcases hmem hother with ⟨hamount, -⟩ | ⟨-, h⟩
        · by_cases heq : other = j.nameText
          · exact .inl heq
          · refine .inr fun r hr => ?_
            rcases mem_assignRole hr with ⟨h, -⟩ | hr
            · exact haddress (fun i => mem_candidates_of_choose (by decide)) h
            · rcases hmem hr with ⟨h, -⟩ | ⟨h, -⟩
              · exact heq (Option.some.inj (hamount.symm.trans h))
              · exact haddress (fun i => mem_candidates_of_choose (by decide)) h
        · exact nomatch h
    rw [hnumeric] at hA
    exact hself.symm.trans hA

end Roles

/-! ## Sentences -/

/-- The sentence of a transfer of `amount` to `recipient`. -/
def sendSentence (amount recipient : String) : String :=
  "You send " ++ braces amount ++ " to " ++ braces recipient ++ " now."

/-- The sentence of an allowance of `amount` for `spender`. -/
def spendSentence (spender amount : String) : String :=
  "You let " ++ braces spender ++ " spend up to " ++ braces amount ++
    " of your tokens on your behalf, until you change or revoke it."

theorem brace_not_mem {text : String} (h : isIdentifier text = true) : '}' ∉ text.toList := by
  intro hmem
  unfold isIdentifier at h
  split at h
  · exact nomatch h
  · rename_i first rest htext
    rw [htext] at hmem
    obtain ⟨hfirst, hrest⟩ := (Bool.and_eq_true _ _).mp h
    rcases List.mem_cons.mp hmem with rfl | hmem
    · exact absurd hfirst (by decide)
    · exact absurd (List.all_eq_true.mp hrest _ hmem) (by decide)

/-- A quoted name can be read off a text. -/
theorem braces_append_inj {a a' rest rest' : String} (ha : isIdentifier a = true) (ha' : isIdentifier a' = true)
    (h : braces a ++ rest = braces a' ++ rest') : a = a' ∧ rest = rest' := by
  have hlist := congrArg String.toList h
  have hbrace : "\x7d".toList = ['}'] := by decide
  simp only [braces, String.toList_append, List.append_assoc, List.append_cancel_left_eq, hbrace,
    List.singleton_append] at hlist
  obtain ⟨hname, hrest⟩ := append_cons_inj (brace_not_mem ha) (brace_not_mem ha') hlist
  exact ⟨String.toList_inj.mp hname, String.toList_inj.mp hrest⟩

/-- A text around two quoted names determines them. -/
theorem quoted_inj (start middle final : String) {a a' b b' : String}
    (ha : isIdentifier a = true) (ha' : isIdentifier a' = true)
    (hb : isIdentifier b = true) (hb' : isIdentifier b' = true) :
    start ++ braces a ++ middle ++ braces b ++ final = start ++ braces a' ++ middle ++ braces b' ++ final ↔
      a = a' ∧ b = b' := by
  refine ⟨fun h => ?_, ?_⟩
  · simp only [String.append_assoc] at h
    obtain ⟨hname, h⟩ := braces_append_inj ha ha' (append_left_cancel_iff.mp h)
    exact ⟨hname, (braces_append_inj hb hb' (append_left_cancel_iff.mp h)).1⟩
  · rintro ⟨rfl, rfl⟩
    rfl

section Sentences

variable {env : Env} {fn : AbiFunction} {fmt : Option Format}

theorem Selected.party_eq (hfn : Selected fn) {i : AbiInput} (hi : i ∈ fn.inputs) (default phrase : String) :
    party (some i) default phrase = .ok (braces i.nameText) := by
  have hne : i.nameText.isEmpty = false := String.isEmpty_eq_false_iff.mpr (isIdentifier_ne_empty (hfn.identifier i hi))
  have hkey : i.nameKey = .ok i.nameText := by rw [AbiInput.nameKey, hfn.named i hi]
  rw [party, hkey]
  exact congrArg Except.ok (by rw [lbl, if_neg (Bool.eq_false_iff.mp hne)])

/-- A function whose inputs have names raises nothing about them. -/
theorem Selected.recipientShownRaw_ok (hfn : Selected fn) : ∃ raw, recipientShownRaw fn fmt = .ok raw := by
  unfold recipientShownRaw
  split
  · exact ⟨_, rfl⟩
  · rename_i fmt' _
    have hnamed : ∀ i ∈ fn.inputs, i.name = some i.nameText := hfn.named
    generalize fn.inputs = inputs at hnamed
    induction inputs with
    | nil => exact ⟨false, rfl⟩
    | cons i inputs ih =>
      obtain ⟨raw, hraw⟩ := ih fun j hj => hnamed j (List.mem_cons_of_mem _ hj)
      have hkey : i.nameKey = .ok i.nameText := by rw [AbiInput.nameKey, hnamed i List.mem_cons_self]
      rw [recipientShownRaw.go]
      split_ifs
      · rw [hkey]
        simp only [bind, Except.bind]
        split
        · exact ⟨true, rfl⟩
        · split_ifs
          · exact ⟨true, rfl⟩
          · exact ⟨raw, hraw⟩
      · exact ⟨raw, hraw⟩

theorem classify_transfer (hfn : Selected fn) (hcase : consequence env fn fmt = .transfer)
    (hpayable : fn.declaredPayable = false) {i j : AbiInput} (hi : i ∈ fn.inputs) (hj : j ∈ fn.inputs)
    (hto : transferRecipient env fn = some i) (hamount : transferAmount env fn = some j) :
    ∃ c, classify env fn fmt = .ok c ∧ c.sentence = sendSentence j.nameText i.nameText := by
  obtain ⟨raw, hraw⟩ : ∃ raw, recipientShownRaw fn fmt = .ok raw := hfn.recipientShownRaw_ok
  unfold classify
  rw [hcase]
  simp only [hto, hfn.party_eq hi, sentAmount, hpayable, hamount, hfn.party_eq hj, hraw]
  exact ⟨_, rfl, rfl⟩

theorem classify_allowance (hfn : Selected fn) (hcase : consequence env fn fmt = .allowance) {i j : AbiInput}
    (hi : i ∈ fn.inputs) (hj : j ∈ fn.inputs) (hspender : hasInput fn "address" = some i)
    (hamount : hasInput fn "uint" = some j) :
    ∃ c, classify env fn fmt = .ok c ∧ c.sentence = spendSentence i.nameText j.nameText := by
  unfold classify
  rw [hcase]
  simp only [hspender, hfn.party_eq hi, hamount, hfn.party_eq hj]
  exact ⟨_, rfl, rfl⟩

end Sentences

/-! ## Sentences and roles -/

section Agreement

variable {env : Env} {fn : AbiFunction}

theorem consequence_transfer {fmt : Option Format} (h : consequence env fn fmt = .transfer) :
    expectedInputRoles env fn = transferRoles env fn := by
  unfold consequence at h
  dsimp only at h
  split_ifs at h with hset happrove _ _ _ hlike
  rw [Bool.or_eq_true, not_or, beq_iff_eq] at hset
  simp only [Bool.or_eq_true, not_or, beq_iff_eq] at happrove
  have hlike' : transferLike env fn = true := hlike
  unfold expectedInputRoles
  rw [hlike']
  dsimp only
  rw [if_neg (by simpa using hset.1), if_neg (by simpa using happrove.1.1), if_pos (Eq.refl _)]
  rfl

theorem pick_some {items : List AbiInput} {wide : List String} {i : AbiInput}
    (h : pick env items wide = some i) (narrow : List String) : ∃ j, pick env items narrow = some j := by
  refine Option.isSome_iff_exists.mp ?_
  rw [pick, Option.isSome_or, Bool.or_eq_true]
  right
  rcases items with _ | ⟨j, items⟩
  · exact absurd (pick_mem h) List.not_mem_nil
  · rfl

/-- Of the inputs of a type, the two picks have one name if and only if the hints lead to the same input. -/
theorem Selected.names_eq_iff (hfn : Selected fn) {typePrefix : String} {wide narrow : List String}
    (hsub : narrow ⊆ wide) {i j : AbiInput} (hi : pick env (candidates fn typePrefix) wide = some i)
    (hj : pick env (candidates fn typePrefix) narrow = some j) :
    j.nameText = i.nameText ↔ SameChoice env (candidates fn typePrefix) wide narrow := by
  have hmem : ∀ {k : AbiInput}, k ∈ candidates fn typePrefix → k ∈ fn.inputs := fun hk => (List.mem_filter.mp hk).1
  rw [← pick_eq_iff env _ hsub, hi, hj, Option.some.injEq]
  refine ⟨fun hname => ?_, congrArg _⟩
  exact List.inj_on_of_nodup_map hfn.distinct (hmem (pick_mem hj)) (hmem (pick_mem hi)) hname

theorem sendSentence_iff (hfn : Selected fn) {fmt : Option Format} (hcase : consequence env fn fmt = .transfer)
    (hpayable : fn.declaredPayable = false) {R A : String}
    (hR : inputOf (expectedInputRoles env fn) .recipient = some R)
    (hA : inputOf (expectedInputRoles env fn) .amount = some A) :
    (∃ c, classify env fn fmt = .ok c ∧ c.sentence = sendSentence A R) ↔
      SameChoice env (candidates fn "address") ["to", "recipient", "receiver", "destination", "dst"] ["to"] ∧
        SameChoice env (candidates fn "uint") ["amount", "value", "quantity", "qty"] ["amount"] := by
  rw [consequence_transfer hcase] at hR hA
  obtain ⟨hR, hA⟩ := inputOf_transferRoles hR hA
  obtain ⟨i, hi, rfl⟩ := Option.map_eq_some_iff.mp hR
  obtain ⟨j, hj, rfl⟩ := Option.map_eq_some_iff.mp hA
  rw [roleRecipient, choose_eq_pick (by decide)] at hi
  rw [roleAmount, choose_eq_pick (by decide)] at hj
  obtain ⟨i', hi'⟩ := pick_some hi ["to"]
  obtain ⟨j', hj'⟩ := pick_some hj ["amount"]
  have hmem : ∀ {k : AbiInput} {t : String}, k ∈ candidates fn t → k ∈ fn.inputs := fun hk => (List.mem_filter.mp hk).1
  have hid : ∀ {k : AbiInput} {t : String}, k ∈ candidates fn t → isIdentifier k.nameText = true :=
    fun hk => hfn.identifier _ (hmem hk)
  have hto : transferRecipient env fn = some i' := (hasInputNamed_eq_pick env fn (by decide) "to").trans hi'
  have hamount : transferAmount env fn = some j' := (hasInputNamed_eq_pick env fn (by decide) "amount").trans hj'
  obtain ⟨c, hc, hsentence⟩ :=
    classify_transfer hfn hcase hpayable (hmem (pick_mem hi')) (hmem (pick_mem hj')) hto hamount
  have hquoted := quoted_inj "You send " " to " " now." (hid (pick_mem hj'))
    (hid (pick_mem hj)) (hid (pick_mem hi')) (hid (pick_mem hi))
  rw [hfn.names_eq_iff (by decide) hj hj', hfn.names_eq_iff (by decide) hi hi'] at hquoted
  rw [and_comm, ← hquoted]
  refine ⟨?_, fun h => ⟨c, hc, hsentence.trans h⟩⟩
  rintro ⟨c', hc', hsame⟩
  obtain rfl : c = c' := Except.ok.inj (hc.symm.trans hc')
  exact hsentence.symm.trans hsame

theorem spendSentence_iff (hfn : Selected fn) {fmt : Option Format} (hcase : consequence env fn fmt = .allowance)
    (hname : env.lower fn.name = "approve") {S A : String}
    (hS : inputOf (expectedInputRoles env fn) .spender = some S)
    (hA : inputOf (expectedInputRoles env fn) .amount = some A) :
    (∃ c, classify env fn fmt = .ok c ∧ c.sentence = spendSentence S A) ↔
      SameChoice env (candidates fn "address") ["spender", "to", "operator"] [] ∧
        SameChoice env (candidates fn "uint") ["amount", "allowance", "tokenid", "token_id"] [] := by
  obtain ⟨hS, hA⟩ := inputOf_approveRoles hfn hname hS hA
  obtain ⟨i, hi, rfl⟩ := Option.map_eq_some_iff.mp hS
  obtain ⟨j, hj, rfl⟩ := Option.map_eq_some_iff.mp hA
  rw [roleSpender, choose_eq_pick (by decide)] at hi
  rw [roleNumeric, choose_eq_pick (by decide)] at hj
  obtain ⟨i', hi'⟩ := pick_some hi []
  obtain ⟨j', hj'⟩ := pick_some hj []
  have hmem : ∀ {k : AbiInput} {t : String}, k ∈ candidates fn t → k ∈ fn.inputs := fun hk => (List.mem_filter.mp hk).1
  have hid : ∀ {k : AbiInput} {t : String}, k ∈ candidates fn t → isIdentifier k.nameText = true :=
    fun hk => hfn.identifier _ (hmem hk)
  have hspender : hasInput fn "address" = some i' := (hasInput_eq_pick env fn (by decide)).trans hi'
  have hamount : hasInput fn "uint" = some j' := (hasInput_eq_pick env fn (by decide)).trans hj'
  obtain ⟨c, hc, hsentence⟩ :=
    classify_allowance hfn hcase (hmem (pick_mem hi')) (hmem (pick_mem hj')) hspender hamount
  have hquoted := quoted_inj "You let " " spend up to "
    " of your tokens on your behalf, until you change or revoke it." (hid (pick_mem hi'))
    (hid (pick_mem hi)) (hid (pick_mem hj')) (hid (pick_mem hj))
  rw [hfn.names_eq_iff (by decide) hj hj', hfn.names_eq_iff (by decide) hi hi'] at hquoted
  rw [← hquoted]
  refine ⟨?_, fun h => ⟨c, hc, hsentence.trans h⟩⟩
  rintro ⟨c', hc', hsame⟩
  obtain rfl : c = c' := Except.ok.inj (hc.symm.trans hc')
  exact hsentence.symm.trans hsame

end Agreement

/-- **Sentences and roles**: where a function has the roles, the sentence of a transfer that is not payable, and the
sentence of an allowance granted by `approve`, name the inputs with the roles if and only if the hints of the sentence
and those of the roles lead to the same inputs. -/
theorem sentence_roles_iff {env : Env} {fn : AbiFunction} (h : validateSelectedFunction fn = .ok ())
    (fmt : Option Format) :
    (consequence env fn fmt = .transfer → fn.declaredPayable = false →
      ∀ R A, inputOf (expectedInputRoles env fn) .recipient = some R →
        inputOf (expectedInputRoles env fn) .amount = some A →
        ((∃ c, classify env fn fmt = .ok c ∧ c.sentence = sendSentence A R) ↔
          SameChoice env (candidates fn "address") ["to", "recipient", "receiver", "destination", "dst"] ["to"] ∧
            SameChoice env (candidates fn "uint") ["amount", "value", "quantity", "qty"] ["amount"])) ∧
    (consequence env fn fmt = .allowance → env.lower fn.name = "approve" →
      ∀ S A, inputOf (expectedInputRoles env fn) .spender = some S →
        inputOf (expectedInputRoles env fn) .amount = some A →
        ((∃ c, classify env fn fmt = .ok c ∧ c.sentence = spendSentence S A) ↔
          SameChoice env (candidates fn "address") ["spender", "to", "operator"] [] ∧
            SameChoice env (candidates fn "uint") ["amount", "allowance", "tokenid", "token_id"] [])) := by
  have hfn := validateSelectedFunction_ok h
  exact ⟨fun hcase hpayable _ _ hR hA => sendSentence_iff hfn hcase hpayable hR hA,
    fun hcase hname _ _ hS hA => spendSentence_iff hfn hcase hname hS hA⟩

/-- `transferFrom(sender, recipient, amount)`, and a screen that shows all of it. -/
def transferFromFunction : AbiFunction :=
  ⟨"transferFrom", [⟨some "sender", "address", []⟩, ⟨some "recipient", "address", []⟩, ⟨some "amount", "uint256", []⟩],
    some "nonpayable", none⟩

def transferFromFormat : Format :=
  ⟨false, [⟨some "#.sender", some "Sender", some "addressName", none, none⟩,
    ⟨some "#.recipient", some "Recipient", some "addressName", none, none⟩,
    ⟨some "#.amount", some "Amount", some "raw", none, none⟩], some "Send tokens", none⟩

/-- The sentence says that the tokens go to `sender`. -/
theorem classify_transferFrom : ∃ c, classify (demoEnv []) transferFromFunction (some transferFromFormat) = .ok c ∧
    c.tier = .medium ∧ c.sentence = "You send \x7bamount\x7d to \x7bsender\x7d now." :=
  ⟨_, rfl, by decide +kernel, by decide +kernel⟩

/-- The recipient is `recipient`, and the sentence names another one. -/
theorem transferFrom_sentence : validateSelectedFunction transferFromFunction = .ok () ∧
    consequence (demoEnv []) transferFromFunction (some transferFromFormat) = .transfer ∧
    transferFromFunction.declaredPayable = false ∧
    inputOf (expectedInputRoles (demoEnv []) transferFromFunction) .recipient = some "recipient" ∧
    inputOf (expectedInputRoles (demoEnv []) transferFromFunction) .amount = some "amount" ∧
    ∃ c, classify (demoEnv []) transferFromFunction (some transferFromFormat) = .ok c ∧ c.tier = .medium ∧
      c.sentence = "You send \x7bamount\x7d to \x7bsender\x7d now." ∧
      c.sentence ≠ sendSentence "amount" "recipient" := by
  obtain ⟨c, hc, htier, hsentence⟩ := classify_transferFrom
  refine ⟨rfl, by decide +kernel, by decide +kernel, by decide +kernel, by decide +kernel, c, hc, htier, hsentence, ?_⟩
  rw [hsentence]
  decide +kernel

/-- The hints of its sentence do not lead to the inputs with the roles. -/
theorem sentence_roles_iff_transferFrom :
    ¬ (SameChoice (demoEnv []) (candidates transferFromFunction "address")
        ["to", "recipient", "receiver", "destination", "dst"] ["to"] ∧
      SameChoice (demoEnv []) (candidates transferFromFunction "uint") ["amount", "value", "quantity", "qty"]
        ["amount"]) := by
  intro hsame
  have hiff := (@sentence_roles_iff (demoEnv []) transferFromFunction rfl (some transferFromFormat)).1
    (by decide +kernel) (by decide +kernel) "recipient" "amount" (by decide +kernel) (by decide +kernel)
  obtain ⟨c, hc, hroles⟩ := hiff.mpr hsame
  obtain ⟨c', hc', -, hsentence⟩ := classify_transferFrom
  obtain rfl : c = c' := Except.ok.inj (hc.symm.trans hc')
  exact absurd (hsentence.symm.trans hroles) (by decide +kernel)

end Lucent.Preflight
