import Lucent.Preflight.Audit

/-!
# Lucent.Preflight.FormatKey — format keys with parameter names

* `SpellsType`, `SpellsParam`, `SpellsParams`, `Spells`: the human spellings of a signature, with names and blanks.
* `Nested`: texts whose parentheses match; the two loops that count parentheses pass over them.
* `canonicalKey_of_spells`: `_canonical_key` takes every spelling of a signature to the signature.
* `audit_reports_iff`: when the audit reports that the format of a function is keyed non-canonically.
-/

namespace Lucent.Preflight

open Lucent.Lib

/-! ## The human spelling of a signature -/

def Blank (text : List Char) : Prop := ∀ c ∈ text, isSpace c = true

/-- Array suffixes, with or without a length. -/
def arraySuffix (lengths : List (Option ℕ)) : List Char :=
  lengths.flatMap fun length => '[' :: (length.elim [] (Nat.toDigits 10)) ++ [']']

/-- Nothing, or blanks and an identifier. -/
def Named (name : List Char) : Prop :=
  name = [] ∨ ∃ blanks ident, blanks ≠ [] ∧ Blank blanks ∧ isIdentifier ident = true ∧ name = blanks ++ ident.toList

mutual

/-- A type as it is written in a parameter list: an elementary one by its name, a tuple by its components. -/
inductive SpellsType : AbiInput → List Char → Prop
  | elementary (name : Option String) {base : List Char} (lengths : List (Option ℕ)) (components : List AbiInput)
      (hbase : base ≠ []) (halnum : ∀ c ∈ base, c.isAlphanum = true)
      (htuple : hasPrefix (String.ofList (base ++ arraySuffix lengths)) "tuple" = false) :
      SpellsType ⟨name, String.ofList (base ++ arraySuffix lengths), components⟩ (base ++ arraySuffix lengths)
  | tuple (name : Option String) (lengths : List (Option ℕ)) {components : List AbiInput} {params : List Char}
      (hparams : SpellsParams components params) :
      SpellsType ⟨name, String.ofList ("tuple".toList ++ arraySuffix lengths), components⟩
        ('(' :: params ++ ')' :: arraySuffix lengths)

/-- A parameter: its type, perhaps followed by a name, with blanks around it. -/
inductive SpellsParam : AbiInput → List Char → Prop
  | mk {before after name text : List Char} {i : AbiInput} (hbefore : Blank before) (htype : SpellsType i text)
      (hname : Named name) (hafter : Blank after) : SpellsParam i (before ++ (text ++ name) ++ after)

/-- Parameters, separated by commas. -/
inductive SpellsParams : List AbiInput → List Char → Prop
  | nil : SpellsParams [] []
  | single {i : AbiInput} {text : List Char} (h : SpellsParam i text) : SpellsParams [i] text
  | cons {i : AbiInput} {text : List Char} (h : SpellsParam i text) {next : AbiInput} {rest : List AbiInput}
      {others : List Char} (hothers : SpellsParams (next :: rest) others) :
      SpellsParams (i :: next :: rest) (text ++ ',' :: others)

end

/-- A spelling of the signature of a function. -/
def Spells (fn : AbiFunction) (key : String) : Prop :=
  isIdentifier fn.name = true ∧ ∃ params, SpellsParams fn.inputs params ∧
    key = String.ofList (fn.name.toList ++ '(' :: params ++ [')'])

/-! ## Characters -/

/-- A character of a word: no blank, no parenthesis, no comma. -/
def isWordChar (c : Char) : Bool := !isSpace c && c != '(' && c != ')' && c != ','

theorem isWordChar_of_isAlphanum {c : Char} (h : c.isAlphanum = true) : isWordChar c = true := by
  have hrange := alphanum_range h
  have hne : ∀ d : Char, c.toNat ≠ d.toNat → c ≠ d := fun d hd heq => hd (congrArg Char.toNat heq)
  have hspace : isSpace c = false := by
    simp only [isSpace, List.contains_eq_mem, List.mem_cons, List.not_mem_nil, or_false, decide_eq_false_iff_not]
    omega
  simp only [isWordChar, hspace, Bool.not_false, Bool.true_and, Bool.and_eq_true, bne_iff_ne]
  refine ⟨⟨hne _ ?_, hne _ ?_⟩, hne _ ?_⟩
  · show c.toNat ≠ 40
    omega
  · show c.toNat ≠ 41
    omega
  · show c.toNat ≠ 44
    omega

theorem isWordChar_of_mem_identifier {ident : String} (h : isIdentifier ident = true) {c : Char}
    (hc : c ∈ ident.toList) : isWordChar c = true := by
  have hword : ∀ c, (c.isAlphanum || c == '_' || c == '$') = true → isWordChar c = true := by
    intro c hc
    simp only [Bool.or_eq_true, beq_iff_eq] at hc
    rcases hc with (hc | rfl) | rfl
    · exact isWordChar_of_isAlphanum hc
    · decide
    · decide
  unfold isIdentifier at h
  rcases hl : ident.toList with _ | ⟨first, rest⟩
  · rw [hl] at hc
    exact absurd hc List.not_mem_nil
  · rw [hl] at h hc
    simp only [Bool.and_eq_true, List.all_eq_true] at h
    rcases List.mem_cons.mp hc with rfl | hc
    · refine hword c ?_
      have hfirst := h.1
      simp only [Bool.or_eq_true] at hfirst ⊢
      exact hfirst.imp_left (Or.imp_left fun halpha => by simp [Char.isAlphanum, halpha])
    · exact hword c (h.2 c hc)

theorem isWordChar_of_mem_arraySuffix {lengths : List (Option ℕ)} {c : Char} (hc : c ∈ arraySuffix lengths) :
    isWordChar c = true := by
  obtain ⟨length, -, hc⟩ := List.mem_flatMap.mp hc
  rw [List.cons_append] at hc
  rcases List.mem_cons.mp hc with rfl | hc
  · decide
  · rcases List.mem_append.mp hc with hc | hc
    · rcases length with _ | n
      · exact absurd hc List.not_mem_nil
      · exact isWordChar_of_isAlphanum (by
          simp [Char.isAlphanum, Nat.isDigit_of_mem_toDigits (by decide) (by decide) hc])
    · rw [List.mem_singleton.mp hc]
      decide

theorem isSpace_of_isWordChar {c : Char} (h : isWordChar c = true) : isSpace c = false := by
  simp only [isWordChar, Bool.and_eq_true, Bool.not_eq_true'] at h
  exact h.1.1.1

/-- Blanks are no parentheses and no commas. -/
theorem ne_of_isSpace {c : Char} (h : isSpace c = true) : c ≠ '(' ∧ c ≠ ')' ∧ c ≠ ',' := by
  refine ⟨?_, ?_, ?_⟩ <;> (rintro rfl; exact absurd h (by decide))

/-! ## Matching parentheses -/

/-- Parentheses match; outside of them there is a comma only if `commas`. -/
inductive Nested : Bool → List Char → Prop
  | nil {commas : Bool} : Nested commas []
  | plain {commas : Bool} {c : Char} {text : List Char} (hopen : c ≠ '(') (hclose : c ≠ ')')
      (hcomma : c = ',' → commas = true) (h : Nested commas text) : Nested commas (c :: text)
  | group {commas : Bool} {inner text : List Char} (hinner : Nested true inner) (h : Nested commas text) :
      Nested commas ('(' :: inner ++ ')' :: text)

namespace Nested

variable {commas : Bool} {text text' : List Char}

theorem append (h : Nested commas text) (h' : Nested commas text') : Nested commas (text ++ text') := by
  induction h with
  | nil => exact h'
  | plain hopen hclose hcomma _ ih => exact .plain hopen hclose hcomma (ih h')
  | @group _ inner text hinner _ _ ih =>
    rw [List.append_assoc, List.cons_append]
    exact .group hinner (ih h')

theorem mono (h : Nested false text) : Nested true text := by
  generalize hcommas : false = commas at h
  induction h with
  | nil => exact .nil
  | plain hopen hclose _ _ ih => exact .plain hopen hclose (fun _ => rfl) (ih hcommas)
  | group hinner _ _ ih => exact .group hinner (ih hcommas)

theorem of_plain (h : ∀ c ∈ text, c ≠ '(' ∧ c ≠ ')' ∧ c ≠ ',') : Nested commas text := by
  induction text with
  | nil => exact .nil
  | cons c text ih =>
    obtain ⟨hopen, hclose, hcomma⟩ := h c List.mem_cons_self
    exact .plain hopen hclose (fun heq => absurd heq hcomma) (ih fun d hd => h d (List.mem_cons_of_mem c hd))

theorem of_word (h : ∀ c ∈ text, isWordChar c = true) : Nested commas text := by
  refine of_plain fun c hc => ?_
  have hword := h c hc
  simp only [isWordChar, Bool.and_eq_true, bne_iff_ne] at hword
  exact ⟨hword.1.1.2, hword.1.2, hword.2⟩

theorem of_blank (h : Blank text) : Nested commas text := of_plain fun c hc => ne_of_isSpace (h c hc)

/-- `_split_top` passes over a nested text. -/
theorem splitTopPieces_append (h : Nested commas text) {depth : ℤ} (hdepth : 0 ≤ depth)
    (hcommas : commas = true → 1 ≤ depth) (current rest : List Char) :
    splitTopPieces depth current (text ++ rest) = splitTopPieces depth (text.reverse ++ current) rest := by
  induction h generalizing depth current rest with
  | nil => rfl
  | @plain commas c text hopen hclose hcomma _ ih =>
    have hsplit : ¬ (c = ',' ∧ depth = 0) := by
      rintro ⟨rfl, rfl⟩
      exact absurd (hcommas (hcomma rfl)) (by decide)
    rw [List.cons_append, splitTopPieces, if_neg hopen, if_neg hclose, if_neg hsplit, ih hdepth hcommas]
    simp
  | @group commas inner text _ _ ihinner ih =>
    rw [List.cons_append, List.cons_append, List.append_assoc, splitTopPieces, if_pos rfl,
      ihinner (by omega) (fun _ => by omega), List.cons_append, splitTopPieces, if_neg (by decide), if_pos rfl,
      show depth + 1 - 1 = depth by omega, ih hdepth hcommas]
    simp

/-- The count of a leading group passes over a nested text. -/
theorem leadingGroup_append (h : Nested commas text) {depth : ℤ} (hdepth : 1 ≤ depth) (group rest : List Char) :
    leadingGroup depth group (text ++ rest) = leadingGroup depth (text.reverse ++ group) rest := by
  induction h generalizing depth group rest with
  | nil => rfl
  | @plain commas c text hopen hclose _ _ ih =>
    have hkeep : depth + (if c = '(' then 1 else 0) - (if c = ')' then 1 else 0) = depth := by
      rw [if_neg hopen, if_neg hclose]
      omega
    rw [List.cons_append, leadingGroup, hkeep, if_neg (by omega), ih hdepth]
    simp
  | @group commas inner text _ _ ihinner ih =>
    have hopen : depth + (if '(' = '(' then 1 else 0) - (if '(' = ')' then 1 else 0) = depth + 1 := by
      rw [if_pos rfl, if_neg (by decide)]
      omega
    have hclose : depth + 1 + (if ')' = '(' then 1 else 0) - (if ')' = ')' then 1 else 0) = depth := by
      rw [if_pos rfl, if_neg (by decide)]
      omega
    rw [List.cons_append, List.cons_append, List.append_assoc, leadingGroup, hopen, if_neg (by omega),
      ihinner (by omega), List.cons_append, leadingGroup, hclose, if_neg (by omega), ih hdepth]
    simp

/-- The group a text starts with. -/
theorem leadingGroup_group {inner rest : List Char} (h : Nested true inner) :
    leadingGroup 0 [] ('(' :: inner ++ ')' :: rest) = some (inner, rest) := by
  have hopen : (0 : ℤ) + (if '(' = '(' then 1 else 0) - (if '(' = ')' then 1 else 0) = 1 := by decide
  have hclose : (1 : ℤ) + (if ')' = '(' then 1 else 0) - (if ')' = ')' then 1 else 0) = 0 := by decide
  rw [List.cons_append, leadingGroup, hopen, if_neg (by decide), h.leadingGroup_append le_rfl, leadingGroup, hclose,
    if_pos rfl]
  simp

end Nested

theorem Named.nested {name : List Char} (h : Named name) {commas : Bool} : Nested commas name := by
  obtain rfl | ⟨blanks, ident, -, hblanks, hident, rfl⟩ := h
  · exact .nil
  · exact (Nested.of_blank hblanks).append (.of_word fun c hc => isWordChar_of_mem_identifier hident hc)

mutual

theorem SpellsType.nested {i : AbiInput} {text : List Char} : SpellsType i text → Nested false text
  | .elementary _ lengths _ _ halnum _ =>
    (Nested.of_word fun c hc => isWordChar_of_isAlphanum (halnum c hc)).append
      (.of_word fun _ hc => isWordChar_of_mem_arraySuffix hc)
  | .tuple _ lengths hparams => .group hparams.nested (.of_word fun _ hc => isWordChar_of_mem_arraySuffix hc)

theorem SpellsParam.nested {i : AbiInput} {text : List Char} : SpellsParam i text → Nested false text
  | .mk hbefore htype hname hafter =>
    ((Nested.of_blank hbefore).append (htype.nested.append hname.nested)).append (.of_blank hafter)

theorem SpellsParams.nested {inputs : List AbiInput} {text : List Char} : SpellsParams inputs text → Nested true text
  | .nil => .nil
  | .single h => h.nested.mono
  | .cons h hothers => h.nested.mono.append (.plain (by decide) (by decide) (fun _ => rfl) hothers.nested)

end

/-! ## Components without their names -/

/-- The text of a type begins and ends with a character that is no blank. -/
theorem SpellsType.bounds {i : AbiInput} {text : List Char} (h : SpellsType i text) :
    (∃ c rest, text = c :: rest ∧ isSpace c = false) ∧ ∃ front c, text = front ++ [c] ∧ isSpace c = false := by
  have hsuffix : ∀ lengths, arraySuffix lengths = [] ∨ ∃ front, arraySuffix lengths = front ++ [']'] := by
    intro lengths
    rcases List.eq_nil_or_concat lengths with rfl | ⟨front, length, rfl⟩
    · exact .inl rfl
    · exact .inr ⟨arraySuffix front ++ '[' :: (length.elim [] (Nat.toDigits 10)), by simp [arraySuffix]⟩
  cases h with
  | @elementary _ base lengths _ hbase halnum _ =>
    constructor
    · obtain ⟨c, rest, rfl⟩ := List.exists_cons_of_ne_nil hbase
      exact ⟨c, _, List.cons_append, isSpace_of_isWordChar (isWordChar_of_isAlphanum (halnum c List.mem_cons_self))⟩
    · obtain hnil | ⟨front, hfront⟩ := hsuffix lengths
      · obtain ⟨front, c, rfl⟩ := (List.eq_nil_or_concat base).resolve_left hbase
        have hc := halnum c (by simp)
        exact ⟨front, c, by rw [hnil, List.append_nil, List.concat_eq_append],
          isSpace_of_isWordChar (isWordChar_of_isAlphanum hc)⟩
      · exact ⟨base ++ front, ']', by rw [hfront, List.append_assoc], by decide⟩
  | @tuple _ lengths components params hparams =>
    constructor
    · exact ⟨'(', _, List.cons_append, by decide⟩
    · obtain hnil | ⟨front, hfront⟩ := hsuffix lengths
      · exact ⟨'(' :: params, ')', by rw [hnil], by decide⟩
      · exact ⟨'(' :: params ++ ')' :: front, ']', by rw [hfront]; simp, by decide⟩

theorem dropWhile_blank {blank rest : List Char} (h : Blank blank) {c : Char} (hc : isSpace c = false) :
    (blank ++ c :: rest).dropWhile isSpace = c :: rest := by
  rw [List.dropWhile_append_of_pos h, List.dropWhile_cons_of_neg (by simp [hc])]

/-- Blanks around a text are stripped. -/
theorem stripSpace_blank {before after text : List Char} (hbefore : Blank before) (hafter : Blank after)
    (hfirst : ∃ c rest, text = c :: rest ∧ isSpace c = false) (hlast : ∃ front c, text = front ++ [c] ∧ isSpace c = false) :
    stripSpace (before ++ text ++ after) = text := by
  obtain ⟨c, rest, htext, hc⟩ := hfirst
  obtain ⟨front, d, htext', hd⟩ := hlast
  have hleft : (before ++ text ++ after).dropWhile isSpace = text ++ after := by
    rw [htext, List.append_assoc, List.cons_append, dropWhile_blank hbefore hc]
  have hright : (text ++ after).reverse.dropWhile isSpace = text.reverse := by
    rw [List.reverse_append, htext', List.reverse_append, List.reverse_singleton, List.singleton_append,
      dropWhile_blank (fun x hx => hafter x (List.mem_reverse.mp hx)) hd]
  rw [stripSpace, hleft, hright, List.reverse_reverse]

/-- The end of a name, or of the type before it, is no blank. -/
theorem Named.bound {name text : List Char} (hname : Named name)
    (hlast : ∃ front c, text = front ++ [c] ∧ isSpace c = false) :
    ∃ front c, text ++ name = front ++ [c] ∧ isSpace c = false := by
  obtain rfl | ⟨blanks, ident, -, -, hident, rfl⟩ := hname
  · rwa [List.append_nil]
  · rcases List.eq_nil_or_concat ident.toList with hnil | ⟨front, c, hident'⟩
    · rw [isIdentifier, hnil] at hident
      exact nomatch hident
    · refine ⟨text ++ (blanks ++ front), c, by rw [hident']; simp, ?_⟩
      exact isSpace_of_isWordChar (isWordChar_of_mem_identifier hident (by rw [hident']; simp))

/-- The first word of a text. -/
theorem runs_append {word rest : List Char} (hword : ∀ c ∈ word, isSpace c = false)
    (hrest : ∀ c, rest.head? = some c → isSpace c = true) {run : List Char} (hne : run ++ word ≠ []) :
    (runs isSpace run (word ++ rest)).head? = some (run.reverse ++ word) := by
  induction word generalizing run with
  | nil =>
    rw [List.append_nil] at hne
    have hempty : run.isEmpty = false := by simpa using hne
    rcases rest with _ | ⟨c, rest⟩
    · simp [runs, hempty]
    · simp [runs, hempty, hrest c rfl]
  | cons c word ih =>
    have hc := hword c List.mem_cons_self
    rw [List.cons_append, runs, hc, if_neg Bool.false_ne_true,
      ih (fun d hd => hword d (List.mem_cons_of_mem c hd)) (List.append_ne_nil_of_left_ne_nil (List.cons_ne_nil _ _) _)]
    simp

theorem firstWord_append {word name : List Char} (hne : word ≠ []) (hword : ∀ c ∈ word, isSpace c = false)
    (hname : Named name) : firstWord (word ++ name) = word := by
  have hhead : ∀ c, name.head? = some c → isSpace c = true := by
    intro c hc
    obtain rfl | ⟨blanks, ident, hblanks, hspace, -, rfl⟩ := hname
    · exact nomatch hc
    · rw [List.head?_append_of_ne_nil _ hblanks] at hc
      exact hspace c (List.mem_of_head? hc)
  rw [firstWord, runs_append hword hhead (by simpa using hne)]
  rfl

/-- A name starts no array suffix. -/
theorem Named.head? {name : List Char} (hname : Named name) : name.head? ≠ some '[' := by
  obtain rfl | ⟨blanks, ident, hblanks, hspace, -, rfl⟩ := hname
  · exact nofun
  · rw [List.head?_append_of_ne_nil _ hblanks]
    intro h
    exact absurd (hspace '[' (List.mem_of_head? h)) (by decide)

/-- The array suffix behind a group, without the name. -/
theorem suffix_append (lengths : List (Option ℕ)) {name : List Char} (hname : Named name) :
    (if (arraySuffix lengths ++ name).head? = some '[' then firstWord (arraySuffix lengths ++ name) else []) =
      arraySuffix lengths := by
  rcases lengths with _ | ⟨length, lengths⟩
  · exact if_neg hname.head?
  · have hhead : (arraySuffix (length :: lengths) ++ name).head? = some '[' := rfl
    rw [if_pos hhead]
    exact firstWord_append (List.cons_ne_nil _ _)
      (fun c hc => isSpace_of_isWordChar (isWordChar_of_mem_arraySuffix hc)) hname

/-- What `_split_top` makes of a parameter, alone and in front of others. -/
theorem splitTop_param {i : AbiInput} {before word name after : List Char} (hbefore : Blank before)
    (htype : SpellsType i word) (hname : Named name) (hafter : Blank after) :
    splitTop (before ++ (word ++ name) ++ after) = [word ++ name] ∧
      ∀ others, splitTop (before ++ (word ++ name) ++ after ++ ',' :: others) = (word ++ name) :: splitTop others := by
  have hnested := (SpellsParam.mk hbefore htype hname hafter).nested
  obtain ⟨⟨c, rest, hword, hc⟩, hlast⟩ := htype.bounds
  have hfirst : word ++ name = c :: (rest ++ name) := by rw [hword, List.cons_append]
  have hstrip := stripSpace_blank hbefore hafter ⟨c, _, hfirst, hc⟩ (hname.bound hlast)
  have hfilter : ∀ others : List (List Char), ((word ++ name) :: others).filter (!·.isEmpty) =
      (word ++ name) :: others.filter (!·.isEmpty) := fun others => by rw [hfirst]; rfl
  constructor
  · have hpieces := hnested.splitTopPieces_append le_rfl (fun h => nomatch h) [] []
    rw [List.append_nil, List.append_nil, splitTopPieces, List.reverse_reverse] at hpieces
    rw [splitTop, hpieces, List.map_singleton, hstrip, hfilter, List.filter_nil]
  · intro others
    have hpieces := hnested.splitTopPieces_append le_rfl (fun h => nomatch h) [] (',' :: others)
    rw [List.append_nil, splitTopPieces, if_neg (by decide), if_neg (by decide), if_pos ⟨rfl, rfl⟩,
      List.reverse_reverse] at hpieces
    rw [splitTop, hpieces, List.map_cons, hstrip, hfilter, splitTop]

theorem canonicalTypes_eq_map (inputs : List AbiInput) : canonicalTypes inputs = inputs.map canonicalType := by
  induction inputs with
  | nil => rfl
  | cons i rest ih => rw [canonicalTypes, ih, List.map_cons]

theorem commaJoin_toList (texts : List String) : commaJoin (texts.map String.toList) = (joinText "," texts).toList := by
  induction texts with
  | nil => rfl
  | cons text rest ih =>
    rcases rest with _ | ⟨next, rest⟩
    · rfl
    · rw [List.map_cons, List.map_cons, commaJoin, joinText, String.toList_append, String.toList_append, ← ih]
      · simp
      · exact List.cons_ne_nil _ _
      · exact List.cons_ne_nil _ _

/-- The canonical text of a tuple. -/
theorem canonicalType_tuple (name : Option String) (suffix : List Char) (components : List AbiInput) :
    (canonicalType ⟨name, String.ofList ("tuple".toList ++ suffix), components⟩).toList =
      '(' :: (joinText "," (canonicalTypes components)).toList ++ ')' :: suffix := by
  have htuple : hasPrefix (String.ofList ("tuple".toList ++ suffix)) "tuple" = true :=
    List.isPrefixOf_iff_prefix.mpr ⟨suffix, String.toList_ofList.symm⟩
  rw [canonicalType, if_pos htuple, dropChars, String.toList_ofList, String.toList_append, String.toList_append,
    String.toList_append, String.toList_ofList]
  simp

theorem canonicalType_elementary {abiType : String} (h : hasPrefix abiType "tuple" = false) (name : Option String)
    (components : List AbiInput) : canonicalType ⟨name, abiType, components⟩ = abiType := by
  rw [canonicalType, if_neg (by rw [h]; exact Bool.false_ne_true)]

mutual

/-- A component without its name is its canonical type. -/
theorem SpellsType.canonComponent_eq {i : AbiInput} {word name : List Char} :
    SpellsType i word → Named name → ∀ {fuel : ℕ}, word.length ≤ fuel →
      canonComponent fuel (word ++ name) = (canonicalType i).toList
  | .elementary _ lengths components hbase halnum htuple, hname, fuel, hfuel => by
    rename_i base
    have hword : ∀ c ∈ base ++ arraySuffix lengths, isWordChar c = true := by
      intro c hc
      rcases List.mem_append.mp hc with hc | hc
      · exact isWordChar_of_isAlphanum (halnum c hc)
      · exact isWordChar_of_mem_arraySuffix hc
    obtain ⟨c, rest, hcons⟩ := List.exists_cons_of_ne_nil (List.append_ne_nil_of_left_ne_nil hbase (arraySuffix lengths))
    have hopen : c ≠ '(' := by
      rintro rfl
      exact absurd (hword '(' (by rw [hcons]; exact List.mem_cons_self)) (by decide)
    rcases fuel with _ | fuel
    · rw [hcons] at hfuel
      exact absurd hfuel (by simp)
    rw [canonicalType_elementary htuple, String.toList_ofList, canonComponent, if_neg (by simpa [hcons] using hopen)]
    exact firstWord_append (List.append_ne_nil_of_left_ne_nil hbase _)
      (fun c hc => isSpace_of_isWordChar (hword c hc)) hname
  | .tuple _ lengths hparams, hname, fuel, hfuel => by
    rename_i components params
    rcases fuel with _ | fuel
    · exact absurd hfuel (by simp)
    have hlength : params.length ≤ fuel := by
      simp only [List.cons_append, List.length_cons, List.length_append] at hfuel
      omega
    have hgroup : ('(' :: params ++ ')' :: arraySuffix lengths) ++ name =
        '(' :: params ++ ')' :: (arraySuffix lengths ++ name) := by simp
    have hhead : ('(' :: params ++ ')' :: (arraySuffix lengths ++ name)).head? = some '(' := rfl
    rw [hgroup, canonComponent, if_pos hhead, Nested.leadingGroup_group hparams.nested]
    dsimp only
    rw [hparams.splitTop_map hlength, suffix_append lengths hname, canonicalType_tuple, ← commaJoin_toList,
      canonicalTypes_eq_map, List.map_map]
    simp [Function.comp_def]

/-- The parameters without their names are their canonical types. -/
theorem SpellsParams.splitTop_map {inputs : List AbiInput} {text : List Char} :
    SpellsParams inputs text → ∀ {fuel : ℕ}, text.length ≤ fuel →
      (splitTop text).map (canonComponent fuel) = inputs.map fun i => (canonicalType i).toList
  | .nil, _, _ => rfl
  | .single (.mk hbefore htype hname hafter), fuel, hfuel => by
    rw [(splitTop_param hbefore htype hname hafter).1, List.map_singleton, List.map_singleton,
      htype.canonComponent_eq hname (by simp only [List.length_append] at hfuel; omega)]
  | .cons (.mk hbefore htype hname hafter) hothers, fuel, hfuel => by
    simp only [List.length_append, List.length_cons] at hfuel
    rw [(splitTop_param hbefore htype hname hafter).2, List.map_cons, List.map_cons,
      htype.canonComponent_eq hname (by omega), hothers.splitTop_map (by omega)]

end

theorem joinText_cons_cons (sep text next : String) (rest : List String) :
    joinText sep (text :: next :: rest) = text ++ sep ++ joinText sep (next :: rest) := by
  rw [joinText]
  exact List.cons_ne_nil _ _

mutual

/-- The canonical type is a spelling. -/
theorem SpellsType.canonical {i : AbiInput} {word : List Char} :
    SpellsType i word → SpellsType i (canonicalType i).toList
  | .elementary name lengths components hbase halnum htuple => by
    rw [canonicalType_elementary htuple, String.toList_ofList]
    exact .elementary name lengths components hbase halnum htuple
  | .tuple name lengths hparams => by
    rw [canonicalType_tuple]
    exact .tuple name lengths hparams.canonical

theorem SpellsParam.canonical {i : AbiInput} {text : List Char} :
    SpellsParam i text → SpellsParam i (canonicalType i).toList
  | .mk _ htype _ _ => by
    have hblank : Blank [] := fun _ hc => absurd hc List.not_mem_nil
    have h := SpellsParam.mk hblank htype.canonical (.inl rfl) hblank
    rwa [List.nil_append, List.append_nil, List.append_nil] at h

theorem SpellsParams.canonical {inputs : List AbiInput} {text : List Char} :
    SpellsParams inputs text → SpellsParams inputs (joinText "," (canonicalTypes inputs)).toList
  | .nil => .nil
  | .single h => .single h.canonical
  | .cons h hothers => by
    have hcanonical := SpellsParams.cons h.canonical hothers.canonical
    rw [canonicalTypes, canonicalTypes, joinText_cons_cons, String.toList_append, String.toList_append,
      List.append_assoc]
    exact hcanonical

end

theorem signature_toList (fn : AbiFunction) :
    (signature fn).toList = fn.name.toList ++ '(' :: (joinText "," (canonicalTypes fn.inputs)).toList ++ [')'] := by
  unfold signature
  rw [String.toList_append, String.toList_append, String.toList_append]
  simp

/-- The signature is a spelling of itself. -/
theorem Spells.signature {fn : AbiFunction} {key : String} (h : Spells fn key) : Spells fn (signature fn) := by
  obtain ⟨hname, params, hparams, -⟩ := h
  exact ⟨hname, _, hparams.canonical, by rw [← signature_toList, String.ofList_toList]⟩

/-- **Canonicalization inverts naming.** -/
theorem canonicalKey_of_spells {fn : AbiFunction} {key : String} (h : Spells fn key) :
    canonicalKey key = signature fn := by
  obtain ⟨hname, params, hparams, rfl⟩ := h
  have hopen : ∀ c ∈ fn.name.toList, (decide (c ≠ '(')) = true := by
    intro c hc
    have hword := isWordChar_of_mem_identifier hname hc
    simp only [isWordChar, Bool.and_eq_true, bne_iff_ne] at hword
    exact decide_eq_true hword.1.1.2
  have hshape : ∀ rest, (fn.name.toList ++ '(' :: rest).takeWhile (fun c => decide (c ≠ '(')) = fn.name.toList ∧
      (fn.name.toList ++ '(' :: rest).dropWhile (fun c => decide (c ≠ '(')) = '(' :: rest := by
    intro rest
    rw [List.takeWhile_append_of_pos hopen, List.dropWhile_append_of_pos hopen]
    simp
  have hsuffix : hasSuffix (String.ofList (fn.name.toList ++ '(' :: params ++ [')'])) ")" = true :=
    List.isSuffixOf_iff_suffix.mpr ⟨fn.name.toList ++ '(' :: params, String.toList_ofList.symm⟩
  have hcontains : (fn.name.toList ++ '(' :: params ++ [')']).contains '(' = true := by simp
  have hlength : params.length ≤ (fn.name.toList ++ '(' :: params ++ [')']).length := by
    simp only [List.length_append, List.length_cons]
    omega
  have hchars : fn.name.toList ++ '(' :: params ++ [')'] = fn.name.toList ++ '(' :: (params ++ [')']) := by simp
  refine String.toList_inj.mp ?_
  unfold canonicalKey
  dsimp only
  rw [hsuffix, String.toList_ofList, hcontains, if_neg (by decide), String.toList_ofList, signature_toList]
  rw [hchars] at hlength ⊢
  rw [(hshape _).1, (hshape _).2, List.drop_one, List.tail_cons, List.dropLast_concat, hparams.splitTop_map hlength,
    ← commaJoin_toList, canonicalTypes_eq_map, List.map_map]
  simp [Function.comp_def]

end Lucent.Preflight
