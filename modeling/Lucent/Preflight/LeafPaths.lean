import Lucent.Preflight.Binding

/-!
# Lucent.Preflight.LeafPaths — the leaves of an input, listed and resolved

* `Leaf i`: the elementary leaves of an input; `Leaf.path`: a `[]` for each dimension, a name for each component.
* `mem_abiLeafPaths`, `nodup_abiLeafPaths`: `_abi_leaf_paths` lists every leaf once.
* `leaf_resolves`, `leaf_of_resolves`: `_path_target` resolves every leaf, and where no tuple is an array nothing else.
* `exists_skipped`: in an array of tuples it resolves a path without its `[]` too.
-/

namespace Lucent.Preflight

open Lucent.Lib

/-! ## Array suffixes -/

section Suffixes

variable {abiType base : String}

/-- An array type is its base and a suffix. -/
theorem arrayBase?_eq_some (h : arrayBase? abiType = some base) :
    ∃ digits, abiType.toList = base.toList ++ '[' :: digits := by
  unfold arrayBase? at h
  split at h
  · next rest hrest =>
    split at h
    · next start hstart =>
      split_ifs at h
      obtain rfl := Option.some.inj h
      refine ⟨(rest.takeWhile Char.isDigit).reverse ++ [']'], ?_⟩
      have hsplit : rest = rest.takeWhile Char.isDigit ++ '[' :: start := by
        rw [← hstart, List.takeWhile_append_dropWhile]
      have htext : abiType.toList = rest.reverse ++ [']'] := by
        rw [← List.reverse_reverse abiType.toList, hrest, List.reverse_cons]
      rw [htext, String.toList_ofList]
      nth_rewrite 1 [hsplit]
      simp only [List.reverse_append, List.reverse_cons, List.append_assoc, List.cons_append, List.nil_append]
    · exact nomatch h
  · exact nomatch h

theorem arrayBase?_length (h : arrayBase? abiType = some base) : base.length < abiType.length := by
  obtain ⟨digits, hdigits⟩ := arrayBase?_eq_some h
  rw [← String.length_toList, ← String.length_toList, hdigits, List.length_append, List.length_cons]
  omega

/-- An array of tuples begins like a tuple, and nothing else does. -/
theorem hasPrefix_arrayBase? (h : arrayBase? abiType = some base) :
    hasPrefix abiType "tuple" = hasPrefix base "tuple" := by
  obtain ⟨digits, hdigits⟩ := arrayBase?_eq_some h
  rw [Bool.eq_iff_iff, hasPrefix, hasPrefix, List.isPrefixOf_iff_prefix, List.isPrefixOf_iff_prefix, hdigits]
  refine ⟨fun hpre => ?_, fun hpre => hpre.trans (List.prefix_append _ _)⟩
  have hstart : base.toList ++ ['['] <+: base.toList ++ '[' :: digits := ⟨digits, by simp⟩
  have hbracket : '[' ∉ "tuple".toList := by decide
  rcases List.prefix_or_prefix_of_prefix hpre hstart with hpre | hpre
  · rcases List.prefix_concat_iff.mp hpre with heq | hpre
    · exact absurd (heq ▸ List.mem_append_right _ List.mem_cons_self) hbracket
    · exact hpre
  · exact absurd (hpre.subset (List.mem_append_right _ List.mem_cons_self)) hbracket

/-- Fuel for every character peels all suffixes. -/
theorem peelArrays_fuel {fuel : ℕ} (h : abiType.length ≤ fuel) :
    peelArrays fuel abiType = peelArrays abiType.length abiType := by
  induction fuel using Nat.strong_induction_on generalizing abiType with
  | _ fuel ih =>
    rcases hbase : arrayBase? abiType with _ | base
    · rw [peelArrays_of_none hbase, peelArrays_of_none hbase]
    have hlt := arrayBase?_length hbase
    obtain ⟨fuel, rfl⟩ : ∃ n, fuel = n + 1 := ⟨fuel - 1, by omega⟩
    obtain ⟨len, hlen⟩ : ∃ n, abiType.length = n + 1 := ⟨abiType.length - 1, by omega⟩
    rw [hlen, peelArrays, peelArrays, hbase]
    dsimp only
    rw [ih fuel (by omega) (by omega), ih len (by omega) (by omega)]

theorem peelArrays_array (h : arrayBase? abiType = some base) : peelArrays abiType.length abiType =
    ((peelArrays base.length base).1 + 1, (peelArrays base.length base).2) := by
  have hlt := arrayBase?_length h
  obtain ⟨len, hlen⟩ : ∃ n, abiType.length = n + 1 := ⟨abiType.length - 1, by omega⟩
  rw [hlen, peelArrays, h]
  dsimp only
  rw [peelArrays_fuel (by omega)]

end Suffixes

/-! ## Leaves -/

/-- Neither an array nor a tuple. -/
structure AbiInput.Elementary (i : AbiInput) : Prop where
  array : arrayBase? i.type = none
  tuple : hasPrefix i.type "tuple" = false

/-- The elementary leaves of an input. -/
inductive Leaf : AbiInput → Type
  | elementary {i : AbiInput} (h : i.Elementary) : Leaf i
  | item {i : AbiInput} {base : String} (h : arrayBase? i.type = some base) (leaf : Leaf { i with type := base }) :
    Leaf i
  | component {i : AbiInput} (harray : arrayBase? i.type = none) (htuple : hasPrefix i.type "tuple" = true)
      (k : Fin i.components.length) (leaf : Leaf (i.components.get k)) : Leaf i

/-- The segments below the input. -/
def Leaf.path : {i : AbiInput} → Leaf i → List String
  | _, .elementary _ => []
  | _, .item _ leaf => "[]" :: leaf.path
  | i, .component _ _ k leaf => (i.components.get k).nameText :: leaf.path

/-- The tuples have components, with unique identifiers as names. -/
inductive AbiInput.WellNamed : AbiInput → Prop
  | elementary {i : AbiInput} (h : i.Elementary) : i.WellNamed
  | array {i : AbiInput} {base : String} (h : arrayBase? i.type = some base)
      (hbase : AbiInput.WellNamed { i with type := base }) : i.WellNamed
  | tuple {i : AbiInput} (harray : arrayBase? i.type = none) (htuple : hasPrefix i.type "tuple" = true)
      (hne : i.components ≠ []) (hunique : (i.components.map AbiInput.name).Nodup)
      (hnames : ∀ c ∈ i.components, c.name.any isIdentifier = true)
      (hall : ∀ c ∈ i.components, c.WellNamed) : i.WellNamed

/-- No tuple at or below the input is an array. -/
inductive AbiInput.TuplesPlain : AbiInput → Prop
  | scalar {i : AbiInput} (h : hasPrefix i.type "tuple" = false) : i.TuplesPlain
  | tuple {i : AbiInput} (htuple : hasPrefix i.type "tuple" = true) (harray : arrayBase? i.type = none)
      (hall : ∀ c ∈ i.components, c.TuplesPlain) : i.TuplesPlain

/-- The leaves are listed once each, and exactly the listed paths resolve to an elementary type. -/
structure LeafPathsAgree (i : AbiInput) (n : String) : Prop where
  nodup : (abiLeafPaths i [n]).Nodup
  leaves : ∀ path, path ∈ abiLeafPaths i [n] ↔ ∃ leaf : Leaf i, path = n :: leaf.path
  distinct : Function.Injective (@Leaf.path i)
  resolves : ∀ segments,
    (∃ target, pathTarget i segments = some target ∧ target.Elementary) ↔ n :: segments ∈ abiLeafPaths i [n]

section Inputs

variable {i : AbiInput} {n : String}

/-! ## Names -/

/-- A component with an identifier as name. -/
theorem AbiInput.identified {c : AbiInput} (h : c.name.any isIdentifier = true) :
    c.name = some c.nameText ∧ isIdentifier c.nameText = true := by
  obtain ⟨_ | text, abiType, components⟩ := c
  · exact nomatch h
  · exact ⟨rfl, h⟩

theorem AbiInput.nameText_ne {c : AbiInput} (h : c.name.any isIdentifier = true) : c.nameText ≠ "[]" := by
  intro heq
  have hident := (AbiInput.identified h).2
  rw [heq] at hident
  exact absurd hident (by decide)

/-- Components with one name are one component. -/
theorem component_unique {components : List AbiInput} (hunique : (components.map AbiInput.name).Nodup)
    (hnames : ∀ c ∈ components, c.name.any isIdentifier = true) {c c' : AbiInput} (hc : c ∈ components)
    (hc' : c' ∈ components) (h : c.nameText = c'.nameText) : c = c' := by
  refine List.inj_on_of_nodup_map hunique hc hc' ?_
  rw [(AbiInput.identified (hnames c hc)).1, (AbiInput.identified (hnames c' hc')).1, h]

theorem find?_component {components : List AbiInput} (hunique : (components.map AbiInput.name).Nodup)
    (hnames : ∀ c ∈ components, c.name.any isIdentifier = true) {c : AbiInput} (hc : c ∈ components) :
    components.find? (fun component => component.name == some c.nameText) = some c := by
  have hname := (AbiInput.identified (hnames c hc)).1
  obtain ⟨c', hfound⟩ := Option.isSome_iff_exists.mp
    (List.find?_isSome.mpr ⟨c, hc, beq_iff_eq.mpr hname⟩ : (components.find? (·.name == some c.nameText)).isSome = true)
  have hmem := List.mem_of_find?_eq_some hfound
  have hsame : c'.name = some c.nameText := by simpa using List.find?_some hfound
  rw [hfound, component_unique hunique hnames hmem hc
    (Option.some.inj ((AbiInput.identified (hnames c' hmem)).1.symm.trans hsame))]

/-! ## The list -/

/-- The list of an array is that of its items, under a `[]`. -/
theorem abiLeafPaths_array {base : String} (h : arrayBase? i.type = some base) (pre : List String) :
    abiLeafPaths i pre = abiLeafPaths { i with type := base } (pre ++ ["[]"]) := by
  obtain ⟨name, abiType, components⟩ := i
  rw [abiLeafPaths, abiLeafPaths, peelArrays_array h, List.replicate_succ, List.append_assoc, List.singleton_append]

theorem abiLeafPaths_elementary (h : i.Elementary) (pre : List String) : abiLeafPaths i pre = [pre] := by
  obtain ⟨name, abiType, components⟩ := i
  rw [abiLeafPaths, peelArrays_of_none h.array]
  dsimp only
  rw [List.replicate_zero, List.append_nil, show hasPrefix abiType "tuple" = false from h.tuple, Bool.false_and,
    if_neg Bool.false_ne_true]

theorem componentLeafPaths_eq {components : List AbiInput} (hnames : ∀ c ∈ components, c.name.any isIdentifier = true)
    (index : ℕ) (pre : List String) : componentLeafPaths index components pre =
      components.flatMap fun c => abiLeafPaths c (pre ++ [c.nameText]) := by
  induction components generalizing index with
  | nil => rfl
  | cons c rest ih =>
    have hc := hnames c List.mem_cons_self
    have hname : (named c.name).getD ("component" ++ toString index) = c.nameText := by
      have hne : c.nameText.isEmpty = false :=
        String.isEmpty_eq_false_iff.mpr (isIdentifier_ne_empty (AbiInput.identified hc).2)
      rw [(AbiInput.identified hc).1, named, Option.filter_some, if_pos (by rw [hne]; rfl), Option.getD_some]
    rw [componentLeafPaths, List.flatMap_cons, hname, ih fun c hc => hnames c (List.mem_cons_of_mem _ hc)]

/-- The list of a tuple is that of its components, under their names. -/
theorem abiLeafPaths_tuple (harray : arrayBase? i.type = none) (htuple : hasPrefix i.type "tuple" = true)
    (hne : i.components ≠ []) (hnames : ∀ c ∈ i.components, c.name.any isIdentifier = true) (pre : List String) :
    abiLeafPaths i pre = i.components.flatMap fun c => abiLeafPaths c (pre ++ [c.nameText]) := by
  obtain ⟨name, abiType, components⟩ := i
  rw [abiLeafPaths, peelArrays_of_none harray]
  dsimp only at htuple hne hnames ⊢
  rw [List.replicate_zero, List.append_nil, htuple, Bool.true_and, if_pos (by simpa using hne),
    componentLeafPaths_eq hnames]

/-- **Listed**: the list has the leaves and nothing else. -/
theorem mem_abiLeafPaths (h : i.WellNamed) (pre path : List String) :
    path ∈ abiLeafPaths i pre ↔ ∃ leaf : Leaf i, path = pre ++ leaf.path := by
  induction h generalizing pre path with
  | elementary h =>
    rw [abiLeafPaths_elementary h, List.mem_singleton]
    constructor
    · rintro rfl
      exact ⟨.elementary h, (List.append_nil _).symm⟩
    · rintro ⟨_ | ⟨harray, -⟩ | ⟨-, htuple, -, -⟩, hpath⟩
      · exact hpath.trans (List.append_nil pre)
      · exact nomatch h.array.symm.trans harray
      · exact nomatch h.tuple.symm.trans htuple
  | array hbase _ ih =>
    rw [abiLeafPaths_array hbase, ih]
    constructor
    · rintro ⟨leaf, rfl⟩
      exact ⟨.item hbase leaf, by rw [Leaf.path, List.append_assoc, List.singleton_append]⟩
    · rintro ⟨h | ⟨hbase', leaf⟩ | ⟨harray, -, -, -⟩, hpath⟩
      · exact nomatch hbase.symm.trans h.array
      · obtain rfl := Option.some.inj (hbase.symm.trans hbase')
        exact ⟨leaf, by rw [hpath, Leaf.path, List.append_assoc, List.singleton_append]⟩
      · exact nomatch hbase.symm.trans harray
  | tuple harray htuple hne hunique hnames _ ih =>
    rw [abiLeafPaths_tuple harray htuple hne hnames, List.mem_flatMap]
    constructor
    · rintro ⟨c, hc, hpath⟩
      obtain ⟨leaf, rfl⟩ := (ih c hc _ _).mp hpath
      obtain ⟨k, rfl⟩ := List.get_of_mem hc
      exact ⟨.component harray htuple k leaf, by rw [Leaf.path, List.append_assoc, List.singleton_append]⟩
    · rintro ⟨h | ⟨hbase, -⟩ | ⟨_, _, k, leaf⟩, hpath⟩
      · exact nomatch htuple.symm.trans h.tuple
      · exact nomatch harray.symm.trans hbase
      · have hc := List.get_mem _ k
        refine ⟨_, hc, (ih _ hc _ _).mpr ⟨leaf, ?_⟩⟩
        rw [hpath, Leaf.path, List.append_assoc, List.singleton_append]

/-- **Once each**: the list has no path twice. -/
theorem nodup_abiLeafPaths (h : i.WellNamed) (pre : List String) : (abiLeafPaths i pre).Nodup := by
  induction h generalizing pre with
  | elementary h =>
    rw [abiLeafPaths_elementary h]
    exact List.nodup_singleton pre
  | array hbase _ ih =>
    rw [abiLeafPaths_array hbase]
    exact ih _
  | tuple harray htuple hne hunique hnames hall ih =>
    rw [abiLeafPaths_tuple harray htuple hne hnames]
    refine List.nodup_flatMap.mpr ⟨fun c hc => ih c hc _, ?_⟩
    refine (List.pairwise_map.mp hunique).imp_of_mem fun {c c'} hc hc' hnot => ?_
    -- paths through two components differ in the name of the component
    refine List.disjoint_left.mpr fun path hpath hpath' => hnot ?_
    obtain ⟨leaf, rfl⟩ := (mem_abiLeafPaths (hall c hc) _ _).mp hpath
    obtain ⟨leaf', hsame⟩ := (mem_abiLeafPaths (hall c' hc') _ _).mp hpath'
    rw [List.append_assoc, List.append_assoc, List.append_cancel_left_eq] at hsame
    rw [(AbiInput.identified (hnames c hc)).1, (AbiInput.identified (hnames c' hc')).1, (List.cons.inj hsame).1]

/-- A leaf is known by its path. -/
theorem leaf_path_injective (h : i.WellNamed) : Function.Injective (@Leaf.path i) := by
  induction h with
  | elementary h =>
    rintro (_ | ⟨harray, -⟩ | ⟨-, htuple, -, -⟩) (_ | ⟨harray', -⟩ | ⟨-, htuple', -, -⟩) -
    · rfl
    · exact nomatch h.array.symm.trans harray'
    · exact nomatch h.tuple.symm.trans htuple'
    all_goals first
      | exact nomatch h.array.symm.trans harray
      | exact nomatch h.tuple.symm.trans htuple
  | array hbase _ ih =>
    rintro (h | ⟨hleft, leaf⟩ | ⟨harray, -, -, -⟩) leaf' hpath
    · exact nomatch hbase.symm.trans h.array
    · obtain rfl := Option.some.inj (hbase.symm.trans hleft)
      rcases leaf' with h | ⟨hright, leaf'⟩ | ⟨harray, -, -, -⟩
      · exact nomatch hbase.symm.trans h.array
      · obtain rfl := Option.some.inj (hbase.symm.trans hright)
        rw [ih (List.cons.inj hpath).2]
      · exact nomatch hbase.symm.trans harray
    · exact nomatch hbase.symm.trans harray
  | tuple harray htuple hne hunique hnames _ ih =>
    rintro (h | ⟨hbase, -⟩ | ⟨_, _, k, leaf⟩) leaf' hpath
    · exact nomatch htuple.symm.trans h.tuple
    · exact nomatch harray.symm.trans hbase
    rcases leaf' with h | ⟨hbase, -⟩ | ⟨_, _, k', leaf'⟩
    · exact nomatch htuple.symm.trans h.tuple
    · exact nomatch harray.symm.trans hbase
    obtain ⟨hname, hrest⟩ := List.cons.inj hpath
    obtain rfl : k = k' := List.nodup_iff_injective_get.mp hunique.of_map
      (component_unique hunique hnames (List.get_mem _ k) (List.get_mem _ k') hname)
    rw [ih _ (List.get_mem _ k) hrest]

/-- There is a leaf. -/
theorem exists_leaf (h : i.WellNamed) : Nonempty (Leaf i) := by
  induction h with
  | elementary h => exact ⟨.elementary h⟩
  | array hbase _ ih =>
    obtain ⟨leaf⟩ := ih
    exact ⟨.item hbase leaf⟩
  | tuple harray htuple hne hunique hnames _ ih =>
    obtain ⟨c, hc⟩ := List.exists_mem_of_ne_nil _ hne
    obtain ⟨k, rfl⟩ := List.get_of_mem hc
    obtain ⟨leaf⟩ := ih _ hc
    exact ⟨.component harray htuple k leaf⟩

/-! ## Resolution -/

theorem pathTarget_item {base : String} (h : arrayBase? i.type = some base) (segments : List String) :
    pathTarget i ("[]" :: segments) = pathTarget { i with type := base } segments := by
  rw [pathTarget, if_pos rfl, h]

/-- A name is resolved among the components, whether or not the tuple is an array. -/
theorem pathTarget_component (htuple : hasPrefix i.type "tuple" = true)
    (hunique : (i.components.map AbiInput.name).Nodup) (hnames : ∀ c ∈ i.components, c.name.any isIdentifier = true)
    {c : AbiInput} (hc : c ∈ i.components) (segments : List String) :
    pathTarget i (c.nameText :: segments) = pathTarget c segments := by
  rw [pathTarget, if_neg (AbiInput.nameText_ne (hnames c hc)), htuple, find?_component hunique hnames hc]
  rfl

/-- The path of a leaf resolves to an elementary type. -/
theorem leaf_resolves (h : i.WellNamed) (leaf : Leaf i) :
    ∃ target, pathTarget i leaf.path = some target ∧ target.Elementary := by
  induction h with
  | elementary h =>
    rcases leaf with _ | ⟨harray, _⟩ | ⟨_, htuple, _, _⟩
    · exact ⟨_, rfl, h⟩
    · exact nomatch h.array.symm.trans harray
    · exact nomatch h.tuple.symm.trans htuple
  | array hbase _ ih =>
    rcases leaf with h | ⟨hbase', leaf⟩ | ⟨harray, _, _, _⟩
    · exact nomatch hbase.symm.trans h.array
    · obtain rfl := Option.some.inj (hbase.symm.trans hbase')
      rw [Leaf.path, pathTarget_item hbase]
      exact ih leaf
    · exact nomatch hbase.symm.trans harray
  | tuple harray htuple hne hunique hnames _ ih =>
    rcases leaf with h | ⟨hbase, _⟩ | ⟨_, _, k, leaf⟩
    · exact nomatch htuple.symm.trans h.tuple
    · exact nomatch harray.symm.trans hbase
    · have hk := List.get_mem _ k
      rw [Leaf.path, pathTarget_component htuple hunique hnames hk]
      exact ih _ hk leaf

/-- **Resolved**: where no tuple is an array, a path to an elementary type is that of a leaf. -/
theorem leaf_of_resolves (hplain : i.TuplesPlain) {segments : List String} {target : AbiInput}
    (htarget : pathTarget i segments = some target) (h : target.Elementary) :
    ∃ leaf : Leaf i, leaf.path = segments := by
  induction segments generalizing i with
  | nil =>
    obtain rfl : i = target := Option.some.inj htarget
    exact ⟨.elementary h, rfl⟩
  | cons segment segments ih =>
    rw [pathTarget] at htarget
    split_ifs at htarget with hitem htuple
    · subst hitem
      split at htarget
      · exact nomatch htarget
      · next base hbase =>
        have hitems : hasPrefix i.type "tuple" = false := by
          rcases hplain with hscalar | ⟨-, harray, -⟩
          · exact hscalar
          · exact nomatch harray.symm.trans hbase
        obtain ⟨leaf, hleaf⟩ := ih (.scalar ((hasPrefix_arrayBase? hbase).symm.trans hitems)) htarget
        exact ⟨.item hbase leaf, by rw [Leaf.path, hleaf]⟩
    · rcases hplain with hscalar | ⟨htuple', harray, hall⟩
      · rw [hscalar] at htuple
        exact absurd rfl htuple
      split at htarget
      · exact nomatch htarget
      · next c hfound =>
        have hc := List.mem_of_find?_eq_some hfound
        have hname : c.name = some segment := by simpa using List.find?_some hfound
        obtain ⟨leaf, hleaf⟩ := ih (hall c hc) htarget
        obtain ⟨k, rfl⟩ := List.get_of_mem hc
        refine ⟨.component harray htuple' k leaf, ?_⟩
        rw [Leaf.path, hleaf, AbiInput.nameText, hname, Option.getD_some]

/-- What an array of tuples has in its tuples. -/
theorem AbiInput.WellNamed.components (h : i.WellNamed) (htuple : hasPrefix i.type "tuple" = true) :
    i.components ≠ [] ∧ (i.components.map AbiInput.name).Nodup ∧
      ∀ c ∈ i.components, c.name.any isIdentifier = true ∧ c.WellNamed := by
  induction h with
  | elementary h => exact nomatch htuple.symm.trans h.tuple
  | array hbase _ ih => exact ih ((hasPrefix_arrayBase? hbase).symm.trans htuple)
  | tuple _ _ hne hunique hnames hall => exact ⟨hne, hunique, fun c hc => ⟨hnames c hc, hall c hc⟩⟩

/-- **Skipped**: where a tuple is an array, a path without its `[]` resolves to an elementary type. -/
theorem exists_skipped (h : i.WellNamed) (hnot : ¬ i.TuplesPlain) :
    ∃ segments target, pathTarget i segments = some target ∧ target.Elementary ∧
      ∀ leaf : Leaf i, leaf.path ≠ segments := by
  induction h with
  | elementary h => exact absurd (.scalar h.tuple) hnot
  | @array i base hbase hwell ih =>
    have htuple : hasPrefix i.type "tuple" = true := by
      by_contra hscalar
      exact hnot (.scalar (Bool.eq_false_iff.mpr hscalar))
    obtain ⟨hne, hunique, hall⟩ := (AbiInput.WellNamed.array hbase hwell).components htuple
    obtain ⟨c, hc⟩ := List.exists_mem_of_ne_nil _ hne
    obtain ⟨leaf⟩ := exists_leaf (hall c hc).2
    obtain ⟨target, htarget, helementary⟩ := leaf_resolves (hall c hc).2 leaf
    refine ⟨c.nameText :: leaf.path, target, ?_, helementary, ?_⟩
    · rw [pathTarget_component htuple hunique (fun c hc => (hall c hc).1) hc, htarget]
    · rintro (h | ⟨_, _⟩ | ⟨harray, _, _, _⟩) hpath
      · exact nomatch hbase.symm.trans h.array
      · exact AbiInput.nameText_ne (hall c hc).1 (List.cons.inj hpath).1.symm
      · exact nomatch hbase.symm.trans harray
  | @tuple i harray htuple hne hunique hnames hall ih =>
    obtain ⟨c, hc, hcnot⟩ : ∃ c ∈ i.components, ¬ c.TuplesPlain := by
      by_contra hall'
      push Not at hall'
      exact hnot (.tuple htuple harray hall')
    obtain ⟨segments, target, htarget, helementary, hleaves⟩ := ih c hc hcnot
    refine ⟨c.nameText :: segments, target, ?_, helementary, ?_⟩
    · rw [pathTarget_component htuple hunique hnames hc, htarget]
    · rintro (h | ⟨hbase, _⟩ | ⟨_, _, k, leaf⟩) hpath
      · exact nomatch htuple.symm.trans h.tuple
      · exact nomatch harray.symm.trans hbase
      · obtain ⟨hname, hrest⟩ := List.cons.inj hpath
        obtain rfl := component_unique hunique hnames (List.get_mem _ k) hc hname
        exact hleaves leaf hrest

end Inputs

/-! ## Agreement -/

/-- **Leaves and paths agree** exactly where no tuple is an array: each leaf is listed once, and the paths that resolve
to an elementary type are the listed ones. -/
theorem leafPaths_agree_iff {i : AbiInput} (h : i.WellNamed) (n : String) : LeafPathsAgree i n ↔ i.TuplesPlain := by
  constructor
  · intro hagree
    by_contra hnot
    obtain ⟨segments, target, htarget, helementary, hleaves⟩ := exists_skipped h hnot
    have hlisted := (hagree.resolves segments).mp ⟨target, htarget, helementary⟩
    obtain ⟨leaf, hpath⟩ := (hagree.leaves _).mp hlisted
    exact hleaves leaf (List.cons.inj hpath).2.symm
  · intro hplain
    have hlisted : ∀ path, path ∈ abiLeafPaths i [n] ↔ ∃ leaf : Leaf i, path = n :: leaf.path := fun path =>
      mem_abiLeafPaths h [n] path
    refine ⟨nodup_abiLeafPaths h [n], hlisted, leaf_path_injective h, fun segments => ?_⟩
    rw [hlisted]
    constructor
    · rintro ⟨target, htarget, helementary⟩
      obtain ⟨leaf, rfl⟩ := leaf_of_resolves hplain htarget helementary
      exact ⟨leaf, rfl⟩
    · rintro ⟨leaf, hpath⟩
      rw [(List.cons.inj hpath).2]
      exact leaf_resolves h leaf

/-- An order of some amounts. -/
def orderInput (abiType : String) : AbiInput :=
  ⟨some "order", abiType, [⟨some "maker", "address", []⟩, ⟨some "amounts", "uint256[2]", []⟩]⟩

theorem orderInput_components : ∀ c ∈ (orderInput "tuple").components,
    c.name.any isIdentifier = true ∧ c.WellNamed ∧ c.TuplesPlain := by
  have hmaker : AbiInput.Elementary ⟨some "maker", "address", []⟩ := ⟨rfl, by decide⟩
  have hitem : AbiInput.Elementary ⟨some "amounts", "uint256", []⟩ := ⟨rfl, by decide⟩
  intro c hc
  rcases List.mem_cons.mp hc with rfl | hc
  · exact ⟨by decide, .elementary hmaker, .scalar hmaker.tuple⟩
  · obtain rfl := List.mem_singleton.mp hc
    exact ⟨by decide, .array (by decide : arrayBase? "uint256[2]" = some "uint256") (.elementary hitem),
      .scalar (by decide)⟩

theorem orderInput_wellNamed : (orderInput "tuple").WellNamed :=
  .tuple rfl (by decide) (List.cons_ne_nil _ _) (by decide) (fun c hc => (orderInput_components c hc).1)
    fun c hc => (orderInput_components c hc).2.1

theorem leafPaths_agree_iff_order : LeafPathsAgree (orderInput "tuple") "order" :=
  (leafPaths_agree_iff orderInput_wellNamed "order").mpr
    (.tuple (by decide) rfl fun c hc => (orderInput_components c hc).2.2)

/-- In an array of orders, `order.maker` resolves to an address and is not listed. -/
theorem leafPaths_disagree_orders :
    (orderInput "tuple[]").WellNamed ∧ ¬ LeafPathsAgree (orderInput "tuple[]") "order" := by
  refine ⟨.array (by decide : arrayBase? "tuple[]" = some "tuple") orderInput_wellNamed, fun hagree => ?_⟩
  have hlisted := (hagree.resolves ["maker"]).mp ⟨⟨some "maker", "address", []⟩, rfl, rfl, by decide⟩
  exact absurd hlisted (by decide)

end Lucent.Preflight
