import Lucent.Lib.RoundTrip

/-!
# Lucent.Lib.SameJson — JSON values that differ in the order of members only

* `Same`: equality of JSON values as a comparison of dictionaries and lists sees it; floats compare by their text.
* `arrange_eq_iff`: values are the same exactly when they are equal with sorted members.
* `dumps_eq_iff`: and exactly when they render to the same text with sorted members.
-/

namespace Lucent.Lib.Json

/-- The values are equal, whatever the order of the members of objects. -/
inductive Same : Json → Json → Prop
  | null : Same .null .null
  | bool (b : Bool) : Same (.bool b) (.bool b)
  | int (n : ℤ) : Same (.int n) (.int n)
  | float {x y : PyFloat} : x.text = y.text → Same (.float x) (.float y)
  | str (s : String) : Same (.str s) (.str s)
  | arr {items items' : List Json} : items.length = items'.length →
      (∀ (i : ℕ) v v', items[i]? = some v → items'[i]? = some v' → Same v v') → Same (.arr items) (.arr items')
  | obj {members members' : List (String × Json)} :
      (∀ key, key ∈ members.map Prod.fst ↔ key ∈ members'.map Prod.fst) →
      (∀ key v v', lookup key members = some v → lookup key members' = some v' → Same v v') →
      Same (.obj members) (.obj members')

theorem same_int_iff {n n' : ℤ} : Same (.int n) (.int n') ↔ n = n' := by
  refine ⟨fun h => ?_, fun h => h ▸ .int n⟩
  cases h
  rfl

theorem same_str_iff {s s' : String} : Same (.str s) (.str s') ↔ s = s' := by
  refine ⟨fun h => ?_, fun h => h ▸ .str s⟩
  cases h
  rfl

theorem same_obj_iff {members members' : List (String × Json)} : Same (.obj members) (.obj members') ↔
    (∀ key, key ∈ members.map Prod.fst ↔ key ∈ members'.map Prod.fst) ∧
      ∀ key v v', lookup key members = some v → lookup key members' = some v' → Same v v' := by
  refine ⟨fun h => ?_, fun h => .obj h.1 h.2⟩
  obtain _ | _ | _ | _ | _ | _ | ⟨hkeys, hvalues⟩ := h
  exact ⟨hkeys, hvalues⟩

/-- Objects with the same keys in the same order are the same when the values are, one by one. -/
theorem same_obj_cons_iff {key : String} {v v' : Json} {members members' : List (String × Json)}
    (h : key ∉ members.map Prod.fst) (h' : members.map Prod.fst = members'.map Prod.fst) :
    Same (.obj ((key, v) :: members)) (.obj ((key, v') :: members')) ↔
      Same v v' ∧ Same (.obj members) (.obj members') := by
  have hnone : ∀ {l : List (String × Json)} {w : Json}, key ∉ l.map Prod.fst → lookup key l ≠ some w := by
    intro l w hl hw
    induction l with
    | nil => exact nomatch hw
    | cons m l ih =>
      rw [List.map_cons, List.mem_cons, not_or] at hl
      rw [lookup, if_neg (Ne.symm hl.1)] at hw
      exact ih hl.2 hw
  rw [same_obj_iff, same_obj_iff, List.map_cons, List.map_cons, h']
  refine ⟨fun hsame => ⟨hsame.2 key v v' (if_pos rfl) (if_pos rfl), fun _ => Iff.rfl, fun k w w' hw hw' => ?_⟩,
    fun hsame => ⟨fun _ => Iff.rfl, fun k w w' hw hw' => ?_⟩⟩
  · have hne : key ≠ k := by
      rintro rfl
      exact hnone h hw
    exact hsame.2 k w w' ((if_neg hne).trans hw) ((if_neg hne).trans hw')
  · rw [lookup] at hw hw'
    split_ifs at hw hw' with hk
    · rw [← Option.some.inj hw, ← Option.some.inj hw']
      exact hsame.1
    · exact hsame.2.2 k w w' hw hw'

theorem same_obj_nil : Same (.obj []) (.obj []) := .obj (fun _ => Iff.rfl) nofun

/-! ## Values without floats -/

mutual

/-- The value has no floats, and no object of it repeats a key. -/
def plain : Json → Bool
  | .arr items => plainItems items
  | .obj members => decide (members.map Prod.fst).Nodup && plainMembers members
  | .float _ => false
  | .null => true
  | .bool _ => true
  | .int _ => true
  | .str _ => true
termination_by structural v => v

def plainItems : List Json → Bool
  | [] => true
  | v :: rest => plain v && plainItems rest
termination_by structural v => v

def plainMembers : List (String × Json) → Bool
  | [] => true
  | m :: rest => plainMember m && plainMembers rest
termination_by structural v => v

def plainMember : String × Json → Bool
  | (_, v) => plain v
termination_by structural v => v

end

mutual

theorem wellFormed_of_plain : ∀ v : Json, plain v = true → WellFormed v
  | .arr items, h => .arr (wellFormed_of_plainItems items h)
  | .obj members, h =>
    .obj (of_decide_eq_true ((Bool.and_eq_true _ _).mp h).1)
      (wellFormed_of_plainMembers members ((Bool.and_eq_true _ _).mp h).2)
  | .null, _ => .null
  | .bool b, _ => .bool b
  | .int n, _ => .int n
  | .str s, _ => .str s

theorem wellFormed_of_plainItems : ∀ items : List Json, plainItems items = true → ∀ v ∈ items, WellFormed v
  | [], _ => nofun
  | v :: rest, h => List.forall_mem_cons.mpr ⟨wellFormed_of_plain v ((Bool.and_eq_true _ _).mp h).1,
      wellFormed_of_plainItems rest ((Bool.and_eq_true _ _).mp h).2⟩

theorem wellFormed_of_plainMembers : ∀ members : List (String × Json), plainMembers members = true →
    ∀ m ∈ members, WellFormed m.2
  | [], _ => nofun
  | (_, v) :: rest, h => List.forall_mem_cons.mpr ⟨wellFormed_of_plain v ((Bool.and_eq_true _ _).mp h).1,
      wellFormed_of_plainMembers rest ((Bool.and_eq_true _ _).mp h).2⟩

end

/-! ## Members -/

theorem lookup_eq_some_iff {members : List (String × Json)} (h : (members.map Prod.fst).Nodup) {key : String}
    {v : Json} : lookup key members = some v ↔ (key, v) ∈ members := by
  induction members with
  | nil => exact ⟨nofun, nofun⟩
  | cons m members ih =>
    obtain ⟨hfresh, hrest⟩ := List.nodup_cons.mp h
    rw [lookup, List.mem_cons]
    split_ifs with hkey
    · refine ⟨fun hv => .inl ?_, ?_⟩
      · rw [← hkey, ← Option.some.inj hv]
      · rintro (heq | hin)
        · rw [← heq]
        · exact absurd (List.mem_map_of_mem hin) (hkey ▸ hfresh)
    · rw [ih hrest]
      refine ⟨.inr, fun hmem => hmem.resolve_left fun heq => hkey ?_⟩
      rw [← heq]

theorem exists_lookup {members : List (String × Json)} {key : String} (h : key ∈ members.map Prod.fst) :
    ∃ v, lookup key members = some v := by
  induction members with
  | nil => exact nomatch h
  | cons m members ih =>
    rw [lookup]
    split_ifs with hkey
    · exact ⟨m.2, rfl⟩
    · exact ih ((List.mem_cons.mp h).resolve_left (Ne.symm hkey))

theorem pairwise_sortMembers {α : Type} (l : List (String × α)) :
    (sortMembers l).Pairwise (fun a b => a.1 ≤ b.1) := by
  have : Std.Total (fun a b : String × α => a.1 ≤ b.1) := ⟨fun a b => String.le_total a.1 b.1⟩
  have : IsTrans (String × α) (fun a b => a.1 ≤ b.1) := ⟨fun _ _ _ => String.le_trans⟩
  exact List.pairwise_insertionSort _ l

/-- Members with the same keys and values are the same once they are sorted. -/
theorem sortMembers_eq_of_perm {α : Type} {l l' : List (String × α)} (h : l.Perm l') (hnd : (l.map Prod.fst).Nodup) :
    sortMembers l = sortMembers l' := by
  have hperm : (sortMembers l).Perm (sortMembers l') :=
    (List.perm_insertionSort _ l).trans (h.trans (List.perm_insertionSort _ l').symm)
  refine hperm.eq_of_pairwise (fun a b ha hb hab hba => ?_) (pairwise_sortMembers l) (pairwise_sortMembers l')
  have hb : b ∈ l := h.mem_iff.mpr ((List.perm_insertionSort _ l').mem_iff.mp hb)
  exact List.inj_on_of_nodup_map hnd ((List.perm_insertionSort _ l).mem_iff.mp ha) hb (String.le_antisymm hab hba)

/-! ## Sorted members -/

variable {readFloat : List Char → PyFloat}

/-- Equal with sorted members: the same keys, and equal values under each. -/
theorem arrange_obj_eq_iff {members members' : List (String × Json)} (h : (members.map Prod.fst).Nodup)
    (h' : (members'.map Prod.fst).Nodup) :
    arrange true readFloat (.obj members) = arrange true readFloat (.obj members') ↔
      (∀ key, key ∈ members.map Prod.fst ↔ key ∈ members'.map Prod.fst) ∧
        ∀ key v v', lookup key members = some v → lookup key members' = some v' →
          arrange true readFloat v = arrange true readFloat v' := by
  set arranged : List (String × Json) → List (String × Json) :=
    fun l => l.map (fun m => (m.1, arrange true readFloat m.2)) with harranged
  have hkeys : ∀ l, (arranged l).map Prod.fst = l.map Prod.fst := fun l => by
    rw [harranged, List.map_map]
    rfl
  have hiff : arrange true readFloat (.obj members) = arrange true readFloat (.obj members') ↔
      (arranged members).Perm (arranged members') := by
    rw [arrange, arrange, arrangeMembers_eq_map, arrangeMembers_eq_map, if_pos rfl, if_pos rfl, Json.obj.injEq]
    refine ⟨fun heq => ?_, fun hperm => sortMembers_eq_of_perm hperm ((hkeys members).symm ▸ h)⟩
    have hsorted := List.perm_insertionSort (fun a b : String × Json => a.1 ≤ b.1) (arranged members')
    rw [show (arranged members').insertionSort _ = sortMembers (arranged members) from heq.symm] at hsorted
    exact (List.perm_insertionSort _ _).symm.trans hsorted
  rw [hiff]
  constructor
  · intro hperm
    refine ⟨fun key => ?_, fun key v v' hv hv' => ?_⟩
    · rw [← hkeys members, ← hkeys members', (hperm.map Prod.fst).mem_iff]
    · have hmem : (key, arrange true readFloat v) ∈ arranged members' :=
        hperm.mem_iff.mp (List.mem_map_of_mem ((lookup_eq_some_iff h).mp hv))
      obtain ⟨m, hm, heq⟩ := List.mem_map.mp hmem
      obtain ⟨hkey, hval⟩ := Prod.mk.inj heq
      have hfound : lookup key members' = some m.2 := (lookup_eq_some_iff h').mpr (hkey ▸ hm)
      rw [← hval, Option.some.inj (hv'.symm.trans hfound)]
  · rintro ⟨hkey, hval⟩
    have hnodup : ∀ {l : List (String × Json)}, (l.map Prod.fst).Nodup → (arranged l).Nodup := fun {l} hl =>
      List.Nodup.of_map Prod.fst ((hkeys l).symm ▸ hl)
    refine (List.perm_ext_iff_of_nodup (hnodup h) (hnodup h')).mpr fun m => ?_
    have hone : ∀ {l l' : List (String × Json)}, (l.map Prod.fst).Nodup → (l'.map Prod.fst).Nodup →
        (∀ key, key ∈ l.map Prod.fst → key ∈ l'.map Prod.fst) →
        (∀ key v v', lookup key l = some v → lookup key l' = some v' →
          arrange true readFloat v = arrange true readFloat v') → m ∈ arranged l → m ∈ arranged l' := by
      intro l l' hl hl' hsub hsame hm
      obtain ⟨p, hp, rfl⟩ := List.mem_map.mp hm
      obtain ⟨v', hv'⟩ := exists_lookup (hsub p.1 (List.mem_map_of_mem hp))
      refine List.mem_map.mpr ⟨(p.1, v'), (lookup_eq_some_iff hl').mp hv', ?_⟩
      rw [hsame p.1 p.2 v' ((lookup_eq_some_iff hl).mpr hp) hv']
    exact ⟨hone h h' (fun key => (hkey key).mp) hval,
      hone h' h (fun key => (hkey key).mpr) fun key v v' hv hv' => (hval key v' v hv' hv).symm⟩

/-- **Sameness**: the values are equal with sorted members, and the text of a float for the float. -/
theorem arrange_eq_iff {v w : Json} (hread : ∀ x y : PyFloat,
      readFloat x.text.toList = readFloat y.text.toList ↔ x.text = y.text)
    (hv : WellFormed v) (hw : WellFormed w) :
    arrange true readFloat v = arrange true readFloat w ↔ Same v w := by
  induction hv generalizing w with
  | null =>
    refine ⟨fun h => ?_, ?_⟩
    · cases hw <;> first | exact .null | simp [arrange] at h
    · rintro ⟨⟩
      rfl
  | bool b =>
    refine ⟨fun h => ?_, ?_⟩
    · cases hw <;> simp only [arrange, Json.bool.injEq, reduceCtorEq] at h
      exact h ▸ .bool _
    · rintro ⟨⟩
      rfl
  | int n =>
    refine ⟨fun h => ?_, ?_⟩
    · cases hw <;> simp only [arrange, Json.int.injEq, reduceCtorEq] at h
      exact h ▸ .int _
    · rintro ⟨⟩
      rfl
  | @float x _ =>
    refine ⟨fun h => ?_, ?_⟩
    · cases hw <;> simp only [arrange, Json.float.injEq, reduceCtorEq] at h
      exact .float ((hread _ _).mp h)
    · rintro (_ | _ | _ | htext)
      rw [arrange, arrange, (hread _ _).mpr htext]
  | str s =>
    refine ⟨fun h => ?_, ?_⟩
    · cases hw <;> simp only [arrange, Json.str.injEq, reduceCtorEq] at h
      exact h ▸ .str _
    · rintro ⟨⟩
      rfl
  | @arr items hitems ih =>
    have hiff : ∀ {items' : List Json}, (∀ v ∈ items', WellFormed v) →
        (arrange true readFloat (.arr items) = arrange true readFloat (.arr items') ↔ items.length = items'.length ∧
          ∀ (i : ℕ) v v', items[i]? = some v → items'[i]? = some v' → Same v v') := by
      intro items' hitems'
      rw [arrange, arrange, arrangeItems_eq_map, arrangeItems_eq_map, Json.arr.injEq]
      refine ⟨fun h => ⟨by simpa using congrArg List.length h, fun i v v' hv hv' => ?_⟩, fun h => ?_⟩
      · have hi := congrArg (·[i]?) h
        simp only [List.getElem?_map, hv, hv', Option.map_some, Option.some.injEq] at hi
        exact (ih v (List.mem_of_getElem? hv) (hitems' v' (List.mem_of_getElem? hv'))).mp hi
      · refine List.ext_getElem (by simpa using h.1) fun i hi hi' => ?_
        rw [List.length_map] at hi hi'
        rw [List.getElem_map, List.getElem_map]
        exact (ih _ (List.getElem_mem hi) (hitems' _ (List.getElem_mem hi'))).mpr
          (h.2 i _ _ (List.getElem?_eq_getElem hi) (List.getElem?_eq_getElem hi'))
    refine ⟨fun h => ?_, ?_⟩
    · cases hw with
      | arr hitems' => exact .arr ((hiff hitems').mp h).1 ((hiff hitems').mp h).2
      | _ => simp [arrange] at h
    · rintro (_ | _ | _ | _ | _ | ⟨hlen, hsame⟩)
      cases hw with
      | arr hitems' => exact (hiff hitems').mpr ⟨hlen, hsame⟩
  | @obj members hkeys hmembers ih =>
    have hiff : ∀ {members' : List (String × Json)}, (members'.map Prod.fst).Nodup →
        (∀ m ∈ members', WellFormed m.2) →
        (arrange true readFloat (.obj members) = arrange true readFloat (.obj members') ↔
          (∀ key, key ∈ members.map Prod.fst ↔ key ∈ members'.map Prod.fst) ∧
            ∀ key v v', lookup key members = some v → lookup key members' = some v' → Same v v') := by
      intro members' hkeys' hmembers'
      rw [arrange_obj_eq_iff hkeys hkeys']
      refine and_congr_right fun _ => forall_congr' fun key => forall_congr' fun v => forall_congr' fun v' => ?_
      refine forall_congr' fun hv => forall_congr' fun hv' => ?_
      exact ih (key, v) ((lookup_eq_some_iff hkeys).mp hv) (hmembers' (key, v') ((lookup_eq_some_iff hkeys').mp hv'))
    refine ⟨fun h => ?_, ?_⟩
    · cases hw with
      | obj hkeys' hmembers' =>
        exact .obj ((hiff hkeys' hmembers').mp h).1 ((hiff hkeys' hmembers').mp h).2
      | _ => simp [arrange] at h
    · rintro (_ | _ | _ | _ | _ | _ | ⟨hsub, hsame⟩)
      cases hw with
      | obj hkeys' hmembers' => exact (hiff hkeys' hmembers').mpr ⟨hsub, hsame⟩

/-! ## Rendered values -/

/-- A float that is known by its text. -/
def textOnly (l : List Char) : PyFloat := ⟨String.ofList l, 0⟩

/-- Sorting members does not change what sorting renders. -/
theorem dumps_arrange {ascii : Bool} {v : Json} (hv : WellFormed v) {t : List Char}
    (h : dumps ascii true v = some t) : dumps ascii true (arrange true textOnly v) = some t := by
  induction hv generalizing t with
  | null => exact h
  | bool b => exact h
  | int n => exact h
  | float hx =>
    rw [← h]
    simp only [arrange, dumps, textOnly, String.ofList_toList]
  | str s => exact h
  | @arr items hitems ih =>
    obtain ⟨parts, hparts, rfl⟩ := Option.map_eq_some_iff.mp h
    have hall := dumpsItems_eq_some.mp hparts
    rw [arrange, arrangeItems_eq_map, dumps, dumpsItems_eq_some.mpr (?_ : List.Forall₂ _ _ parts)]
    · rfl
    · refine List.forall₂_map_left_iff.mpr (((List.forall₂_and_left _ _).mpr ⟨ih, hall⟩).imp ?_)
      rintro v t ⟨hv, ht⟩
      exact hv ht
  | @obj members hkeys hmembers ih =>
    obtain ⟨parts, hparts, rfl⟩ := Option.map_eq_some_iff.mp h
    have hall := dumpsMembers_eq_some.mp hparts
    have harranged : List.Forall₂ (fun m p => m.1 = p.1 ∧ dumps ascii true m.2 = some p.2)
        (members.map fun m => (m.1, arrange true textOnly m.2)) parts := by
      refine List.forall₂_map_left_iff.mpr (((List.forall₂_and_left _ _).mpr ⟨ih, hall⟩).imp ?_)
      rintro m p ⟨hm, hkey, ht⟩
      exact ⟨hkey, hm ht⟩
    have hsorted := @forall₂_sortMembers _ _ (fun v t => dumps ascii true v = some t) _ _ harranged
    rw [arrange, arrangeMembers_eq_map, if_pos rfl, dumps, dumpsMembers_eq_some.mpr hsorted, Option.map_some,
      if_pos rfl, if_pos rfl]
    rw [show sortMembers (sortMembers parts) = sortMembers parts from (pairwise_sortMembers parts).insertionSort_eq]

/-- **Rendering is faithful**: with sorted members, well-formed values render to the same text exactly when they are
the same. -/
theorem dumps_eq_iff {ascii : Bool} {v w : Json} (hv : WellFormed v) (hw : WellFormed w) {t u : List Char}
    (ht : dumps ascii true v = some t) (hu : dumps ascii true w = some u) : t = u ↔ Same v w := by
  have htext : ∀ x y : PyFloat, textOnly x.text.toList = textOnly y.text.toList ↔ x.text = y.text := by
    intro x y
    simp only [textOnly, String.ofList_toList, PyFloat.mk.injEq, and_true]
  rw [← arrange_eq_iff htext hv hw]
  constructor
  · rintro rfl
    exact dumps_injective hv hw ht hu
  · intro h
    have hsame := dumps_arrange hv ht
    rw [h, dumps_arrange hw hu] at hsame
    exact (Option.some.inj hsame).symm

end Lucent.Lib.Json
