import Mathlib.Algebra.Order.BigOperators.Group.List
import Mathlib.Algebra.Order.Ring.Int
import Mathlib.Data.List.Nodup

/-!
# Lucent.Lib.OrderedDict — insertion-ordered dictionaries

`OrderedDict α β` is a list of key/value pairs without a repeated key, in insertion order: the
semantics of an insertion-ordered dictionary.  The distinctness of the keys is a field, so every
operation returns a well-formed dictionary.

* `get?_eq_some_iff`: with distinct keys a lookup is membership; every other lookup lemma
  (`get?_set`, `get?_erase`, `get?_filter`, `get?_moveToEnd`) is read off from it.
* `sum`: totals of a quantity over the values, and how each operation changes them.
* `keysWhere`: the keys chosen by their values, in order, and how each operation changes them.
-/

namespace Lucent.Lib

variable {α β : Type}

/-- Key/value pairs in insertion order, no key twice. -/
structure OrderedDict (α β : Type) where
  entries : List (α × β)
  keys_nodup : (entries.map Prod.fst).Nodup

namespace OrderedDict

@[ext] theorem ext {d d' : OrderedDict α β} (h : d.entries = d'.entries) : d = d' := by
  cases d; cases d'; cases h; rfl

/-- The empty dictionary. -/
def empty : OrderedDict α β := ⟨[], List.nodup_nil⟩

/-- Number of keys. -/
def length (d : OrderedDict α β) : ℕ := d.entries.length

/-- The keys, in insertion order. -/
def keys (d : OrderedDict α β) : List α := d.entries.map Prod.fst

/-- The values, in insertion order. -/
def values (d : OrderedDict α β) : List β := d.entries.map Prod.snd

/-- Keep the entries satisfying `p`. -/
def filter (p : α → β → Bool) (d : OrderedDict α β) : OrderedDict α β :=
  ⟨d.entries.filter (fun e => p e.1 e.2), d.keys_nodup.sublist (List.filter_sublist.map _)⟩

/-- The first key, in insertion order, whose value satisfies `p`. -/
def findKey? (p : β → Bool) (d : OrderedDict α β) : Option α :=
  (d.entries.find? (fun e => p e.2)).map Prod.fst

section Decidable

variable [DecidableEq α]

/-- The value of a key. -/
def get? (d : OrderedDict α β) (k : α) : Option β :=
  (d.entries.find? (fun e => decide (e.1 = k))).map Prod.snd

/-- Delete a key. -/
def erase (d : OrderedDict α β) (k : α) : OrderedDict α β := d.filter (fun k' _ => !decide (k' = k))

theorem notMem_erase (d : OrderedDict α β) (k : α) : k ∉ (d.erase k).entries.map Prod.fst := by
  simp [erase, filter]

/-- Insert a key at the end, dropping its old position. -/
def push (d : OrderedDict α β) (k : α) (v : β) : OrderedDict α β :=
  ⟨(d.erase k).entries ++ [(k, v)], by
    rw [List.map_append, List.nodup_append]
    refine ⟨(d.erase k).keys_nodup, by simp, ?_⟩
    rintro a ha b hb rfl
    simp only [List.map_cons, List.map_nil, List.mem_singleton] at hb
    exact notMem_erase d k (hb ▸ ha)⟩

/-- Overwrite the value of a key in place; a key that is absent stays absent. -/
def replace (d : OrderedDict α β) (k : α) (v : β) : OrderedDict α β :=
  ⟨d.entries.map (fun e => if e.1 = k then (k, v) else e), by
    have h : Prod.fst ∘ (fun e : α × β => if e.1 = k then (k, v) else e) = Prod.fst := by
      funext e
      by_cases he : e.1 = k <;> simp [he]
    rw [List.map_map, h]
    exact d.keys_nodup⟩

/-- Assignment: overwrite in place, or insert at the end. -/
def set (d : OrderedDict α β) (k : α) (v : β) : OrderedDict α β :=
  match d.get? k with
  | some _ => d.replace k v
  | none => d.push k v

/-- Make an existing key the most recent one. -/
def moveToEnd (d : OrderedDict α β) (k : α) : OrderedDict α β :=
  match d.get? k with
  | some v => d.push k v
  | none => d

omit [DecidableEq α] in
@[simp] theorem entries_filter (p : α → β → Bool) (d : OrderedDict α β) :
    (d.filter p).entries = d.entries.filter (fun e => p e.1 e.2) := rfl

@[simp] theorem entries_erase (d : OrderedDict α β) (k : α) :
    (d.erase k).entries = d.entries.filter (fun e => !decide (e.1 = k)) := rfl

@[simp] theorem entries_push (d : OrderedDict α β) (k : α) (v : β) :
    (d.push k v).entries = (d.erase k).entries ++ [(k, v)] := rfl

@[simp] theorem entries_replace (d : OrderedDict α β) (k : α) (v : β) :
    (d.replace k v).entries = d.entries.map (fun e => if e.1 = k then (k, v) else e) := rfl

/-! ### Lookups -/

/-- With distinct keys a lookup is membership. -/
theorem get?_eq_some_iff {d : OrderedDict α β} {k : α} {v : β} :
    d.get? k = some v ↔ (k, v) ∈ d.entries := by
  obtain ⟨l, hl⟩ := d
  show (l.find? (fun e => decide (e.1 = k))).map Prod.snd = some v ↔ (k, v) ∈ l
  induction l with
  | nil => simp
  | cons e l ih =>
    simp only [List.map_cons, List.nodup_cons] at hl
    obtain ⟨he, hl⟩ := hl
    by_cases hk : e.1 = k
    · subst hk
      have hf : (e :: l).find? (fun e' => decide (e'.1 = e.1)) = some e :=
        List.find?_cons_of_pos (decide_eq_true rfl)
      rw [hf]
      constructor
      · intro h
        simp only [Option.map_some, Option.some.injEq] at h
        subst h
        exact List.mem_cons_self
      · intro h
        rcases List.mem_cons.mp h with h | h
        · exact congrArg (some ∘ Prod.snd) h.symm
        · exact absurd (List.mem_map_of_mem (f := Prod.fst) h) he
    · rw [List.find?_cons_of_neg (by simpa using hk), ih hl]
      constructor
      · exact List.mem_cons_of_mem e
      · intro h
        rcases List.mem_cons.mp h with rfl | h
        · exact absurd rfl hk
        · exact h

theorem get?_eq_none_iff {d : OrderedDict α β} {k : α} : d.get? k = none ↔ ∀ v, (k, v) ∉ d.entries := by
  constructor
  · intro h v hv
    rw [get?_eq_some_iff.mpr hv] at h
    cases h
  · intro h
    cases hv : d.get? k with
    | none => rfl
    | some v => exact absurd (get?_eq_some_iff.mp hv) (h v)

@[simp] theorem get?_empty (k : α) : (empty : OrderedDict α β).get? k = none := rfl

/-- Two dictionaries agree at two keys as soon as they have the same pairs there. -/
theorem get?_congr {d d' : OrderedDict α β} {k k' : α}
    (h : ∀ v, (k, v) ∈ d.entries ↔ (k', v) ∈ d'.entries) : d.get? k = d'.get? k' := by
  cases hv : d'.get? k' with
  | none =>
    rw [get?_eq_none_iff] at hv ⊢
    exact fun v hm => hv v ((h v).mp hm)
  | some v => exact get?_eq_some_iff.mpr ((h v).mpr (get?_eq_some_iff.mp hv))

theorem get?_filter_eq_some_iff {d : OrderedDict α β} {p : α → β → Bool} {k : α} {v : β} :
    (d.filter p).get? k = some v ↔ d.get? k = some v ∧ p k v = true := by
  rw [get?_eq_some_iff, get?_eq_some_iff, filter, List.mem_filter]

@[simp] theorem get?_erase_self (d : OrderedDict α β) (k : α) : (d.erase k).get? k = none := by
  rw [get?_eq_none_iff]
  intro v hv
  exact notMem_erase d k (List.mem_map_of_mem (f := Prod.fst) hv)

@[simp] theorem get?_erase_of_ne {k k' : α} (h : k' ≠ k) (d : OrderedDict α β) :
    (d.erase k).get? k' = d.get? k' := by
  refine get?_congr fun v => ?_
  simp [erase, filter, h]

@[simp] theorem get?_push_self (d : OrderedDict α β) (k : α) (v : β) : (d.push k v).get? k = some v := by
  rw [get?_eq_some_iff]
  simp [push]

@[simp] theorem get?_push_of_ne {k k' : α} (h : k' ≠ k) (d : OrderedDict α β) (v : β) :
    (d.push k v).get? k' = d.get? k' := by
  rw [← get?_erase_of_ne h d]
  refine get?_congr fun w => ?_
  simp [push, h]

theorem get?_erase_eq_some_iff {d : OrderedDict α β} {k k' : α} {v : β} :
    (d.erase k).get? k' = some v ↔ k' ≠ k ∧ d.get? k' = some v := by
  rw [erase, get?_filter_eq_some_iff, and_comm]
  simp

theorem get?_push_eq_some_iff {d : OrderedDict α β} {k k' : α} {v w : β} :
    (d.push k v).get? k' = some w ↔ (k' = k ∧ w = v) ∨ (k' ≠ k ∧ d.get? k' = some w) := by
  by_cases hk : k' = k
  · subst hk
    simp [eq_comm]
  · simp [hk]

theorem get?_replace {d : OrderedDict α β} {k : α} {w : β} (hk : d.get? k = some w) (v : β) (k' : α) :
    (d.replace k v).get? k' = if k' = k then some v else d.get? k' := by
  rw [get?_eq_some_iff] at hk
  by_cases h : k' = k
  · subst h
    rw [if_pos rfl, get?_eq_some_iff, replace]
    exact List.mem_map.mpr ⟨(k', w), hk, by simp⟩
  · rw [if_neg h]
    refine get?_congr fun u => ?_
    simp only [replace, List.mem_map]
    constructor
    · rintro ⟨e, he, heq⟩
      by_cases hek : e.1 = k
      · rw [if_pos hek] at heq
        cases heq
        exact absurd rfl h
      · rw [if_neg hek] at heq
        exact heq ▸ he
    · intro hu
      exact ⟨(k', u), hu, by simp [h]⟩

theorem get?_set (d : OrderedDict α β) (k : α) (v : β) (k' : α) :
    (d.set k v).get? k' = if k' = k then some v else d.get? k' := by
  unfold set
  cases hk : d.get? k with
  | some w => exact get?_replace hk v k'
  | none =>
    by_cases h : k' = k
    · simp [h]
    · simp [h]

@[simp] theorem get?_moveToEnd (d : OrderedDict α β) (k k' : α) : (d.moveToEnd k).get? k' = d.get? k' := by
  unfold moveToEnd
  cases hk : d.get? k with
  | none => rfl
  | some w =>
    by_cases h : k' = k
    · subst h; simp [hk]
    · simp [h]

theorem findKey?_eq_some {d : OrderedDict α β} {p : β → Bool} {k : α} (h : d.findKey? p = some k) :
    ∃ v, d.get? k = some v ∧ p v = true := by
  unfold findKey? at h
  obtain ⟨e, he, rfl⟩ := Option.map_eq_some_iff.mp h
  exact ⟨e.2, get?_eq_some_iff.mpr (List.mem_of_find?_eq_some he), by simpa using List.find?_some he⟩

theorem findKey?_eq_none {d : OrderedDict α β} {p : β → Bool} (h : d.findKey? p = none) {k : α} {v : β}
    (hk : d.get? k = some v) : p v = false := by
  unfold findKey? at h
  rw [Option.map_eq_none_iff, List.find?_eq_none] at h
  simpa using h _ (get?_eq_some_iff.mp hk)

/-! ### Lengths and totals -/

theorem entries_erase_of_get?_none {d : OrderedDict α β} {k : α} (h : d.get? k = none) :
    (d.erase k).entries = d.entries := by
  rw [get?_eq_none_iff] at h
  refine List.filter_eq_self.mpr fun e he => ?_
  have hne : e.1 ≠ k := fun hk => h e.2 (hk ▸ he)
  simpa using hne

/-- The pairs before and after a key. -/
theorem exists_split {d : OrderedDict α β} {k : α} {v : β} (h : d.get? k = some v) :
    ∃ l₁ l₂, d.entries = l₁ ++ (k, v) :: l₂ ∧ (∀ e ∈ l₁, e.1 ≠ k) ∧ ∀ e ∈ l₂, e.1 ≠ k := by
  obtain ⟨l₁, l₂, hl⟩ := List.append_of_mem (get?_eq_some_iff.mp h)
  have hnd := d.keys_nodup
  rw [hl, List.map_append, List.map_cons, List.nodup_append, List.nodup_cons] at hnd
  obtain ⟨-, ⟨h2, -⟩, h12⟩ := hnd
  exact ⟨l₁, l₂, hl, fun e he => h12 e.1 (List.mem_map_of_mem he) k (by simp),
    fun e he hk => h2 (List.mem_map.mpr ⟨e, he, hk⟩)⟩

theorem filter_ne_eq_self {k : α} {l : List (α × β)} (h : ∀ e ∈ l, e.1 ≠ k) :
    l.filter (fun e => !decide (e.1 = k)) = l :=
  List.filter_eq_self.mpr fun e he => by simpa using h e he

/-- A dictionary is a permutation of one of its pairs and the rest. -/
theorem perm_erase {d : OrderedDict α β} {k : α} {v : β} (h : d.get? k = some v) :
    d.entries.Perm ((k, v) :: (d.erase k).entries) := by
  obtain ⟨l₁, l₂, hl, h1, h2⟩ := exists_split h
  have he : (d.erase k).entries = l₁ ++ l₂ := by
    simp [hl, filter_ne_eq_self h1, filter_ne_eq_self h2]
  rw [he, hl]
  exact List.perm_middle

/-- Overwriting a value does not change the other pairs. -/
theorem erase_replace (d : OrderedDict α β) (k : α) (v : β) : (d.replace k v).erase k = d.erase k := by
  refine ext ?_
  simp only [entries_erase, entries_replace, List.filter_map]
  have h : (fun e : α × β => !decide (e.1 = k)) ∘ (fun e => if e.1 = k then (k, v) else e) =
      fun e => !decide (e.1 = k) := by
    funext e
    by_cases he : e.1 = k <;> simp [he]
  rw [h]
  have hid : ∀ e ∈ d.entries.filter (fun e => !decide (e.1 = k)),
      (if e.1 = k then (k, v) else e) = e := by
    intro e he
    rw [if_neg]
    simpa using (List.mem_filter.mp he).2
  rw [List.map_congr_left hid, List.map_id']

variable {M : Type} [AddCommMonoid M]

/-- The total of `f` over the values. -/
def sum (d : OrderedDict α β) (f : β → M) : M := (d.entries.map (fun e => f e.2)).sum

omit [DecidableEq α] in
@[simp] theorem sum_empty (f : β → M) : (empty : OrderedDict α β).sum f = 0 := rfl

/-- Take one key out of a total. -/
theorem sum_congr {d : OrderedDict α β} {f g : β → M} (h : ∀ k v, d.get? k = some v → f v = g v) :
    d.sum f = d.sum g := by
  refine congrArg List.sum (List.map_congr_left fun e he => ?_)
  exact h e.1 e.2 (get?_eq_some_iff.mpr he)

theorem sum_eq_add_erase {d : OrderedDict α β} {k : α} {v : β} (h : d.get? k = some v) (f : β → M) :
    d.sum f = f v + (d.erase k).sum f := by
  unfold sum
  rw [((perm_erase h).map _).sum_eq]
  simp

theorem sum_push (d : OrderedDict α β) (k : α) (v : β) (f : β → M) :
    (d.push k v).sum f = f v + (d.erase k).sum f := by
  unfold sum
  rw [entries_push, List.map_append, List.sum_append, add_comm]
  simp

theorem sum_moveToEnd (d : OrderedDict α β) (k : α) (f : β → M) : (d.moveToEnd k).sum f = d.sum f := by
  unfold moveToEnd
  cases hk : d.get? k with
  | none => rfl
  | some v => rw [sum_push, sum_eq_add_erase hk]

omit [DecidableEq α] in
/-- Dropping entries does not raise the total of a nonnegative quantity. -/
theorem sum_filter_le (p : α → β → Bool) (d : OrderedDict α β) {f : β → ℤ} (hf : ∀ v, 0 ≤ f v) :
    (d.filter p).sum f ≤ d.sum f := by
  refine (List.filter_sublist.map _).sum_le_sum fun a ha => ?_
  obtain ⟨e, -, rfl⟩ := List.mem_map.mp ha
  exact hf e.2

omit [DecidableEq α] in
/-- The entries kept and the entries dropped share the total. -/
theorem sum_filter_add_sum_filter_not (p : α → β → Bool) (d : OrderedDict α β) (f : β → M) :
    (d.filter p).sum f + (d.filter (fun k v => !p k v)).sum f = d.sum f := by
  unfold sum
  rw [← List.sum_append, ← List.map_append]
  exact ((List.filter_append_perm _ d.entries).map _).sum_eq

theorem length_erase {d : OrderedDict α β} {k : α} {v : β} (h : d.get? k = some v) :
    (d.erase k).length + 1 = d.length := (perm_erase h).length_eq.symm

theorem length_push (d : OrderedDict α β) (k : α) (v : β) : (d.push k v).length = (d.erase k).length + 1 := by
  simp [length]

theorem length_moveToEnd (d : OrderedDict α β) (k : α) : (d.moveToEnd k).length = d.length := by
  unfold moveToEnd
  cases hk : d.get? k with
  | none => rfl
  | some v => rw [length_push, length_erase hk]

omit [DecidableEq α] in
theorem length_filter_le (p : α → β → Bool) (d : OrderedDict α β) : (d.filter p).length ≤ d.length :=
  List.length_filter_le _ _

theorem erase_of_get?_none {d : OrderedDict α β} {k : α} (h : d.get? k = none) : d.erase k = d :=
  ext (entries_erase_of_get?_none h)

/-- Overwriting a value and making it the most recent one. -/
theorem moveToEnd_set (d : OrderedDict α β) (k : α) (v : β) : (d.set k v).moveToEnd k = d.push k v := by
  have hget : (d.set k v).get? k = some v := by rw [get?_set, if_pos rfl]
  have herase : (d.set k v).erase k = d.erase k := by
    unfold set
    cases hk : d.get? k with
    | some w => exact erase_replace d k v
    | none =>
      refine ext ?_
      simp only [entries_erase, entries_push, List.filter_append, List.filter_filter, Bool.and_self]
      simp
  unfold moveToEnd
  rw [hget]
  refine ext ?_
  rw [entries_push, herase, entries_push]

theorem set_eq_push {d : OrderedDict α β} {k : α} (h : d.get? k = none) (v : β) : d.set k v = d.push k v := by
  unfold set
  rw [h]

/-! ### Keys chosen by their values -/

omit [DecidableEq α] in
/-- The keys whose values satisfy `p`, in order. -/
def keysWhere (p : β → Bool) (d : OrderedDict α β) : List α := (d.filter (fun _ v => p v)).keys

omit [DecidableEq α] in
theorem nodup_keysWhere (p : β → Bool) (d : OrderedDict α β) : (d.keysWhere p).Nodup :=
  (d.filter _).keys_nodup

omit [DecidableEq α] in
theorem findKey?_eq_head? (p : β → Bool) (d : OrderedDict α β) : d.findKey? p = (d.keysWhere p).head? := by
  unfold findKey? keysWhere keys
  rw [entries_filter, List.head?_map, List.head?_filter]

omit [DecidableEq α] in
theorem keysWhere_filter_sublist (p : β → Bool) (q : α → β → Bool) (d : OrderedDict α β) :
    ((d.filter q).keysWhere p).Sublist (d.keysWhere p) :=
  (List.filter_sublist.filter _).map _

theorem keysWhere_erase (p : β → Bool) (d : OrderedDict α β) (k : α) :
    (d.erase k).keysWhere p = (d.keysWhere p).filter (fun k' => !decide (k' = k)) := by
  simp only [keysWhere, keys, entries_filter, entries_erase, List.filter_map, List.filter_filter]
  refine congrArg _ (List.filter_congr fun e _ => ?_)
  exact Bool.and_comm ..

theorem keysWhere_push (p : β → Bool) (d : OrderedDict α β) (k : α) (v : β) :
    (d.push k v).keysWhere p = (d.keysWhere p).filter (fun k' => !decide (k' = k)) ++ if p v then [k] else [] := by
  rw [← keysWhere_erase]
  simp only [keysWhere, keys, entries_filter, entries_push, List.filter_append, List.map_append]
  by_cases hp : p v = true <;> simp [hp]

/-- Delete several keys. -/
def without (d : OrderedDict α β) (ks : List α) : OrderedDict α β := d.filter (fun k _ => decide (k ∉ ks))

@[simp] theorem without_nil (d : OrderedDict α β) : d.without [] = d := by
  refine ext ?_
  simp [without]

theorem erase_without (d : OrderedDict α β) (k : α) (ks : List α) :
    (d.erase k).without ks = d.without (k :: ks) := by
  refine ext ?_
  simp only [without, entries_filter, entries_erase, List.filter_filter]
  refine List.filter_congr fun e _ => ?_
  by_cases h1 : e.1 = k <;> by_cases h2 : e.1 ∈ ks <;> simp [h1, h2]

theorem get?_without (d : OrderedDict α β) (ks : List α) (k : α) :
    (d.without ks).get? k = if k ∈ ks then none else d.get? k := by
  refine Option.ext fun v => ?_
  unfold without
  rw [get?_filter_eq_some_iff]
  by_cases h : k ∈ ks <;> simp [h]

end Decidable

end OrderedDict

end Lucent.Lib
