import Lucent.Lib.Json
import Lucent.Lib.Walk

/-!
# Lucent.Lib.JsonTree — JSON values as trees

The items of a value are the values in it; the keys of objects count as items where `keys` says so.

* `items_eq`: the number of items, one level at a time.
* `Bounded`: no more items than allowed, none too deep, each of them fine; `walk_bounded_iff`: what a bounded walk
  over a value accepts.
-/

namespace Lucent.Lib.Json

/-- The items one level further down. -/
def children (keys : Bool) : Json → List Json
  | .arr items => items
  | .obj members => members.flatMap (fun m => if keys then [.str m.1, m.2] else [m.2])
  | _ => []

mutual

/-- The number of items of a value. -/
def items (keys : Bool) : Json → ℕ
  | .arr vs => 1 + itemsList keys vs
  | .obj members => 1 + itemsMembers keys members
  | .null => 1
  | .bool _ => 1
  | .int _ => 1
  | .float _ => 1
  | .str _ => 1
termination_by structural v => v

def itemsList (keys : Bool) : List Json → ℕ
  | [] => 0
  | v :: rest => items keys v + itemsList keys rest
termination_by structural v => v

def itemsMembers (keys : Bool) : List (String × Json) → ℕ
  | [] => 0
  | m :: rest => itemsMember keys m + itemsMembers keys rest
termination_by structural v => v

def itemsMember (keys : Bool) : String × Json → ℕ
  | (_, v) => (if keys then 1 else 0) + items keys v
termination_by structural v => v

end

variable {keys : Bool}

theorem itemsList_eq (vs : List Json) : itemsList keys vs = (vs.map (items keys)).sum := by
  induction vs with
  | nil => rfl
  | cons v vs ih => rw [itemsList, ih, List.map_cons, List.sum_cons]

theorem itemsMembers_eq (members : List (String × Json)) :
    itemsMembers keys members = ((children keys (.obj members)).map (items keys)).sum := by
  unfold children
  simp only
  induction members with
  | nil => rfl
  | cons m members ih =>
    obtain ⟨key, v⟩ := m
    rw [itemsMembers, ih, itemsMember, List.flatMap_cons, List.map_append, List.sum_append]
    cases keys with
    | false => simp
    | true => simp [items]

/-- A value is one item, and those of the values one level further down. -/
theorem items_eq (v : Json) : items keys v = 1 + ((children keys v).map (items keys)).sum := by
  cases v with
  | arr vs => rw [items, itemsList_eq, children]
  | obj members => rw [items, itemsMembers_eq]
  | _ => rfl

/-- A value of at most `maxItems` items, at most `maxDepth` levels deep, all of whose items satisfy `fine`. -/
structure Bounded (keys : Bool) (maxItems maxDepth : ℕ) (fine : Json → Prop) (v : Json) : Prop where
  items_le : items keys v ≤ maxItems
  depth_le : ∀ d item, Below (children keys) d v item → d ≤ maxDepth
  fine : ∀ d item, Below (children keys) d v item → fine item

/-- **What a bounded walk over a value accepts.** -/
theorem walk_bounded_iff {ok : Json → Bool} {back : Json → List Json} (hback : ∀ v, (back v).Perm (children keys v))
    {maxDepth maxItems : ℕ} {v : Json} : walk ok back maxDepth maxItems [(v, 0)] = true ↔
      Bounded keys maxItems maxDepth (fun item => ok item = true) v := by
  rw [walk_eq_true_iff hback items_eq]
  constructor
  · rintro ⟨hitems, hbelow⟩
    exact ⟨hitems, fun d item h => (hbelow d item h).1, fun d item h => (hbelow d item h).2⟩
  · rintro ⟨hitems, hdepth, hfine⟩
    exact ⟨hitems, fun d item h => ⟨hdepth d item h, hfine d item h⟩⟩

theorem Bounded.imp {maxItems maxDepth : ℕ} {fine fine' : Json → Prop} {v : Json}
    (h : Bounded keys maxItems maxDepth fine v) (himp : ∀ item, fine item → fine' item) :
    Bounded keys maxItems maxDepth fine' v :=
  ⟨h.items_le, h.depth_le, fun d item hbelow => himp item (h.fine d item hbelow)⟩

end Lucent.Lib.Json
