import Mathlib.Algebra.BigOperators.Group.List.Basic
import Mathlib.Algebra.GroupWithZero.Nat
import Mathlib.Data.List.Basic

/-!
# Lucent.Lib.Walk — bounded walks over a tree with a stack

`walk` visits the items of a tree with a stack: it takes an item off, checks it, and puts its children back one level
further down.  It gives up after a number of items, and below a depth.

* `Below d a b`: `b` stands `d` levels below `a`.
* `walk_eq_true_iff`: whatever the order in which the children are put back, the walk succeeds exactly when the tree
  has no more items than allowed, none of them is too deep, and every one passes the check.
-/

namespace Lucent.Lib

variable {α : Type} {next : α → List α} {ok : α → Bool}

/-- `b` stands `d` levels below `a`. -/
inductive Below (next : α → List α) : ℕ → α → α → Prop
  | here (a : α) : Below next 0 a a
  | down {d : ℕ} {a c b : α} : c ∈ next a → Below next d c b → Below next (d + 1) a b

theorem below_zero_iff {a b : α} : Below next 0 a b ↔ b = a := by
  constructor
  · rintro ⟨⟩
    rfl
  · rintro rfl
    exact .here b

theorem below_succ_iff {d : ℕ} {a b : α} : Below next (d + 1) a b ↔ ∃ c ∈ next a, Below next d c b := by
  constructor
  · rintro ⟨⟩
    rename_i c hc hb
    exact ⟨c, hc, hb⟩
  · rintro ⟨c, hc, hb⟩
    exact .down hc hb

/-- What stands below an item is the item, or stands below a child. -/
theorem forall_below_iff {a : α} {P : ℕ → α → Prop} : (∀ d b, Below next d a b → P d b) ↔
    P 0 a ∧ ∀ c ∈ next a, ∀ d b, Below next d c b → P (d + 1) b := by
  constructor
  · intro h
    refine ⟨h 0 a (.here a), fun c hc d b hb => h (d + 1) b (.down hc hb)⟩
  · rintro ⟨h0, hnext⟩ d b hb
    cases d with
    | zero =>
      obtain rfl := below_zero_iff.mp hb
      exact h0
    | succ d =>
      obtain ⟨c, hc, hb⟩ := below_succ_iff.mp hb
      exact hnext c hc d b hb

/-- The walk, with the number of items still allowed and the stack; the children of an item go back in any order. -/
def walk (ok : α → Bool) (back : α → List α) (maxDepth : ℕ) : ℕ → List (α × ℕ) → Bool
  | _, [] => true
  | 0, _ :: _ => false
  | items + 1, (item, depth) :: stack =>
    if depth > maxDepth then false
    else if !ok item then false
    else walk ok back maxDepth items ((back item).map (fun c => (c, depth + 1)) ++ stack)

/-- The items on the stack are within the depth, and pass the check, with all that stands below them. -/
def Fit (next : α → List α) (ok : α → Bool) (maxDepth : ℕ) (stack : List (α × ℕ)) : Prop :=
  ∀ p ∈ stack, ∀ d b, Below next d p.1 b → p.2 + d ≤ maxDepth ∧ ok b = true

theorem fit_cons_iff {maxDepth depth : ℕ} {item : α} {stack : List (α × ℕ)} {children : List α}
    (hchildren : children.Perm (next item)) : Fit next ok maxDepth ((item, depth) :: stack) ↔
      (depth ≤ maxDepth ∧ ok item = true) ∧
        Fit next ok maxDepth (children.map (fun c => (c, depth + 1)) ++ stack) := by
  unfold Fit
  rw [List.forall_mem_cons, forall_below_iff, List.forall_mem_append, List.forall_mem_map, and_assoc]
  refine and_congr Iff.rfl (and_congr ?_ Iff.rfl)
  constructor
  · intro h c hc d b hb
    have hstep := h c (hchildren.mem_iff.mp hc) d b hb
    rwa [Nat.add_assoc, Nat.add_comm 1]
  · intro h c hc d b hb
    have hstep := h c (hchildren.mem_iff.mpr hc) d b hb
    rwa [Nat.add_assoc, Nat.add_comm 1] at hstep

/-- **What the walk accepts**, by induction on the number of items still allowed. -/
theorem walk_iff {back : α → List α} {size : α → ℕ} (hback : ∀ a, (back a).Perm (next a))
    (hsize : ∀ a, size a = 1 + ((next a).map size).sum) {maxDepth : ℕ} (items : ℕ) (stack : List (α × ℕ)) :
    walk ok back maxDepth items stack = true ↔
      (stack.map (fun p => size p.1)).sum ≤ items ∧ Fit next ok maxDepth stack := by
  induction items generalizing stack with
  | zero =>
    cases stack with
    | nil => simp [walk, Fit]
    | cons p stack =>
      have hpos := hsize p.1
      simp only [walk, List.map_cons, List.sum_cons, reduceCtorEq, false_iff]
      omega
  | succ items ih =>
    cases stack with
    | nil => simp [walk, Fit]
    | cons p stack =>
      obtain ⟨item, depth⟩ := p
      have hsum : ((back item).map size).sum = ((next item).map size).sum := ((hback item).map size).sum_eq
      have hitem := hsize item
      rw [walk, fit_cons_iff (hback item)]
      split_ifs with hdeep hbad
      · simp only [false_iff]
        omega
      · simp only [Bool.not_eq_true', ← Bool.not_eq_true] at hbad
        simp [hbad]
      · rw [ih, List.map_append, List.sum_append, List.map_map, List.map_cons, List.sum_cons]
        have hcomp : ((fun p : α × ℕ => size p.1) ∘ fun c => (c, depth + 1)) = size := rfl
        have hok : ok item = true := by simpa using hbad
        rw [hcomp, hsum]
        simp only [hok, and_true]
        constructor
        · rintro ⟨hle, hfit⟩
          exact ⟨by omega, by omega, hfit⟩
        · rintro ⟨hle, -, hfit⟩
          exact ⟨by omega, hfit⟩

/-- **What the walk accepts**: a tree of no more items than allowed, none too deep, each of which passes the check. -/
theorem walk_eq_true_iff {back : α → List α} {size : α → ℕ} (hback : ∀ a, (back a).Perm (next a))
    (hsize : ∀ a, size a = 1 + ((next a).map size).sum) {maxDepth items : ℕ} {a : α} :
    walk ok back maxDepth items [(a, 0)] = true ↔
      size a ≤ items ∧ ∀ d b, Below next d a b → d ≤ maxDepth ∧ ok b = true := by
  rw [walk_iff hback hsize]
  simp [Fit]

end Lucent.Lib
