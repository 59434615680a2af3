import Mathlib.Data.List.Basic

/-!
# Lucent.Lib.LineReader — the lines of a stream, read in bounded pieces

`lines` cuts a stream after every end of a line.  `readline` reads one piece: up to the end of the line, but no more than
a number of items.

* `isLines_lines`: the lines are the stream, cut there and nowhere else.
* `lines_append`: a stream may be cut after the end of a line.
* `readline_fst`, `lines_readline`: a piece is the start of the first line, and what it leaves are the remaining lines.
-/

namespace Lucent.Lib.LineReader

variable {α : Type} [DecidableEq α] (eol : α)

/-- The lines of a stream, each with its end; the last one may have none. -/
def lines : List α → List (List α)
  | [] => []
  | a :: rest =>
    if a = eol then [a] :: lines rest
    else match lines rest with
      | [] => [[a]]
      | line :: others => (a :: line) :: others

/-- At most `limit` items, up to the end of the line; and what is left of the stream. -/
def readline : ℕ → List α → List α × List α
  | 0, s => ([], s)
  | _ + 1, [] => ([], [])
  | limit + 1, a :: rest =>
    if a = eol then ([a], rest)
    else (a :: (readline limit rest).1, (readline limit rest).2)

/-- The piece ends a line. -/
def Ended (piece : List α) : Prop := piece.getLast? = some eol

instance (piece : List α) : Decidable (Ended eol piece) := inferInstanceAs (Decidable (_ = _))

variable {eol} {s line : List α} {rest : List (List α)}

/-! ## Lines -/

theorem lines_cons_eol (s : List α) : lines eol (eol :: s) = [eol] :: lines eol s := by
  rw [lines, if_pos rfl]

/-- An item that ends no line goes in front of the first line. -/
theorem lines_cons_of_ne {a : α} (ha : a ≠ eol) (s : List α) :
    lines eol (a :: s) = (a :: (lines eol s).headD []) :: (lines eol s).tail := by
  rw [lines, if_neg ha]
  cases lines eol s <;> rfl

theorem lines_flatten (s : List α) : (lines eol s).flatten = s := by
  induction s with
  | nil => rfl
  | cons a s ih =>
    by_cases ha : a = eol
    · subst ha
      rw [lines_cons_eol, List.flatten_cons, ih, List.singleton_append]
    · rw [lines_cons_of_ne ha, List.flatten_cons, List.cons_append]
      congr 1
      cases hl : lines eol s with
      | nil => rw [← ih, hl]; rfl
      | cons line rest => rw [← ih, hl]; rfl

theorem lines_eq_nil : lines eol s = [] ↔ s = [] := by
  refine ⟨fun h => ?_, fun h => h ▸ rfl⟩
  rw [← @lines_flatten _ _ eol s, h, List.flatten_nil]

/-- A line is not empty, and it has no end before its last item. -/
theorem eol_notMem_dropLast (h : line ∈ lines eol s) : line ≠ [] ∧ eol ∉ line.dropLast := by
  induction s generalizing line with
  | nil => exact absurd h List.not_mem_nil
  | cons a s ih =>
    by_cases ha : a = eol
    · subst ha
      rw [lines_cons_eol] at h
      rcases List.mem_cons.mp h with rfl | h
      · exact ⟨List.cons_ne_nil _ _, List.not_mem_nil⟩
      · exact ih h
    · rw [lines_cons_of_ne ha] at h
      cases hl : lines eol s with
      | nil =>
        rw [hl] at h
        obtain rfl := List.mem_singleton.mp h
        exact ⟨List.cons_ne_nil _ _, List.not_mem_nil⟩
      | cons first others =>
        rw [hl] at h
        rcases List.mem_cons.mp h with rfl | h
        · obtain ⟨hne, hfirst⟩ := ih (hl ▸ List.mem_cons_self)
          refine ⟨List.cons_ne_nil _ _, fun hmem => ?_⟩
          rw [List.headD_cons, List.dropLast_cons_of_ne_nil hne] at hmem
          rcases List.mem_cons.mp hmem with rfl | hmem
          · exact ha rfl
          · exact hfirst hmem
        · exact ih (hl ▸ List.mem_cons_of_mem _ h)

/-- A line that another one follows has its end. -/
theorem ended_of_mem_dropLast (h : line ∈ (lines eol s).dropLast) : Ended eol line := by
  induction s generalizing line with
  | nil => exact absurd h List.not_mem_nil
  | cons a s ih =>
    by_cases hnil : lines eol s = []
    · rw [lines_eq_nil.mp hnil, lines] at h
      split_ifs at h <;> exact absurd h List.not_mem_nil
    by_cases ha : a = eol
    · subst ha
      rw [lines_cons_eol, List.dropLast_cons_of_ne_nil hnil] at h
      rcases List.mem_cons.mp h with rfl | h
      · rfl
      · exact ih h
    · obtain ⟨first, others, hl⟩ := List.exists_cons_of_ne_nil hnil
      rw [lines_cons_of_ne ha, hl, List.headD_cons, List.tail_cons] at h
      have hothers : others ≠ [] := fun hothers => by rw [hothers] at h; exact absurd h List.not_mem_nil
      rw [List.dropLast_cons_of_ne_nil hothers] at h
      rw [hl, List.dropLast_cons_of_ne_nil hothers] at ih
      rcases List.mem_cons.mp h with rfl | h
      · obtain ⟨hne, -⟩ := eol_notMem_dropLast (s := s) (hl ▸ List.mem_cons_self : first ∈ lines eol s)
        rw [Ended, List.getLast?_cons_of_ne_nil hne]
        exact ih List.mem_cons_self
      · exact ih (List.mem_cons_of_mem _ h)

/-- The cut of a stream after every end of a line, and nowhere else. -/
structure IsLines (eol : α) (s : List α) (ls : List (List α)) : Prop where
  flatten : ls.flatten = s
  line : ∀ line ∈ ls, line ≠ [] ∧ eol ∉ line.dropLast
  ended : ∀ line ∈ ls.dropLast, Ended eol line

theorem isLines_lines (s : List α) : IsLines eol s (lines eol s) :=
  ⟨lines_flatten s, fun _ => eol_notMem_dropLast, fun _ => ended_of_mem_dropLast⟩

/-- A stream may be cut after the end of a line. -/
theorem lines_append {before : List α} (h : Ended eol before) (after : List α) :
    lines eol (before ++ after) = lines eol before ++ lines eol after := by
  induction before with
  | nil => exact nomatch h
  | cons a before ih =>
    by_cases hnil : before = []
    · subst hnil
      obtain rfl : a = eol := Option.some.inj h
      rw [List.singleton_append, lines_cons_eol, lines_cons_eol]
      rfl
    · rw [Ended, List.getLast?_cons_of_ne_nil hnil] at h
      rw [List.cons_append]
      by_cases ha : a = eol
      · subst ha
        rw [lines_cons_eol, lines_cons_eol, ih h, List.cons_append]
      · rw [lines_cons_of_ne ha, lines_cons_of_ne ha, ih h]
        cases hl : lines eol before with
        | nil => exact absurd (lines_eq_nil.mp hl) hnil
        | cons first others => rfl

/-- The start of a line is no line. -/
theorem not_ended_take (h : lines eol s = line :: rest) {n : ℕ} (hn : n < line.length) :
    ¬ Ended eol (line.take n) := by
  intro hended
  obtain ⟨-, hline⟩ := eol_notMem_dropLast (s := s) (h ▸ List.mem_cons_self : line ∈ lines eol s)
  refine hline ?_
  rw [List.dropLast_eq_take]
  have hmem : eol ∈ line.take n := List.mem_of_getLast? hended
  exact List.mem_of_mem_take (i := n) (by rw [List.take_take, Nat.min_eq_left (by omega)]; exact hmem)

/-! ## Pieces -/

theorem readline_append (limit : ℕ) (s : List α) : (readline eol limit s).1 ++ (readline eol limit s).2 = s := by
  induction limit generalizing s with
  | zero => rfl
  | succ limit ih =>
    cases s with
    | nil => rfl
    | cons a s =>
      rw [readline]
      split_ifs
      · rfl
      · rw [List.cons_append, ih]

theorem readline_nil (limit : ℕ) : readline eol limit ([] : List α) = ([], []) := by
  cases limit <;> rfl

/-- A piece is the start of the first line. -/
theorem readline_fst (h : lines eol s = line :: rest) (limit : ℕ) : (readline eol limit s).1 = line.take limit := by
  induction limit generalizing s line rest with
  | zero => rfl
  | succ limit ih =>
    cases s with
    | nil => exact nomatch h
    | cons a s =>
      by_cases ha : a = eol
      · subst ha
        rw [lines_cons_eol] at h
        rw [readline, if_pos rfl, ← (List.cons.inj h).1, List.take_succ_cons, List.take_nil]
      · rw [lines_cons_of_ne ha] at h
        rw [readline, if_neg ha, ← (List.cons.inj h).1, List.take_succ_cons]
        cases hl : lines eol s with
        | nil => rw [lines_eq_nil.mp hl, readline_nil, List.headD_nil, List.take_nil]
        | cons first others => rw [ih hl, List.headD_cons]

/-- After a piece come the rest of its line, unless it has been read whole, and the other lines. -/
theorem lines_readline (h : lines eol s = line :: rest) (limit : ℕ) :
    lines eol (readline eol limit s).2 = if limit < line.length then line.drop limit :: rest else rest := by
  induction limit generalizing s line rest with
  | zero =>
    obtain ⟨hne, -⟩ := eol_notMem_dropLast (s := s) (h ▸ List.mem_cons_self : line ∈ lines eol s)
    rw [if_pos (List.length_pos_iff.mpr hne)]
    exact h
  | succ limit ih =>
    cases s with
    | nil => exact nomatch h
    | cons a s =>
      by_cases ha : a = eol
      · subst ha
        rw [lines_cons_eol] at h
        obtain ⟨rfl, rfl⟩ := List.cons.inj h
        rw [readline, if_pos rfl, if_neg (by rw [List.length_singleton]; omega)]
      · rw [lines_cons_of_ne ha] at h
        obtain ⟨rfl, rfl⟩ := List.cons.inj h
        rw [readline, if_neg ha, List.length_cons]
        cases hl : lines eol s with
        | nil =>
          rw [lines_eq_nil.mp hl, readline_nil, if_neg (by rw [List.headD_nil, List.length_nil]; omega)]
          rfl
        | cons first others =>
          rw [ih hl, List.headD_cons, List.tail_cons, List.drop_succ_cons]
          simp only [Nat.add_lt_add_iff_right]

theorem readline_ne_nil (h : lines eol s = line :: rest) {limit : ℕ} (hlimit : 0 < limit) :
    (readline eol limit s).1 ≠ [] := by
  obtain ⟨hne, -⟩ := eol_notMem_dropLast (s := s) (h ▸ List.mem_cons_self : line ∈ lines eol s)
  rw [readline_fst h, ne_eq, List.take_eq_nil_iff, not_or]
  exact ⟨by omega, hne⟩

/-- What comes behind the first line, whether the piece ends it or not. -/
theorem lines_behind (h : lines eol s = line :: rest) (limit : ℕ) :
    (if Ended eol (readline eol limit s).1 then lines eol (readline eol limit s).2
      else (lines eol (readline eol limit s).2).tail) = rest := by
  rw [readline_fst h, lines_readline h]
  by_cases hlong : limit < line.length
  · rw [if_neg (not_ended_take h hlong), if_pos hlong, List.tail_cons]
  · rw [if_neg hlong, List.take_of_length_le (by omega)]
    split_ifs with hended
    · rfl
    · -- only the last line lacks its end
      by_contra hrest
      have hnil : rest ≠ [] := fun hnil => hrest (by rw [hnil, List.tail_nil])
      refine hended (ended_of_mem_dropLast (s := s) ?_)
      rw [h, List.dropLast_cons_of_ne_nil hnil]
      exact List.mem_cons_self

end Lucent.Lib.LineReader
