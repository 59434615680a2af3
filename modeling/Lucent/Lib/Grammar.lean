import Mathlib.Data.List.DropRight
import Lucent.Lib.Loads

/-!
# Lucent.Lib.Grammar — which texts are JSON texts of a value

A value has many texts: blanks, escapes, the form of its numbers and the order of its members are the writer's choice.
`Padded` is the grammar of the texts in which no object repeats a key, stated apart from any reader.

* `Spells`: the spellings of a string between its quotes; `Whole`, `Fraction`, `Exponent`: the parts of a number.
* `Bare`, `Padded`: the texts of a value, without and with blanks around; `Items`, `Members`: what brackets and braces
  hold.
* `readText_eq_some_iff`: a string is read exactly as it is spelled.
* `number_append`, `number_spec`: a number is read to its end, and what is read as a number is one.
-/

namespace Lucent.Lib.Json

/-! ## The grammar -/

def Blank (b : List Char) : Prop := ∀ c ∈ b, isBlank c = true

/-- The second text, between quotes, is a string of these characters. -/
inductive Spells : List Char → List Char → Prop
  | nil : Spells [] []
  | plain {c : Char} {s t : List Char} : c ≠ '"' → c ≠ '\\' → ¬ c.toNat < 0x20 → Spells s t → Spells (c :: s) (c :: t)
  | short {e c : Char} {s t : List Char} : shortEscape e = some c → Spells s t → Spells (c :: s) ('\\' :: e :: t)
  | unit {a b c d : Char} {n : ℕ} {s t : List Char} : unit? a b c d = some n → (n < 0xD800 ∨ 0xDFFF < n) →
      Spells s t → Spells (Char.ofNat n :: s) ('\\' :: 'u' :: a :: b :: c :: d :: t)
  | pair {a b c d a' b' c' d' : Char} {high low : ℕ} {s t : List Char} : unit? a b c d = some high →
      unit? a' b' c' d' = some low → 0xD800 ≤ high → high < 0xDC00 → 0xDC00 ≤ low → low ≤ 0xDFFF → Spells s t →
      Spells (Char.ofNat (0x10000 + (high - 0xD800) * 0x400 + (low - 0xDC00)) :: s)
        ('\\' :: 'u' :: a :: b :: c :: d :: '\\' :: 'u' :: a' :: b' :: c' :: d' :: t)

/-- Digits, at least one. -/
def Digits (l : List Char) : Prop := l ≠ [] ∧ ∀ c ∈ l, c.isDigit = true

/-- An integer part: digits without a leading zero. -/
def Whole (l : List Char) : Prop := Digits l ∧ (l.head? = some '0' → l = ['0'])

def Fraction (l : List Char) : Prop := l = [] ∨ ∃ ds, l = '.' :: ds ∧ Digits ds

def Exponent (l : List Char) : Prop :=
  l = [] ∨ ∃ e sg ds, l = e :: (sg ++ ds) ∧ (e = 'e' ∨ e = 'E') ∧ (sg = [] ∨ sg = ['-'] ∨ sg = ['+']) ∧ Digits ds

/-- The sign of a number. -/
def sign (negative : Bool) : List Char := if negative then ['-'] else []

def signed (negative : Bool) (n : ℕ) : ℤ := if negative then -n else n

/-- The text of a float: an integer part without leading zeros, then a fraction or an exponent or both. -/
inductive FloatText : List Char → Prop
  | intro (negative : Bool) {whole frac exp : List Char} : Whole whole → Fraction frac → Exponent exp →
      ¬ (frac = [] ∧ exp = []) → FloatText (sign negative ++ (whole ++ (frac ++ exp)))

mutual

/-- The text is a text of the value, without blanks around. -/
inductive Bare (readFloat : List Char → PyFloat) : Json → List Char → Prop
  | null : Bare readFloat .null "null".toList
  | bool (b : Bool) : Bare readFloat (.bool b) (if b then "true".toList else "false".toList)
  | int (negative : Bool) {whole : List Char} : Whole whole → whole.length ≤ 4300 →
      Bare readFloat (.int (signed negative (Nat.ofDigitChars 10 whole 0))) (sign negative ++ whole)
  | float {t : List Char} : FloatText t → Bare readFloat (.float (readFloat t)) t
  | str {s t : List Char} : Spells s t → Bare readFloat (.str (String.ofList s)) ('"' :: (t ++ ['"']))
  | emptyArr {b : List Char} : Blank b → Bare readFloat (.arr []) ('[' :: (b ++ [']']))
  | arr {items : List Json} {t : List Char} : Items readFloat items t → Bare readFloat (.arr items) ('[' :: (t ++ [']']))
  | emptyObj {b : List Char} : Blank b → Bare readFloat (.obj []) ('\x7b' :: (b ++ ['\x7d']))
  | obj {members : List (String × Json)} {t : List Char} : Members readFloat members t →
      (members.map Prod.fst).Nodup → Bare readFloat (.obj members) ('\x7b' :: (t ++ ['\x7d']))

/-- The text is a text of the value, with blanks around: a JSON text. -/
inductive Padded (readFloat : List Char → PyFloat) : Json → List Char → Prop
  | intro {b t b' : List Char} {v : Json} : Blank b → Bare readFloat v t → Blank b' → Padded readFloat v (b ++ (t ++ b'))

/-- Values, at least one, between commas. -/
inductive Items (readFloat : List Char → PyFloat) : List Json → List Char → Prop
  | one {v : Json} {t : List Char} : Padded readFloat v t → Items readFloat [v] t
  | cons {v : Json} {t : List Char} {items : List Json} {ts : List Char} : Padded readFloat v t →
      Items readFloat items ts → Items readFloat (v :: items) (t ++ ',' :: ts)

/-- Keys with values, at least one, between commas. -/
inductive Members (readFloat : List Char → PyFloat) : List (String × Json) → List Char → Prop
  | one {b k b' t : List Char} {key : List Char} {v : Json} : Blank b → Spells key k → Blank b' → Padded readFloat v t →
      Members readFloat [(String.ofList key, v)] (b ++ '"' :: (k ++ '"' :: (b' ++ ':' :: t)))
  | cons {b k b' t : List Char} {key : List Char} {v : Json} {members : List (String × Json)} {ts : List Char} :
      Blank b → Spells key k → Blank b' → Padded readFloat v t → Members readFloat members ts →
      Members readFloat ((String.ofList key, v) :: members) (b ++ '"' :: (k ++ '"' :: (b' ++ ':' :: (t ++ ',' :: ts))))

end

/-! ## Blanks -/

section Blanks

variable {b b' rest : List Char} {c : Char}

theorem blank_nil : Blank [] := fun _ hc => absurd hc List.not_mem_nil

theorem Blank.append (h : Blank b) (h' : Blank b') : Blank (b ++ b') := fun c hc =>
  (List.mem_append.mp hc).elim (h c) (h' c)

theorem skip_blank (h : Blank b) (rest : List Char) : skip (b ++ rest) = skip rest := List.dropWhile_append_of_pos h

theorem skip_cons (hc : isBlank c = false) (rest : List Char) : skip (c :: rest) = c :: rest := by
  rw [skip, List.dropWhile_cons, if_neg (Bool.eq_false_iff.mp hc)]

/-- A text is blanks and what follows them. -/
theorem exists_blank (s : List Char) : ∃ b, Blank b ∧ s = b ++ skip s :=
  ⟨s.takeWhile isBlank, fun _ hc => List.mem_takeWhile_imp hc, List.takeWhile_append_dropWhile.symm⟩

theorem skip_skip (s : List Char) : skip (skip s) = skip s := List.dropWhile_idempotent isBlank s

/-- What follows the blanks does not begin with one. -/
theorem isBlank_of_skip {s : List Char} (h : skip s = c :: rest) : isBlank c = false := by
  have hagain := skip_skip s
  rw [h] at hagain
  by_contra hblank
  rw [skip, List.dropWhile_cons, if_pos (by simpa using hblank)] at hagain
  have hlength := congrArg List.length hagain
  have hle := (List.dropWhile_suffix isBlank (l := rest)).length_le
  simp only [List.length_cons] at hlength
  omega

theorem expect_blank (h : Blank b) (hc : isBlank c = false) (rest : List Char) : expect c (b ++ c :: rest) = some rest := by
  rw [expect, skip_blank h, skip_cons hc]
  exact if_pos rfl

theorem expect_eq_some {s : List Char} (h : expect c s = some rest) : ∃ b, Blank b ∧ s = b ++ c :: rest := by
  obtain ⟨b, hb, hs⟩ := exists_blank s
  refine ⟨b, hb, ?_⟩
  unfold expect at h
  split at h
  · cases h
  · rename_i d l hskip
    split_ifs at h with hd
    obtain rfl := Option.some.inj h
    rw [← hd, ← hskip]
    exact hs

end Blanks

/-! ## Strings -/

section Strings

variable {s t rest : List Char}

/-- The text of a piece of a string. -/
inductive PieceText : Piece → List Char → Prop
  | plain {c : Char} : c ≠ '"' → c ≠ '\\' → ¬ c.toNat < 0x20 → PieceText (.char c) [c]
  | short {e c : Char} : shortEscape e = some c → PieceText (.char c) ['\\', e]
  | unit {a b c d : Char} {n : ℕ} : unit? a b c d = some n → PieceText (.unit n) ['\\', 'u', a, b, c, d]

theorem consPiece_eq_some {p : Option Piece} {others : Option (List Piece × List Char)} {ps : List Piece} :
    consPiece p others = some (ps, rest) ↔ ∃ q qs, p = some q ∧ others = some (qs, rest) ∧ ps = q :: qs := by
  unfold consPiece
  rcases p with _ | q
  · simp
  · rcases others with _ | ⟨qs, l⟩
    · simp
    · simp only [Option.bind_some, Option.map_some, Option.some.injEq, Prod.mk.injEq]
      constructor
      · rintro ⟨rfl, rfl⟩
        exact ⟨q, qs, rfl, ⟨rfl, rfl⟩, rfl⟩
      · rintro ⟨q', qs', rfl, ⟨rfl, rfl⟩, rfl⟩
        exact ⟨rfl, rfl⟩

theorem shortEscape_u : shortEscape 'u' = none := by decide

/-- A piece in front of a text. -/
theorem PieceText.textPieces {p : Piece} (h : PieceText p t) (rest : List Char) :
    textPieces (t ++ rest) = consPiece (some p) (textPieces rest) := by
  cases h with
  | @plain c hquote hslash hcontrol =>
    rw [List.singleton_append, textPieces.eq_def]
    simp only [if_neg hquote, if_neg hslash, if_neg hcontrol]
  | @short e c he =>
    have hu : e ≠ 'u' := by
      rintro rfl
      rw [shortEscape_u] at he
      cases he
    rw [List.cons_append, List.singleton_append, textPieces.eq_def]
    simp [hu, he]
  | unit hn =>
    rw [List.cons_append, List.cons_append, List.cons_append, List.cons_append, List.cons_append, List.singleton_append,
      textPieces.eq_def]
    simp [hn]

/-- The pieces of a string are those its text is cut into. -/
theorem textPieces_eq_some {ps : List Piece} (h : textPieces s = some (ps, rest)) :
    ∃ ts, List.Forall₂ PieceText ps ts ∧ s = ts.flatten ++ '"' :: rest := by
  have hcons : ∀ {p : Option Piece} {head tail : List Char} {qs : List Piece},
      (∀ q, p = some q → PieceText q head) →
      (∀ {ps : List Piece}, textPieces tail = some (ps, rest) →
        ∃ ts, List.Forall₂ PieceText ps ts ∧ tail = ts.flatten ++ '"' :: rest) →
      consPiece p (textPieces tail) = some (qs, rest) →
      ∃ ts, List.Forall₂ PieceText qs ts ∧ head ++ tail = ts.flatten ++ '"' :: rest := by
    intro p head tail qs hp ih hread
    obtain ⟨q, others, hq, hothers, rfl⟩ := consPiece_eq_some.mp hread
    obtain ⟨ts, hts, htail⟩ := ih hothers
    exact ⟨head :: ts, .cons (hp q hq) hts, by rw [htail, List.flatten_cons, List.append_assoc]⟩
  induction s using textPieces.induct generalizing ps with
  | case1 => cases h
  | case2 tail =>
    rw [textPieces.eq_def] at h
    obtain ⟨rfl, rfl⟩ := Prod.mk.inj (Option.some.inj h)
    exact ⟨[], .nil, rfl⟩
  | case3 _ => cases h
  | case4 a b c d tail _ ih =>
    rw [textPieces.eq_def] at h
    refine @hcons _ ['\\', 'u', a, b, c, d] tail ps ?_ (fun hread => ih hread) h
    rintro q hq
    obtain ⟨n, hn, rfl⟩ := Option.map_eq_some_iff.mp hq
    exact .unit hn
  | case5 tail hshort _ =>
    rcases tail with _ | ⟨a, _ | ⟨b, _ | ⟨c, _ | ⟨d, l⟩⟩⟩⟩
    · cases h
    · cases h
    · cases h
    · cases h
    · exact absurd rfl (hshort a b c d l)
  | case6 e tail hu _ ih =>
    rw [textPieces.eq_def] at h
    simp only [if_neg hu] at h
    refine @hcons _ ['\\', e] tail ps ?_ (fun hread => ih hread) h
    rintro q hq
    obtain ⟨c, hc, rfl⟩ := Option.map_eq_some_iff.mp hq
    exact .short hc
  | case7 c tail hquote hslash hcontrol =>
    rw [textPieces.eq_def] at h
    simp only [if_neg hquote, if_neg hslash, if_pos hcontrol] at h
    cases h
  | case8 c tail hquote hslash hcontrol ih =>
    rw [textPieces.eq_def] at h
    simp only [if_neg hquote, if_neg hslash, if_neg hcontrol] at h
    refine @hcons _ [c] tail ps ?_ (fun hread => ih hread) h
    rintro q hq
    obtain rfl := Option.some.inj hq
    exact .plain hquote hslash hcontrol

theorem textPieces_flatten {ps : List Piece} {ts : List (List Char)} (h : List.Forall₂ PieceText ps ts)
    (rest : List Char) : textPieces (ts.flatten ++ '"' :: rest) = some (ps, rest) := by
  induction h with
  | nil =>
    rw [List.flatten_nil, List.nil_append, textPieces.eq_def]
    simp
  | cons hp _ ih =>
    rw [List.flatten_cons, List.append_assoc, hp.textPieces, ih]
    rfl

/-- The pieces spell what they are joined to. -/
theorem spells_of_joinPieces {ps : List Piece} {ts : List (List Char)} (h : List.Forall₂ PieceText ps ts)
    (hjoin : joinPieces ps = some s) : Spells s ts.flatten := by
  induction ps using joinPieces.induct generalizing s ts with
  | case1 =>
    cases h
    obtain rfl := Option.some.inj hjoin
    exact .nil
  | case2 c ps ih =>
    obtain ⟨t, ts, hc, hps, rfl⟩ := List.forall₂_cons_left_iff.mp h
    obtain ⟨s, hs, rfl⟩ := Option.map_eq_some_iff.mp hjoin
    rw [List.flatten_cons]
    cases hc with
    | plain hquote hslash hcontrol => exact .plain hquote hslash hcontrol (ih hps hs)
    | short he => exact .short he (ih hps hs)
  | case3 n ps hn ih =>
    obtain ⟨t, ts, hunit, hps, rfl⟩ := List.forall₂_cons_left_iff.mp h
    rw [joinPieces.eq_def] at hjoin
    simp only [if_pos hn] at hjoin
    obtain ⟨s, hs, rfl⟩ := Option.map_eq_some_iff.mp hjoin
    rw [List.flatten_cons]
    cases hunit with
    | unit hvalue => exact .unit hvalue hn (ih hps hs)
  | case4 n hn m ps hm ih =>
    obtain ⟨t, ts, hhigh, hrest, rfl⟩ := List.forall₂_cons_left_iff.mp h
    obtain ⟨t', ts, hlow, hps, rfl⟩ := List.forall₂_cons_left_iff.mp hrest
    rw [joinPieces.eq_def] at hjoin
    simp only [if_neg hn, if_pos hm] at hjoin
    obtain ⟨s, hs, rfl⟩ := Option.map_eq_some_iff.mp hjoin
    rw [List.flatten_cons, List.flatten_cons]
    cases hhigh with
    | unit hvalue =>
      cases hlow with
      | unit hvalue' => exact .pair hvalue hvalue' (by omega) hm.1 hm.2.1 hm.2.2 (ih hps hs)
  | case5 n hn m ps hm =>
    rw [joinPieces.eq_def] at hjoin
    simp only [if_neg hn, if_neg hm] at hjoin
    cases hjoin
  | case6 n ps hn hnone =>
    rw [joinPieces.eq_def] at hjoin
    simp only [if_neg hn] at hjoin
    cases hjoin

/-- What spells a string is cut into pieces that are joined to it. -/
theorem Spells.exists_pieces (h : Spells s t) :
    ∃ ps ts, List.Forall₂ PieceText ps ts ∧ ts.flatten = t ∧ joinPieces ps = some s := by
  induction h with
  | nil => exact ⟨[], [], .nil, rfl, rfl⟩
  | @plain c s t hquote hslash hcontrol _ ih =>
    obtain ⟨ps, ts, hps, rfl, hjoin⟩ := ih
    exact ⟨.char c :: ps, [c] :: ts, .cons (.plain hquote hslash hcontrol) hps, rfl, by rw [joinPieces, hjoin]; rfl⟩
  | @short e c s t he _ ih =>
    obtain ⟨ps, ts, hps, rfl, hjoin⟩ := ih
    exact ⟨.char c :: ps, ['\\', e] :: ts, .cons (.short he) hps, rfl, by rw [joinPieces, hjoin]; rfl⟩
  | @unit a b c d n s t hvalue hn _ ih =>
    obtain ⟨ps, ts, hps, rfl, hjoin⟩ := ih
    refine ⟨.unit n :: ps, ['\\', 'u', a, b, c, d] :: ts, .cons (.unit hvalue) hps, rfl, ?_⟩
    rw [joinPieces.eq_def]
    simp only [if_pos hn, hjoin, Option.map_some]
  | @pair a b c d a' b' c' d' high low s t hvalue hvalue' hhigh hhigh' hlow hlow' _ ih =>
    obtain ⟨ps, ts, hps, rfl, hjoin⟩ := ih
    refine ⟨.unit high :: .unit low :: ps, ['\\', 'u', a, b, c, d] :: ['\\', 'u', a', b', c', d'] :: ts,
      .cons (.unit hvalue) (.cons (.unit hvalue') hps), rfl, ?_⟩
    have hsurrogate : ¬ (high < 0xD800 ∨ 0xDFFF < high) := by omega
    have hpaired : high < 0xDC00 ∧ 0xDC00 ≤ low ∧ low ≤ 0xDFFF := ⟨hhigh', hlow, hlow'⟩
    rw [joinPieces.eq_def]
    simp only [if_neg hsurrogate, if_pos hpaired, hjoin, Option.map_some]

/-- A string is read exactly as it is spelled. -/
theorem readText_eq_some_iff {text : String} : readText s = some (text, rest) ↔
    ∃ chars t, Spells chars t ∧ String.ofList chars = text ∧ s = t ++ '"' :: rest := by
  constructor
  · intro h
    obtain ⟨⟨ps, l⟩, hpieces, h⟩ := Option.bind_eq_some_iff.mp h
    obtain ⟨chars, hjoin, h⟩ := Option.bind_eq_some_iff.mp h
    obtain ⟨rfl, rfl⟩ := Prod.mk.inj (Option.some.inj h)
    obtain ⟨ts, hts, rfl⟩ := textPieces_eq_some hpieces
    exact ⟨chars, ts.flatten, spells_of_joinPieces hts hjoin, rfl, rfl⟩
  · rintro ⟨chars, t, hspells, rfl, rfl⟩
    obtain ⟨ps, ts, hps, rfl, hjoin⟩ := hspells.exists_pieces
    unfold readText
    rw [textPieces_flatten hps]
    simp only [Option.bind_eq_bind, Option.bind_some, hjoin]
    rfl

end Strings

/-! ## Numbers -/

/-- What may follow a value: the end, a blank, a comma or a closing bracket. -/
def Ends (rest : List Char) : Prop := ∀ c ∈ rest.head?, isBlank c = true ∨ c = ',' ∨ c = ']' ∨ c = '\x7d'

section Numbers

variable {readFloat : List Char → PyFloat} {whole frac exp rest : List Char}

theorem ends_nil : Ends [] := fun _ hc => absurd hc (Option.not_mem_none _)

theorem Ends.head {c : Char} (h : Ends (c :: rest)) :
    c.isDigit = false ∧ c ≠ '.' ∧ c ≠ 'e' ∧ c ≠ 'E' := by
  rcases h c rfl with hblank | rfl | rfl | rfl
  · unfold isBlank at hblank
    simp only [Bool.or_eq_true, beq_iff_eq] at hblank
    rcases hblank with ((rfl | rfl) | rfl) | rfl <;> decide
  all_goals decide

/-- Digits are taken up to what is none. -/
theorem takeWhile_digits {l : List Char} (hl : ∀ c ∈ l, c.isDigit = true) (hr : ∀ c ∈ rest.head?, c.isDigit = false) :
    (l ++ rest).takeWhile Char.isDigit = l ∧ (l ++ rest).dropWhile Char.isDigit = rest := by
  have hrest : rest.takeWhile Char.isDigit = [] ∧ rest.dropWhile Char.isDigit = rest := by
    rcases rest with _ | ⟨c, rest⟩
    · exact ⟨rfl, rfl⟩
    · exact ⟨by simp [hr c rfl], by simp [hr c rfl]⟩
  rw [List.takeWhile_append_of_pos hl, List.dropWhile_append_of_pos hl, hrest.1, hrest.2, List.append_nil]
  exact ⟨rfl, rfl⟩

/-- The digits a text begins with, and the rest. -/
theorem exists_digits {c : Char} {s : List Char} (hc : c.isDigit = true) :
    Digits (c :: s.takeWhile Char.isDigit) ∧
      c :: s = c :: s.takeWhile Char.isDigit ++ s.dropWhile Char.isDigit := by
  refine ⟨⟨List.cons_ne_nil _ _, fun d hd => ?_⟩, by rw [List.cons_append, List.takeWhile_append_dropWhile]⟩
  rcases List.mem_cons.mp hd with rfl | hd
  · exact hc
  · exact List.mem_takeWhile_imp hd

theorem Digits.exists_cons {l : List Char} (h : Digits l) :
    ∃ d ds, l = d :: ds ∧ d.isDigit = true ∧ ∀ c ∈ ds, c.isDigit = true := by
  obtain ⟨d, ds, rfl⟩ := List.exists_cons_of_ne_nil h.1
  exact ⟨d, ds, rfl, h.2 d List.mem_cons_self, fun c hc => h.2 c (List.mem_cons_of_mem d hc)⟩

/-- An exponent is read to its end. -/
theorem exponent_append (hexp : Exponent exp) (hr : Ends rest) : exponent (exp ++ rest) = (exp, rest) := by
  rcases hexp with rfl | ⟨e, sg, ds, rfl, he, hsg, hds⟩
  · rcases rest with _ | ⟨c, rest⟩
    · rfl
    · have hc : ¬ (c = 'e' ∨ c = 'E') := not_or.mpr hr.head.2.2
      rw [List.nil_append, exponent.eq_def]
      simp only [if_neg hc]
  · obtain ⟨d, ds, rfl, hd, hall⟩ := hds.exists_cons
    have hhead : ∀ c ∈ rest.head?, c.isDigit = false := by
      intro c hc
      rcases rest with _ | ⟨c', rest⟩
      · cases hc
      · obtain rfl := Option.some.inj hc
        exact hr.head.1
    obtain ⟨htake, hdrop⟩ := takeWhile_digits hds.2 hhead
    have hdigits : ∀ sign all, exponentDigits sign (d :: ds ++ rest) all = (sign ++ d :: ds, rest) := by
      intro sign all
      unfold exponentDigits
      rw [htake, hdrop, List.cons_append, List.head?_cons, Option.any_some, hd, if_pos rfl]
    rcases hsg with rfl | rfl | rfl
    · have hne : ∀ c : Char, c.isDigit = false → d ≠ c := by
        rintro c hc rfl
        exact Bool.false_ne_true (hc.symm.trans hd)
      show exponent (e :: d :: (ds ++ rest)) = _
      rw [exponent, if_pos he]
      · exact hdigits _ _
      · exact fun l heq => absurd (List.cons.inj heq).1 (hne '-' rfl)
      · exact fun l heq => absurd (List.cons.inj heq).1 (hne '+' rfl)
    · show exponent (e :: '-' :: (d :: ds ++ rest)) = _
      rw [exponent, if_pos he]
      exact hdigits _ _
    · show exponent (e :: '+' :: (d :: ds ++ rest)) = _
      rw [exponent, if_pos he]
      exact hdigits _ _

/-- What is read as an exponent is one. -/
theorem exponent_spec (s : List Char) : Exponent (exponent s).1 ∧ s = (exponent s).1 ++ (exponent s).2 := by
  have hdigits : ∀ e sg rest, (e = 'e' ∨ e = 'E') → (sg = [] ∨ sg = ['-'] ∨ sg = ['+']) →
      Exponent (exponentDigits (e :: sg) rest (e :: (sg ++ rest))).1 ∧ e :: (sg ++ rest) =
        (exponentDigits (e :: sg) rest (e :: (sg ++ rest))).1 ++ (exponentDigits (e :: sg) rest (e :: (sg ++ rest))).2 := by
    intro e sg rest he hsg
    unfold exponentDigits
    split_ifs with hhead
    · rcases rest with _ | ⟨d, rest⟩
      · cases hhead
      · obtain ⟨hds, hsplit⟩ := @exists_digits d rest hhead
        have htake : (d :: rest).takeWhile Char.isDigit = d :: rest.takeWhile Char.isDigit :=
          List.takeWhile_cons_of_pos hhead
        have hdrop : (d :: rest).dropWhile Char.isDigit = rest.dropWhile Char.isDigit :=
          List.dropWhile_cons_of_pos hhead
        rw [htake, hdrop]
        refine ⟨.inr ⟨e, sg, _, rfl, he, hsg, hds⟩, ?_⟩
        rw [hsplit]
        simp
    · exact ⟨.inl rfl, rfl⟩
  rcases s with _ | ⟨e, rest⟩
  · exact ⟨.inl rfl, rfl⟩
  · by_cases he : e = 'e' ∨ e = 'E'
    · rw [exponent.eq_def]
      simp only [if_pos he]
      split
      · exact hdigits e ['-'] _ he (.inr (.inl rfl))
      · exact hdigits e ['+'] _ he (.inr (.inr rfl))
      · exact hdigits e [] _ he (.inl rfl)
    · rw [exponent.eq_def]
      simp only [if_neg he]
      exact ⟨.inl rfl, rfl⟩

/-- A fraction is read to the exponent. -/
theorem fraction_append (hfrac : Fraction frac) (hr : ∀ c ∈ rest.head?, c.isDigit = false ∧ c ≠ '.') :
    fraction (frac ++ rest) = (frac, rest) := by
  rcases hfrac with rfl | ⟨ds, rfl, hds⟩
  · rcases rest with _ | ⟨c, rest⟩
    · rfl
    · rw [List.nil_append, fraction]
      intro d l heq
      exact absurd (List.cons.inj heq).1 (hr c rfl).2
  · obtain ⟨d, ds, rfl, hd, hall⟩ := hds.exists_cons
    obtain ⟨htake, hdrop⟩ := takeWhile_digits hall fun c hc => (hr c hc).1
    rw [List.cons_append, List.cons_append, fraction, if_pos hd, htake, hdrop]

/-- What is read as a fraction is one. -/
theorem fraction_spec (s : List Char) : Fraction (fraction s).1 ∧ s = (fraction s).1 ++ (fraction s).2 := by
  unfold fraction
  split
  · rename_i c rest
    split_ifs with hc
    · obtain ⟨hds, hsplit⟩ := @exists_digits c rest hc
      exact ⟨.inr ⟨_, rfl, hds⟩, congrArg ('.' :: ·) hsplit⟩
    · exact ⟨.inl rfl, rfl⟩
  · exact ⟨.inl rfl, rfl⟩

/-- The value of a number: an integer of at most 4300 digits, or a float. -/
def numberValue (readFloat : List Char → PyFloat) (negative : Bool) (whole frac exp : List Char) : Option Json :=
  if frac = [] ∧ exp = [] then
    if whole.length ≤ 4300 then some (.int (signed negative (Nat.ofDigitChars 10 whole 0))) else none
  else some (.float (readFloat (sign negative ++ (whole ++ (frac ++ exp)))))

theorem isEmpty_and_iff : ((frac.isEmpty && exp.isEmpty) = true) ↔ frac = [] ∧ exp = [] := by
  rw [Bool.and_eq_true, List.isEmpty_iff, List.isEmpty_iff]

/-- A number is read to its end. -/
theorem unsignedNumber_append (hwhole : Whole whole) (hfrac : Fraction frac) (hexp : Exponent exp) (hr : Ends rest)
    (negative : Bool) : unsignedNumber readFloat negative (whole ++ (frac ++ (exp ++ rest))) =
      (numberValue readFloat negative whole frac exp).map fun v => (v, rest) := by
  have hexpHead : ∀ c ∈ (exp ++ rest).head?, c.isDigit = false ∧ c ≠ '.' := by
    intro c hc
    rcases hexp with rfl | ⟨e, sg, ds, rfl, he, -⟩
    · rcases rest with _ | ⟨c', rest⟩
      · cases hc
      · obtain rfl : c' = c := Option.some.inj hc
        exact ⟨hr.head.1, hr.head.2.1⟩
    · obtain rfl : e = c := Option.some.inj hc
      rcases he with rfl | rfl <;> decide
  have hfracHead : ∀ c ∈ (frac ++ (exp ++ rest)).head?, c.isDigit = false := by
    intro c hc
    rcases hfrac with rfl | ⟨ds, rfl, -⟩
    · exact (hexpHead c hc).1
    · obtain rfl : '.' = c := Option.some.inj hc
      decide
  obtain ⟨c, ds, rfl, hc, hds⟩ := hwhole.1.exists_cons
  obtain ⟨htake, hdrop⟩ := takeWhile_digits hds hfracHead
  have hvalue : (if (frac.isEmpty && exp.isEmpty) = true then
      if (c :: ds).length ≤ 4300 then
        some (Json.int (if negative then -(Nat.ofDigitChars 10 (c :: ds) 0 : ℤ) else Nat.ofDigitChars 10 (c :: ds) 0), rest)
      else none
    else some (Json.float (readFloat ((if negative then ['-'] else []) ++ c :: ds ++ frac ++ exp)), rest)) =
      (numberValue readFloat negative (c :: ds) frac exp).map fun v => (v, rest) := by
    unfold numberValue sign signed
    simp only [isEmpty_and_iff, List.append_assoc]
    split_ifs <;> rfl
  rw [← hvalue, List.cons_append, unsignedNumber]
  by_cases h0 : c = '0'
  · obtain ⟨-, rfl⟩ := List.cons.inj (hwhole.2 (h0 ▸ rfl))
    subst h0
    simp only [hc, Bool.not_true, Bool.false_eq_true, if_false, if_true, List.nil_append,
      fraction_append hfrac hexpHead, exponent_append hexp hr]
  · simp only [hc, h0, Bool.not_true, Bool.false_eq_true, if_false, htake, hdrop,
      fraction_append hfrac hexpHead, exponent_append hexp hr]

/-- What is read as a number without its sign is one. -/
theorem unsignedNumber_spec {negative : Bool} {s : List Char} {v : Json}
    (h : unsignedNumber readFloat negative s = some (v, rest)) :
    ∃ whole frac exp, Whole whole ∧ Fraction frac ∧ Exponent exp ∧ s = whole ++ (frac ++ (exp ++ rest)) ∧
      numberValue readFloat negative whole frac exp = some v := by
  rcases s with _ | ⟨c, s⟩
  · cases h
  · rw [unsignedNumber] at h
    by_cases hc : c.isDigit = true
    · rw [hc] at h
      simp only [Bool.not_true, Bool.false_eq_true, if_false] at h
      obtain ⟨whole, after, hwhole, hwholeEq, hafterEq, hsplit⟩ : ∃ whole after, Whole whole ∧
          (if c = '0' then ['0'] else c :: s.takeWhile Char.isDigit) = whole ∧
          (if c = '0' then s else s.dropWhile Char.isDigit) = after ∧ c :: s = whole ++ after := by
        by_cases h0 : c = '0'
        · subst h0
          exact ⟨['0'], s, ⟨⟨List.cons_ne_nil _ _, fun d hd => List.mem_singleton.mp hd ▸ hc⟩, fun _ => rfl⟩,
            if_pos rfl, if_pos rfl, rfl⟩
        · obtain ⟨hds, hsplit⟩ := @exists_digits c s hc
          exact ⟨_, _, ⟨hds, fun heq => absurd (Option.some.inj heq) h0⟩, if_neg h0, if_neg h0, hsplit⟩
      rw [hwholeEq, hafterEq] at h
      obtain ⟨hfrac, hfracSplit⟩ := fraction_spec after
      obtain ⟨hexp, hexpSplit⟩ := exponent_spec (fraction after).2
      generalize fraction after = f at h hfrac hfracSplit hexp hexpSplit
      generalize exponent f.2 = x at h hexp hexpSplit
      have hvalue : numberValue readFloat negative whole f.1 x.1 = some v ∧ x.2 = rest := by
        unfold numberValue sign signed
        simp only [isEmpty_and_iff] at h
        by_cases hnil : f.1 = [] ∧ x.1 = []
        · rw [if_pos hnil] at h ⊢
          by_cases hlen : whole.length ≤ 4300
          · rw [if_pos hlen] at h ⊢
            exact (Prod.mk.inj (Option.some.inj h)).imp_left (congrArg some)
          · rw [if_neg hlen] at h
            cases h
        · rw [if_neg hnil] at h ⊢
          simp only [List.append_assoc] at h ⊢
          exact (Prod.mk.inj (Option.some.inj h)).imp_left (congrArg some)
      refine ⟨whole, f.1, x.1, hwhole, hfrac, hexp, ?_, hvalue.1⟩
      rw [← hvalue.2, ← hexpSplit, ← hfracSplit]
      exact hsplit
    · rw [Bool.not_eq_true] at hc
      rw [hc] at h
      cases h

theorem number_append (hwhole : Whole whole) (hfrac : Fraction frac) (hexp : Exponent exp) (hr : Ends rest)
    (negative : Bool) : number readFloat (sign negative ++ (whole ++ (frac ++ (exp ++ rest)))) =
      (numberValue readFloat negative whole frac exp).map fun v => (v, rest) := by
  rw [← unsignedNumber_append hwhole hfrac hexp hr negative]
  cases negative with
  | true => rfl
  | false =>
    obtain ⟨c, ds, rfl, hc, -⟩ := hwhole.1.exists_cons
    show number readFloat (c :: (ds ++ (frac ++ (exp ++ rest)))) = _
    unfold number
    split
    · rename_i heq
      rw [(List.cons.inj heq).1] at hc
      exact absurd hc (by decide)
    · rfl

/-- The parts of a number are a text of its value. -/
theorem bare_of_numberValue {negative : Bool} {v : Json} (hwhole : Whole whole) (hfrac : Fraction frac)
    (hexp : Exponent exp) (h : numberValue readFloat negative whole frac exp = some v) :
    Bare readFloat v (sign negative ++ (whole ++ (frac ++ exp))) := by
  unfold numberValue at h
  split_ifs at h with hnil hlen
  · obtain rfl := Option.some.inj h
    rw [hnil.1, hnil.2, List.append_nil, List.append_nil]
    exact .int negative hwhole hlen
  · obtain rfl := Option.some.inj h
    exact .float (.intro negative hwhole hfrac hexp hnil)

theorem number_spec {s : List Char} {v : Json} (h : number readFloat s = some (v, rest)) :
    ∃ t, Bare readFloat v t ∧ s = t ++ rest := by
  have hparts : ∀ {negative : Bool} {l : List Char}, unsignedNumber readFloat negative l = some (v, rest) →
      ∃ t, Bare readFloat v t ∧ sign negative ++ l = t ++ rest := by
    intro negative l hread
    obtain ⟨whole, frac, exp, hwhole, hfrac, hexp, rfl, hvalue⟩ := unsignedNumber_spec hread
    exact ⟨_, bare_of_numberValue hwhole hfrac hexp hvalue, by simp only [List.append_assoc]⟩
  unfold number at h
  split at h
  · exact @hparts true _ h
  · exact @hparts false _ h

end Numbers

end Lucent.Lib.Json
