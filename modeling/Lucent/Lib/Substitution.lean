import Mathlib.Data.List.Basic
import Mathlib.Data.List.Infix
import Mathlib.Data.List.Chain

/-!
# Lucent.Lib.Substitution — replacing words one after another, and all at once

`replaceWord` replaces the occurrences of a word that a scan from the left finds.  Replacing several words one after the
other also replaces what earlier replacements have put there.  All at once, only the text itself is looked at: it is
divided into `Piece`s, and no piece that was put in is looked into again.

* `cuts`: what is left of a text around the occurrences of a word.
* `fillAll`: the text with all words replaced at once; `divides_fillAll` says what that means.
* `replaceAll_eq_shown_fillAll`: the two agree where no word comes to occur anywhere but in the text itself.
-/

namespace Lucent.Lib.Substitution

variable {α : Type} [DecidableEq α]

/-! ## Occurrences -/

/-- The parts of a text around the occurrences of a word, from the left; `skip` items belong to an occurrence. -/
def cutsFrom (word : List α) : ℕ → List α → List (List α)
  | _, [] => [[]]
  | skip + 1, _ :: rest => cutsFrom word skip rest
  | 0, a :: rest =>
    if word.isPrefixOf (a :: rest) then [] :: cutsFrom word (word.length - 1) rest
    else match cutsFrom word 0 rest with
      | [] => [[a]]
      | part :: parts => (a :: part) :: parts

/-- The parts of a text around the occurrences of a word. -/
def cuts (word s : List α) : List (List α) := cutsFrom word 0 s

/-- Replace the occurrences of a word. -/
def replaceWord (word fill s : List α) : List α := fill.intercalate (cuts word s)

/-- Replace words, one after the other. -/
def replaceAll (fills : List (List α × List α)) (s : List α) : List α :=
  fills.foldl (fun text f => replaceWord f.1 f.2 text) s

/-! ## All at once -/

/-- A part of the text, or an occurrence of a word with what is put there. -/
inductive Piece (α : Type)
  | literal (s : List α)
  | filled (word fill : List α)

/-- What the piece is in the text. -/
def Piece.source : Piece α → List α
  | .literal s => s
  | .filled word _ => word

/-- What the piece is in the result. -/
def Piece.shown : Piece α → List α
  | .literal s => s
  | .filled _ fill => fill

def Piece.isLiteral : Piece α → Bool
  | .literal _ => true
  | .filled _ _ => false

def source (pieces : List (Piece α)) : List α := pieces.flatMap Piece.source

def shown (pieces : List (Piece α)) : List α := pieces.flatMap Piece.shown

/-- Parts with an occurrence between any two of them. -/
def interleave (word fill : List α) : List (List α) → List (Piece α)
  | [] => []
  | [part] => [.literal part]
  | part :: parts => .literal part :: .filled word fill :: interleave word fill parts

/-- Fill in a word where it occurs in the text. -/
def fillPieces (word fill : List α) (pieces : List (Piece α)) : List (Piece α) :=
  pieces.flatMap fun piece => match piece with
    | .literal s => interleave word fill (cuts word s)
    | .filled word' fill' => [.filled word' fill']

/-- Fill in words; an occurrence goes to the first word that has it. -/
def fillAll (fills : List (List α × List α)) (pieces : List (Piece α)) : List (Piece α) :=
  fills.foldl (fun pieces f => fillPieces f.1 f.2 pieces) pieces

/-- Not both pieces are literal. -/
def Apart (p q : Piece α) : Prop := ¬ (p.isLiteral = true ∧ q.isLiteral = true)

/-- The pieces are the text, with the words everywhere replaced; no word is hidden where two literal pieces meet. -/
structure Divides (fills : List (List α × List α)) (text : List α) (pieces : List (Piece α)) : Prop where
  source : source pieces = text
  apart : pieces.IsChain Apart
  filled : ∀ word fill, .filled word fill ∈ pieces → (word, fill) ∈ fills
  literal : ∀ s, .literal s ∈ pieces → ∀ f ∈ fills, ¬ f.1 <:+: s

/-! ## Where a word occurs -/

/-- Two lists of parts; the last one of the first list and the first one of the second belong together. -/
def glue : List (List α) → List (List α) → List (List α)
  | [], parts => parts
  | [part], [] => [part]
  | [part], part' :: parts => (part ++ part') :: parts
  | part :: parts, parts' => part :: glue parts parts'

/-- The parts of a result around the occurrences of a word in the literal pieces. -/
def pieceCuts (word : List α) : List (Piece α) → List (List α)
  | [] => [[]]
  | .literal s :: rest => glue (cuts word s) (pieceCuts word rest)
  | .filled _ fill :: rest => glue [fill] (pieceCuts word rest)

/-- Filled in one after the other, each word occurs in literal pieces only. -/
def OnlyInText : List (List α × List α) → List (Piece α) → Prop
  | [], _ => True
  | f :: fills, pieces => cuts f.1 (shown pieces) = pieceCuts f.1 pieces ∧ OnlyInText fills (fillPieces f.1 f.2 pieces)

/-- Replaced one after the other, each word is replaced in literal pieces only. -/
def OnlyReplacedInText : List (List α × List α) → List α → List (Piece α) → Prop
  | [], _, _ => True
  | f :: fills, s, pieces => cuts f.1 s = pieceCuts f.1 pieces ∧
      OnlyReplacedInText fills (replaceWord f.1 f.2 s) (fillPieces f.1 f.2 pieces)

instance decidableOnlyInText : ∀ (fills : List (List α × List α)) (pieces : List (Piece α)),
    Decidable (OnlyInText fills pieces)
  | [], _ => isTrue trivial
  | f :: fills, pieces =>
    haveI := decidableOnlyInText fills (fillPieces f.1 f.2 pieces)
    inferInstanceAs (Decidable (_ ∧ _))

section Cuts

variable {word fill s : List α}

theorem cutsFrom_ne_nil (word : List α) (skip : ℕ) (s : List α) : cutsFrom word skip s ≠ [] := by
  induction s generalizing skip with
  | nil => cases skip <;> exact List.cons_ne_nil _ _
  | cons a s ih =>
    cases skip with
    | succ skip => exact ih skip
    | zero =>
      rw [cutsFrom]
      split_ifs
      · exact List.cons_ne_nil _ _
      · split <;> exact List.cons_ne_nil _ _

theorem cuts_ne_nil (word s : List α) : cuts word s ≠ [] := cutsFrom_ne_nil word 0 s

/-- An item that begins no occurrence goes to the first part. -/
theorem cutsFrom_cons_of_not {a : α} (h : ¬ word.isPrefixOf (a :: s) = true) :
    ∃ part parts, cutsFrom word 0 s = part :: parts ∧ cutsFrom word 0 (a :: s) = (a :: part) :: parts := by
  obtain ⟨part, parts, hparts⟩ := List.exists_cons_of_ne_nil (cutsFrom_ne_nil word 0 s)
  refine ⟨part, parts, hparts, ?_⟩
  rw [cutsFrom, if_neg h, hparts]

/-- The first part begins the text. -/
theorem prefix_of_cutsFrom {skip : ℕ} {part : List α} {parts : List (List α)}
    (h : cutsFrom word skip s = part :: parts) : part <+: s.drop skip := by
  induction s generalizing skip part parts with
  | nil =>
    have hnil : cutsFrom word skip ([] : List α) = [[]] := by cases skip <;> rfl
    obtain ⟨rfl, -⟩ := List.cons.inj (hnil.symm.trans h)
    exact List.nil_prefix
  | cons a s ih =>
    cases skip with
    | succ skip => exact ih h
    | zero =>
      by_cases hword : word.isPrefixOf (a :: s) = true
      · rw [cutsFrom, if_pos hword] at h
        exact (List.cons.inj h).1 ▸ List.nil_prefix
      · obtain ⟨part', parts', hparts, hcons⟩ := cutsFrom_cons_of_not hword
        obtain ⟨rfl, -⟩ := List.cons.inj (hcons.symm.trans h)
        exact List.cons_prefix_cons.mpr ⟨rfl, ih hparts⟩

/-- No part has an occurrence of the word. -/
theorem not_infix_of_mem_cutsFrom (hword : word ≠ []) {skip : ℕ} {part : List α} (h : part ∈ cutsFrom word skip s) :
    ¬ word <:+: part := by
  have hnil : ¬ word <:+: ([] : List α) := fun hinfix => hword (List.infix_nil.mp hinfix)
  induction s generalizing skip part with
  | nil =>
    obtain rfl : part = [] := by cases skip <;> exact List.mem_singleton.mp h
    exact hnil
  | cons a s ih =>
    cases skip with
    | succ skip => exact ih h
    | zero =>
      by_cases hpre : word.isPrefixOf (a :: s) = true
      · rw [cutsFrom, if_pos hpre] at h
        rcases List.mem_cons.mp h with rfl | h
        · exact hnil
        · exact ih h
      · obtain ⟨part', parts', hparts, hcons⟩ := cutsFrom_cons_of_not hpre
        rw [hcons] at h
        rcases List.mem_cons.mp h with rfl | h
        · intro hwithin
          rcases List.infix_cons_iff.mp hwithin with hstarts | hwithin
          · have hstart : a :: part' <+: a :: s := List.cons_prefix_cons.mpr ⟨rfl, prefix_of_cutsFrom hparts⟩
            exact hpre (List.isPrefixOf_iff_prefix.mpr (hstarts.trans hstart))
          · exact ih (hparts ▸ List.mem_cons_self) hwithin
        · exact ih (hparts ▸ List.mem_cons_of_mem _ h)

omit [DecidableEq α] in
theorem intercalate_cons {part : List α} {parts : List (List α)} (h : parts ≠ []) :
    fill.intercalate (part :: parts) = part ++ fill ++ fill.intercalate parts := by
  obtain ⟨part', parts', rfl⟩ := List.exists_cons_of_ne_nil h
  exact List.intercalate_cons_cons

/-- The parts with the word between them are the text. -/
theorem intercalate_cutsFrom (hword : word ≠ []) (skip : ℕ) (s : List α) :
    word.intercalate (cutsFrom word skip s) = s.drop skip := by
  induction s generalizing skip with
  | nil => cases skip <;> exact List.intercalate_singleton
  | cons a s ih =>
    cases skip with
    | succ skip => exact ih skip
    | zero =>
      by_cases hpre : word.isPrefixOf (a :: s) = true
      · obtain ⟨rest, hrest⟩ := List.isPrefixOf_iff_prefix.mp hpre
        obtain ⟨b, word', rfl⟩ := List.exists_cons_of_ne_nil hword
        obtain ⟨rfl, rfl⟩ := List.cons.inj hrest
        rw [cutsFrom, if_pos hpre, intercalate_cons (cutsFrom_ne_nil _ _ _), ih, List.nil_append, List.length_cons,
          Nat.add_sub_cancel]
        exact congrArg (b :: word' ++ ·) List.drop_left
      · obtain ⟨part, parts, hparts, hcons⟩ := cutsFrom_cons_of_not hpre
        have hrest := ih 0
        rw [hcons]
        rw [hparts, List.drop_zero] at hrest
        rw [List.drop_zero, ← hrest]
        cases parts with
        | nil => rw [List.intercalate_singleton, List.intercalate_singleton]
        | cons part' parts => rw [List.intercalate_cons_cons, List.intercalate_cons_cons]; rfl

omit [DecidableEq α] in
theorem infix_intercalate {part : List α} {parts : List (List α)} (h : part ∈ parts) :
    part <:+: word.intercalate parts := by
  induction parts with
  | nil => exact absurd h List.not_mem_nil
  | cons first rest ih =>
    by_cases hrest : rest = []
    · subst hrest
      rw [List.mem_singleton.mp h, List.intercalate_singleton]
    · rw [intercalate_cons hrest]
      rcases List.mem_cons.mp h with rfl | h
      · exact (List.prefix_append _ _).isInfix.trans (List.prefix_append _ _).isInfix
      · exact (ih h).trans (List.suffix_append _ _).isInfix

omit [DecidableEq α] in
theorem intercalate_glue : ∀ {xs ys : List (List α)}, xs ≠ [] → ys ≠ [] →
    fill.intercalate (glue xs ys) = fill.intercalate xs ++ fill.intercalate ys
  | [], _, hx, _ => absurd rfl hx
  | [_], [], _, hy => absurd rfl hy
  | [x], [y], _, _ => by
    rw [glue, List.intercalate_singleton, List.intercalate_singleton, List.intercalate_singleton]
  | [x], y :: y' :: ys, _, _ => by
    rw [glue, List.intercalate_cons_cons, List.intercalate_cons_cons, List.intercalate_singleton, List.append_assoc,
      List.append_assoc, List.append_assoc]
  | x :: x' :: xs, ys, _, hy => by
    have hglue : glue (x' :: xs) ys ≠ [] := by
      cases xs <;> cases ys <;> exact List.cons_ne_nil _ _
    have hcons : glue (x :: x' :: xs) ys = x :: glue (x' :: xs) ys := by cases ys <;> rfl
    rw [hcons, intercalate_cons hglue, intercalate_glue (List.cons_ne_nil _ _) hy, List.intercalate_cons_cons,
      List.append_assoc, List.append_assoc, List.append_assoc]

theorem cuts_of_not_infix (h : ¬ word <:+: s) : cuts word s = [s] := by
  induction s with
  | nil => rfl
  | cons a s ih =>
    rw [List.infix_cons_iff, not_or] at h
    obtain ⟨part, parts, hparts, hcons⟩ := @cutsFrom_cons_of_not _ _ word s a
      fun hpre => h.1 (List.isPrefixOf_iff_prefix.mp hpre)
    obtain ⟨rfl, rfl⟩ := List.cons.inj (hparts.symm.trans (ih h.2))
    exact hcons

/-- A text without the word stays as it is. -/
theorem replaceWord_of_not_infix (h : ¬ word <:+: s) (fill : List α) : replaceWord word fill s = s := by
  rw [replaceWord, cuts_of_not_infix h, List.intercalate_singleton]

end Cuts

/-! ## Pieces -/

section Pieces

variable {word fill : List α} {fills : List (List α × List α)} {pieces : List (Piece α)}

omit [DecidableEq α] in
theorem shown_interleave (word fill : List α) (parts : List (List α)) :
    shown (interleave word fill parts) = fill.intercalate parts := by
  induction parts with
  | nil => rfl
  | cons part rest ih =>
    cases rest with
    | nil => rw [List.intercalate_singleton]; exact List.append_nil part
    | cons part' rest =>
      rw [List.intercalate_cons_cons, ← ih]
      show part ++ (fill ++ shown _) = _
      rw [List.append_assoc]

omit [DecidableEq α] in
theorem source_interleave (word fill : List α) (parts : List (List α)) :
    source (interleave word fill parts) = word.intercalate parts := by
  induction parts with
  | nil => rfl
  | cons part rest ih =>
    cases rest with
    | nil => rw [List.intercalate_singleton]; exact List.append_nil part
    | cons part' rest =>
      rw [List.intercalate_cons_cons, ← ih]
      show part ++ (word ++ source _) = _
      rw [List.append_assoc]

theorem pieceCuts_ne_nil (word : List α) (pieces : List (Piece α)) : pieceCuts word pieces ≠ [] := by
  have hglue : ∀ {xs ys : List (List α)}, xs ≠ [] → glue xs ys ≠ [] := by
    intro xs ys hx
    rcases xs with _ | ⟨x, _ | ⟨x', xs⟩⟩
    · exact absurd rfl hx
    · cases ys <;> exact List.cons_ne_nil _ _
    · exact List.cons_ne_nil _ _
  rcases pieces with _ | ⟨s | ⟨word', fill⟩, rest⟩
  · exact List.cons_ne_nil _ _
  · exact hglue (cuts_ne_nil word s)
  · exact hglue (List.cons_ne_nil _ _)

/-- Filling in a word puts its replacement where the word occurs in literal pieces. -/
theorem shown_fillPieces (word fill : List α) (pieces : List (Piece α)) :
    shown (fillPieces word fill pieces) = fill.intercalate (pieceCuts word pieces) := by
  induction pieces with
  | nil => exact List.intercalate_singleton.symm
  | cons piece rest ih =>
    rcases piece with s | ⟨word', fill'⟩
    · rw [pieceCuts, intercalate_glue (cuts_ne_nil word s) (pieceCuts_ne_nil word rest), ← ih,
        ← shown_interleave word fill (cuts word s)]
      exact List.flatMap_append
    · rw [pieceCuts, intercalate_glue (List.cons_ne_nil _ _) (pieceCuts_ne_nil word rest), ← ih,
        List.intercalate_singleton]
      rfl

/-- **Where words occur in the text only**, replacing them one after another is replacing them all at once. -/
theorem replaceAll_eq_shown_fillAll (h : OnlyInText fills pieces) :
    replaceAll fills (shown pieces) = shown (fillAll fills pieces) := by
  induction fills generalizing pieces with
  | nil => rfl
  | cons f fills ih =>
    have hstep : replaceWord f.1 f.2 (shown pieces) = shown (fillPieces f.1 f.2 pieces) := by
      rw [replaceWord, h.1, shown_fillPieces]
    show replaceAll fills (replaceWord f.1 f.2 (shown pieces)) = _
    rw [hstep, ih h.2]
    rfl

/-- Words are replaced in the text only exactly if they occur there only. -/
theorem onlyReplacedInText_iff : OnlyReplacedInText fills (shown pieces) pieces ↔ OnlyInText fills pieces := by
  induction fills generalizing pieces with
  | nil => exact Iff.rfl
  | cons f fills ih =>
    refine and_congr_right fun hcuts => ?_
    have hstep : replaceWord f.1 f.2 (shown pieces) = shown (fillPieces f.1 f.2 pieces) := by
      rw [replaceWord, hcuts, shown_fillPieces]
    rw [hstep, ih]

/-! ## What replacing all at once means -/

theorem source_fillPieces (hword : word ≠ []) (fill : List α) (pieces : List (Piece α)) :
    source (fillPieces word fill pieces) = source pieces := by
  induction pieces with
  | nil => rfl
  | cons piece rest ih =>
    rcases piece with s | ⟨word', fill'⟩
    · have hs : source (interleave word fill (cuts word s)) = s := by
        rw [source_interleave, cuts, intercalate_cutsFrom hword, List.drop_zero]
      show source (interleave word fill (cuts word s) ++ fillPieces word fill rest) = s ++ source rest
      rw [source, List.flatMap_append]
      exact congrArg₂ (· ++ ·) hs ih
    · exact congrArg (word' ++ ·) ih

omit [DecidableEq α] in
theorem mem_interleave {parts : List (List α)} {piece : Piece α} (h : piece ∈ interleave word fill parts) :
    piece = .filled word fill ∨ ∃ part ∈ parts, piece = .literal part := by
  induction parts with
  | nil => exact absurd h List.not_mem_nil
  | cons part rest ih =>
    cases rest with
    | nil => exact .inr ⟨part, List.mem_cons_self, List.mem_singleton.mp h⟩
    | cons part' rest =>
      rcases List.mem_cons.mp h with rfl | h
      · exact .inr ⟨part, List.mem_cons_self, rfl⟩
      · rcases List.mem_cons.mp h with rfl | h
        · exact .inl rfl
        · exact (ih h).imp_right fun ⟨p, hp, hpiece⟩ => ⟨p, List.mem_cons_of_mem part hp, hpiece⟩

/-- A piece after filling in a word was there before, is an occurrence of the word, or is a part of a literal piece
without the word. -/
theorem mem_fillPieces (hword : word ≠ []) {piece : Piece α} (h : piece ∈ fillPieces word fill pieces) :
    (piece ∈ pieces ∧ ∃ word' fill', piece = .filled word' fill') ∨ piece = .filled word fill ∨
      ∃ s s', piece = .literal s ∧ .literal s' ∈ pieces ∧ s <:+: s' ∧ ¬ word <:+: s := by
  obtain ⟨before, hbefore, hpiece⟩ := List.mem_flatMap.mp h
  rcases before with s' | ⟨word', fill'⟩
  · rcases mem_interleave hpiece with rfl | ⟨part, hpart, rfl⟩
    · exact .inr (.inl rfl)
    · refine .inr (.inr ⟨part, s', rfl, hbefore, ?_, not_infix_of_mem_cutsFrom hword hpart⟩)
      have hinfix : _ <:+: word.intercalate _ := infix_intercalate hpart
      rwa [cuts, intercalate_cutsFrom hword, List.drop_zero] at hinfix
  · obtain rfl := List.mem_singleton.mp hpiece
    exact .inl ⟨hbefore, word', fill', rfl⟩

omit [DecidableEq α] in
/-- Between the parts there are occurrences. -/
theorem isChain_interleave (word fill : List α) (parts : List (List α)) :
    (interleave word fill parts).IsChain Apart := by
  have hfilled : ∀ q, Apart (.filled word fill) q := fun _ h => Bool.false_ne_true h.1
  induction parts with
  | nil => exact .nil
  | cons part rest ih =>
    cases rest with
    | nil => exact .singleton _
    | cons part' rest =>
      refine .cons_cons (fun h => Bool.false_ne_true h.2) (List.isChain_cons.mpr ⟨?_, ih⟩)
      exact fun q _ => hfilled q

/-- A literal piece comes first only where one came first before. -/
theorem head_fillPieces {piece : Piece α} (h : piece ∈ (fillPieces word fill pieces).head?)
    (hliteral : piece.isLiteral = true) : ∃ before ∈ pieces.head?, before.isLiteral = true := by
  rcases pieces with _ | ⟨s | ⟨word', fill'⟩, rest⟩
  · exact absurd h (Option.not_mem_none _)
  · exact ⟨_, rfl, rfl⟩
  · obtain rfl := Option.some.inj h
    exact absurd hliteral Bool.false_ne_true

/-- Filling in a word keeps literal pieces apart. -/
theorem isChain_fillPieces (word fill : List α) (h : pieces.IsChain Apart) :
    (fillPieces word fill pieces).IsChain Apart := by
  induction pieces with
  | nil => exact .nil
  | cons piece rest ih =>
    obtain ⟨hnext, hrest⟩ := List.isChain_cons.mp h
    rcases piece with s | ⟨word', fill'⟩
    · refine List.isChain_append.mpr ⟨isChain_interleave word fill (cuts word s), ih hrest, ?_⟩
      rintro p - q hq ⟨-, hliteral⟩
      obtain ⟨before, hbefore, hbeforeLiteral⟩ := head_fillPieces hq hliteral
      exact hnext before hbefore ⟨rfl, hbeforeLiteral⟩
    · exact List.isChain_cons.mpr ⟨fun _ _ hboth => Bool.false_ne_true hboth.1, ih hrest⟩

/-- Filling in one more word: the division of the text by the words before it becomes that by all of them. -/
theorem Divides.fillPieces {text : List α} {f : List α × List α} (h : Divides fills text pieces) (hword : f.1 ≠ []) :
    Divides (fills ++ [f]) text (fillPieces f.1 f.2 pieces) := by
  constructor
  · rw [source_fillPieces hword, h.source]
  · exact isChain_fillPieces f.1 f.2 h.apart
  · intro word fill hmem
    rcases mem_fillPieces hword hmem with ⟨hbefore, -⟩ | hself | ⟨s, s', hliteral, -⟩
    · exact List.mem_append_left _ (h.filled word fill hbefore)
    · obtain ⟨rfl, rfl⟩ := Piece.filled.inj hself
      exact List.mem_append_right _ List.mem_cons_self
    · exact nomatch hliteral
  · intro s hmem g hg
    rcases mem_fillPieces hword hmem with ⟨-, word', fill', hfilled⟩ | hself | ⟨s₁, s', hliteral, hs', hinfix, hnot⟩
    · exact nomatch hfilled
    · exact nomatch hself
    · obtain rfl := Piece.literal.inj hliteral
      rcases List.mem_append.mp hg with hg | hg
      · exact fun hbad => h.literal s' hs' g hg (hbad.trans hinfix)
      · exact List.mem_singleton.mp hg ▸ hnot

theorem Divides.fillAll {text : List α} {before : List (List α × List α)} (h : Divides before text pieces)
    (hwords : ∀ f ∈ fills, f.1 ≠ []) : Divides (before ++ fills) text (fillAll fills pieces) := by
  induction fills generalizing before pieces with
  | nil => rwa [List.append_nil]
  | cons f fills ih =>
    have hstep := ih (h.fillPieces (hwords f List.mem_cons_self)) fun g hg => hwords g (List.mem_cons_of_mem f hg)
    rwa [List.append_assoc] at hstep

/-- The text, divided by words that are not empty. -/
theorem divides_fillAll (hwords : ∀ f ∈ fills, f.1 ≠ []) (text : List α) :
    Divides fills text (Substitution.fillAll fills [.literal text]) :=
  have hwhole : Divides [] text [.literal text] :=
    { source := List.append_nil text
      apart := .singleton _
      filled := fun _ _ h => nomatch List.mem_singleton.mp h
      literal := fun _ _ _ hf => absurd hf List.not_mem_nil }
  hwhole.fillAll hwords

end Pieces

end Lucent.Lib.Substitution
