import Lucent.Lib.Grammar

/-!
# Lucent.Lib.Reader — the reader reads what the grammar writes

* `read_bare`: what the grammar writes is read, in front of whatever may follow a value.
* `bare_of_read`: what is read is written by the grammar.
* `loadsUnique_eq_some_iff`: `loadsUnique` reads exactly the JSON texts in which no object repeats a key.
* `loads_of_loadsUnique`: where no key is repeated, `loads` reads the same.
-/

namespace Lucent.Lib.Json

/-! ## What the grammar writes is read -/

section Complete

variable {readFloat : List Char → PyFloat} {b t rest : List Char} {v : Json} {fuel : ℕ}

/-- A value begins neither with a blank nor with a closing bracket. -/
theorem Bare.head (h : Bare readFloat v t) : ∃ c l, t = c :: l ∧ isBlank c = false ∧ c ≠ ']' := by
  have hwhole : ∀ {negative : Bool} {whole : List Char} (rest : List Char), Whole whole →
      ∃ c l, sign negative ++ (whole ++ rest) = c :: l ∧ isBlank c = false ∧ c ≠ ']' := by
    intro negative whole rest hwhole
    cases negative with
    | true => exact ⟨'-', _, rfl, rfl, by decide⟩
    | false =>
      obtain ⟨c, ds, rfl, hc, -⟩ := hwhole.1.exists_cons
      have hne : ∀ d : Char, d.isDigit = false → c ≠ d := by
        rintro d hd rfl
        exact Bool.false_ne_true (hd.symm.trans hc)
      refine ⟨c, _, rfl, ?_, hne ']' rfl⟩
      simp [isBlank, hne ' ' rfl, hne '\t' rfl, hne '\n' rfl, hne '\r' rfl]
  cases h with
  | null => exact ⟨'n', _, rfl, rfl, by decide⟩
  | bool b =>
    cases b with
    | true => exact ⟨'t', _, rfl, rfl, by decide⟩
    | false => exact ⟨'f', _, rfl, rfl, by decide⟩
  | int negative h _ => simpa using @hwhole negative _ [] h
  | float h =>
    obtain ⟨negative, hw, _, _, _⟩ := h
    exact hwhole _ hw
  | str _ => exact ⟨'"', _, rfl, rfl, by decide⟩
  | emptyArr _ => exact ⟨'[', _, rfl, rfl, by decide⟩
  | arr _ => exact ⟨'[', _, rfl, rfl, by decide⟩
  | emptyObj _ => exact ⟨'\x7b', _, rfl, rfl, by decide⟩
  | obj _ _ => exact ⟨'\x7b', _, rfl, rfl, by decide⟩

theorem Items.head {items : List Json} (h : Items readFloat items t) (rest : List Char) :
    (skip (t ++ rest)).head? ≠ some ']' := by
  have hpadded : ∀ {v : Json} {t : List Char} (rest : List Char), Padded readFloat v t →
      (skip (t ++ rest)).head? ≠ some ']' := by
    rintro v t rest ⟨hb, hbare, -⟩
    obtain ⟨c, l, rfl, hc, hne⟩ := hbare.head
    rw [List.append_assoc, skip_blank hb, List.cons_append, List.cons_append, skip_cons hc]
    exact fun heq => hne (Option.some.inj heq)
  cases h with
  | one h => exact hpadded rest h
  | cons h _ =>
    rw [List.append_assoc]
    exact hpadded _ h

theorem Members.head {members : List (String × Json)} (h : Members readFloat members t) (rest : List Char) :
    (skip (t ++ rest)).head? ≠ some '\x7d' := by
  have hquote : ∀ {b : List Char} (l : List Char), Blank b → (skip (b ++ '"' :: l)).head? ≠ some '\x7d' := by
    intro b l hb
    rw [skip_blank hb, skip_cons rfl]
    exact fun heq => absurd (Option.some.inj heq) (by decide)
  cases h with
  | one hb _ _ _ =>
    rw [List.append_assoc]
    exact hquote _ hb
  | cons hb _ _ _ _ =>
    rw [List.append_assoc]
    exact hquote _ hb

theorem readValueUnique_blank (hb : Blank b) (s : List Char) :
    readValueUnique readFloat fuel (b ++ s) = readValueUnique readFloat fuel s := by
  cases fuel with
  | zero => rfl
  | succ fuel => rw [readValueUnique, readValueUnique, skip_blank hb]

theorem Ends.blank (hb : Blank b) (h : Ends rest) : Ends (b ++ rest) := by
  cases b with
  | nil => exact h
  | cons c b =>
    intro d hd
    obtain rfl := Option.some.inj hd
    exact .inl (hb c List.mem_cons_self)

/-- A number is read by `number`. -/
theorem readValueUnique_number {c : Char} {l : List Char} (hc : c.isDigit = true ∨ c = '-') :
    readValueUnique readFloat (fuel + 1) (c :: l) = number readFloat (c :: l) := by
  have hne : ∀ d : Char, d.isDigit = false → d ≠ '-' → c ≠ d := by
    rintro d hd hd' rfl
    exact hc.elim (fun hdigit => Bool.false_ne_true (hd.symm.trans hdigit)) hd'
  have hblank : isBlank c = false := by
    simp [isBlank, hne ' ' rfl (by decide), hne '\t' rfl (by decide), hne '\n' rfl (by decide), hne '\r' rfl (by decide)]
  rw [readValueUnique, skip_cons hblank]
  simp only [if_neg (hne '[' rfl (by decide)), if_neg (hne '\x7b' rfl (by decide))]
  rw [readValue, skip_cons hblank]
  simp only [if_neg (hne '"' rfl (by decide)), if_neg (hne '[' rfl (by decide)), if_neg (hne '\x7b' rfl (by decide)),
    if_neg (hne 'n' rfl (by decide)), if_neg (hne 't' rfl (by decide)), if_neg (hne 'f' rfl (by decide))]

theorem readValueUnique_parts {negative : Bool} {whole frac exp : List Char} (hwhole : Whole whole)
    (hfrac : Fraction frac) (hexp : Exponent exp) (hr : Ends rest) :
    readValueUnique readFloat (fuel + 1) (sign negative ++ (whole ++ (frac ++ (exp ++ rest)))) =
      (numberValue readFloat negative whole frac exp).map fun v => (v, rest) := by
  rw [← number_append hwhole hfrac hexp hr]
  cases negative with
  | true => exact readValueUnique_number (.inr rfl)
  | false =>
    obtain ⟨c, ds, rfl, hc, -⟩ := hwhole.1.exists_cons
    exact readValueUnique_number (.inl hc)

/-- A text with blanks around is read up to the blanks behind it. -/
theorem Padded.read (h : Padded readFloat v t) (hfuel : t.length ≤ fuel) (hr : Ends rest)
    (hread : ∀ {t rest}, Bare readFloat v t → t.length ≤ fuel → Ends rest →
      readValueUnique readFloat fuel (t ++ rest) = some (v, rest)) :
    ∃ b, Blank b ∧ readValueUnique readFloat fuel (t ++ rest) = some (v, b ++ rest) := by
  obtain ⟨hb, hbare, hb'⟩ := h
  rename_i b t b'
  simp only [List.length_append] at hfuel
  refine ⟨b', hb', ?_⟩
  rw [List.append_assoc, readValueUnique_blank hb, List.append_assoc]
  exact hread hbare (by omega) (hr.blank hb')

/-- The key of a member is read up to its value. -/
theorem readKey {b k b' : List Char} {key : List Char} (hb : Blank b) (hk : Spells key k) (hb' : Blank b')
    (rest : List Char) : ∃ after, expect '"' (b ++ '"' :: (k ++ '"' :: (b' ++ ':' :: rest))) = some after ∧
      ∃ after', readText after = some (String.ofList key, after') ∧ expect ':' after' = some rest :=
  ⟨_, expect_blank hb rfl _, _, readText_eq_some_iff.mpr ⟨key, k, hk, rfl, rfl⟩, expect_blank hb' rfl _⟩

/-- **Step of the reader**, by the fuel: values, items and members are read as the grammar writes them. -/
theorem read_bare (fuel : ℕ) :
    (∀ {v : Json} {t rest : List Char}, Bare readFloat v t → t.length ≤ fuel → Ends rest →
      readValueUnique readFloat fuel (t ++ rest) = some (v, rest)) ∧
    (∀ {items : List Json} {t : List Char} (rest : List Char), Items readFloat items t → t.length + 1 ≤ fuel →
      readItemsUnique readFloat fuel (t ++ ']' :: rest) = some (items, rest)) ∧
    ∀ {members : List (String × Json)} {t : List Char} (rest : List Char), Members readFloat members t →
      t.length + 1 ≤ fuel → readMembersUnique readFloat fuel (t ++ '\x7d' :: rest) = some (members, rest) := by
  have hends : ∀ {c : Char} (rest : List Char), c = ',' ∨ c = ']' ∨ c = '\x7d' → Ends (c :: rest) := by
    intro c rest hc d hd
    obtain rfl := Option.some.inj hd
    exact .inr hc
  induction fuel with
  | zero =>
    refine ⟨fun h hfuel _ => ?_, fun rest _ hfuel => by omega, fun rest _ hfuel => by omega⟩
    obtain ⟨c, l, rfl, -⟩ := h.head
    simp at hfuel
  | succ fuel ih =>
    obtain ⟨ihv, ihi, ihm⟩ := ih
    refine ⟨?_, ?_, ?_⟩
    · intro v t rest h hfuel hr
      cases h with
      | null => rfl
      | bool b => cases b <;> rfl
      | int negative hwhole hlen =>
        have hread := @readValueUnique_parts readFloat rest fuel negative _ [] [] hwhole (.inl rfl) (.inl rfl) hr
        have hvalue : ∀ whole : List Char, whole.length ≤ 4300 → numberValue readFloat negative whole [] [] =
            some (.int (signed negative (Nat.ofDigitChars 10 whole 0))) := by
          intro whole hlen
          rw [numberValue, if_pos ⟨rfl, rfl⟩, if_pos hlen]
        rw [hvalue _ hlen] at hread
        rw [List.append_assoc]
        exact hread
      | float h =>
        obtain ⟨negative, hwhole, hfrac, hexp, hnil⟩ := h
        have hread := @readValueUnique_parts readFloat rest fuel negative _ _ _ hwhole hfrac hexp hr
        rw [numberValue, if_neg hnil] at hread
        simp only [List.append_assoc] at hread ⊢
        exact hread
      | @str s t hspells =>
        have htext : '"' :: (t ++ ['"']) ++ rest = '"' :: (t ++ '"' :: rest) := by simp
        have hread : readText (t ++ '"' :: rest) = some (String.ofList s, rest) :=
          readText_eq_some_iff.mpr ⟨s, t, hspells, rfl, rfl⟩
        rw [htext, readValueUnique, skip_cons rfl]
        simp only [if_neg (show ¬ '"' = '[' by decide), if_neg (show ¬ '"' = '\x7b' by decide)]
        rw [readValue, skip_cons rfl]
        simp only [if_true, hread, Option.map_some]
      | @emptyArr b hb =>
        have htext : '[' :: (b ++ [']']) ++ rest = '[' :: (b ++ ']' :: rest) := by simp
        have hskip : skip (b ++ ']' :: rest) = ']' :: rest := by rw [skip_blank hb, skip_cons rfl]
        rw [htext, readValueUnique, skip_cons rfl]
        simp only [if_true, hskip]
        rfl
      | @arr items t hitems =>
        have htext : '[' :: (t ++ [']']) ++ rest = '[' :: (t ++ ']' :: rest) := by simp
        simp only [List.length_cons, List.length_append, List.length_nil] at hfuel
        rw [htext, readValueUnique, skip_cons rfl]
        simp only [if_true, if_neg (hitems.head _), ihi rest hitems (by omega), Option.map_some]
      | @emptyObj b hb =>
        have htext : '\x7b' :: (b ++ ['\x7d']) ++ rest = '\x7b' :: (b ++ '\x7d' :: rest) := by simp
        have hskip : skip (b ++ '\x7d' :: rest) = '\x7d' :: rest := by rw [skip_blank hb, skip_cons rfl]
        rw [htext, readValueUnique, skip_cons rfl]
        simp only [if_neg (show ¬ '\x7b' = '[' by decide), if_true, hskip]
        rfl
      | @obj members t hmembers hnodup =>
        have htext : '\x7b' :: (t ++ ['\x7d']) ++ rest = '\x7b' :: (t ++ '\x7d' :: rest) := by simp
        simp only [List.length_cons, List.length_append, List.length_nil] at hfuel
        rw [htext, readValueUnique, skip_cons rfl]
        simp only [if_neg (show ¬ '\x7b' = '[' by decide), if_true, if_neg (hmembers.head _),
          ihm rest hmembers (by omega), Option.bind_eq_bind, Option.bind_some, if_pos hnodup]
    · intro items t rest h hfuel
      cases h with
      | one h =>
        obtain ⟨b, hb, hread⟩ := @Padded.read readFloat _ (']' :: rest) _ fuel h (by omega) (hends rest (by simp)) ihv
        rw [readItemsUnique, hread]
        simp only [Option.bind_eq_bind, Option.bind_some, skip_blank hb]
        rfl
      | @cons v t items ts h hitems =>
        simp only [List.length_append, List.length_cons] at hfuel
        rw [List.append_assoc, List.cons_append]
        obtain ⟨b, hb, hread⟩ := @Padded.read readFloat _ (',' :: (ts ++ ']' :: rest)) _ fuel h (by omega)
          (hends _ (by simp)) ihv
        rw [readItemsUnique, hread]
        simp only [Option.bind_eq_bind, Option.bind_some, skip_blank hb, skip_cons (show isBlank ',' = false from rfl),
          ihi rest hitems (by omega), Option.map_some]
    · intro members t rest h hfuel
      cases h with
      | @one b k b' t key v hb hk hb' h =>
        simp only [List.length_append, List.length_cons] at hfuel
        have htext : b ++ '"' :: (k ++ '"' :: (b' ++ ':' :: t)) ++ '\x7d' :: rest =
            b ++ '"' :: (k ++ '"' :: (b' ++ ':' :: (t ++ '\x7d' :: rest))) := by simp
        obtain ⟨after, hafter, after', htextRead, hvalue⟩ := readKey hb hk hb' (t ++ '\x7d' :: rest)
        obtain ⟨b'', hb'', hread⟩ := @Padded.read readFloat _ ('\x7d' :: rest) _ fuel h (by omega)
          (hends rest (by simp)) ihv
        rw [htext, readMembersUnique, hafter]
        simp only [Option.bind_eq_bind, Option.bind_some, htextRead, hvalue, hread, skip_blank hb'']
        rfl
      | @cons b k b' t key v members ts hb hk hb' h hmembers =>
        simp only [List.length_append, List.length_cons] at hfuel
        have htext : b ++ '"' :: (k ++ '"' :: (b' ++ ':' :: (t ++ ',' :: ts))) ++ '\x7d' :: rest =
            b ++ '"' :: (k ++ '"' :: (b' ++ ':' :: (t ++ ',' :: (ts ++ '\x7d' :: rest)))) := by simp
        obtain ⟨after, hafter, after', htextRead, hvalue⟩ := readKey hb hk hb' (t ++ ',' :: (ts ++ '\x7d' :: rest))
        obtain ⟨b'', hb'', hread⟩ := @Padded.read readFloat _ (',' :: (ts ++ '\x7d' :: rest)) _ fuel h (by omega)
          (hends _ (by simp)) ihv
        rw [htext, readMembersUnique, hafter]
        simp only [Option.bind_eq_bind, Option.bind_some, htextRead, hvalue, hread, skip_blank hb'',
          skip_cons (show isBlank ',' = false from rfl), ihm rest hmembers (by omega), Option.map_some]

end Complete

/-! ## What is read is written by the grammar -/

section Sound

variable {readFloat : List Char → PyFloat}

theorem afterWord_eq_some {word s rest : List Char} (h : afterWord word s = some rest) : s = word ++ rest := by
  unfold afterWord at h
  split_ifs at h with hpre
  obtain ⟨l, rfl⟩ := List.isPrefixOf_iff_prefix.mp hpre
  rw [← Option.some.inj h, List.drop_left]

/-- What stands behind blanks, where something does. -/
theorem eq_blank_cons {s rest : List Char} {c : Char} (h : skip s = c :: rest) : ∃ b, Blank b ∧ s = b ++ c :: rest := by
  obtain ⟨b, hb, hs⟩ := exists_blank s
  exact ⟨b, hb, by rw [← h]; exact hs⟩

/-- Nothing but blanks stands between two brackets. -/
theorem eq_blank_of_head {s : List Char} {c : Char} (h : (skip s).head? = some c) :
    ∃ b, Blank b ∧ s = b ++ c :: (skip s).drop 1 := by
  obtain ⟨rest, hrest⟩ := List.head?_eq_some_iff.mp h
  obtain ⟨b, hb, hs⟩ := eq_blank_cons hrest
  exact ⟨b, hb, by rw [hrest]; exact hs⟩

/-- A value that opens no bracket. -/
theorem bare_of_readValue {fuel : ℕ} {c : Char} {l rest : List Char} {v : Json} (hblank : isBlank c = false)
    (harr : c ≠ '[') (hobj : c ≠ '\x7b') (h : readValue readFloat (fuel + 1) (c :: l) = some (v, rest)) :
    ∃ t, Bare readFloat v t ∧ c :: l = t ++ rest := by
  rw [readValue, skip_cons hblank] at h
  simp only [if_neg harr, if_neg hobj] at h
  split_ifs at h with hquote hn ht hf
  · obtain ⟨⟨text, r⟩, hread, h⟩ := Option.map_eq_some_iff.mp h
    obtain ⟨rfl, rfl⟩ := Prod.mk.inj h
    obtain ⟨chars, t, hspells, rfl, rfl⟩ := readText_eq_some_iff.mp hread
    exact ⟨_, .str hspells, by rw [hquote]; simp⟩
  · obtain ⟨r, hword, h⟩ := Option.map_eq_some_iff.mp h
    obtain ⟨rfl, rfl⟩ := Prod.mk.inj h
    exact ⟨_, .null, by rw [hn, afterWord_eq_some hword]; rfl⟩
  · obtain ⟨r, hword, h⟩ := Option.map_eq_some_iff.mp h
    obtain ⟨rfl, rfl⟩ := Prod.mk.inj h
    exact ⟨_, .bool true, by rw [ht, afterWord_eq_some hword]; rfl⟩
  · obtain ⟨r, hword, h⟩ := Option.map_eq_some_iff.mp h
    obtain ⟨rfl, rfl⟩ := Prod.mk.inj h
    exact ⟨_, .bool false, by rw [hf, afterWord_eq_some hword]; rfl⟩
  · exact number_spec h

/-- **Step of the reader**, by the fuel: values, items and members are written by the grammar as they are read. -/
theorem bare_of_read (fuel : ℕ) :
    (∀ {s v rest}, readValueUnique readFloat fuel s = some (v, rest) →
      ∃ b t, Blank b ∧ Bare readFloat v t ∧ s = b ++ (t ++ rest)) ∧
    (∀ {s items rest}, readItemsUnique readFloat fuel s = some (items, rest) →
      ∃ t, Items readFloat items t ∧ s = t ++ ']' :: rest) ∧
    ∀ {s members rest}, readMembersUnique readFloat fuel s = some (members, rest) →
      ∃ t, Members readFloat members t ∧ s = t ++ '\x7d' :: rest := by
  induction fuel with
  | zero => exact ⟨fun h => (by cases h), fun h => (by cases h), fun h => by cases h⟩
  | succ fuel ih =>
    obtain ⟨ihv, ihi, ihm⟩ := ih
    -- the value of an item or a member, with the blanks up to what stops it
    have hpadded : ∀ {s v r c rest}, readValueUnique readFloat fuel s = some (v, r) → skip r = c :: rest →
        ∃ t, Padded readFloat v t ∧ s = t ++ c :: rest := by
      intro s v r c rest hread hskip
      obtain ⟨b, t, hb, hbare, rfl⟩ := ihv hread
      obtain ⟨b', hb', rfl⟩ := eq_blank_cons hskip
      exact ⟨_, .intro hb hbare hb', by simp only [List.append_assoc]⟩
    refine ⟨?_, ?_, ?_⟩
    · intro s v rest h
      rw [readValueUnique] at h
      cases hskip : skip s with
      | nil =>
        rw [hskip] at h
        cases h
      | cons c l =>
        obtain ⟨b, hb, rfl⟩ := eq_blank_cons hskip
        rw [hskip] at h
        dsimp only at h
        by_cases harr : c = '['
        · rw [if_pos harr] at h
          subst harr
          by_cases hempty : (skip l).head? = some ']'
          · rw [if_pos hempty] at h
            obtain ⟨rfl, rfl⟩ := Prod.mk.inj (Option.some.inj h)
            obtain ⟨b', hb', hl⟩ := eq_blank_of_head hempty
            refine ⟨b, _, hb, .emptyArr hb', ?_⟩
            rw [List.cons_append, List.append_assoc, List.singleton_append, ← hl]
          · rw [if_neg hempty] at h
            obtain ⟨⟨items, r⟩, hitems, h⟩ := Option.map_eq_some_iff.mp h
            obtain ⟨rfl, rfl⟩ := Prod.mk.inj h
            obtain ⟨t, ht, rfl⟩ := ihi hitems
            exact ⟨b, _, hb, .arr ht, by simp⟩
        · rw [if_neg harr] at h
          by_cases hobj : c = '\x7b'
          · rw [if_pos hobj] at h
            subst hobj
            by_cases hempty : (skip l).head? = some '\x7d'
            · rw [if_pos hempty] at h
              obtain ⟨rfl, rfl⟩ := Prod.mk.inj (Option.some.inj h)
              obtain ⟨b', hb', hl⟩ := eq_blank_of_head hempty
              refine ⟨b, _, hb, .emptyObj hb', ?_⟩
              rw [List.cons_append, List.append_assoc, List.singleton_append, ← hl]
            · rw [if_neg hempty] at h
              obtain ⟨⟨members, r⟩, hmembers, h⟩ := Option.bind_eq_some_iff.mp h
              dsimp only at h
              split_ifs at h with hnodup
              obtain ⟨rfl, rfl⟩ := Prod.mk.inj (Option.some.inj h)
              obtain ⟨t, ht, rfl⟩ := ihm hmembers
              exact ⟨b, _, hb, .obj ht hnodup, by simp⟩
          · rw [if_neg hobj] at h
            obtain ⟨t, hbare, hl⟩ := bare_of_readValue (isBlank_of_skip hskip) harr hobj h
            exact ⟨b, t, hb, hbare, by rw [hl]⟩
    · intro s items rest h
      rw [readItemsUnique] at h
      obtain ⟨⟨v, r⟩, hread, hstop⟩ := Option.bind_eq_some_iff.mp h
      clear h
      dsimp only at hstop
      split at hstop
      · rename_i l hskip
        obtain ⟨t, ht, rfl⟩ := hpadded hread hskip
        obtain ⟨⟨others, r'⟩, hothers, heq⟩ := Option.map_eq_some_iff.mp hstop
        obtain ⟨rfl, rfl⟩ := Prod.mk.inj heq
        obtain ⟨ts, hts, rfl⟩ := ihi hothers
        exact ⟨_, .cons ht hts, by simp⟩
      · rename_i l hskip
        obtain ⟨t, ht, rfl⟩ := hpadded hread hskip
        obtain ⟨rfl, rfl⟩ := Prod.mk.inj (Option.some.inj hstop)
        exact ⟨_, .one ht, rfl⟩
      · cases hstop
    · intro s members rest h
      rw [readMembersUnique] at h
      obtain ⟨r₀, hquote, hmember⟩ := Option.bind_eq_some_iff.mp h
      obtain ⟨⟨key, r₁⟩, hkey, hmember⟩ := Option.bind_eq_some_iff.mp hmember
      obtain ⟨r₂, hcolon, hmember⟩ := Option.bind_eq_some_iff.mp hmember
      obtain ⟨⟨v, r⟩, hread, hstop⟩ := Option.bind_eq_some_iff.mp hmember
      clear h hmember
      obtain ⟨b, hb, rfl⟩ := expect_eq_some hquote
      obtain ⟨chars, k, hk, rfl, rfl⟩ := readText_eq_some_iff.mp hkey
      obtain ⟨b', hb', rfl⟩ := expect_eq_some hcolon
      dsimp only at hstop
      split at hstop
      · rename_i l hskip
        obtain ⟨t, ht, rfl⟩ := hpadded hread hskip
        obtain ⟨⟨others, r'⟩, hothers, heq⟩ := Option.map_eq_some_iff.mp hstop
        obtain ⟨rfl, rfl⟩ := Prod.mk.inj heq
        obtain ⟨ts, hts, rfl⟩ := ihm hothers
        exact ⟨_, .cons hb hk hb' ht hts, by simp⟩
      · rename_i l hskip
        obtain ⟨t, ht, rfl⟩ := hpadded hread hskip
        obtain ⟨rfl, rfl⟩ := Prod.mk.inj (Option.some.inj hstop)
        exact ⟨_, .one hb hk hb' ht, by simp⟩
      · cases hstop

end Sound

/-! ## The readers -/

section Readers

variable {readFloat : List Char → PyFloat} {bytes : Bytes} {v : Json}

/-- **What is read**: exactly the encoded JSON texts of a value in which no object repeats a key. -/
theorem loadsUnique_eq_some_iff :
    loadsUnique readFloat bytes = some v ↔ ∃ t, Padded readFloat v t ∧ utf8Chars t = bytes := by
  unfold loadsUnique
  constructor
  · intro h
    obtain ⟨chars, hchars, h⟩ := Option.bind_eq_some_iff.mp h
    obtain ⟨⟨w, rest⟩, hread, h⟩ := Option.bind_eq_some_iff.mp h
    dsimp only at h
    split_ifs at h with hend
    obtain rfl := Option.some.inj h
    obtain ⟨b, t, hb, hbare, rfl⟩ := (bare_of_read _).1 hread
    obtain ⟨b', hb', hrest⟩ := exists_blank rest
    rw [List.isEmpty_iff.mp hend, List.append_nil] at hrest
    subst hrest
    exact ⟨_, .intro hb hbare hb', utf8Decode_eq_some_iff.mp hchars⟩
  · rintro ⟨t, ht, rfl⟩
    obtain ⟨b, hb, hread⟩ := ht.read (Nat.le_succ t.length) ends_nil (read_bare _).1
    have hend : skip b = [] := by
      have hskip := skip_blank hb []
      rwa [List.append_nil] at hskip
    rw [List.append_nil, List.append_nil] at hread
    rw [utf8Decode_utf8Chars]
    simp only [Option.bind_eq_bind, Option.bind_some, hread, hend]
    rfl

/-- A list of members that repeats no key is what a dictionary makes of it. -/
theorem dictOf_eq {members : List (String × Json)} (h : (members.map Prod.fst).Nodup) : dictOf members = members := by
  have hset : ∀ (l : List (String × Json)) (key : String) (v : Json), key ∉ l.map Prod.fst →
      setMember key v l = l ++ [(key, v)] := by
    intro l key v hkey
    induction l with
    | nil => rfl
    | cons m l ih =>
      rw [List.map_cons, List.mem_cons, not_or] at hkey
      rw [setMember, if_neg (Ne.symm hkey.1), ih hkey.2, List.cons_append]
  have hfold : ∀ (l acc : List (String × Json)), ((acc ++ l).map Prod.fst).Nodup →
      l.foldl (fun members m => setMember m.1 m.2 members) acc = acc ++ l := by
    intro l
    induction l with
    | nil => exact fun acc _ => (List.append_nil acc).symm
    | cons m l ih =>
      intro acc hnd
      have hfresh : m.1 ∉ acc.map Prod.fst := by
        rw [List.map_append, List.nodup_append] at hnd
        exact fun hin => hnd.2.2 m.1 hin m.1 (by simp) rfl
      rw [List.foldl_cons, hset acc m.1 m.2 hfresh, ih _ (by simpa using hnd), List.append_assoc]
      rfl
  exact hfold members [] h

/-- **Step of both readers**: what the strict one reads, the other one reads as well. -/
theorem read_of_readUnique (fuel : ℕ) :
    (∀ {s v rest}, readValueUnique readFloat fuel s = some (v, rest) → readValue readFloat fuel s = some (v, rest)) ∧
    (∀ {s items rest}, readItemsUnique readFloat fuel s = some (items, rest) →
      readItems readFloat fuel s = some (items, rest)) ∧
    ∀ {s members rest}, readMembersUnique readFloat fuel s = some (members, rest) →
      readMembers readFloat fuel s = some (members, rest) := by
  induction fuel with
  | zero => exact ⟨fun h => (by cases h), fun h => (by cases h), fun h => by cases h⟩
  | succ fuel ih =>
    obtain ⟨ihv, ihi, ihm⟩ := ih
    refine ⟨?_, ?_, ?_⟩
    · intro s v rest h
      rw [readValueUnique] at h
      cases hskip : skip s with
      | nil =>
        rw [hskip] at h
        cases h
      | cons c l =>
        rw [hskip] at h
        dsimp only at h
        have hblank := isBlank_of_skip hskip
        by_cases harr : c = '['
        · subst harr
          rw [if_pos rfl] at h
          rw [readValue, hskip]
          simp only [if_neg (show ¬ '[' = '"' by decide), if_true]
          split_ifs at h ⊢ with hempty
          · exact h
          · obtain ⟨⟨items, r⟩, hitems, h⟩ := Option.map_eq_some_iff.mp h
            rw [ihi hitems]
            exact congrArg some h
        · rw [if_neg harr] at h
          by_cases hobj : c = '\x7b'
          · subst hobj
            rw [if_pos rfl] at h
            rw [readValue, hskip]
            simp only [if_neg (show ¬ '\x7b' = '"' by decide), if_neg (show ¬ '\x7b' = '[' by decide), if_true]
            split_ifs at h ⊢ with hempty
            · exact h
            · obtain ⟨⟨members, r⟩, hmembers, h⟩ := Option.bind_eq_some_iff.mp h
              dsimp only at h
              split_ifs at h with hnodup
              rw [ihm hmembers, Option.map_some, dictOf_eq hnodup]
              exact h
          · rw [if_neg hobj, readValue, skip_cons hblank] at h
            rw [readValue, hskip]
            exact h
    · intro s items rest h
      rw [readItemsUnique] at h
      obtain ⟨⟨v, r⟩, hread, h⟩ := Option.bind_eq_some_iff.mp h
      rw [readItems, ihv hread]
      simp only [Option.bind_eq_bind, Option.bind_some] at h ⊢
      split at h
      · obtain ⟨⟨others, r'⟩, hothers, h⟩ := Option.map_eq_some_iff.mp h
        simp only [ihi hothers, Option.map_some]
        exact congrArg some h
      · exact h
      · cases h
    · intro s members rest h
      rw [readMembersUnique] at h
      obtain ⟨r₀, hquote, h⟩ := Option.bind_eq_some_iff.mp h
      obtain ⟨⟨key, r₁⟩, hkey, h⟩ := Option.bind_eq_some_iff.mp h
      obtain ⟨r₂, hcolon, h⟩ := Option.bind_eq_some_iff.mp h
      obtain ⟨⟨v, r⟩, hread, h⟩ := Option.bind_eq_some_iff.mp h
      rw [readMembers, hquote]
      simp only [Option.bind_eq_bind, Option.bind_some, hkey, hcolon, ihv hread] at h ⊢
      split at h
      · obtain ⟨⟨others, r'⟩, hothers, h⟩ := Option.map_eq_some_iff.mp h
        simp only [ihm hothers, Option.map_some]
        exact congrArg some h
      · exact h
      · cases h

/-- Where no key is repeated, `loads` reads the same. -/
theorem loads_of_loadsUnique (h : loadsUnique readFloat bytes = some v) : loads readFloat bytes = some v := by
  obtain ⟨chars, hchars, h⟩ := Option.bind_eq_some_iff.mp h
  obtain ⟨⟨w, rest⟩, hread, h⟩ := Option.bind_eq_some_iff.mp h
  unfold loads
  rw [hchars]
  simp only [Option.bind_eq_bind, Option.bind_some, (read_of_readUnique _).1 hread]
  exact h

end Readers

end Lucent.Lib.Json
