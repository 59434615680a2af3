import Lucent.Lib.Reader

/-!
# Lucent.Lib.RoundTrip — reading what was rendered

* `WellFormed`: a JSON value: no object repeats a key, and the text of every float is a float literal.
* `bare_dumps`: the rendering of a well-formed value is one of its texts, with its members in the order of the rendering.
* `loadsUnique_dumps`, `loads_dumps`: so both readers read it back.
* `dumps_injective`: well-formed values with the same rendering are the same up to that order.
* `loads_dumpable`: what `loads` returns can be rendered.
-/

namespace Lucent.Lib.Json

/-! ## JSON values -/

/-- A value some text stands for. -/
inductive WellFormed : Json → Prop
  | null : WellFormed .null
  | bool (b : Bool) : WellFormed (.bool b)
  | int (n : ℤ) : WellFormed (.int n)
  | float {x : PyFloat} : FloatText x.text.toList → WellFormed (.float x)
  | str (s : String) : WellFormed (.str s)
  | arr {items : List Json} : (∀ v ∈ items, WellFormed v) → WellFormed (.arr items)
  | obj {members : List (String × Json)} : (members.map Prod.fst).Nodup → (∀ m ∈ members, WellFormed m.2) →
      WellFormed (.obj members)

/-! ## The order of a rendering -/

mutual

/-- The value with the members in the order of the rendering, and `value` in place of the values of floats. -/
def arrange (sort : Bool) (readFloat : List Char → PyFloat) : Json → Json
  | .arr items => .arr (arrangeItems sort readFloat items)
  | .obj members => .obj (if sort then sortMembers (arrangeMembers sort readFloat members)
      else arrangeMembers sort readFloat members)
  | .float x => .float (readFloat x.text.toList)
  | .null => .null
  | .bool b => .bool b
  | .int n => .int n
  | .str s => .str s
termination_by structural v => v

def arrangeItems (sort : Bool) (readFloat : List Char → PyFloat) : List Json → List Json
  | [] => []
  | v :: rest => arrange sort readFloat v :: arrangeItems sort readFloat rest
termination_by structural v => v

def arrangeMembers (sort : Bool) (readFloat : List Char → PyFloat) : List (String × Json) → List (String × Json)
  | [] => []
  | m :: rest => arrangeMember sort readFloat m :: arrangeMembers sort readFloat rest
termination_by structural v => v

def arrangeMember (sort : Bool) (readFloat : List Char → PyFloat) : String × Json → String × Json
  | (key, v) => (key, arrange sort readFloat v)
termination_by structural v => v

end

theorem dumpsItems_eq_some {ascii sort : Bool} {items : List Json} {parts : List (List Char)} :
    dumpsItems ascii sort items = some parts ↔ List.Forall₂ (fun v t => dumps ascii sort v = some t) items parts := by
  induction items generalizing parts with
  | nil => simp [dumpsItems, eq_comm]
  | cons v items ih =>
    rw [dumpsItems, List.forall₂_cons_left_iff]
    constructor
    · intro h
      obtain ⟨t, ht, h⟩ := Option.bind_eq_some_iff.mp h
      obtain ⟨ts, hts, h⟩ := Option.bind_eq_some_iff.mp h
      exact ⟨t, ts, ht, ih.mp hts, (Option.some.inj h).symm⟩
    · rintro ⟨t, ts, ht, hts, rfl⟩
      rw [ht, ih.mpr hts]
      rfl

theorem dumpsMembers_eq_some {ascii sort : Bool} {members : List (String × Json)} {parts : List (String × List Char)} :
    dumpsMembers ascii sort members = some parts ↔
      List.Forall₂ (fun m p => m.1 = p.1 ∧ dumps ascii sort m.2 = some p.2) members parts := by
  induction members generalizing parts with
  | nil => simp [dumpsMembers, eq_comm]
  | cons m members ih =>
    obtain ⟨key, v⟩ := m
    rw [dumpsMembers, List.forall₂_cons_left_iff, dumpsMember]
    constructor
    · intro h
      obtain ⟨p, hp, h⟩ := Option.bind_eq_some_iff.mp h
      obtain ⟨ps, hps, h⟩ := Option.bind_eq_some_iff.mp h
      obtain ⟨t, ht, rfl⟩ := Option.map_eq_some_iff.mp hp
      exact ⟨_, ps, ⟨rfl, ht⟩, ih.mp hps, (Option.some.inj h).symm⟩
    · rintro ⟨⟨k, t⟩, ps, ⟨rfl, ht⟩, hps, rfl⟩
      simp only at ht
      rw [ht, ih.mpr hps]
      rfl

theorem arrangeItems_eq_map (sort : Bool) (readFloat : List Char → PyFloat) (items : List Json) :
    arrangeItems sort readFloat items = items.map (arrange sort readFloat) := by
  induction items with
  | nil => rfl
  | cons v items ih => rw [arrangeItems, ih, List.map_cons]

theorem arrangeMembers_eq_map (sort : Bool) (readFloat : List Char → PyFloat) (members : List (String × Json)) :
    arrangeMembers sort readFloat members = members.map (fun m => (m.1, arrange sort readFloat m.2)) := by
  induction members with
  | nil => rfl
  | cons m members ih => rw [arrangeMembers, ih, List.map_cons, arrangeMember]

/-- Sorting by key keeps members with equal keys side by side. -/
theorem forall₂_sortMembers {α β : Type} {R : α → β → Prop} {l : List (String × α)} {l' : List (String × β)}
    (h : List.Forall₂ (fun a b => a.1 = b.1 ∧ R a.2 b.2) l l') :
    List.Forall₂ (fun a b => a.1 = b.1 ∧ R a.2 b.2) (sortMembers l) (sortMembers l') := by
  have hinsert : ∀ {a : String × α} {b : String × β} {s : List (String × α)} {s' : List (String × β)},
      (a.1 = b.1 ∧ R a.2 b.2) → List.Forall₂ (fun a b => a.1 = b.1 ∧ R a.2 b.2) s s' →
      List.Forall₂ (fun a b => a.1 = b.1 ∧ R a.2 b.2) (s.orderedInsert (fun a b => a.1 ≤ b.1) a)
        (s'.orderedInsert (fun a b => a.1 ≤ b.1) b) := by
    intro a b s s' hab hs
    induction hs with
    | nil => exact .cons hab .nil
    | @cons c d s s' hcd hs ih =>
      rw [List.orderedInsert_cons, List.orderedInsert_cons, hab.1, hcd.1]
      split_ifs
      · exact .cons hab (.cons hcd hs)
      · exact .cons hcd ih
  induction h with
  | nil => exact .nil
  | cons hab _ ih => exact hinsert hab ih

theorem sortMembers_keys_nodup {α : Type} {l : List (String × α)} (h : (l.map Prod.fst).Nodup) :
    ((sortMembers l).map Prod.fst).Nodup :=
  (((List.perm_insertionSort _ l).map Prod.fst).nodup_iff).mpr h

/-! ## Renderings are texts -/

section Texts

variable {readFloat : List Char → PyFloat}

theorem unit?_hexDigits {n : ℕ} (h : n < 0x10000) : unit? (hexDigit (n / 4096 % 16)) (hexDigit (n / 256 % 16))
    (hexDigit (n / 16 % 16)) (hexDigit (n % 16)) = some n := by
  have h₃ := @hexValue?_hexDigit (n / 4096 % 16) (by omega)
  have h₂ := @hexValue?_hexDigit (n / 256 % 16) (by omega)
  have h₁ := @hexValue?_hexDigit (n / 16 % 16) (by omega)
  have h₀ := @hexValue?_hexDigit (n % 16) (by omega)
  have hval : 16 * (16 * (16 * (n / 4096 % 16) + n / 256 % 16) + n / 16 % 16) + n % 16 = n := by omega
  simp [unit?, isHex, hexNat, h₃, h₂, h₁, h₀, hval]

/-- A character as it is rendered, in front of a text. -/
theorem Spells.escapeChar (ascii : Bool) (c : Char) {s t : List Char} (h : Spells s t) :
    Spells (c :: s) (Json.escapeChar ascii c ++ t) := by
  have hmax : c.toNat < 0x110000 := by
    have hn : c.val.toNat = c.toNat := rfl
    rcases c.valid with hvalid | hvalid <;> omega
  have hunit : c.toNat < 0x10000 → Spells (c :: s) (escapeUnit c.toNat ++ t) := by
    intro hlt
    have hval : c.toNat < 0xD800 ∨ 0xDFFF < c.toNat := c.valid.imp id And.left
    have hspells := Spells.unit (unit?_hexDigits hlt) hval h
    rwa [Char.ofNat_toNat] at hspells
  unfold Json.escapeChar
  by_cases h1 : c = '"'
  · rw [if_pos h1]
    exact .short (by rw [h1]; rfl) h
  by_cases h2 : c = '\\'
  · rw [if_neg h1, if_pos h2]
    exact .short (by rw [h2]; rfl) h
  rw [if_neg h1, if_neg h2]
  by_cases h3 : c = '\n'
  · rw [if_pos h3]
    exact .short (h3 ▸ rfl) h
  by_cases h4 : c = '\r'
  · rw [if_neg h3, if_pos h4]
    exact .short (h4 ▸ rfl) h
  by_cases h5 : c = '\t'
  · rw [if_neg h3, if_neg h4, if_pos h5]
    exact .short (h5 ▸ rfl) h
  rw [if_neg h3, if_neg h4, if_neg h5]
  by_cases h6 : c.toNat = 0x08
  · obtain rfl : c = Char.ofNat 0x08 := by rw [← h6, Char.ofNat_toNat]
    exact .short rfl h
  by_cases h7 : c.toNat = 0x0C
  · obtain rfl : c = Char.ofNat 0x0C := by rw [← h7, Char.ofNat_toNat]
    exact .short rfl h
  rw [if_neg h6, if_neg h7]
  by_cases h8 : c.toNat < 0x20
  · rw [if_pos h8]
    exact hunit (by omega)
  rw [if_neg h8]
  by_cases h9 : (ascii && decide (0x7E < c.toNat)) = true
  · rw [if_pos h9]
    by_cases h10 : c.toNat < 0x10000
    · rw [if_pos h10]
      exact hunit h10
    · -- a character beyond the first plane is a pair of surrogates
      have hval : 0x10000 + (0xD800 + (c.toNat - 0x10000) / 0x400 - 0xD800) * 0x400 +
          (0xDC00 + (c.toNat - 0x10000) % 0x400 - 0xDC00) = c.toNat := by omega
      have hspells := Spells.pair (@unit?_hexDigits (0xD800 + (c.toNat - 0x10000) / 0x400) (by omega))
        (@unit?_hexDigits (0xDC00 + (c.toNat - 0x10000) % 0x400) (by omega)) (by omega) (by omega) (by omega)
        (by omega) h
      rw [hval, Char.ofNat_toNat] at hspells
      rw [if_neg h10]
      exact hspells
  · rw [if_neg h9]
    exact .plain h1 h2 h8 h

theorem spells_flatMap (ascii : Bool) (s : List Char) : Spells s (s.flatMap (escapeChar ascii)) := by
  induction s with
  | nil => exact .nil
  | cons c s ih => exact ih.escapeChar ascii c

/-- A positive number has no leading zero. -/
theorem toDigits_head {n : ℕ} (hn : 0 < n) : (Nat.toDigits 10 n).head? ≠ some '0' := by
  induction n using Nat.strong_induction_on with
  | _ n ih =>
    rw [Nat.toDigits_eq_if (by omega)]
    split_ifs with hlt
    · intro h
      have hdigit : ∀ d < 10, Nat.digitChar d = '0' → d = 0 := by decide
      have := hdigit n hlt (Option.some.inj h)
      omega
    · have hpos : 0 < n / 10 := by omega
      rw [List.head?_append_of_ne_nil _ Nat.toDigits_ne_nil]
      exact ih (n / 10) (by omega) hpos

theorem whole_toDigits (n : ℕ) : Whole (Nat.toDigits 10 n) := by
  refine ⟨⟨Nat.toDigits_ne_nil, fun c hc => Nat.isDigit_of_mem_toDigits (by omega) (by omega) hc⟩, fun hhead => ?_⟩
  rcases Nat.eq_zero_or_pos n with rfl | hpos
  · rfl
  · exact absurd hhead (toDigits_head hpos)

theorem bare_dumpsInt {n : ℤ} {t : List Char} (h : dumpsInt n = some t) : Bare readFloat (.int n) t := by
  have hdigits : n.natAbs.repr.toList = Nat.toDigits 10 n.natAbs := String.toList_ofList
  have hbare : ∀ negative, n.natAbs.repr.length ≤ 4300 → signed negative n.natAbs = n →
      Bare readFloat (.int n) (sign negative ++ n.natAbs.repr.toList) := by
    intro negative hlen hsigned
    have hwhole : (Nat.toDigits 10 n.natAbs).length ≤ 4300 := by rwa [← hdigits, String.length_toList]
    have hint := @Bare.int readFloat negative _ (whole_toDigits n.natAbs) hwhole
    rwa [Nat.ofDigitChars_ten_toDigits, hsigned, ← hdigits] at hint
  unfold dumpsInt at h
  split_ifs at h with hlen hneg
  · obtain rfl := Option.some.inj h
    exact hbare true hlen (by simp only [signed, if_true]; omega)
  · obtain rfl := Option.some.inj h
    exact hbare false hlen (by simp only [signed, Bool.false_eq_true, if_false]; omega)

theorem Bare.padded {v : Json} {t : List Char} (h : Bare readFloat v t) : Padded readFloat v t := by
  have hpadded := Padded.intro blank_nil h blank_nil
  rwa [List.nil_append, List.append_nil] at hpadded

theorem bare_commaSep {items : List Json} {parts : List (List Char)}
    (h : List.Forall₂ (fun v t => Bare readFloat v t) items parts) :
    Bare readFloat (.arr items) ('[' :: commaSep parts ++ [']']) := by
  have hitems : ∀ {items : List Json} {parts : List (List Char)},
      List.Forall₂ (fun v t => Bare readFloat v t) items parts → items ≠ [] →
      Items readFloat items (commaSep parts) := by
    intro items parts h hne
    induction h with
    | nil => exact absurd rfl hne
    | @cons v t items parts hv htail ih =>
      cases htail with
      | nil => exact .one hv.padded
      | cons hw htail => exact .cons hv.padded (ih (List.cons_ne_nil _ _))
  rcases h with _ | ⟨hv, htail⟩
  · exact .emptyArr blank_nil
  · exact .arr (hitems (.cons hv htail) (List.cons_ne_nil _ _))

/-- A member as it is rendered. -/
def dumpsPair (ascii : Bool) (p : String × List Char) : List Char := dumpsText ascii p.1 ++ ':' :: p.2

theorem bare_members {ascii : Bool} {members : List (String × Json)} {parts : List (String × List Char)}
    (h : List.Forall₂ (fun m p => m.1 = p.1 ∧ Bare readFloat m.2 p.2) members parts)
    (hnd : (members.map Prod.fst).Nodup) :
    Bare readFloat (.obj members) ('\x7b' :: commaSep (parts.map (dumpsPair ascii)) ++ ['\x7d']) := by
  have hone : ∀ {m : String × Json} {p : String × List Char}, m.1 = p.1 → Bare readFloat m.2 p.2 →
      Members readFloat [m] (dumpsPair ascii p) := by
    rintro ⟨key, v⟩ ⟨_, t⟩ rfl hv
    have hmember := Members.one blank_nil (spells_flatMap ascii key.toList) blank_nil hv.padded
    rw [String.ofList_toList] at hmember
    simpa [dumpsPair, dumpsText] using hmember
  have hcons : ∀ {m : String × Json} {p : String × List Char} {members : List (String × Json)} {ts : List Char},
      m.1 = p.1 → Bare readFloat m.2 p.2 → Members readFloat members ts →
      Members readFloat (m :: members) (dumpsPair ascii p ++ ',' :: ts) := by
    rintro ⟨key, v⟩ ⟨_, t⟩ members ts rfl hv hmembers
    have hmember := Members.cons blank_nil (spells_flatMap ascii key.toList) blank_nil hv.padded hmembers
    rw [String.ofList_toList] at hmember
    simpa [dumpsPair, dumpsText] using hmember
  have hmembers : ∀ {members : List (String × Json)} {parts : List (String × List Char)},
      List.Forall₂ (fun m p => m.1 = p.1 ∧ Bare readFloat m.2 p.2) members parts → members ≠ [] →
      Members readFloat members (commaSep (parts.map (dumpsPair ascii))) := by
    intro members parts h hne
    induction h with
    | nil => exact absurd rfl hne
    | @cons m p members parts hm htail ih =>
      cases htail with
      | nil => exact hone hm.1 hm.2
      | cons hw htail => exact hcons hm.1 hm.2 (ih (List.cons_ne_nil _ _))
  rcases h with _ | ⟨hm, htail⟩
  · exact .emptyObj blank_nil
  · exact .obj (hmembers (.cons hm htail) (List.cons_ne_nil _ _)) hnd

/-- **A rendering is a text** of the value, arranged; by induction on the value. -/
theorem bare_dumps (ascii sort : Bool) {v : Json} (hv : WellFormed v) :
    ∀ t, dumps ascii sort v = some t → Bare readFloat (arrange sort readFloat v) t := by
  induction hv with
  | null =>
    intro t h
    obtain rfl := Option.some.inj h
    exact .null
  | bool b =>
    intro t h
    obtain rfl := Option.some.inj h
    exact .bool b
  | int n => exact fun t h => bare_dumpsInt h
  | float hx =>
    intro t h
    obtain rfl := Option.some.inj h
    exact .float hx
  | str s =>
    intro t h
    obtain rfl := Option.some.inj h
    have hstr := @Bare.str readFloat _ _ (spells_flatMap ascii s.toList)
    rwa [String.ofList_toList] at hstr
  | @arr items hitems ih =>
    intro t h
    obtain ⟨parts, hparts, rfl⟩ := Option.map_eq_some_iff.mp h
    rw [arrange, arrangeItems_eq_map]
    refine bare_commaSep (List.forall₂_map_left_iff.mpr ?_)
    refine ((List.forall₂_and_left _ _).mpr ⟨ih, dumpsItems_eq_some.mp hparts⟩).imp ?_
    exact fun v t h => h.1 t h.2
  | @obj members hnd hmembers ih =>
    intro t h
    obtain ⟨parts, hparts, rfl⟩ := Option.map_eq_some_iff.mp h
    rw [arrange, arrangeMembers_eq_map]
    have hkeys : ((members.map fun m => (m.1, arrange sort readFloat m.2)).map Prod.fst).Nodup := by
      rwa [List.map_map]
    have hbare : List.Forall₂ (fun m p => m.1 = p.1 ∧ Bare readFloat m.2 p.2)
        (members.map fun m => (m.1, arrange sort readFloat m.2)) parts := by
      refine List.forall₂_map_left_iff.mpr ?_
      refine ((List.forall₂_and_left _ _).mpr ⟨ih, dumpsMembers_eq_some.mp hparts⟩).imp ?_
      exact fun m p h => ⟨h.2.1, h.1 p.2 h.2.2⟩
    rcases sort with _ | _
    · exact bare_members hbare hkeys
    · exact bare_members (@forall₂_sortMembers _ _ (fun v t => Bare readFloat v t) _ _ hbare)
        (sortMembers_keys_nodup hkeys)

end Texts

/-! ## The round trip -/

variable {readFloat : List Char → PyFloat}

/-- **Strict round trip**: a rendered well-formed value is read back, arranged, without a repeated key. -/
theorem loadsUnique_dumps {ascii sort : Bool} {v : Json} (hv : WellFormed v) {t : List Char}
    (h : dumps ascii sort v = some t) : loadsUnique readFloat (utf8Chars t) = some (arrange sort readFloat v) :=
  loadsUnique_eq_some_iff.mpr ⟨t, (bare_dumps ascii sort hv t h).padded, rfl⟩

/-- **Round trip**: a rendered well-formed value is read back, arranged. -/
theorem loads_dumps {ascii sort : Bool} {v : Json} (hv : WellFormed v) {t : List Char}
    (h : dumps ascii sort v = some t) : loads readFloat (utf8Chars t) = some (arrange sort readFloat v) :=
  loads_of_loadsUnique (loadsUnique_dumps hv h)

/-- Values with the same rendering are the same, up to the order of the members. -/
theorem dumps_injective {ascii sort : Bool} {v w : Json} (hv : WellFormed v) (hw : WellFormed w) {t : List Char}
    (h : dumps ascii sort v = some t) (h' : dumps ascii sort w = some t) :
    arrange sort readFloat v = arrange sort readFloat w :=
  Option.some.inj ((loads_dumps hv h).symm.trans (loads_dumps hw h'))

/-! ## Rendering what was read -/

/-- The number of at most `k` digits. -/
theorem ofDigitChars_lt {l : List Char} {k : ℕ} (hl : ∀ c ∈ l, c.isDigit = true) (hlen : l.length ≤ k) :
    Nat.ofDigitChars 10 l 0 < 10 ^ k := by
  have hdigit : ∀ c : Char, c.isDigit = true → c.toNat - '0'.toNat < 10 := by
    intro c hc
    simp only [Char.isDigit, Bool.and_eq_true, decide_eq_true_eq, UInt32.le_iff_toNat_le, ge_iff_le] at hc
    have h0 : '0'.toNat = 48 := rfl
    have h9 : '9'.val.toNat = 57 := rfl
    have hval : c.toNat = c.val.toNat := rfl
    omega
  have hfold : ∀ (l : List Char) (n k : ℕ), (∀ c ∈ l, c.isDigit = true) → n < 10 ^ k →
      Nat.ofDigitChars 10 l n < 10 ^ (k + l.length) := by
    intro l
    induction l with
    | nil => exact fun n k _ hn => by simpa using hn
    | cons c l ih =>
      intro n k hl hn
      rw [Nat.ofDigitChars_cons, List.length_cons, ← Nat.add_assoc, Nat.add_right_comm]
      refine ih _ (k + 1) (fun d hd => hl d (List.mem_cons_of_mem c hd)) ?_
      have hc := hdigit c (hl c List.mem_cons_self)
      rw [Nat.pow_succ]
      omega
  have hlt := hfold l 0 0 hl (by simp)
  rw [Nat.zero_add] at hlt
  exact lt_of_lt_of_le hlt (Nat.pow_le_pow_right (Nat.succ_pos 9) hlen)

theorem length_repr_ofDigitChars {l : List Char} {k : ℕ} (hl : ∀ c ∈ l, c.isDigit = true) (hlen : l.length ≤ k)
    (hk : 0 < k) : (Nat.ofDigitChars 10 l 0).repr.length ≤ k :=
  (Nat.length_repr_le_iff hk).mpr (ofDigitChars_lt hl hlen)

/-- The value can be rendered. -/
def Dumpable (v : Json) : Prop := ∀ ascii sort, (dumps ascii sort v).isSome = true

theorem Dumpable.arr {items : List Json} (h : ∀ v ∈ items, Dumpable v) : Dumpable (.arr items) := by
  intro ascii sort
  have hitems : (dumpsItems ascii sort items).isSome = true := by
    induction items with
    | nil => rfl
    | cons v items ih =>
      obtain ⟨t, ht⟩ := Option.isSome_iff_exists.mp (h v List.mem_cons_self ascii sort)
      obtain ⟨ts, hts⟩ := Option.isSome_iff_exists.mp (ih fun w hw => h w (List.mem_cons_of_mem v hw))
      rw [dumpsItems, ht, hts]
      rfl
  rw [dumps, Option.isSome_map]
  exact hitems

theorem Dumpable.obj {members : List (String × Json)} (h : ∀ m ∈ members, Dumpable m.2) : Dumpable (.obj members) := by
  intro ascii sort
  have hmembers : (dumpsMembers ascii sort members).isSome = true := by
    induction members with
    | nil => rfl
    | cons m members ih =>
      obtain ⟨t, ht⟩ := Option.isSome_iff_exists.mp (h m List.mem_cons_self ascii sort)
      obtain ⟨ts, hts⟩ := Option.isSome_iff_exists.mp (ih fun w hw => h w (List.mem_cons_of_mem m hw))
      rw [dumpsMembers, dumpsMember, ht, hts]
      rfl
  rw [dumps, Option.isSome_map]
  exact hmembers

theorem Dumpable.member {members : List (String × Json)} (h : Dumpable (.obj members)) :
    ∀ m ∈ members, Dumpable m.2 := by
  intro m hm ascii sort
  obtain ⟨t, ht⟩ := Option.isSome_iff_exists.mp (h ascii sort)
  rw [dumps] at ht
  obtain ⟨parts, hparts, -⟩ := Option.map_eq_some_iff.mp ht
  have hall := dumpsMembers_eq_some.mp hparts
  clear h ht hparts
  induction hall with
  | nil => exact absurd hm List.not_mem_nil
  | cons hfirst _ ih =>
    rcases List.mem_cons.mp hm with rfl | hm
    · rw [hfirst.2]
      rfl
    · exact ih hm

theorem dumpable_setMember {key : String} {v : Json} {members : List (String × Json)} (hv : Dumpable v)
    (h : ∀ m ∈ members, Dumpable m.2) : ∀ m ∈ setMember key v members, Dumpable m.2 := by
  induction members with
  | nil =>
    intro m hm
    rw [List.mem_singleton.mp hm]
    exact hv
  | cons m members ih =>
    have hrest := ih fun w hw => h w (List.mem_cons_of_mem m hw)
    intro w hw
    rw [setMember] at hw
    split_ifs at hw with hk
    · rcases List.mem_cons.mp hw with rfl | hw
      · exact hv
      · exact h w (List.mem_cons_of_mem m hw)
    · rcases List.mem_cons.mp hw with rfl | hw
      · exact h _ List.mem_cons_self
      · exact hrest w hw

theorem dumpable_dictOf {pairs : List (String × Json)} (h : ∀ m ∈ pairs, Dumpable m.2) :
    ∀ m ∈ dictOf pairs, Dumpable m.2 := by
  have hfold : ∀ (l acc : List (String × Json)), (∀ m ∈ l, Dumpable m.2) → (∀ m ∈ acc, Dumpable m.2) →
      ∀ m ∈ l.foldl (fun members m => setMember m.1 m.2 members) acc, Dumpable m.2 := by
    intro l
    induction l with
    | nil => exact fun acc _ hacc => hacc
    | cons m l ih =>
      intro acc hl hacc
      exact ih _ (fun w hw => hl w (List.mem_cons_of_mem m hw))
        (dumpable_setMember (hl m List.mem_cons_self) hacc)
  exact hfold pairs [] h nofun

theorem dumpable_unsignedNumber {negative : Bool} {s rest : List Char} {v : Json}
    (h : unsignedNumber readFloat negative s = some (v, rest)) : Dumpable v := by
  rcases s with _ | ⟨c, s⟩
  · cases h
  · rw [unsignedNumber] at h
    by_cases hc : c.isDigit = true
    · rw [hc] at h
      simp only [Bool.not_true, Bool.false_eq_true, if_false] at h
      generalize hdigits : (if c = '0' then ['0'] else c :: s.takeWhile Char.isDigit) = digits at h
      have hall : ∀ d ∈ digits, d.isDigit = true := by
        intro d hd
        rw [← hdigits] at hd
        split_ifs at hd
        · rw [List.mem_singleton.mp hd]
          rfl
        · rcases List.mem_cons.mp hd with rfl | hd
          · exact hc
          · exact List.all_eq_true.mp List.all_takeWhile d hd
      generalize fraction (if c = '0' then s else s.dropWhile Char.isDigit) = fr at h
      generalize exponent fr.2 = er at h
      by_cases hint : (fr.1.isEmpty && er.1.isEmpty) = true
      · rw [if_pos hint] at h
        by_cases hlen : digits.length ≤ 4300
        · rw [if_pos hlen] at h
          obtain ⟨rfl, -⟩ := Prod.mk.inj (Option.some.inj h)
          have hrepr : ∀ n : ℤ, n.natAbs = Nat.ofDigitChars 10 digits 0 → n.natAbs.repr.length ≤ 4300 := by
            intro n hn
            rw [hn]
            exact length_repr_ofDigitChars hall hlen (by omega)
          intro ascii sort
          rw [dumps, dumpsInt, if_pos (hrepr _ (by split <;> omega))]
          rfl
        · rw [if_neg hlen] at h
          cases h
      · rw [if_neg hint] at h
        obtain ⟨rfl, -⟩ := Prod.mk.inj (Option.some.inj h)
        exact fun _ _ => rfl
    · rw [Bool.not_eq_true] at hc
      rw [hc] at h
      cases h

theorem dumpable_number {s rest : List Char} {v : Json} (h : number readFloat s = some (v, rest)) : Dumpable v := by
  unfold number at h
  split at h
  · exact dumpable_unsignedNumber h
  · exact dumpable_unsignedNumber h

/-- **Step of the reader**: values, items and members read with some fuel can be rendered. -/
theorem dumpable_read (fuel : ℕ) :
    (∀ s v rest, readValue readFloat fuel s = some (v, rest) → Dumpable v) ∧
    (∀ s vs rest, readItems readFloat fuel s = some (vs, rest) → ∀ v ∈ vs, Dumpable v) ∧
    ∀ s ms rest, readMembers readFloat fuel s = some (ms, rest) → ∀ m ∈ ms, Dumpable m.2 := by
  induction fuel with
  | zero =>
    refine ⟨fun s v rest h => ?_, fun s vs rest h => ?_, fun s ms rest h => ?_⟩
    all_goals cases h
  | succ fuel ih =>
    obtain ⟨ihv, ihi, ihm⟩ := ih
    refine ⟨?_, ?_, ?_⟩
    · intro s v rest h
      rw [readValue] at h
      split at h
      · cases h
      · split_ifs at h
        · obtain ⟨⟨text, r⟩, -, h⟩ := Option.map_eq_some_iff.mp h
          obtain ⟨rfl, -⟩ := Prod.mk.inj h
          exact fun _ _ => rfl
        · obtain ⟨rfl, -⟩ := Prod.mk.inj (Option.some.inj h)
          exact fun _ _ => rfl
        · obtain ⟨⟨items, r⟩, hitems, h⟩ := Option.map_eq_some_iff.mp h
          obtain ⟨rfl, -⟩ := Prod.mk.inj h
          exact Dumpable.arr (ihi _ _ _ hitems)
        · obtain ⟨rfl, -⟩ := Prod.mk.inj (Option.some.inj h)
          exact fun _ _ => rfl
        · obtain ⟨⟨members, r⟩, hmembers, h⟩ := Option.map_eq_some_iff.mp h
          obtain ⟨rfl, -⟩ := Prod.mk.inj h
          exact Dumpable.obj (dumpable_dictOf (ihm _ _ _ hmembers))
        · obtain ⟨r, -, h⟩ := Option.map_eq_some_iff.mp h
          obtain ⟨rfl, -⟩ := Prod.mk.inj h
          exact fun _ _ => rfl
        · obtain ⟨r, -, h⟩ := Option.map_eq_some_iff.mp h
          obtain ⟨rfl, -⟩ := Prod.mk.inj h
          exact fun _ _ => rfl
        · obtain ⟨r, -, h⟩ := Option.map_eq_some_iff.mp h
          obtain ⟨rfl, -⟩ := Prod.mk.inj h
          exact fun _ _ => rfl
        · exact dumpable_number h
    · intro s vs rest h
      rw [readItems] at h
      obtain ⟨⟨v, r⟩, hv, h⟩ := Option.bind_eq_some_iff.mp h
      have hfirst := ihv _ _ _ hv
      dsimp only at h
      split at h
      · obtain ⟨⟨others, r'⟩, hothers, h⟩ := Option.map_eq_some_iff.mp h
        obtain ⟨rfl, -⟩ := Prod.mk.inj h
        exact List.forall_mem_cons.mpr ⟨hfirst, ihi _ _ _ hothers⟩
      · obtain ⟨rfl, -⟩ := Prod.mk.inj (Option.some.inj h)
        exact List.forall_mem_cons.mpr ⟨hfirst, List.forall_mem_nil _⟩
      · cases h
    · intro s ms rest h
      rw [readMembers] at h
      obtain ⟨r₀, -, h⟩ := Option.bind_eq_some_iff.mp h
      obtain ⟨⟨key, r₁⟩, -, h⟩ := Option.bind_eq_some_iff.mp h
      obtain ⟨r₂, -, h⟩ := Option.bind_eq_some_iff.mp h
      obtain ⟨⟨v, r⟩, hv, h⟩ := Option.bind_eq_some_iff.mp h
      have hfirst := ihv _ _ _ hv
      dsimp only at h
      split at h
      · obtain ⟨⟨others, r'⟩, hothers, h⟩ := Option.map_eq_some_iff.mp h
        obtain ⟨rfl, -⟩ := Prod.mk.inj h
        exact List.forall_mem_cons.mpr ⟨hfirst, ihm _ _ _ hothers⟩
      · obtain ⟨rfl, -⟩ := Prod.mk.inj (Option.some.inj h)
        exact List.forall_mem_cons.mpr ⟨hfirst, List.forall_mem_nil _⟩
      · cases h

/-- What was read can be rendered. -/
theorem loads_dumpable {bytes : Bytes} {v : Json} (h : loads readFloat bytes = some v) : Dumpable v := by
  unfold loads at h
  obtain ⟨chars, -, h⟩ := Option.bind_eq_some_iff.mp h
  obtain ⟨⟨w, rest⟩, hw, h⟩ := Option.bind_eq_some_iff.mp h
  dsimp only at h
  split_ifs at h
  cases h
  exact (dumpable_read _).1 _ _ _ hw

end Lucent.Lib.Json
