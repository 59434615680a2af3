import Mathlib.Data.List.Infix
import Mathlib.Data.List.TakeWhile

/-!
# Lucent.Lib.Text — bytes and text

`Bytes` is the type of byte strings.  `utf8` is the UTF-8 encoding of a text, and `encodedLength` its length.

The text operations are defined on the list of characters, so that they evaluate: `hasText`, `lowerAscii`,
`words` (split on whitespace), `splitOn` (split on a character), `stripChar`, `hexText`.
-/

namespace Lucent.Lib

/-- Byte strings. -/
abbrev Bytes := List UInt8

/-- The UTF-8 encoding of characters, and of a text. -/
def utf8Chars (chars : List Char) : Bytes := chars.flatMap String.utf8EncodeChar

def utf8 (s : String) : Bytes := utf8Chars s.toList

/-- The length of the UTF-8 encoding. -/
def encodedLength (s : String) : ℕ := (utf8 s).length

theorem append_left_cancel_iff {a b c : String} : a ++ b = a ++ c ↔ b = c := by
  rw [← String.toList_inj, String.toList_append, String.toList_append, List.append_cancel_left_eq, String.toList_inj]

theorem encodedLength_append (a b : String) : encodedLength (a ++ b) = encodedLength a + encodedLength b := by
  rw [encodedLength, utf8, utf8Chars, String.toList_append, List.flatMap_append, List.length_append]
  rfl

/-! ## Searching -/

/-- `sub` occurs in `s`. -/
def hasText (s sub : String) : Bool := s.toList.tails.any (fun t => sub.toList.isPrefixOf t)

def hasPrefix (s pre : String) : Bool := pre.toList.isPrefixOf s.toList

def hasSuffix (s suffix : String) : Bool := suffix.toList.isSuffixOf s.toList

/-- A text that begins otherwise does not begin with `pre`, whatever follows. -/
theorem hasPrefix_append_eq_false {s pre : String} (hs : hasPrefix s pre = false) (hpre : hasPrefix pre s = false)
    (t : String) : hasPrefix (s ++ t) pre = false := by
  rw [hasPrefix, Bool.eq_false_iff, ne_eq, List.isPrefixOf_iff_prefix] at hs hpre ⊢
  rw [String.toList_append]
  intro h
  rcases List.prefix_or_prefix_of_prefix h (List.prefix_append _ _) with h | h
  · exact hs h
  · exact hpre h

/-- The text without its first `n` characters. -/
def dropChars (n : ℕ) (s : String) : String := String.ofList (s.toList.drop n)

/-! ## Case and whitespace -/

/-- ASCII letters in lower case, everything else unchanged. -/
def lowerAscii (s : String) : String := String.ofList (s.toList.map Char.toLower)

def isAscii (s : String) : Bool := s.toList.all (fun c => c.toNat < 128)

theorem alpha_range {c : Char} (h : c.isAlpha = true) :
    (65 ≤ c.toNat ∧ c.toNat ≤ 90) ∨ (97 ≤ c.toNat ∧ c.toNat ≤ 122) := by
  rcases (Bool.or_eq_true c.isUpper c.isLower).mp h with h | h
  · exact .inl (of_decide_eq_true h)
  · obtain ⟨hle, hge⟩ := (Bool.and_eq_true _ _).mp h
    exact .inr ⟨of_decide_eq_true hle, of_decide_eq_true hge⟩

theorem alphanum_range {c : Char} (h : c.isAlphanum = true) :
    (48 ≤ c.toNat ∧ c.toNat ≤ 57) ∨ (65 ≤ c.toNat ∧ c.toNat ≤ 90) ∨ (97 ≤ c.toNat ∧ c.toNat ≤ 122) := by
  rcases (Bool.or_eq_true c.isAlpha c.isDigit).mp h with h | h
  · exact .inr (alpha_range h)
  · obtain ⟨hle, hge⟩ := (Bool.and_eq_true _ _).mp h
    exact .inl ⟨of_decide_eq_true hle, of_decide_eq_true hge⟩

/-- The Unicode whitespace characters. -/
def isSpace (c : Char) : Bool :=
  [0x09, 0x0A, 0x0B, 0x0C, 0x0D, 0x1C, 0x1D, 0x1E, 0x1F, 0x20, 0x85, 0xA0, 0x1680, 0x2000, 0x2001, 0x2002, 0x2003,
    0x2004, 0x2005, 0x2006, 0x2007, 0x2008, 0x2009, 0x200A, 0x2028, 0x2029, 0x202F, 0x205F, 0x3000].contains c.toNat

/-- The maximal runs of characters that `sep` rejects; `run` is the current one, reversed. -/
def runs (sep : Char → Bool) : List Char → List Char → List (List Char)
  | run, [] => if run.isEmpty then [] else [run.reverse]
  | run, c :: rest =>
    if sep c then (if run.isEmpty then runs sep [] rest else run.reverse :: runs sep [] rest)
    else runs sep (c :: run) rest

/-- The words of a text, split on whitespace. -/
def words (s : String) : List String := (runs isSpace [] s.toList).map String.ofList

/-- Texts joined by a separator. -/
def joinText (sep : String) : List String → String
  | [] => ""
  | [s] => s
  | s :: rest => s ++ sep ++ joinText sep rest

/-- The text without the leading and trailing characters `strip` accepts. -/
def stripChars (strip : Char → Bool) (s : String) : String :=
  String.ofList ((s.toList.dropWhile strip).reverse.dropWhile strip).reverse

theorem hasText_iff {s sub : String} : hasText s sub = true ↔ sub.toList <:+: s.toList := by
  simp only [hasText, List.any_eq_true, List.mem_tails, List.isPrefixOf_iff_prefix, List.infix_iff_prefix_suffix,
    and_comm]

/-- Dropping what a word does not start with loses no occurrence of it. -/
theorem infix_dropWhile_iff {p : Char → Bool} {word l : List Char} {c : Char} (hword : word.head? = some c)
    (hc : p c = false) : word <:+: l.dropWhile p ↔ word <:+: l := by
  induction l with
  | nil => rfl
  | cons a l ih =>
    rw [List.dropWhile_cons]
    split_ifs with ha
    · rw [ih, List.infix_cons_iff]
      refine ⟨.inr, fun h => h.resolve_left fun hpre => ?_⟩
      rcases word with _ | ⟨b, word⟩
      · exact nomatch hword
      · obtain rfl : b = c := Option.some.inj hword
        obtain rfl : b = a := (List.cons_prefix_cons.mp hpre).1
        rw [hc] at ha
        exact nomatch ha
    · rfl

/-- Stripping characters loses no occurrence of a word that neither starts nor ends with one of them. -/
theorem hasText_stripChars {strip : Char → Bool} {word : String} {first last : Char}
    (hfirst : word.toList.head? = some first) (hlast : word.toList.getLast? = some last)
    (hf : strip first = false) (hl : strip last = false) (s : String) :
    hasText (stripChars strip s) word = hasText s word := by
  have hrev : word.toList.reverse.head? = some last := by rw [List.head?_reverse, hlast]
  rw [Bool.eq_iff_iff, hasText_iff, hasText_iff, stripChars, String.toList_ofList, ← List.reverse_infix,
    List.reverse_reverse, infix_dropWhile_iff hrev hl, List.reverse_infix, infix_dropWhile_iff hfirst hf]

/-- Nothing is left of a text exactly if all its characters are stripped. -/
theorem stripChars_isEmpty {strip : Char → Bool} {chars : List Char} :
    (stripChars strip (String.ofList chars)).isEmpty = true ↔ ∀ c ∈ chars, strip c = true := by
  rw [stripChars, String.toList_ofList, String.isEmpty_iff, ← String.toList_eq_nil_iff, String.toList_ofList,
    List.reverse_eq_nil_iff, List.dropWhile_eq_nil_iff]
  simp only [List.mem_reverse]
  refine ⟨fun h c hc => ?_, fun h c hc => h c ((List.dropWhile_sublist _).mem hc)⟩
  rw [← List.takeWhile_append_dropWhile (p := strip) (l := chars), List.mem_append] at hc
  exact hc.elim List.mem_takeWhile_imp (h c)

/-- A text up to a character it does not have is determined by what it is followed by. -/
theorem append_cons_inj {c : Char} {l l' rest rest' : List Char} (hl : c ∉ l) (hl' : c ∉ l')
    (h : l ++ c :: rest = l' ++ c :: rest') : l = l' ∧ rest = rest' := by
  induction l generalizing l' with
  | nil =>
    rcases l' with _ | ⟨a, l'⟩
    · exact ⟨rfl, (List.cons.inj h).2⟩
    · exact absurd (List.cons.inj h).1 fun heq => hl' (heq ▸ List.mem_cons_self)
  | cons b l ih =>
    rcases l' with _ | ⟨a, l'⟩
    · exact absurd (List.cons.inj h).1 fun heq => hl (heq ▸ List.mem_cons_self)
    · obtain ⟨rfl, htail⟩ := List.cons.inj h
      obtain ⟨rfl, hrest⟩ := ih (List.not_mem_of_not_mem_cons hl) (List.not_mem_of_not_mem_cons hl') htail
      exact ⟨rfl, hrest⟩

/-- Replace one character by a text. -/
def replaceChar (c : Char) (by' : String) (s : String) : String :=
  String.ofList (s.toList.flatMap (fun x => if x = c then by'.toList else [x]))

/-! ## Splitting on a character -/

/-- The pieces between the occurrences of `sep`. -/
def pieces (sep : Char) : List Char → List (List Char)
  | [] => [[]]
  | c :: rest =>
    if c = sep then [] :: pieces sep rest
    else match pieces sep rest with
      | [] => [[c]]
      | piece :: others => (c :: piece) :: others

/-- The pieces of a text between the occurrences of `sep`. -/
def splitOn (sep : Char) (s : String) : List String := (pieces sep s.toList).map String.ofList

theorem pieces_ne_nil (sep : Char) (l : List Char) : pieces sep l ≠ [] := by
  rcases l with _ | ⟨c, l⟩
  · exact List.cons_ne_nil _ _
  · unfold pieces
    split
    · exact List.cons_ne_nil _ _
    · split <;> exact List.cons_ne_nil _ _

/-- A text that is its only piece. -/
theorem pieces_eq_singleton {sep : Char} {l piece : List Char} (h : pieces sep l = [piece]) : l = piece := by
  induction l generalizing piece with
  | nil => exact List.head_eq_of_cons_eq h
  | cons c l ih =>
    unfold pieces at h
    split at h
    · exact absurd (List.cons.inj h).2 (pieces_ne_nil sep l)
    · rcases hl : pieces sep l with _ | ⟨first, others⟩
      · exact absurd hl (pieces_ne_nil sep l)
      · rw [hl] at h
        obtain ⟨rfl, rfl⟩ := List.cons.inj h
        rw [ih hl]

theorem splitOn_eq_singleton {sep : Char} {s piece : String} (h : splitOn sep s = [piece]) : s = piece := by
  unfold splitOn at h
  obtain ⟨first, hfirst, rfl⟩ := List.map_eq_singleton_iff.mp h
  rw [← pieces_eq_singleton hfirst, String.ofList_toList]

/-! ## Numbers -/

/-- A hexadecimal digit in lower case. -/
def hexDigit (n : ℕ) : Char := if n < 10 then Char.ofNat (0x30 + n) else Char.ofNat (0x57 + n)

/-- The value of a hexadecimal digit. -/
def hexValue? (c : Char) : Option ℕ :=
  if '0' ≤ c ∧ c ≤ '9' then some (c.toNat - 0x30)
  else if 'a' ≤ c ∧ c ≤ 'f' then some (c.toNat - 0x57)
  else if 'A' ≤ c ∧ c ≤ 'F' then some (c.toNat - 0x37)
  else none

def isHex (c : Char) : Bool := (hexValue? c).isSome

/-- Two lower-case hexadecimal digits for each byte. -/
def hexText (bytes : Bytes) : String :=
  String.ofList (bytes.flatMap (fun b => [hexDigit (b.toNat / 16), hexDigit (b.toNat % 16)]))

/-- The bytes of a text of hexadecimal digits. -/
def hexBytes : List Char → Bytes
  | hi :: lo :: rest => UInt8.ofNat (16 * (hexValue? hi).getD 0 + (hexValue? lo).getD 0) :: hexBytes rest
  | _ => []

/-- The value of a list of hexadecimal digits. -/
def hexNat (digits : List Char) : ℕ := digits.foldl (fun n c => 16 * n + (hexValue? c).getD 0) 0

/-- The lower-case hexadecimal digits of a number, without leading zeros. -/
def natHex (n : ℕ) : String := String.ofList (Nat.toDigits 16 n)

/-- A digit reads back as its value. -/
theorem hexValue?_hexDigit {n : ℕ} (h : n < 16) : hexValue? (hexDigit n) = some n := by
  have hall : ∀ k : Fin 16, hexValue? (hexDigit k) = some k.val := by decide
  exact hall ⟨n, h⟩

theorem hexText_toList (bytes : Bytes) :
    (hexText bytes).toList = bytes.flatMap (fun b => [hexDigit (b.toNat / 16), hexDigit (b.toNat % 16)]) :=
  String.toList_ofList

/-- The characters of a hexadecimal text are digits. -/
theorem mem_hexText {bytes : Bytes} {c : Char} (h : c ∈ (hexText bytes).toList) : ∃ n < 16, c = hexDigit n := by
  rw [hexText_toList] at h
  obtain ⟨b, -, hc⟩ := List.mem_flatMap.mp h
  have hlt : b.toNat < 256 := b.toNat_lt
  rcases List.mem_pair.mp hc with rfl | rfl
  · exact ⟨b.toNat / 16, by omega, rfl⟩
  · exact ⟨b.toNat % 16, by omega, rfl⟩

/-- A hexadecimal text has two bytes for each byte. -/
theorem encodedLength_hexText (bytes : Bytes) : encodedLength (hexText bytes) = 2 * bytes.length := by
  have hdigit : ∀ n < 16, (String.utf8EncodeChar (hexDigit n)).length = 1 := by decide
  rw [encodedLength, utf8, hexText_toList]
  induction bytes with
  | nil => rfl
  | cons b bytes ih =>
    have hlt : b.toNat < 256 := b.toNat_lt
    rw [List.flatMap_cons, List.cons_append, List.cons_append, List.nil_append, utf8Chars, List.flatMap_cons,
      List.flatMap_cons, List.length_append, List.length_append, hdigit _ (by omega), hdigit _ (by omega),
      List.length_cons]
    rw [utf8Chars] at ih
    omega

theorem hexBytes_hexText (bytes : Bytes) : hexBytes (hexText bytes).toList = bytes := by
  rw [hexText_toList]
  induction bytes with
  | nil => rfl
  | cons b bytes ih =>
    have hlt : b.toNat < 256 := b.toNat_lt
    have hhalves : 16 * (b.toNat / 16) + b.toNat % 16 = b.toNat := Nat.div_add_mod b.toNat 16
    rw [List.flatMap_cons, List.cons_append, List.cons_append, List.nil_append, hexBytes, ih,
      hexValue?_hexDigit (by omega), hexValue?_hexDigit (by omega), Option.getD_some, Option.getD_some, hhalves,
      UInt8.ofNat_toNat]

theorem hexText_injective : Function.Injective hexText := by
  intro a b h
  rw [← hexBytes_hexText a, h, hexBytes_hexText]

theorem hexNat_append (digits : List Char) (c : Char) :
    hexNat (digits ++ [c]) = 16 * hexNat digits + (hexValue? c).getD 0 := by
  rw [hexNat, List.foldl_append]
  rfl

theorem hexNat_toDigits (n : ℕ) : hexNat (Nat.toDigits 16 n) = n := by
  have hdigit : ∀ k < 16, (hexValue? (Nat.digitChar k)).getD 0 = k := by decide
  induction n using Nat.strongRecOn with
  | _ n ih =>
    rcases Nat.lt_or_ge n 16 with hn | hn
    · rw [Nat.toDigits_of_lt_base hn]
      exact (Nat.zero_add _).trans (hdigit n hn)
    · have hlast := hdigit (n % 16) (Nat.mod_lt n (by decide))
      rw [Nat.toDigits_of_base_le (by decide) hn, hexNat_append, ih (n / 16) (by omega), hlast]
      exact Nat.div_add_mod n 16

theorem natHex_injective : Function.Injective natHex := by
  intro a b h
  have hlist : Nat.toDigits 16 a = Nat.toDigits 16 b := by
    rw [← String.toList_ofList (l := Nat.toDigits 16 a), ← String.toList_ofList (l := Nat.toDigits 16 b)]
    exact congrArg String.toList h
  rw [← hexNat_toDigits a, hlist, hexNat_toDigits]

/-! ## Decimal digits -/

theorem digitChar_toNat_sub {c : Char} (h : c.isDigit = true) : Nat.digitChar (c.toNat - 48) = c := by
  have hc : 48 ≤ c.toNat ∧ c.toNat ≤ 57 := by simpa [Char.isDigit, UInt32.le_iff_toNat_le] using h
  refine Char.toNat_inj.mp ?_
  rw [Nat.toNat_digitChar_of_lt_ten (by omega)]
  omega

/-- Digits after those of a positive number. -/
theorem toDigits_append_digits {digits : List Char} (h : ∀ c ∈ digits, c.isDigit = true) {n : ℕ} (hn : 0 < n) :
    Nat.toDigits 10 n ++ digits = Nat.toDigits 10 (Nat.ofDigitChars 10 digits n) := by
  induction digits generalizing n with
  | nil => rw [List.append_nil, Nat.ofDigitChars_nil]
  | cons c digits ih =>
    have hc := h c List.mem_cons_self
    have hlt : c.toNat - 48 < 10 := by
      have : 48 ≤ c.toNat ∧ c.toNat ≤ 57 := by simpa [Char.isDigit, UInt32.le_iff_toNat_le] using hc
      omega
    have hstep := Nat.toDigits_append_toDigits (by decide) hn hlt
    rw [Nat.toDigits_of_lt_base hlt, digitChar_toNat_sub hc] at hstep
    calc Nat.toDigits 10 n ++ c :: digits = (Nat.toDigits 10 n ++ [c]) ++ digits := by simp
      _ = Nat.toDigits 10 (10 * n + (c.toNat - 48)) ++ digits := by rw [hstep]
      _ = Nat.toDigits 10 (Nat.ofDigitChars 10 digits (10 * n + (c.toNat - 48))) :=
        ih (fun d hd => h d (List.mem_cons_of_mem c hd)) (by omega)
      _ = _ := by rw [Nat.ofDigitChars_cons]; rfl

/-- A number without leading zeros is the rendering of its value. -/
theorem toDigits_ofDigitChars {c : Char} {digits : List Char} (h : ∀ d ∈ c :: digits, d.isDigit = true)
    (hc : c ≠ '0') : Nat.toDigits 10 (Nat.ofDigitChars 10 (c :: digits) 0) = c :: digits := by
  have hdigit := h c List.mem_cons_self
  have hrange : 48 ≤ c.toNat ∧ c.toNat ≤ 57 := by simpa [Char.isDigit, UInt32.le_iff_toNat_le] using hdigit
  have hne : c.toNat ≠ 48 := fun heq => hc (Char.toNat_inj.mp heq)
  have hrest := toDigits_append_digits (fun d hd => h d (List.mem_cons_of_mem c hd)) (n := c.toNat - 48) (by omega)
  rw [Nat.toDigits_of_lt_base (by omega), digitChar_toNat_sub hdigit] at hrest
  rw [Nat.ofDigitChars_cons, Nat.mul_zero, Nat.zero_add]
  exact hrest.symm

/-- The rendering of an integer determines it. -/
theorem intRepr_injective : Function.Injective Int.repr := by
  have hnat : ∀ {m n : ℕ}, m.repr = n.repr → m = n := by
    intro m n h
    rw [Nat.repr_eq_ofList_toDigits, Nat.repr_eq_ofList_toDigits, String.ofList_inj] at h
    rw [← Nat.ofDigitChars_toDigits (by decide : 1 < 10) le_rfl (n := m), h,
      Nat.ofDigitChars_toDigits (by decide) le_rfl]
  -- a rendering without a sign is one of digits
  have hsign : ∀ {m n : ℕ}, m.repr ≠ "-" ++ n.repr := by
    intro m n h
    have hmem : '-' ∈ Nat.toDigits 10 m := by
      rw [← String.toList_ofList (l := Nat.toDigits 10 m), ← Nat.repr_eq_ofList_toDigits, h, String.toList_append]
      exact List.mem_append_left _ List.mem_cons_self
    exact absurd (Nat.isDigit_of_mem_toDigits (by decide) (by decide) hmem) (by decide)
  intro m n h
  rcases m with m | m <;> rcases n with n | n
  · rw [hnat h]
  · exact absurd h hsign
  · exact absurd h.symm hsign
  · have hsucc : m + 1 = n + 1 := hnat (append_left_cancel_iff.mp h)
    rw [Nat.succ.inj hsucc]

end Lucent.Lib
