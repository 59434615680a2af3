import Lucent.Lib.Json

/-!
# Lucent.Lib.Loads — reading JSON text

`loads` and `loadsUnique` read a JSON text, given as its UTF-8 bytes.

* Texts are read in two steps: the characters and escapes up to the closing quote, then the surrogate pairs.
* The float of a decimal literal is a parameter.
* The texts of a value are Unicode: a string of Python may also hold a surrogate that an escape names alone, and a text
  with such an escape is refused here.  So are `NaN` and the infinities, which are no JSON.
* `utf8Decode_eq_some_iff`: the bytes that decode to some characters are their encoding.
-/

namespace Lucent.Lib

/-! ## UTF-8 -/

/-- The characters of at most `fuel` encoded characters. -/
def decodeChars : ℕ → Bytes → Option (List Char)
  | _, [] => some []
  | 0, _ :: _ => none
  | fuel + 1, b :: bytes =>
    match (b :: bytes).toByteArray.utf8DecodeChar? 0 with
    | none => none
    | some c => (decodeChars fuel ((b :: bytes).drop c.utf8Size)).map (c :: ·)

/-- The characters of a UTF-8 text. -/
def utf8Decode (bytes : Bytes) : Option (List Char) := decodeChars bytes.length bytes

theorem decodeChars_encode (chars : List Char) {fuel : ℕ} (h : chars.length ≤ fuel) :
    decodeChars fuel (utf8Chars chars) = some chars := by
  induction chars generalizing fuel with
  | nil => cases fuel <;> rfl
  | cons c chars ih =>
    obtain ⟨fuel, rfl⟩ : ∃ n, fuel = n + 1 := ⟨fuel - 1, by simp only [List.length_cons] at h; omega⟩
    have hsplit : utf8Chars (c :: chars) = String.utf8EncodeChar c ++ utf8Chars chars := List.flatMap_cons
    have hsize : (String.utf8EncodeChar c).length = c.utf8Size := String.length_utf8EncodeChar c
    have hpos := c.utf8Size_pos
    have hread : (utf8Chars (c :: chars)).toByteArray.utf8DecodeChar? 0 = some c := by
      rw [hsplit, List.toByteArray_append]
      exact ByteArray.utf8DecodeChar?_utf8EncodeChar_append
    have hdrop : (utf8Chars (c :: chars)).drop c.utf8Size = utf8Chars chars := by
      rw [hsplit, ← hsize, List.drop_left]
    rcases hbytes : utf8Chars (c :: chars) with _ | ⟨b, bytes⟩
    · rw [hsplit, List.append_eq_nil_iff] at hbytes
      rw [hbytes.1, List.length_nil] at hsize
      omega
    · rw [hbytes] at hread hdrop
      rw [decodeChars, hread]
      simp only [hdrop, ih (Nat.le_of_succ_le_succ h), Option.map_some]

theorem length_le_utf8Chars (chars : List Char) : chars.length ≤ (utf8Chars chars).length := by
  induction chars with
  | nil => rfl
  | cons c chars ih =>
    have hsize := String.length_utf8EncodeChar c
    have hpos := c.utf8Size_pos
    have hsplit : utf8Chars (c :: chars) = String.utf8EncodeChar c ++ utf8Chars chars := List.flatMap_cons
    rw [hsplit, List.length_append, List.length_cons]
    omega

/-- Decoding inverts encoding. -/
theorem utf8Decode_utf8Chars (chars : List Char) : utf8Decode (utf8Chars chars) = some chars :=
  decodeChars_encode chars (length_le_utf8Chars chars)

/-- What was decoded is encoded as it was. -/
theorem utf8Chars_of_decodeChars {fuel : ℕ} {bytes : Bytes} {chars : List Char}
    (h : decodeChars fuel bytes = some chars) : utf8Chars chars = bytes := by
  induction fuel generalizing bytes chars with
  | zero =>
    cases bytes with
    | nil =>
      obtain rfl := Option.some.inj h
      rfl
    | cons b bytes => cases h
  | succ fuel ih =>
    cases bytes with
    | nil =>
      obtain rfl := Option.some.inj h
      rfl
    | cons b bytes =>
      rw [decodeChars] at h
      split at h
      · cases h
      · rename_i c hc
        obtain ⟨rest, hrest, rfl⟩ := Option.map_eq_some_iff.mp h
        obtain ⟨l, hl⟩ := ByteArray.exists_of_utf8DecodeChar?_eq_some hc
        have hbytes : b :: bytes = String.utf8EncodeChar c ++ l.data.toList := by
          have hlist := congrArg (fun a : ByteArray => a.data.toList) hl
          simpa using hlist
        have hdrop : (b :: bytes).drop c.utf8Size = l.data.toList := by
          rw [hbytes, ← String.length_utf8EncodeChar c, List.drop_left]
        have hsplit : utf8Chars (c :: rest) = String.utf8EncodeChar c ++ utf8Chars rest := List.flatMap_cons
        rw [hsplit, ih hrest, hdrop, ← hbytes]

/-- The bytes that decode to some characters are their encoding. -/
theorem utf8Decode_eq_some_iff {bytes : Bytes} {chars : List Char} :
    utf8Decode bytes = some chars ↔ utf8Chars chars = bytes :=
  ⟨utf8Chars_of_decodeChars, fun h => h ▸ utf8Decode_utf8Chars chars⟩

theorem utf8Chars_injective : Function.Injective utf8Chars := by
  intro a b h
  have hdecode := utf8Decode_utf8Chars a
  rw [h, utf8Decode_utf8Chars] at hdecode
  exact (Option.some.inj hdecode).symm

namespace Json

/-! ## The reader -/

def isBlank (c : Char) : Bool := c == ' ' || c == '\t' || c == '\n' || c == '\r'

/-- The text after blanks. -/
def skip (s : List Char) : List Char := s.dropWhile isBlank

/-- A character of a text, or the number of a `\u` escape. -/
inductive Piece
  | char (c : Char)
  | unit (n : ℕ)

/-- The number of four hexadecimal digits. -/
def unit? (a b c d : Char) : Option ℕ :=
  if isHex a && isHex b && isHex c && isHex d then some (hexNat [a, b, c, d]) else none

/-- The character of a short escape. -/
def shortEscape (c : Char) : Option Char :=
  if c = '"' then some '"'
  else if c = '\\' then some '\\'
  else if c = '/' then some '/'
  else if c = 'b' then some (Char.ofNat 0x08)
  else if c = 'f' then some (Char.ofNat 0x0C)
  else if c = 'n' then some '\n'
  else if c = 'r' then some '\r'
  else if c = 't' then some '\t'
  else none

/-- One piece in front of the others. -/
def consPiece (p : Option Piece) (others : Option (List Piece × List Char)) : Option (List Piece × List Char) :=
  p.bind fun p => others.map fun (ps, rest) => (p :: ps, rest)

/-- The pieces of a text up to the closing quote, and what follows it. -/
def textPieces : List Char → Option (List Piece × List Char)
  | [] => none
  | c :: rest =>
    if c = '"' then some ([], rest)
    else if c = '\\' then
      match rest with
      | [] => none
      | e :: rest =>
        if e = 'u' then
          match rest with
          | h₁ :: h₂ :: h₃ :: h₄ :: rest => consPiece ((unit? h₁ h₂ h₃ h₄).map .unit) (textPieces rest)
          | _ => none
        else consPiece ((shortEscape e).map .char) (textPieces rest)
    else if c.toNat < 0x20 then none
    else consPiece (some (.char c)) (textPieces rest)

/-- The characters of the pieces, with the surrogate pairs joined. -/
def joinPieces : List Piece → Option (List Char)
  | [] => some []
  | .char c :: rest => (joinPieces rest).map (c :: ·)
  | .unit n :: rest =>
    if n < 0xD800 ∨ 0xDFFF < n then (joinPieces rest).map (Char.ofNat n :: ·)
    else match rest with
      | .unit m :: rest =>
        if n < 0xDC00 ∧ 0xDC00 ≤ m ∧ m ≤ 0xDFFF then
          (joinPieces rest).map (Char.ofNat (0x10000 + (n - 0xD800) * 0x400 + (m - 0xDC00)) :: ·)
        else none
      | _ => none

/-- A text after its opening quote. -/
def readText (s : List Char) : Option (String × List Char) := do
  let (ps, rest) ← textPieces s
  let chars ← joinPieces ps
  return (String.ofList chars, rest)

/-- The fraction of a number. -/
def fraction : List Char → List Char × List Char
  | '.' :: c :: rest =>
    if c.isDigit then ('.' :: c :: rest.takeWhile Char.isDigit, rest.dropWhile Char.isDigit)
    else ([], '.' :: c :: rest)
  | s => ([], s)

/-- The digits of an exponent after its sign. -/
def exponentDigits (sign rest all : List Char) : List Char × List Char :=
  if rest.head?.any Char.isDigit then (sign ++ rest.takeWhile Char.isDigit, rest.dropWhile Char.isDigit)
  else ([], all)

/-- The exponent of a number. -/
def exponent : List Char → List Char × List Char
  | [] => ([], [])
  | e :: rest =>
    if e = 'e' ∨ e = 'E' then
      match rest with
      | '-' :: rest => exponentDigits [e, '-'] rest (e :: '-' :: rest)
      | '+' :: rest => exponentDigits [e, '+'] rest (e :: '+' :: rest)
      | rest => exponentDigits [e] rest (e :: rest)
    else ([], e :: rest)

/-- A number after its sign: an integer of at most 4300 digits, or a float. -/
def unsignedNumber (readFloat : List Char → PyFloat) (negative : Bool) : List Char → Option (Json × List Char)
  | [] => none
  | c :: s =>
    if !c.isDigit then none
    else
      let digits := if c = '0' then ['0'] else c :: s.takeWhile Char.isDigit
      let rest := if c = '0' then s else s.dropWhile Char.isDigit
      let (frac, rest) := fraction rest
      let (exp, rest) := exponent rest
      if frac.isEmpty && exp.isEmpty then
        if digits.length ≤ 4300 then
          let n : ℤ := Nat.ofDigitChars 10 digits 0
          some (.int (if negative then -n else n), rest)
        else none
      else some (.float (readFloat ((if negative then ['-'] else []) ++ digits ++ frac ++ exp)), rest)

def number (readFloat : List Char → PyFloat) : List Char → Option (Json × List Char)
  | '-' :: s => unsignedNumber readFloat true s
  | s => unsignedNumber readFloat false s

/-- `dict(pairs)`: a repeated key keeps its place and takes the last value. -/
def setMember (key : String) (v : Json) : List (String × Json) → List (String × Json)
  | [] => [(key, v)]
  | (k, w) :: rest => if k = key then (key, v) :: rest else (k, w) :: setMember key v rest

theorem lookup_setMember (key other : String) (v : Json) (members : List (String × Json)) :
    lookup other (setMember key v members) = if key = other then some v else lookup other members := by
  induction members with
  | nil => rfl
  | cons m rest ih =>
    obtain ⟨k, w⟩ := m
    rw [setMember]
    split_ifs with hk hother hother
    · rw [lookup, if_pos hother]
    · rw [lookup, lookup, if_neg hother, if_neg fun h => hother (hk.symm.trans h)]
    · rw [lookup, if_neg fun h => hk (h.trans hother.symm), ih, if_pos hother]
    · rw [lookup, lookup, ih, if_neg hother]

def dictOf (pairs : List (String × Json)) : List (String × Json) :=
  pairs.foldl (fun members m => setMember m.1 m.2 members) []

/-- The rest after a word. -/
def afterWord (word s : List Char) : Option (List Char) :=
  if word.isPrefixOf s then some (s.drop word.length) else none

/-- The rest after blanks and the character `c`. -/
def expect (c : Char) (s : List Char) : Option (List Char) :=
  match skip s with
  | [] => none
  | d :: rest => if d = c then some rest else none

mutual

/-- A value, and what follows it; `fuel` bounds the steps. -/
def readValue (readFloat : List Char → PyFloat) : ℕ → List Char → Option (Json × List Char)
  | 0, _ => none
  | fuel + 1, s =>
    match skip s with
    | [] => none
    | c :: rest =>
      if c = '"' then (readText rest).map fun (text, rest) => (.str text, rest)
      else if c = '[' then
        if (skip rest).head? = some ']' then some (.arr [], (skip rest).drop 1)
        else (readItems readFloat fuel rest).map fun (items, rest) => (.arr items, rest)
      else if c = '{' then
        if (skip rest).head? = some '}' then some (.obj [], (skip rest).drop 1)
        else (readMembers readFloat fuel rest).map fun (members, rest) => (.obj (dictOf members), rest)
      else if c = 'n' then (afterWord "ull".toList rest).map fun rest => (.null, rest)
      else if c = 't' then (afterWord "rue".toList rest).map fun rest => (.bool true, rest)
      else if c = 'f' then (afterWord "alse".toList rest).map fun rest => (.bool false, rest)
      else number readFloat (c :: rest)
termination_by structural fuel => fuel

/-- The items of an array up to the closing bracket. -/
def readItems (readFloat : List Char → PyFloat) : ℕ → List Char → Option (List Json × List Char)
  | 0, _ => none
  | fuel + 1, s => do
    let (v, rest) ← readValue readFloat fuel s
    match skip rest with
    | ',' :: rest => (readItems readFloat fuel rest).map fun (vs, rest) => (v :: vs, rest)
    | ']' :: rest => some ([v], rest)
    | _ => none
termination_by structural fuel => fuel

/-- The members of an object up to the closing brace. -/
def readMembers (readFloat : List Char → PyFloat) : ℕ → List Char → Option (List (String × Json) × List Char)
  | 0, _ => none
  | fuel + 1, s => do
    let rest ← expect '"' s
    let (key, rest) ← readText rest
    let rest ← expect ':' rest
    let (v, rest) ← readValue readFloat fuel rest
    match skip rest with
    | ',' :: rest => (readMembers readFloat fuel rest).map fun (ms, rest) => ((key, v) :: ms, rest)
    | '}' :: rest => some ([(key, v)], rest)
    | _ => none
termination_by structural fuel => fuel

end

/-- `json.loads`, of a text without a lone surrogate and without `NaN` and the infinities. -/
def loads (readFloat : List Char → PyFloat) (bytes : Bytes) : Option Json := do
  let chars ← utf8Decode bytes
  let (v, rest) ← readValue readFloat (chars.length + 1) chars
  if (skip rest).isEmpty then some v else none

/-! ## Strict reading -/

mutual

/-- `readValue` under an `object_pairs_hook` that refuses a repeated key. -/
def readValueUnique (readFloat : List Char → PyFloat) : ℕ → List Char → Option (Json × List Char)
  | 0, _ => none
  | fuel + 1, s =>
    match skip s with
    | [] => none
    | c :: rest =>
      if c = '[' then
        if (skip rest).head? = some ']' then some (.arr [], (skip rest).drop 1)
        else (readItemsUnique readFloat fuel rest).map fun (items, rest) => (.arr items, rest)
      else if c = '{' then
        if (skip rest).head? = some '}' then some (.obj [], (skip rest).drop 1)
        else do
          let (members, rest) ← readMembersUnique readFloat fuel rest
          if (members.map Prod.fst).Nodup then some (.obj members, rest) else none
      else readValue readFloat (fuel + 1) (c :: rest)
termination_by structural fuel => fuel

def readItemsUnique (readFloat : List Char → PyFloat) : ℕ → List Char → Option (List Json × List Char)
  | 0, _ => none
  | fuel + 1, s => do
    let (v, rest) ← readValueUnique readFloat fuel s
    match skip rest with
    | ',' :: rest => (readItemsUnique readFloat fuel rest).map fun (vs, rest) => (v :: vs, rest)
    | ']' :: rest => some ([v], rest)
    | _ => none
termination_by structural fuel => fuel

def readMembersUnique (readFloat : List Char → PyFloat) : ℕ → List Char → Option (List (String × Json) × List Char)
  | 0, _ => none
  | fuel + 1, s => do
    let rest ← expect '"' s
    let (key, rest) ← readText rest
    let rest ← expect ':' rest
    let (v, rest) ← readValueUnique readFloat fuel rest
    match skip rest with
    | ',' :: rest => (readMembersUnique readFloat fuel rest).map fun (ms, rest) => ((key, v) :: ms, rest)
    | '}' :: rest => some ([(key, v)], rest)
    | _ => none
termination_by structural fuel => fuel

end

/-- `loads` under an `object_pairs_hook` that refuses a repeated key, and a `parse_constant` that refuses `NaN` and the
infinities. -/
def loadsUnique (readFloat : List Char → PyFloat) (bytes : Bytes) : Option Json := do
  let chars ← utf8Decode bytes
  let (v, rest) ← readValueUnique readFloat (chars.length + 1) chars
  if (skip rest).isEmpty then some v else none

/-! ## Surrogates -/

/-- The numbers of the `\u` escapes of a text; `none` for its other characters and escapes. -/
def escapeUnits : List Char → List (Option ℕ)
  | [] => []
  | '\\' :: 'u' :: h₁ :: h₂ :: h₃ :: h₄ :: rest => unit? h₁ h₂ h₃ h₄ :: escapeUnits rest
  | '\\' :: _ :: rest => none :: escapeUnits rest
  | _ :: rest => none :: escapeUnits rest

/-- A surrogate among the numbers is not one half of a pair. -/
def loneUnit : List (Option ℕ) → Bool
  | [] => false
  | none :: rest => loneUnit rest
  | some n :: rest =>
    if n < 0xD800 ∨ 0xDFFF < n then loneUnit rest
    else match rest with
      | some m :: rest => !decide (n < 0xDC00 ∧ 0xDC00 ≤ m ∧ m ≤ 0xDFFF) || loneUnit rest
      | _ => true

/-- The bytes hold a surrogate, as the `surrogatepass` handler encodes one. -/
def encodesSurrogate : Bytes → Bool
  | a :: b :: rest => (a == 0xED && decide (0xA0 ≤ b)) || encodesSurrogate (b :: rest)
  | _ => false

/-- A JSON text names a surrogate alone: the strings read from it are not all Unicode. -/
def namesSurrogate (bytes : Bytes) : Bool :=
  encodesSurrogate bytes || (utf8Decode bytes).any fun chars => loneUnit (escapeUnits chars)

end Json

end Lucent.Lib
