import Mathlib.Algebra.Order.Ring.Int
import Mathlib.Data.Rat.Floor
import Mathlib.Data.List.Sort
import Lucent.Lib.Text

/-!
# Lucent.Lib.Json — JSON values and their rendering

`Json` is the type of decoded JSON values.  An object is the list of its members in order; a member is looked up by
its first occurrence.  A float is its shortest rendering with its value, since rendering, truth and equality are
all that is asked of it.

`dumps` renders a value without blanks: with or without escapes for characters outside ASCII, with the members in
order or sorted by key.  It fails on an integer of more than 4300 digits, the limit of decimal conversion.
-/

namespace Lucent.Lib

/-- A finite float. -/
structure PyFloat where
  text : String
  value : ℚ
deriving DecidableEq

inductive Json
  | null
  | bool (b : Bool)
  | int (n : ℤ)
  | float (x : PyFloat)
  | str (s : String)
  | arr (items : List Json)
  | obj (members : List (String × Json))

namespace Json

/-- The value of a member. -/
def lookup (key : String) : List (String × Json) → Option Json
  | [] => none
  | (k, v) :: rest => if k = key then some v else lookup key rest

/-- The member of an object; `none` for anything else. -/
def get? : Json → String → Option Json
  | .obj members, key => lookup key members
  | _, _ => none

def str? : Json → Option String
  | .str s => some s
  | _ => none

/-- The value is the text `s`. -/
def isStr (s : String) : Json → Bool
  | .str t => decide (t = s)
  | _ => false

/-- The value is the boolean `b`. -/
def isBool (b : Bool) : Json → Bool
  | .bool c => decide (c = b)
  | _ => false

def isNull : Json → Bool
  | .null => true
  | _ => false

/-- The truth value. -/
def truthy : Json → Bool
  | .null => false
  | .bool b => b
  | .int n => decide (n ≠ 0)
  | .float x => decide (x.value ≠ 0)
  | .str s => !s.isEmpty
  | .arr items => !items.isEmpty
  | .obj members => !members.isEmpty

/-- The number behind a value that is equal to a number. -/
def number? : Json → Option ℚ
  | .bool b => some (if b then 1 else 0)
  | .int n => some n
  | .float x => some x.value
  | _ => none

/-! ## Size and depth -/

mutual

/-- Nesting depth, counted from `depth`, and not looked into below `limit`. -/
def depthFrom (limit : ℕ) : ℕ → Json → ℕ
  | depth, .arr items => if depth > limit then depth else (depthItems limit (depth + 1) items).getD depth
  | depth, .obj members => if depth > limit then depth else (depthMembers limit (depth + 1) members).getD depth
  | depth, .null => depth
  | depth, .bool _ => depth
  | depth, .int _ => depth
  | depth, .float _ => depth
  | depth, .str _ => depth
termination_by structural _ v => v

def depthItems (limit : ℕ) : ℕ → List Json → Option ℕ
  | _, [] => none
  | depth, v :: rest =>
    some (match depthItems limit depth rest with
      | none => depthFrom limit depth v
      | some n => max (depthFrom limit depth v) n)
termination_by structural _ v => v

def depthMembers (limit : ℕ) : ℕ → List (String × Json) → Option ℕ
  | _, [] => none
  | depth, m :: rest =>
    some (match depthMembers limit depth rest with
      | none => depthMember limit depth m
      | some n => max (depthMember limit depth m) n)
termination_by structural _ v => v

def depthMember (limit : ℕ) : ℕ → String × Json → ℕ
  | depth, (_, v) => depthFrom limit depth v
termination_by structural _ v => v

end

mutual

/-- Every text in the value, keys included, satisfies `p`. -/
def allText (p : String → Bool) : Json → Bool
  | .str s => p s
  | .arr items => allTextItems p items
  | .obj members => allTextMembers p members
  | .null => true
  | .bool _ => true
  | .int _ => true
  | .float _ => true
termination_by structural v => v

def allTextItems (p : String → Bool) : List Json → Bool
  | [] => true
  | v :: rest => allText p v && allTextItems p rest
termination_by structural v => v

def allTextMembers (p : String → Bool) : List (String × Json) → Bool
  | [] => true
  | m :: rest => allTextMember p m && allTextMembers p rest
termination_by structural v => v

def allTextMember (p : String → Bool) : String × Json → Bool
  | (key, v) => p key && allText p v
termination_by structural v => v

end

/-! ## Rendering -/

/-- A UTF-16 code unit as an escape. -/
def escapeUnit (n : ℕ) : List Char :=
  ['\\', 'u', hexDigit (n / 4096 % 16), hexDigit (n / 256 % 16), hexDigit (n / 16 % 16), hexDigit (n % 16)]

/-- A character inside a rendered text. -/
def escapeChar (ascii : Bool) (c : Char) : List Char :=
  if c = '"' then ['\\', '"']
  else if c = '\\' then ['\\', '\\']
  else if c = '\n' then ['\\', 'n']
  else if c = '\r' then ['\\', 'r']
  else if c = '\t' then ['\\', 't']
  else if c.toNat = 0x08 then ['\\', 'b']
  else if c.toNat = 0x0C then ['\\', 'f']
  else if c.toNat < 0x20 then escapeUnit c.toNat
  else if ascii && decide (0x7E < c.toNat) then
    if c.toNat < 0x10000 then escapeUnit c.toNat
    else escapeUnit (0xD800 + (c.toNat - 0x10000) / 0x400) ++ escapeUnit (0xDC00 + (c.toNat - 0x10000) % 0x400)
  else [c]

def dumpsText (ascii : Bool) (s : String) : List Char := '"' :: s.toList.flatMap (escapeChar ascii) ++ ['"']

/-- An integer, within the limit of decimal conversion. -/
def dumpsInt (n : ℤ) : Option (List Char) :=
  if n.natAbs.repr.length ≤ 4300 then
    some (if n < 0 then '-' :: n.natAbs.repr.toList else n.natAbs.repr.toList)
  else none

/-- Rendered parts between commas. -/
def commaSep : List (List Char) → List Char
  | [] => []
  | [part] => part
  | part :: rest => part ++ ',' :: commaSep rest

/-- Members in key order. -/
def sortMembers {α : Type} (members : List (String × α)) : List (String × α) :=
  members.insertionSort (fun a b => a.1 ≤ b.1)

mutual

/-- The rendering of a value, as characters. -/
def dumps (ascii sort : Bool) : Json → Option (List Char)
  | .null => some "null".toList
  | .bool b => some (if b then "true".toList else "false".toList)
  | .int n => dumpsInt n
  | .float x => some x.text.toList
  | .str s => some (dumpsText ascii s)
  | .arr items => (dumpsItems ascii sort items).map (fun parts => '[' :: commaSep parts ++ [']'])
  | .obj members => (dumpsMembers ascii sort members).map (fun parts =>
      '{' :: commaSep ((if sort then sortMembers parts else parts).map
        (fun m => dumpsText ascii m.1 ++ ':' :: m.2)) ++ ['}'])
termination_by structural v => v

def dumpsItems (ascii sort : Bool) : List Json → Option (List (List Char))
  | [] => some []
  | v :: rest => do
    let part ← dumps ascii sort v
    let parts ← dumpsItems ascii sort rest
    some (part :: parts)
termination_by structural v => v

def dumpsMembers (ascii sort : Bool) : List (String × Json) → Option (List (String × List Char))
  | [] => some []
  | m :: rest => do
    let part ← dumpsMember ascii sort m
    let parts ← dumpsMembers ascii sort rest
    some (part :: parts)
termination_by structural v => v

def dumpsMember (ascii sort : Bool) : String × Json → Option (String × List Char)
  | (key, v) => (dumps ascii sort v).map (fun part => (key, part))
termination_by structural v => v

end

end Json

/-- What a loop over the value visits. -/
def iterate : Json → Except String (List Json)
  | .arr items => .ok items
  | .obj members => .ok (members.map (fun m => .str m.1))
  | .str s => .ok (s.toList.map (fun c => .str (String.singleton c)))
  | _ => .error "TypeError"

end Lucent.Lib
