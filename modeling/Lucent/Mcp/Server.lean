import Lucent.Lib.LineReader
import Lucent.Mcp.Dispatch

/-!
# Lucent.Mcp.Server — the loop over standard input

`main` of `scripts/mcp_server.py` reads lines in pieces of bounded length, and passes over what is left of a line that is
too long.

* `drain`: the inner loop, to the end of a line that is too long.
* `mainLoop`: the loop, with the texts it parses and the responses it writes, in order.
* `main_framing`: the loop ends, and it does with every line what is done with that line alone.
-/

namespace Lucent.Mcp

open Lucent.Lib LineReader

/-- The process: its tools, for the message at a position, and `json.loads`, `none` for a `ValueError` or a
`RecursionError`. -/
structure Process where
  server : ℕ → Server
  loads : String → Option Json

def maxMcpLineBytes : ℕ := 1024 * 1024

def newline : UInt8 := 10

/-- What the loop does with a line: it parses a text, or writes a response. -/
inductive Action
  | parse (line : String)
  | write (response : Json)

/-- How the loop ends. -/
inductive Exit
  | returned
  | raised (exception : String)

def sizeError : Json := error .null (-32600) "invalid request: message exceeds size limit"

def parseError : Json := error .null (-32700) "parse error"

/-- `readline(MAX_MCP_LINE_BYTES + 1)`. -/
def readPiece (stdin : Bytes) : Bytes × Bytes := readline newline (maxMcpLineBytes + 1) stdin

/-- The inner loop: read until a piece ends the line or the stream; `fuel` bounds the turns. -/
def drain : ℕ → Bytes → Bytes → Option Bytes
  | 0, _, _ => none
  | fuel + 1, raw, stdin =>
    if raw.isEmpty || decide (Ended newline raw) then some stdin
    else drain fuel (readPiece stdin).1 (readPiece stdin).2

/-- The turn of the loop for a line within the limit, and what it raises. -/
def handleLine (process : Process) (position : ℕ) (raw : Bytes) : List Action × Option String :=
  match utf8Decode raw with
  | none => ([.write parseError], none)
  | some chars =>
    let line := stripChars isSpace (String.ofList chars)
    if line.isEmpty then ([], none)
    else match process.loads line with
      | none => ([.parse line, .write parseError], none)
      | some msg =>
        match dispatch (process.server position) msg with
        | .ok (some response) => ([.parse line, .write response], none)
        | .ok none => ([.parse line], none)
        | .error exception => ([.parse line], some exception)

/-- `main`, from the line at a position on; `fuel` bounds the turns. -/
def mainLoop (process : Process) : ℕ → ℕ → Bytes → Option (List Action × Exit)
  | 0, _, _ => none
  | fuel + 1, position, stdin =>
    let (raw, stdin) := readPiece stdin
    if raw.isEmpty then some ([], .returned)
    else if maxMcpLineBytes < raw.length then do
      let stdin ← drain fuel raw stdin
      let (actions, exit) ← mainLoop process fuel (position + 1) stdin
      return (.write sizeError :: actions, exit)
    else
      match handleLine process position raw with
      | (actions, some exception) => some (actions, .raised exception)
      | (actions, none) => do
        let (later, exit) ← mainLoop process fuel (position + 1) stdin
        return (actions ++ later, exit)

/-! ## One line -/

/-- What is done with a line of the stream. -/
def lineActions (process : Process) (position : ℕ) (line : Bytes) : List Action :=
  if maxMcpLineBytes < line.length then [.write sizeError] else (handleLine process position line).1

/-- The responses that are written. -/
def written (actions : List Action) : List Json :=
  actions.filterMap fun action => match action with
    | .parse _ => none
    | .write response => some response

/-- No turn of the loop raises. -/
theorem handleLine_snd (process : Process) (position : ℕ) (raw : Bytes) : (handleLine process position raw).2 = none := by
  unfold handleLine
  split
  · rfl
  · dsimp only
    split_ifs
    · rfl
    · split
      · rfl
      · rename_i msg _
        obtain ⟨response, hresponse⟩ := exists_dispatch_eq_ok (process.server position) msg
        rw [hresponse]
        cases response <;> rfl

/-! ## The loops -/

section Loops

variable {process : Process} {fuel : ℕ} {raw stdin : Bytes}

theorem readPiece_length (stdin : Bytes) : (readPiece stdin).1.length + (readPiece stdin).2.length = stdin.length := by
  rw [← List.length_append, readPiece, readline_append]

/-- The inner loop ends, behind the line of the piece it starts from. -/
theorem exists_drain (hfuel : stdin.length + 2 ≤ fuel) (hraw : raw ≠ []) :
    ∃ rest, drain fuel raw stdin = some rest ∧ rest.length ≤ stdin.length ∧
      lines newline rest = if Ended newline raw then lines newline stdin else (lines newline stdin).tail := by
  induction fuel generalizing raw stdin with
  | zero => omega
  | succ fuel ih =>
    have hempty : raw.isEmpty = false := List.isEmpty_eq_false_iff.mpr hraw
    rw [drain, hempty, Bool.false_or]
    by_cases hended : Ended newline raw
    · rw [if_pos hended, if_pos (decide_eq_true hended)]
      exact ⟨stdin, rfl, le_rfl, rfl⟩
    · rw [if_neg hended, if_neg fun h => hended (of_decide_eq_true h)]
      cases hl : lines newline stdin with
      | nil =>
        obtain rfl := lines_eq_nil.mp hl
        obtain ⟨fuel, rfl⟩ : ∃ n, fuel = n + 1 := ⟨fuel - 1, by omega⟩
        exact ⟨[], rfl, le_rfl, rfl⟩
      | cons line others =>
        have hpiece : (readPiece stdin).1 ≠ [] := readline_ne_nil hl (Nat.succ_pos _)
        have hlength := readPiece_length stdin
        have hpos := List.length_pos_iff.mpr hpiece
        obtain ⟨rest, hrest, hle, hlines⟩ := @ih (readPiece stdin).1 (readPiece stdin).2
          (by omega) hpiece
        refine ⟨rest, hrest, by omega, ?_⟩
        rw [hlines, readPiece, lines_behind hl, List.tail_cons]

/-- The loop does with the lines, in order, what is done with each of them. -/
theorem mainLoop_eq (process : Process) (position : ℕ) (hfuel : stdin.length + 2 ≤ fuel) :
    mainLoop process fuel position stdin =
      some (((lines newline stdin).zipIdx position).flatMap fun l => lineActions process l.2 l.1, .returned) := by
  induction fuel generalizing position stdin with
  | zero => omega
  | succ fuel ih =>
    cases hl : lines newline stdin with
    | nil =>
      obtain rfl := lines_eq_nil.mp hl
      rfl
    | cons line others =>
      have hpiece : (readPiece stdin).1 ≠ [] := readline_ne_nil hl (Nat.succ_pos _)
      have hlength := readPiece_length stdin
      have hpos := List.length_pos_iff.mpr hpiece
      have hfst : (readPiece stdin).1 = line.take (maxMcpLineBytes + 1) := readline_fst hl _
      have hbehind := lines_behind hl (maxMcpLineBytes + 1)
      rw [mainLoop, List.zipIdx_cons, List.flatMap_cons]
      simp only [List.isEmpty_eq_false_iff.mpr hpiece, Bool.false_eq_true, if_false]
      by_cases hlong : maxMcpLineBytes < line.length
      · have hover : maxMcpLineBytes < (readPiece stdin).1.length := by
          rw [hfst, List.length_take]
          omega
        obtain ⟨rest, hrest, hle, hlines⟩ := @exists_drain fuel (readPiece stdin).1
          (readPiece stdin).2 (by omega) hpiece
        have hothers : lines newline rest = others := by rw [hlines, readPiece, hbehind]
        rw [if_pos hover, hrest, lineActions, if_pos hlong]
        show (mainLoop process fuel (position + 1) rest).bind _ = _
        rw [ih (position + 1) (by omega), hothers]
        rfl
      · have hwhole : (readPiece stdin).1 = line := by rw [hfst, List.take_of_length_le (by omega)]
        have hothers : lines newline (readPiece stdin).2 = others := by
          rw [readPiece, lines_readline hl, if_neg (by omega)]
        rw [hwhole, if_neg hlong, lineActions, if_neg hlong]
        obtain ⟨actions, hactions⟩ : ∃ actions, handleLine process position line = (actions, none) :=
          ⟨_, Prod.ext rfl (handleLine_snd process position line)⟩
        rw [hactions]
        show (mainLoop process fuel (position + 1) (readPiece stdin).2).bind _ = _
        rw [ih (position + 1) (by omega), hothers]
        rfl

end Loops

/-! ## Framing -/

/-- The line has nothing but whitespace. -/
def Blank (line : Bytes) : Prop := ∃ chars, utf8Decode line = some chars ∧ ∀ c ∈ chars, isSpace c = true

/-- The message in a line, if it is UTF-8 and JSON. -/
def message? (process : Process) (line : Bytes) : Option Json :=
  (utf8Decode line).bind fun chars => process.loads (stripChars isSpace (String.ofList chars))

/-- What is done with a line, by its kind. -/
structure Framed (process : Process) (position : ℕ) (line : Bytes) (actions : List Action) : Prop where
  oversized : maxMcpLineBytes < line.length → actions = [.write sizeError]
  blank : line.length ≤ maxMcpLineBytes → Blank line → actions = []
  unreadable : line.length ≤ maxMcpLineBytes → ¬ Blank line → message? process line = none →
    written actions = [parseError]
  message : ∀ msg, line.length ≤ maxMcpLineBytes → ¬ Blank line → message? process line = some msg →
    ∃ response, dispatch (process.server position) msg = .ok response ∧ written actions = response.toList

/-- The turn of the loop for a line within the limit treats it by its kind. -/
theorem framed_handleLine (process : Process) (position : ℕ) {line : Bytes} (hlong : ¬ maxMcpLineBytes < line.length) :
    Framed process position line (handleLine process position line).1 := by
  unfold handleLine
  cases hchars : utf8Decode line with
  | none =>
    exact {
      oversized := fun h => absurd h hlong
      blank := fun _ ⟨chars, hsome, _⟩ => by rw [hchars] at hsome; exact nomatch hsome
      unreadable := fun _ _ _ => rfl
      message := fun msg _ _ hmsg => by rw [message?, hchars] at hmsg; exact nomatch hmsg }
  | some chars =>
    have hmessage : message? process line = process.loads (stripChars isSpace (String.ofList chars)) := by
      rw [message?, hchars, Option.bind_some]
    have hblank : Blank line ↔ (stripChars isSpace (String.ofList chars)).isEmpty = true := by
      rw [stripChars_isEmpty]
      refine ⟨fun ⟨chars', hsome, hall⟩ => ?_, fun hall => ⟨chars, hchars, hall⟩⟩
      obtain rfl := Option.some.inj (hchars.symm.trans hsome)
      exact hall
    dsimp only
    split_ifs with hempty
    · exact {
        oversized := fun h => absurd h hlong
        blank := fun _ _ => rfl
        unreadable := fun _ h _ => absurd (hblank.mpr hempty) h
        message := fun msg _ h _ => absurd (hblank.mpr hempty) h }
    · rw [← hmessage]
      cases hmsg : message? process line with
      | none => exact {
          oversized := fun h => absurd h hlong
          blank := fun _ h => absurd (hblank.mp h) hempty
          unreadable := fun _ _ _ => rfl
          message := fun msg _ _ h => nomatch hmsg.symm.trans h }
      | some msg =>
        obtain ⟨response, hresponse⟩ := exists_dispatch_eq_ok (process.server position) msg
        exact {
          oversized := fun h => absurd h hlong
          blank := fun _ h => absurd (hblank.mp h) hempty
          unreadable := fun _ _ h => nomatch hmsg.symm.trans h
          message := fun msg' _ _ h => by
            obtain rfl := Option.some.inj (hmsg.symm.trans h)
            refine ⟨response, hresponse, ?_⟩
            simp only [hresponse]
            cases response <;> rfl }

theorem framed_lineActions (process : Process) (position : ℕ) (line : Bytes) :
    Framed process position line (lineActions process position line) := by
  unfold lineActions
  split_ifs with hlong
  · exact {
      oversized := fun _ => rfl
      blank := fun h => absurd hlong (Nat.not_lt.mpr h)
      unreadable := fun h => absurd hlong (Nat.not_lt.mpr h)
      message := fun _ h => absurd hlong (Nat.not_lt.mpr h) }
  · exact framed_handleLine process position hlong

/-- **The loop ends, and it does with the stream what is done with its lines one by one**; where lines end depends on
nothing that comes before. -/
theorem main_framing (process : Process) (stdin : Bytes) :
    (∃ enough, ∀ fuel ≥ enough, mainLoop process fuel 0 stdin =
      some ((lines newline stdin).zipIdx.flatMap fun l => lineActions process l.2 l.1, .returned)) ∧
    IsLines newline stdin (lines newline stdin) ∧
    (∀ position line, Framed process position line (lineActions process position line)) ∧
    ∀ before after, stdin = before ++ after → Ended newline before →
      lines newline stdin = lines newline before ++ lines newline after :=
  ⟨⟨stdin.length + 2, fun _ hfuel => mainLoop_eq process 0 hfuel⟩, isLines_lines stdin, framed_lineActions process,
    fun _ after hstdin hended => hstdin ▸ lines_append hended after⟩

end Lucent.Mcp
