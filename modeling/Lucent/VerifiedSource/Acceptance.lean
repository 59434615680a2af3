import Lucent.Lib.JsonTree
import Lucent.Lib.Reader
import Lucent.VerifiedSource.Client

/-!
# Lucent.VerifiedSource.Acceptance — which responses the client reads

* `shapeLoop_eq_walk`: the loop over a document is a bounded walk over its items, the keys of objects among them.
* `validateJsonShape_iff`: what the loop accepts.
* `readResponse_exact`: the responses a document is read from.
-/

namespace Lucent.VerifiedSource

open Lucent.Lib

variable {net : Network}

/-- The check of one item in `_validate_json_shape`. -/
def shapeItem : Json → Bool
  | .str s => decide (s.length ≤ maxJsonStringLength)
  | .float _ => false
  | _ => true

/-- An item the loop accepts: a text within the limit, or anything else but a float. -/
def PlainItem (item : Json) : Prop :=
  (∀ s, item = .str s → s.length ≤ maxJsonStringLength) ∧ ∀ x, item ≠ .float x

theorem shapeItem_iff {item : Json} : shapeItem item = true ↔ PlainItem item := by
  unfold shapeItem PlainItem
  cases item <;> simp

/-- The children as the loop puts them on its stack. -/
theorem map_children_depth (members : List (String × Json)) (depth : ℕ) :
    ((Json.children true (.obj members)).reverse.map (fun c => (c, depth + 1))) =
      (members.flatMap (fun m => [(Json.str m.1, depth + 1), (m.2, depth + 1)])).reverse := by
  rw [List.map_reverse]
  refine congrArg List.reverse ?_
  unfold Json.children
  simp only [if_true, List.map_flatMap, List.map_cons, List.map_nil]

/-- The loop of the source is a bounded walk. -/
theorem shapeLoop_eq_walk (nodes : ℕ) (stack : List (Json × ℕ)) :
    shapeLoop nodes stack = walk shapeItem (fun v => (v.children true).reverse) maxJsonDepth nodes stack := by
  induction nodes generalizing stack with
  | zero => cases stack <;> rfl
  | succ nodes ih =>
    cases stack with
    | nil => rfl
    | cons top stack =>
      obtain ⟨item, depth⟩ := top
      unfold shapeLoop walk
      by_cases hdeep : depth > maxJsonDepth
      · rw [if_pos hdeep, if_pos hdeep]
      · rw [if_neg hdeep, if_neg hdeep]
        cases item with
        | str s =>
          by_cases hlong : s.length > maxJsonStringLength
          · have hbad : shapeItem (.str s) = false := decide_eq_false (Nat.not_le.mpr hlong)
            simp only [if_pos hlong, hbad, Bool.not_false, if_true]
          · have hok : shapeItem (.str s) = true := decide_eq_true (Nat.le_of_not_gt hlong)
            simp only [if_neg hlong, hok, Bool.not_true, Bool.false_eq_true, if_false]
            exact ih stack
        | obj members =>
          show shapeLoop nodes _ = walk _ _ _ nodes (List.map _ (Json.children true (.obj members)).reverse ++ stack)
          rw [ih, map_children_depth]
        | arr items =>
          show shapeLoop nodes _ = walk _ _ _ nodes (List.map _ items.reverse ++ stack)
          rw [ih, List.map_reverse]
        | float x => rfl
        | _ => exact ih stack

/-- **What the loop accepts**: a document of no more items than allowed, none too deep, without floats and without
texts over the limit. -/
theorem validateJsonShape_iff {document : Json} :
    validateJsonShape document = true ↔ document.Bounded true maxJsonNodes maxJsonDepth PlainItem := by
  unfold validateJsonShape
  rw [shapeLoop_eq_walk, @Json.walk_bounded_iff true _ _ (fun v => List.reverse_perm _)]
  constructor
  · exact fun h => h.imp (fun item => shapeItem_iff.mp)
  · exact fun h => h.imp (fun item => shapeItem_iff.mpr)

/-- The declared length is absent, or that of the body. -/
def DeclaresLength (net : Network) (length : ℕ) : HeaderValue → Prop
  | .none => True
  | .text text => text = "" ∨ net.parseInt text = some (length : ℤ)
  | .other int => int = some (length : ℤ)

/-- The media type is JSON. -/
def DeclaresJson (net : Network) (value : HeaderValue) : Prop :=
  ∃ text mediaType, value = .text text ∧
    mediaType = net.lower (stripChars isSpace ((splitOn ';' text).headD "")) ∧
    (mediaType = "application/json" ∨ hasSuffix mediaType "+json" = true)

theorem checkLength_eq_ok_iff {value : HeaderValue} {length maxResponseBytes : ℕ} {u : Unit} :
    checkLength net value length maxResponseBytes = .ok u ↔
      DeclaresLength net length value ∧ length ≤ maxResponseBytes := by
  unfold checkLength
  rw [rejectIf_eq_ok, not_or, not_not, Nat.not_lt]
  refine and_congr ?_ Iff.rfl
  cases value with
  | none => simp [DeclaresLength]
  | text text =>
    by_cases hempty : text = ""
    · subst hempty
      simp [DeclaresLength]
    · simp [DeclaresLength, hempty]
  | other int => simp [DeclaresLength]

theorem checkMediaType_eq_ok_iff {value : HeaderValue} {u : Unit} :
    checkMediaType net value = .ok u ↔ DeclaresJson net value := by
  unfold checkMediaType DeclaresJson
  rw [rejectIf_eq_ok]
  cases value with
  | text text => simp [bne_iff_ne, Decidable.imp_iff_not_or]
  | none => simp
  | other int => simp

/-- The body is a JSON text of the document, in which no object repeats a key. -/
def TextOf (net : Network) (document : Json) (body : Bytes) : Prop :=
  ∃ t, Json.Padded net.readFloat document t ∧ utf8Chars t = body

theorem loadJson_eq_ok_iff {body : Bytes} {document : Json} : loadJson net body = .ok document ↔
    TextOf net document body ∧ document.Bounded true maxJsonNodes maxJsonDepth PlainItem := by
  unfold loadJson TextOf
  simp only [bind_eq_ok, elim_ok_eq_ok, rejectIf_eq_ok, pure_eq_ok, Bool.not_eq_false, validateJsonShape_iff,
    Json.loadsUnique_eq_some_iff]
  constructor
  · rintro ⟨value, hread, _, hshape, rfl⟩
    exact ⟨hread, hshape⟩
  · rintro ⟨hread, hshape⟩
    exact ⟨document, hread, (), hshape, rfl⟩

/-- **Which responses the client reads a document from**: those with status 200 whose body, of the declared length and
within the limit, is one JSON text of the document without a repeated key, within the bounds on items, depth and texts,
and declared as JSON.  A document is Unicode; a text that names a surrogate alone is not a text of one. -/
theorem readResponse_exact (net : Network) (maxResponseBytes : ℕ) (notFoundCode : Option String)
    (response : HttpResponse) (document : Json) :
    readResponse net maxResponseBytes notFoundCode response = .ok document ↔
      response.status = some 200 ∧ ∃ headers body, response.headers = some headers ∧ response.body = some body ∧
        body.length ≤ maxResponseBytes ∧ DeclaresLength net body.length (header net headers "content-length") ∧
        DeclaresJson net (header net headers "content-type") ∧
        TextOf net document body ∧ document.Bounded true maxJsonNodes maxJsonDepth PlainItem := by
  unfold readResponse
  simp only [bind_eq_ok, elim_ok_eq_ok, rejectIf_eq_ok, checkLength_eq_ok_iff, checkMediaType_eq_ok_iff,
    loadJson_eq_ok_iff, exists_const, not_not, Nat.not_lt]
  constructor
  · rintro ⟨status, hstatus, -, rfl, headers, hheaders, body, hbody, hle, ⟨hlength, -⟩, hmedia, hread, hshape⟩
    exact ⟨hstatus, headers, body, hheaders, hbody, hle, hlength, hmedia, hread, hshape⟩
  · rintro ⟨hstatus, headers, body, hheaders, hbody, hle, hlength, hmedia, hread, hshape⟩
    exact ⟨200, hstatus, by simp, rfl, headers, hheaders, body, hbody, hle, ⟨hlength, hle⟩, hmedia, hread, hshape⟩

end Lucent.VerifiedSource
