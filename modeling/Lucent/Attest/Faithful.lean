import Lucent.Attest.Attestation

/-!
# Lucent.Attest.Faithful — when semantic verification finds nothing

`verify_one` compares what the logs of a receipt moved with what the fields of a screen show.  Here both are stated
without the loops that collect them.

* `Moves`, `Grants`: what a log entry says; `FieldShows`, `FieldShowsValue`: what a field shows.  A turn of each loop
  reads its entry for that (`exists_logMovement`, `exists_fieldReads`), and so does the whole loop.
* `Faithful`: the screen shows the value, the recipients and the operators, and names no one else as a recipient.
* `Decodes.exists_verified`: there is no finding where the screen is faithful and, moreover, no label of another address
  begins with the letters of a recipient label.
* `verifyOne_exact_iff`: for which calls it makes no difference.
-/

namespace Lucent.Attest

open Lucent.Lib Lucent.Preflight

/-! ## Logs -/

/-- A log entry, as far as it is read. -/
structure EventLog where
  topics : List String
  data : String

/-- The log entry is in the JSON. -/
def EventLog.InJson (log : EventLog) (json : Json) : Prop :=
  item "topics" json = .ok (.arr (log.topics.map .str)) ∧ item "data" json = .ok (.str log.data)

/-- The address in a topic. -/
def topicText (host : Host) (topic : String) : String := host.env.lower ("0x" ++ lastChars 40 topic)

/-- The amount of a transfer. -/
def transferAmountOf (host : Host) (data : String) : Option ℤ :=
  if data = "0x" ∨ data = "" then some 0 else host.hexInt data

/-- A word of the data of a single transfer, by its first and last digit. -/
def dataWord (host : Host) (i j : ℕ) (data : String) : Option ℤ := host.hexInt (sliceChars i j (dropChars 2 data))

/-- The log entry is a `Transfer` or a `TransferSingle` of an amount to an address. -/
inductive Moves (host : Host) (log : EventLog) : String → ℤ → Prop
  | transfer {first source destination : String} {amount : ℤ} (htopics : log.topics = [first, source, destination])
      (hkind : host.env.lower first = transferTopic) (hdata : transferAmountOf host log.data = some amount) :
      Moves host log (topicText host destination) amount
  | transferSingle {first operator source destination : String} {amount : ℤ}
      (htopics : log.topics = [first, operator, source, destination])
      (hkind : host.env.lower first = transferSingleTopic) (hdata : dataWord host 64 128 log.data = some amount) :
      Moves host log (topicText host destination) amount

/-- The log entry is an `ApprovalForAll` that grants an operator. -/
def Grants (host : Host) (log : EventLog) (operator : String) : Prop :=
  ∃ first owner grantee, log.topics = [first, owner, grantee] ∧ host.env.lower first = approvalForAllTopic ∧
    host.hexInt log.data = some 1 ∧ operator = topicText host grantee

/-- The log entry has a topic, and the data its kind asks for. -/
structure WellFormedLog (host : Host) (log : EventLog) : Prop where
  topics : log.topics ≠ []
  transfer : ∀ {first source destination}, log.topics = [first, source, destination] →
    host.env.lower first = transferTopic → ∃ amount, transferAmountOf host log.data = some amount
  approval : ∀ {first owner operator}, log.topics = [first, owner, operator] →
    host.env.lower first = approvalForAllTopic → ∃ flag, host.hexInt log.data = some flag
  transferSingle : ∀ {first operator source destination}, log.topics = [first, operator, source, destination] →
    host.env.lower first = transferSingleTopic →
    (∃ id, dataWord host 0 64 log.data = some id) ∧ ∃ amount, dataWord host 64 128 log.data = some amount

/-- What the code makes of a log entry. -/
structure LogReads (host : Host) (log : EventLog) (m : Option Movement) : Prop where
  moves : ∀ destination amount, m.bind Movement.token? = some (destination, amount) ↔ Moves host log destination amount
  grants : ∀ operator, (∃ owner, m = some (.approval owner operator true)) ↔ Grants host log operator
  noValue : ∀ move ∈ m, move.kind ≠ "eth"

section Logs

variable {host : Host} {log : EventLog} {json : Json}

/-- A log entry of no kind that is looked for. -/
theorem LogReads.none (hmoves : ∀ destination amount, ¬ Moves host log destination amount)
    (hgrants : ∀ operator, ¬ Grants host log operator) : LogReads host log none :=
  ⟨fun _ _ => iff_of_false nofun (hmoves _ _), fun _ => iff_of_false nofun (hgrants _), nofun⟩

theorem transferTopic_ne : transferTopic ≠ approvalForAllTopic := by decide

/-- A transfer is read as one. -/
theorem LogReads.erc20 {first source destination : String} {amount : ℤ}
    (htopics : log.topics = [first, source, destination]) (hkind : host.env.lower first = transferTopic)
    (hdata : transferAmountOf host log.data = some amount) :
    LogReads host log (some (.erc20 (topicText host source) (topicText host destination) amount)) where
  moves destination' amount' := by
    constructor
    · intro h
      obtain ⟨rfl, rfl⟩ := Prod.mk.inj (Option.some.inj h)
      exact .transfer htopics hkind hdata
    · intro h
      cases h with
      | transfer htopics' _ hdata' =>
        have hsame := htopics.symm.trans htopics'
        simp only [List.cons.injEq, and_true] at hsame
        obtain ⟨-, -, rfl⟩ := hsame
        obtain rfl := Option.some.inj (hdata.symm.trans hdata')
        rfl
      | transferSingle htopics' => exact nomatch htopics.symm.trans htopics'
  grants operator := by
    refine iff_of_false (fun ⟨owner, h⟩ => nomatch Option.some.inj h) ?_
    rintro ⟨first', owner, grantee, htopics', hkind', -⟩
    obtain rfl := (List.cons.inj (htopics.symm.trans htopics')).1
    exact transferTopic_ne (hkind.symm.trans hkind')
  noValue move hmove := by
    obtain rfl := Option.some.inj hmove
    exact (by decide : "erc20" ≠ "eth")

/-- An approval is read as one. -/
theorem LogReads.approval {first owner operator : String} {flag : ℤ} (htopics : log.topics = [first, owner, operator])
    (hkind : host.env.lower first = approvalForAllTopic) (hdata : host.hexInt log.data = some flag) :
    LogReads host log (some (.approval (topicText host owner) (topicText host operator) (decide (flag = 1)))) where
  moves destination amount := by
    refine iff_of_false nofun fun h => ?_
    cases h with
    | transfer htopics' hkind' =>
      obtain rfl := (List.cons.inj (htopics.symm.trans htopics')).1
      exact transferTopic_ne (hkind'.symm.trans hkind)
    | transferSingle htopics' => exact nomatch htopics.symm.trans htopics'
  grants operator' := by
    constructor
    · rintro ⟨owner', h⟩
      obtain ⟨-, rfl, hflag⟩ := Movement.approval.inj (Option.some.inj h)
      exact ⟨first, owner, operator, htopics, hkind, of_decide_eq_true hflag ▸ hdata, rfl⟩
    · rintro ⟨first', owner', grantee, htopics', -, hdata', rfl⟩
      have hsame := htopics.symm.trans htopics'
      simp only [List.cons.injEq, and_true] at hsame
      obtain ⟨-, -, rfl⟩ := hsame
      obtain rfl := Option.some.inj (hdata.symm.trans hdata')
      exact ⟨topicText host owner, rfl⟩
  noValue move hmove := by
    obtain rfl := Option.some.inj hmove
    exact (by decide : "approval" ≠ "eth")

/-- A single transfer is read as one. -/
theorem LogReads.erc1155 {first operator source destination : String} {id amount : ℤ}
    (htopics : log.topics = [first, operator, source, destination]) (hkind : host.env.lower first = transferSingleTopic)
    (hdata : dataWord host 64 128 log.data = some amount) :
    LogReads host log (some (.erc1155 (topicText host source) (topicText host destination) id amount)) where
  moves destination' amount' := by
    constructor
    · intro h
      obtain ⟨rfl, rfl⟩ := Prod.mk.inj (Option.some.inj h)
      exact .transferSingle htopics hkind hdata
    · intro h
      cases h with
      | transfer htopics' => exact nomatch htopics.symm.trans htopics'
      | transferSingle htopics' _ hdata' =>
        have hsame := htopics.symm.trans htopics'
        simp only [List.cons.injEq, and_true] at hsame
        obtain ⟨-, -, -, rfl⟩ := hsame
        obtain rfl := Option.some.inj (hdata.symm.trans hdata')
        rfl
  grants operator' := by
    refine iff_of_false (fun ⟨owner, h⟩ => nomatch Option.some.inj h) ?_
    rintro ⟨first', owner, grantee, htopics', -⟩
    exact nomatch htopics.symm.trans htopics'
  noValue move hmove := by
    obtain rfl := Option.some.inj hmove
    exact (by decide : "erc1155" ≠ "eth")

/-- A log entry with three topics. -/
theorem logReads_three {first second third : String} (hjson : log.InJson json) (hwf : WellFormedLog host log)
    (htopics : log.topics = [first, second, third]) : ∃ m, logMovement host json = .ok m ∧ LogReads host log m := by
  unfold logMovement
  rw [hjson.1, hjson.2, htopics]
  simp only [List.map_cons, List.map_nil, firstTopic, lowered, topicAddress, hexNumber, bind, Except.bind, pure,
    Except.pure]
  by_cases htransfer : host.env.lower first = transferTopic
  · obtain ⟨amount, hamount⟩ := hwf.transfer htopics htransfer
    refine ⟨_, ?_, .erc20 htopics htransfer hamount⟩
    rw [if_pos htransfer]
    unfold transferAmountOf at hamount
    have hbool : (Json.isStr "0x" (.str log.data) || Json.isStr "" (.str log.data)) = true ↔
        log.data = "0x" ∨ log.data = "" := by
      rw [Bool.or_eq_true_iff, Json.isStr, Json.isStr, decide_eq_true_iff, decide_eq_true_iff]
    by_cases hempty : log.data = "0x" ∨ log.data = ""
    · rw [if_pos hempty] at hamount
      rw [← Option.some.inj hamount, if_pos (hbool.mpr hempty)]
      rfl
    · rw [if_neg hempty] at hamount
      rw [if_neg (hbool.not.mpr hempty), hamount]
      rfl
  · by_cases happroval : host.env.lower first = approvalForAllTopic
    · obtain ⟨flag, hflag⟩ := hwf.approval htopics happroval
      refine ⟨_, ?_, .approval htopics happroval hflag⟩
      rw [if_neg htransfer, if_pos happroval, hflag]
      rfl
    · refine ⟨none, by rw [if_neg htransfer, if_neg happroval], .none (fun destination amount h => ?_) ?_⟩
      · cases h with
        | transfer htopics' hkind =>
          exact htransfer ((List.cons.inj (htopics.symm.trans htopics')).1 ▸ hkind)
        | transferSingle htopics' => cases htopics.symm.trans htopics'
      · rintro operator ⟨first', owner, grantee, htopics', hkind, -⟩
        exact happroval ((List.cons.inj (htopics.symm.trans htopics')).1 ▸ hkind)

/-- A log entry with four topics. -/
theorem logReads_four {first second third fourth : String} (hjson : log.InJson json) (hwf : WellFormedLog host log)
    (htopics : log.topics = [first, second, third, fourth]) :
    ∃ m, logMovement host json = .ok m ∧ LogReads host log m := by
  unfold logMovement
  rw [hjson.1, hjson.2, htopics]
  simp only [List.map_cons, List.map_nil, firstTopic, lowered, topicAddress, hexNumber, bind, Except.bind, pure,
    Except.pure]
  by_cases hsingle : host.env.lower first = transferSingleTopic
  · obtain ⟨⟨id, hid⟩, amount, hamount⟩ := hwf.transferSingle htopics hsingle
    refine ⟨some (.erc1155 (topicText host third) (topicText host fourth) id amount), ?_, .erc1155 htopics hsingle hamount⟩
    unfold dataWord at hid hamount
    rw [if_pos hsingle, hid, hamount]
    rfl
  · refine ⟨none, by rw [if_neg hsingle], .none (fun destination amount h => ?_) ?_⟩
    · cases h with
      | transfer htopics' => exact nomatch htopics.symm.trans htopics'
      | transferSingle htopics' hkind => exact hsingle ((List.cons.inj (htopics.symm.trans htopics')).1 ▸ hkind)
    · rintro operator ⟨first', owner, grantee, htopics', -⟩
      exact nomatch htopics.symm.trans htopics'

/-- The code reads a well-formed log entry for what it says. -/
theorem exists_logMovement (hjson : log.InJson json) (hwf : WellFormedLog host log) :
    ∃ m, logMovement host json = .ok m ∧ LogReads host log m := by
  have hother (hmoves : ∀ first second third, log.topics ≠ [first, second, third])
      (hsingle : ∀ first second third fourth, log.topics ≠ [first, second, third, fourth]) : LogReads host log none := by
    refine .none (fun destination amount h => ?_) ?_
    · cases h with
      | transfer htopics => exact hmoves _ _ _ htopics
      | transferSingle htopics => exact hsingle _ _ _ _ htopics
    · rintro operator ⟨first, owner, grantee, htopics, -⟩
      exact hmoves _ _ _ htopics
  rcases htopics : log.topics with _ | ⟨first, _ | ⟨second, _ | ⟨third, _ | ⟨fourth, _ | ⟨fifth, rest⟩⟩⟩⟩⟩
  · exact absurd htopics hwf.topics
  · refine ⟨none, ?_, hother (by rw [htopics]; exact nofun) (by rw [htopics]; exact nofun)⟩
    unfold logMovement
    rw [hjson.1, htopics]
    rfl
  · refine ⟨none, ?_, hother (by rw [htopics]; exact nofun) (by rw [htopics]; exact nofun)⟩
    unfold logMovement
    rw [hjson.1, htopics]
    rfl
  · exact logReads_three hjson hwf htopics
  · exact logReads_four hjson hwf htopics
  · refine ⟨none, ?_, hother (by rw [htopics]; exact nofun) (by rw [htopics]; exact nofun)⟩
    unfold logMovement
    rw [hjson.1, htopics]
    rfl

end Logs

/-! ## Fields -/

/-- The field is not marked as never visible. -/
def Visible (field : Json) : Prop := field.get? "visible" ≠ some (.str "never")

/-- The field shows the native value. -/
def FieldShowsValue (field : Json) : Prop := Visible field ∧ field.get? "path" = some (.str "@.value")

/-- The name of the argument a path leads to. -/
def leafOf (path : String) : String := (splitOn '.' (dropChars 2 path)).headD ""

/-- The argument a path leads to is an address. -/
def LeadsTo (arguments : List (String × AbiValue)) (path v : String) : Prop :=
  hasPrefix path "#." = true ∧ decodedOf arguments (leafOf path) = some (.str v) ∧ hasPrefix v "0x" = true

/-- The label of the field, as it is compared. -/
def labelOf (host : Host) (field : Json) : String :=
  host.env.lower (stripChars isSpace (((field.get? "label").bind Json.str?).getD ""))

/-- The field shows an address under a label. -/
structure FieldShows (host : Host) (arguments : List (String × AbiValue)) (field : Json)
    (label address : String) : Prop where
  visible : Visible field
  format : field.get? "format" = some (.str "addressName")
  path : ∃ path v, field.get? "path" = some (.str path) ∧ LeadsTo arguments path v ∧ address = host.env.lower v
  label : label = labelOf host field

/-- The field is an object, and the path of an address and the label it is shown under are texts. -/
def ReadableField (arguments : List (String × AbiValue)) (field : Json) : Prop :=
  (∃ members, field = .obj members) ∧ (Visible field → field.get? "format" = some (.str "addressName") →
    (∀ w, field.get? "path" = some w → ∃ path, w = .str path) ∧
    ∀ path v w, field.get? "path" = some (.str path) → LeadsTo arguments path v → field.get? "label" = some w →
      ∃ label, w = .str label)

/-- What the code makes of a field: the entries and the mark it adds to the screen. -/
structure FieldReads (host : Host) (arguments : List (String × AbiValue)) (field : Json) (entries : List (String × String))
    (value : Bool) : Prop where
  step : ∀ screen, screenField host arguments screen field = .ok
    ⟨screen.shown ++ entries.map Prod.snd, screen.showsValue || value, screen.labelled ++ entries⟩
  entries : ∀ label address, (label, address) ∈ entries ↔ FieldShows host arguments field label address
  value : value = true ↔ FieldShowsValue field

section Fields

variable {host : Host} {arguments : List (String × AbiValue)} {field : Json}

/-- A member is a text where the value with a default is, and the default is another one. -/
theorem getD_isStr {s : String} {v : Option Json} {default : Json} (hdefault : default.isStr s = false) :
    (v.getD default).isStr s = true ↔ v = some (.str s) := by
  rcases v with _ | (_ | _ | _ | _ | t | _ | _)
  · exact iff_of_false (Bool.eq_false_iff.mp hdefault) nofun
  all_goals first
    | exact iff_of_false Bool.false_ne_true nofun
    | rw [Option.getD_some, Json.isStr, decide_eq_true_iff, Option.some.injEq, Json.str.injEq]

theorem getD_null_isStr {s : String} {v : Option Json} : (v.getD .null).isStr s = true ↔ v = some (.str s) :=
  getD_isStr rfl

/-- A field the code passes over. -/
theorem FieldReads.nothing {value : Bool}
    (hstep : ∀ screen, screenField host arguments screen field =
      .ok { screen with showsValue := screen.showsValue || value })
    (hshows : ∀ label address, ¬ FieldShows host arguments field label address)
    (hvalue : value = true ↔ FieldShowsValue field) : FieldReads host arguments field [] value where
  step screen := by
    rw [hstep, List.map_nil, List.append_nil, List.append_nil]
  entries _ _ := iff_of_false List.not_mem_nil (hshows _ _)
  value := hvalue

section Visible

variable {members : List (String × Json)}

/-- A turn of the loop for a visible field that shows no address. -/
theorem screenField_skip (hvisible : Json.lookup "visible" members ≠ some (.str "never"))
    (hskip : Json.lookup "format" members = some (.str "addressName") →
      ∃ path, (Json.lookup "path" members).getD (.str "") = .str path ∧ ∀ v, ¬ LeadsTo arguments path v)
    (screen : Screen) : screenField host arguments screen (.obj members) = .ok { screen with
      showsValue := screen.showsValue || ((Json.lookup "path" members).getD (.str "")).isStr "@.value" } := by
  have hnever : ((Json.lookup "visible" members).getD .null).isStr "never" = false :=
    Bool.eq_false_iff.mpr fun h => hvisible (getD_null_isStr.mp h)
  unfold screenField
  simp only [getOr, bind, Except.bind, pure, Except.pure, hnever, Bool.false_eq_true, if_false]
  by_cases hformat : Json.lookup "format" members = some (.str "addressName")
  · obtain ⟨path, hpath, hleads⟩ := hskip hformat
    rw [getD_null_isStr.mpr hformat, hpath]
    simp only [Bool.not_true, Bool.false_eq_true, if_false]
    split_ifs with hmarker
    · rfl
    · rw [Bool.not_eq_true', Bool.not_eq_false] at hmarker
      split
      · rename_i v hdecoded
        split_ifs with hhex
        · rfl
        · rw [Bool.not_eq_true', Bool.not_eq_false] at hhex
          exact absurd ⟨hmarker, hdecoded, hhex⟩ (hleads v)
      · rfl
  · have hother : ((Json.lookup "format" members).getD .null).isStr "addressName" = false :=
      Bool.eq_false_iff.mpr fun h => hformat (getD_null_isStr.mp h)
    rw [hother]
    rfl

/-- A turn of the loop for a visible field that shows an address. -/
theorem screenField_shows {path v label : String} (hvisible : Json.lookup "visible" members ≠ some (.str "never"))
    (hpath : Json.lookup "path" members = some (.str path))
    (hformat : Json.lookup "format" members = some (.str "addressName")) (hleads : LeadsTo arguments path v)
    (hlabel : (Json.lookup "label" members).getD (.str "") = .str label) (screen : Screen) :
    screenField host arguments screen (.obj members) = .ok ⟨screen.shown ++ [host.env.lower v],
      screen.showsValue || ((Json.lookup "path" members).getD (.str "")).isStr "@.value",
      screen.labelled ++ [(host.env.lower (stripChars isSpace label), host.env.lower v)]⟩ := by
  have hnever : ((Json.lookup "visible" members).getD .null).isStr "never" = false :=
    Bool.eq_false_iff.mpr fun h => hvisible (getD_null_isStr.mp h)
  obtain ⟨hmarker, hdecoded, hhex⟩ := hleads
  unfold leafOf at hdecoded
  unfold screenField
  simp only [getOr, bind, Except.bind, pure, Except.pure, hnever, Bool.false_eq_true, if_false, hpath, Option.getD_some,
    getD_null_isStr.mpr hformat, Bool.not_true, hmarker, hdecoded, hhex, hlabel]

end Visible

/-- The code reads a field for what it shows. -/
theorem exists_fieldReads (h : ReadableField arguments field) :
    ∃ entries value, FieldReads host arguments field entries value := by
  obtain ⟨⟨members, rfl⟩, htexts⟩ := h
  by_cases hnever : Json.lookup "visible" members = some (.str "never")
  · refine ⟨[], false, .nothing (fun screen => ?_) (fun _ _ hshows => hshows.visible hnever)
      (iff_of_false Bool.false_ne_true fun hvalue => hvalue.1 hnever)⟩
    unfold screenField
    simp only [getOr, bind, Except.bind, getD_null_isStr.mpr hnever, if_true, Bool.or_false, pure, Except.pure]
  have hvalue : ((Json.lookup "path" members).getD (.str "")).isStr "@.value" = true ↔ FieldShowsValue (.obj members) :=
    (getD_isStr (by decide)).trans ⟨fun hpath => ⟨hnever, hpath⟩, And.right⟩
  by_cases hshown : Json.lookup "format" members = some (.str "addressName") ∧
      ∃ path v, Json.lookup "path" members = some (.str path) ∧ LeadsTo arguments path v
  · obtain ⟨hformat, path, v, hpath, hleads⟩ := hshown
    obtain ⟨label, hlabel, hlabelOf⟩ : ∃ label, (Json.lookup "label" members).getD (.str "") = .str label ∧
        ((Json.lookup "label" members).bind Json.str?).getD "" = label := by
      cases hlookup : Json.lookup "label" members with
      | none => exact ⟨"", rfl, rfl⟩
      | some w =>
        obtain ⟨label, rfl⟩ := (htexts hnever hformat).2 path v w hpath hleads hlookup
        exact ⟨label, rfl, rfl⟩
    subst hlabelOf
    refine ⟨[(labelOf host (.obj members), host.env.lower v)], _,
      screenField_shows hnever hpath hformat hleads hlabel, fun label' address => ?_, hvalue⟩
    rw [List.mem_singleton, Prod.mk.injEq]
    constructor
    · rintro ⟨rfl, rfl⟩
      exact ⟨hnever, hformat, ⟨path, v, hpath, hleads, rfl⟩, rfl⟩
    · intro hshows
      obtain ⟨path', v', hpath', hleads', rfl⟩ := hshows.path
      obtain rfl := Json.str.inj (Option.some.inj (hpath.symm.trans hpath'))
      obtain rfl := AbiValue.str.inj (Option.some.inj (hleads.2.1.symm.trans hleads'.2.1))
      exact ⟨hshows.label, rfl⟩
  · refine ⟨[], _, .nothing (screenField_skip hnever fun hformat => ?_) (fun label address hshows => ?_) hvalue⟩
    · cases hlookup : Json.lookup "path" members with
      | none => exact ⟨"", rfl, fun v hleads => absurd hleads.1 (by decide)⟩
      | some w =>
        obtain ⟨path, rfl⟩ := (htexts hnever hformat).1 w hlookup
        exact ⟨path, rfl, fun v hleads => hshown ⟨hformat, path, v, hlookup, hleads⟩⟩
    · obtain ⟨path, v, hpath, hleads, -⟩ := hshows.path
      exact hshown ⟨hshows.format, path, v, hpath, hleads⟩

end Fields

/-! ## The loops -/

/-- A screen with the fields shows the address under the label. -/
def Shows (host : Host) (arguments : List (String × AbiValue)) (fields : List Json) (label address : String) : Prop :=
  ∃ field ∈ fields, FieldShows host arguments field label address

/-- A screen with the fields shows the native value. -/
def ShowsValue (fields : List Json) : Prop := ∃ field ∈ fields, FieldShowsValue field

/-- What the code makes of the fields. -/
structure ScreenReads (host : Host) (arguments : List (String × AbiValue)) (fields : List Json) (screen : Screen) :
    Prop where
  shown : screen.shown = screen.labelled.map Prod.snd
  labelled : ∀ label address, (label, address) ∈ screen.labelled ↔ Shows host arguments fields label address
  value : screen.showsValue = true ↔ ShowsValue fields

/-- What the code makes of the native value and the log entries. -/
structure MovesRead (host : Host) (value : ℕ) (logs : List EventLog) (moves : List Movement) : Prop where
  value : (∃ m ∈ moves, m.kind = "eth") ↔ value ≠ 0
  token : ∀ destination amount, (∃ m ∈ moves, m.token? = some (destination, amount)) ↔
    ∃ log ∈ logs, Moves host log destination amount
  grants : ∀ operator, (∃ m ∈ moves, ∃ owner, m = .approval owner operator true) ↔ ∃ log ∈ logs, Grants host log operator

section Loops

variable {host : Host} {arguments : List (String × AbiValue)} {fields : List Json} {logs : List EventLog}

/-- The loop over the fields adds to a screen what they show. -/
theorem foldlM_screenField (h : ∀ field ∈ fields, ReadableField arguments field) :
    ∃ entries value, (∀ screen, fields.foldlM (screenField host arguments) screen = .ok
        ⟨screen.shown ++ entries.map Prod.snd, screen.showsValue || value, screen.labelled ++ entries⟩) ∧
      (∀ label address, (label, address) ∈ entries ↔ Shows host arguments fields label address) ∧
      (value = true ↔ ShowsValue fields) := by
  induction fields with
  | nil =>
    refine ⟨[], false, fun screen => ?_, fun label address => ?_, ?_⟩
    · rw [List.map_nil, List.append_nil, List.append_nil, Bool.or_false]
      rfl
    · exact iff_of_false List.not_mem_nil fun ⟨_, hfield, _⟩ => absurd hfield List.not_mem_nil
    · exact iff_of_false Bool.false_ne_true fun ⟨_, hfield, _⟩ => absurd hfield List.not_mem_nil
  | cons field fields ih =>
    obtain ⟨first, mark, hfirst⟩ := @exists_fieldReads host _ _ (h field List.mem_cons_self)
    obtain ⟨rest, marks, hrest, hshows, hvalue⟩ := ih fun f hf => h f (List.mem_cons_of_mem field hf)
    refine ⟨first ++ rest, mark || marks, fun screen => ?_, fun label address => ?_, ?_⟩
    · rw [List.foldlM_cons, hfirst.step]
      refine (hrest _).trans ?_
      rw [List.map_append, List.append_assoc, List.append_assoc, Bool.or_assoc]
    · rw [List.mem_append, hfirst.entries, hshows, Shows, Shows, List.exists_mem_cons_iff]
    · rw [Bool.or_eq_true_iff, hfirst.value, hvalue, ShowsValue, ShowsValue, List.exists_mem_cons_iff]

/-- The code reads the fields for what they show. -/
theorem exists_screenReads (h : ∀ field ∈ fields, ReadableField arguments field) :
    ∃ screen, fields.foldlM (screenField host arguments) ⟨[], false, []⟩ = .ok screen ∧
      ScreenReads host arguments fields screen := by
  obtain ⟨entries, value, hfold, hshows, hvalue⟩ := @foldlM_screenField host _ _ h
  exact ⟨_, hfold _, rfl, hshows, hvalue⟩

/-- The code reads the log entries for what they say. -/
theorem exists_logsRead {jsons : List Json} (hjson : List.Forall₂ EventLog.InJson logs jsons)
    (hwf : ∀ log ∈ logs, WellFormedLog host log) :
    ∃ moved, jsons.mapM (logMovement host) = .ok moved ∧ List.Forall₂ (LogReads host) logs moved := by
  induction hjson with
  | nil => exact ⟨[], rfl, .nil⟩
  | cons hlog hrest ih =>
    obtain ⟨m, hm, hreads⟩ := exists_logMovement hlog (hwf _ List.mem_cons_self)
    obtain ⟨moved, hmoved, hall⟩ := ih fun log hmem => hwf log (List.mem_cons_of_mem _ hmem)
    exact ⟨m :: moved, mapM_eq_ok.mpr (.cons hm (mapM_eq_ok.mp hmoved)), .cons hreads hall⟩

/-- What is found among the movements of the log entries is in one of them. -/
theorem exists_mem_filterMap {P : Movement → Prop} {Q : EventLog → Prop} {moved : List (Option Movement)}
    (hreads : List.Forall₂ (fun log m => (∃ move, m = some move ∧ P move) ↔ Q log) logs moved) :
    (∃ move ∈ moved.filterMap id, P move) ↔ ∃ log ∈ logs, Q log := by
  induction hreads with
  | nil => exact iff_of_false (fun ⟨_, h, _⟩ => absurd h List.not_mem_nil) fun ⟨_, h, _⟩ => absurd h List.not_mem_nil
  | @cons log m logs moved hlog hrest ih =>
    rw [List.exists_mem_cons_iff, ← hlog, ← ih]
    rcases m with _ | move
    · rw [List.filterMap_cons_none rfl]
      exact ⟨.inr, fun h => h.resolve_left nofun⟩
    · have hcons : (some move :: moved).filterMap id = move :: moved.filterMap id := rfl
      rw [hcons, List.exists_mem_cons_iff]
      exact or_congr_left ⟨fun h => ⟨move, rfl, h⟩, fun ⟨_, hsome, h⟩ => Option.some.inj hsome ▸ h⟩

end Loops

/-! ## A call -/

/-- A call, as it was decoded: the arguments and the fields of its screen, the native value, the log entries of its
receipt, and the contract. -/
structure Call where
  arguments : List (String × AbiValue)
  fields : List Json
  value : ℕ
  logs : List EventLog
  contract : String

/-- The transaction and its receipt decode to the call. -/
structure Decodes (host : Host) (desc contract tx receipt : Json) (c : Call) : Prop where
  screen : ∃ input data abi fn names values format member, item "input" tx = .ok (.str input) ∧
    fromHex (input.toList.drop 2) = some data ∧ descriptorAbi host.env desc = .ok abi ∧
    abi.reverse.find? (fun fn => selector host.env (signature fn) == data.take 4) = some fn ∧
    List.Forall₂ (fun i name => i.name = some name) fn.inputs names ∧
    host.env.abiDecode (canonicalTypes fn.inputs) (data.drop 4) = some values ∧ c.arguments = names.zip values ∧
    screenFormat desc (signature fn) = .ok format ∧ getOr "fields" (.arr []) format = .ok member ∧
    iterate member = .ok c.fields
  fields : ∀ field ∈ c.fields, ReadableField c.arguments field
  value : ∃ text, item "value" tx = .ok (.str text) ∧ host.hexInt text = some (c.value : ℤ)
  destination : c.value ≠ 0 → ∃ text, item "to" tx = .ok (.str text)
  logs : ∃ member jsons, item "logs" receipt = .ok member ∧ iterate member = .ok jsons ∧
    List.Forall₂ EventLog.InJson c.logs jsons
  wellFormed : ∀ log ∈ c.logs, WellFormedLog host log
  contract : ∃ text, contract = .str text ∧ c.contract = host.env.lower text

section Calls

variable {host : Host} {desc contract tx receipt : Json} {c : Call}

/-- The code reads the screen of a call. -/
theorem Decodes.exists_screenClaims (h : Decodes host desc contract tx receipt c) :
    ∃ input data sig screen, item "input" tx = .ok (.str input) ∧ fromHex (input.toList.drop 2) = some data ∧
      screenClaims host desc data = .ok (sig, screen) ∧ ScreenReads host c.arguments c.fields screen := by
  obtain ⟨input, data, abi, fn, names, values, format, member, hinput, hdata, habi, hfn, hnames, hvalues, harguments,
    hformat, hmember, hfields⟩ := h.screen
  obtain ⟨screen, hscreen, hreads⟩ := @exists_screenReads host _ _ h.fields
  refine ⟨input, data, signature fn, screen, hinput, hdata, ?_, hreads⟩
  have hnames' : fn.inputs.mapM (fun i => i.name.elim (.error "KeyError") .ok : _ → Except String String) = .ok names :=
    mapM_eq_ok.mpr (hnames.imp fun i name hname => by rw [hname]; rfl)
  rw [harguments] at hscreen
  unfold screenClaims
  refine bind_eq_ok.mpr ⟨abi, mapError_eq_ok.mpr habi, ?_⟩
  rw [hfn]
  exact bind_eq_ok.mpr ⟨names, hnames', bind_eq_ok.mpr ⟨values, by rw [hvalues]; rfl, bind_eq_ok.mpr ⟨format, hformat,
    bind_eq_ok.mpr ⟨member, hmember, bind_eq_ok.mpr ⟨c.fields, hfields, bind_eq_ok.mpr ⟨screen, hscreen, rfl⟩⟩⟩⟩⟩⟩

/-- The native value is the one movement of its kind. -/
theorem MovesRead.of_native {native : List Movement} {moved : List (Option Movement)}
    (hlogs : List.Forall₂ (LogReads host) c.logs moved) (hnative : (∃ m ∈ native, m.kind = "eth") ↔ c.value ≠ 0)
    (hother : ∀ m ∈ native, m.token? = none ∧ m.kind = "eth") :
    MovesRead host c.value c.logs (native ++ moved.filterMap id) where
  value := by
    have hnone : ¬ ∃ m ∈ moved.filterMap id, m.kind = "eth" := by
      rw [exists_mem_filterMap (Q := fun _ => False) (hlogs.imp fun log m hreads =>
        iff_of_false (fun ⟨move, hmove, hkind⟩ => hreads.noValue move hmove hkind) id)]
      exact fun ⟨_, _, h⟩ => h
    rw [← hnative]
    constructor
    · rintro ⟨m, hm, hkind⟩
      exact (List.mem_append.mp hm).elim (fun hm => ⟨m, hm, hkind⟩) fun hm => absurd ⟨m, hm, hkind⟩ hnone
    · rintro ⟨m, hm, hkind⟩
      exact ⟨m, List.mem_append_left _ hm, hkind⟩
  token destination amount := by
    have hmoves : ∀ {log m}, LogReads host log m →
        ((∃ move, m = some move ∧ move.token? = some (destination, amount)) ↔ Moves host log destination amount) :=
      fun hreads => Option.bind_eq_some_iff.symm.trans (hreads.moves destination amount)
    rw [← exists_mem_filterMap (hlogs.imp fun _ _ => hmoves)]
    constructor
    · rintro ⟨m, hm, htoken⟩
      refine (List.mem_append.mp hm).elim (fun hm => ?_) fun hm => ⟨m, hm, htoken⟩
      exact nomatch (hother m hm).1.symm.trans htoken
    · rintro ⟨m, hm, htoken⟩
      exact ⟨m, List.mem_append_right _ hm, htoken⟩
  grants operator := by
    have hgrants : ∀ {log m}, LogReads host log m →
        ((∃ move, m = some move ∧ ∃ owner, move = .approval owner operator true) ↔ Grants host log operator) := by
      intro log m hreads
      rw [← hreads.grants]
      exact ⟨fun ⟨move, hm, owner, hmove⟩ => ⟨owner, hmove ▸ hm⟩, fun ⟨owner, hm⟩ => ⟨_, hm, owner, rfl⟩⟩
    rw [← exists_mem_filterMap (hlogs.imp fun _ _ => hgrants)]
    constructor
    · rintro ⟨m, hm, owner, rfl⟩
      refine (List.mem_append.mp hm).elim (fun hm => ?_) fun hm => ⟨_, hm, owner, rfl⟩
      exact absurd (hother _ hm).2 (by decide : "approval" ≠ "eth")
    · rintro ⟨m, hm, hgrant⟩
      exact ⟨m, List.mem_append_right _ hm, hgrant⟩

/-- The code reads what a call moved. -/
theorem Decodes.exists_movements (h : Decodes host desc contract tx receipt c) :
    ∃ moves, movements host tx receipt = .ok moves ∧ MovesRead host c.value c.logs moves := by
  obtain ⟨text, hvalue, hint⟩ := h.value
  obtain ⟨member, jsons, hlogs, hjsons, hinjson⟩ := h.logs
  obtain ⟨moved, hmoved, hreads⟩ := exists_logsRead hinjson h.wellFormed
  have hnumber : hexNumber host (.str text) = .ok (c.value : ℤ) := by rw [hexNumber, hint]; rfl
  unfold movements
  by_cases hzero : c.value = 0
  · refine ⟨[] ++ moved.filterMap id, ?_, .of_native hreads (iff_of_false ?_ (not_not_intro hzero)) ?_⟩
    · refine bind_eq_ok.mpr ⟨_, hvalue, bind_eq_ok.mpr ⟨_, hnumber, ?_⟩⟩
      dsimp only
      rw [if_neg (by omega)]
      exact bind_eq_ok.mpr ⟨[], rfl, bind_eq_ok.mpr ⟨_, hlogs, bind_eq_ok.mpr ⟨_, hjsons,
        bind_eq_ok.mpr ⟨_, hmoved, rfl⟩⟩⟩⟩
    · exact fun ⟨_, hm, _⟩ => absurd hm List.not_mem_nil
    · exact fun _ hm => absurd hm List.not_mem_nil
  · obtain ⟨destination, hto⟩ := h.destination hzero
    refine ⟨[Movement.eth (host.env.lower destination) c.value] ++ moved.filterMap id, ?_, .of_native hreads
      (iff_of_true ⟨_, List.mem_singleton_self _, rfl⟩ hzero) ?_⟩
    · refine bind_eq_ok.mpr ⟨_, hvalue, bind_eq_ok.mpr ⟨_, hnumber, ?_⟩⟩
      dsimp only
      rw [if_pos (by omega)]
      exact bind_eq_ok.mpr ⟨_, hto, bind_eq_ok.mpr ⟨_, rfl, bind_eq_ok.mpr ⟨_, rfl, bind_eq_ok.mpr ⟨_, hlogs,
        bind_eq_ok.mpr ⟨_, hjsons, bind_eq_ok.mpr ⟨_, hmoved, rfl⟩⟩⟩⟩⟩⟩
    · intro m hm
      obtain rfl := List.mem_singleton.mp hm
      exact ⟨rfl, rfl⟩

end Calls

/-! ## A faithful screen -/

/-- An asset was sent to the address. -/
def Recipient (host : Host) (c : Call) (r : String) : Prop :=
  ∃ amount, (∃ log ∈ c.logs, Moves host log r amount) ∧ 0 < amount ∧ r ≠ zeroAddress

/-- The operator was granted. -/
def Granted (host : Host) (c : Call) (operator : String) : Prop := ∃ log ∈ c.logs, Grants host log operator

/-- The screen shows the address. -/
def ShowsAddress (host : Host) (c : Call) (address : String) : Prop :=
  ∃ label, Shows host c.arguments c.fields label address

/-- The label begins with the letters of a recipient label. -/
def beginsLikeRecipient (label : String) : Bool := recipientLabels.any (hasPrefix label ·)

/-- The label is a recipient label, alone or followed by further words. -/
def isRecipientLabel (label : String) : Bool :=
  recipientLabels.any fun r => hasPrefix label r && (label.toList.drop r.toList.length).head?.all isSpace

/-- The screen says what was moved, where a label of the kind names a recipient. -/
structure FaithfulTo (naming : String → Bool) (host : Host) (c : Call) : Prop where
  value : c.value ≠ 0 → ShowsValue c.fields
  recipients : ∀ r, Recipient host c r → r ≠ c.contract → ShowsAddress host c r
  operators : ∀ operator, Granted host c operator → ShowsAddress host c operator
  labels : (∃ r, Recipient host c r) → ∀ label address, Shows host c.arguments c.fields label address →
    naming label = true → Recipient host c address ∨ address = c.contract

/-- The screen says what was moved. -/
def Faithful (host : Host) (c : Call) : Prop := FaithfulTo isRecipientLabel host c

/-- Where an asset was sent, a label that only begins with the letters of a recipient label is not put on another
address. -/
def NoLookalike (host : Host) (c : Call) : Prop :=
  (∃ r, Recipient host c r) → ∀ label address, Shows host c.arguments c.fields label address →
    beginsLikeRecipient label = true → isRecipientLabel label = false → Recipient host c address ∨ address = c.contract

section Findings

theorem mem_recipients {moves : List Movement} {r : String} : r ∈ recipients moves ↔
    ∃ amount, (∃ m ∈ moves, m.token? = some (r, amount)) ∧ 0 < amount ∧ r ≠ zeroAddress := by
  unfold recipients
  rw [List.mem_filterMap]
  constructor
  · rintro ⟨⟨destination, amount⟩, hmem, hsome⟩
    split_ifs at hsome with hpositive
    obtain rfl := Option.some.inj hsome
    exact ⟨amount, List.mem_filterMap.mp hmem, hpositive⟩
  · rintro ⟨amount, hm, hpositive⟩
    exact ⟨(r, amount), List.mem_filterMap.mpr hm, if_pos hpositive⟩

/-- There is no finding about the movement. -/
def Movement.Passes (screen : Screen) (contract : String) (moves : List Movement) (m : Movement) : Prop :=
  (∀ destination amount, m.token? = some (destination, amount) → destination ∈ recipients moves →
    destination ≠ contract → destination ∈ screen.shown) ∧
  ∀ owner operator, m = .approval owner operator true → operator ∈ screen.shown

/-- When a finding with a condition is not there. -/
theorem ite_singleton_eq_nil {b : Bool} {finding : String × String} :
    (if b = true then [finding] else []) = [] ↔ b = false := by
  cases b
  · exact iff_of_true rfl rfl
  · exact iff_of_false (List.cons_ne_nil _ _) nofun

theorem not_contains_iff {l : List String} {s : String} : (!l.contains s) = true ↔ s ∉ l := by
  rw [Bool.not_eq_true', ← Bool.not_eq_true, List.contains_iff_mem]

/-- The two checks of a movement find nothing where it passes. -/
theorem Movement.passes_iff {screen : Screen} {contract : String} {moves : List Movement} {m : Movement} :
    (match m.token? with
      | some (destination, _) =>
        if (recipients moves).contains destination && !screen.shown.contains destination && destination != contract then
          [("HIGH", "asset sent to " ++ sliceChars 0 10 destination ++ "... not shown on screen")] else []
      | none => []) ++
    (match m with
      | .approval _ operator true => if !screen.shown.contains operator then
          [("CRITICAL", "approves operator " ++ sliceChars 0 10 operator ++ "... not shown")] else []
      | _ => []) = [] ↔ m.Passes screen contract moves := by
  rw [List.append_eq_nil_iff]
  refine and_congr ?_ ?_
  · rcases m.token? with _ | ⟨destination, amount⟩
    · exact iff_of_true rfl nofun
    · simp only [ite_singleton_eq_nil, Option.some.injEq, Prod.mk.injEq, and_imp]
      rw [← Bool.not_eq_true, Bool.and_eq_true, Bool.and_eq_true, List.contains_iff_mem, not_contains_iff, bne_iff_ne]
      constructor
      · rintro h _ _ rfl - hrecipient hcontract
        by_contra hshown
        exact h ⟨⟨hrecipient, hshown⟩, hcontract⟩
      · rintro h ⟨⟨hrecipient, hshown⟩, hcontract⟩
        exact hshown (h _ _ rfl rfl hrecipient hcontract)
  · rcases m with _ | _ | _ | ⟨owner, operator, _ | _⟩
    · exact iff_of_true rfl nofun
    · exact iff_of_true rfl nofun
    · exact iff_of_true rfl nofun
    · exact iff_of_true rfl nofun
    · simp only [ite_singleton_eq_nil, Movement.approval.injEq, and_true, and_imp]
      rw [← Bool.not_eq_true, not_contains_iff, not_not]
      exact ⟨fun h _ _ _ hoperator => hoperator ▸ h, fun h => h owner operator rfl rfl⟩

/-- There are no findings where the screen passes on the value, on each movement, and on each label. -/
theorem findings_eq_nil_iff {screen : Screen} {contract : String} {moves : List Movement} :
    findings screen contract moves = [] ↔ ((∃ m ∈ moves, m.kind = "eth") → screen.showsValue = true) ∧
      (∀ m ∈ moves, m.Passes screen contract moves) ∧
      ((∃ r, r ∈ recipients moves) → ∀ entry ∈ screen.labelled, beginsLikeRecipient entry.1 = true →
        entry.2 ∈ recipients moves ∨ entry.2 = contract) := by
  unfold findings
  rw [List.append_eq_nil_iff, List.append_eq_nil_iff, and_assoc, ite_singleton_eq_nil, List.flatMap_eq_nil_iff]
  refine and_congr ?_ (and_congr (forall₂_congr fun m _ => Movement.passes_iff) ?_)
  · rw [Bool.and_eq_false_imp, List.any_eq_true]
    simp only [beq_iff_eq, Bool.not_eq_false']
  · rcases hrecipients : recipients moves with _ | ⟨r, rest⟩
    · exact iff_of_true rfl fun ⟨_, hr⟩ => absurd hr List.not_mem_nil
    rw [← hrecipients, if_neg (by rw [hrecipients]; exact Bool.false_ne_true), List.map_eq_nil_iff,
      List.filter_eq_nil_iff]
    have hsome : ∃ r, r ∈ recipients moves := ⟨r, hrecipients ▸ List.mem_cons_self⟩
    refine Iff.trans (forall₂_congr fun entry _ => ?_) (imp_iff_right hsome).symm
    rw [Bool.and_eq_true, Bool.and_eq_true, not_contains_iff, bne_iff_ne]
    constructor
    · intro h hbegins
      by_contra hother
      exact h ⟨⟨hbegins, fun hr => hother (.inl hr)⟩, fun hcontract => hother (.inr hcontract)⟩
    · rintro h ⟨⟨hbegins, hnot⟩, hcontract⟩
      exact (h hbegins).elim hnot hcontract

end Findings

section Exact

variable {host : Host} {desc contract tx receipt : Json} {c : Call}

/-- `verify_one` finds nothing where the screen says what was moved, a label that begins like a recipient label taken
for one. -/
theorem Decodes.exists_verified (h : Decodes host desc contract tx receipt c) :
    ∃ verified, verifyOne host desc contract tx receipt = .ok verified ∧
      (verified.findings = [] ↔ FaithfulTo beginsLikeRecipient host c) := by
  obtain ⟨input, data, sig, screen, hinput, hdata, hscreen, hshows⟩ := h.exists_screenClaims
  obtain ⟨moves, hmoves, hread⟩ := h.exists_movements
  obtain ⟨text, rfl, hcontract⟩ := h.contract
  refine ⟨⟨sig, moves, findings screen c.contract moves⟩, ?_, ?_⟩
  · refine bind_eq_ok.mpr ⟨_, hinput, bind_eq_ok.mpr ⟨data, by rw [hdata]; rfl, bind_eq_ok.mpr ⟨_, hscreen,
      bind_eq_ok.mpr ⟨moves, hmoves, bind_eq_ok.mpr ⟨c.contract, ?_, rfl⟩⟩⟩⟩⟩
    rw [hcontract]
    rfl
  have hrecipient (r : String) : r ∈ recipients moves ↔ Recipient host c r := by
    rw [mem_recipients]
    exact exists_congr fun amount => and_congr_left fun _ => hread.token r amount
  have hshown (address : String) : address ∈ screen.shown ↔ ShowsAddress host c address := by
    rw [hshows.shown, List.mem_map]
    constructor
    · rintro ⟨⟨label, address⟩, hentry, rfl⟩
      exact ⟨label, (hshows.labelled label address).mp hentry⟩
    · rintro ⟨label, hlabel⟩
      exact ⟨_, (hshows.labelled label address).mpr hlabel, rfl⟩
  rw [findings_eq_nil_iff]
  constructor
  · rintro ⟨hvalue, hpasses, hlabels⟩
    refine ⟨fun hne => hshows.value.mp (hvalue (hread.value.mpr hne)), fun r hr hother => ?_, fun operator hgrant => ?_,
      fun ⟨r, hr⟩ label address hshow hbegins => ?_⟩
    · obtain ⟨amount, hmoved, -⟩ := id hr
      obtain ⟨m, hm, htoken⟩ := (hread.token r amount).mpr hmoved
      exact (hshown r).mp ((hpasses m hm).1 r amount htoken ((hrecipient r).mpr hr) hother)
    · obtain ⟨m, hm, owner, happroval⟩ := (hread.grants operator).mpr hgrant
      exact (hshown operator).mp ((hpasses m hm).2 owner operator happroval)
    · exact (hlabels ⟨r, (hrecipient r).mpr hr⟩ (label, address)
        ((hshows.labelled label address).mpr hshow) hbegins).imp_left (hrecipient address).mp
  · rintro ⟨hvalue, hrecipients, hoperators, hlabels⟩
    refine ⟨fun heth => hshows.value.mpr (hvalue (hread.value.mp heth)), fun m hm => ⟨?_, ?_⟩,
      fun ⟨r, hr⟩ ⟨label, address⟩ hentry hbegins => ?_⟩
    · intro destination amount htoken hmem hother
      exact (hshown destination).mpr (hrecipients destination ((hrecipient destination).mp hmem) hother)
    · intro owner operator happroval
      exact (hshown operator).mpr (hoperators operator ((hread.grants operator).mp ⟨m, hm, owner, happroval⟩))
    · exact (hlabels ⟨r, (hrecipient r).mp hr⟩ label address ((hshows.labelled label address).mp hentry) hbegins).imp_left
        (hrecipient address).mpr

/-- A recipient label begins like one. -/
theorem beginsLikeRecipient_of_isRecipientLabel {label : String} (h : isRecipientLabel label = true) :
    beginsLikeRecipient label = true := by
  obtain ⟨r, hr, hlabel⟩ := List.any_eq_true.mp h
  exact List.any_eq_true.mpr ⟨r, hr, (Bool.and_eq_true_iff.mp hlabel).1⟩

/-- The labels that only begin like a recipient label make the difference. -/
theorem faithfulTo_beginsLikeRecipient_iff :
    FaithfulTo beginsLikeRecipient host c ↔ Faithful host c ∧ NoLookalike host c := by
  constructor
  · intro h
    refine ⟨⟨h.value, h.recipients, h.operators, fun hr label address hshows hlabel => ?_⟩,
      fun hr label address hshows hbegins _ => h.labels hr label address hshows hbegins⟩
    exact h.labels hr label address hshows (beginsLikeRecipient_of_isRecipientLabel hlabel)
  · rintro ⟨h, hnone⟩
    refine ⟨h.value, h.recipients, h.operators, fun hr label address hshows hbegins => ?_⟩
    cases hlabel : isRecipientLabel label with
    | true => exact h.labels hr label address hshows hlabel
    | false => exact hnone hr label address hshows hbegins hlabel

/-- **Semantic verification is exact** for a call if and only if its screen is not faithful anyway, or no label that
only begins with the letters of a recipient label is put on an address that is neither a recipient nor the contract. -/
theorem verifyOne_exact_iff (h : Decodes host desc contract tx receipt c) :
    (∃ verified, verifyOne host desc contract tx receipt = .ok verified ∧
      (verified.findings = [] ↔ Faithful host c)) ↔ (Faithful host c → NoLookalike host c) := by
  obtain ⟨verified, hverified, hfindings⟩ := h.exists_verified
  rw [faithfulTo_beginsLikeRecipient_iff] at hfindings
  constructor
  · rintro ⟨verified', hverified', hexact⟩ hfaithful
    obtain rfl := Except.ok.inj (hverified.symm.trans hverified')
    exact (hfindings.mp (hexact.mpr hfaithful)).2
  · intro hnone
    refine ⟨verified, hverified, hfindings.trans ⟨And.left, fun hfaithful => ⟨hfaithful, hnone hfaithful⟩⟩⟩

end Exact

/-! ## A transfer for an owner -/

/-- `fromHex` reads back the text of some bytes. -/
theorem fromHex_hexText (bytes : Bytes) : fromHex (hexText bytes).toList = some bytes := by
  have hspace : ∀ n < 16, hexDigit n ∉ asciiSpaces := by decide
  rw [hexText_toList]
  induction bytes with
  | nil => rfl
  | cons b bytes ih =>
    have hlt : b.toNat < 256 := b.toNat_lt
    have hhalves : 16 * (b.toNat / 16) + b.toNat % 16 = b.toNat := Nat.div_add_mod b.toNat 16
    rw [List.flatMap_cons, List.cons_append, List.cons_append, List.nil_append, fromHex,
      if_neg (hspace _ (by omega)), hexValue?_hexDigit (by omega), hexValue?_hexDigit (by omega), ih]
    exact congrArg some (congrArg (· :: bytes) (by rw [hhalves, UInt8.ofNat_toNat]))

theorem fromHex_marked (bytes : Bytes) : fromHex (("0x" ++ hexText bytes).toList.drop 2) = some bytes := by
  have hdrop : ("0x".toList ++ (hexText bytes).toList).drop 2 = (hexText bytes).toList :=
    List.drop_left' (rfl : "0x".toList.length = 2)
  rw [String.toList_append, hdrop, fromHex_hexText]

/-- An address of one digit, and its topic. -/
def addressOf (digits : UInt8) : String := "0x" ++ hexText (List.replicate 20 digits)
def topicOf (digits : UInt8) : String := "0x" ++ hexText (List.replicate 12 0 ++ List.replicate 20 digits)

/-- The fields of a `transferFrom`: the owner under a label, the receiver and the amount. -/
def ownerFields (label : String) : List Json :=
  [fieldJson "#.from" label "addressName", fieldJson "#.to" "To" "addressName", fieldJson "#.amount" "Amount" "raw"]

def ownerDescriptor (label : String) : Json :=
  ((callRequest "transferFrom" "transferFrom(address,address,uint256)" ""
    [inputJson "from" "address", inputJson "to" "address", inputJson "amount" "uint256"]
    [("fields", .arr (ownerFields label))]).get? "descriptor").getD .null

def ownerFunction : AbiFunction :=
  ⟨"transferFrom", [⟨some "from", "address", []⟩, ⟨some "to", "address", []⟩, ⟨some "amount", "uint256", []⟩],
    some "nonpayable", none⟩

/-- The transaction: the receiver gets 1000 units of the owner's. -/
def ownerCalldata : Bytes := hexOf "23b872dd" ++ List.replicate 12 0 ++ List.replicate 20 0x11 ++ List.replicate 12 0 ++
  List.replicate 20 0x33 ++ wordOf 1000

def ownerTransaction : Json :=
  .obj [("to", .str (addressOf 0x22)), ("value", .str "0x0"), ("input", .str ("0x" ++ hexText ownerCalldata))]

def ownerLog : EventLog := ⟨[transferTopic, topicOf 0x11, topicOf 0x33], "0x3e8"⟩

def ownerReceipt : Json :=
  .obj [("logs", .arr [.obj [("topics", .arr (ownerLog.topics.map .str)), ("data", .str ownerLog.data)]])]

def ownerCall (label : String) : Call where
  arguments := [("from", .str (addressOf 0x11)), ("to", .str (addressOf 0x33)), ("amount", .int 1000)]
  fields := ownerFields label
  value := 0
  logs := [ownerLog]
  contract := addressOf 0x22

theorem ownerFunction_selector :
    (selector revertedHost.env (signature ownerFunction) == ownerCalldata.take 4) = true := by decide

theorem ownerArguments_eq : revertedHost.env.abiDecode (canonicalTypes ownerFunction.inputs) (ownerCalldata.drop 4) =
    some [.str (addressOf 0x11), .str (addressOf 0x33), .int 1000] := by
  rfl

set_option maxRecDepth 20000 in
theorem ownerDescriptor_abi (label : String) :
    descriptorAbi revertedHost.env (ownerDescriptor label) = .ok [ownerFunction] := rfl

theorem ownerLog_wellFormed : WellFormedLog revertedHost ownerLog where
  topics := List.cons_ne_nil _ _
  transfer _ _ := ⟨1000, by decide⟩
  approval htopics hkind := by
    obtain rfl := (List.cons.inj htopics).1
    exact absurd hkind (by decide)
  transferSingle htopics := nomatch htopics

theorem ownerFields_readable {label : String} {field : Json} (h : field ∈ ownerFields label) :
    ReadableField (ownerCall label).arguments field := by
  have hfield : ∀ path text format, ReadableField (ownerCall label).arguments (fieldJson path text format) := by
    intro path text format
    refine ⟨⟨_, rfl⟩, fun _ _ => ⟨fun w hw => ⟨path, (Option.some.inj hw).symm⟩, fun _ _ w _ _ hw =>
      ⟨text, (Option.some.inj hw).symm⟩⟩⟩
  simp only [ownerFields, List.mem_cons, List.not_mem_nil, or_false] at h
  rcases h with rfl | rfl | rfl
  all_goals exact hfield _ _ _

theorem ownerCall_decodes (label : String) : Decodes revertedHost (ownerDescriptor label) (.str (addressOf 0x22))
    ownerTransaction ownerReceipt (ownerCall label) where
  screen := ⟨_, ownerCalldata, [ownerFunction], ownerFunction, ["from", "to", "amount"],
    [.str (addressOf 0x11), .str (addressOf 0x33), .int 1000], .obj [("fields", .arr (ownerFields label))],
    .arr (ownerFields label), rfl, fromHex_marked ownerCalldata, ownerDescriptor_abi label,
    List.find?_cons_of_pos ownerFunction_selector, .cons rfl (.cons rfl (.cons rfl .nil)), ownerArguments_eq, rfl, rfl,
    rfl, rfl⟩
  fields _ hfield := ownerFields_readable hfield
  value := ⟨"0x0", rfl, (by decide : plainHexInt "0x0" = some 0)⟩
  destination h := absurd rfl h
  logs := ⟨_, _, rfl, rfl, .cons ⟨rfl, rfl⟩ .nil⟩
  wellFormed log hlog := List.mem_singleton.mp hlog ▸ ownerLog_wellFormed
  contract := ⟨addressOf 0x22, rfl, (by decide : addressOf 0x22 = lowerAscii (addressOf 0x22))⟩

/-- A field shows the address its path leads to. -/
theorem fieldShows_fieldJson {host : Host} {arguments : List (String × AbiValue)} {path label v : String}
    (h : LeadsTo arguments path v) : FieldShows host arguments (fieldJson path label "addressName")
      (host.env.lower (stripChars isSpace label)) (host.env.lower v) :=
  ⟨(fun hnever => nomatch hnever), rfl, ⟨path, v, rfl, h, rfl⟩, rfl⟩

theorem ownerCall_owner (owner : String) : Shows revertedHost (ownerCall owner).arguments (ownerFields owner)
    (lowerAscii (stripChars isSpace owner)) (lowerAscii (addressOf 0x11)) :=
  ⟨_, List.mem_cons_self, fieldShows_fieldJson ⟨by decide, rfl, by decide⟩⟩

theorem ownerCall_receiver (owner : String) : Shows revertedHost (ownerCall owner).arguments (ownerFields owner)
    (lowerAscii (stripChars isSpace "To")) (lowerAscii (addressOf 0x33)) :=
  ⟨_, List.mem_cons_of_mem _ List.mem_cons_self, fieldShows_fieldJson ⟨by decide, rfl, by decide⟩⟩

/-- What its screen shows: the owner under the label, and the receiver. -/
theorem shows_ownerFields {owner label address : String}
    (h : Shows revertedHost (ownerCall owner).arguments (ownerFields owner) label address) :
    (label = lowerAscii (stripChars isSpace owner) ∧ address = lowerAscii (addressOf 0x11)) ∨
      (label = "to" ∧ address = lowerAscii (addressOf 0x33)) := by
  obtain ⟨field, hfield, hshows⟩ := h
  obtain ⟨path, v, hpath, hleads, haddress⟩ := hshows.path
  simp only [ownerFields, List.mem_cons, List.not_mem_nil, or_false] at hfield
  rcases hfield with rfl | rfl | rfl
  · obtain rfl := Json.str.inj (Option.some.inj hpath)
    obtain rfl := AbiValue.str.inj (Option.some.inj hleads.2.1)
    exact .inl ⟨hshows.label, haddress⟩
  · obtain rfl := Json.str.inj (Option.some.inj hpath)
    obtain rfl := AbiValue.str.inj (Option.some.inj hleads.2.1)
    exact .inr ⟨hshows.label.trans (by decide), haddress⟩
  · exact absurd (Json.str.inj (Option.some.inj hshows.format)) (by decide)

theorem topicText_receiver : topicText revertedHost (topicOf 0x33) = lowerAscii (addressOf 0x33) := by decide +kernel

/-- The receiver is the recipient. -/
theorem ownerCall_recipient (owner : String) :
    Recipient revertedHost (ownerCall owner) (lowerAscii (addressOf 0x33)) := by
  refine ⟨1000, ⟨ownerLog, List.mem_singleton_self _, ?_⟩, by decide, by decide⟩
  rw [← topicText_receiver]
  exact .transfer rfl (by decide) (by decide)

theorem ownerCall_recipient_eq {owner r : String} (h : Recipient revertedHost (ownerCall owner) r) :
    r = lowerAscii (addressOf 0x33) := by
  obtain ⟨amount, ⟨log, hlog, hmoves⟩, -⟩ := h
  obtain rfl := List.mem_singleton.mp hlog
  rw [← topicText_receiver]
  cases hmoves with
  | transfer htopics =>
    have hsame := htopics
    simp only [ownerLog, List.cons.injEq, and_true] at hsame
    rw [← hsame.2.2]
  | transferSingle htopics => exact nomatch htopics

/-- The screen is faithful where the label of the owner is no recipient label. -/
theorem ownerCall_faithful {owner : String} (h : isRecipientLabel (lowerAscii (stripChars isSpace owner)) = false) :
    Faithful revertedHost (ownerCall owner) where
  value hne := absurd rfl hne
  recipients r hr _ := ownerCall_recipient_eq hr ▸ ⟨_, ownerCall_receiver owner⟩
  operators operator := by
    rintro ⟨log, hlog, first, _, _, htopics, hkind, -⟩
    obtain rfl := List.mem_singleton.mp hlog
    obtain rfl := (List.cons.inj htopics).1
    exact absurd hkind (by decide)
  labels _ label address hshows hlabel := by
    rcases shows_ownerFields hshows with ⟨rfl, -⟩ | ⟨-, rfl⟩
    · exact absurd hlabel (by rw [h]; exact Bool.false_ne_true)
    · exact .inl (ownerCall_recipient owner)

/-- A screen that calls the owner the source is verified exactly. -/
theorem verifyOne_exact_iff_source : ∃ verified, verifyOne revertedHost (ownerDescriptor "Source")
      (.str (addressOf 0x22)) ownerTransaction ownerReceipt = .ok verified ∧
    (verified.findings = [] ↔ Faithful revertedHost (ownerCall "Source")) := by
  refine (verifyOne_exact_iff (ownerCall_decodes "Source")).mpr fun _ _ label address hshows hbegins hnot => ?_
  rcases shows_ownerFields hshows with ⟨rfl, -⟩ | ⟨rfl, -⟩
  · exact absurd hbegins (by decide)
  · exact absurd hnot (by decide)

/-- A screen that calls the owner the token owner is as faithful, and is reported. -/
theorem verifyOne_inexact_tokenOwner :
    Decodes revertedHost (ownerDescriptor "Token owner") (.str (addressOf 0x22)) ownerTransaction ownerReceipt
      (ownerCall "Token owner") ∧ Faithful revertedHost (ownerCall "Token owner") ∧
    ¬ ∃ verified, verifyOne revertedHost (ownerDescriptor "Token owner") (.str (addressOf 0x22)) ownerTransaction
        ownerReceipt = .ok verified ∧ (verified.findings = [] ↔ Faithful revertedHost (ownerCall "Token owner")) := by
  have hfaithful := ownerCall_faithful (show isRecipientLabel (lowerAscii (stripChars isSpace "Token owner")) = false by
    decide)
  refine ⟨ownerCall_decodes _, hfaithful, ?_⟩
  rintro ⟨verified, hverified, hexact⟩
  obtain ⟨verified', hverified', hfindings⟩ := (ownerCall_decodes "Token owner").exists_verified
  obtain rfl := Except.ok.inj (hverified.symm.trans hverified')
  rcases (hfindings.mp (hexact.mpr hfaithful)).labels ⟨_, ownerCall_recipient _⟩ _ _ (ownerCall_owner _)
    (by decide) with hrecipient | hcontract
  · exact absurd (ownerCall_recipient_eq hrecipient) (by decide)
  · exact absurd hcontract (by decide)

end Lucent.Attest
