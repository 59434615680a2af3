import Lucent.Lib.SameJson
import Lucent.Preflight.Clearance

/-!
# Lucent.Preflight.Fingerprint — what the call fingerprint identifies

* `SameCall`: two requests for the same call, however they are spelled.
* `callFingerprint_eq_iff`: accepted requests have the same fingerprint exactly when they are for the same call.
-/

namespace Lucent.Preflight

open Lucent.Lib

/-! ## Requests -/

/-- An address of the transaction, without the case of its letters. -/
def requestAddress (args : Json) (key : String) : Option String :=
  ((transactionMember args key).bind Json.str?).map lowerAscii

/-- The bytes the hexadecimal digits of `data` stand for. -/
def requestBytes (args : Json) : Option Bytes :=
  ((transactionMember args "data").bind Json.str?).map (fun text => hexBytes (text.toList.drop 2))

/-- The integer `value` stands for, zero where it is absent. -/
def requestValue (args : Json) : Option ℤ :=
  match transactionMember args "value" with
  | none => some 0
  | some (.int n) => some n
  | some (.str text) => some (hexNat (text.toList.drop 2))
  | some _ => none

/-- The requests are for the same call of the same contract, with the same descriptor. -/
structure SameCall (args args' : Json) : Prop where
  chainId : transactionMember args "chain_id" = transactionMember args' "chain_id"
  sender : requestAddress args "from" = requestAddress args' "from"
  address : requestAddress args "to" = requestAddress args' "to"
  calldata : requestBytes args = requestBytes args'
  value : requestValue args = requestValue args'
  descriptor : ∃ d d', args.get? "descriptor" = some d ∧ args'.get? "descriptor" = some d' ∧ Json.Same d d'

/-! ## What an accepted call keeps of its request -/

/-- The members of a request behind the parts of its call. -/
structure ReadFrom (args : Json) (call : AcceptedCall) : Prop where
  chainId : transactionMember args "chain_id" = some (.int call.chainId)
  sender : requestAddress args "from" = some call.sender
  address : requestAddress args "to" = some call.address
  calldata : requestBytes args = some call.calldata
  value : requestValue args = some (call.value : ℤ)
  descriptor : args.get? "descriptor" = some call.descriptor.raw

theorem normalizeChainId_ok {value : Option Json} {chainId : ℤ} (h : normalizeChainId value = .ok chainId) :
    value = some (.int chainId) := by
  unfold normalizeChainId at h
  split at h
  · split_ifs at h
    cases h
    rfl
  · exact nomatch h

theorem normalizeAddress_ok {value : Option Json} {address : String} (h : normalizeAddress value = .ok address) :
    (value.bind Json.str?).map lowerAscii = some address := by
  unfold normalizeAddress at h
  split at h
  · split_ifs at h
    cases h
    rfl
  · exact nomatch h

theorem parseCalldata_digits {value : Option Json} {calldata : Bytes} (h : parseCalldata value = .ok calldata) :
    (value.bind Json.str?).map (fun text => hexBytes (text.toList.drop 2)) = some calldata := by
  unfold parseCalldata at h
  split at h
  · rename_i text
    split at h
    · rename_i body htext
      dsimp only at h
      split_ifs at h
      cases h
      rw [Option.bind_some, Json.str?, Option.map_some, htext]
      rfl
    · exact nomatch h
  · exact nomatch h

/-- A quantity is what its digits say. -/
theorem hexQuantity?_digits {text : String} {digits : List Char} (h : hexQuantity? text = some digits) :
    text.toList.drop 2 = digits := by
  unfold hexQuantity? at h
  split at h
  · rename_i digits' htext
    split_ifs at h
    cases h
    rw [htext]
    rfl
  · exact nomatch h

theorem parseValue_ok {args : Json} {value : ℕ}
    (h : parseValue ((transactionMember args "value").getD (.str "0x0")) = .ok value) :
    requestValue args = some (value : ℤ) := by
  have hbounded : ∀ {amount : ℤ} {failure : Failure}, (if amount < 0 ∨ (uint256Max : ℤ) < amount then
      .error failure else .ok amount.toNat : Except Failure ℕ) = .ok value → amount = value := by
    intro amount failure hok
    split_ifs at hok with hrange
    obtain rfl := Except.ok.inj hok
    exact (Int.toNat_of_nonneg (not_lt.mp (not_or.mp hrange).1)).symm
  unfold requestValue
  rcases hmember : transactionMember args "value" with _ | v
  · rw [hmember] at h
    obtain rfl := Except.ok.inj h
    rfl
  · rw [hmember, Option.getD_some] at h
    rcases v with _ | b | n | x | text | items | members
    all_goals dsimp only [parseValue] at h ⊢
    · exact nomatch h
    · exact nomatch h
    · rw [hbounded h]
    · exact nomatch h
    · split at h
      · rename_i digits hdigits
        rw [hexQuantity?_digits hdigits, hbounded h]
      · exact nomatch h
    · exact nomatch h
    · exact nomatch h

theorem acceptedCall_readFrom {env : Env} {args : Json} {call : AcceptedCall}
    (h : acceptedCall env args = .ok call) : ReadFrom args call := by
  have hread := acceptedCall_read h
  exact {
    chainId := normalizeChainId_ok hread.chainId
    sender := normalizeAddress_ok hread.sender
    address := normalizeAddress_ok hread.address
    calldata := parseCalldata_digits hread.calldata
    value := parseValue_ok hread.value
    descriptor := (validateDescriptor_ok hread.descriptor).1 }

/-- Two requests are for the same call when the parts of their calls agree. -/
theorem sameCall_iff {args args' : Json} {call call' : AcceptedCall} (h : ReadFrom args call)
    (h' : ReadFrom args' call') : SameCall args args' ↔ (call.chainId = call'.chainId ∧ call.sender = call'.sender ∧
      call.address = call'.address ∧ call.calldata = call'.calldata ∧ call.value = call'.value) ∧
        Json.Same call.descriptor.raw call'.descriptor.raw := by
  constructor
  · rintro ⟨hchain, hsender, haddress, hcalldata, hvalue, d, d', hd, hd', hsame⟩
    rw [h.chainId, h'.chainId, Option.some.injEq, Json.int.injEq] at hchain
    rw [h.sender, h'.sender, Option.some.injEq] at hsender
    rw [h.address, h'.address, Option.some.injEq] at haddress
    rw [h.calldata, h'.calldata, Option.some.injEq] at hcalldata
    rw [h.value, h'.value, Option.some.injEq, Int.ofNat_inj] at hvalue
    rw [h.descriptor, Option.some.injEq] at hd
    rw [h'.descriptor, Option.some.injEq] at hd'
    exact ⟨⟨hchain, hsender, haddress, hcalldata, hvalue⟩, hd ▸ hd' ▸ hsame⟩
  · rintro ⟨⟨hchain, hsender, haddress, hcalldata, hvalue⟩, hsame⟩
    refine ⟨?_, ?_, ?_, ?_, ?_, _, _, h.descriptor, h'.descriptor, hsame⟩
    · rw [h.chainId, h'.chainId, hchain]
    · rw [h.sender, h'.sender, hsender]
    · rw [h.address, h'.address, haddress]
    · rw [h.calldata, h'.calldata, hcalldata]
    · rw [h.value, h'.value, hvalue]

/-! ## The fingerprint -/

/-- Two requests of the service's own shape are the same when their parts are. -/
theorem same_normalizedRequest (call call' : AcceptedCall) :
    Json.Same (normalizedRequest call) (normalizedRequest call') ↔
      (call.chainId = call'.chainId ∧ call.sender = call'.sender ∧ call.address = call'.address ∧
        call.calldata = call'.calldata ∧ call.value = call'.value) ∧
          Json.Same call.descriptor.raw call'.descriptor.raw := by
  simp (disch := simp) only [normalizedRequest, Json.same_obj_cons_iff, iff_true_intro Json.same_obj_nil,
    Json.same_int_iff, Json.same_str_iff, append_left_cancel_iff, hexText_injective.eq_iff, natHex_injective.eq_iff,
    and_true]

/-- The request has no object that repeats a key. -/
theorem wellFormed_normalizedRequest {args : Json} {call : AcceptedCall} (hargs : Json.WellFormed args)
    (h : ReadFrom args call) : Json.WellFormed (normalizedRequest call) := by
  have hraw : Json.WellFormed call.descriptor.raw := by
    cases hargs with
    | obj hkeys hmembers =>
      exact hmembers ("descriptor", _) ((Json.lookup_eq_some_iff hkeys).mp h.descriptor)
    | _ => exact nomatch h.descriptor
  refine .obj (by simp) fun m hm => ?_
  rcases List.mem_pair.mp hm with rfl | rfl
  · refine .obj (by simp) fun m hm => ?_
    simp only [List.mem_cons, List.not_mem_nil, or_false] at hm
    rcases hm with rfl | rfl | rfl | rfl | rfl
    · exact .int _
    all_goals exact .str _
  · exact hraw

theorem canonicalJson_ok {value : Json} {bytes : Bytes} (h : canonicalJson value = .ok bytes) :
    ∃ chars, Json.dumps false true value = some chars ∧ bytes = utf8Chars chars := by
  unfold canonicalJson at h
  split at h
  · exact nomatch h
  · rename_i chars hchars
    exact ⟨chars, hchars, (Except.ok.inj h).symm⟩

/-- The digest tells apart what the two values render to. -/
def NoCollision (env : Env) (value value' : Json) : Prop :=
  ∀ bytes bytes', canonicalJson value = .ok bytes → canonicalJson value' = .ok bytes' →
    env.sha256 bytes = env.sha256 bytes' → bytes = bytes'

/-- What is the same is hashed as the same bytes. -/
theorem noCollision_of_same {env : Env} {value value' : Json} (hv : Json.WellFormed value)
    (hv' : Json.WellFormed value') (h : Json.Same value value') : NoCollision env value value' := by
  intro bytes bytes' hbytes hbytes' _
  obtain ⟨chars, hchars, rfl⟩ := canonicalJson_ok hbytes
  obtain ⟨chars', hchars', rfl⟩ := canonicalJson_ok hbytes'
  rw [(Json.dumps_eq_iff hv hv' hchars hchars').mpr h]

/-- Well-formed values have the same fingerprint exactly when they are the same. -/
theorem fingerprint_eq_iff {env : Env} {value value' : Json} (hv : Json.WellFormed value)
    (hv' : Json.WellFormed value') (hfree : NoCollision env value value') {digest digest' : String}
    (h : fingerprint env value = .ok digest) (h' : fingerprint env value' = .ok digest') :
    digest = digest' ↔ Json.Same value value' := by
  obtain ⟨bytes, hbytes, h⟩ := bind_eq_ok.mp h
  obtain ⟨bytes', hbytes', h'⟩ := bind_eq_ok.mp h'
  obtain rfl := pure_eq_ok.mp h
  obtain rfl := pure_eq_ok.mp h'
  have hsha : env.sha256 bytes = env.sha256 bytes' ↔ bytes = bytes' :=
    ⟨hfree bytes bytes' hbytes hbytes', congrArg env.sha256⟩
  obtain ⟨chars, hchars, rfl⟩ := canonicalJson_ok hbytes
  obtain ⟨chars', hchars', rfl⟩ := canonicalJson_ok hbytes'
  rw [append_left_cancel_iff, hexText_injective.eq_iff, hsha, utf8Chars_injective.eq_iff,
    Json.dumps_eq_iff hv hv' hchars hchars']

theorem assessCall_fingerprint {env : Env} {call : AcceptedCall} {r : PreflightResult}
    (h : assessCall env call = .ok r) : fingerprint env (normalizedRequest call) = .ok r.callFingerprint := by
  unfold assessCall at h
  obtain ⟨audit, -, h⟩ := bind_eq_ok.mp h
  obtain ⟨comprehension, -, h⟩ := bind_eq_ok.mp h
  obtain ⟨digest, hdigest, h⟩ := bind_eq_ok.mp h
  cases h
  exact hdigest

theorem preflightTransaction_readFrom {env : Env} {args : Json} {r : PreflightResult}
    (h : preflightTransaction env args = .ok r) :
    ReadFrom args r.call ∧ fingerprint env (normalizedRequest r.call) = .ok r.callFingerprint := by
  obtain ⟨call, hcall, h⟩ := bind_eq_ok.mp h
  obtain ⟨rfl, -⟩ := assessCall_ok h
  exact ⟨acceptedCall_readFrom hcall, assessCall_fingerprint h⟩

/-- **The call fingerprint**: accepted requests have the same one exactly when they are for the same call. -/
theorem callFingerprint_eq_iff {env : Env} {args args' : Json} (hargs : Json.WellFormed args)
    (hargs' : Json.WellFormed args') {r r' : PreflightResult} (h : preflightTransaction env args = .ok r)
    (h' : preflightTransaction env args' = .ok r')
    (hfree : NoCollision env (normalizedRequest r.call) (normalizedRequest r'.call)) :
    r.callFingerprint = r'.callFingerprint ↔ SameCall args args' := by
  obtain ⟨hread, hdigest⟩ := preflightTransaction_readFrom h
  obtain ⟨hread', hdigest'⟩ := preflightTransaction_readFrom h'
  rw [fingerprint_eq_iff (wellFormed_normalizedRequest hargs hread) (wellFormed_normalizedRequest hargs' hread') hfree
    hdigest hdigest', same_normalizedRequest, sameCall_iff hread hread']

/-- The transfer again: other letter case, members in another order, the value as an integer. -/
def respelledRequest : Json :=
  .obj [("descriptor", (transferRequest.get? "descriptor").getD .null),
    ("transaction", .obj [("value", .int 0), ("data", .str ("0xA9059CBB" ++
      "0000000000000000000000003333333333333333333333333333333333333333" ++
      "00000000000000000000000000000000000000000000000000000000000003E8")),
      ("to", .str "0x2222222222222222222222222222222222222222"), ("chain_id", .int 1),
      ("from", .str "0x1111111111111111111111111111111111111111")])]

theorem callFingerprint_eq_iff_respelled : ∃ r r', preflightTransaction (demoEnv transferDigest) transferRequest = .ok r ∧
    preflightTransaction (demoEnv transferDigest) respelledRequest = .ok r' ∧ r.callFingerprint = r'.callFingerprint := by
  have hanswer : answers (fun _ => true) (preflightTransaction (demoEnv transferDigest) transferRequest) = true := by
    decide +kernel
  have hanswer' : answers (fun _ => true) (preflightTransaction (demoEnv transferDigest) respelledRequest) = true := by
    decide +kernel
  obtain ⟨r, hr, -⟩ := exists_of_answers hanswer
  obtain ⟨r', hr', -⟩ := exists_of_answers hanswer'
  have hsame : Json.Same ((transferRequest.get? "descriptor").getD .null)
      ((respelledRequest.get? "descriptor").getD .null) := by
    have hread : ∀ x y : PyFloat,
        Json.textOnly x.text.toList = Json.textOnly y.text.toList ↔ x.text = y.text := by simp [Json.textOnly]
    exact (Json.arrange_eq_iff hread (Json.wellFormed_of_plain _ (by decide +kernel))
      (Json.wellFormed_of_plain _ (by decide +kernel))).mp rfl
  have hcall : SameCall transferRequest respelledRequest :=
    ⟨rfl, rfl, rfl, by decide +kernel, rfl, _, _, rfl, rfl, hsame⟩
  have hargs : Json.WellFormed transferRequest := Json.wellFormed_of_plain _ (by decide +kernel)
  have hargs' : Json.WellFormed respelledRequest := Json.wellFormed_of_plain _ (by decide +kernel)
  have hread := (preflightTransaction_readFrom hr).1
  have hread' := (preflightTransaction_readFrom hr').1
  have hfree := @noCollision_of_same (demoEnv transferDigest) _ _ (wellFormed_normalizedRequest hargs hread)
    (wellFormed_normalizedRequest hargs' hread')
    ((same_normalizedRequest _ _).mpr ((sameCall_iff hread hread').mp hcall))
  exact ⟨r, r', hr, hr', (callFingerprint_eq_iff hargs hargs' hr hr' hfree).mpr hcall⟩

end Lucent.Preflight
