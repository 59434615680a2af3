import Lucent.Hosted.StepCases
import Lucent.Lib.SameJson

/-!
# Lucent.Hosted.Outcome — what is stored of a settlement

* `getHeader_updateHeaders`: what a dictionary of headers gives for a name.
* `Proves`: the internal header is among the headers, with one proof only.
* `settlementOutcome_proves`: what is stored of a settlement holds the proof of its payment.
* `settlement_loads`: the answer to a settlement and what is stored of it are one document.
* `checkProof_eq_ok_iff`: a replay of a stored proof asks for the header that has it.
-/

namespace Lucent.Hosted

open Lucent.Lib Lucent.Access Lucent.Payments

/-! ## Headers -/

theorem getHeader_setHeader_self (name value : String) (headers : Headers) :
    getHeader name (setHeader name value headers) = some value := by
  unfold getHeader
  induction headers with
  | nil => simp [setHeader]
  | cons first rest ih =>
    unfold setHeader
    split_ifs with hname
    · simp
    · rw [List.find?_cons_of_neg (by simpa using hname)]
      exact ih

theorem getHeader_setHeader_of_ne {name name' : String} (h : name' ≠ name) (value : String) (headers : Headers) :
    getHeader name (setHeader name' value headers) = getHeader name headers := by
  have hne : (name' == name) = false := by simpa using h
  unfold getHeader
  induction headers with
  | nil => simp [setHeader, h]
  | cons first rest ih =>
    obtain ⟨n, v⟩ := first
    unfold setHeader
    split_ifs with hname
    · rw [hname, List.find?_cons, List.find?_cons, hne]
    · rw [List.find?_cons, List.find?_cons]
      rcases hfirst : n == name with _ | _
      · exact ih
      · rfl

/-- A header that is set to one value only. -/
theorem getHeader_updateHeaders {name value : String} {headers others : Headers}
    (hall : ∀ h ∈ others, h.1 = name → h.2 = value)
    (hex : getHeader name headers = some value ∨ ∃ h ∈ others, h.1 = name) :
    getHeader name (updateHeaders headers others) = some value := by
  induction others generalizing headers with
  | nil => exact hex.resolve_right fun ⟨_, hmem, _⟩ => absurd hmem List.not_mem_nil
  | cons first rest ih =>
    refine @ih (setHeader first.1 first.2 headers) (fun h hmem => hall h (List.mem_cons_of_mem _ hmem)) ?_
    by_cases hname : first.1 = name
    · rw [← hall first List.mem_cons_self hname, ← hname]
      exact .inl (getHeader_setHeader_self ..)
    · rw [getHeader_setHeader_of_ne hname]
      refine hex.imp_right fun ⟨h, hmem, heq⟩ => ?_
      rcases List.mem_cons.mp hmem with rfl | hmem
      · exact absurd heq hname
      · exact ⟨h, hmem, heq⟩

theorem mem_updateHeaders {headers others : Headers} {h : String × String} (hmem : h ∈ updateHeaders headers others) :
    h ∈ headers ∨ h ∈ others := by
  induction others generalizing headers with
  | nil => exact .inl hmem
  | cons first rest ih =>
    rcases @ih (setHeader first.1 first.2 headers) hmem with hmem | hmem
    · rcases mem_setHeader hmem with rfl | hmem
      · exact .inr List.mem_cons_self
      · exact .inl hmem
    · exact .inr (List.mem_cons_of_mem _ hmem)

theorem exists_of_getHeader {name value : String} {headers : Headers} (h : getHeader name headers = some value) :
    ∃ header ∈ headers, header.1 = name := by
  obtain ⟨header, hfind, -⟩ := Option.map_eq_some_iff.mp h
  exact ⟨header, List.mem_of_find?_eq_some hfind, by simpa using List.find?_some hfind⟩

/-! ## Proofs -/

/-- The internal header is there, with this proof only. -/
structure Proves (proof : String) (headers : Headers) : Prop where
  found : ∃ h ∈ headers, h.1 = cachedPaymentProofHeader
  only : ∀ h ∈ headers, h.1 = cachedPaymentProofHeader → h.2 = proof

theorem Proves.getHeader {proof : String} {headers : Headers} (h : Proves proof headers) :
    getHeader cachedPaymentProofHeader (updateHeaders [] headers) = some proof :=
  getHeader_updateHeaders h.only (.inr h.found)

theorem settledHeaders_proof (receipt : PaymentReceipt) (proof : String) :
    setHeader cachedPaymentProofHeader proof (settledHeaders receipt) =
      [("X-Lucent-Access", "x402"), (paymentResponseHeader, receipt.responseHeader),
        ("Content-Type", "application/json"), (cachedPaymentProofHeader, proof)] := by
  have h1 : ("X-Lucent-Access" : String) ≠ cachedPaymentProofHeader := by decide
  have h2 : paymentResponseHeader ≠ cachedPaymentProofHeader := by decide
  have h3 : ("Content-Type" : String) ≠ cachedPaymentProofHeader := by decide
  rw [settledHeaders, setHeader, if_neg h1, setHeader, if_neg h2, setHeader, if_neg h3, setHeader]

section Outcome

variable {env : Env} {task : Task} {body : Bytes} {paid : Paid} {answer : FacilitatorAnswer SettleResponse}
  {outcome : IdempotencyResponse}

/-- What is stored of a settlement holds the proof of the payment. -/
theorem settlementOutcome_proves (h : settlementOutcome env task body paid answer = .ok outcome) :
    Proves paid.payment.proofFingerprint outcome.headers := by
  unfold settlementOutcome at h
  split at h
  · next e _ =>
    obtain ⟨-, -, hheaders⟩ := IdempotencyResponse.fromParts_eq_ok_iff.mp h
    rw [hheaders]
    have hhidden := hides_paymentFailureHeaders env e
    refine ⟨exists_of_getHeader (getHeader_updateHeaders (fun h hmem heq => absurd heq (hhidden h hmem))
      (.inl (getHeader_setHeader_self _ paid.payment.proofFingerprint [("Content-Type", _)]))), fun h hmem heq => ?_⟩
    rcases mem_updateHeaders hmem with hmem | hmem
    · simp only [List.mem_cons, List.not_mem_nil, or_false] at hmem
      rcases hmem with rfl | rfl
      · exact absurd heq (by decide)
      · rfl
    · exact absurd heq (hhidden h hmem)
  · next receipt _ =>
    obtain ⟨-, -, hheaders⟩ := IdempotencyResponse.fromParts_eq_ok_iff.mp h
    rw [hheaders, settledHeaders_proof]
    refine ⟨⟨(cachedPaymentProofHeader, paid.payment.proofFingerprint), by simp, rfl⟩, fun h hmem heq => ?_⟩
    simp only [List.mem_cons, List.not_mem_nil, or_false] at hmem
    rcases hmem with rfl | rfl | rfl | rfl
    · exact absurd heq (by decide)
    · exact absurd heq (by decide : paymentResponseHeader ≠ cachedPaymentProofHeader)
    · exact absurd heq (by decide)
    · rfl

/-- The step after a settlement. -/
theorem step_settleAnswer {s : Runtime} {id : ℕ} (hphase : s.phase id = .settling task body paid) {signature : String}
    {reservation : Reservation ℚ} (hroute : task.route = .x402 signature reservation) (now : ℚ) :
    step env s ⟨id, now, .settleAnswer answer⟩ = commitOutcome env s id now task reservation
      (settlementOutcome env task body paid answer) (settlementResponse env task body paid answer) := by
  rcases hreceipt : receiptOf env.x402 env.settings.payment paid.payment answer with e | receipt
  · simp only [step, hphase, settleAnswer, hroute, settlementOutcome, settlementResponse, hreceipt]
  · simp only [step, hphase, settleAnswer, hroute, settlementOutcome, settlementResponse, hreceipt]

/-! ## Documents -/

/-- A small number can be rendered. -/
theorem dumpable_status {status : ℕ} (h : status ≤ 599) : Json.Dumpable (.int status) := by
  have hdigits : (status : ℤ).natAbs.repr.length ≤ 4300 :=
    ((Nat.length_repr_le_iff (by decide)).mpr (by omega : (status : ℤ).natAbs < 10 ^ 3)).trans (by decide)
  intro ascii sort
  rw [Json.dumps, Json.dumpsInt, if_pos hdigits]
  rfl

/-- A problem document is read back as it was rendered. -/
theorem loads_problemMembers (readFloat : List Char → PyFloat) (ascii : Bool) {e : PaymentError}
    (hstatus : e.status ≤ 599) (requestId : String) :
    Json.loads readFloat (renderJson ascii
        (.obj (problemMembers ⟨e.code, paymentTitle e, e.status, e.message, none, []⟩ requestId))) =
      some (.obj (problemMembers ⟨e.code, paymentTitle e, e.status, e.message, none, []⟩ requestId)) := by
  have hwf : Json.WellFormed (.obj (problemMembers ⟨e.code, paymentTitle e, e.status, e.message, none, []⟩ requestId)) :=
    Json.wellFormed_of_plain _ (by rfl)
  have hdump : Json.Dumpable (.obj (problemMembers ⟨e.code, paymentTitle e, e.status, e.message, none, []⟩ requestId)) := by
    refine Json.Dumpable.obj fun m hm => ?_
    simp only [problemMembers, List.mem_cons, List.not_mem_nil, or_false] at hm
    rcases hm with rfl | rfl | rfl | rfl | rfl | rfl
    · exact fun _ _ => rfl
    · exact fun _ _ => rfl
    · exact dumpable_status hstatus
    · exact fun _ _ => rfl
    · exact fun _ _ => rfl
    · exact fun _ _ => rfl
  obtain ⟨t, ht⟩ := Option.isSome_iff_exists.mp (hdump ascii false)
  rw [renderJson, ht, Option.getD_some, Json.loads_dumps hwf ht]
  rfl

/-- **One document**: the answer to a settlement and what is stored of it have one status and are read as one object. -/
theorem settlement_loads (hbody : ∃ members, Json.loads env.readFloat body = some (.obj members))
    (h : settlementOutcome env task body paid answer = .ok outcome) :
    (settlementResponse env task body paid answer).statusCode = outcome.statusCode ∧
      ∃ members, Json.loads env.readFloat (settlementResponse env task body paid answer).body = some (.obj members) ∧
        Json.loads env.readFloat outcome.body = some (.obj members) := by
  unfold settlementResponse
  unfold settlementOutcome at h
  split at h
  · next e hreceipt =>
    obtain ⟨hstatus, hstored, -⟩ := IdempotencyResponse.fromParts_eq_ok_iff.mp h
    have hrange : e.status ≤ 599 := by
      have hle := outcome.status_range.2
      rw [hstatus] at hle
      omega
    rw [hstatus, hstored]
    exact ⟨rfl, _, loads_problemMembers env.readFloat false hrange task.request.requestId,
      loads_problemMembers env.readFloat true hrange task.request.requestId⟩
  · next receipt hreceipt =>
    obtain ⟨hstatus, hstored, -⟩ := IdempotencyResponse.fromParts_eq_ok_iff.mp h
    obtain ⟨members, hmembers⟩ := hbody
    rw [hstatus, hstored]
    exact ⟨rfl, members, hmembers, hmembers⟩

end Outcome

/-! ## Replays -/

/-- A replay takes from a stored body what is read of it. -/
theorem replayBody_congr {readFloat : List Char → PyFloat} {body body' : Bytes}
    (h : Json.loads readFloat body = Json.loads readFloat body') (requestId : String) :
    replayBody readFloat requestId body = replayBody readFloat requestId body' := by
  rw [replayBody, h, replayBody]

/-- A stored object can be sent again. -/
theorem replayBody_eq_some {readFloat : List Char → PyFloat} {body : Bytes} {members : List (String × Json)}
    (h : Json.loads readFloat body = some (.obj members)) (requestId : String) :
    ∃ replayed, replayBody readFloat requestId body = some replayed := by
  have hmembers := (Json.loads_dumpable h).member
  have hid : Json.Dumpable (.str requestId) := fun _ _ => rfl
  have hdump := Json.Dumpable.obj (@Json.dumpable_setMember "request_id" _ _ hid hmembers)
  obtain ⟨t, ht⟩ := Option.isSome_iff_exists.mp (hdump false false)
  refine ⟨utf8Chars t, ?_⟩
  simp only [replayBody, h, ht, Option.map_some]

/-- The check of a stored proof. -/
theorem checkProof_eq_ok_iff {sha256 : Bytes → Bytes} {expected paymentSignature : String} :
    checkProof sha256 (some expected) (some paymentSignature) = .ok () ↔
      isAscii paymentSignature = true ∧ proofFingerprint sha256 paymentSignature = expected := by
  unfold checkProof assertReplayProof
  rw [rejectIf_bind_eq_ok, rejectIf_eq_ok]
  simp

end Lucent.Hosted
