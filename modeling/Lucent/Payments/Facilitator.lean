import Lucent.Lib.JsonTree
import Lucent.Lib.RoundTrip
import Lucent.Payments.Authorization

/-!
# Lucent.Payments.Facilitator — the facilitator client of `lucent/payments.py`

`UrllibFacilitatorClient` posts a payment to the facilitator and reads a bounded JSON object back.  `connect` makes it
the facilitator of a gateway, with what the network answers to a request as an argument.

* `connect_declines`: what the client raises has the status of an HTTP error.
* `post_returned_iff`: the client returns a document exactly when the facilitator delivers it (`Delivers`).
* `Delivers.of_text`: a facilitator that answers with a text of a document within the bounds delivers it.
* `connected_exact`: a gateway connected to a facilitator accepts a payment that passes (`Passes`), and issues a receipt
  for it, exactly on a delivered document that says so.
* Documents are Unicode.  `json.loads` also reads a text that names a surrogate alone; `FacilitatorNetwork` leaves out
  the networks that answer with one.
-/

namespace Lucent.Payments

open Lucent.Lib

/-! ## The client -/

def maxFacilitatorResponseBytes : ℕ := 256 * 1024
def maxFacilitatorJsonDepth : ℕ := 32
def maxFacilitatorJsonNodes : ℕ := 20000
def maxFacilitatorJsonString : ℕ := 64 * 1024

/-- A request of the client. -/
structure FacilitatorRequest where
  method : String
  url : String
  headers : List (String × String)
  data : Bytes
deriving DecidableEq

/-- What a request leads to: an exception the client catches, another one, or an answer with status 2xx. -/
inductive FacilitatorReply
  | unavailable
  | exception
  /-- The value of `Content-Length`, and the stream of the body, which may not be readable. -/
  | answered (contentLength : Option String) (body : Option Bytes)

/-- No byte order mark and no zero byte at the start, so that `json.detect_encoding` finds UTF-8. -/
def plainUtf8 : Bytes → Bool
  | a :: b :: rest =>
    !((a, b) = (0xFE, 0xFF) || (a, b) = (0xFF, 0xFE) || (a, b, rest.head?) = (0xEF, 0xBB, some 0xBF) ||
      (a = 0 || b = 0))
  | _ => true

/-- What the client calls outside the repository. -/
structure FacilitatorCodec where
  readFloat : List Char → PyFloat
  /-- `math.isfinite`. -/
  isFinite : PyFloat → Bool
  /-- `int(text)`, `none` for a `ValueError`. -/
  parseInt : String → Option ℤ
  /-- The body in UTF-8, from the encoding `json.detect_encoding` finds. -/
  transcode : Bytes → Option Bytes
  transcode_plain : ∀ bytes, plainUtf8 bytes = true → transcode bytes = some bytes
  /-- `model_dump(by_alias=True, exclude_none=True)`. -/
  dumpPayload : PaymentPayload → Json
  dumpRequirements : PaymentRequirements → Json
  /-- `model_validate`, `none` for a `ValidationError`. -/
  verifyResponse : Json → Option VerifyResponse
  settleResponse : Json → Option SettleResponse

/-- What the network answers to the requests of the client: no body names a surrogate alone. -/
structure FacilitatorNetwork (codec : FacilitatorCodec) where
  reply : FacilitatorRequest → FacilitatorReply
  unicode : ∀ request contentLength body bytes, reply request = .answered contentLength (some body) →
    codec.transcode body = some bytes → Json.namesSurrogate bytes = false

/-- `UrllibFacilitatorClient`, as it is constructed. -/
structure UrllibFacilitatorClient where
  url : String
  bearerToken : Option String

/-- `text.rstrip("/")`. -/
def rstripSlash (text : String) : String := String.ofList (text.toList.reverse.dropWhile (· == '/')).reverse

/-- The request of `_post`; `none` where its body cannot be rendered. -/
def postRequest (codec : FacilitatorCodec) (client : UrllibFacilitatorClient) (operation : String)
    (payload : PaymentPayload) (requirements : PaymentRequirements) : Option FacilitatorRequest := do
  let body ← Json.dumps true false (.obj [("x402Version", .int 2), ("paymentPayload", codec.dumpPayload payload),
    ("paymentRequirements", codec.dumpRequirements requirements)])
  return {
    method := "POST"
    url := rstripSlash client.url ++ "/" ++ operation
    headers := [("Content-Type", "application/json"), ("Accept", "application/json"),
      ("User-Agent", "lucent-x402/0.2.1")] ++
      (client.bearerToken.map (fun token => ("Authorization", "Bearer " ++ token))).toList
    data := utf8Chars body }

/-- The check of one item in `_validate_facilitator_json`. -/
def facilitatorItem (codec : FacilitatorCodec) : Json → Bool
  | .str s => decide (s.length ≤ maxFacilitatorJsonString)
  | .float x => codec.isFinite x
  | _ => true

/-- `_validate_facilitator_json`; the stack is a list whose head is on top. -/
def validateFacilitatorJson (codec : FacilitatorCodec) (value : Json) : Bool :=
  walk (facilitatorItem codec) (fun v => (v.children false).reverse) maxFacilitatorJsonDepth maxFacilitatorJsonNodes
    [(value, 0)]

def responseTooLarge : PaymentError := invalidResponse "payment facilitator response was too large" true false

def temporarilyUnavailable : PaymentError :=
  facilitatorUnavailable "payment facilitator is temporarily unavailable" true false

def invalidJson : PaymentError := invalidResponse "payment facilitator returned invalid JSON" true false

/-- The check of the declared length. -/
def checkDeclared (codec : FacilitatorCodec) : Option String → Except PaymentError Unit
  | none => .ok ()
  | some text =>
    if text.isEmpty then .ok ()
    else match codec.parseInt text with
      | none => .error temporarilyUnavailable
      | some n => rejectIf ((maxFacilitatorResponseBytes : ℤ) < n) responseTooLarge

def isDict : Json → Bool
  | .obj _ => true
  | _ => false

/-- What `_post` makes of an answer. -/
def readReply (codec : FacilitatorCodec) (contentLength : Option String) (body : Option Bytes) :
    Except PaymentError Json := do
  checkDeclared codec contentLength
  let stream ← body.elim (.error temporarilyUnavailable) .ok
  let raw := stream.take (maxFacilitatorResponseBytes + 1)
  rejectIf (maxFacilitatorResponseBytes < raw.length) responseTooLarge
  let parsed ← ((codec.transcode raw).bind (Json.loadsUnique codec.readFloat)).elim (.error invalidJson) .ok
  rejectIf (validateFacilitatorJson codec parsed = false) invalidJson
  rejectIf (isDict parsed = false) (invalidResponse "payment facilitator returned invalid data" true false)
  return parsed

section Client

variable (codec : FacilitatorCodec) (client : UrllibFacilitatorClient)
  (exchange : FacilitatorRequest → FacilitatorReply)

/-- `_post`. -/
def post (operation : String) (payload : PaymentPayload) (requirements : PaymentRequirements) :
    FacilitatorAnswer Json :=
  match postRequest codec client operation payload requirements with
  | none => .exception
  | some request =>
    match exchange request with
    | .unavailable => .paymentError temporarilyUnavailable
    | .exception => .exception
    | .answered contentLength body =>
      match readReply codec contentLength body with
      | .error e => .paymentError e
      | .ok document => .returned document

/-- A document as a response model. -/
def validated {α : Type} (model : Json → Option α) (message : String) : FacilitatorAnswer Json → FacilitatorAnswer α
  | .paymentError e => .paymentError e
  | .exception => .exception
  | .returned document =>
    match model document with
    | none => .paymentError (invalidResponse message true false)
    | some response => .returned response

/-- `UrllibFacilitatorClient.verify`. -/
def UrllibFacilitatorClient.verify (payload : PaymentPayload) (requirements : PaymentRequirements) :
    FacilitatorAnswer VerifyResponse :=
  validated codec.verifyResponse "payment verifier returned an invalid response"
    (post codec client exchange "verify" payload requirements)

/-- `UrllibFacilitatorClient.settle`. -/
def UrllibFacilitatorClient.settle (payload : PaymentPayload) (requirements : PaymentRequirements) :
    FacilitatorAnswer SettleResponse :=
  validated codec.settleResponse "payment settlement returned an invalid response"
    (post codec client exchange "settle" payload requirements)

/-- The facilitator of a gateway. -/
def connect : FacilitatorClient where
  verify := client.verify codec exchange
  settle := client.settle codec exchange

end Client

/-! ## What the client raises -/

theorem checkDeclared_declines (codec : FacilitatorCodec) (contentLength : Option String) :
    FailsWith PaymentError.Declines (checkDeclared codec contentLength) := by
  unfold checkDeclared
  split
  · exact .ok ()
  · split_ifs
    · exact .ok ()
    · split
      · exact .error (by decide)
      · exact .rejectIf (by decide)

theorem readReply_declines (codec : FacilitatorCodec) (contentLength : Option String) (body : Option Bytes) :
    FailsWith PaymentError.Declines (readReply codec contentLength body) := by
  refine .bind (checkDeclared_declines codec contentLength) fun _ => .bind (.elim (by decide) .ok) fun _ => ?_
  refine .bind (.rejectIf (by decide)) fun _ => .bind (.elim (by decide) .ok) fun _ => ?_
  exact .bind (.rejectIf (by decide)) fun _ => .bind (.rejectIf (by decide)) fun _ => .ok _

theorem post_declines (codec : FacilitatorCodec) (client : UrllibFacilitatorClient)
    (exchange : FacilitatorRequest → FacilitatorReply) (operation : String) (payload : PaymentPayload)
    (requirements : PaymentRequirements) : (post codec client exchange operation payload requirements).Declines := by
  unfold post
  split
  · trivial
  · split
    · exact (by decide : temporarilyUnavailable.Declines)
    · trivial
    · split
      · next h => exact readReply_declines codec _ _ _ h
      · trivial

theorem validated_declines {α : Type} (model : Json → Option α) (message : String) {answer : FacilitatorAnswer Json}
    (h : answer.Declines) : (validated model message answer).Declines := by
  rcases answer with e | _ | document
  · exact h
  · trivial
  · have hinvalid : 400 ≤ 502 ∧ 502 < 600 := by decide
    simp only [validated]
    rcases model document with _ | response
    · exact hinvalid
    · trivial

/-- **The client** raises `PaymentError`s with the status of an HTTP error only, whatever the network answers. -/
theorem connect_declines (codec : FacilitatorCodec) (client : UrllibFacilitatorClient)
    (exchange : FacilitatorRequest → FacilitatorReply) (payload : PaymentPayload) (requirements : PaymentRequirements) :
    ((connect codec client exchange).verify payload requirements).Declines ∧
      ((connect codec client exchange).settle payload requirements).Declines :=
  ⟨validated_declines _ _ (post_declines ..), validated_declines _ _ (post_declines ..)⟩

/-! ## What the client reads -/

variable {codec : FacilitatorCodec} {client : UrllibFacilitatorClient}
  {exchange : FacilitatorRequest → FacilitatorReply}

/-- An item the client accepts. -/
def Fine (codec : FacilitatorCodec) (item : Json) : Prop :=
  (∀ s, item = .str s → s.length ≤ maxFacilitatorJsonString) ∧ ∀ x, item = .float x → codec.isFinite x = true

/-- A document within the bounds of the client. -/
def WithinBounds (codec : FacilitatorCodec) (document : Json) : Prop :=
  document.Bounded false maxFacilitatorJsonNodes maxFacilitatorJsonDepth (Fine codec)

theorem facilitatorItem_iff {item : Json} : facilitatorItem codec item = true ↔ Fine codec item := by
  unfold facilitatorItem Fine
  cases item <;> simp

/-- **What the shape check accepts.** -/
theorem validateFacilitatorJson_iff {document : Json} :
    validateFacilitatorJson codec document = true ↔ WithinBounds codec document := by
  unfold validateFacilitatorJson
  rw [@Json.walk_bounded_iff false _ _ (fun v => List.reverse_perm _)]
  constructor
  · exact fun h => h.imp (fun item => facilitatorItem_iff.mp)
  · exact fun h => h.imp (fun item => facilitatorItem_iff.mpr)

/-- The declared length, where there is one, is within the limit. -/
def DeclaredWithin (codec : FacilitatorCodec) (contentLength : Option String) : Prop :=
  ∀ text, contentLength = some text → text ≠ "" →
    ∃ n, codec.parseInt text = some n ∧ n ≤ maxFacilitatorResponseBytes

/-- The reply delivers a document: an answer within the limit whose body is a JSON text of the document, which repeats
no key; the document is an object within the bounds. -/
structure Delivers (codec : FacilitatorCodec) (reply : FacilitatorReply) (document : Json) : Prop where
  answered : ∃ contentLength raw t, reply = .answered contentLength (some raw) ∧ DeclaredWithin codec contentLength ∧
    raw.length ≤ maxFacilitatorResponseBytes ∧ codec.transcode raw = some (utf8Chars t) ∧
    Json.Padded codec.readFloat document t
  within : WithinBounds codec document
  object : ∃ members, document = .obj members

theorem checkDeclared_eq_ok_iff {contentLength : Option String} {u : Unit} :
    checkDeclared codec contentLength = .ok u ↔ DeclaredWithin codec contentLength := by
  unfold checkDeclared DeclaredWithin
  cases contentLength with
  | none => simp
  | some text =>
    simp only [Option.some.injEq, forall_eq']
    by_cases hempty : text = ""
    · simp [hempty]
    · have hnot : text.isEmpty = false := by simpa [String.isEmpty_iff] using hempty
      rw [hnot]
      cases hparse : codec.parseInt text with
      | none => simp [hempty]
      | some n => simp [hempty, rejectIf_eq_ok]

theorem isDict_iff {v : Json} : isDict v = true ↔ ∃ members, v = .obj members := by
  unfold isDict
  cases v <;> simp

/-- Reading one byte more than the limit tells whether the stream is longer. -/
theorem take_within_iff {stream raw : Bytes} {limit : ℕ} :
    (stream.take (limit + 1) = raw ∧ ¬ limit < raw.length) ↔ (stream = raw ∧ raw.length ≤ limit) := by
  constructor
  · rintro ⟨rfl, hle⟩
    rw [List.length_take] at hle ⊢
    have hshort : stream.length ≤ limit + 1 := by omega
    exact ⟨(List.take_of_length_le hshort).symm, by omega⟩
  · rintro ⟨rfl, hle⟩
    exact ⟨List.take_of_length_le (by omega), by omega⟩

theorem transcoded_iff {raw : Bytes} {document : Json} :
    (codec.transcode raw).bind (Json.loadsUnique codec.readFloat) = some document ↔
      ∃ t, codec.transcode raw = some (utf8Chars t) ∧ Json.Padded codec.readFloat document t := by
  rw [Option.bind_eq_some_iff]
  simp only [Json.loadsUnique_eq_some_iff]
  constructor
  · rintro ⟨bytes, hbytes, t, ht, rfl⟩
    exact ⟨t, hbytes, ht⟩
  · rintro ⟨t, hbytes, ht⟩
    exact ⟨_, hbytes, t, ht, rfl⟩

theorem readReply_eq_ok_iff {contentLength : Option String} {body : Option Bytes} {document : Json} :
    readReply codec contentLength body = .ok document ↔
      Delivers codec (.answered contentLength body) document := by
  unfold readReply
  simp only [bind_eq_ok, elim_ok_eq_ok, rejectIf_eq_ok, pure_eq_ok, Bool.not_eq_false, validateFacilitatorJson_iff,
    isDict_iff, checkDeclared_eq_ok_iff, transcoded_iff]
  constructor
  · rintro ⟨_, hdeclared, stream, rfl, _, hshort, parsed, ⟨t, hbytes, ht⟩, _, hwithin, _, hobject, rfl⟩
    obtain ⟨hraw, hle⟩ := take_within_iff.mp ⟨rfl, hshort⟩
    refine ⟨⟨contentLength, stream, t, rfl, hdeclared, ?_, ?_, ht⟩, hwithin, hobject⟩
    · rwa [hraw]
    · rwa [← hraw] at hbytes
  · rintro ⟨⟨_, raw, t, heq, hdeclared, hle, hbytes, ht⟩, hwithin, hobject⟩
    cases heq
    obtain ⟨htake, hshort⟩ := take_within_iff.mpr ⟨rfl, hle⟩
    refine ⟨(), hdeclared, raw, rfl, (), ?_, document, ⟨t, ?_, ht⟩, (), hwithin, (), hobject, rfl⟩
    · rwa [htake]
    · rwa [htake]

/-- **What the client returns**: the document that the facilitator delivers. -/
theorem post_returned_iff {operation : String} {payload : PaymentPayload} {requirements : PaymentRequirements}
    {document : Json} : post codec client exchange operation payload requirements = .returned document ↔
      ∃ request, postRequest codec client operation payload requirements = some request ∧
        Delivers codec (exchange request) document := by
  unfold post
  cases hrequest : postRequest codec client operation payload requirements with
  | none => simp
  | some request =>
    simp only [Option.some.injEq, exists_eq_left']
    cases hreply : exchange request with
    | unavailable =>
      refine iff_of_false (by simp) ?_
      rintro ⟨⟨_, _, _, heq, -⟩, -⟩
      cases heq
    | exception =>
      refine iff_of_false (by simp) ?_
      rintro ⟨⟨_, _, _, heq, -⟩, -⟩
      cases heq
    | answered contentLength body =>
      rw [← readReply_eq_ok_iff]
      cases hread : readReply codec contentLength body with
      | error e => simp [hread]
      | ok v => simp [hread]

theorem validated_returned_iff {α : Type} {model : Json → Option α} {message : String}
    {answer : FacilitatorAnswer Json} {response : α} :
    validated model message answer = .returned response ↔
      ∃ document, answer = .returned document ∧ model document = some response := by
  cases answer with
  | paymentError e => simp [validated]
  | exception => simp [validated]
  | returned document =>
    cases hmodel : model document with
    | none => simp [validated, hmodel]
    | some v => simp [validated, hmodel]

/-! ## Documents as they are written -/

/-- The first two characters of an object's text are a brace, blanks or quotes. -/
theorem object_head {members : List (String × Json)} {t : List Char}
    (h : Json.Padded codec.readFloat (.obj members) t) :
    ∃ c d rest, t = c :: d :: rest ∧ (Json.isBlank c = true ∨ c = '\x7b') ∧
      (Json.isBlank d = true ∨ d = '\x7b' ∨ d = '\x7d' ∨ d = '"') := by
  have hbare : ∀ {t}, Json.Bare codec.readFloat (.obj members) t → ∃ d rest, t = '\x7b' :: d :: rest ∧
      (Json.isBlank d = true ∨ d = '\x7b' ∨ d = '\x7d' ∨ d = '"') := by
    intro t h
    cases h with
    | @emptyObj b hb =>
      cases b with
      | nil => exact ⟨_, _, rfl, .inr (.inr (.inl rfl))⟩
      | cons d b => exact ⟨d, _, rfl, .inl (hb d List.mem_cons_self)⟩
    | obj hmembers =>
      have hhead : ∀ {b rest : List Char}, Json.Blank b → ∃ d l, b ++ '"' :: rest = d :: l ∧
          (Json.isBlank d = true ∨ d = '"') := by
        intro b rest hb
        cases b with
        | nil => exact ⟨_, _, rfl, .inr rfl⟩
        | cons d b => exact ⟨d, _, rfl, .inl (hb d List.mem_cons_self)⟩
      cases hmembers with
      | one hb =>
        obtain ⟨d, l, hl, hd⟩ := hhead hb
        exact ⟨d, _, by rw [hl]; rfl, hd.imp_right fun hd => .inr (.inr hd)⟩
      | cons hb =>
        obtain ⟨d, l, hl, hd⟩ := hhead hb
        exact ⟨d, _, by rw [hl]; rfl, hd.imp_right fun hd => .inr (.inr hd)⟩
  cases h with
  | @intro b t b' _ hb ht =>
    obtain ⟨d, rest, rfl, hd⟩ := hbare ht
    rcases b with _ | ⟨c, _ | ⟨c', b⟩⟩
    · exact ⟨_, _, _, rfl, .inr rfl, hd⟩
    · exact ⟨_, _, _, rfl, .inl (hb c List.mem_cons_self), .inr (.inl rfl)⟩
    · exact ⟨_, _, _, rfl, .inl (hb c List.mem_cons_self), .inl (hb c' (by simp))⟩

/-- A text of an object is plain UTF-8. -/
theorem plainUtf8_object {members : List (String × Json)} {t : List Char}
    (h : Json.Padded codec.readFloat (.obj members) t) : plainUtf8 (utf8Chars t) = true := by
  obtain ⟨c, d, rest, rfl, hc, hd⟩ := object_head h
  have hbyte : ∀ c : Char, Json.isBlank c = true ∨ c = '\x7b' ∨ c = '\x7d' ∨ c = '"' →
      c = ' ' ∨ c = '\t' ∨ c = '\n' ∨ c = '\r' ∨ c = '\x7b' ∨ c = '\x7d' ∨ c = '"' := by
    intro c hc
    simpa [Json.isBlank, or_assoc] using hc
  rcases hbyte c (hc.imp_right .inl) with rfl | rfl | rfl | rfl | rfl | rfl | rfl <;>
    rcases hbyte d hd with rfl | rfl | rfl | rfl | rfl | rfl | rfl <;> rfl

/-- A facilitator that answers with a text of an object within the bounds delivers it, with or without a declared
length. -/
theorem Delivers.of_text {members : List (String × Json)} {t : List Char} {contentLength : Option String}
    (ht : Json.Padded codec.readFloat (.obj members) t) (hlength : (utf8Chars t).length ≤ maxFacilitatorResponseBytes)
    (hdeclared : DeclaredWithin codec contentLength) (hwithin : WithinBounds codec (.obj members)) :
    Delivers codec (.answered contentLength (some (utf8Chars t))) (.obj members) where
  answered := ⟨contentLength, utf8Chars t, t, rfl, hdeclared, hlength,
    codec.transcode_plain _ (plainUtf8_object ht), ht⟩
  within := hwithin
  object := ⟨members, rfl⟩

/-! ## A gateway and its facilitator -/

section Gateway

variable {sha256 : Bytes → Bytes} {x402 : X402} {cfg : PaymentConfig} {payment : VerifiedPayment}

/-- The answer says that the payment is good, and names no other payer. -/
structure Vouches (payment : VerifiedPayment) (verified : VerifyResponse) : Prop where
  valid : verified.isValid = true
  payer : ∀ payer, verified.payer = some payer → addressRe payer = true ∧ lowerAscii payer = lowerAscii payment.payer

/-- The receipt for a settlement. -/
def receiptFor (x402 : X402) (cfg : PaymentConfig) (payment : VerifiedPayment) (settled : SettleResponse) :
    PaymentReceipt where
  payer := settled.payer.getD payment.payer
  transaction := settled.transaction
  network := settled.network
  amount := settled.amount.getD cfg.amount
  responseHeader := x402.encodePaymentResponseHeader (settled.receipt cfg payment)
  proofFingerprint := payment.proofFingerprint

theorem payer_fine_iff {payer : Option String} {expected : String} :
    (¬ badPayer payer ∧ ¬ otherPayer payer expected) ↔
      ∀ p, payer = some p → addressRe p = true ∧ lowerAscii p = lowerAscii expected := by
  unfold badPayer otherPayer
  cases payer with
  | none => simp
  | some p => simp

theorem acceptVerification_returned_iff {verified : VerifyResponse} {accepted : VerifiedPayment} :
    acceptVerification payment (.returned verified) = .ok accepted ↔ accepted = payment ∧ Vouches payment verified := by
  unfold acceptVerification
  simp only [bind_eq_ok, rejectIf_eq_ok, pure_eq_ok, exists_const]
  constructor
  · rintro ⟨hvalid, hbad, hother, rfl⟩
    exact ⟨rfl, by simpa using hvalid, payer_fine_iff.mp ⟨hbad, hother⟩⟩
  · rintro ⟨rfl, hvalid, hpayer⟩
    obtain ⟨hbad, hother⟩ := payer_fine_iff.mpr hpayer
    exact ⟨by simpa using hvalid, hbad, hother, rfl⟩

theorem receiptOf_returned_iff {settled : SettleResponse} {receipt : PaymentReceipt} :
    receiptOf x402 cfg payment (.returned settled) = .ok receipt ↔ Settled cfg payment settled ∧
      encodedLength (x402.encodePaymentResponseHeader (settled.receipt cfg payment)) ≤ maxPaymentHeaderBytes ∧
      receipt = receiptFor x402 cfg payment settled := by
  constructor
  · intro h
    obtain ⟨settled', heq, hsettled⟩ := receiptOf_eq_ok h
    cases heq
    unfold receiptOf at h
    simp only [bind_eq_ok, rejectIf_eq_ok, pure_eq_ok, exists_const] at h
    obtain ⟨-, -, -, -, -, -, hlength, rfl⟩ := h
    exact ⟨hsettled, Nat.le_of_not_lt hlength, rfl⟩
  · rintro ⟨hsettled, hlength, rfl⟩
    obtain ⟨hbad, hother⟩ := payer_fine_iff.mpr hsettled.payer
    unfold receiptOf
    simp only [bind_eq_ok, rejectIf_eq_ok, pure_eq_ok, exists_const]
    refine ⟨by simpa using hsettled.success, by simpa using hsettled.network, ?_, by simpa using hsettled.transaction,
      hbad, hother, Nat.not_lt.mpr hlength, rfl⟩
    simpa [Option.any_eq_true] using hsettled.amount

/-- The facilitator behind the network answers an operation on a payment with a document. -/
def Answered (codec : FacilitatorCodec) (client : UrllibFacilitatorClient)
    (exchange : FacilitatorRequest → FacilitatorReply) (operation : String) (cfg : PaymentConfig)
    (payment : VerifiedPayment) (document : Json) : Prop :=
  ∃ request, postRequest codec client operation payment.payload cfg.requirements = some request ∧
    Delivers codec (exchange request) document

/-- An answer of the client is the model of a document that was delivered. -/
theorem validated_post_iff {α : Type} {model : Json → Option α} {message operation : String} {response : α} :
    validated model message (post codec client exchange operation payment.payload cfg.requirements) =
      .returned response ↔
      ∃ document, Answered codec client exchange operation cfg payment document ∧ model document = some response := by
  rw [validated_returned_iff]
  simp only [post_returned_iff, Answered]

theorem connect_verify_iff {signature : String} {identifier : Option String} {now : ℚ} :
    PaymentGateway.verify sha256 x402 cfg (connect codec client exchange) signature identifier now = .ok payment ↔
      checkPayment sha256 x402 cfg signature identifier now = .ok payment ∧
        ∃ document verified, Answered codec client exchange "verify" cfg payment document ∧
          codec.verifyResponse document = some verified ∧ Vouches payment verified := by
  unfold PaymentGateway.verify
  rw [bind_eq_ok]
  constructor
  · rintro ⟨checked, hcheck, haccept⟩
    obtain ⟨rfl, verified, hanswer, -⟩ := acceptVerification_eq_ok haccept
    rw [hanswer, acceptVerification_returned_iff] at haccept
    obtain ⟨document, hanswered, hmodel⟩ := validated_post_iff.mp hanswer
    exact ⟨hcheck, document, verified, hanswered, hmodel, haccept.2⟩
  · rintro ⟨hcheck, document, verified, hanswered, hmodel, hvouches⟩
    refine ⟨payment, hcheck, ?_⟩
    have hanswer : (connect codec client exchange).verify payment.payload cfg.requirements = .returned verified :=
      validated_post_iff.mpr ⟨document, hanswered, hmodel⟩
    rw [hanswer, acceptVerification_returned_iff]
    exact ⟨rfl, hvouches⟩

theorem connect_settle_iff {receipt : PaymentReceipt} :
    PaymentGateway.settle x402 cfg (connect codec client exchange) payment = .ok receipt ↔
      cfg.enabled = true ∧ ∃ document settled, Answered codec client exchange "settle" cfg payment document ∧
        codec.settleResponse document = some settled ∧ Settled cfg payment settled ∧
        encodedLength (x402.encodePaymentResponseHeader (settled.receipt cfg payment)) ≤ maxPaymentHeaderBytes ∧
        receipt = receiptFor x402 cfg payment settled := by
  have henabled : (¬ (!cfg.enabled) = true) ↔ cfg.enabled = true := by simp
  unfold PaymentGateway.settle requireEnabled
  rw [rejectIf_bind_eq_ok, henabled]
  refine and_congr_right fun _ => ?_
  constructor
  · intro h
    obtain ⟨settled, hanswer, -⟩ := receiptOf_eq_ok h
    rw [hanswer, receiptOf_returned_iff] at h
    obtain ⟨document, hanswered, hmodel⟩ := validated_post_iff.mp hanswer
    exact ⟨document, settled, hanswered, hmodel, h⟩
  · rintro ⟨document, settled, hanswered, hmodel, h⟩
    have hanswer : (connect codec client exchange).settle payment.payload cfg.requirements = .returned settled :=
      validated_post_iff.mpr ⟨document, hanswered, hmodel⟩
    rw [hanswer, receiptOf_returned_iff]
    exact h

/-- **A gateway and its facilitator**: a payment is verified exactly when it passes and a delivered document vouches
for it; a receipt is issued exactly for a delivered document that reports the settlement. -/
theorem connected_exact (sha256 : Bytes → Bytes) (x402 : X402) (cfg : PaymentConfig) (codec : FacilitatorCodec)
    (client : UrllibFacilitatorClient) (network : FacilitatorNetwork codec) (payment : VerifiedPayment) :
    (∀ signature identifier now, PaymentGateway.verify sha256 x402 cfg (connect codec client network.reply) signature
        identifier now = .ok payment ↔
      (∃ a, Passes sha256 x402 cfg signature identifier now payment a) ∧
        ∃ document verified, Answered codec client network.reply "verify" cfg payment document ∧
          codec.verifyResponse document = some verified ∧ Vouches payment verified) ∧
    ∀ receipt, PaymentGateway.settle x402 cfg (connect codec client network.reply) payment = .ok receipt ↔
      cfg.enabled = true ∧ ∃ document settled, Answered codec client network.reply "settle" cfg payment document ∧
        codec.settleResponse document = some settled ∧ Settled cfg payment settled ∧
        encodedLength (x402.encodePaymentResponseHeader (settled.receipt cfg payment)) ≤ maxPaymentHeaderBytes ∧
        receipt = receiptFor x402 cfg payment settled := by
  refine ⟨fun signature identifier now => ?_, fun _ => connect_settle_iff⟩
  rw [connect_verify_iff, checkPayment_eq_ok_iff]

/-- **A settlement as it is reported.**  Where the facilitator answers the request with any JSON text of a document
within the bounds that reports the settlement, the gateway issues the receipt: blanks, escapes and the order of the
members are the facilitator's choice. -/
theorem settle_of_rendering {members : List (String × Json)} {t : List Char} {contentLength : Option String}
    {request : FacilitatorRequest} {settled : SettleResponse} (henabled : cfg.enabled = true)
    (hrequest : postRequest codec client "settle" payment.payload cfg.requirements = some request)
    (hreply : exchange request = .answered contentLength (some (utf8Chars t)))
    (ht : Json.Padded codec.readFloat (.obj members) t)
    (hlength : (utf8Chars t).length ≤ maxFacilitatorResponseBytes) (hdeclared : DeclaredWithin codec contentLength)
    (hwithin : WithinBounds codec (.obj members)) (hmodel : codec.settleResponse (.obj members) = some settled)
    (hsettled : Settled cfg payment settled)
    (hheader : encodedLength (x402.encodePaymentResponseHeader (settled.receipt cfg payment)) ≤ maxPaymentHeaderBytes) :
    PaymentGateway.settle x402 cfg (connect codec client exchange) payment =
      .ok (receiptFor x402 cfg payment settled) := by
  refine connect_settle_iff.mpr ⟨henabled, _, settled, ⟨request, hrequest, ?_⟩, hmodel, hsettled, hheader, rfl⟩
  rw [hreply]
  exact .of_text ht hlength hdeclared hwithin

end Gateway

/-! ## A settlement that is reported -/

theorem honest_timeout : true = true → 1 ≤ (300 : ℤ) ∧ (300 : ℤ) ≤ maxPaymentTimeoutSeconds := fun _ => by decide

def honestConfig : PaymentConfig where
  enabled := true
  network := baseMainnet
  asset := baseMainnetUsdc
  amount := "10000"
  payTo := "0x1111111111111111111111111111111111111111"
  resourceUrl := none
  maxTimeoutSeconds := 300
  timeout_range := honest_timeout

def honestX402 : X402 where
  decodePaymentSignatureHeader _ := none
  extractAndValidatePaymentIdentifier _ := (none, false)
  encodePaymentRequiredHeader _ := ""
  encodePaymentResponseHeader settled := settled.transaction

def honestPayment : VerifiedPayment where
  payer := "0x2222222222222222222222222222222222222222"
  paymentIdentifier := "payment_first_12345"
  proofFingerprint := "sha256:00"
  authorizationFingerprint := "sha256:01"
  payload := ⟨2, .null, none, .null, .null⟩

def honestCodec : FacilitatorCodec where
  readFloat _ := ⟨"0.0", 0⟩
  isFinite _ := true
  parseInt _ := none
  transcode := some
  transcode_plain _ _ := rfl
  dumpPayload payload := payload.payload
  dumpRequirements requirements := .obj [("payTo", .str requirements.payTo)]
  verifyResponse _ := none
  settleResponse document := do
    let transaction ← (document.get? "transaction").bind Json.str?
    let network ← (document.get? "network").bind Json.str?
    return ⟨(document.get? "success").any (Json.isBool true), none, transaction, network, none⟩

def honestClient : UrllibFacilitatorClient := ⟨"https://x402.org/facilitator/", none⟩

def honestHash : String := "0x3333333333333333333333333333333333333333333333333333333333333333"

/-- A report of the settlement with blanks around its members, and escapes in two of its strings. -/
def honestText : List Char :=
  ("\x7b \"network\": \"eip155\\u003a8453\",\n  \"success\": true, \"\\u0074ransaction\" :\t\"".toList ++
    honestHash.toList) ++ "\" \x7d\r\n".toList

def honestReply (_ : FacilitatorRequest) : FacilitatorReply := .answered none (some (utf8Chars honestText))

theorem honestReply_unicode (request : FacilitatorRequest) (contentLength : Option String) (body bytes : Bytes)
    (h : honestReply request = .answered contentLength (some body)) (hbytes : honestCodec.transcode body = some bytes) :
    Json.namesSurrogate bytes = false := by
  obtain ⟨-, hbody⟩ := FacilitatorReply.answered.inj h
  obtain rfl := Option.some.inj (hbody.trans hbytes)
  decide +kernel

def honestNetwork : FacilitatorNetwork honestCodec := ⟨honestReply, honestReply_unicode⟩

def honestSettlement : SettleResponse := ⟨true, none, honestHash, baseMainnet, none⟩

theorem honestText_settles : ∃ members, Json.Padded honestCodec.readFloat (.obj members) honestText ∧
    WithinBounds honestCodec (.obj members) ∧ honestCodec.settleResponse (.obj members) = some honestSettlement := by
  have hread : (Json.loadsUnique honestCodec.readFloat (utf8Chars honestText)).any (fun v =>
      isDict v && validateFacilitatorJson honestCodec v &&
        decide (honestCodec.settleResponse v = some honestSettlement)) = true := by decide +kernel
  obtain ⟨v, hv, hcheck⟩ := (Option.any_eq_true _ _).mp hread
  obtain ⟨t, ht, htext⟩ := Json.loadsUnique_eq_some_iff.mp hv
  obtain rfl := utf8Chars_injective htext
  simp only [Bool.and_eq_true, decide_eq_true_eq, validateFacilitatorJson_iff] at hcheck
  obtain ⟨⟨hdict, hwithin⟩, hsettles⟩ := hcheck
  obtain ⟨members, rfl⟩ := isDict_iff.mp hdict
  exact ⟨members, ht, hwithin, hsettles⟩

theorem settle_of_rendering_honest : PaymentGateway.settle honestX402 honestConfig
    (connect honestCodec honestClient honestNetwork.reply) honestPayment =
      .ok (receiptFor honestX402 honestConfig honestPayment honestSettlement) := by
  obtain ⟨members, htext, hwithin, hsettles⟩ := honestText_settles
  obtain ⟨request, hrequest⟩ := Option.isSome_iff_exists.mp (by decide :
    (postRequest honestCodec honestClient "settle" honestPayment.payload honestConfig.requirements).isSome = true)
  have hlength : (utf8Chars honestText).length ≤ maxFacilitatorResponseBytes := by decide +kernel
  refine settle_of_rendering rfl hrequest rfl htext hlength ?_ hwithin hsettles ⟨rfl, rfl, ?_, by decide, ?_⟩ (by decide)
  · intro text htext
    cases htext
  · intro amount hamount
    cases hamount
  · intro payer hpayer
    cases hpayer

end Lucent.Payments
