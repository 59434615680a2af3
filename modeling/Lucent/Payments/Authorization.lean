import Lucent.Lib.SameJson
import Lucent.Payments.Gateway

/-!
# Lucent.Payments.Authorization — what a checked payment is

* `Authorizes`: what the authorization of a payload says, member by member; `readAuthorization_eq_ok_iff` reads it so.
* `Passes`: what the gateway asks of a payment, without its checks; `checkPayment_eq_ok_iff`: the checks accept that.
* `CheckedPayment`: the payload of the header, its authorization, the two fingerprints, and the window it was in.
* `authorizationBytes_inj`: the hashed bytes of two authorizations are equal when the authorizations are.
* `receiptOf_eq_ok`: what the answer behind a receipt said.
-/

namespace Lucent.Payments

open Lucent.Lib

variable {sha256 : Bytes → Bytes} {x402 : X402} {cfg : PaymentConfig}

/-! ## Headers -/

/-- Base64 as a text: data, and the padding that completes it; after complete quads, any padding. -/
def Base64 (text : String) : Prop :=
  ∃ data padding, text.toList = data ++ List.replicate padding '=' ∧ (∀ c ∈ data, base64Char c = true) ∧
    (data.length % 4 = 0 ∧ (data = [] → padding = 0) ∨ data.length % 4 = 2 ∧ padding = 2 ∨
      data.length % 4 = 3 ∧ padding = 1)

theorem isBase64_iff {text : String} : isBase64 text = true ↔ Base64 text := by
  have hpad : base64Char '=' = false := by decide
  constructor
  · intro h
    unfold isBase64 at h
    dsimp only at h
    rw [Bool.and_eq_true, List.all_eq_true] at h
    obtain ⟨hpadding, hlength⟩ := h
    refine ⟨text.toList.takeWhile base64Char, (text.toList.dropWhile base64Char).length, ?_,
      fun c hc => List.mem_takeWhile_imp hc, ?_⟩
    · rw [← List.eq_replicate_of_mem fun c hc => by simpa using hpadding c hc]
      exact List.takeWhile_append_dropWhile.symm
    · split_ifs at hlength with hquads
      · refine .inl ⟨hquads, fun hnil => ?_⟩
        simpa [hnil] using hlength
      · simp only [Bool.and_eq_true, bne_iff_ne, ne_eq, beq_iff_eq] at hlength
        omega
  · rintro ⟨data, padding, htext, hdata, hlength⟩
    have htake : text.toList.takeWhile base64Char = data := by
      rw [htext, List.takeWhile_append_of_pos hdata]
      simp [hpad]
    have hdrop : text.toList.dropWhile base64Char = List.replicate padding '=' := by
      rw [htext, List.dropWhile_append_of_pos hdata]
      simp [hpad]
    unfold isBase64
    dsimp only
    rw [htake, hdrop, Bool.and_eq_true, List.all_eq_true]
    refine ⟨fun c hc => by simp [List.eq_of_mem_replicate hc], ?_⟩
    rcases hlength with ⟨hquads, hnil⟩ | ⟨hrest, rfl⟩ | ⟨hrest, rfl⟩
    · rw [if_pos hquads]
      cases data with
      | nil => simp [hnil rfl]
      | cons c data => rfl
    · simp [hrest]
    · simp [hrest]

/-! ## Authorizations -/

/-- A member of the authorization of a payload. -/
def authorizationMember (payload : PaymentPayload) (key : String) : Option Json :=
  (payload.payload.get? "authorization").bind (·.get? key)

/-- The value is the number with this numeral: an integer, or the numeral itself. -/
def Denotes (value : Option Json) (numeral : String) : Prop :=
  ∃ n : ℕ, numeral = toString n ∧ numeral.length ≤ 4300 ∧ (value = some (.int n) ∨ value = some (.str numeral))

/-- **What a payload authorizes**: the members of its authorization, on the terms of the server. -/
structure Authorizes (payload : PaymentPayload) (requirements : PaymentRequirements) (a : Authorization) : Prop where
  payer : authorizationMember payload "from" = some (.str a.payer)
  payTo : authorizationMember payload "to" = some (.str a.payTo)
  nonce : authorizationMember payload "nonce" = some (.str a.nonce)
  addresses : addressRe a.payer = true ∧ addressRe a.payTo = true ∧ txHashRe a.nonce = true
  value : Denotes (authorizationMember payload "value") a.value
  validAfter : Denotes (authorizationMember payload "validAfter") a.validAfter
  validBefore : Denotes (authorizationMember payload "validBefore") a.validBefore
  payee : lowerAscii a.payTo = lowerAscii requirements.payTo
  amount : a.value = requirements.amount

theorem isDecimal_cases {l : List Char} (h : isDecimal l = true) :
    l = ['0'] ∨ ∃ c digits, l = c :: digits ∧ c ≠ '0' ∧ ∀ d ∈ c :: digits, d.isDigit = true := by
  unfold isDecimal at h
  split at h
  · cases h
  · exact .inl rfl
  · rename_i c digits _
    simp only [Bool.and_eq_true, bne_iff_ne, ne_eq, List.all_eq_true] at h
    obtain ⟨⟨hc, hne⟩, hdigits⟩ := h
    refine .inr ⟨c, digits, rfl, hne, fun d hd => ?_⟩
    rcases List.mem_cons.mp hd with rfl | hd
    · exact hc
    · exact hdigits d hd

/-- A canonical decimal text is the rendering of its value. -/
theorem toDigits_of_isDecimal {l : List Char} (h : isDecimal l = true) :
    Nat.toDigits 10 (Nat.ofDigitChars 10 l 0) = l := by
  obtain rfl | ⟨c, digits, rfl, hc, hdigits⟩ := isDecimal_cases h
  · rfl
  · exact toDigits_ofDigitChars hdigits hc

theorem isDecimal_toDigits (n : ℕ) : isDecimal (Nat.toDigits 10 n) = true := by
  obtain ⟨⟨hne, hdigits⟩, hzero⟩ := Json.whole_toDigits n
  generalize Nat.toDigits 10 n = l at hne hdigits hzero
  cases l with
  | nil => exact absurd rfl hne
  | cons c l =>
    by_cases hc : c = '0'
    · rw [hzero (by rw [hc]; rfl)]
      rfl
    · unfold isDecimal
      split
      · rename_i heq
        cases heq
      · rfl
      · rename_i heq
        cases heq
        simp only [Bool.and_eq_true, bne_iff_ne, ne_eq, List.all_eq_true]
        exact ⟨⟨hdigits _ List.mem_cons_self, hc⟩, fun d hd => hdigits d (List.mem_cons_of_mem _ hd)⟩

/-- The canonical decimal texts are the numerals of the natural numbers. -/
theorem isDecimal_iff {text : String} : isDecimal text.toList = true ↔ ∃ n : ℕ, text = toString n := by
  constructor
  · intro h
    refine ⟨Nat.ofDigitChars 10 text.toList 0, String.toList_inj.mp ?_⟩
    rw [Nat.toString_eq_repr, Nat.toList_repr, toDigits_of_isDecimal h]
  · rintro ⟨n, rfl⟩
    rw [Nat.toString_eq_repr, Nat.toList_repr]
    exact isDecimal_toDigits n

/-- **What `decimal` reads**: the numeral of the number that the value is. -/
theorem decimal_eq_some_iff {value : Option Json} {numeral : String} :
    decimal value = some numeral ↔ Denotes value numeral := by
  have hchecked : ∀ s, (if isDecimal s.toList && decide (s.toList.length ≤ 4300) then some s else none) = some numeral ↔
      s = numeral ∧ numeral.length ≤ 4300 ∧ ∃ n : ℕ, numeral = toString n := by
    intro s
    rw [Option.ite_none_right_eq_some, Bool.and_eq_true, decide_eq_true_eq, isDecimal_iff, String.length_toList,
      Option.some.injEq]
    constructor
    · rintro ⟨⟨hn, hlength⟩, rfl⟩
      exact ⟨rfl, hlength, hn⟩
    · rintro ⟨rfl, hlength, hn⟩
      exact ⟨⟨hn, hlength⟩, rfl⟩
  constructor
  · intro h
    unfold decimal at h
    split at h
    · rename_i n
      obtain ⟨rfl, hlength, m, hm⟩ := (hchecked _).mp h
      rcases n with n | n
      · exact ⟨n, rfl, hlength, .inl rfl⟩
      · -- the numeral of a negative integer begins with its sign
        have hdigit := isDecimal_cases (isDecimal_iff.mpr ⟨m, hm⟩)
        have hsign : (toString (Int.negSucc n)).toList = '-' :: (toString (n + 1)).toList := String.toList_append
        rw [hsign] at hdigit
        obtain heq | ⟨c, digits, heq, -, hdigits⟩ := hdigit
        · cases heq
        · obtain ⟨rfl, -⟩ := List.cons.inj heq
          exact absurd (hdigits '-' List.mem_cons_self) (by decide)
    · obtain ⟨rfl, hlength, m, hm⟩ := (hchecked _).mp h
      exact ⟨m, hm, hlength, .inr rfl⟩
    · cases h
  · rintro ⟨n, rfl, hlength, rfl | rfl⟩
    · exact (hchecked _).mpr ⟨rfl, hlength, n, rfl⟩
    · exact (hchecked _).mpr ⟨rfl, hlength, n, rfl⟩

theorem matching_eq_some_iff {re : String → Bool} {value : Option Json} {text : String} :
    matching re value = some text ↔ value = some (.str text) ∧ re text = true := by
  unfold matching
  rw [Option.filter_eq_some_iff]
  refine and_congr_left fun _ => ?_
  rcases value with _ | v
  · simp
  · cases v <;> simp [Json.str?]

/-- **What is read as an authorization** is what the payload authorizes. -/
theorem readAuthorization_eq_ok_iff {payload : PaymentPayload} {requirements : PaymentRequirements} {a : Authorization} :
    readAuthorization payload requirements = .ok a ↔ Authorizes payload requirements a := by
  unfold readAuthorization
  simp only [bind_eq_ok, rejectIf_eq_ok, elim_ok_eq_ok, pure_eq_ok, matching_eq_some_iff, decimal_eq_some_iff,
    exists_const, not_or, not_not]
  constructor
  · rintro ⟨authorization, hauthorization, payer, ⟨hpayer, hpayer'⟩, payTo, ⟨hpayTo, hpayTo'⟩, nonce, ⟨hnonce, hnonce'⟩,
      value, hvalue, ⟨hpayee, hamount⟩, validAfter, hafter, validBefore, hbefore, rfl⟩
    obtain ⟨hobject, -⟩ := Option.filter_eq_some_iff.mp hauthorization
    have hmember : ∀ key, authorizationMember payload key = authorization.get? key := fun key => by
      rw [authorizationMember, hobject, Option.bind_some]
    exact ⟨(hmember _).trans hpayer, (hmember _).trans hpayTo, (hmember _).trans hnonce, ⟨hpayer', hpayTo', hnonce'⟩,
      hmember _ ▸ hvalue, hmember _ ▸ hafter, hmember _ ▸ hbefore, hpayee, hamount⟩
  · rintro ⟨hpayer, hpayTo, hnonce, ⟨hpayer', hpayTo', hnonce'⟩, hvalue, hafter, hbefore, hpayee, hamount⟩
    obtain ⟨authorization, hobject, -⟩ := Option.bind_eq_some_iff.mp hpayer
    have hmember : ∀ key, authorizationMember payload key = authorization.get? key := fun key => by
      rw [authorizationMember, hobject, Option.bind_some]
    simp only [hmember] at hpayer hpayTo hnonce hvalue hafter hbefore
    refine ⟨authorization, Option.filter_eq_some_iff.mpr ⟨hobject, ?_⟩, a.payer, ⟨hpayer, hpayer'⟩, a.payTo,
      ⟨hpayTo, hpayTo'⟩, a.nonce, ⟨hnonce, hnonce'⟩, a.value, hvalue, ⟨hpayee, hamount⟩, a.validAfter, hafter,
      a.validBefore, hbefore, rfl⟩
    -- only an object has members
    cases authorization with
    | obj members => rfl
    | _ => cases hpayer

/-! ## Checked payments -/

/-- **What the gateway accepts**, before it asks the facilitator: `payment` is what the header stands for. -/
structure Passes (sha256 : Bytes → Bytes) (x402 : X402) (cfg : PaymentConfig) (paymentSignature : String)
    (paymentIdentifier : Option String) (now : ℚ) (payment : VerifiedPayment) (a : Authorization) : Prop where
  enabled : cfg.enabled = true
  bounded : paymentSignature ≠ "" ∧ encodedLength paymentSignature ≤ maxPaymentHeaderBytes
  ascii : isAscii paymentSignature = true
  base64 : Base64 paymentSignature
  decoded : x402.decodePaymentSignatureHeader paymentSignature = some (.payload payment.payload)
  version : payment.payload.x402Version = 2
  identified : x402.extractAndValidatePaymentIdentifier payment.payload = (some payment.paymentIdentifier, true)
  identifier : ∀ given, paymentIdentifier = some given → given = payment.paymentIdentifier
  terms : cfg.requirements.sameTerms payment.payload.accepted = true
  resource : ∃ url, payment.payload.resourceUrl = some url ∧ cfg.resourceUrl = some url
  authorizes : Authorizes payment.payload cfg.requirements a
  fingerprint : ∃ bytes, authorizationBytes cfg.requirements a = some bytes ∧
    payment.authorizationFingerprint = sha256Text sha256 bytes
  payer : payment.payer = a.payer
  proof : payment.proofFingerprint = proofFingerprint sha256 paymentSignature
  window : (a.after : ℚ) ≤ now ∧ now < a.before ∧ (a.before : ℚ) ≤ now + cfg.maxTimeoutSeconds

theorem decodePayload_eq_ok_iff {paymentSignature : String} {payload : PaymentPayload} :
    decodePayload x402 paymentSignature = .ok payload ↔
      x402.decodePaymentSignatureHeader paymentSignature = some (.payload payload) ∧ payload.x402Version = 2 := by
  unfold decodePayload
  rcases x402.decodePaymentSignatureHeader paymentSignature with _ | p | _
  · simp
  · by_cases hversion : p.x402Version = 2
    · simp only [if_pos hversion, Except.ok.injEq, Option.some.injEq, DecodedPayment.payload.injEq]
      constructor
      · rintro rfl
        exact ⟨rfl, hversion⟩
      · exact And.left
    · simp only [if_neg hversion, Option.some.injEq, DecodedPayment.payload.injEq]
      refine iff_of_false (by simp) ?_
      rintro ⟨rfl, h⟩
      exact hversion h
  · simp

theorem checkIdentifier_eq_ok_iff {payload : PaymentPayload} {paymentIdentifier : Option String} {identifier : String} :
    checkIdentifier x402 payload paymentIdentifier = .ok identifier ↔
      x402.extractAndValidatePaymentIdentifier payload = (some identifier, true) ∧
        ∀ given, paymentIdentifier = some given → given = identifier := by
  unfold checkIdentifier
  rcases x402.extractAndValidatePaymentIdentifier payload with ⟨_ | found, _ | _⟩
  · simp
  · simp
  · simp
  · rcases paymentIdentifier with _ | given
    · simp
    · by_cases hgiven : given = found
      · simp only [hgiven, Option.any_some, ne_eq, not_true_eq_false, decide_false, Bool.false_eq_true, if_false,
          Except.ok.injEq, Prod.mk.injEq, Option.some.injEq, and_true, forall_eq']
        exact ⟨fun h => ⟨h, h⟩, And.left⟩
      · simp only [Option.any_some, ne_eq, hgiven, not_false_eq_true, decide_true, if_true, Prod.mk.injEq,
          Option.some.injEq, and_true, forall_eq']
        refine iff_of_false (by simp) ?_
        rintro ⟨rfl, h⟩
        exact hgiven h

theorem not_outsideWindow_iff {a : Authorization} {now : ℚ} : ¬ outsideWindow cfg a now ↔
    (a.after : ℚ) ≤ now ∧ now < a.before ∧ (a.before : ℚ) ≤ now + cfg.maxTimeoutSeconds := by
  unfold outsideWindow
  rw [not_or, not_or, not_lt, not_le, not_lt]

theorem authorizationFingerprint_eq_ok_iff {payload : PaymentPayload} {requirements : PaymentRequirements}
    {fingerprint : String} : authorizationFingerprint sha256 payload requirements = .ok fingerprint ↔
      ∃ a bytes, Authorizes payload requirements a ∧ authorizationBytes requirements a = some bytes ∧
        fingerprint = sha256Text sha256 bytes := by
  unfold authorizationFingerprint
  simp only [bind_eq_ok, elim_ok_eq_ok, pure_eq_ok, readAuthorization_eq_ok_iff]
  constructor
  · rintro ⟨a, ha, bytes, hbytes, rfl⟩
    exact ⟨a, bytes, ha, hbytes, rfl⟩
  · rintro ⟨a, bytes, ha, hbytes, rfl⟩
    exact ⟨a, ha, bytes, hbytes, rfl⟩

/-- A payload authorizes one transfer. -/
theorem Authorizes.unique {payload : PaymentPayload} {requirements : PaymentRequirements} {a a' : Authorization}
    (h : Authorizes payload requirements a) (h' : Authorizes payload requirements a') : a = a' :=
  Except.ok.inj ((readAuthorization_eq_ok_iff.mpr h).symm.trans (readAuthorization_eq_ok_iff.mpr h'))

/-- **The checks of a payment.** -/
theorem checkPayment_eq_ok_iff {paymentSignature : String} {paymentIdentifier : Option String} {now : ℚ}
    {payment : VerifiedPayment} :
    checkPayment sha256 x402 cfg paymentSignature paymentIdentifier now = .ok payment ↔
      ∃ a, Passes sha256 x402 cfg paymentSignature paymentIdentifier now payment a := by
  unfold checkPayment requireEnabled
  simp only [bind_eq_ok, rejectIf_eq_ok, pure_eq_ok, exists_const, decodePayload_eq_ok_iff, checkIdentifier_eq_ok_iff,
    authorizationFingerprint_eq_ok_iff, readAuthorization_eq_ok_iff, not_outsideWindow_iff, Bool.not_eq_true,
    Bool.not_eq_false', Bool.or_eq_false_iff, isBase64_iff, decide_eq_false_iff_not, not_lt]
  constructor
  · rintro ⟨henabled, ⟨⟨hempty, hlength⟩, hascii⟩, hbase64, payload, ⟨hdecoded, hversion⟩, identifier,
      ⟨hidentified, hidentifier⟩, hterms, hresource, fingerprint, ⟨a', bytes, ha', hbytes, rfl⟩, a, ha, hwindow, rfl⟩
    obtain rfl := ha'.unique ha
    obtain ⟨hnone, hurl⟩ := not_or.mp hresource
    obtain ⟨url, hsome⟩ := Option.ne_none_iff_exists'.mp hnone
    refine ⟨a', henabled, ⟨?_, hlength⟩, hascii, hbase64, hdecoded, hversion, hidentified, hidentifier, hterms,
      ⟨url, hsome, (not_not.mp hurl).symm.trans hsome⟩, ha, ⟨bytes, hbytes, rfl⟩, rfl, rfl, hwindow⟩
    rintro rfl
    cases hempty
  · rintro ⟨a, henabled, ⟨hempty, hlength⟩, hascii, hbase64, hdecoded, hversion, hidentified, hidentifier, hterms,
      ⟨url, hpayload, hserver⟩, ha, ⟨bytes, hbytes, hfingerprint⟩, hpayer, hproof, hwindow⟩
    obtain ⟨payer, identifier, proof, fingerprint, payload⟩ := payment
    dsimp only at *
    subst hpayer hproof hfingerprint
    refine ⟨henabled, ⟨⟨?_, hlength⟩, hascii⟩, hbase64, payload, ⟨hdecoded, hversion⟩, identifier,
      ⟨hidentified, hidentifier⟩, hterms, ?_, _, ⟨a, bytes, ha, hbytes, rfl⟩, a, ha, hwindow, rfl⟩
    · rwa [Bool.eq_false_iff, ne_eq, String.isEmpty_iff]
    · rw [hpayload, hserver]
      simp

/-- `payment` is what the checks make of the header at this time, with this authorization in it. -/
structure CheckedPayment (sha256 : Bytes → Bytes) (x402 : X402) (cfg : PaymentConfig) (paymentSignature : String)
    (now : ℚ) (payment : VerifiedPayment) (a : Authorization) : Prop where
  enabled : cfg.enabled = true
  ascii : isAscii paymentSignature = true
  decoded : decodePayload x402 paymentSignature = .ok payment.payload
  authorization : readAuthorization payment.payload cfg.requirements = .ok a
  fingerprint : ∃ bytes, authorizationBytes cfg.requirements a = some bytes ∧
    payment.authorizationFingerprint = sha256Text sha256 bytes
  payer : payment.payer = a.payer
  proof : payment.proofFingerprint = proofFingerprint sha256 paymentSignature
  window : ¬ outsideWindow cfg a now

/-- A payment that passes is checked. -/
theorem checkPayment_eq_ok {paymentSignature : String} {paymentIdentifier : Option String} {now : ℚ}
    {payment : VerifiedPayment}
    (h : checkPayment sha256 x402 cfg paymentSignature paymentIdentifier now = .ok payment) :
    ∃ a, CheckedPayment sha256 x402 cfg paymentSignature now payment a := by
  obtain ⟨a, ha⟩ := checkPayment_eq_ok_iff.mp h
  exact ⟨a, ha.enabled, ha.ascii, decodePayload_eq_ok_iff.mpr ⟨ha.decoded, ha.version⟩,
    readAuthorization_eq_ok_iff.mpr ha.authorizes, ha.fingerprint, ha.payer, ha.proof, not_outsideWindow_iff.mpr ha.window⟩

/-- What `acceptVerification` accepts. -/
theorem acceptVerification_eq_ok {payment accepted : VerifiedPayment} {answer : FacilitatorAnswer VerifyResponse}
    (h : acceptVerification payment answer = .ok accepted) :
    accepted = payment ∧ ∃ verified, answer = .returned verified ∧ verified.isValid = true := by
  rcases answer with e | _ | verified
  · exact nomatch h
  · exact nomatch h
  · obtain ⟨hvalid, h⟩ := rejectIf_bind_eq_ok.mp h
    obtain ⟨-, h⟩ := rejectIf_bind_eq_ok.mp h
    obtain ⟨-, h⟩ := rejectIf_bind_eq_ok.mp h
    exact ⟨(pure_eq_ok.mp h).symm, verified, rfl, by simpa using hvalid⟩

/-! ## Fingerprints -/

theorem sha256Text_inj {bytes bytes' : Bytes} (h : sha256Text sha256 bytes = sha256Text sha256 bytes') :
    sha256 bytes = sha256 bytes' := hexText_injective (append_left_cancel_iff.mp h)

/-- **The hashed bytes of an authorization** determine the authorization, up to the case of its addresses. -/
theorem authorizationBytes_inj {requirements : PaymentRequirements} {a a' : Authorization} {bytes : Bytes}
    (h : authorizationBytes requirements a = some bytes) (h' : authorizationBytes requirements a' = some bytes) :
    lowerAscii a.payer = lowerAscii a'.payer ∧ lowerAscii a.payTo = lowerAscii a'.payTo ∧ a.value = a'.value ∧
      a.validAfter = a'.validAfter ∧ a.validBefore = a'.validBefore ∧ lowerAscii a.nonce = lowerAscii a'.nonce := by
  obtain ⟨chars, hchars, rfl⟩ := Option.map_eq_some_iff.mp h
  obtain ⟨chars', hchars', heq⟩ := Option.map_eq_some_iff.mp h'
  obtain rfl := utf8Chars_injective heq
  have hplain : ∀ b, Json.WellFormed (canonicalAuthorization requirements b) := fun b =>
    Json.wellFormed_of_plain _ (by rfl)
  have hsame := (Json.dumps_eq_iff (hplain a) (hplain a') hchars hchars').mp rfl
  simp (disch := simp) only [canonicalAuthorization, Json.same_obj_cons_iff, Json.same_obj_nil,
    Json.same_str_iff, and_true, true_and] at hsame
  exact hsame

/-! ## Receipts -/

/-- The settlement a receipt stands for. -/
structure Settled (cfg : PaymentConfig) (payment : VerifiedPayment) (settled : SettleResponse) : Prop where
  success : settled.success = true
  network : settled.network = cfg.network
  amount : ∀ amount, settled.amount = some amount → amount = cfg.amount
  transaction : txHashRe settled.transaction = true
  payer : ∀ payer, settled.payer = some payer → addressRe payer = true ∧ lowerAscii payer = lowerAscii payment.payer

/-- A receipt is issued for an answer that reports the settlement. -/
theorem receiptOf_eq_ok {payment : VerifiedPayment} {answer : FacilitatorAnswer SettleResponse}
    {receipt : PaymentReceipt} (h : receiptOf x402 cfg payment answer = .ok receipt) :
    ∃ settled, answer = .returned settled ∧ Settled cfg payment settled := by
  rcases answer with e | _ | settled
  · exact nomatch h
  · exact nomatch h
  · obtain ⟨hsuccess, h⟩ := rejectIf_bind_eq_ok.mp h
    obtain ⟨hnetwork, h⟩ := rejectIf_bind_eq_ok.mp h
    obtain ⟨hamount, h⟩ := rejectIf_bind_eq_ok.mp h
    obtain ⟨htransaction, h⟩ := rejectIf_bind_eq_ok.mp h
    obtain ⟨hbad, h⟩ := rejectIf_bind_eq_ok.mp h
    obtain ⟨hother, h⟩ := rejectIf_bind_eq_ok.mp h
    refine ⟨settled, rfl, by simpa using hsuccess, by simpa using hnetwork, fun amount hsome => ?_,
      by simpa using htransaction, fun payer hsome => ⟨?_, ?_⟩⟩
    · simpa [hsome] using hamount
    · simpa [badPayer, hsome] using hbad
    · simpa [otherPayer, hsome] using hother

/-- The header of a receipt is the encoding of what goes back to the caller. -/
theorem receiptOf_responseHeader {payment : VerifiedPayment} {answer : FacilitatorAnswer SettleResponse}
    {receipt : PaymentReceipt} (h : receiptOf x402 cfg payment answer = .ok receipt) :
    ∃ settled, answer = .returned settled ∧
      receipt.responseHeader = x402.encodePaymentResponseHeader (settled.receipt cfg payment) := by
  rcases answer with e | _ | settled
  · exact nomatch h
  · exact nomatch h
  · iterate 6 obtain ⟨-, h⟩ := rejectIf_bind_eq_ok.mp h
    obtain ⟨-, h⟩ := rejectIf_bind_eq_ok.mp h
    obtain rfl := pure_eq_ok.mp h
    exact ⟨settled, rfl, rfl⟩

end Lucent.Payments
