import Lucent.Payments.Authorization

/-!
# Lucent.Payments.Transfer — what the authorization fingerprint identifies

* `SameTransfer`: two payloads authorize the same transfer, however they are spelled and whatever surrounds it.
* `Authorizes.hexMember`, `Denotes.natural`: the members of an accepted authorization, as addresses and numbers.
* `authorizationFingerprint_identifies`: accepted payloads have the same fingerprint exactly when they authorize the
  same transfer, and another payee or amount is rejected.
-/

namespace Lucent.Payments

open Lucent.Lib

/-! ## The members of an authorization -/

/-- A hexadecimal member, without the case of its letters. -/
def hexMember (payload : PaymentPayload) (key : String) : Option String :=
  ((authorizationMember payload key).bind Json.str?).map lowerAscii

/-- The natural number a value stands for: an integer, or its decimal digits. -/
def natural? : Json → Option ℕ
  | .int n => if 0 ≤ n then some n.toNat else none
  | .str text => if text ≠ "" ∧ text.toList.all Char.isDigit = true then some (Nat.ofDigitChars 10 text.toList 0) else none
  | _ => none

/-- A numeric member, as a number. -/
def numberMember (payload : PaymentPayload) (key : String) : Option ℕ := (authorizationMember payload key).bind natural?

/-- Two payloads authorize the same transfer to the payee of the server. -/
structure SameTransfer (p p' : PaymentPayload) : Prop where
  payer : hexMember p "from" = hexMember p' "from"
  nonce : hexMember p "nonce" = hexMember p' "nonce"
  validAfter : numberMember p "validAfter" = numberMember p' "validAfter"
  validBefore : numberMember p "validBefore" = numberMember p' "validBefore"

/-! ## Accepted authorizations -/

variable {sha256 : Bytes → Bytes} {requirements : PaymentRequirements} {p p' : PaymentPayload}

theorem natural?_toString (n : ℕ) : natural? (.str (toString n)) = some n := by
  have hlist : (toString n).toList = Nat.toDigits 10 n := Nat.toList_repr
  have hdigits : toString n ≠ "" ∧ (toString n).toList.all Char.isDigit = true := by
    refine ⟨fun hempty => ?_, ?_⟩
    · rw [hempty] at hlist
      exact Nat.toDigits_ne_nil hlist.symm
    · rw [hlist, List.all_eq_true]
      exact (Json.whole_toDigits n).1.2
  rw [natural?, if_pos hdigits, hlist, Nat.ofDigitChars_ten_toDigits]

/-- A number that a numeral stands for. -/
theorem Denotes.natural {value : Option Json} {numeral : String} (h : Denotes value numeral) :
    value.bind natural? = some (Nat.ofDigitChars 10 numeral.toList 0) := by
  obtain ⟨n, rfl, -, rfl | rfl⟩ := h
  · show some n = some (Nat.ofDigitChars 10 n.repr.toList 0)
    rw [Nat.toList_repr, Nat.ofDigitChars_ten_toDigits]
  · show natural? (.str n.repr) = some (Nat.ofDigitChars 10 n.repr.toList 0)
    rw [Nat.toList_repr, Nat.ofDigitChars_ten_toDigits]
    exact natural?_toString n

theorem hexMember_of_member {key text : String} (h : authorizationMember p key = some (.str text)) :
    hexMember p key = some (lowerAscii text) := by
  rw [hexMember, h]
  rfl

theorem Denotes.isDecimal {value : Option Json} {numeral : String} (h : Denotes value numeral) :
    isDecimal numeral.toList = true := isDecimal_iff.mpr ⟨_, h.choose_spec.1⟩

/-! ## The fingerprint -/

/-- The hashed bytes depend on the transfer only. -/
theorem authorizationBytes_congr {a a' : Authorization} (hpayer : lowerAscii a.payer = lowerAscii a'.payer)
    (hpayTo : lowerAscii a.payTo = lowerAscii a'.payTo) (hvalue : a.value = a'.value)
    (hafter : a.validAfter = a'.validAfter) (hbefore : a.validBefore = a'.validBefore)
    (hnonce : lowerAscii a.nonce = lowerAscii a'.nonce) :
    authorizationBytes requirements a = authorizationBytes requirements a' := by
  unfold authorizationBytes canonicalAuthorization
  rw [hpayer, hpayTo, hvalue, hafter, hbefore, hnonce]

/-- Canonical decimal texts of one number are one text. -/
theorem text_eq_of_isDecimal {s t : String} (hs : isDecimal s.toList = true) (ht : isDecimal t.toList = true)
    (h : Nat.ofDigitChars 10 s.toList 0 = Nat.ofDigitChars 10 t.toList 0) : s = t := by
  rw [← String.toList_inj, ← toDigits_of_isDecimal hs, h, toDigits_of_isDecimal ht]

/-- Under one server, two accepted authorizations of one transfer are hashed alike. -/
theorem sameTransfer_iff {a a' : Authorization} (ha : Authorizes p requirements a) (ha' : Authorizes p' requirements a') :
    SameTransfer p p' ↔ lowerAscii a.payer = lowerAscii a'.payer ∧ lowerAscii a.nonce = lowerAscii a'.nonce ∧
      a.validAfter = a'.validAfter ∧ a.validBefore = a'.validBefore := by
  constructor
  · rintro ⟨hpayer, hnonce, hafter, hbefore⟩
    rw [hexMember_of_member ha.payer, hexMember_of_member ha'.payer] at hpayer
    rw [hexMember_of_member ha.nonce, hexMember_of_member ha'.nonce] at hnonce
    rw [numberMember, ha.validAfter.natural, numberMember, ha'.validAfter.natural] at hafter
    rw [numberMember, ha.validBefore.natural, numberMember, ha'.validBefore.natural] at hbefore
    exact ⟨Option.some.inj hpayer, Option.some.inj hnonce,
      text_eq_of_isDecimal ha.validAfter.isDecimal ha'.validAfter.isDecimal (Option.some.inj hafter),
      text_eq_of_isDecimal ha.validBefore.isDecimal ha'.validBefore.isDecimal (Option.some.inj hbefore)⟩
  · rintro ⟨hpayer, hnonce, hafter, hbefore⟩
    refine ⟨?_, ?_, ?_, ?_⟩
    · rw [hexMember_of_member ha.payer, hexMember_of_member ha'.payer, hpayer]
    · rw [hexMember_of_member ha.nonce, hexMember_of_member ha'.nonce, hnonce]
    · rw [numberMember, ha.validAfter.natural, numberMember, ha'.validAfter.natural, hafter]
    · rw [numberMember, ha.validBefore.natural, numberMember, ha'.validBefore.natural, hbefore]

/-- The digest tells apart what two payloads are hashed as. -/
def NoCollision (sha256 : Bytes → Bytes) (requirements : PaymentRequirements) (p p' : PaymentPayload) : Prop :=
  ∀ a a' bytes bytes', Authorizes p requirements a → Authorizes p' requirements a' →
    authorizationBytes requirements a = some bytes → authorizationBytes requirements a' = some bytes' →
      sha256 bytes = sha256 bytes' → bytes = bytes'

/-- **The authorization fingerprint.**  Two accepted payloads have the same one exactly when they authorize the same
transfer; a payload for another payee or another amount is rejected. -/
theorem authorizationFingerprint_identifies (sha256 : Bytes → Bytes) (requirements : PaymentRequirements) :
    (∀ p p' fingerprint fingerprint', NoCollision sha256 requirements p p' →
      authorizationFingerprint sha256 p requirements = .ok fingerprint →
      authorizationFingerprint sha256 p' requirements = .ok fingerprint' →
      (fingerprint = fingerprint' ↔ SameTransfer p p')) ∧
    ∀ p, hexMember p "to" ≠ some (lowerAscii requirements.payTo) ∨
        numberMember p "value" ≠ natural? (.str requirements.amount) →
      ∃ e, authorizationFingerprint sha256 p requirements = .error e := by
  constructor
  · intro p p' fingerprint fingerprint' hfree h h'
    obtain ⟨a, bytes, ha, hbytes, rfl⟩ := authorizationFingerprint_eq_ok_iff.mp h
    obtain ⟨a', bytes', ha', hbytes', rfl⟩ := authorizationFingerprint_eq_ok_iff.mp h'
    have hpayTo : lowerAscii a.payTo = lowerAscii a'.payTo := ha.payee.trans ha'.payee.symm
    have hvalue : a.value = a'.value := ha.amount.trans ha'.amount.symm
    rw [sameTransfer_iff ha ha']
    constructor
    · intro heq
      obtain rfl := hfree a a' bytes bytes' ha ha' hbytes hbytes' (sha256Text_inj heq)
      obtain ⟨hpayer, -, -, hafter, hbefore, hnonce⟩ := authorizationBytes_inj hbytes hbytes'
      exact ⟨hpayer, hnonce, hafter, hbefore⟩
    · rintro ⟨hpayer, hnonce, hafter, hbefore⟩
      have hsame := @authorizationBytes_congr requirements _ _ hpayer hpayTo hvalue hafter hbefore hnonce
      rw [Option.some.inj (hbytes.symm.trans (hsame.trans hbytes'))]
  · intro p hdiffers
    rcases h : authorizationFingerprint sha256 p requirements with e | fingerprint
    · exact ⟨e, rfl⟩
    obtain ⟨a, -, ha, -, -⟩ := authorizationFingerprint_eq_ok_iff.mp h
    rcases hdiffers with hpayTo | hvalue
    · exact absurd (by rw [hexMember_of_member ha.payTo, ha.payee]) hpayTo
    · obtain ⟨n, hn, -⟩ := id ha.value
      refine absurd ?_ hvalue
      rw [numberMember, ha.value.natural, ← ha.amount, hn, natural?_toString, Nat.toString_eq_repr, Nat.toList_repr,
        Nat.ofDigitChars_ten_toDigits]

/-! ## One transfer in two spellings -/

def demoTerms : PaymentRequirements where
  scheme := "exact"
  network := baseMainnet
  asset := baseMainnetUsdc
  amount := "10000"
  payTo := "0xABABABABABABABABABABABABABABABABABABABAB"
  maxTimeoutSeconds := 300
  extra := []

def transferPayload : PaymentPayload where
  x402Version := 2
  accepted := .null
  resourceUrl := none
  payload := .obj [("signature", .str "0x01"), ("authorization", .obj [
    ("from", .str "0xcdcdcdcdcdcdcdcdcdcdcdcdcdcdcdcdcdcdcdcd"),
    ("to", .str "0xabababababababababababababababababababab"), ("value", .str "10000"), ("validAfter", .int 0),
    ("validBefore", .str "1700000300"),
    ("nonce", .str "0xefefefefefefefefefefefefefefefefefefefefefefefefefefefefefefefef")])]
  extensions := .null

/-- The same authorization: other letter case, numbers in the other spelling, other fields around it. -/
def respelledTransfer : PaymentPayload where
  x402Version := 2
  accepted := .bool true
  resourceUrl := some "https://example.org"
  payload := .obj [("authorization", .obj [
    ("nonce", .str "0xEFefEFefEFefEFefEFefEFefEFefEFefEFefEFefEFefEFefEFefEFefEFefEFef"),
    ("validBefore", .int 1700000300), ("validAfter", .str "0"), ("value", .int 10000),
    ("to", .str "0xABABABABABABABABABABABABABABABABABABABAB"),
    ("from", .str "0xCDCDCDCDCDCDCDCDCDCDCDCDCDCDCDCDCDCDCDCD")]), ("signature", .str "0x02")]
  extensions := .obj []

/-- SHA-256 of what the two payloads are hashed as. -/
def transferSha256 (_ : Bytes) : Bytes :=
  [184, 195, 59, 48, 206, 108, 108, 243, 179, 11, 49, 2, 211, 98, 156, 212, 55, 162, 22, 92, 172, 61, 0, 75, 128, 221,
    238, 134, 34, 204, 148, 59]

theorem sameTransfer_respelled : SameTransfer transferPayload respelledTransfer where
  payer := congrArg (fun chars => some (String.ofList chars)) (show
    "0xcdcdcdcdcdcdcdcdcdcdcdcdcdcdcdcdcdcdcdcd".toList.map Char.toLower =
      "0xCDCDCDCDCDCDCDCDCDCDCDCDCDCDCDCDCDCDCDCD".toList.map Char.toLower by decide +kernel)
  nonce := congrArg (fun chars => some (String.ofList chars)) (show
    "0xefefefefefefefefefefefefefefefefefefefefefefefefefefefefefefefef".toList.map Char.toLower =
      "0xEFefEFefEFefEFefEFefEFefEFefEFefEFefEFefEFefEFefEFefEFefEFefEFef".toList.map Char.toLower by decide +kernel)
  validAfter := by decide +kernel
  validBefore := by decide +kernel

theorem authorizationFingerprint_identifies_respelled :
    ∃ fingerprint, authorizationFingerprint transferSha256 transferPayload demoTerms = .ok fingerprint ∧
      authorizationFingerprint transferSha256 respelledTransfer demoTerms = .ok fingerprint := by
  have hok : (authorizationFingerprint transferSha256 transferPayload demoTerms).isOk = true := by decide +kernel
  have hok' : (authorizationFingerprint transferSha256 respelledTransfer demoTerms).isOk = true := by decide +kernel
  -- one transfer is hashed as the same bytes
  have hfree : NoCollision transferSha256 demoTerms transferPayload respelledTransfer := by
    intro a a' bytes bytes' ha ha' hbytes hbytes' _
    obtain ⟨hpayer, hnonce, hafter, hbefore⟩ := (sameTransfer_iff ha ha').mp sameTransfer_respelled
    have hsame := @authorizationBytes_congr demoTerms _ _ hpayer (ha.payee.trans ha'.payee.symm)
      (ha.amount.trans ha'.amount.symm) hafter hbefore hnonce
    exact Option.some.inj (hbytes.symm.trans (hsame.trans hbytes'))
  rcases h : authorizationFingerprint transferSha256 transferPayload demoTerms with e | fingerprint
  · rw [h] at hok
    cases hok
  rcases h' : authorizationFingerprint transferSha256 respelledTransfer demoTerms with e | fingerprint'
  · rw [h'] at hok'
    cases hok'
  obtain rfl := ((authorizationFingerprint_identifies transferSha256 demoTerms).1 _ _ _ _ hfree h h').mpr
    sameTransfer_respelled
  exact ⟨fingerprint, rfl, rfl⟩

end Lucent.Payments
