import Lucent.Access.Quota
import Lucent.Hosted.Handler
import Lucent.Payments.Authorization

/-!
# Lucent.Hosted.Tenants — tenants, their keys and the access controller of `lucent/access.py`

* `parseApiKeyHash_eq_some_iff`: a configured hash is the canonical text of exactly one digest.
* `authenticatorRecords_eq_ok_iff`: what the constructor of `ApiKeyAuthenticator` accepts.
* `authenticate_configured_iff`: a key authenticates the one enabled tenant that is configured with its hash.
* `AccessController`: a controller carries what its parts rely on; every tenant of it has a quota policy.
-/

namespace Lucent.Hosted

open Lucent.Lib Lucent.Access Lucent.Payments

/-! ## Hashes of keys -/

def apiKeyHashPrefix : String := "sha256:"

/-- `[0-9a-f]`. -/
def isLowerHex (c : Char) : Bool := (decide ('0' ≤ c) && decide (c ≤ '9')) || (decide ('a' ≤ c) && decide (c ≤ 'f'))

/-- `hash_api_key`, of a text; `none` for a `ValueError`. -/
def hashApiKey (sha256 : Bytes → Bytes) (apiKey : String) : Option String :=
  (secretBytes apiKey).map (sha256Text sha256)

/-- `_parse_api_key_hash`; `none` for a `ValueError`. -/
def parseApiKeyHash (value : String) : Option Bytes :=
  let digits := value.toList.drop apiKeyHashPrefix.length
  if hasPrefix value apiKeyHashPrefix && digits.length == 64 && digits.all isLowerHex then some (hexBytes digits)
  else none

theorem isLowerHex_hexDigit {n : ℕ} (h : n < 16) : isLowerHex (hexDigit n) = true := by
  have hall : ∀ k : Fin 16, isLowerHex (hexDigit k) = true := by decide
  exact hall ⟨n, h⟩

theorem exists_hexDigit {c : Char} (h : isLowerHex c = true) : ∃ n < 16, c = hexDigit n := by
  simp only [isLowerHex, Bool.or_eq_true, Bool.and_eq_true, decide_eq_true_eq] at h
  have hval : ∀ a b : Char, a ≤ b ↔ a.toNat ≤ b.toNat := fun a b => by
    rw [Char.le_def, UInt32.le_iff_toNat_le]
    rfl
  simp only [hval] at h
  have h0 : '0'.toNat = 48 := rfl
  have h9 : '9'.toNat = 57 := rfl
  have ha : 'a'.toNat = 97 := rfl
  have hf : 'f'.toNat = 102 := rfl
  rw [h0, h9, ha, hf] at h
  have hdigit : ∀ k : Fin 16, (hexDigit k).toNat = if k.val < 10 then 48 + k.val else 87 + k.val := by decide
  rcases h with ⟨h1, h2⟩ | ⟨h1, h2⟩
  · have hk := hdigit ⟨c.toNat - 48, by omega⟩
    rw [if_pos (by show c.toNat - 48 < 10; omega)] at hk
    refine ⟨c.toNat - 48, by omega, Char.toNat_inj.mp (hk.trans ?_).symm⟩
    show 48 + (c.toNat - 48) = c.toNat
    omega
  · have hk := hdigit ⟨c.toNat - 87, by omega⟩
    rw [if_neg (by show ¬ c.toNat - 87 < 10; omega)] at hk
    refine ⟨c.toNat - 87, by omega, Char.toNat_inj.mp (hk.trans ?_).symm⟩
    show 87 + (c.toNat - 87) = c.toNat
    omega

/-- Lower-case digits in pairs are the text of the bytes they spell. -/
theorem hexText_hexBytes {digits : List Char} (h : digits.length % 2 = 0) (hall : ∀ c ∈ digits, isLowerHex c = true) :
    (hexText (hexBytes digits)).toList = digits := by
  induction digits using List.twoStepInduction with
  | nil => rfl
  | singleton c => exact absurd h (by simp)
  | cons_cons hi lo rest ih _ =>
    have hrest := ih (by simp only [List.length_cons] at h; omega)
      (fun c hc => hall c (List.mem_cons_of_mem _ (List.mem_cons_of_mem _ hc)))
    obtain ⟨n, hn, rfl⟩ := exists_hexDigit (hall hi List.mem_cons_self)
    obtain ⟨m, hm, rfl⟩ := exists_hexDigit (hall lo (List.mem_cons_of_mem _ List.mem_cons_self))
    have hbyte : (UInt8.ofNat (16 * n + m)).toNat = 16 * n + m := by
      rw [UInt8.toNat_ofNat']
      omega
    have hhi : (16 * n + m) / 16 = n := by omega
    have hlo : (16 * n + m) % 16 = m := by omega
    rw [hexText_toList] at hrest ⊢
    rw [hexBytes, hexValue?_hexDigit hn, hexValue?_hexDigit hm, Option.getD_some, Option.getD_some, List.flatMap_cons,
      hrest, hbyte, hhi, hlo]
    rfl

theorem length_hexText (bytes : Bytes) : (hexText bytes).toList.length = 2 * bytes.length := by
  rw [hexText_toList]
  induction bytes with
  | nil => rfl
  | cons b bytes ih =>
    rw [List.flatMap_cons, List.length_append, ih, List.length_cons]
    simp only [List.length_cons, List.length_nil]
    omega

/-- A configured hash is the canonical text of exactly one digest. -/
theorem parseApiKeyHash_eq_some_iff {value : String} {digest : Bytes} :
    parseApiKeyHash value = some digest ↔ digest.length = 32 ∧ value = apiKeyHashPrefix ++ hexText digest := by
  have hdrop : ∀ text : String, (apiKeyHashPrefix ++ text).toList.drop apiKeyHashPrefix.length = text.toList := by
    intro text
    rw [String.toList_append]
    exact List.drop_left
  unfold parseApiKeyHash
  dsimp only
  constructor
  · intro h
    split_ifs at h with hc
    obtain rfl := Option.some.inj h
    simp only [Bool.and_eq_true, beq_iff_eq, List.all_eq_true] at hc
    obtain ⟨⟨hpre, hlen⟩, hall⟩ := hc
    obtain ⟨rest, hrest⟩ := List.isPrefixOf_iff_prefix.mp hpre
    have hvalue : value = apiKeyHashPrefix ++ String.ofList rest := by
      rw [← String.toList_inj, String.toList_append, String.toList_ofList, hrest]
    rw [hvalue, hdrop, String.toList_ofList] at hlen hall ⊢
    have htext := @hexText_hexBytes rest (by omega) hall
    have hlen' := length_hexText (hexBytes rest)
    rw [htext] at hlen'
    refine ⟨by omega, ?_⟩
    rw [← String.ofList_toList (s := hexText (hexBytes rest)), htext]
  · rintro ⟨hlen, rfl⟩
    have hpre : hasPrefix (apiKeyHashPrefix ++ hexText digest) apiKeyHashPrefix = true := by
      rw [hasPrefix, String.toList_append]
      exact List.isPrefixOf_iff_prefix.mpr (List.prefix_append _ _)
    have hall : (hexText digest).toList.all isLowerHex = true := by
      rw [List.all_eq_true]
      intro c hc
      obtain ⟨n, hn, rfl⟩ := mem_hexText hc
      exact isLowerHex_hexDigit hn
    have h64 : ((hexText digest).toList.length == 64) = true := by
      rw [length_hexText, hlen]
      rfl
    rw [hdrop, hpre, h64, hall, hexBytes_hexText]
    rfl

/-- `hash_api_key` and `_parse_api_key_hash` agree on the digest. -/
theorem parseApiKeyHash_eq_sha256_iff {sha256 : Bytes → Bytes} (hsize : ∀ bytes, (sha256 bytes).length = 32)
    {value : String} {secret : Bytes} :
    parseApiKeyHash value = some (sha256 secret) ↔ value = sha256Text sha256 secret := by
  rw [parseApiKeyHash_eq_some_iff, and_iff_right (hsize secret)]
  rfl

/-! ## Tenants -/

/-- `_positive_int`. -/
def positiveInt (value : Json) (name : String) : Except String { n : ℕ // 0 < n } :=
  match value with
  | .int n => if h : 0 < n.toNat then .ok ⟨n.toNat, h⟩ else .error (name ++ " must be positive")
  | _ => .error (name ++ " must be an integer")

/-- `_positive_finite`. -/
def positiveFinite (value : Json) (name : String) : Except String { q : ℚ // 0 < q } :=
  match value with
  | .int n => checked n
  | .float x => checked x.value
  | _ => .error (name ++ " must be a number")
where
  checked (q : ℚ) : Except String { q : ℚ // 0 < q } :=
    if h : 0 < q then .ok ⟨q, h⟩ else .error (name ++ " must be positive and finite")

/-- The constructor of `QuotaPolicy`. -/
def newQuotaPolicy (capacity refillTokensPerSecond : Json) : Except String QuotaPolicy := do
  let ⟨capacity, hcapacity⟩ ← positiveInt capacity "capacity"
  if hmax : capacity ≤ maxQuotaCapacity then do
    let ⟨refill, hrefill⟩ ← positiveFinite refillTokensPerSecond "refill_tokens_per_second"
    if hlimit : refill ≤ maxQuotaRefillTokensPerSecond then
      return ⟨capacity, refill, hcapacity, hmax, hrefill, hlimit⟩
    else .error "refill_tokens_per_second may not exceed 100000"
  else .error "capacity may not exceed 1000000"

/-- `TenantConfig`, with the checks of its constructor as fields; the digest is that of the configured hash. -/
structure TenantConfig where
  tenantId : String
  apiKeyHash : String
  quota : QuotaPolicy
  enabled : Bool
  digest : Bytes
  tenantId_bounded : boundedText (some tenantId) "tenant_id" maxTenantIdBytes = .ok tenantId
  digest_parsed : parseApiKeyHash apiKeyHash = some digest

theorem boundedText_eq_ok {value : Option String} {name text : String} {maxBytes : ℕ}
    (h : boundedText value name maxBytes = .ok text) : value = some text := by
  unfold boundedText at h
  cases value with
  | none => cases h
  | some t =>
    dsimp only at h
    split_ifs at h
    exact congrArg some (Except.ok.inj h)

/-- The constructor of `TenantConfig`, of the members of a document. -/
def newTenantConfig (tenantId apiKeyHash : Option Json) (quota : QuotaPolicy) (enabled : Json) :
    Except String TenantConfig :=
  match hid : boundedText (tenantId.bind Json.str?) "tenant_id" maxTenantIdBytes with
  | .error e => .error e
  | .ok id =>
    match apiKeyHash.bind Json.str? with
    | none => .error "api_key_hash must be a sha256 string"
    | some hash =>
      match hdigest : parseApiKeyHash hash with
      | none => .error "api_key_hash must use canonical sha256:<lowercase hex>"
      | some digest =>
        match enabled with
        | .bool enabled => .ok ⟨id, hash, quota, enabled, digest, boundedText_eq_ok hid ▸ hid, hdigest⟩
        | _ => .error "enabled must be a boolean"

theorem newTenantConfig_eq_ok {tenantId apiKeyHash : Option Json} {quota : QuotaPolicy} {enabled : Json}
    {config : TenantConfig} (h : newTenantConfig tenantId apiKeyHash quota enabled = .ok config) :
    tenantId.bind Json.str? = some config.tenantId ∧ apiKeyHash.bind Json.str? = some config.apiKeyHash ∧
      config.quota = quota ∧ enabled = .bool config.enabled := by
  unfold newTenantConfig at h
  split at h
  · cases h
  · rename_i id hid
    split at h
    · cases h
    · rename_i hash hhash
      split at h
      · cases h
      · split at h
        · obtain rfl := Except.ok.inj h
          exact ⟨boundedText_eq_ok hid, hhash, rfl, rfl⟩
        · cases h

/-! ## The authenticator -/

/-- The record of a tenant in `ApiKeyAuthenticator`. -/
def TenantConfig.record (config : TenantConfig) : TenantRecord := ⟨config.digest, config.tenantId, config.enabled⟩

/-- One turn of the loop in `ApiKeyAuthenticator.__init__`; the sets are those of the records so far. -/
def addTenant (records : List TenantRecord) (config : TenantConfig) : Except String (List TenantRecord) := do
  rejectIf (config.tenantId ∈ records.map TenantRecord.tenantId) "tenant ids must be unique"
  rejectIf (config.digest ∈ records.map TenantRecord.digest) "API key hashes must be unique"
  return records ++ [config.record]

/-- `ApiKeyAuthenticator.__init__`: the records. -/
def authenticatorRecords (configs : List TenantConfig) : Except String (List TenantRecord) := do
  let records ← configs.foldlM addTenant []
  rejectIf records.isEmpty "at least one tenant must be configured"
  return records

theorem addTenant_eq_ok_iff {records records' : List TenantRecord} {config : TenantConfig} :
    addTenant records config = .ok records' ↔ config.tenantId ∉ records.map TenantRecord.tenantId ∧
      config.digest ∉ records.map TenantRecord.digest ∧ records ++ [config.record] = records' := by
  unfold addTenant
  rw [rejectIf_bind_eq_ok, rejectIf_bind_eq_ok, pure_eq_ok]

theorem nodup_map_concat {α β : Type} {f : α → β} {l : List α} {a : α} :
    ((l ++ [a]).map f).Nodup ↔ f a ∉ l.map f ∧ (l.map f).Nodup := by
  rw [List.map_append, List.map_singleton, List.nodup_append_comm, List.singleton_append, List.nodup_cons]

/-- The loop appends the records of the configurations, unless one repeats an id or a digest. -/
theorem foldlM_addTenant_eq_ok_iff {configs : List TenantConfig} {records records' : List TenantRecord}
    (hids : (records.map TenantRecord.tenantId).Nodup) (hdigests : (records.map TenantRecord.digest).Nodup) :
    configs.foldlM addTenant records = .ok records' ↔ records ++ configs.map TenantConfig.record = records' ∧
      (records'.map TenantRecord.tenantId).Nodup ∧ (records'.map TenantRecord.digest).Nodup := by
  induction configs generalizing records with
  | nil =>
    rw [List.foldlM_nil, pure_eq_ok, List.map_nil, List.append_nil]
    constructor
    · rintro rfl
      exact ⟨rfl, hids, hdigests⟩
    · rintro ⟨rfl, -, -⟩
      rfl
  | cons config configs ih =>
    have hassoc : records ++ (config :: configs).map TenantConfig.record =
        records ++ [config.record] ++ configs.map TenantConfig.record := by simp
    rw [List.foldlM_cons, bind_eq_ok, hassoc]
    constructor
    · rintro ⟨next, hadd, hrest⟩
      obtain ⟨hid, hdigest, rfl⟩ := addTenant_eq_ok_iff.mp hadd
      exact (ih (nodup_map_concat.mpr ⟨hid, hids⟩) (nodup_map_concat.mpr ⟨hdigest, hdigests⟩)).mp hrest
    · rintro ⟨rfl, hids', hdigests'⟩
      have hnext : ((records ++ [config.record]).map TenantRecord.tenantId).Nodup := by
        rw [List.map_append] at hids'
        exact hids'.of_append_left
      have hnext' : ((records ++ [config.record]).map TenantRecord.digest).Nodup := by
        rw [List.map_append] at hdigests'
        exact hdigests'.of_append_left
      have hadd : addTenant records config = .ok (records ++ [config.record]) :=
        addTenant_eq_ok_iff.mpr ⟨(nodup_map_concat.mp hnext).1, (nodup_map_concat.mp hnext').1, rfl⟩
      exact ⟨_, hadd, (ih hnext hnext').mpr ⟨rfl, hids', hdigests'⟩⟩

/-- What the constructor of `ApiKeyAuthenticator` accepts, and the records it keeps. -/
theorem authenticatorRecords_eq_ok_iff {configs : List TenantConfig} {records : List TenantRecord} :
    authenticatorRecords configs = .ok records ↔ configs ≠ [] ∧ configs.map TenantConfig.record = records ∧
      (records.map TenantRecord.tenantId).Nodup ∧ (records.map TenantRecord.digest).Nodup := by
  have hloop : ∀ kept, configs.foldlM addTenant [] = .ok kept ↔ configs.map TenantConfig.record = kept ∧
      (kept.map TenantRecord.tenantId).Nodup ∧ (kept.map TenantRecord.digest).Nodup :=
    fun kept => foldlM_addTenant_eq_ok_iff (by simp) (by simp)
  unfold authenticatorRecords
  rw [bind_eq_ok]
  constructor
  · rintro ⟨kept, hkept, h⟩
    obtain ⟨hne, h⟩ := rejectIf_bind_eq_ok.mp h
    obtain rfl := pure_eq_ok.mp h
    obtain ⟨rfl, hids, hdigests⟩ := (hloop _).mp hkept
    exact ⟨by simpa using hne, rfl, hids, hdigests⟩
  · rintro ⟨hne, rfl, hids, hdigests⟩
    exact ⟨_, (hloop _).mpr ⟨rfl, hids, hdigests⟩, rejectIf_bind_eq_ok.mpr ⟨by simpa using hne, rfl⟩⟩

/-- With distinct digests, checking every record finds the one enabled tenant of the key, if there is one. -/
theorem authenticate_eq_some_iff {sha256 : Bytes → Bytes} {records : List TenantRecord}
    (hdigests : (records.map TenantRecord.digest).Nodup) {apiKey : Option String} {tenantId : String} :
    authenticate sha256 records apiKey = some tenantId ↔ ∃ key secret, apiKey = some key ∧
      secretBytes key = some secret ∧
        ∃ t ∈ records, t.digest = sha256 secret ∧ t.enabled = true ∧ t.tenantId = tenantId := by
  unfold authenticate
  constructor
  · intro h
    split at h
    · cases h
    · rename_i secret hsecret
      obtain ⟨key, rfl, hkey⟩ := Option.bind_eq_some_iff.mp hsecret
      split at h
      · cases h
      · rename_i t hfind
        split_ifs at h with henabled
        exact ⟨key, secret, rfl, hkey, t, List.mem_reverse.mp (List.mem_of_find?_eq_some hfind),
          by simpa using List.find?_some hfind, henabled, Option.some.inj h⟩
  · rintro ⟨key, secret, rfl, hkey, t, ht, hdigest, henabled, rfl⟩
    have hfind : records.reverse.find? (fun t => t.digest == sha256 secret) = some t := by
      cases hfound : records.reverse.find? (fun t => t.digest == sha256 secret) with
      | none => exact absurd hdigest (by simpa using List.find?_eq_none.mp hfound t (List.mem_reverse.mpr ht))
      | some t' =>
        have hmem := List.mem_reverse.mp (List.mem_of_find?_eq_some hfound)
        have hsame : t'.digest = t.digest := by
          rw [hdigest]
          simpa using List.find?_some hfound
        exact congrArg some (List.inj_on_of_nodup_map hdigests hmem ht hsame)
    simp [hkey, hfind, henabled]

/-! ## The controller -/

/-- `{config.tenant_id: config.quota for config in configs}`. -/
def policiesOf (configs : List TenantConfig) : OrderedDict String QuotaPolicy :=
  configs.foldl (fun policies config => policies.set config.tenantId config.quota) .empty

theorem get?_foldl_policies {configs : List TenantConfig} (hids : (configs.map TenantConfig.tenantId).Nodup)
    (policies : OrderedDict String QuotaPolicy) (tenantId : String) :
    (configs.foldl (fun policies config => policies.set config.tenantId config.quota) policies).get? tenantId =
      ((configs.find? (fun config => config.tenantId == tenantId)).map TenantConfig.quota).or
        (policies.get? tenantId) := by
  induction configs generalizing policies with
  | nil => rfl
  | cons config configs ih =>
    obtain ⟨hfresh, hids⟩ := List.nodup_cons.mp hids
    rw [List.foldl_cons, ih hids, OrderedDict.get?_set]
    by_cases ht : config.tenantId = tenantId
    · subst ht
      have hnone : configs.find? (fun other => other.tenantId == config.tenantId) = none := by
        rw [List.find?_eq_none]
        intro other hmem heq
        exact hfresh (List.mem_map.mpr ⟨other, hmem, by simpa using heq⟩)
      rw [hnone, List.find?_cons_of_pos (by simp), if_pos rfl]
      rfl
    · rw [List.find?_cons_of_neg (by simpa using ht), if_neg (Ne.symm ht)]

/-- The policy of a tenant is the one it is configured with. -/
theorem policiesOf_get?_eq_some_iff {configs : List TenantConfig} (hids : (configs.map TenantConfig.tenantId).Nodup)
    {tenantId : String} {policy : QuotaPolicy} : (policiesOf configs).get? tenantId = some policy ↔
      ∃ config ∈ configs, config.tenantId = tenantId ∧ config.quota = policy := by
  rw [policiesOf, get?_foldl_policies hids, OrderedDict.get?_empty, Option.or_none, Option.map_eq_some_iff]
  constructor
  · rintro ⟨config, hfind, rfl⟩
    exact ⟨config, List.mem_of_find?_eq_some hfind, by simpa using List.find?_some hfind, rfl⟩
  · rintro ⟨config, hmem, rfl, rfl⟩
    cases hfind : configs.find? (fun other => other.tenantId == config.tenantId) with
    | none => exact absurd (List.find?_eq_none.mp hfind config hmem) (by simp)
    | some other =>
      have hsame : other.tenantId = config.tenantId := by simpa using List.find?_some hfind
      exact ⟨other, rfl, congrArg TenantConfig.quota
        (List.inj_on_of_nodup_map hids (List.mem_of_find?_eq_some hfind) hmem hsame)⟩

/-- `AccessController`: its records and policies, with what its constructor has checked. -/
structure AccessController where
  tenants : List TenantRecord
  policies : OrderedDict String QuotaPolicy
  digests_nodup : (tenants.map TenantRecord.digest).Nodup
  /-- Every tenant that can authenticate has a policy. -/
  configured : ∀ t ∈ tenants, ∃ policy, policies.get? t.tenantId = some policy

theorem record_ids (configs : List TenantConfig) :
    (configs.map TenantConfig.record).map TenantRecord.tenantId = configs.map TenantConfig.tenantId := by
  rw [List.map_map]
  rfl

theorem records_configured {configs : List TenantConfig} {records : List TenantRecord}
    (h : authenticatorRecords configs = .ok records) :
    ∀ t ∈ records, ∃ policy, (policiesOf configs).get? t.tenantId = some policy := by
  obtain ⟨-, rfl, hids, -⟩ := authenticatorRecords_eq_ok_iff.mp h
  rw [record_ids] at hids
  intro t ht
  obtain ⟨config, hmem, rfl⟩ := List.mem_map.mp ht
  exact ⟨config.quota, (policiesOf_get?_eq_some_iff hids).mpr ⟨config, hmem, rfl, rfl⟩⟩

theorem records_digests {configs : List TenantConfig} {records : List TenantRecord}
    (h : authenticatorRecords configs = .ok records) : (records.map TenantRecord.digest).Nodup :=
  (authenticatorRecords_eq_ok_iff.mp h).2.2.2

/-- `AccessController.__init__`; the checks of `TokenBucketLimiter.__init__` are met by the records. -/
def newAccessController (configs : List TenantConfig) : Except String AccessController :=
  match h : authenticatorRecords configs with
  | .error e => .error e
  | .ok records => .ok ⟨records, policiesOf configs, records_digests h, records_configured h⟩

theorem newAccessController_eq_ok {configs : List TenantConfig} {access : AccessController}
    (h : newAccessController configs = .ok access) :
    authenticatorRecords configs = .ok access.tenants ∧ access.policies = policiesOf configs := by
  unfold newAccessController at h
  split at h
  · cases h
  · rename_i records hrecords
    obtain rfl := Except.ok.inj h
    exact ⟨hrecords, rfl⟩

/-- A tenant that authenticates has a policy. -/
theorem AccessController.policy {access : AccessController} {sha256 : Bytes → Bytes} {apiKey : Option String}
    {tenantId : String} (h : authenticate sha256 access.tenants apiKey = some tenantId) :
    ∃ policy, access.policies.get? tenantId = some policy := by
  obtain ⟨-, -, -, -, t, ht, -, -, rfl⟩ := (authenticate_eq_some_iff access.digests_nodup).mp h
  exact access.configured t ht

/-! ## Configured tenants -/

def maxTenantConfigBytes : ℕ := 64 * 1024
def maxTenants : ℕ := 256

/-- The fields a tenant of the document may have. -/
def tenantFields : List String := ["tenant_id", "api_key_hash", "capacity", "refill_tokens_per_second", "enabled"]

/-- The quota of a tenant of the document, with its defaults. -/
def tenantQuota (members : List (String × Json)) : Except String QuotaPolicy :=
  newQuotaPolicy ((Json.lookup "capacity" members).getD (.int 60))
    ((Json.lookup "refill_tokens_per_second" members).getD (.float ⟨"1.0", 1⟩))

/-- One turn of the loop in `_parse_tenants`. -/
def parseTenant : Json → Except String TenantConfig
  | .obj members => do
    rejectIf (members.any (fun m => !tenantFields.contains m.1)) "tenant configuration contains unsupported fields"
    rejectIf (Json.lookup "api_key" members).isSome
      "tenant configuration must contain hashes, never plaintext keys"
    let quota ← (tenantQuota members).mapError fun _ => "tenant configuration is invalid"
    (newTenantConfig (Json.lookup "tenant_id" members) (Json.lookup "api_key_hash" members) quota
      ((Json.lookup "enabled" members).getD (.bool true))).mapError fun _ => "tenant configuration is invalid"
  | _ => .error "tenant configuration contains unsupported fields"

/-- The tenants of a document. -/
def tenantsOf : Json → Except String (List TenantConfig)
  | .arr items => do
    rejectIf (items.length < 1 ∨ maxTenants < items.length) "LUCENT_TENANTS_JSON must contain 1 to 256 tenants"
    items.mapM parseTenant
  | _ => .error "LUCENT_TENANTS_JSON must contain 1 to 256 tenants"

/-- `_parse_tenants`. -/
def parseTenants (readFloat : List Char → PyFloat) (raw : Option String) : Except String (List TenantConfig) :=
  match raw with
  | none => .ok []
  | some raw =>
    if raw = "" then .ok []
    else do
      rejectIf (maxTenantConfigBytes < encodedLength raw) "LUCENT_TENANTS_JSON exceeds its 64 KiB limit"
      let value ← (Json.loadsUnique readFloat (utf8 raw)).elim
        (.error "LUCENT_TENANTS_JSON must be valid bounded JSON") .ok
      tenantsOf value

/-- The item configures this tenant: its id, the hash of its key, its quota, and that it is not disabled. -/
structure Configures (item : Json) (tenantId apiKeyHash : String) (quota : QuotaPolicy) : Prop where
  id : item.get? "tenant_id" = some (.str tenantId)
  hash : item.get? "api_key_hash" = some (.str apiKeyHash)
  quota : ∃ members, item = .obj members ∧ tenantQuota members = .ok quota
  enabled : item.get? "enabled" = none ∨ item.get? "enabled" = some (.bool true)

theorem bind_str?_eq_some {value : Option Json} {text : String} (h : value.bind Json.str? = some text) :
    value = some (.str text) := by
  obtain ⟨v, rfl, hv⟩ := Option.bind_eq_some_iff.mp h
  cases v with
  | str s =>
    obtain rfl := Option.some.inj hv
    rfl
  | _ => cases hv

/-- What an item of the document says of the tenant that is read from it. -/
theorem parseTenant_configures_iff {item : Json} {config : TenantConfig} (h : parseTenant item = .ok config)
    {tenantId apiKeyHash : String} {quota : QuotaPolicy} : Configures item tenantId apiKeyHash quota ↔
      config.tenantId = tenantId ∧ config.apiKeyHash = apiKeyHash ∧ config.quota = quota ∧ config.enabled = true := by
  cases item with
  | obj members =>
    obtain ⟨-, h⟩ := rejectIf_bind_eq_ok.mp h
    obtain ⟨-, h⟩ := rejectIf_bind_eq_ok.mp h
    obtain ⟨read, hquota, h⟩ := bind_eq_ok.mp h
    obtain ⟨hid, hhash, rfl, henabled⟩ := newTenantConfig_eq_ok (mapError_eq_ok.mp h)
    have hid := bind_str?_eq_some hid
    have hhash := bind_str?_eq_some hhash
    have hquota := mapError_eq_ok.mp hquota
    constructor
    · rintro ⟨hid', hhash', ⟨_, ⟨⟩, hquota'⟩, henabled'⟩
      have hon : (Json.lookup "enabled" members).getD (.bool true) = .bool true := by
        rcases henabled' with hnone | hsome
        · rw [show Json.lookup "enabled" members = none from hnone]
          rfl
        · rw [show Json.lookup "enabled" members = some (.bool true) from hsome]
          rfl
      refine ⟨?_, ?_, ?_, ?_⟩
      · exact Json.str.inj (Option.some.inj (hid.symm.trans hid'))
      · exact Json.str.inj (Option.some.inj (hhash.symm.trans hhash'))
      · exact Except.ok.inj (hquota.symm.trans hquota')
      · exact Json.bool.inj (henabled.symm.trans hon)
    · rintro ⟨rfl, rfl, rfl, hon⟩
      rw [hon] at henabled
      refine ⟨hid, hhash, ⟨members, rfl, hquota⟩, ?_⟩
      show Json.lookup "enabled" members = none ∨ Json.lookup "enabled" members = some (.bool true)
      cases hlookup : Json.lookup "enabled" members with
      | none => exact .inl rfl
      | some v =>
        rw [hlookup] at henabled
        exact .inr (congrArg some henabled)
  | _ => cases h

/-- **From the configured text to the request.**  Of the tenants that `LUCENT_TENANTS_JSON` names, a key
authenticates the one whose item has the hash of the key and is not disabled, and nobody otherwise; it is metered
by the quota of that item. -/
theorem authenticate_configured_iff {sha256 : Bytes → Bytes} (hsize : ∀ bytes, (sha256 bytes).length = 32)
    {readFloat : List Char → PyFloat} {raw : String} (hraw : raw ≠ "") {configs : List TenantConfig}
    (hparse : parseTenants readFloat (some raw) = .ok configs) {access : AccessController}
    (hnew : newAccessController configs = .ok access) (apiKey : Option String) (tenantId : String)
    (policy : QuotaPolicy) :
    (authenticate sha256 access.tenants apiKey = some tenantId ∧ access.policies.get? tenantId = some policy) ↔
      ∃ key hash items item, apiKey = some key ∧ hashApiKey sha256 key = some hash ∧
        Json.loadsUnique readFloat (utf8 raw) = some (.arr items) ∧ item ∈ items ∧
        Configures item tenantId hash policy := by
  obtain ⟨hrecords, hpolicies⟩ := newAccessController_eq_ok hnew
  obtain ⟨-, htenants, hids, hdigests⟩ := authenticatorRecords_eq_ok_iff.mp hrecords
  rw [← htenants, record_ids] at hids
  -- the items of the document, and the configuration of each
  rw [parseTenants] at hparse
  simp only [if_neg hraw] at hparse
  obtain ⟨-, hparse⟩ := rejectIf_bind_eq_ok.mp hparse
  obtain ⟨value, hvalue, hparse⟩ := bind_eq_ok.mp hparse
  have hloads := elim_ok_eq_ok.mp hvalue
  obtain ⟨items, rfl⟩ : ∃ items, value = .arr items := by
    cases value with
    | arr items => exact ⟨items, rfl⟩
    | _ => cases hparse
  obtain ⟨-, hmap⟩ := rejectIf_bind_eq_ok.mp hparse
  rw [authenticate_eq_some_iff hdigests, hpolicies, policiesOf_get?_eq_some_iff hids]
  constructor
  · rintro ⟨⟨key, secret, rfl, hsecret, t, ht, hdigest, henabled, rfl⟩, config', hmem', hid', rfl⟩
    rw [← htenants] at ht
    obtain ⟨config, hmem, rfl⟩ := List.mem_map.mp ht
    obtain rfl := List.inj_on_of_nodup_map hids hmem' hmem hid'
    obtain ⟨item, hitem, hconfig⟩ := exists_of_mapM hmap hmem
    have hparsed := config'.digest_parsed
    have hhash : config'.apiKeyHash = sha256Text sha256 secret := by
      rw [show config'.digest = sha256 secret from hdigest] at hparsed
      exact (parseApiKeyHash_eq_sha256_iff hsize).mp hparsed
    refine ⟨key, config'.apiKeyHash, items, item, rfl, ?_, hloads, hitem,
      (parseTenant_configures_iff hconfig).mpr ⟨rfl, rfl, rfl, henabled⟩⟩
    rw [hashApiKey, hsecret, hhash]
    rfl
  · rintro ⟨key, hash, items', item, rfl, hkey, hloads', hitem, hitemConfig⟩
    obtain rfl : items = items' := Json.arr.inj (Option.some.inj (hloads.symm.trans hloads'))
    obtain ⟨config, hmem, hconfig⟩ := exists_of_mem_mapM hmap hitem
    obtain ⟨rfl, rfl, rfl, henabled⟩ := (parseTenant_configures_iff hconfig).mp hitemConfig
    obtain ⟨secret, hsecret, hhash⟩ := Option.map_eq_some_iff.mp hkey
    have hdigest : config.digest = sha256 secret := by
      have hparsed := config.digest_parsed
      rw [← hhash, (parseApiKeyHash_eq_sha256_iff hsize).mpr rfl] at hparsed
      exact (Option.some.inj hparsed).symm
    refine ⟨⟨key, secret, rfl, hsecret, config.record, ?_, hdigest, henabled, rfl⟩, config, hmem, rfl, rfl⟩
    rw [← htenants]
    exact List.mem_map_of_mem hmem

/-- SHA-256 of the key. -/
def keyHash : String := "sha256:2c70e12b7a0646f92279f427c7b38e7334d8e5389cff167a1dc30e73f826b683"

/-- SHA-256 of the key, and of no bytes. -/
def keySha256 (data : Bytes) : Bytes :=
  if data = utf8 "key" then hexBytes "2c70e12b7a0646f92279f427c7b38e7334d8e5389cff167a1dc30e73f826b683".toList
  else hexBytes "e3b0c44298fc1c149afbf4c8996fb92427ae41e4649b934ca495991b7852b855".toList

theorem length_keySha256 (data : Bytes) : (keySha256 data).length = 32 := by
  unfold keySha256
  split_ifs <;> decide

/-- One tenant, with the hash of the key. -/
def oneTenant : String := "[\x7b\"tenant_id\":\"a\",\"api_key_hash\":\"" ++ keyHash ++ "\"\x7d]"

def noFloat (_ : List Char) : PyFloat := ⟨"", 0⟩

/-- The document has one item, and the configuration is accepted. -/
def acceptsOneTenant : Bool :=
  (match Json.loadsUnique noFloat (utf8 oneTenant) with
    | some (.arr [.obj [(key, .str tenantId), (key', .str hash)]]) =>
      decide (key = "tenant_id" ∧ tenantId = "a" ∧ key' = "api_key_hash" ∧ hash = keyHash)
    | _ => false) &&
  (match parseTenants noFloat (some oneTenant) with
    | .ok configs => (newAccessController configs).isOk
    | .error _ => false)

theorem authenticate_configured_iff_oneTenant : ∃ access policy,
    authenticate keySha256 (AccessController.tenants access) (some "key") = some "a" ∧
      access.policies.get? "a" = some policy := by
  have haccepts : acceptsOneTenant = true := by decide +kernel
  obtain ⟨hdocument, hconfigs⟩ := Bool.and_eq_true_iff.mp haccepts
  split at hdocument
  · rename_i key tenantId key' hash hloads
    obtain ⟨rfl, rfl, rfl, rfl⟩ := of_decide_eq_true hdocument
    split at hconfigs
    · rename_i configs hparse
      cases hnew : newAccessController configs with
      | error e =>
        rw [hnew] at hconfigs
        exact absurd hconfigs Bool.false_ne_true
      | ok access =>
        have hhash : hashApiKey keySha256 "key" = some keyHash := by decide +kernel
        exact ⟨access, _, (authenticate_configured_iff length_keySha256 (by decide) hparse hnew (some "key") "a" _).mpr
          ⟨"key", keyHash, _, _, rfl, hhash, hloads, List.mem_cons_self, rfl, rfl, ⟨_, rfl, rfl⟩, .inl rfl⟩⟩
    · exact absurd hconfigs Bool.false_ne_true
  · exact absurd hdocument Bool.false_ne_true

end Lucent.Hosted
