import Lucent.Lib.RoundTrip
import Lucent.VerifiedSource.Limits
import Lucent.VerifiedSource.World

/-!
# Lucent.VerifiedSource.Completeness — `resolve_verified_source` against a network that serves a world

Each reader of the resolver returns what the world holds, and no more than that; so does the loop over the proxies, and
so does the resolution.

* `Room`: the requests, calls and ids that are left; `httpJson_exactly`, `rpcCall_exactly`: one request.
* `proxyTurn_exactly`, `proxyHop_exactly`: the halves of a turn; `proxyLoop_exactly`: the loop.
* `resolveVerifiedSource_exact`: the resolver is sound and complete.
-/

namespace Lucent.VerifiedSource

open Lucent.Lib

variable {net : Network} {world : World} {chainId : ℤ} {blockTag : String}

/-! ## Requests -/

/-- The counters leave room for so many more calls. -/
def Room (k : ℕ) (c : Client) : Prop :=
  c.requests + k ≤ maxRpcCalls ∧ c.calls + k ≤ maxRpcCalls ∧ c.nextId + k ≤ maxRpcCalls + 1

theorem Room.mono {m n : ℕ} {c : Client} (hle : m ≤ n) (h : Room n c) : Room m c := by
  obtain ⟨h₁, h₂, h₃⟩ := h
  exact ⟨by omega, by omega, by omega⟩

/-- The request that is sent as the `n`-th one. -/
def sentRequest (net : Network) (method url : String) (body : Option Bytes) (maxResponseBytes n : ℕ) : HttpRequest where
  method := method
  url := url
  headers := [("Accept", "application/json"), ("User-Agent", "lucent-verified-source/0.2")] ++
    (if body.isSome then [("Content-Type", "application/json")] else [])
  body := body
  timeoutSeconds := min 4 (net.start + 24 - net.clock n)
  maxResponseBytes := maxResponseBytes

/-- **One request** in time: it returns what the checks let through. -/
theorem httpJson_eq_ok_iff {method url : String} {body : Option Bytes} {maxResponseBytes : ℕ}
    {notFoundCode : Option String} {c c' : Client} (htime : net.clock (c.requests + 1) < net.start + 24)
    (hroom : c.requests + 1 ≤ maxRpcCalls) {value : Json} :
    httpJson net method url body maxResponseBytes notFoundCode c = .ok value c' ↔
      ∃ response, answered (net.transport (c.requests + 1)
          (sentRequest net method url body maxResponseBytes (c.requests + 1))) = .ok response ∧
        readResponse net maxResponseBytes notFoundCode response = .ok value ∧
        c' = { c with requests := c.requests + 1, exchanges := c.exchanges ++
          [(sentRequest net method url body maxResponseBytes (c.requests + 1), response)] } := by
  have hlimit : maxRpcCalls ≤ maxHttpRequests := by decide
  have hpass : ¬ (c.requests + 1 > maxHttpRequests ∨ net.start + 24 - net.clock (c.requests + 1) ≤ 0) := by
    rintro (h | h)
    · omega
    · exact absurd htime (not_lt.mpr (sub_nonpos.mp h))
  unfold httpJson
  rw [modify_bind_eq_ok, get_bind_eq_ok]
  refine stateless_rejectIf_bind_eq_ok.trans ((and_iff_right hpass).trans (stateless_bind_eq_ok.trans ?_))
  refine exists_congr fun response => and_congr_right fun _ => stateless_bind_eq_ok.trans ⟨?_, ?_⟩
  · rintro ⟨read, hok, h⟩
    rw [modify_bind_eq_ok] at h
    obtain ⟨rfl, rfl⟩ := run_pure_eq_ok.mp h
    exact ⟨hok, rfl⟩
  · rintro ⟨hok, rfl⟩
    exact ⟨value, hok, run_pure_eq_ok.mpr ⟨rfl, rfl⟩⟩

/-- **One call**: it returns the answer of the world. -/
theorem rpcCall_exactly (hserves : Serves net world) (hchain : chainId ∈ rpcChains) (question : Question) :
    Exactly Room 1 (rpcCall net chainId question.method question.params) (world.answer chainId question = some ·) := by
  intro left c hroom
  obtain ⟨hrequests, hcalls, hids⟩ := hroom
  have hmany : ¬ c.calls + 1 > maxRpcCalls := by omega
  have hfirst : c.requests + 1 ≤ maxRpcCalls := by omega
  have hanswer := hserves.rpc (c.requests + 1) hfirst c.nextId (by omega) chainId hchain question
    (sentRequest net "POST" (rpcEndpoint chainId) (some (rpcBody c.nextId question.method question.params))
      rpcResponseBytes (c.requests + 1)) rfl rfl rfl
  have hhttp := fun document c' => @httpJson_eq_ok_iff net "POST" (rpcEndpoint chainId)
    (some (rpcBody c.nextId question.method question.params)) rpcResponseBytes none
    { c with calls := c.calls + 1, nextId := c.nextId + 1 } c' (hserves.in_time _ hfirst) hfirst document
  constructor
  · intro value c' h
    unfold rpcCall at h
    rw [modify_bind_eq_ok, get_bind_eq_ok] at h
    obtain ⟨-, h⟩ := stateless_rejectIf_bind_eq_ok.mp h
    rw [modify_bind_eq_ok] at h
    obtain ⟨document, c₁, hcall, h⟩ := run_bind_eq_ok.mp h
    obtain ⟨hresult, rfl⟩ := stateless_eq_ok.mp h
    obtain ⟨response, hanswered, hread, rfl⟩ := (hhttp document c').mp hcall
    refine ⟨(hanswer value).mp (bind_eq_ok.mpr ⟨document, bind_eq_ok.mpr ⟨response, hanswered, hread⟩, hresult⟩), ?_⟩
    show c.requests + 1 + left ≤ _ ∧ c.calls + 1 + left ≤ _ ∧ c.nextId + 1 + left ≤ _
    omega
  · intro value h
    obtain ⟨document, hreceived, hresult⟩ := bind_eq_ok.mp ((hanswer value).mpr h)
    obtain ⟨response, hanswered, hread⟩ := bind_eq_ok.mp hreceived
    obtain ⟨c', hcall⟩ : ∃ c', httpJson net "POST" (rpcEndpoint chainId)
        (some (rpcBody c.nextId question.method question.params)) rpcResponseBytes none
        { c with calls := c.calls + 1, nextId := c.nextId + 1 } = .ok document c' :=
      ⟨_, (hhttp document _).mpr ⟨response, hanswered, hread, rfl⟩⟩
    refine ⟨c', ?_⟩
    unfold rpcCall
    rw [modify_bind_eq_ok, get_bind_eq_ok]
    refine stateless_rejectIf_bind_eq_ok.mpr ⟨hmany, ?_⟩
    rw [modify_bind_eq_ok]
    exact run_bind_eq_ok.mpr ⟨document, c', hcall, stateless_eq_ok.mpr ⟨hresult, rfl⟩⟩

/-- A record of Sourcify. -/
theorem sourcifyBinding_exactly (hserves : Serves net world) (contract : CodeIdentity) (code : Bytes) :
    Exactly Room 1 (sourcifyBinding net chainId contract code) fun binding =>
      ∃ members, world.source (sourcifyContract chainId contract.address) = some (.obj members) ∧
        Recorded net chainId contract code binding.1 binding.2.1 binding.2.2 members := by
  have hhttp : Exactly Room 1 (httpJson net "GET" (sourcifyContract chainId contract.address) none sourcifyResponseBytes
      (some "SOURCE_NOT_VERIFIED")) (world.source (sourcifyContract chainId contract.address) = some ·) := by
    intro left c hroom
    obtain ⟨hrequests, hcalls, hids⟩ := hroom
    have hfirst : c.requests + 1 ≤ maxRpcCalls := by omega
    have hsource := hserves.source (c.requests + 1) hfirst (sentRequest net "GET"
      (sourcifyContract chainId contract.address) none sourcifyResponseBytes (c.requests + 1)) rfl rfl
    constructor
    · intro document c' h
      obtain ⟨response, hanswered, hread, rfl⟩ := (httpJson_eq_ok_iff (hserves.in_time _ hfirst) hfirst).mp h
      refine ⟨(hsource document).mp (bind_eq_ok.mpr ⟨response, hanswered, hread⟩), ?_⟩
      show c.requests + 1 + left ≤ _ ∧ c.calls + left ≤ _ ∧ c.nextId + left ≤ _
      omega
    · intro document h
      obtain ⟨response, hanswered, hread⟩ := bind_eq_ok.mp ((hsource document).mpr h)
      exact ⟨_, (httpJson_eq_ok_iff (hserves.in_time _ hfirst) hfirst).mpr ⟨response, hanswered, hread, rfl⟩⟩
  refine (hhttp.bind fun document _ => exactly_stateless (readBinding net chainId contract code document)).congr ?_
  rintro ⟨runtimeMatch, abiHash, abiJson⟩
  constructor
  · rintro ⟨document, hdocument, hbinding⟩
    obtain ⟨members, rfl, hrecorded⟩ := readBinding_eq_ok_iff.mp hbinding
    exact ⟨members, hdocument, hrecorded⟩
  · rintro ⟨members, hdocument, hrecorded⟩
    exact ⟨.obj members, hdocument, readBinding_eq_ok_iff.mpr ⟨members, rfl, hrecorded⟩⟩

/-! ## Readers -/

section Readers

variable (hserves : Serves net world) (hchain : chainId ∈ rpcChains)
include hserves hchain

theorem finalizedBlock_exactly :
    Exactly Room 1 (finalizedBlock net chainId) fun found =>
      BlockAt world chainId "finalized" found.1 ∧ found.2 = hexTag found.1.number := by
  refine ((rpcCall_exactly hserves hchain (.block "finalized")).bind fun value _ =>
    exactly_stateless (blockIdentity _ value)).congr ?_
  rintro ⟨block, tag⟩
  constructor
  · rintro ⟨value, hvalue, hblock⟩
    obtain ⟨members, rfl, hnumber, hhash⟩ := blockIdentity_eq_ok_iff.mp hblock
    exact ⟨⟨members, tag, hvalue, hnumber, hhash⟩, quantity_tag hnumber⟩
  · rintro ⟨⟨members, canonical, hvalue, hnumber, hhash⟩, htag⟩
    obtain rfl : tag = canonical := htag.trans (quantity_tag hnumber).symm
    exact ⟨.obj members, hvalue, blockIdentity_eq_ok_iff.mpr ⟨members, rfl, hnumber, hhash⟩⟩

theorem assertCanonicalBlock_exactly (block : BlockIdentity) :
    Exactly Room 1 (assertCanonicalBlock net chainId block blockTag) fun _ => BlockAt world chainId blockTag block := by
  refine ((rpcCall_exactly hserves hchain (.block blockTag)).bind fun value _ =>
    Exactly.after (x := blockIdentity _ value) fun again _ =>
    exactly_stateless (rejectIf (again.1.number ≠ block.number ∨ again.1.hash ≠ block.hash) _)).congr fun u => ?_
  constructor
  · rintro ⟨value, hvalue, ⟨again, tag⟩, hblock, hsame⟩
    obtain ⟨hnumber, hhash⟩ := not_or.mp (rejectIf_eq_ok.mp hsame)
    obtain ⟨members, rfl, hread, htext⟩ := blockIdentity_eq_ok_iff.mp hblock
    rw [not_ne_iff.mp hnumber] at hread
    rw [not_ne_iff.mp hhash] at htext
    exact ⟨members, tag, hvalue, hread, htext⟩
  · rintro ⟨members, tag, hvalue, hread, htext⟩
    exact ⟨.obj members, hvalue, (block, tag), blockIdentity_eq_ok_iff.mpr ⟨members, rfl, hread, htext⟩,
      rejectIf_eq_ok.mpr (by simp)⟩

theorem codeIdentity_exactly (address : String) :
    Exactly Room 1 (codeIdentity net chainId address blockTag) fun found =>
      CodeAt net world chainId blockTag address found.1 found.2 := by
  refine ((rpcCall_exactly hserves hchain (.code address blockTag)).bind fun value _ =>
    Exactly.after (x := dataBytes maxCodeBytes "bytecode" (some value)) fun raw _ =>
    Exactly.unless (c := raw = []) fun _ => exactly_pure (identityOf net address raw, raw)).congr ?_
  rintro ⟨identity, raw⟩
  constructor
  · rintro ⟨value, hvalue, data, hdata, hne, heq⟩
    obtain ⟨rfl, rfl⟩ := Prod.mk.inj heq
    exact ⟨value, hvalue, hdata, hne, rfl⟩
  · rintro ⟨value, hvalue, hdata, hne, hidentity⟩
    exact ⟨value, hvalue, raw, hdata, hne, Prod.ext hidentity rfl⟩

theorem slotAddress_exactly (address slot : String) :
    Exactly Room 1 (slotAddress net chainId address slot blockTag) (SlotAt world chainId blockTag address slot) := by
  refine ((rpcCall_exactly hserves hchain (.storage address slot blockTag)).bind fun value _ =>
    Exactly.after (x := dataBytes 32 "storage word" (some value)) fun raw _ =>
    Exactly.unless (c := raw.length ≠ 32 ∨ (raw.take 12).any (· != 0) = true) fun _ =>
    exactly_pure (if (raw.drop 12).any (· != 0) then some (wordAddress raw) else none)).congr fun held => ?_
  constructor
  · rintro ⟨value, hvalue, raw, hraw, hshape, hheld⟩
    exact ⟨value, raw, hvalue, hraw, holds_iff.mpr ⟨hshape, hheld⟩⟩
  · rintro ⟨value, raw, hvalue, hraw, hholds⟩
    obtain ⟨hshape, hheld⟩ := holds_iff.mp hholds
    exact ⟨value, hvalue, raw, hraw, hshape, hheld⟩

theorem beaconImplementation_exactly (beacon : String) :
    Exactly Room 1 (beaconImplementation net chainId beacon blockTag) (BeaconAt world chainId blockTag beacon) := by
  refine ((rpcCall_exactly hserves hchain (.implementation beacon blockTag)).bind fun value _ =>
    Exactly.after (x := dataBytes 32 "beacon result" (some value)) fun raw _ =>
    Exactly.unless (c := raw.length ≠ 32 ∨ (raw.take 12).any (· != 0) = true ∨ (!(raw.drop 12).any (· != 0)) = true)
    fun _ => exactly_pure (wordAddress raw)).congr fun implementation => ?_
  constructor
  · rintro ⟨value, hvalue, raw, hraw, hshape, rfl⟩
    exact ⟨value, raw, hvalue, hraw, holds_some_iff.mpr ⟨hshape, rfl⟩⟩
  · rintro ⟨value, raw, hvalue, hraw, hholds⟩
    obtain ⟨hshape, hheld⟩ := holds_some_iff.mp hholds
    exact ⟨value, hvalue, raw, hraw, hshape, hheld.symm⟩

end Readers

/-! ## The proxy loop -/

/-- What half a turn has found at a contract that is new. -/
def TurnAt (net : Network) (world : World) (chainId : ℤ) (blockTag : String) (visited : List String) (current : String)
    (turn : ProxyTurn) : Prop :=
  current ∉ visited ∧ CodeAt net world chainId blockTag current turn.identity turn.code ∧
    SlotAt world chainId blockTag current eip1967ImplementationSlot turn.implementation ∧
    SlotAt world chainId blockTag current eip1967BeaconSlot turn.beaconAddress ∧
    ¬ (turn.implementation.isSome ∧ turn.beaconAddress.isSome)

/-- The hop of such a turn. -/
def HopAt (net : Network) (world : World) (chainId : ℤ) (blockTag : String) (visited : List String)
    (identity : CodeIdentity) (implementation : Option String) : Option String → ProxyHop → Prop
  | none, hop => hop = ⟨identity, .eip1967Implementation, implementation.getD "", none⟩
  | some beacon, hop => beacon ∉ visited ∧ ∃ beaconIdentity beaconCode next,
      CodeAt net world chainId blockTag beacon beaconIdentity beaconCode ∧
      BeaconAt world chainId blockTag beacon next ∧ next ≠ beacon ∧
      hop = ⟨identity, .eip1967Beacon, next, some beaconIdentity⟩

theorem CodeAt.address {address : String} {identity : CodeIdentity} {code : Bytes}
    (h : CodeAt net world chainId blockTag address identity code) : identity.address = address := by
  obtain ⟨_, _, _, _, rfl⟩ := h
  rfl

/-- The world has one code at an address. -/
theorem CodeAt.unique {address : String} {identity identity' : CodeIdentity} {code code' : Bytes}
    (h : CodeAt net world chainId blockTag address identity code)
    (h' : CodeAt net world chainId blockTag address identity' code') : identity = identity' ∧ code = code' := by
  obtain ⟨value, hvalue, hdata, -, rfl⟩ := h
  obtain ⟨value', hvalue', hdata', -, rfl⟩ := h'
  obtain rfl := Option.some.inj (hvalue.symm.trans hvalue')
  obtain rfl := Except.ok.inj (hdata.symm.trans hdata')
  exact ⟨rfl, rfl⟩

/-- And one address in a slot. -/
theorem SlotAt.unique {address slot : String} {held held' : Option String}
    (h : SlotAt world chainId blockTag address slot held) (h' : SlotAt world chainId blockTag address slot held') :
    held = held' := by
  obtain ⟨value, word, hvalue, hword, hholds⟩ := h
  obtain ⟨value', word', hvalue', hword', hholds'⟩ := h'
  obtain rfl := Option.some.inj (hvalue.symm.trans hvalue')
  obtain rfl := Except.ok.inj (hword.symm.trans hword')
  exact (holds_iff.mp hholds).2.trans (holds_iff.mp hholds').2.symm

section Turns

variable (hserves : Serves net world) (hchain : chainId ∈ rpcChains)
include hserves hchain

theorem proxyTurn_exactly (visited : List String) (current : String) :
    Exactly Room 3 (proxyTurn net chainId blockTag visited current)
      (TurnAt net world chainId blockTag visited current) := by
  refine (Exactly.unless (c := current ∈ visited) fun _ =>
    (codeIdentity_exactly hserves hchain current).bind fun found _ =>
    (slotAddress_exactly hserves hchain current eip1967ImplementationSlot).bind fun implementation _ =>
    (slotAddress_exactly hserves hchain current eip1967BeaconSlot).bind fun beaconAddress _ =>
    Exactly.unless (c := implementation.isSome ∧ beaconAddress.isSome) fun _ =>
    exactly_pure (⟨found.1, found.2, implementation, beaconAddress⟩ : ProxyTurn)).congr fun turn => ?_
  constructor
  · rintro ⟨hnew, ⟨identity, code⟩, hcode, implementation, himplementation, beaconAddress, hbeacon, hone, rfl⟩
    exact ⟨hnew, hcode, himplementation, hbeacon, hone⟩
  · rintro ⟨hnew, hcode, himplementation, hbeacon, hone⟩
    exact ⟨hnew, (turn.identity, turn.code), hcode, turn.implementation, himplementation, turn.beaconAddress, hbeacon,
      hone, rfl⟩

theorem proxyHop_exactly (visited : List String) (identity : CodeIdentity)
    (implementation beaconAddress : Option String) :
    Exactly Room 2 (proxyHop net chainId blockTag visited identity implementation beaconAddress)
      (HopAt net world chainId blockTag visited identity implementation beaconAddress) := by
  cases beaconAddress with
  | none => exact (exactly_pure _).mono Room.mono (Nat.zero_le _)
  | some beacon =>
    refine (Exactly.unless (c := beacon ∈ visited) fun _ =>
      (codeIdentity_exactly hserves hchain beacon).bind fun found _ =>
      (beaconImplementation_exactly hserves hchain beacon).bind fun next _ =>
      Exactly.unless (c := next = beacon) fun _ =>
      exactly_pure (⟨identity, .eip1967Beacon, next, some found.1⟩ : ProxyHop)).congr fun hop => ?_
    constructor
    · rintro ⟨hnew, ⟨beaconIdentity, beaconCode⟩, hcode, next, hnext, hne, rfl⟩
      exact ⟨hnew, beaconIdentity, beaconCode, next, hcode, hnext, hne, rfl⟩
    · rintro ⟨hnew, beaconIdentity, beaconCode, next, hcode, hnext, hne, rfl⟩
      exact ⟨hnew, (beaconIdentity, beaconCode), hcode, next, hnext, hne, rfl⟩

/-- The proxy has code, and its implementation slot alone names the next contract. -/
def Leads (net : Network) (world : World) (chainId : ℤ) (blockTag address next : String) : Prop :=
  (∃ identity code, CodeAt net world chainId blockTag address identity code) ∧
    SlotAt world chainId blockTag address eip1967ImplementationSlot (some next) ∧
    SlotAt world chainId blockTag address eip1967BeaconSlot none

omit hserves hchain in
theorem Leads.turnAt {address next : String} {visited : List String}
    (h : Leads net world chainId blockTag address next) (hnew : address ∉ visited) :
    ∃ identity code, TurnAt net world chainId blockTag visited address ⟨identity, code, some next, none⟩ := by
  obtain ⟨⟨identity, code, hcode⟩, hslot, hbeacon⟩ := h
  exact ⟨identity, code, hnew, hcode, hslot, hbeacon, fun h => Bool.false_ne_true h.2⟩

/-- Where the proxies of the world lead from one to the next, the loop finds as many of them. -/
theorem proxies_of_leads {rest : List String} {current : String} {visited : List String} {c : Client}
    (hleads : (current :: rest).IsChain (Leads net world chainId blockTag)) (hne : rest ≠ [])
    (hnodup : (current :: rest).Nodup) (hnew : ∀ address ∈ current :: rest, address ∉ visited)
    (hroom : Room (3 * rest.length) c) : Proxies net chainId blockTag rest.length visited current c := by
  induction rest generalizing current visited c with
  | nil => exact absurd rfl hne
  | cons next rest ih =>
    obtain ⟨hlead, hleads⟩ := List.isChain_cons_cons.mp hleads
    obtain ⟨hfresh, hnodup⟩ := List.nodup_cons.mp hnodup
    obtain ⟨identity, code, hturn⟩ := hlead.turnAt (hnew current List.mem_cons_self)
    have hexactly := @proxyTurn_exactly net world chainId blockTag hserves hchain visited current (3 * rest.length) c hroom
    obtain ⟨c₁, hstep⟩ := hexactly.2 _ hturn
    obtain ⟨-, hroom₁⟩ := hexactly.1 _ _ hstep
    cases rest with
    | nil => exact .last hstep fun h => by cases h.1
    | cons next' rest =>
      refine .hop hstep (fun h => by cases h.1) rfl (ih hleads (List.cons_ne_nil _ _) hnodup ?_ hroom₁)
      intro address hmem hvisited
      rcases List.mem_cons.mp hvisited with rfl | hvisited
      · exact hfresh hmem
      · exact hnew address (List.mem_cons_of_mem _ hmem) hvisited

end Turns

/-- The chains that the loop may return from a turn on: a way of at most so many hops that has no cycle, behind the hops
so far, with the target of the first turn. -/
def ChainFrom (net : Network) (world : World) (chainId : ℤ) (blockTag : String) (left : ℕ) (visited : List String)
    (target : Option (CodeIdentity × Bytes)) (hops : List ProxyHop) (current : String) (chain : ProxyChain) : Prop :=
  ∃ more code, chain.hops = hops ++ more ∧ more.length ≤ left ∧
    Route net world chainId blockTag current more chain.effective chain.effectiveCode ∧
    Acyclic visited more chain.effective ∧
    CodeAt net world chainId blockTag current (firstContract more chain.effective) code ∧
    (chain.target, chain.targetCode) = target.getD (firstContract more chain.effective, code) ∧
    (chain.hops = [] → hasUnsupportedDispatch chain.targetCode = false)

section Loop

variable {left : ℕ} {visited : List String} {target : Option (CodeIdentity × Bytes)} {hops : List ProxyHop}
  {current : String} {turn : ProxyTurn} {chain : ProxyChain}

/-- A way starts with the code of its first contract. -/
theorem Route.first {address : String} {more : List ProxyHop} {effective : CodeIdentity} {effectiveCode : Bytes}
    (h : Route net world chainId blockTag address more effective effectiveCode) :
    ∃ code, CodeAt net world chainId blockTag address (firstContract more effective) code := by
  cases h with
  | here hcode _ _ => exact ⟨_, hcode⟩
  | implementation hcode _ _ _ => exact ⟨_, hcode⟩
  | beacon hcode _ _ _ _ _ => exact ⟨_, hcode⟩

/-- A chain starts with a turn. -/
theorem ChainFrom.exists_turn (h : ChainFrom net world chainId blockTag left visited target hops current chain) :
    ∃ turn, TurnAt net world chainId blockTag visited current turn := by
  obtain ⟨more, code, -, -, hroute, hacyclic, -⟩ := h
  cases hroute with
  | here hcode himplementation hbeacon =>
    have hnew : current ∉ visited := hcode.address ▸ hacyclic
    exact ⟨⟨_, _, none, none⟩, hnew, hcode, himplementation, hbeacon, by simp⟩
  | @implementation _ identity _ next _ _ _ hcode himplementation hbeacon _ =>
    have hnew : current ∉ visited := hcode.address ▸ hacyclic.1
    exact ⟨⟨_, _, some next, none⟩, hnew, hcode, himplementation, hbeacon, by simp⟩
  | @beacon _ identity _ beacon _ _ next _ _ _ hcode himplementation hbeacon _ _ _ =>
    have hnew : current ∉ visited := hcode.address ▸ hacyclic.1
    exact ⟨⟨_, _, none, some beacon⟩, hnew, hcode, himplementation, hbeacon, by simp⟩

/-- At two empty slots, the chain that ends here. -/
theorem chainFrom_end_iff (hturn : TurnAt net world chainId blockTag visited current turn)
    (hempty : turn.implementation = none ∧ turn.beaconAddress = none) :
    (¬ (hops = [] ∧ hasUnsupportedDispatch (target.getD (turn.identity, turn.code)).2 = true) ∧
      chain = ⟨(target.getD (turn.identity, turn.code)).1, (target.getD (turn.identity, turn.code)).2, turn.identity,
        turn.code, hops⟩) ↔ ChainFrom net world chainId blockTag left visited target hops current chain := by
  obtain ⟨hnew, hcode, himplementation, hbeacon, -⟩ := hturn
  rw [hempty.1] at himplementation
  rw [hempty.2] at hbeacon
  constructor
  · rintro ⟨hdispatch, rfl⟩
    refine ⟨[], turn.code, (List.append_nil _).symm, Nat.zero_le _, .here hcode himplementation hbeacon, ?_, hcode, rfl,
      fun hnil => ?_⟩
    · show turn.identity.address ∉ visited
      rwa [hcode.address]
    · simpa [show hops = [] from hnil] using hdispatch
  · rintro ⟨more, code, hhops, -, hroute, -, hfirst, htarget, hdispatch⟩
    cases hroute with
    | here hread _ _ =>
      obtain ⟨hidentity, rfl⟩ := hfirst.unique hcode
      obtain ⟨heffective, hbytes⟩ := hread.unique hcode
      rw [List.append_nil] at hhops
      rw [hidentity] at htarget
      refine ⟨?_, ?_⟩
      · rintro ⟨hnil, hbad⟩
        rw [← htarget, hdispatch (hhops.trans hnil)] at hbad
        exact absurd hbad Bool.false_ne_true
      · obtain ⟨_, _, _, _, _⟩ := chain
        simp only at hhops heffective hbytes htarget
        rw [← htarget, hhops, heffective, hbytes]
    | implementation _ hslot _ _ => exact absurd (hslot.unique himplementation) (Option.some_ne_none _)
    | beacon _ _ hslot _ _ _ => exact absurd (hslot.unique hbeacon) (Option.some_ne_none _)

/-- At a populated slot, the chains over its hop. -/
theorem chainFrom_hop_iff (hturn : TurnAt net world chainId blockTag visited current turn)
    (hsome : ¬ (turn.implementation = none ∧ turn.beaconAddress = none)) :
    (∃ hop,
      HopAt net world chainId blockTag (current :: visited) turn.identity turn.implementation turn.beaconAddress hop ∧
      ChainFrom net world chainId blockTag left (current :: visited) (some (target.getD (turn.identity, turn.code)))
        (hops ++ [hop]) hop.implementationAddress chain) ↔
    ChainFrom net world chainId blockTag (left + 1) visited target hops current chain := by
  obtain ⟨hnew, hcode, himplementation, hbeacon, hone⟩ := hturn
  have haddress := hcode.address
  constructor
  · rintro ⟨hop, hhop, more, code, hhops, hlength, hroute, hacyclic, -, htarget, hdispatch⟩
    have happend : chain.hops = hops ++ hop :: more := by rw [hhops, List.append_assoc, List.singleton_append]
    have hlonger : (hop :: more).length ≤ left + 1 := Nat.succ_le_succ hlength
    cases hslot : turn.beaconAddress with
    | none =>
      obtain ⟨next, hnext⟩ := Option.ne_none_iff_exists'.mp fun h => hsome ⟨h, hslot⟩
      rw [hnext] at himplementation hhop
      rw [hslot] at hbeacon hhop
      obtain rfl : hop = ⟨turn.identity, .eip1967Implementation, next, none⟩ := hhop
      refine ⟨_, turn.code, happend, hlonger, .implementation hcode himplementation hbeacon hroute, ?_, hcode, htarget,
        hdispatch⟩
      refine ⟨by rwa [haddress], fun beacon h => (by cases h), ?_⟩
      rwa [haddress]
    | some beacon =>
      have hnone : turn.implementation = none := by simpa [hslot] using hone
      rw [hnone] at himplementation hhop
      rw [hslot] at hbeacon hhop
      obtain ⟨hfresh, beaconIdentity, beaconCode, next, hread, htold, hne, rfl⟩ := hhop
      refine ⟨_, turn.code, happend, hlonger, .beacon hcode himplementation hbeacon hread htold hroute, ?_, hcode,
        htarget, hdispatch⟩
      refine ⟨by rwa [haddress], ?_, ?_⟩
      · rintro _ ⟨⟩
        rw [hread.address, haddress]
        exact ⟨hfresh, hne⟩
      · rwa [haddress]
  · rintro ⟨more, code, hhops, hlength, hroute, hacyclic, hfirst, htarget, hdispatch⟩
    cases hroute with
    | here _ h₁ h₂ => exact absurd ⟨himplementation.unique h₁, hbeacon.unique h₂⟩ hsome
    | implementation hread hslot hother hroute =>
      obtain ⟨rfl, rfl⟩ := hread.unique hcode
      obtain ⟨-, rfl⟩ := hfirst.unique hcode
      obtain ⟨-, -, hacyclic⟩ := hacyclic
      obtain ⟨code', hfirst'⟩ := hroute.first
      rw [himplementation.unique hslot, hbeacon.unique hother]
      refine ⟨_, rfl, _, code', ?_, Nat.le_of_succ_le_succ hlength, hroute, ?_, hfirst', htarget, hdispatch⟩
      · rw [hhops, List.append_assoc, List.singleton_append]
        rfl
      · rwa [haddress] at hacyclic
    | beacon hread hother hslot hread' htold hroute =>
      obtain ⟨rfl, rfl⟩ := hread.unique hcode
      obtain ⟨-, rfl⟩ := hfirst.unique hcode
      obtain ⟨-, hbeacons, hacyclic⟩ := hacyclic
      obtain ⟨hfresh, hne⟩ := hbeacons _ rfl
      obtain ⟨code', hfirst'⟩ := hroute.first
      rw [himplementation.unique hother, hbeacon.unique hslot]
      rw [hread'.address, haddress] at hfresh
      rw [hread'.address] at hne
      refine ⟨_, ⟨hfresh, _, _, _, hread', htold, hne, rfl⟩, _, code', ?_, Nat.le_of_succ_le_succ hlength, hroute, ?_,
        hfirst', htarget, hdispatch⟩
      · rw [hhops, List.append_assoc, List.singleton_append]
      · rwa [haddress] at hacyclic

/-- With no hop left there is no chain over one. -/
theorem not_chainFrom_zero (hturn : TurnAt net world chainId blockTag visited current turn)
    (hsome : ¬ (turn.implementation = none ∧ turn.beaconAddress = none)) :
    ¬ ChainFrom net world chainId blockTag 0 visited target hops current chain := by
  rintro ⟨more, code, -, hlength, hroute, -⟩
  obtain ⟨-, -, himplementation, hbeacon, -⟩ := hturn
  obtain rfl := List.length_eq_zero_iff.mp (Nat.le_zero.mp hlength)
  cases hroute with
  | here _ h₁ h₂ => exact hsome ⟨himplementation.unique h₁, hbeacon.unique h₂⟩

/-- The end of the loop. -/
theorem proxyEnd_exactly (hturn : TurnAt net world chainId blockTag visited current turn)
    (hempty : turn.implementation = none ∧ turn.beaconAddress = none) :
    Exactly Room 0 (proxyEnd (target.getD (turn.identity, turn.code)) hops turn)
      (ChainFrom net world chainId blockTag left visited target hops current) :=
  (Exactly.unless fun _ => exactly_pure _).congr fun _ => chainFrom_end_iff hturn hempty

/-- **The loop**: from any turn on, it returns the chains of the world, with three reads in each turn and two more for
each beacon. -/
theorem proxyLoop_exactly (hserves : Serves net world) (hchain : chainId ∈ rpcChains) (left : ℕ) :
    ∀ (visited : List String) (target : Option (CodeIdentity × Bytes)) (hops : List ProxyHop) (current : String),
      Exactly Room (3 + 5 * left) (proxyLoop net chainId blockTag left visited target hops current)
        (ChainFrom net world chainId blockTag left visited target hops current) := by
  induction left with
  | zero =>
    intro visited target hops current
    refine ((proxyTurn_exactly hserves hchain visited current).bind fun turn hturn => ?_).congr fun chain =>
      ⟨fun ⟨_, _, h⟩ => h, fun h => (h.exists_turn).imp fun turn hturn => ⟨hturn, h⟩⟩
    split_ifs with hempty
    · exact proxyEnd_exactly hturn hempty
    · exact (exactly_error _).congr fun chain => ⟨False.elim, not_chainFrom_zero hturn hempty⟩
  | succ left ih =>
    intro visited target hops current
    have hturns : 3 + 5 * (left + 1) = 3 + (2 + (3 + 5 * left)) := by omega
    rw [hturns]
    refine ((proxyTurn_exactly hserves hchain visited current).bind fun turn hturn => ?_).congr fun chain =>
      ⟨fun ⟨_, _, h⟩ => h, fun h => (h.exists_turn).imp fun turn hturn => ⟨hturn, h⟩⟩
    split_ifs with hempty
    · exact (proxyEnd_exactly hturn hempty).mono Room.mono (Nat.zero_le _)
    · exact ((proxyHop_exactly hserves hchain _ _ _ _).bind fun hop _ => ih _ _ _ hop.implementationAddress).congr
        fun chain => chainFrom_hop_iff hturn hempty

end Loop

/-! ## The resolution -/

/-- The chain of a whole loop: no cycle, a clean dispatch where there is no hop, and the target that it starts with. -/
theorem chainFrom_start_iff {address : String} {chain : ProxyChain} :
    ChainFrom net world chainId blockTag maxProxyHops [] none [] address chain ↔
      chain.hops.length ≤ maxProxyHops ∧
        Route net world chainId blockTag address chain.hops chain.effective chain.effectiveCode ∧
        Acyclic [] chain.hops chain.effective ∧
        CodeAt net world chainId blockTag address (firstContract chain.hops chain.effective) chain.targetCode ∧
        chain.target = firstContract chain.hops chain.effective ∧
        (chain.hops = [] → hasUnsupportedDispatch chain.targetCode = false) := by
  constructor
  · rintro ⟨more, code, hhops, hlength, hroute, hacyclic, hfirst, htarget, hdispatch⟩
    obtain rfl : chain.hops = more := hhops
    obtain ⟨hfound, rfl⟩ := Prod.mk.inj htarget
    exact ⟨hlength, hroute, hacyclic, hfirst, hfound, hdispatch⟩
  · rintro ⟨hlength, hroute, hacyclic, hfirst, htarget, hdispatch⟩
    exact ⟨chain.hops, chain.targetCode, rfl, hlength, hroute, hacyclic, hfirst, Prod.ext htarget rfl, hdispatch⟩

/-- The code that has to be free of dispatch is that of the effective contract. -/
theorem Route.code_of_nil {address : String} {hops : List ProxyHop} {effective : CodeIdentity}
    {effectiveCode code : Bytes} (h : Route net world chainId blockTag address hops effective effectiveCode)
    (hfirst : CodeAt net world chainId blockTag address (firstContract hops effective) code) (hnil : hops = []) :
    code = effectiveCode := by
  cases h with
  | here hcode _ _ => exact (hfirst.unique hcode).2
  | implementation _ _ _ _ => exact absurd hnil (List.cons_ne_nil _ _)
  | beacon _ _ _ _ _ _ => exact absurd hnil (List.cons_ne_nil _ _)

/-- **The resolution**, from the clients on: each part of it in its order. -/
theorem resolveWith_exactly (hserves : Serves net world) (hchain : chainId ∈ rpcChains) (address : String) :
    Exactly Room 27 (resolveWith net chainId address) fun result =>
      ∃ value, world.answer chainId .chainId = some value ∧
      ∃ reported : ℕ × String, quantity (some value) = .ok reported ∧ ¬ (reported.1 : ℤ) ≠ chainId ∧
      ∃ found : BlockIdentity × String, (BlockAt world chainId "finalized" found.1 ∧ found.2 = hexTag found.1.number) ∧
      ∃ chain : ProxyChain, ChainFrom net world chainId found.2 maxProxyHops [] none [] address chain ∧
      ∃ binding : String × String × Bytes, (∃ members,
        world.source (sourcifyContract chainId chain.effective.address) = some (.obj members) ∧
        Recorded net chainId chain.effective chain.effectiveCode binding.1 binding.2.1 binding.2.2 members) ∧
      ∃ _ : Unit, BlockAt world chainId found.2 found.1 ∧
        result = ⟨chainId, address, found.1, chain.target, chain.effective, chain.hops, binding.1, binding.2.1,
          binding.2.2⟩ := by
  refine Exactly.bind (k := 1) (l := 26) (rpcCall_exactly hserves hchain .chainId) fun value _ =>
    Exactly.after fun reported _ => ?_
  obtain ⟨reportedChain, _⟩ := reported
  refine Exactly.unless fun _ =>
    Exactly.bind (k := 1) (l := 25) (finalizedBlock_exactly hserves hchain) fun found _ => ?_
  obtain ⟨block, blockTag⟩ := found
  refine Exactly.bind (k := 23) (l := 2) (proxyLoop_exactly hserves hchain maxProxyHops [] none [] address)
    fun chain _ => Exactly.bind (k := 1) (l := 1) (sourcifyBinding_exactly hserves chain.effective chain.effectiveCode)
    fun binding _ => ?_
  obtain ⟨verificationMatch, abiHash, abiJson⟩ := binding
  exact Exactly.bind (assertCanonicalBlock_exactly hserves hchain block) fun _ _ => exactly_pure _

/-- There is room for a resolution at its start. -/
theorem room_start : Room 27 ⟨0, 1, 0, []⟩ := by
  show 0 + 27 ≤ maxRpcCalls ∧ 0 + 27 ≤ maxRpcCalls ∧ 1 + 27 ≤ maxRpcCalls + 1
  decide

/-- A resolution that returns is a run of the clients for a chain and an address that are accepted. -/
theorem resolveVerifiedSource_eq_ok_iff {chainId address : Json} {result : VerifiedSourceResult} :
    (∃ exchanges, resolveVerifiedSource net chainId address = .ok (result, exchanges)) ↔
      ∃ chain text, chainId = .int chain ∧ chain ∈ rpcChains ∧ address = .str text ∧ isHexWord 40 text = true ∧
        ∃ client, resolveWith net chain (lowerAscii text) ⟨0, 1, 0, []⟩ = .ok result client := by
  constructor
  · rintro ⟨exchanges, h⟩
    obtain ⟨chain, hchain, h⟩ := bind_eq_ok.mp h
    obtain ⟨start, haddress, h⟩ := bind_eq_ok.mp h
    obtain ⟨text, htext, hword, rfl⟩ := normalizeAddress_eq_ok_iff.mp haddress
    have hrequested := normalizeChainId_eq_ok_iff.mp hchain
    refine ⟨chain, text, hrequested.1, hrequested.2, Option.some.inj htext, hword, ?_⟩
    split at h
    · next client hrun =>
      obtain ⟨rfl, -⟩ := Prod.mk.inj (Except.ok.inj h)
      exact ⟨client, hrun⟩
    · cases h
  · rintro ⟨chain, text, rfl, hmem, rfl, hword, client, hrun⟩
    have hchain : normalizeChainId (.int chain) = .ok chain := normalizeChainId_eq_ok_iff.mpr ⟨rfl, hmem⟩
    refine ⟨client.exchanges, bind_eq_ok.mpr ⟨chain, hchain, bind_eq_ok.mpr ⟨lowerAscii text, ?_, ?_⟩⟩⟩
    · exact normalizeAddress_eq_ok_iff.mpr ⟨text, rfl, hword, rfl⟩
    · rw [hrun]

/-- What the resolver returns is a resolution of every world that its network serves. -/
theorem resolution_of_eq_ok (hserves : Serves net world) {chainId address : Json} {result : VerifiedSourceResult}
    {exchanges : List Exchange} (h : resolveVerifiedSource net chainId address = .ok (result, exchanges)) :
    ∃ effectiveCode, Resolution net world chainId address result effectiveCode := by
  obtain ⟨chain, text, rfl, hmem, rfl, hword, client, hrun⟩ := resolveVerifiedSource_eq_ok_iff.mp ⟨exchanges, h⟩
  obtain ⟨⟨value, hvalue, ⟨number, canonical⟩, hquantity, hreported, ⟨block, tag⟩, ⟨hfinalized, htag⟩, proxies,
    hproxies, ⟨verificationMatch, abiHash, abiJson⟩, hsource, -, hunchanged, rfl⟩, -⟩ :=
    (resolveWith_exactly hserves hmem (lowerAscii text) 0 ⟨0, 1, 0, []⟩ room_start).1 result client hrun
  obtain rfl : tag = hexTag block.number := htag
  obtain ⟨hlength, hroute, hacyclic, hfirst, htarget, hdispatch⟩ := chainFrom_start_iff.mp hproxies
  exact ⟨proxies.effectiveCode, {
    requested_chain := ⟨rfl, hmem⟩
    requested_address := ⟨text, rfl, hword, rfl⟩
    reported_chain := ⟨value, number, canonical, hvalue, hquantity, not_ne_iff.mp hreported⟩
    finalized := hfinalized
    route := hroute
    acyclic := hacyclic
    bounded := hlength
    dispatch := fun hnil => hroute.code_of_nil hfirst hnil ▸ hdispatch hnil
    target := htarget
    source := hsource
    unchanged := hunchanged }⟩

/-- A resolution of a world that the network serves is returned. -/
theorem eq_ok_of_resolution (hserves : Serves net world) {chainId address : Json} {result : VerifiedSourceResult}
    {effectiveCode : Bytes} (h : Resolution net world chainId address result effectiveCode) :
    ∃ exchanges, resolveVerifiedSource net chainId address = .ok (result, exchanges) := by
  obtain ⟨rfl, hmem⟩ := h.requested_chain
  obtain ⟨text, rfl, hword, haddress⟩ := h.requested_address
  refine resolveVerifiedSource_eq_ok_iff.mpr ⟨result.chainId, text, rfl, hmem, rfl, hword, ?_⟩
  obtain ⟨value, number, canonical, hvalue, hquantity, hreported⟩ := h.reported_chain
  obtain ⟨code, hfirst⟩ := h.route.first
  refine (resolveWith_exactly hserves hmem (lowerAscii text) 0 ⟨0, 1, 0, []⟩ room_start).2 result ⟨value, hvalue,
    (number, canonical), hquantity, not_ne_iff.mpr hreported, (result.block, hexTag result.block.number),
    ⟨h.finalized, rfl⟩, ⟨result.target, code, result.effectiveContract, effectiveCode, result.proxyChain⟩, ?_,
    (result.verificationMatch, result.abiHash, result.abiJson), h.source, (), h.unchanged, ?_⟩
  · rw [← haddress]
    exact chainFrom_start_iff.mpr ⟨h.bounded, h.route, h.acyclic, hfirst, h.target, fun hnil =>
      h.route.code_of_nil hfirst hnil ▸ h.dispatch hnil⟩
  · rw [← haddress]

/-- **Exact resolution**: against a network that serves a world, `resolve_verified_source` returns the resolutions of
that world and nothing else, however the answers are dressed, numbered or timed: it is sound, and it does not fail where
the world has a resolution. -/
theorem resolveVerifiedSource_exact (hserves : Serves net world) (chainId address : Json)
    (result : VerifiedSourceResult) :
    (∃ exchanges, resolveVerifiedSource net chainId address = .ok (result, exchanges)) ↔
      ∃ effectiveCode, Resolution net world chainId address result effectiveCode := by
  constructor
  · rintro ⟨exchanges, h⟩
    exact resolution_of_eq_ok hserves h
  · rintro ⟨effectiveCode, h⟩
    exact eq_ok_of_resolution hserves h

/-! ## A world that is served -/

def demoProxy : String := "0x1111111111111111111111111111111111111111"
def demoContract : String := "0x2222222222222222222222222222222222222222"
def demoWord : Json := .str "0x0000000000000000000000002222222222222222222222222222222222222222"

/-- The implementation slots: a proxy of the contract, and five proxies that lead from one to the next. -/
def demoSlots : List (String × Json) := [(demoProxy, demoWord),
  ("0x3333333333333333333333333333333333333333",
    .str "0x0000000000000000000000004444444444444444444444444444444444444444"),
  ("0x4444444444444444444444444444444444444444",
    .str "0x0000000000000000000000005555555555555555555555555555555555555555"),
  ("0x5555555555555555555555555555555555555555",
    .str "0x0000000000000000000000006666666666666666666666666666666666666666"),
  ("0x6666666666666666666666666666666666666666",
    .str "0x0000000000000000000000007777777777777777777777777777777777777777"),
  ("0x7777777777777777777777777777777777777777",
    .str "0x0000000000000000000000008888888888888888888888888888888888888888")]

/-- The results at the proxies and the contract, by method and parameters. -/
def demoResult (method : String) (params : List Json) : Option Json :=
  if method = "eth_chainId" then some (.str "0x1")
  else if method = "eth_getBlockByNumber" then some demoBlock
  else if method = "eth_getCode" then
    if (params.head?.bind Json.str?) = some demoProxy then some (.str "0x6001") else some (.str "0x600200")
  else if method = "eth_getStorageAt" then
    if (params[1]?.bind Json.str?) = some eip1967ImplementationSlot then
      some (((params.head?.bind Json.str?).bind (Json.lookup · demoSlots)).getD zeroWord)
    else some zeroWord
  else none

def demoAbi : Json := .arr [.obj [("inputs", .arr []), ("name", .str "pause"), ("stateMutability", .str "nonpayable"),
  ("type", .str "function")]]

def demoMembers : List (String × Json) := [("chainId", .str "1"), ("address", .str demoContract),
  ("match", .str "match"), ("runtimeMatch", .str "exact_match"),
  ("runtimeBytecode", .obj [("onchainBytecode", .str "0x600200")]), ("abi", demoAbi)]

def demoRecord : Json := .obj demoMembers

def demoSource (url : String) : Option Json := if url = sourcifyContract 1 demoContract then some demoRecord else none

def demoWorld : World where
  answer _ question := demoResult question.method question.params
  source := demoSource

/-- The answer to a call, by its id, method and parameters. -/
def demoReply (members : List (String × Json)) : TransportAnswer :=
  match Json.lookup "id" members, Json.lookup "method" members, Json.lookup "params" members with
  | some (.int id), some (.str method), some (.arr params) =>
    (demoResult method params).elim .exception (resultAnswer id.toNat)
  | _, _, _ => .exception

/-- The answer to any request, which is read from its body. -/
def demoTransport (request : HttpRequest) : TransportAnswer :=
  match request.body with
  | none => (demoSource request.url).elim .exception documentAnswer
  | some body => match Json.loads Json.textOnly body with
    | some (.obj members) => demoReply members
    | _ => .exception

def servedNetwork : Network :=
  { demoNetwork with clock := fun _ => 0, transport := fun _ request => demoTransport request }

/-- A document without floats that is not too large passes the checks. -/
theorem readResponse_document {maxResponseBytes : ℕ} {notFoundCode : Option String} {document : Json}
    (hwf : Json.WellFormed document) (hfloats : Json.arrange false Json.textOnly document = document)
    (hshape : validateJsonShape document = true) {t : List Char} (ht : document.dumps true false = some t)
    (hlength : (utf8Chars t).length ≤ maxResponseBytes) :
    (answered (documentAnswer document) >>= readResponse servedNetwork maxResponseBytes notFoundCode) =
      .ok document := by
  have hother : (lowerAscii "Content-Type" == "content-length") = false := by decide
  have hname : (lowerAscii "Content-Type" == "content-type") = true := by decide
  have hheader : ∀ name, header servedNetwork [(some "Content-Type", .text "application/json")] name =
      if (lowerAscii "Content-Type" == name) = true then .text "application/json" else .none := by
    intro name
    show ((List.find? (fun h => h.1.any fun key => lowerAscii key == name)
      [(some "Content-Type", HeaderValue.text "application/json")]).map Prod.snd).getD .none = _
    cases h : lowerAscii "Content-Type" == name with
    | true =>
      simp only [List.find?, Option.any, h]
      rfl
    | false =>
      simp only [List.find?, Option.any, h]
      rfl
  have hlength' : checkLength servedNetwork (header servedNetwork [(some "Content-Type", .text "application/json")]
      "content-length") (utf8Chars t).length maxResponseBytes = .ok () := by
    rw [hheader, if_neg (Bool.eq_false_iff.mp hother)]
    exact rejectIf_eq_ok.mpr (by simpa using hlength)
  have hmedia : checkMediaType servedNetwork (header servedNetwork [(some "Content-Type", .text "application/json")]
      "content-type") = .ok () := by
    rw [hheader, if_pos hname]
    exact rejectIf_eq_ok.mpr (by decide)
  have hbody : loadJson servedNetwork (utf8Chars t) = .ok document := by
    have hloads : Json.loadsUnique servedNetwork.readFloat (utf8Chars t) = some document := by
      rw [Json.loadsUnique_dumps hwf ht]
      exact congrArg some hfloats
    exact bind_eq_ok.mpr ⟨document, elim_ok_eq_ok.mpr hloads, rejectIf_bind_eq_ok.mpr ⟨by simp [hshape], rfl⟩⟩
  refine bind_eq_ok.mpr ⟨_, rfl, bind_eq_ok.mpr ⟨200, rfl, ?_⟩⟩
  refine rejectIf_bind_eq_ok.mpr ⟨fun h => absurd h.1 (by decide), rejectIf_bind_eq_ok.mpr ⟨not_ne_iff.mpr rfl, ?_⟩⟩
  refine bind_eq_ok.mpr ⟨_, rfl, bind_eq_ok.mpr ⟨_, rfl, ?_⟩⟩
  rw [ht, Option.getD_some]
  refine rejectIf_bind_eq_ok.mpr ⟨by omega, bind_eq_ok.mpr ⟨(), hlength', bind_eq_ok.mpr ⟨(), hmedia, hbody⟩⟩⟩

/-- The document of a result. -/
def resultDocument (id : ℕ) (result : Json) : Json :=
  .obj [("jsonrpc", .str "2.0"), ("id", .int id), ("result", result)]

theorem dumps_resultDocument {id : ℕ} {result : Json} {n r : List Char} (hn : Json.dumpsInt id = some n)
    (hr : result.dumps true false = some r) : (resultDocument id result).dumps true false =
      some ('\x7b' :: Json.commaSep [Json.dumpsText true "jsonrpc" ++ ':' :: Json.dumpsText true "2.0",
        Json.dumpsText true "id" ++ ':' :: n, Json.dumpsText true "result" ++ ':' :: r] ++ ['\x7d']) := by
  simp only [resultDocument, Json.dumps, Json.dumpsMembers, Json.dumpsMember, hn, hr, Option.map_some,
    Option.bind_eq_bind, Option.bind_some]
  rfl

theorem length_utf8Chars_le (chars : List Char) : (utf8Chars chars).length ≤ 4 * chars.length := by
  induction chars with
  | nil => exact Nat.zero_le _
  | cons c chars ih =>
    have hsplit : utf8Chars (c :: chars) = String.utf8EncodeChar c ++ utf8Chars chars := List.flatMap_cons
    have hsize : (String.utf8EncodeChar c).length = c.utf8Size := String.length_utf8EncodeChar c
    have hle := c.utf8Size_le_four
    rw [hsplit, List.length_append, List.length_cons]
    omega

theorem demo_ids : ∀ id < 29, (Json.dumpsInt (id : ℕ)).any (fun n => decide (n.length ≤ 8)) = true := by
  decide

def demoResults : List Json :=
  [.str "0x1", demoBlock, .str "0x6001", .str "0x600200", zeroWord] ++ demoSlots.map Prod.snd

theorem demoResults_cases {result : Json} (h : result ∈ demoResults) :
    result = demoBlock ∨ ∃ text, result = .str text ∧ text.length ≤ 80 := by
  have hslots : (demoSlots.all fun slot => slot.2.str?.any fun text => decide (text.length ≤ 80)) = true := by decide
  rcases List.mem_append.mp h with h | h
  · simp only [List.mem_cons, List.not_mem_nil, or_false] at h
    rcases h with rfl | rfl | rfl | rfl | rfl
    · exact .inr ⟨_, rfl, by decide⟩
    · exact .inl rfl
    · exact .inr ⟨_, rfl, by decide⟩
    · exact .inr ⟨_, rfl, by decide⟩
    · exact .inr ⟨_, rfl, by decide⟩
  · obtain ⟨slot, hslot, rfl⟩ := List.mem_map.mp h
    obtain ⟨text, htext, hlength⟩ := (Option.any_eq_true _ _).mp (List.all_eq_true.mp hslots slot hslot)
    exact .inr ⟨text, str?_eq_some htext, of_decide_eq_true hlength⟩

theorem validateJsonShape_resultDocument (id : ℕ) {result : Json} (h : result ∈ demoResults) :
    validateJsonShape (resultDocument id result) = true := by
  obtain rfl | ⟨text, rfl, hlength⟩ := demoResults_cases h
  · simp [validateJsonShape, resultDocument, demoBlock, maxJsonNodes, shapeLoop, maxJsonDepth]
    decide
  · have hshort : ¬ text.length > maxJsonStringLength := by
      simp only [maxJsonStringLength, maxCodeBytes]
      omega
    simp [validateJsonShape, resultDocument, maxJsonNodes, shapeLoop, maxJsonDepth, hshort]
    decide

theorem length_dumpsText_le (text : String) : (Json.dumpsText true text).length ≤ 12 * text.length + 2 := by
  have hite : ∀ {p : Prop} [Decidable p] {a b : List Char}, a.length ≤ 12 → b.length ≤ 12 →
      (if p then a else b).length ≤ 12 := by
    intro p _ a b ha hb
    split_ifs
    · exact ha
    · exact hb
  have hchar : ∀ c, (Json.escapeChar true c).length ≤ 12 := by
    intro c
    unfold Json.escapeChar
    repeat' refine hite ?_ ?_
    all_goals exact Nat.le_of_ble_eq_true rfl
  have hchars : ∀ chars : List Char, (chars.flatMap (Json.escapeChar true)).length ≤ 12 * chars.length := by
    intro chars
    induction chars with
    | nil => exact Nat.zero_le _
    | cons c chars ih =>
      have := hchar c
      rw [List.flatMap_cons, List.length_append, List.length_cons]
      omega
  have := hchars text.toList
  rw [String.length_toList] at this
  simp only [Json.dumpsText, List.length_append, List.length_cons, List.length_nil]
  omega

/-- What the demo answers has no floats and is short. -/
def Short (document : Json) : Prop :=
  Json.plain document = true ∧ Json.arrange false Json.textOnly document = document ∧
    ∃ t, document.dumps true false = some t ∧ t.length ≤ 1000

theorem short_demoResults : ∀ result ∈ demoResults, Short result := by
  have htext : ∀ text : String, text.length ≤ 80 → Short (.str text) := fun text hlength =>
    ⟨rfl, rfl, _, rfl, (length_dumpsText_le text).trans (by omega)⟩
  have hblock : Short demoBlock := by
    refine ⟨rfl, rfl, _, rfl, ?_⟩
    simp [Json.dumpsText, Json.commaSep]
    decide
  intro result hmem
  obtain rfl | ⟨text, rfl, hlength⟩ := demoResults_cases hmem
  · exact hblock
  · exact htext text hlength

set_option maxRecDepth 4000 in
theorem short_demoRecord : Short demoRecord := by
  refine ⟨rfl, rfl, _, rfl, ?_⟩
  simp [demoContract, Json.dumpsText, Json.commaSep]
  decide

theorem demoResult_mem {method : String} {params : List Json} {result : Json}
    (h : demoResult method params = some result) : result ∈ demoResults := by
  have hslot : ∀ address, (Json.lookup address demoSlots).getD zeroWord ∈ demoResults := by
    intro address
    cases hlookup : Json.lookup address demoSlots with
    | none => exact List.mem_append_left _ (by simp)
    | some word => exact List.mem_append_right _ (List.mem_map_of_mem ((Json.lookup_eq_some_iff (by decide)).mp hlookup))
  unfold demoResult at h
  split_ifs at h
  all_goals obtain rfl := Option.some.inj h
  · exact List.mem_append_left _ (by simp)
  · exact List.mem_append_left _ (by simp)
  · exact List.mem_append_left _ (by simp)
  · exact List.mem_append_left _ (by simp)
  · cases params.head?.bind Json.str? with
    | none => exact List.mem_append_left _ (by simp)
    | some address => exact hslot address
  · exact List.mem_append_left _ (by simp)

theorem exists_dumpsInt {id : ℕ} (hid : id < 29) : ∃ n, Json.dumpsInt (id : ℕ) = some n ∧ n.length ≤ 8 := by
  have h := demo_ids id hid
  cases hn : Json.dumpsInt (id : ℕ) with
  | none =>
    rw [hn] at h
    cases h
  | some n =>
    rw [hn] at h
    exact ⟨n, rfl, of_decide_eq_true h⟩

theorem dumps_call {id : ℕ} (method : String) {params : Json} {n p : List Char} (hn : Json.dumpsInt id = some n)
    (hp : params.dumps true false = some p) : (Json.obj [("jsonrpc", .str "2.0"), ("id", .int id),
      ("method", .str method), ("params", params)]).dumps true false = some ('\x7b' :: Json.commaSep
        [Json.dumpsText true "jsonrpc" ++ ':' :: Json.dumpsText true "2.0", Json.dumpsText true "id" ++ ':' :: n,
          Json.dumpsText true "method" ++ ':' :: Json.dumpsText true method,
          Json.dumpsText true "params" ++ ':' :: p] ++ ['\x7d']) := by
  simp only [Json.dumps, Json.dumpsMembers, Json.dumpsMember, hn, hp, Option.map_some, Option.bind_eq_bind,
    Option.bind_some]
  rfl

/-- The body of a call is read back. -/
theorem loads_rpcBody {id : ℕ} (hid : id < 29) (question : Question) :
    Json.loads Json.textOnly (rpcBody id question.method question.params) = some (.obj [("jsonrpc", .str "2.0"),
      ("id", .int id), ("method", .str question.method), ("params", .arr question.params)]) := by
  obtain ⟨n, hn, -⟩ := exists_dumpsInt hid
  obtain ⟨p, hp⟩ : ∃ p, (Json.arr question.params).dumps true false = some p := by
    cases question with
    | _ => exact ⟨_, rfl⟩
  have hwf : Json.WellFormed (.obj [("jsonrpc", .str "2.0"), ("id", .int id), ("method", .str question.method),
      ("params", .arr question.params)]) := by
    refine Json.wellFormed_of_plain _ ?_
    cases question with
    | _ => rfl
  have hdumps := dumps_call question.method hn hp
  rw [rpcBody, hdumps, Option.getD_some, Json.loads_dumps hwf hdumps]
  cases question with
  | _ => rfl

/-- A short document passes the checks. -/
theorem readResponse_short {maxResponseBytes : ℕ} {notFoundCode : Option String} {document : Json}
    (hwf : Json.WellFormed document) (hfloats : Json.arrange false Json.textOnly document = document)
    (hshape : validateJsonShape document = true) {t : List Char} (ht : document.dumps true false = some t)
    (hshort : t.length ≤ 2000) (hle : 8000 ≤ maxResponseBytes) :
    (answered (documentAnswer document) >>= readResponse servedNetwork maxResponseBytes notFoundCode) =
      .ok document := by
  have hbytes := length_utf8Chars_le t
  exact readResponse_document hwf hfloats hshape ht (by omega)

/-- The answer to a call passes the checks. -/
theorem readResponse_resultDocument {id : ℕ} (hid : id < 29) {result : Json} (hmem : result ∈ demoResults) :
    (answered (resultAnswer id result) >>= readResponse servedNetwork rpcResponseBytes none) =
      .ok (resultDocument id result) := by
  obtain ⟨n, hn, hlength⟩ := exists_dumpsInt hid
  obtain ⟨hplain, hfloats, r, hr, hshort⟩ := short_demoResults result hmem
  have hwf : Json.WellFormed (resultDocument id result) := by
    refine Json.wellFormed_of_plain _ ?_
    simp [resultDocument, Json.plain, Json.plainMembers, Json.plainMember, hplain]
  have harrange : Json.arrange false Json.textOnly (resultDocument id result) = resultDocument id result := by
    simp [resultDocument, Json.arrange, Json.arrangeMembers, Json.arrangeMember, hfloats]
  have hkeys : (Json.dumpsText true "jsonrpc").length + (Json.dumpsText true "2.0").length +
      (Json.dumpsText true "id").length + (Json.dumpsText true "result").length ≤ 100 := by decide
  refine readResponse_short hwf harrange (validateJsonShape_resultDocument id hmem)
    (dumps_resultDocument hn hr) ?_ (by decide)
  simp only [Json.commaSep, List.length_append, List.length_cons, List.length_nil]
  omega

theorem readResponse_demoRecord :
    (answered (documentAnswer demoRecord) >>= readResponse servedNetwork sourcifyResponseBytes
      (some "SOURCE_NOT_VERIFIED")) = .ok demoRecord := by
  obtain ⟨hplain, hfloats, t, ht, hshort⟩ := short_demoRecord
  exact readResponse_short (Json.wellFormed_of_plain _ hplain) hfloats (by decide) ht (by omega) (by decide)

/-- The document of a result holds it under its id. -/
theorem rpcResult_resultDocument (id : ℕ) (result : Json) : rpcResult id (resultDocument id result) = .ok result := by
  refine rejectIf_bind_eq_ok.mpr ⟨?_, rejectIf_bind_eq_ok.mpr ⟨?_, rejectIf_bind_eq_ok.mpr ⟨?_, ?_⟩⟩⟩
  · simp [Json.lookup, Json.isStr]
  · simp [Json.lookup]
  · simp [Json.lookup]
  · simp [Json.lookup]

/-- The network serves the world. -/
theorem servedNetwork_serves : Serves servedNetwork demoWorld := by
  refine ⟨fun n _ => (by norm_num : (0 : ℚ) < 0 + 24), ?_, ?_⟩
  · intro n _ id hid chainId _ question request _ _ hbody result
    have htransport : servedNetwork.transport n request =
        (demoResult question.method question.params).elim .exception (resultAnswer id) := by
      show demoTransport request = _
      unfold demoTransport
      rw [hbody]
      dsimp only
      rw [loads_rpcBody (Nat.lt_succ_of_le hid) question]
      rfl
    show (answered (servedNetwork.transport n request) >>= readResponse servedNetwork rpcResponseBytes none) >>=
      rpcResult id = .ok result ↔ demoResult question.method question.params = some result
    rw [htransport]
    cases hanswer : demoResult question.method question.params with
    | none => exact ⟨fun h => (by cases h), fun h => (by cases h)⟩
    | some found =>
      rw [Option.elim_some, readResponse_resultDocument (Nat.lt_succ_of_le hid) (demoResult_mem hanswer)]
      show rpcResult id (resultDocument id found) = .ok result ↔ _
      rw [rpcResult_resultDocument, Except.ok.injEq, Option.some_inj]
  · intro n _ request _ hbody document
    have htransport : servedNetwork.transport n request = (demoSource request.url).elim .exception documentAnswer := by
      show demoTransport request = _
      unfold demoTransport
      rw [hbody]
    show (answered (servedNetwork.transport n request) >>= readResponse servedNetwork sourcifyResponseBytes
      (some "SOURCE_NOT_VERIFIED")) = .ok document ↔ demoSource request.url = some document
    rw [htransport]
    unfold demoSource
    split_ifs
    · rw [Option.elim_some, readResponse_demoRecord, Except.ok.injEq, Option.some_inj]
    · exact ⟨fun h => (by cases h), fun h => (by cases h)⟩

def demoProxyCode : Bytes := [0x60, 0x01]
def demoContractCode : Bytes := [0x60, 0x02, 0x00]
def demoHash : String := "0xabababababababababababababababababababababababababababababababab"
def demoAbiJson : Bytes := utf8Chars ((demoAbi.dumps false true).getD [])

def demoSlot : Bytes := List.replicate 12 0 ++ List.replicate 20 0x22

/-- The readings of the demo. -/
theorem demo_readings : quantity (some (.str "0x1")) = .ok (1, hexTag 1) ∧
    quantity (some (.str "0x10")) = .ok (16, hexTag 16) ∧ blockHash (some (.str demoHash)) = .ok demoHash ∧
    dataBytes maxCodeBytes "bytecode" (some (.str "0x6001")) = .ok demoProxyCode ∧
    dataBytes maxCodeBytes "bytecode" (some (.str "0x600200")) = .ok demoContractCode ∧
    dataBytes maxCodeBytes "verified runtime bytecode" (some (.str "0x600200")) = .ok demoContractCode ∧
    dataBytes 32 "storage word" (some demoWord) = .ok demoSlot ∧
    dataBytes 32 "storage word" (some zeroWord) = .ok (List.replicate 32 0) ∧
    validateAbi (some demoAbi) = .ok demoAbiJson := by decide

theorem demo_texts : isHexWord 40 demoProxy = true ∧ lowerAscii demoProxy = demoProxy ∧
    isHexWord 40 demoContract = true ∧ lowerAscii demoContract = demoContract ∧
    demoContract = "0x" ++ hexText (List.replicate 20 0x22) := by decide

/-- The addresses of the five proxies, and the one the last of them names. -/
def demoLadder : List String :=
  ["0x3333333333333333333333333333333333333333", "0x4444444444444444444444444444444444444444",
    "0x5555555555555555555555555555555555555555", "0x6666666666666666666666666666666666666666",
    "0x7777777777777777777777777777777777777777", "0x8888888888888888888888888888888888888888"]

theorem demo_leads {tag address next text : String} {body : Bytes}
    (hslot : Json.lookup address demoSlots = some (.str text)) (hproxy : some address ≠ some demoProxy)
    (hdata : dataBytes 32 "storage word" (some (.str text)) = .ok (List.replicate 12 0 ++ body))
    (hbody : body.length = 20 ∧ body ≠ List.replicate 20 0 ∧ next = "0x" ++ hexText body) :
    Leads servedNetwork demoWorld 1 tag address next := by
  obtain ⟨-, -, -, -, hcode, -, -, hzero, -⟩ := demo_readings
  refine ⟨⟨_, demoContractCode, .str "0x600200", ?_, hcode, by decide, rfl⟩,
    ⟨.str text, _, ?_, hdata, body, rfl, hbody⟩, ⟨zeroWord, _, rfl, hzero, rfl⟩⟩
  · show demoResult "eth_getCode" [.str address, .str tag] = _
    exact if_neg hproxy
  · show some ((Json.lookup address demoSlots).getD zeroWord) = some (.str text)
    rw [hslot, Option.getD_some]

/-- **More proxies than the loop follows**: it gives up after `MAX_PROXY_HOPS` of these five. -/
theorem proxyLoop_demoLadder (tag : String) :
    Proxies servedNetwork 1 tag 5 [] "0x3333333333333333333333333333333333333333" ⟨0, 1, 0, []⟩ ∧
      ∃ client, resolveProxyChain servedNetwork 1 "0x3333333333333333333333333333333333333333" tag ⟨0, 1, 0, []⟩ =
        .error proxyDepthExceeded client := by
  have hleads : demoLadder.IsChain (Leads servedNetwork demoWorld 1 tag) := by
    refine .cons_cons (@demo_leads _ _ _ _ (List.replicate 20 0x44) rfl (by decide) (by decide) (by decide))
      (.cons_cons (@demo_leads _ _ _ _ (List.replicate 20 0x55) rfl (by decide) (by decide) (by decide))
      (.cons_cons (@demo_leads _ _ _ _ (List.replicate 20 0x66) rfl (by decide) (by decide) (by decide))
      (.cons_cons (@demo_leads _ _ _ _ (List.replicate 20 0x77) rfl (by decide) (by decide) (by decide))
      (.cons_cons (@demo_leads _ _ _ _ (List.replicate 20 0x88) rfl (by decide) (by decide) (by decide))
      (.singleton _)))))
  have hroom : Room 15 ⟨0, 1, 0, []⟩ := room_start.mono (by decide)
  have hproxies := proxies_of_leads servedNetwork_serves (by decide) hleads (List.cons_ne_nil _ _) (by decide)
    (fun _ _ => List.not_mem_nil) hroom
  exact ⟨hproxies, proxyLoop_deep hproxies (by decide) none []⟩

/-- The resolution of the proxy. -/
def demoResolution : VerifiedSourceResult where
  chainId := 1
  address := demoProxy
  block := ⟨16, demoHash⟩
  target := identityOf servedNetwork demoProxy demoProxyCode
  effectiveContract := identityOf servedNetwork demoContract demoContractCode
  proxyChain := [⟨identityOf servedNetwork demoProxy demoProxyCode, .eip1967Implementation, demoContract, none⟩]
  verificationMatch := "exact_match"
  abiHash := "sha256:" ++ hexText (abiSha256 demoAbiJson)
  abiJson := demoAbiJson

/-- The resolution of the implementation itself. -/
def directResolution : VerifiedSourceResult :=
  { demoResolution with
    address := demoContract
    target := identityOf servedNetwork demoContract demoContractCode
    proxyChain := [] }

section Demo

variable (tag : String)

theorem demo_blockAt : BlockAt demoWorld 1 tag ⟨16, demoHash⟩ :=
  ⟨_, hexTag 16, rfl, demo_readings.2.1, demo_readings.2.2.1⟩

theorem demo_slotAt {address slot : String}
    (h : demoResult "eth_getStorageAt" [.str address, .str slot, .str tag] = some zeroWord) :
    SlotAt demoWorld 1 tag address slot none :=
  ⟨zeroWord, _, h, demo_readings.2.2.2.2.2.2.2.1, rfl⟩

/-- The implementation is no proxy. -/
theorem demo_here : Route servedNetwork demoWorld 1 tag demoContract []
    (identityOf servedNetwork demoContract demoContractCode) demoContractCode :=
  .here ⟨.str "0x600200", by rfl, demo_readings.2.2.2.2.1, by decide, rfl⟩ (demo_slotAt tag (by rfl))
    (demo_slotAt tag (by rfl))

theorem demo_recorded : Recorded servedNetwork 1 (identityOf servedNetwork demoContract demoContractCode)
    demoContractCode "exact_match" ("sha256:" ++ hexText (abiSha256 demoAbiJson)) demoAbiJson demoMembers := by
  obtain ⟨-, -, -, -, -, hrecorded, -, -, habi⟩ := demo_readings
  obtain ⟨-, -, hcontractText, hcontractLower, -⟩ := demo_texts
  exact {
    chain := .inr rfl
    address := ⟨demoContract, rfl, hcontractText, hcontractLower⟩
    verified := ⟨"match", by decide, rfl⟩
    runtime := ⟨by decide, rfl⟩
    bytecode := ⟨[("onchainBytecode", .str "0x600200")], rfl, hrecorded⟩
    abi := habi
    hash := rfl }

end Demo

theorem demo_resolution :
    Resolution servedNetwork demoWorld (.int 1) (.str demoProxy) demoResolution demoContractCode := by
  obtain ⟨hone, -, -, hproxy, -, -, hword, -, -⟩ := demo_readings
  obtain ⟨hproxyText, hproxyLower, -, -, hcontractHex⟩ := demo_texts
  have hproxyCode : ∀ tag, CodeAt servedNetwork demoWorld 1 tag demoProxy
      (identityOf servedNetwork demoProxy demoProxyCode) demoProxyCode := fun tag =>
    ⟨.str "0x6001", by rfl, hproxy, by decide, rfl⟩
  have hslot : ∀ tag, SlotAt demoWorld 1 tag demoProxy eip1967ImplementationSlot (some demoContract) := fun tag =>
    ⟨demoWord, demoSlot, by rfl, hword, List.replicate 20 0x22, rfl, rfl, by decide, hcontractHex⟩
  exact {
    requested_chain := ⟨rfl, by decide⟩
    requested_address := ⟨demoProxy, rfl, hproxyText, hproxyLower.symm⟩
    reported_chain := ⟨.str "0x1", 1, hexTag 1, rfl, hone, rfl⟩
    finalized := demo_blockAt _
    route := .implementation (hproxyCode _) (hslot _) (demo_slotAt _ (by rfl)) (demo_here _)
    acyclic := ⟨List.not_mem_nil, fun _ h => (by cases h), (by decide : demoContract ∉ [demoProxy])⟩
    bounded := by decide
    dispatch := fun h => absurd h (List.cons_ne_nil _ _)
    target := rfl
    source := ⟨demoMembers, (if_pos rfl : demoSource (sourcifyContract 1 demoContract) = some demoRecord),
      demo_recorded⟩
    unchanged := demo_blockAt _ }

theorem direct_resolution :
    Resolution servedNetwork demoWorld (.int 1) (.str demoContract) directResolution demoContractCode := by
  obtain ⟨hone, -⟩ := demo_readings
  obtain ⟨-, -, hcontractText, hcontractLower, -⟩ := demo_texts
  exact {
    requested_chain := ⟨rfl, by decide⟩
    requested_address := ⟨demoContract, rfl, hcontractText, hcontractLower.symm⟩
    reported_chain := ⟨.str "0x1", 1, hexTag 1, rfl, hone, rfl⟩
    finalized := demo_blockAt _
    route := demo_here _
    acyclic := List.not_mem_nil
    bounded := by decide
    dispatch := fun _ => by decide
    target := rfl
    source := ⟨demoMembers, (if_pos rfl : demoSource (sourcifyContract 1 demoContract) = some demoRecord),
      demo_recorded⟩
    unchanged := demo_blockAt _ }

/-- The proxy is resolved by its implementation. -/
theorem resolveVerifiedSource_exact_demo : ∃ exchanges,
    resolveVerifiedSource servedNetwork (.int 1) (.str demoProxy) = .ok (demoResolution, exchanges) :=
  (resolveVerifiedSource_exact servedNetwork_serves (.int 1) (.str demoProxy) demoResolution).mpr
    ⟨demoContractCode, demo_resolution⟩

end Lucent.VerifiedSource
