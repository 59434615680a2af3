import Lucent.VerifiedSource.Resolve
import Lucent.Lib.SameJson

/-!
# Lucent.VerifiedSource.Provenance — what a resolution has seen

Whatever the transport answers, a resolution that returns has asked for certain things in a certain order, and the
answers said what the result says.

* `CodeRead`, `SlotRead`, `BeaconRead`: one read at the pinned block, and what the answer held.
* `Path`: the reads of the proxy loop, hop by hop; `proxyLoop_spec` is its run lemma.
* `Recorded`, `readBinding_eq_ok_iff`: the records that the checks of a Sourcify answer accept; `SourceRecord`: the answer.
* `resolveVerifiedSource_provenance`: the whole exchange.
-/

namespace Lucent.VerifiedSource

open Lucent.Lib

/-! ## Reads -/

/-- A word of storage, and the address in it: all zeros, or twelve zeros before an address that is not zero. -/
def Holds (word : Bytes) : Option String → Prop
  | none => word = List.replicate 32 0
  | some address => ∃ body, word = List.replicate 12 0 ++ body ∧ body.length = 20 ∧ body ≠ List.replicate 20 0 ∧
      address = "0x" ++ hexText body

section Reads

variable (net : Network) (chainId : ℤ) (blockTag : String)

/-- The code of an address was read: `identity` has the hash and the size of the bytes. -/
def CodeRead (address : String) (identity : CodeIdentity) (raw : Bytes) (e : Exchange) : Prop :=
  ∃ value, RpcAnswer net chainId "eth_getCode" [.str address, .str blockTag] value e ∧
    dataBytes maxCodeBytes "bytecode" (some value) = .ok raw ∧ raw ≠ [] ∧
    identity = ⟨address, "0x" ++ hexText (net.keccak raw), raw.length⟩

/-- A slot of an address was read. -/
def SlotRead (address slot : String) (answer : Option String) (e : Exchange) : Prop :=
  ∃ value word, RpcAnswer net chainId "eth_getStorageAt" [.str address, .str slot, .str blockTag] value e ∧
    dataBytes 32 "storage word" (some value) = .ok word ∧ Holds word answer

/-- A beacon was asked for its implementation. -/
def BeaconRead (beacon implementation : String) (e : Exchange) : Prop :=
  ∃ value word, RpcAnswer net chainId "eth_call"
      [.obj [("to", .str beacon), ("data", .str beaconImplementationSelector)], .str blockTag] value e ∧
    dataBytes 32 "beacon result" (some value) = .ok word ∧ Holds word (some implementation)

/-- A block was read. -/
def BlockRead (tag : String) (block : BlockIdentity) (e : Exchange) : Prop :=
  ∃ members text, RpcAnswer net chainId "eth_getBlockByNumber" [.str tag, .bool false] (.obj members) e ∧
    (∃ canonical, quantity (Json.lookup "number" members) = .ok (block.number, canonical)) ∧
    Json.lookup "hash" members = some (.str text) ∧ block.hash = lowerAscii text

/-- The reads from an address to the effective contract, the hops they show, and the contract with its code: a hop has one
populated slot and names the implementation found there or told by the beacon; the contract has two empty slots. -/
inductive Path : String → List Exchange → List ProxyHop → CodeIdentity → Bytes → Prop
  | here {address identity code e₁ e₂ e₃} : CodeRead net chainId blockTag address identity code e₁ →
      SlotRead net chainId blockTag address eip1967ImplementationSlot none e₂ →
      SlotRead net chainId blockTag address eip1967BeaconSlot none e₃ → Path address [e₁, e₂, e₃] [] identity code
  | implementation {address identity code next e₁ e₂ e₃ reads hops effective effectiveCode} :
      CodeRead net chainId blockTag address identity code e₁ →
      SlotRead net chainId blockTag address eip1967ImplementationSlot (some next) e₂ →
      SlotRead net chainId blockTag address eip1967BeaconSlot none e₃ →
      Path next reads hops effective effectiveCode →
      Path address (e₁ :: e₂ :: e₃ :: reads) (⟨identity, .eip1967Implementation, next, none⟩ :: hops) effective
        effectiveCode
  | beacon {address identity code beacon beaconIdentity beaconCode next e₁ e₂ e₃ e₄ e₅ reads hops effective
        effectiveCode} :
      CodeRead net chainId blockTag address identity code e₁ →
      SlotRead net chainId blockTag address eip1967ImplementationSlot none e₂ →
      SlotRead net chainId blockTag address eip1967BeaconSlot (some beacon) e₃ →
      CodeRead net chainId blockTag beacon beaconIdentity beaconCode e₄ →
      BeaconRead net chainId blockTag beacon next e₅ →
      Path next reads hops effective effectiveCode →
      Path address (e₁ :: e₂ :: e₃ :: e₄ :: e₅ :: reads)
        (⟨identity, .eip1967Beacon, next, some beaconIdentity⟩ :: hops) effective effectiveCode

end Reads

/-- The contracts on the way: the proxies and the effective contract. -/
def contracts (hops : List ProxyHop) (effective : CodeIdentity) : List String :=
  hops.map (fun hop => hop.proxy.address) ++ [effective.address]

variable {net : Network} {chainId : ℤ} {blockTag : String}

/-- The read is of code, of a slot or of a beacon, at the pinned block. -/
def Pinned (net : Network) (chainId : ℤ) (blockTag : String) (e : Exchange) : Prop :=
  ∃ method params result, method ∈ ["eth_getCode", "eth_getStorageAt", "eth_call"] ∧
    RpcAnswer net chainId method (params ++ [.str blockTag]) result e

theorem Path.pinned {address : String} {reads : List Exchange} {hops : List ProxyHop} {effective : CodeIdentity}
    {code : Bytes} (h : Path net chainId blockTag address reads hops effective code) :
    ∀ e ∈ reads, Pinned net chainId blockTag e := by
  have hcode : ∀ {address identity raw e}, CodeRead net chainId blockTag address identity raw e →
      Pinned net chainId blockTag e := fun ⟨value, hrpc, _⟩ => ⟨_, [.str _], value, by simp, hrpc⟩
  have hslot : ∀ {address slot answer e}, SlotRead net chainId blockTag address slot answer e →
      Pinned net chainId blockTag e := fun ⟨value, _, hrpc, _⟩ => ⟨_, [.str _, .str _], value, by simp, hrpc⟩
  have hbeacon : ∀ {beacon implementation e}, BeaconRead net chainId blockTag beacon implementation e →
      Pinned net chainId blockTag e := fun ⟨value, _, hrpc, _⟩ => ⟨_, [.obj _], value, by simp, hrpc⟩
  induction h with
  | here h₁ h₂ h₃ => simp [hcode h₁, hslot h₂, hslot h₃]
  | implementation h₁ h₂ h₃ _ ih =>
    simp only [List.forall_mem_cons]
    exact ⟨hcode h₁, hslot h₂, hslot h₃, ih⟩
  | beacon h₁ h₂ h₃ h₄ h₅ _ ih =>
    simp only [List.forall_mem_cons]
    exact ⟨hcode h₁, hslot h₂, hslot h₃, hcode h₄, hbeacon h₅, ih⟩

/-! ## The readers -/

theorem codeIdentity_spec {address : String} {identity : CodeIdentity} {raw : Bytes} {c c' : Client}
    (h : codeIdentity net chainId address blockTag c = .ok (identity, raw) c') :
    ∃ e, CodeRead net chainId blockTag address identity raw e ∧ c'.exchanges = c.exchanges ++ [e] := by
  unfold codeIdentity at h
  obtain ⟨value, c₁, hcall, h⟩ := run_bind_eq_ok.mp h
  obtain ⟨e, hrpc, hlog⟩ := rpcCall_spec hcall
  obtain ⟨data, hbytes, h⟩ := stateless_bind_eq_ok.mp h
  obtain ⟨hne, h⟩ := stateless_rejectIf_bind_eq_ok.mp h
  obtain ⟨heq, rfl⟩ := run_pure_eq_ok.mp h
  obtain ⟨rfl, rfl⟩ := Prod.mk.inj heq
  exact ⟨e, ⟨value, hrpc, hbytes, hne, rfl⟩, hlog⟩

theorem any_ne_zero_eq_false {l : Bytes} (h : l.any (· != 0) = false) : l = List.replicate l.length 0 := by
  refine List.eq_replicate_iff.mpr ⟨rfl, fun b hb => ?_⟩
  simpa using List.any_eq_false.mp h b hb

theorem any_ne_zero_eq_true {l : Bytes} {n : ℕ} (h : l.any (· != 0) = true) : l ≠ List.replicate n 0 := by
  rintro rfl
  simp at h

/-- A word whose first twelve bytes are zero holds nothing or an address. -/
theorem holds_of_word {raw : Bytes} (hlen : raw.length = 32) (hzero : (raw.take 12).any (· != 0) = false) :
    Holds raw (if (raw.drop 12).any (· != 0) then some (wordAddress raw) else none) := by
  have htake : raw.take 12 = List.replicate 12 0 := by
    have h := any_ne_zero_eq_false hzero
    rwa [List.length_take, hlen] at h
  by_cases hbody : (raw.drop 12).any (· != 0) = true
  · rw [if_pos hbody]
    refine ⟨raw.drop 12, ?_, by simp [hlen], any_ne_zero_eq_true hbody, rfl⟩
    rw [← htake, List.take_append_drop]
  · rw [if_neg hbody]
    have hdrop := any_ne_zero_eq_false (by simpa using hbody : (raw.drop 12).any (· != 0) = false)
    rw [List.length_drop, hlen] at hdrop
    show raw = List.replicate 32 0
    calc raw = raw.take 12 ++ raw.drop 12 := (List.take_append_drop 12 raw).symm
      _ = List.replicate 32 0 := by rw [htake, hdrop, ← List.replicate_add]

theorem slotAddress_spec {address slot : String} {answer : Option String} {c c' : Client}
    (h : slotAddress net chainId address slot blockTag c = .ok answer c') :
    ∃ e, SlotRead net chainId blockTag address slot answer e ∧ c'.exchanges = c.exchanges ++ [e] := by
  unfold slotAddress at h
  obtain ⟨value, c₁, hcall, h⟩ := run_bind_eq_ok.mp h
  obtain ⟨e, hrpc, hlog⟩ := rpcCall_spec hcall
  obtain ⟨raw, hbytes, h⟩ := stateless_bind_eq_ok.mp h
  obtain ⟨hshape, h⟩ := stateless_rejectIf_bind_eq_ok.mp h
  obtain ⟨hlen, hzero⟩ := not_or.mp hshape
  obtain ⟨rfl, rfl⟩ := run_pure_eq_ok.mp h
  exact ⟨e, ⟨value, raw, hrpc, hbytes, holds_of_word (not_ne_iff.mp hlen) (by simpa using hzero)⟩, hlog⟩

theorem beaconImplementation_spec {beacon implementation : String} {c c' : Client}
    (h : beaconImplementation net chainId beacon blockTag c = .ok implementation c') :
    ∃ e, BeaconRead net chainId blockTag beacon implementation e ∧ c'.exchanges = c.exchanges ++ [e] := by
  unfold beaconImplementation at h
  obtain ⟨value, c₁, hcall, h⟩ := run_bind_eq_ok.mp h
  obtain ⟨e, hrpc, hlog⟩ := rpcCall_spec hcall
  obtain ⟨raw, hbytes, h⟩ := stateless_bind_eq_ok.mp h
  obtain ⟨hshape, h⟩ := stateless_rejectIf_bind_eq_ok.mp h
  obtain ⟨hlen, hrest⟩ := not_or.mp hshape
  obtain ⟨hzero, hbody⟩ := not_or.mp hrest
  obtain ⟨rfl, rfl⟩ := run_pure_eq_ok.mp h
  have hholds := holds_of_word (not_ne_iff.mp hlen) (by simpa using hzero)
  rw [if_pos (by simpa using hbody)] at hholds
  exact ⟨e, ⟨value, raw, hrpc, hbytes, hholds⟩, hlog⟩

/-- The number and the hash of a block are read alone from a document that has them. -/
theorem blockIdentity_eq_ok_iff {failure : VerifiedSourceError} {value : Json} {block : BlockIdentity} {tag : String} :
    blockIdentity failure value = .ok (block, tag) ↔ ∃ members, value = .obj members ∧
      quantity (Json.lookup "number" members) = .ok (block.number, tag) ∧
      blockHash (Json.lookup "hash" members) = .ok block.hash := by
  constructor
  · intro h
    cases value with
    | obj members =>
      obtain ⟨⟨number, canonical⟩, hnumber, h⟩ := bind_eq_ok.mp (mapError_eq_ok.mp h)
      obtain ⟨hash, hhash, h⟩ := bind_eq_ok.mp h
      obtain ⟨rfl, rfl⟩ := Prod.mk.inj (pure_eq_ok.mp h)
      exact ⟨members, rfl, hnumber, hhash⟩
    | _ => cases h
  · rintro ⟨members, rfl, hnumber, hhash⟩
    exact mapError_eq_ok.mpr (bind_eq_ok.mpr ⟨_, hnumber, bind_eq_ok.mpr ⟨_, hhash, rfl⟩⟩)

theorem blockHash_eq_ok {value : Option Json} {hash : String} (h : blockHash value = .ok hash) :
    ∃ text, value = some (.str text) ∧ hash = lowerAscii text := by
  unfold blockHash at h
  split at h
  · next text =>
    obtain ⟨-, h⟩ := rejectIf_bind_eq_ok.mp h
    exact ⟨text, rfl, (pure_eq_ok.mp h).symm⟩
  · cases h

theorem quantity_tag {value : Option Json} {number : ℕ} {tag : String} (h : quantity value = .ok (number, tag)) :
    tag = hexTag number := by
  unfold quantity at h
  split at h
  · obtain ⟨-, h⟩ := rejectIf_bind_eq_ok.mp h
    obtain ⟨rfl, rfl⟩ := Prod.mk.inj (pure_eq_ok.mp h)
    rfl
  · exact nomatch h

theorem finalizedBlock_spec {block : BlockIdentity} {tag : String} {c c' : Client}
    (h : finalizedBlock net chainId c = .ok (block, tag) c') :
    ∃ e, BlockRead net chainId "finalized" block e ∧ tag = hexTag block.number ∧
      c'.exchanges = c.exchanges ++ [e] := by
  unfold finalizedBlock at h
  obtain ⟨value, c₁, hcall, h⟩ := run_bind_eq_ok.mp h
  obtain ⟨e, hrpc, hlog⟩ := rpcCall_spec hcall
  obtain ⟨hblock, rfl⟩ := stateless_eq_ok.mp h
  obtain ⟨members, rfl, hnumber, hhash⟩ := blockIdentity_eq_ok_iff.mp hblock
  obtain ⟨text, hhash, hlower⟩ := blockHash_eq_ok hhash
  exact ⟨e, ⟨members, text, hrpc, ⟨tag, hnumber⟩, hhash, hlower⟩, quantity_tag hnumber, hlog⟩

/-- The confirmation read the block once more, and found it the same. -/
theorem assertCanonicalBlock_spec {block : BlockIdentity} {c c' : Client}
    (h : assertCanonicalBlock net chainId block blockTag c = .ok () c') :
    ∃ e, BlockRead net chainId blockTag block e ∧ c'.exchanges = c.exchanges ++ [e] := by
  unfold assertCanonicalBlock at h
  obtain ⟨value, c₁, hcall, h⟩ := run_bind_eq_ok.mp h
  obtain ⟨e, hrpc, hlog⟩ := rpcCall_spec hcall
  obtain ⟨⟨again, tag⟩, hblock, h⟩ := stateless_bind_eq_ok.mp h
  obtain ⟨hsame, rfl⟩ := stateless_eq_ok.mp h
  obtain ⟨hnumber, hhash⟩ := not_or.mp (rejectIf_eq_ok.mp hsame)
  obtain ⟨members, rfl, hread, hhash'⟩ := blockIdentity_eq_ok_iff.mp hblock
  obtain ⟨text, htext, hlower⟩ := blockHash_eq_ok hhash'
  rw [not_ne_iff.mp hnumber] at hread
  exact ⟨e, ⟨members, text, hrpc, ⟨tag, hread⟩, htext, (not_ne_iff.mp hhash).symm.trans hlower⟩, hlog⟩

/-! ## The proxy loop -/

/-- A hop: the implementation of its slot, or the one its beacon tells after its code was read. -/
theorem proxyHop_spec {visited : List String} {identity : CodeIdentity} {implementation beaconAddress : Option String}
    {hop : ProxyHop} {c c' : Client}
    (h : proxyHop net chainId blockTag visited identity implementation beaconAddress c = .ok hop c') :
    (beaconAddress = none ∧ c' = c ∧ hop = ⟨identity, .eip1967Implementation, implementation.getD "", none⟩) ∨
    ∃ beacon beaconIdentity beaconCode next e₄ e₅, beaconAddress = some beacon ∧
      CodeRead net chainId blockTag beacon beaconIdentity beaconCode e₄ ∧
      BeaconRead net chainId blockTag beacon next e₅ ∧ c'.exchanges = c.exchanges ++ [e₄, e₅] ∧
      hop = ⟨identity, .eip1967Beacon, next, some beaconIdentity⟩ := by
  cases beaconAddress with
  | none =>
    obtain ⟨rfl, rfl⟩ := run_pure_eq_ok.mp h
    exact .inl ⟨rfl, rfl, rfl⟩
  | some beacon =>
    obtain ⟨-, h⟩ := stateless_rejectIf_bind_eq_ok.mp h
    obtain ⟨⟨beaconIdentity, beaconCode⟩, c₁, hcode, h⟩ := run_bind_eq_ok.mp h
    obtain ⟨next, c₂, hnext, h⟩ := run_bind_eq_ok.mp h
    obtain ⟨-, h⟩ := stateless_rejectIf_bind_eq_ok.mp h
    obtain ⟨rfl, rfl⟩ := run_pure_eq_ok.mp h
    obtain ⟨e₄, hread₄, hlog₄⟩ := codeIdentity_spec hcode
    obtain ⟨e₅, hread₅, hlog₅⟩ := beaconImplementation_spec hnext
    exact .inr ⟨beacon, beaconIdentity, beaconCode, next, e₄, e₅, rfl, hread₄, hread₅, by simp [hlog₅, hlog₄], rfl⟩

/-- The first half of a turn: the contract is new, its code and its slots were read, and one slot at most is populated. -/
theorem proxyTurn_spec {visited : List String} {current : String} {turn : ProxyTurn} {c c' : Client}
    (h : proxyTurn net chainId blockTag visited current c = .ok turn c') :
    current ∉ visited ∧ ¬ (turn.implementation.isSome ∧ turn.beaconAddress.isSome) ∧ ∃ e₁ e₂ e₃,
      CodeRead net chainId blockTag current turn.identity turn.code e₁ ∧
      SlotRead net chainId blockTag current eip1967ImplementationSlot turn.implementation e₂ ∧
      SlotRead net chainId blockTag current eip1967BeaconSlot turn.beaconAddress e₃ ∧
      c'.exchanges = c.exchanges ++ [e₁, e₂, e₃] := by
  unfold proxyTurn at h
  obtain ⟨hnew, h⟩ := stateless_rejectIf_bind_eq_ok.mp h
  obtain ⟨⟨identity, code⟩, c₁, hcode, h⟩ := run_bind_eq_ok.mp h
  obtain ⟨implementation, c₂, himplementation, h⟩ := run_bind_eq_ok.mp h
  obtain ⟨beaconAddress, c₃, hbeacon, h⟩ := run_bind_eq_ok.mp h
  obtain ⟨hone, h⟩ := stateless_rejectIf_bind_eq_ok.mp h
  obtain ⟨rfl, rfl⟩ := run_pure_eq_ok.mp h
  obtain ⟨e₁, hread₁, hlog₁⟩ := codeIdentity_spec hcode
  obtain ⟨e₂, hread₂, hlog₂⟩ := slotAddress_spec himplementation
  obtain ⟨e₃, hread₃, hlog₃⟩ := slotAddress_spec hbeacon
  exact ⟨hnew, hone, e₁, e₂, e₃, hread₁, hread₂, hread₃, by simp [hlog₃, hlog₂, hlog₁]⟩

theorem CodeRead.address {address : String} {identity : CodeIdentity} {raw : Bytes} {e : Exchange}
    (h : CodeRead net chainId blockTag address identity raw e) : identity.address = address := by
  obtain ⟨_, -, -, -, rfl⟩ := h
  rfl

/-- What the loop has read from some contract on, and what it makes of it. -/
structure Followed (net : Network) (chainId : ℤ) (blockTag : String) (left : ℕ) (visited : List String)
    (target : Option (CodeIdentity × Bytes)) (hops : List ProxyHop) (current : String) (reads : List Exchange)
    (more : List ProxyHop) (chain : ProxyChain) : Prop where
  hops : chain.hops = hops ++ more
  path : Path net chainId blockTag current reads more chain.effective chain.effectiveCode
  bounded : more.length ≤ left
  distinct : (contracts more chain.effective).Nodup
  fresh : ∀ address ∈ contracts more chain.effective, address ∉ visited
  target : ∃ identity code e, e ∈ reads ∧ CodeRead net chainId blockTag current identity code e ∧
    (chain.target, chain.targetCode) = target.getD (identity, code)

/-- The last turn. -/
theorem followed_end {left : ℕ} {visited : List String} {target : Option (CodeIdentity × Bytes)} {hops : List ProxyHop}
    {current : String} {turn : ProxyTurn} {chain : ProxyChain} {c c₁ c' : Client}
    (hturn : proxyTurn net chainId blockTag visited current c = .ok turn c₁)
    (hempty : turn.implementation = none ∧ turn.beaconAddress = none)
    (hend : proxyEnd (target.getD (turn.identity, turn.code)) hops turn c₁ = .ok chain c') :
    ∃ reads more, c'.exchanges = c.exchanges ++ reads ∧
      Followed net chainId blockTag left visited target hops current reads more chain := by
  obtain ⟨hnew, -, e₁, e₂, e₃, hread₁, hread₂, hread₃, hlog⟩ := proxyTurn_spec hturn
  obtain ⟨-, hend⟩ := stateless_rejectIf_bind_eq_ok.mp hend
  obtain ⟨rfl, rfl⟩ := run_pure_eq_ok.mp hend
  rw [hempty.1] at hread₂
  rw [hempty.2] at hread₃
  refine ⟨[e₁, e₂, e₃], [], hlog, (List.append_nil _).symm, .here hread₁ hread₂ hread₃, Nat.zero_le _, ?_, ?_, ?_⟩
  · simp [contracts]
  · simpa [contracts, hread₁.address] using hnew
  · exact ⟨turn.identity, turn.code, e₁, by simp, hread₁, rfl⟩

/-- **The loop**, from any turn on: its reads are a path over contracts that were not visited before, of at most as many
hops as are left, and its target is the first contract unless there was one before. -/
theorem proxyLoop_spec {left : ℕ} : ∀ {visited : List String} {target : Option (CodeIdentity × Bytes)}
    {hops : List ProxyHop} {current : String} {c c' : Client} {chain : ProxyChain},
    proxyLoop net chainId blockTag left visited target hops current c = .ok chain c' →
    ∃ reads more, c'.exchanges = c.exchanges ++ reads ∧
      Followed net chainId blockTag left visited target hops current reads more chain := by
  induction left with
  | zero =>
    intro visited target hops current c c' chain h
    obtain ⟨turn, c₁, hturn, h⟩ := run_bind_eq_ok.mp h
    split at h
    · next hempty => exact followed_end hturn hempty h
    · exact nomatch (stateless_eq_ok.mp h).1
  | succ left ih =>
    intro visited target hops current c c' chain h
    obtain ⟨turn, c₁, hturn, h⟩ := run_bind_eq_ok.mp h
    split at h
    · next hempty => exact followed_end hturn hempty h
    · next hsome =>
      obtain ⟨hnew, hone, e₁, e₂, e₃, hread₁, hread₂, hread₃, hlog₁⟩ := proxyTurn_spec hturn
      obtain ⟨hop, c₂, hhop, h⟩ := run_bind_eq_ok.mp h
      obtain ⟨reads, more, hlog, hrest⟩ := ih h
      have hproxy : hop.proxy = turn.identity := by
        rcases proxyHop_spec hhop with ⟨-, -, rfl⟩ | ⟨_, _, _, _, _, _, -, -, -, -, rfl⟩ <;> rfl
      have hcontracts : contracts (hop :: more) chain.effective = current :: contracts more chain.effective := by
        simp [contracts, hproxy, hread₁.address]
      -- the rest of the path avoids what was visited, and the contract of this turn
      have hdistinct : (contracts (hop :: more) chain.effective).Nodup := by
        rw [hcontracts, List.nodup_cons]
        exact ⟨fun hin => hrest.fresh current hin List.mem_cons_self, hrest.distinct⟩
      have hfresh : ∀ address ∈ contracts (hop :: more) chain.effective, address ∉ visited := by
        rw [hcontracts]
        intro address hin
        rcases List.mem_cons.mp hin with rfl | hin
        · exact hnew
        · exact fun hvisited => hrest.fresh address hin (List.mem_cons_of_mem _ hvisited)
      have htarget : (chain.target, chain.targetCode) = target.getD (turn.identity, turn.code) := by
        obtain ⟨_, _, _, -, -, htarget⟩ := hrest.target
        exact htarget
      have hhops : chain.hops = hops ++ hop :: more := by rw [hrest.hops, List.append_assoc, List.singleton_append]
      rcases proxyHop_spec hhop with ⟨hnone, rfl, rfl⟩ |
        ⟨beacon, beaconIdentity, beaconCode, next, e₄, e₅, hbeacon, hread₄, hread₅, hlog₂, rfl⟩
      · obtain ⟨next, hnext⟩ : ∃ next, turn.implementation = some next :=
          Option.ne_none_iff_exists'.mp fun h => hsome ⟨h, hnone⟩
        rw [hnext] at hread₂
        rw [hnone] at hread₃
        have hpath := hrest.path
        simp only [hnext, Option.getD_some] at hpath hhops hdistinct hfresh
        exact ⟨e₁ :: e₂ :: e₃ :: reads, _, by simp [hlog, hlog₁], hhops, .implementation hread₁ hread₂ hread₃ hpath,
          Nat.succ_le_succ hrest.bounded, hdistinct, hfresh, turn.identity, turn.code, e₁, by simp, hread₁, htarget⟩
      · have hnone : turn.implementation = none := by simpa [hbeacon] using hone
        rw [hnone] at hread₂
        rw [hbeacon] at hread₃
        exact ⟨e₁ :: e₂ :: e₃ :: e₄ :: e₅ :: reads, _, by simp [hlog, hlog₂, hlog₁], hhops,
          .beacon hread₁ hread₂ hread₃ hread₄ hread₅ hrest.path, Nat.succ_le_succ hrest.bounded, hdistinct, hfresh,
          turn.identity, turn.code, e₁, by simp, hread₁, htarget⟩

/-! ## The Sourcify answer -/

/-- The answer for a contract named the chain and the address, had both matches, recorded exactly these bytes, and carried
the ABI whose canonical JSON this is. -/
def SourceRecord (net : Network) (chainId : ℤ) (contract : CodeIdentity) (code : Bytes) (runtimeMatch abiHash : String)
    (abiJson : Bytes) (e : Exchange) : Prop :=
  ∃ members, HttpAnswer net "GET" (sourcifyContract chainId contract.address) none sourcifyResponseBytes
      (some "SOURCE_NOT_VERIFIED") (.obj members) e ∧
    (Json.lookup "chainId" members = some (.int chainId) ∨
      Json.lookup "chainId" members = some (.str (toString chainId))) ∧
    (∃ text, Json.lookup "address" members = some (.str text) ∧ lowerAscii text = contract.address) ∧
    (∃ text ∈ verifiedMatches, Json.lookup "match" members = some (.str text)) ∧
    runtimeMatch ∈ verifiedMatches ∧ Json.lookup "runtimeMatch" members = some (.str runtimeMatch) ∧
    (∃ runtime text, Json.lookup "runtimeBytecode" members = some (.obj runtime) ∧
      Json.lookup "onchainBytecode" runtime = some (.str text) ∧ isHexData text = true ∧
      hexBytes (text.toList.drop 2) = code) ∧
    ∃ entries encoded, Json.lookup "abi" members = some (.arr entries) ∧
      Json.dumps false true (.arr entries) = some encoded ∧ abiJson = utf8Chars encoded ∧
      abiHash = "sha256:" ++ hexText (net.sha256 abiJson)

theorem str?_eq_some {v : Json} {text : String} (h : v.str? = some text) : v = .str text := by
  cases v with
  | str s => exact congrArg _ (Option.some.inj h)
  | _ => exact nomatch h

/-- The accepted chains are those with an RPC endpoint. -/
theorem normalizeChainId_eq_ok_iff {value : Json} {chain : ℤ} :
    normalizeChainId value = .ok chain ↔ value = .int chain ∧ chain ∈ rpcChains := by
  constructor
  · intro h
    cases value with
    | int n =>
      obtain ⟨-, h⟩ := rejectIf_bind_eq_ok.mp h
      obtain ⟨hmem, h⟩ := rejectIf_bind_eq_ok.mp h
      obtain rfl := pure_eq_ok.mp h
      exact ⟨rfl, not_not.mp hmem⟩
    | _ => cases h
  · rintro ⟨rfl, hmem⟩
    have hrange : ¬ (chain < 1 ∨ chain > 2 ^ 63 - 1) := by
      rcases List.mem_cons.mp hmem with rfl | hmem
      · decide
      · obtain rfl := List.mem_singleton.mp hmem
        decide
    exact rejectIf_bind_eq_ok.mpr ⟨hrange, rejectIf_bind_eq_ok.mpr ⟨not_not.mpr hmem, rfl⟩⟩

theorem normalizeAddress_eq_ok_iff {value : Option Json} {address : String} :
    normalizeAddress value = .ok address ↔
      ∃ text, value = some (.str text) ∧ isHexWord 40 text = true ∧ lowerAscii text = address := by
  constructor
  · intro h
    unfold normalizeAddress at h
    split at h
    · next text =>
      obtain ⟨hword, h⟩ := rejectIf_bind_eq_ok.mp h
      exact ⟨text, rfl, by simpa using hword, pure_eq_ok.mp h⟩
    · cases h
  · rintro ⟨text, rfl, hword, rfl⟩
    exact rejectIf_bind_eq_ok.mpr ⟨by simp [hword], rfl⟩

theorem verifiedMatch_eq_some_iff {members : List (String × Json)} {key text : String} :
    verifiedMatch members key = some text ↔
      text ∈ verifiedMatches ∧ Json.lookup key members = some (.str text) := by
  constructor
  · intro h
    obtain ⟨hstr, hmem⟩ := Option.filter_eq_some_iff.mp h
    obtain ⟨v, hv, hstr⟩ := Option.bind_eq_some_iff.mp hstr
    exact ⟨by simpa using hmem, hv.trans (congrArg some (str?_eq_some hstr))⟩
  · rintro ⟨hmem, hlookup⟩
    rw [verifiedMatch, hlookup]
    exact Option.filter_eq_some_iff.mpr ⟨rfl, by simpa using hmem⟩

theorem namesChain_iff {value : Option Json} :
    namesChain chainId value = true ↔ value = some (.int chainId) ∨ value = some (.str (toString chainId)) := by
  constructor
  · intro h
    unfold namesChain at h
    split at h
    · exact .inl (by simpa using h)
    · exact .inr (by simpa using h)
    · cases h
  · rintro (rfl | rfl)
    · exact beq_self_eq_true chainId
    · exact beq_self_eq_true (toString chainId)

theorem recordedBytecode_eq_ok_iff {value : Option Json} {code : Bytes} :
    recordedBytecode value = .ok code ↔ ∃ recorded, value = some (.obj recorded) ∧
      dataBytes maxCodeBytes "verified runtime bytecode" (Json.lookup "onchainBytecode" recorded) = .ok code := by
  constructor
  · intro h
    unfold recordedBytecode at h
    split at h
    · next recorded => exact ⟨recorded, rfl, h⟩
    · cases h
  · rintro ⟨recorded, rfl, h⟩
    exact h

theorem dataBytes_eq_ok {maxBytes : ℕ} {fieldName : String} {value : Option Json} {raw : Bytes}
    (h : dataBytes maxBytes fieldName value = .ok raw) :
    ∃ text, value = some (.str text) ∧ isHexData text = true ∧ hexBytes (text.toList.drop 2) = raw := by
  unfold dataBytes at h
  split at h
  · next text =>
    obtain ⟨hdata, h⟩ := rejectIf_bind_eq_ok.mp h
    obtain ⟨-, h⟩ := rejectIf_bind_eq_ok.mp h
    exact ⟨text, rfl, by simpa using hdata, pure_eq_ok.mp h⟩
  · exact nomatch h

theorem validateAbi_eq_ok {value : Option Json} {abiJson : Bytes} (h : validateAbi value = .ok abiJson) :
    ∃ entries encoded, value = some (.arr entries) ∧ Json.dumps false true (.arr entries) = some encoded ∧
      abiJson = utf8Chars encoded := by
  unfold validateAbi at h
  split at h
  · next entries =>
    obtain ⟨-, h⟩ := rejectIf_bind_eq_ok.mp h
    obtain ⟨-, -, h⟩ := bind_eq_ok.mp h
    obtain ⟨encoded, hencoded, h⟩ := bind_eq_ok.mp h
    obtain ⟨-, h⟩ := rejectIf_bind_eq_ok.mp h
    obtain ⟨_, hdumps, ⟨⟩⟩ := elim_eq_ok.mp hencoded
    exact ⟨entries, encoded, rfl, hdumps, (pure_eq_ok.mp h).symm⟩
  · exact nomatch h

/-- The record is one of these bytes at this address, with both matches and this ABI. -/
structure Recorded (net : Network) (chainId : ℤ) (contract : CodeIdentity) (code : Bytes)
    (runtimeMatch abiHash : String) (abiJson : Bytes) (members : List (String × Json)) : Prop where
  chain : Json.lookup "chainId" members = some (.int chainId) ∨
    Json.lookup "chainId" members = some (.str (toString chainId))
  address : ∃ text, Json.lookup "address" members = some (.str text) ∧ isHexWord 40 text = true ∧
    lowerAscii text = contract.address
  verified : ∃ text ∈ verifiedMatches, Json.lookup "match" members = some (.str text)
  runtime : runtimeMatch ∈ verifiedMatches ∧ Json.lookup "runtimeMatch" members = some (.str runtimeMatch)
  bytecode : ∃ recorded, Json.lookup "runtimeBytecode" members = some (.obj recorded) ∧
    dataBytes maxCodeBytes "verified runtime bytecode" (Json.lookup "onchainBytecode" recorded) = .ok code
  abi : validateAbi (Json.lookup "abi" members) = .ok abiJson
  hash : abiHash = "sha256:" ++ hexText (net.sha256 abiJson)

/-- The checks of a Sourcify answer accept the records of the contract. -/
theorem readBinding_eq_ok_iff {contract : CodeIdentity} {code : Bytes} {document : Json} {runtimeMatch abiHash : String}
    {abiJson : Bytes} : readBinding net chainId contract code document = .ok (runtimeMatch, abiHash, abiJson) ↔
      ∃ members, document = .obj members ∧ Recorded net chainId contract code runtimeMatch abiHash abiJson members := by
  constructor
  · intro hbinding
    cases document with
    | obj members =>
      obtain ⟨hchain, h⟩ := rejectIf_bind_eq_ok.mp hbinding
      obtain ⟨address, haddress, h⟩ := bind_eq_ok.mp h
      obtain ⟨hsame, h⟩ := rejectIf_bind_eq_ok.mp h
      obtain ⟨hmatch, h⟩ := rejectIf_bind_eq_ok.mp h
      obtain ⟨runtime, hruntime, h⟩ := bind_eq_ok.mp h
      obtain ⟨recorded, hrecorded, h⟩ := bind_eq_ok.mp h
      obtain ⟨hcode, h⟩ := rejectIf_bind_eq_ok.mp h
      obtain ⟨json, habi, h⟩ := bind_eq_ok.mp h
      obtain ⟨rfl, heq⟩ := Prod.mk.inj (pure_eq_ok.mp h)
      obtain ⟨rfl, rfl⟩ := Prod.mk.inj heq
      obtain rfl : recorded = code := not_ne_iff.mp hcode
      obtain ⟨text, htext, hword, hlower⟩ := normalizeAddress_eq_ok_iff.mp (mapError_eq_ok.mp haddress)
      obtain ⟨first, hfirst⟩ := Option.ne_none_iff_exists'.mp hmatch
      exact ⟨members, rfl, {
        chain := namesChain_iff.mp (by simpa using hchain)
        address := ⟨text, htext, hword, hlower.trans (not_ne_iff.mp hsame)⟩
        verified := ⟨first, verifiedMatch_eq_some_iff.mp hfirst⟩
        runtime := verifiedMatch_eq_some_iff.mp (elim_ok_eq_ok.mp hruntime)
        bytecode := recordedBytecode_eq_ok_iff.mp hrecorded
        abi := habi
        hash := rfl }⟩
    | _ => cases hbinding
  · rintro ⟨members, rfl, hrecord⟩
    obtain ⟨text, htext, hword, hlower⟩ := hrecord.address
    obtain ⟨first, hfirst⟩ := hrecord.verified
    have haddress := normalizeAddress_eq_ok_iff.mpr ⟨text, htext, hword, hlower⟩
    refine rejectIf_bind_eq_ok.mpr ⟨by simp [namesChain_iff.mpr hrecord.chain], ?_⟩
    refine bind_eq_ok.mpr ⟨_, mapError_eq_ok.mpr haddress, rejectIf_bind_eq_ok.mpr ⟨by simp, ?_⟩⟩
    refine rejectIf_bind_eq_ok.mpr ⟨by simp [verifiedMatch_eq_some_iff.mpr hfirst], ?_⟩
    refine bind_eq_ok.mpr ⟨_, elim_ok_eq_ok.mpr (verifiedMatch_eq_some_iff.mpr hrecord.runtime), ?_⟩
    refine bind_eq_ok.mpr ⟨_, recordedBytecode_eq_ok_iff.mpr hrecord.bytecode, ?_⟩
    refine rejectIf_bind_eq_ok.mpr ⟨by simp, bind_eq_ok.mpr ⟨_, hrecord.abi, ?_⟩⟩
    rw [hrecord.hash]
    rfl

theorem sourcifyBinding_spec {contract : CodeIdentity} {code : Bytes} {runtimeMatch abiHash : String} {abiJson : Bytes}
    {c c' : Client} (h : sourcifyBinding net chainId contract code c = .ok (runtimeMatch, abiHash, abiJson) c') :
    ∃ e, SourceRecord net chainId contract code runtimeMatch abiHash abiJson e ∧
      c'.exchanges = c.exchanges ++ [e] := by
  obtain ⟨document, c₁, hhttp, h⟩ := run_bind_eq_ok.mp h
  obtain ⟨e, hanswer, hlog⟩ := httpJson_spec hhttp
  obtain ⟨hbinding, rfl⟩ := stateless_eq_ok.mp h
  obtain ⟨members, rfl, hrecorded⟩ := readBinding_eq_ok_iff.mp hbinding
  obtain ⟨text, htext, -, hlower⟩ := hrecorded.address
  obtain ⟨runtimeMembers, hmembers, hcode⟩ := hrecorded.bytecode
  obtain ⟨codeText, hcodeText, hdata, hbytes⟩ := dataBytes_eq_ok hcode
  obtain ⟨entries, encoded, hentries, hdumps, hjson⟩ := validateAbi_eq_ok hrecorded.abi
  exact ⟨e, ⟨members, hanswer, hrecorded.chain, ⟨text, htext, hlower⟩, hrecorded.verified, hrecorded.runtime.1,
    hrecorded.runtime.2, ⟨runtimeMembers, codeText, hmembers, hcodeText, hdata, hbytes⟩, entries, encoded, hentries,
    hdumps, hjson, hrecorded.hash⟩, hlog⟩

/-! ## The resolution -/

/-- What each exchange of a resolution says of its result: the chain id, the finalized block, the reads at that block,
the Sourcify answer, and the block once more. -/
structure Provenance (net : Network) (chainId address : Json) (result : VerifiedSourceResult)
    (chainRead blockRead : Exchange) (reads : List Exchange) (sourceRead lastRead : Exchange) (effectiveCode : Bytes) :
    Prop where
  requested_chain : chainId = .int result.chainId ∧ result.chainId ∈ rpcChains
  requested_address : ∃ text, address = .str text ∧ result.address = lowerAscii text
  reported_chain : ∃ value number canonical, RpcAnswer net result.chainId "eth_chainId" [] value chainRead ∧
    quantity (some value) = .ok (number, canonical) ∧ (number : ℤ) = result.chainId
  finalized : BlockRead net result.chainId "finalized" result.block blockRead
  unchanged : BlockRead net result.chainId (hexTag result.block.number) result.block lastRead
  pinned : ∀ e ∈ reads, Pinned net result.chainId (hexTag result.block.number) e
  path : Path net result.chainId (hexTag result.block.number) result.address reads result.proxyChain
    result.effectiveContract effectiveCode
  bounded : result.proxyChain.length ≤ 4
  distinct : (contracts result.proxyChain result.effectiveContract).Nodup
  target : ∃ code e, e ∈ reads ∧
    CodeRead net result.chainId (hexTag result.block.number) result.address result.target code e
  source : SourceRecord net result.chainId result.effectiveContract effectiveCode result.verificationMatch
    result.abiHash result.abiJson sourceRead

/-- **Provenance**: a resolution that returns has made exactly these requests, and the answers say what it returns. -/
theorem resolveVerifiedSource_provenance {net : Network} {chainId address : Json} {result : VerifiedSourceResult}
    {exchanges : List Exchange} (h : resolveVerifiedSource net chainId address = .ok (result, exchanges)) :
    ∃ chainRead blockRead reads sourceRead lastRead effectiveCode,
      exchanges = chainRead :: blockRead :: (reads ++ [sourceRead, lastRead]) ∧
      Provenance net chainId address result chainRead blockRead reads sourceRead lastRead effectiveCode := by
  obtain ⟨chain, hchain, h⟩ := bind_eq_ok.mp h
  obtain ⟨start, haddress, h⟩ := bind_eq_ok.mp h
  obtain ⟨client, hrun, rfl⟩ : ∃ client, resolveWith net chain start ⟨0, 1, 0, []⟩ = .ok result client ∧
      client.exchanges = exchanges := by
    split at h
    · next hrun =>
      obtain ⟨rfl, rfl⟩ := Prod.mk.inj (Except.ok.inj h)
      exact ⟨_, hrun, rfl⟩
    · exact nomatch h
  have hrequested := normalizeChainId_eq_ok_iff.mp hchain
  obtain ⟨text, htext, -, hlower⟩ := normalizeAddress_eq_ok_iff.mp haddress
  obtain ⟨value, c₁, hcall, hrun⟩ := run_bind_eq_ok.mp hrun
  obtain ⟨⟨number, canonical⟩, hquantity, hrun⟩ := stateless_bind_eq_ok.mp hrun
  obtain ⟨hreported, hrun⟩ := stateless_rejectIf_bind_eq_ok.mp hrun
  obtain ⟨⟨block, blockTag⟩, c₂, hblock, hrun⟩ := run_bind_eq_ok.mp hrun
  obtain ⟨proxies, c₃, hproxies, hrun⟩ := run_bind_eq_ok.mp hrun
  obtain ⟨⟨verificationMatch, abiHash, abiJson⟩, c₄, hsource, hrun⟩ := run_bind_eq_ok.mp hrun
  obtain ⟨⟨⟩, c₅, hlast, hrun⟩ := run_bind_eq_ok.mp hrun
  obtain ⟨rfl, rfl⟩ := run_pure_eq_ok.mp hrun
  obtain ⟨chainRead, hchainRead, hlog₁⟩ := rpcCall_spec hcall
  obtain ⟨blockRead, hblockRead, rfl, hlog₂⟩ := finalizedBlock_spec hblock
  obtain ⟨reads, hops, hlog₃, hfollowed⟩ := proxyLoop_spec hproxies
  obtain ⟨sourceRead, hrecord, hlog₄⟩ := sourcifyBinding_spec hsource
  obtain ⟨lastRead, hlastRead, hlog₅⟩ := assertCanonicalBlock_spec hlast
  obtain rfl : proxies.hops = hops := hfollowed.hops
  obtain ⟨identity, code, e, he, hread, htarget⟩ := hfollowed.target
  obtain ⟨rfl, rfl⟩ := Prod.mk.inj htarget
  exact ⟨chainRead, blockRead, reads, sourceRead, lastRead, proxies.effectiveCode,
    by simp [hlog₅, hlog₄, hlog₃, hlog₂, hlog₁], {
      requested_chain := hrequested
      requested_address := ⟨text, Option.some.inj htext, hlower.symm⟩
      reported_chain := ⟨value, number, canonical, hchainRead, hquantity, not_ne_iff.mp hreported⟩
      finalized := hblockRead
      unchanged := hlastRead
      pinned := hfollowed.path.pinned
      path := hfollowed.path
      bounded := hfollowed.bounded
      distinct := hfollowed.distinct
      target := ⟨_, e, he, hread⟩
      source := hrecord }⟩

/-! ## A proxy and its implementation -/

def documentAnswer (document : Json) : TransportAnswer :=
  .response ⟨some 200, some [(some "Content-Type", .text "application/json")],
    some (utf8Chars ((document.dumps true false).getD []))⟩

def resultAnswer (id : ℕ) (result : Json) : TransportAnswer :=
  documentAnswer (.obj [("jsonrpc", .str "2.0"), ("id", .int id), ("result", result)])

def demoBlock : Json := .obj [("number", .str "0x10"),
  ("hash", .str "0xabababababababababababababababababababababababababababababababab")]

def zeroWord : Json := .str "0x0000000000000000000000000000000000000000000000000000000000000000"

/-- The answers for a proxy with one implementation, by the number of the request. -/
def demoAnswer : ℕ → TransportAnswer
  | 1 => resultAnswer 1 (.str "0x1")
  | 2 => resultAnswer 2 demoBlock
  | 3 => resultAnswer 3 (.str "0x6001")
  | 4 => resultAnswer 4 (.str "0x0000000000000000000000002222222222222222222222222222222222222222")
  | 5 => resultAnswer 5 zeroWord
  | 6 => resultAnswer 6 (.str "0x600200")
  | 7 => resultAnswer 7 zeroWord
  | 8 => resultAnswer 8 zeroWord
  | 9 => documentAnswer (.obj [("chainId", .str "1"), ("address", .str "0x2222222222222222222222222222222222222222"),
      ("match", .str "match"), ("runtimeMatch", .str "exact_match"),
      ("runtimeBytecode", .obj [("onchainBytecode", .str "0x600200")]),
      ("abi", .arr [.obj [("type", .str "receive")]])])
  | 10 => resultAnswer 9 demoBlock
  | _ => .exception

/-- Keccak-256 of the two codes. -/
def codeKeccak (code : Bytes) : Bytes :=
  hexBytes (if code = [0x60, 0x01] then "309c67890bde4c575dc23d2cc3b5c3a3d599e312e980e9b61b5bc8f3cd87c8bb".toList
    else "45aca4afeeb1b4a29ff07eaefad4537d948baef4f714dd3ca951296b5cbd5a48".toList)

/-- SHA-256 of the ABI with a fallback for plain transfers, and of the one with `pause()`. -/
def abiSha256 (abiJson : Bytes) : Bytes :=
  hexBytes (if abiJson.length = 20 then "1c22f548d2aad960b08b6769b4e21d1dd7329eccea148ee87b9b4bfbe5d8a4fa".toList
    else "82cc14e13079fb3fb760b030c24aea07c1e236993ab7a8f65d02e15aa7f4f8dd".toList)

def demoNetwork : Network where
  sha256 := abiSha256
  keccak := codeKeccak
  readFloat := Json.textOnly
  lower := lowerAscii
  parseInt _ := none
  start := 0
  clock n := n
  transport n _ := demoAnswer n

theorem demoNetwork_answer : (match resolveVerifiedSource demoNetwork (.int 1)
      (.str "0x1111111111111111111111111111111111111111") with
    | .ok (result, _) => decide (result.proxyChain.length = 1)
    | .error _ => false) = true := by decide +kernel

theorem resolveVerifiedSource_provenance_proxy : ∃ result chainRead blockRead reads sourceRead lastRead effectiveCode,
    result.proxyChain.length = 1 ∧ Provenance demoNetwork (.int 1) (.str "0x1111111111111111111111111111111111111111")
      result chainRead blockRead reads sourceRead lastRead effectiveCode := by
  have hanswer := demoNetwork_answer
  rcases hresolve : resolveVerifiedSource demoNetwork (.int 1) (.str "0x1111111111111111111111111111111111111111") with
    failure | ⟨result, exchanges⟩
  · rw [hresolve] at hanswer
    exact nomatch hanswer
  · rw [hresolve] at hanswer
    obtain ⟨chainRead, blockRead, reads, sourceRead, lastRead, effectiveCode, -, hprovenance⟩ :=
      resolveVerifiedSource_provenance hresolve
    exact ⟨result, chainRead, blockRead, reads, sourceRead, lastRead, effectiveCode, of_decide_eq_true hanswer,
      hprovenance⟩

end Lucent.VerifiedSource
