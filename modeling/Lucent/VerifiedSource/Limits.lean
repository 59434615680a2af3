import Mathlib.Algebra.Order.Monoid.Prod
import Mathlib.Algebra.Order.Ring.Nat
import Mathlib.Tactic.Linarith
import Lucent.Lib.Budget
import Lucent.VerifiedSource.Provenance

/-!
# Lucent.VerifiedSource.Limits — a resolution is bounded by construction

The counters of the clients are the meters: JSON-RPC calls and HTTP requests.  Each step of the resolver has a budget,
they add up to less than `MAX_RPC_CALLS` and `MAX_HTTP_REQUESTS`, and so neither limit is ever the reason of an error.

* `rpcCall_within`, `proxyLoop_within`, `resolveWith_within`: the budgets, whatever the transport answers.
* `proxyWhile`: the loop of `_resolve_proxy_chain` as the source has it, `while True`; `proxyWhile_run`: five turns are
  enough for it.
* `proxyLoop_deep`: a chain with more proxies than that ends in `PROXY_DEPTH_EXCEEDED`.
-/

namespace Lucent.VerifiedSource

open Lucent.Lib

variable {net : Network} {chainId : ℤ} {blockTag : String} {α : Type}

/-! ## Errors that are no limit -/

/-- An error that neither client raises for its limit. -/
def Plain (failure : VerifiedSourceError) : Prop :=
  failure.code ≠ "RPC_CALL_LIMIT" ∧ failure.code ≠ "UPSTREAM_TIMEOUT"

instance (failure : VerifiedSourceError) : Decidable (Plain failure) := inferInstanceAs (Decidable (_ ∧ _))

theorem plain_of_code {code message : String} (h : code ≠ "RPC_CALL_LIMIT" ∧ code ≠ "UPSTREAM_TIMEOUT") :
    Plain ⟨code, message⟩ := h

theorem loadJson_fine (body : Bytes) : Fine Plain (loadJson net body) :=
  (fine_elim (by decide)).bind fun _ => (fine_rejectIf (by decide)).bind fun _ => fine_ok _

theorem readResponse_fine {maxResponseBytes : ℕ} {notFoundCode : Option String}
    (hcode : Plain ⟨notFoundCode.getD "", "no verified runtime source was found"⟩) (response : HttpResponse) :
    Fine Plain (readResponse net maxResponseBytes notFoundCode response) := by
  refine (fine_elim (by decide)).bind fun status => (fine_rejectIf hcode).bind fun _ =>
    (fine_rejectIf (by decide)).bind fun _ => (fine_elim (by decide)).bind fun headers =>
    (fine_elim (by decide)).bind fun body => (fine_rejectIf (by decide)).bind fun _ => ?_
  exact Fine.bind (fine_rejectIf (by decide)) fun _ => Fine.bind (fine_rejectIf (by decide)) fun _ => loadJson_fine body

theorem answered_fine (answer : TransportAnswer) : Fine Plain (answered answer) := by
  cases answer with
  | response response => exact fine_ok response
  | invalid => exact fine_error (by decide)
  | limitError => exact fine_error (by decide)
  | exception => exact fine_error (by decide)

theorem rpcResult_fine (id : ℕ) (document : Json) : Fine Plain (rpcResult id document) := by
  cases document with
  | obj members =>
    exact (fine_rejectIf (by decide)).bind fun _ => (fine_rejectIf (by decide)).bind fun _ =>
      (fine_rejectIf (by decide)).bind fun _ => fine_elim (by decide)
  | _ => exact fine_error (by decide)

theorem quantity_fine (value : Option Json) : Fine Plain (quantity value) := by
  unfold quantity
  split
  · exact (fine_rejectIf (by decide)).bind fun _ => fine_ok _
  · exact fine_error (by decide)

theorem dataBytes_fine (maxBytes : ℕ) (fieldName : String) (value : Option Json) :
    Fine Plain (dataBytes maxBytes fieldName value) := by
  have hmalformed : Plain ⟨"INVALID_RPC_RESPONSE", "JSON-RPC " ++ fieldName ++ " was malformed"⟩ :=
    plain_of_code (by decide)
  have hlarge : Plain ⟨"RPC_RESULT_TOO_LARGE", "JSON-RPC " ++ fieldName ++ " exceeded its size limit"⟩ :=
    plain_of_code (by decide)
  unfold dataBytes
  split
  · exact (fine_rejectIf hmalformed).bind fun _ => (fine_rejectIf hlarge).bind fun _ => fine_ok _
  · exact fine_error hmalformed

theorem blockIdentity_fine {failure : VerifiedSourceError} (h : Plain failure) (value : Json) :
    Fine Plain (blockIdentity failure value) := by
  cases value with
  | obj members => exact fine_mapError fun _ => h
  | _ => exact fine_error h

theorem invalidAbi_plain (message : String) : Plain (invalidAbi message) := plain_of_code (by decide)

mutual

theorem validateAbiParameter_fine (scope : String) : ∀ value, Fine Plain (validateAbiParameter scope value)
  | .obj members => by
    unfold validateAbiParameter
    refine (fine_rejectIf (invalidAbi_plain _)).bind fun _ => ?_
    split
    · exact fine_error (invalidAbi_plain _)
    · split_ifs
      · exact validateComponents_fine scope members
      · exact fine_ok ()
  | .null | .bool _ | .int _ | .float _ | .str _ | .arr _ => fine_error (invalidAbi_plain _)
termination_by structural value => value

theorem validateComponents_fine (scope : String) : ∀ members, Fine Plain (validateComponents scope members)
  | [] => fine_error (invalidAbi_plain _)
  | m :: rest => by
    unfold validateComponents
    split_ifs
    · exact validateMember_fine scope m
    · exact validateComponents_fine scope rest
termination_by structural members => members

theorem validateMember_fine (scope : String) : ∀ m, Fine Plain (validateMember scope m)
  | (_, value) => validateTuple_fine scope value
termination_by structural m => m

theorem validateTuple_fine (scope : String) : ∀ value, Fine Plain (validateTuple scope value)
  | .arr components =>
    (fine_rejectIf (invalidAbi_plain _)).bind fun _ => validateParameters_fine (scope ++ " tuple component") components
  | .null | .bool _ | .int _ | .float _ | .str _ | .obj _ => fine_error (invalidAbi_plain _)
termination_by structural value => value

theorem validateParameters_fine (scope : String) : ∀ values, Fine Plain (validateParameters scope values)
  | [] => fine_ok ()
  | value :: rest => (validateAbiParameter_fine scope value).bind fun _ => validateParameters_fine scope rest
termination_by structural values => values

end

theorem validateEntryField_fine (members : List (String × Json)) (fieldName : String) :
    Fine Plain (validateEntryField members fieldName) := by
  unfold validateEntryField
  split
  · exact fine_ok ()
  · exact (fine_rejectIf (invalidAbi_plain _)).bind fun _ => validateParameters_fine _ _
  · exact fine_error (invalidAbi_plain _)

theorem validateAbiEntry_fine (entry : Json) : Fine Plain (validateAbiEntry entry) := by
  cases entry with
  | obj members =>
    exact (fine_elim (invalidAbi_plain _)).bind fun kind => (fine_rejectIf (invalidAbi_plain _)).bind fun _ =>
      (fine_rejectIf (invalidAbi_plain _)).bind fun _ => (validateEntryField_fine members _).bind fun _ =>
      validateEntryField_fine members _
  | _ => exact fine_error (invalidAbi_plain _)

theorem validateAbi_fine (value : Option Json) : Fine Plain (validateAbi value) := by
  unfold validateAbi
  split
  · exact (fine_rejectIf (invalidAbi_plain _)).bind fun _ => (fine_forM validateAbiEntry_fine _).bind fun _ =>
      (fine_elim (invalidAbi_plain _)).bind fun _ => (fine_rejectIf (invalidAbi_plain _)).bind fun _ => fine_ok _
  · exact fine_error (invalidAbi_plain _)

theorem recordedBytecode_fine (value : Option Json) : Fine Plain (recordedBytecode value) := by
  unfold recordedBytecode
  split
  · exact dataBytes_fine _ _ _
  · exact fine_error (by decide)

theorem readBinding_fine (contract : CodeIdentity) (code : Bytes) (document : Json) :
    Fine Plain (readBinding net chainId contract code document) := by
  cases document with
  | obj members =>
    exact (fine_rejectIf (by decide)).bind fun _ => (fine_mapError fun _ => by decide).bind fun _ =>
      (fine_rejectIf (by decide)).bind fun _ => (fine_rejectIf (by decide)).bind fun _ =>
      (fine_elim (by decide)).bind fun _ => (recordedBytecode_fine _).bind fun _ =>
      (fine_rejectIf (by decide)).bind fun _ => (validateAbi_fine _).bind fun _ => fine_ok _
  | _ => exact fine_error (by decide)

/-! ## Budgets -/

/-- JSON-RPC calls and HTTP requests so far. -/
def meter (client : Client) : ℕ × ℕ := (client.calls, client.requests)

/-- An error that may be raised at these counters: the limit of the calls is none, and a timeout is one of the clock. -/
def Allowed (net : Network) (failure : VerifiedSourceError) (client : Client) : Prop :=
  failure.code ≠ "RPC_CALL_LIMIT" ∧
    (failure.code = "UPSTREAM_TIMEOUT" → net.start + 24 ≤ net.clock client.requests)

theorem Plain.allowed {failure : VerifiedSourceError} (h : Plain failure) (client : Client) :
    Allowed net failure client := ⟨h.1, fun htimeout => absurd htimeout h.2⟩

/-- At most this many calls and requests, while the limits leave room for them. -/
def Costs (net : Network) (calls requests : ℕ) (x : Resolver α) : Prop :=
  Within meter (maxRpcCalls, maxHttpRequests) (Allowed net) (calls, requests) x

section Rules

variable {β : Type} {calls requests calls' requests' : ℕ}

theorem Costs.bind {x : Resolver α} {f : α → Resolver β} (hx : Costs net calls requests x)
    (hf : ∀ a, Costs net calls' requests' (f a)) : Costs net (calls + calls') (requests + requests') (x >>= f) :=
  Within.bind hx hf

theorem Costs.mono {x : Resolver α} (h : Costs net calls requests x) (hc : calls ≤ calls') (hr : requests ≤ requests') :
    Costs net calls' requests' x :=
  Within.mono h ⟨hc, hr⟩

theorem costs_pure (a : α) : Costs net 0 0 (pure a : Resolver α) := within_pure a

theorem costs_stateless {x : Except VerifiedSourceError α} (h : Fine Plain x) : Costs net 0 0 (stateless x) :=
  Within.stateless fun client failure hf => (h failure hf).allowed client

/-- A pure computation in front of the rest costs nothing. -/
theorem Costs.after {x : Except VerifiedSourceError α} {f : α → Resolver β} (h : Fine Plain x)
    (hf : ∀ a, Costs net calls requests (f a)) : Costs net calls requests (stateless x >>= f) := by
  simpa only [Nat.zero_add] using (costs_stateless h).bind hf

/-- A last computation that costs nothing. -/
theorem Costs.andThen {x : Resolver α} {f : α → Resolver β} (hx : Costs net calls requests x)
    (hf : ∀ a, Costs net 0 0 (f a)) : Costs net calls requests (x >>= f) := hx.bind hf

end Rules

theorem httpJson_costs {method url : String} {body : Option Bytes} {maxResponseBytes : ℕ} {notFoundCode : Option String}
    (hcode : Plain ⟨notFoundCode.getD "", "no verified runtime source was found"⟩) :
    Costs net 0 1 (httpJson net method url body maxResponseBytes notFoundCode) := by
  have hcount : Costs net 0 1 (modify fun c => { c with requests := c.requests + 1 } : Resolver PUnit) :=
    within_modify fun _ => rfl
  have hlog : ∀ e : Exchange, Costs net 0 0 (modify fun c => { c with exchanges := c.exchanges ++ [e] } : Resolver PUnit) :=
    fun _ => within_modify fun _ => rfl
  refine hcount.andThen fun _ => within_get_bind fun client hroom => ?_
  refine kept_rejectIf_bind (add_zero _).ge (fun hlate => ⟨by decide, fun _ => ?_⟩) fun _ => ?_
  · -- the counter is within its limit, so it is the clock
    have hclock := hlate.resolve_left (not_lt.mpr hroom.2)
    linarith
  · have hrest := fun request => @Costs.after net _ _ _ _ _ _ (answered_fine (net.transport client.requests request))
      fun response => Costs.after (@readResponse_fine net maxResponseBytes _ hcode response)
        fun value => (hlog (request, response)).andThen fun _ => costs_pure value
    exact hrest _ client hroom

theorem rpcCall_costs (method : String) (params : List Json) : Costs net 1 1 (rpcCall net chainId method params) := by
  have hcount : Costs net 1 0 (modify fun c => { c with calls := c.calls + 1 } : Resolver PUnit) :=
    within_modify fun _ => rfl
  have hid : Costs net 0 0 (modify fun c => { c with nextId := c.nextId + 1 } : Resolver PUnit) :=
    within_modify fun _ => rfl
  refine @Costs.bind _ _ _ 1 0 0 1 _ _ hcount fun _ => within_get_bind fun client hroom => ?_
  refine kept_rejectIf_bind le_self_add (fun hmany => absurd hroom.1 (not_le.mpr hmany)) fun _ => ?_
  have hrest := hid.bind fun _ => (@httpJson_costs net "POST" (rpcEndpoint chainId)
    (some (rpcBody client.nextId method params)) rpcResponseBytes none (by decide)).andThen fun response =>
      costs_stateless (rpcResult_fine client.nextId response)
  exact hrest client hroom

theorem finalizedBlock_costs : Costs net 1 1 (finalizedBlock net chainId) :=
  (rpcCall_costs _ _).andThen fun _ => costs_stateless (blockIdentity_fine (by decide) _)

theorem assertCanonicalBlock_costs (block : BlockIdentity) :
    Costs net 1 1 (assertCanonicalBlock net chainId block blockTag) :=
  (rpcCall_costs _ _).andThen fun _ => Costs.after (blockIdentity_fine (by decide) _) fun _ =>
    costs_stateless (fine_rejectIf (by decide))

theorem codeIdentity_costs (address : String) : Costs net 1 1 (codeIdentity net chainId address blockTag) :=
  (rpcCall_costs _ _).andThen fun _ => Costs.after (dataBytes_fine _ _ _) fun _ =>
    Costs.after (fine_rejectIf (by decide)) fun _ => costs_pure _

theorem slotAddress_costs (address slot : String) : Costs net 1 1 (slotAddress net chainId address slot blockTag) :=
  (rpcCall_costs _ _).andThen fun _ => Costs.after (dataBytes_fine _ _ _) fun _ =>
    Costs.after (fine_rejectIf (by decide)) fun _ => costs_pure _

theorem beaconImplementation_costs (beacon : String) : Costs net 1 1 (beaconImplementation net chainId beacon blockTag) :=
  (rpcCall_costs _ _).andThen fun _ => Costs.after (dataBytes_fine _ _ _) fun _ =>
    Costs.after (fine_rejectIf (by decide)) fun _ => costs_pure _

theorem proxyTurn_costs (visited : List String) (current : String) :
    Costs net 3 3 (proxyTurn net chainId blockTag visited current) :=
  Costs.after (fine_rejectIf (by decide)) fun _ => (codeIdentity_costs current).bind fun _ =>
    (slotAddress_costs current _).bind fun _ => (slotAddress_costs current _).andThen fun _ =>
    Costs.after (fine_rejectIf (by decide)) fun _ => costs_pure _

theorem proxyHop_costs (visited : List String) (identity : CodeIdentity) (implementation beaconAddress : Option String) :
    Costs net 2 2 (proxyHop net chainId blockTag visited identity implementation beaconAddress) := by
  cases beaconAddress with
  | none => exact (costs_pure _).mono (Nat.zero_le _) (Nat.zero_le _)
  | some beacon =>
    exact Costs.after (fine_rejectIf (by decide)) fun _ => (codeIdentity_costs beacon).bind fun _ =>
      (beaconImplementation_costs beacon).andThen fun _ => Costs.after (fine_rejectIf (by decide)) fun _ => costs_pure _

theorem proxyEnd_costs (target : CodeIdentity × Bytes) (hops : List ProxyHop) (turn : ProxyTurn) :
    Costs net 0 0 (proxyEnd target hops turn) :=
  Costs.after (fine_rejectIf (by decide)) fun _ => costs_pure _

/-- **The loop**: three reads in each turn, and two more for each hop over a beacon. -/
theorem proxyLoop_costs (left : ℕ) : ∀ (visited : List String) (target : Option (CodeIdentity × Bytes))
    (hops : List ProxyHop) (current : String), Costs net (3 + 5 * left) (3 + 5 * left)
      (proxyLoop net chainId blockTag left visited target hops current) := by
  induction left with
  | zero =>
    intro visited target hops current
    refine (proxyTurn_costs visited current).andThen fun turn => ?_
    split_ifs
    · exact proxyEnd_costs _ _ _
    · exact costs_stateless (fine_error (by decide))
  | succ left ih =>
    intro visited target hops current
    have hrest : ∀ turn : ProxyTurn, Costs net (5 + 5 * left) (5 + 5 * left) (
        if turn.implementation = none ∧ turn.beaconAddress = none then
          proxyEnd (target.getD (turn.identity, turn.code)) hops turn
        else
          proxyHop net chainId blockTag (current :: visited) turn.identity turn.implementation turn.beaconAddress >>=
            fun hop => proxyLoop net chainId blockTag left (current :: visited)
              (some (target.getD (turn.identity, turn.code))) (hops ++ [hop]) hop.implementationAddress) := by
      intro turn
      split_ifs
      · exact (proxyEnd_costs _ _ _).mono (Nat.zero_le _) (Nat.zero_le _)
      · exact ((proxyHop_costs _ _ _ _).bind fun hop => ih _ _ _ hop.implementationAddress).mono (by omega) (by omega)
    exact ((proxyTurn_costs visited current).bind hrest).mono (by omega) (by omega)

theorem sourcifyBinding_costs (contract : CodeIdentity) (code : Bytes) :
    Costs net 0 1 (sourcifyBinding net chainId contract code) :=
  (httpJson_costs (by decide)).andThen fun _ => costs_stateless (readBinding_fine contract code _)

/-- **The budget of a resolution.** -/
theorem resolveWith_costs (address : String) : Costs net 26 27 (resolveWith net chainId address) := by
  have hchain : ∀ blockTag, Costs net 23 23 (resolveProxyChain net chainId address blockTag) := fun blockTag =>
    proxyLoop_costs maxProxyHops [] none [] address
  refine (rpcCall_costs _ _).bind fun _ => Costs.after (quantity_fine _) fun _ =>
    Costs.after (fine_rejectIf (by decide)) fun _ => @Costs.bind _ _ _ 1 1 24 25 _ _ finalizedBlock_costs fun found => ?_
  obtain ⟨block, blockTag⟩ := found
  exact (hchain blockTag).bind fun chain => (sourcifyBinding_costs chain.effective chain.effectiveCode).bind fun _ =>
    (assertCanonicalBlock_costs block).andThen fun _ => costs_pure _

/-! ## The loop as the source has it -/

def proxyDepthExceeded : VerifiedSourceError := ⟨"PROXY_DEPTH_EXCEEDED", "the EIP-1967 proxy chain was too deep"⟩

/-- `while True` of `_resolve_proxy_chain`, for at most so many turns; `none` when they run out. -/
def proxyWhile (net : Network) (chainId : ℤ) (blockTag : String) :
    ℕ → List String → Option (CodeIdentity × Bytes) → List ProxyHop → String → OptionT Resolver ProxyChain
  | 0, _, _, _, _ => failure
  | turns + 1, visited, target, hops, current => do
    let turn ← proxyTurn net chainId blockTag visited current
    if turn.implementation = none ∧ turn.beaconAddress = none then
      proxyEnd (target.getD (turn.identity, turn.code)) hops turn
    else do
      (stateless (rejectIf (hops.length ≥ maxProxyHops) proxyDepthExceeded) : Resolver Unit)
      let hop ← proxyHop net chainId blockTag (current :: visited) turn.identity turn.implementation turn.beaconAddress
      proxyWhile net chainId blockTag turns (current :: visited) (some (target.getD (turn.identity, turn.code)))
        (hops ++ [hop]) hop.implementationAddress

theorem run_lift (x : Resolver α) : (liftM x : OptionT Resolver α).run = some <$> x := by
  simp [liftM]

theorem run_lift_bind {β : Type} (x : Resolver α) (f : α → OptionT Resolver β) :
    ((liftM x : OptionT Resolver α) >>= f).run = x >>= fun a => (f a).run := by
  simp [OptionT.run_bind, Option.elimM]

/-- One turn of `while True`. -/
theorem proxyWhile_succ {turns : ℕ} {visited : List String} {target : Option (CodeIdentity × Bytes)}
    {hops : List ProxyHop} {current : String} :
    (proxyWhile net chainId blockTag (turns + 1) visited target hops current).run =
      proxyTurn net chainId blockTag visited current >>= fun turn =>
        if turn.implementation = none ∧ turn.beaconAddress = none then
          some <$> proxyEnd (target.getD (turn.identity, turn.code)) hops turn
        else if hops.length ≥ maxProxyHops then stateless (.error proxyDepthExceeded)
        else proxyHop net chainId blockTag (current :: visited) turn.identity turn.implementation turn.beaconAddress >>=
          fun hop => (proxyWhile net chainId blockTag turns (current :: visited)
            (some (target.getD (turn.identity, turn.code))) (hops ++ [hop]) hop.implementationAddress).run := by
  rw [proxyWhile, run_lift_bind]
  refine congrArg _ (funext fun turn => ?_)
  by_cases hempty : turn.implementation = none ∧ turn.beaconAddress = none
  · rw [if_pos hempty, if_pos hempty]
    exact run_lift _
  · rw [if_neg hempty, if_neg hempty, run_lift_bind]
    by_cases hfull : hops.length ≥ maxProxyHops
    · rw [if_pos hfull, rejectIf, if_pos hfull]
      rfl
    · rw [if_neg hfull, rejectIf, if_neg hfull]
      exact run_lift_bind ..

/-- One turn more than there are hops left is enough, and the loop is the one over the hops left. -/
theorem proxyWhile_run {left : ℕ} : ∀ {turns : ℕ} {visited : List String} {target : Option (CodeIdentity × Bytes)}
    {hops : List ProxyHop} {current : String}, left + hops.length = maxProxyHops → left < turns →
    (proxyWhile net chainId blockTag turns visited target hops current).run =
      some <$> proxyLoop net chainId blockTag left visited target hops current := by
  induction left with
  | zero =>
    intro turns visited target hops current hhops hturns
    obtain ⟨turns, rfl⟩ := Nat.exists_eq_succ_of_ne_zero hturns.ne'
    have hfull : hops.length ≥ maxProxyHops := by omega
    rw [proxyWhile_succ, proxyLoop, map_bind]
    refine congrArg _ (funext fun turn => ?_)
    rw [if_pos hfull]
    split_ifs
    · rfl
    · rfl
  | succ left ih =>
    intro turns visited target hops current hhops hturns
    obtain ⟨turns, rfl⟩ := Nat.exists_eq_succ_of_ne_zero (Nat.ne_of_gt (Nat.zero_lt_of_lt hturns))
    have hfull : ¬ hops.length ≥ maxProxyHops := by omega
    rw [proxyWhile_succ, proxyLoop, map_bind]
    refine congrArg _ (funext fun turn => ?_)
    rw [if_neg hfull]
    split_ifs
    · rfl
    · rw [map_bind]
      refine congrArg _ (funext fun hop => ih ?_ (by omega))
      rw [List.length_append, List.length_singleton]
      omega

/-! ## Chains of proxies -/

/-- From a state of the loop on, the answers name so many proxies one after the other. -/
inductive Proxies (net : Network) (chainId : ℤ) (blockTag : String) : ℕ → List String → String → Client → Prop
  | last {visited current turn c c₁} : proxyTurn net chainId blockTag visited current c = .ok turn c₁ →
      ¬ (turn.implementation = none ∧ turn.beaconAddress = none) → Proxies net chainId blockTag 1 visited current c
  | hop {n visited current turn hop c c₁ c₂} : proxyTurn net chainId blockTag visited current c = .ok turn c₁ →
      ¬ (turn.implementation = none ∧ turn.beaconAddress = none) →
      proxyHop net chainId blockTag (current :: visited) turn.identity turn.implementation turn.beaconAddress c₁ =
        .ok hop c₂ →
      Proxies net chainId blockTag n (current :: visited) hop.implementationAddress c₂ →
      Proxies net chainId blockTag (n + 1) visited current c

theorem run_bind_of_ok {β : Type} {x : Resolver α} {f : α → Resolver β} {a : α} {c c₁ : Client} (h : x c = .ok a c₁) :
    (x >>= f) c = f a c₁ := by
  show EStateM.bind x f c = _
  unfold EStateM.bind
  rw [h]

/-- More proxies than hops left end in `PROXY_DEPTH_EXCEEDED`. -/
theorem proxyLoop_deep {n left : ℕ} {visited : List String} {current : String} {c : Client}
    (h : Proxies net chainId blockTag n visited current c) (hn : left < n)
    (target : Option (CodeIdentity × Bytes)) (hops : List ProxyHop) :
    ∃ c', proxyLoop net chainId blockTag left visited target hops current c = .error proxyDepthExceeded c' := by
  induction h generalizing left target hops with
  | @last visited current turn c c₁ hturn hsome =>
    obtain rfl : left = 0 := by omega
    refine ⟨c₁, ?_⟩
    rw [proxyLoop, run_bind_of_ok hturn, if_neg hsome]
    rfl
  | @hop n visited current turn hop c c₁ c₂ hturn hsome hhop _ ih =>
    cases left with
    | zero =>
      refine ⟨c₁, ?_⟩
      rw [proxyLoop, run_bind_of_ok hturn, if_neg hsome]
      rfl
    | succ left =>
      obtain ⟨c', hc'⟩ := ih (Nat.lt_of_succ_lt_succ hn) (some (target.getD (turn.identity, turn.code))) (hops ++ [hop])
      refine ⟨c', ?_⟩
      rw [proxyLoop, run_bind_of_ok hturn, if_neg hsome, run_bind_of_ok hhop]
      exact hc'

/-! ## The bound -/

/-- **Bounded resolution**, whatever the transport answers.  However a resolution ends, it has made at most 26 JSON-RPC
calls and 27 HTTP requests; its error is never the limit of the calls, and a timeout is one of the clock, not of the
count.  The loop over the proxies ends within five turns; a chain of more than `MAX_PROXY_HOPS` proxies ends in
`PROXY_DEPTH_EXCEEDED`, and one that gives a result has at most that many before a contract with two empty slots. -/
theorem resolveVerifiedSource_bounded (net : Network) (chainId : ℤ) (address : String) :
    (∀ result client, resolveWith net chainId address ⟨0, 1, 0, []⟩ = .ok result client →
      client.calls ≤ 26 ∧ client.requests ≤ 27) ∧
    (∀ failure client, resolveWith net chainId address ⟨0, 1, 0, []⟩ = .error failure client →
      client.calls ≤ 26 ∧ client.requests ≤ 27 ∧ failure.code ≠ "RPC_CALL_LIMIT" ∧
        (failure.code = "UPSTREAM_TIMEOUT" → net.start + 24 ≤ net.clock client.requests)) ∧
    (∀ blockTag client turns, maxProxyHops < turns →
      (proxyWhile net chainId blockTag turns [] none [] address).run client =
        (some <$> resolveProxyChain net chainId address blockTag) client) ∧
    (∀ blockTag client n, maxProxyHops < n → Proxies net chainId blockTag n [] address client →
      ∃ client', resolveProxyChain net chainId address blockTag client = .error proxyDepthExceeded client') ∧
    (∀ blockTag client chain client', resolveProxyChain net chainId address blockTag client = .ok chain client' →
      chain.hops.length ≤ maxProxyHops ∧
        ∃ reads, Path net chainId blockTag address reads chain.hops chain.effective chain.effectiveCode) := by
  have hkept := @resolveWith_costs net chainId address ⟨0, 1, 0, []⟩ (by decide)
  have hmeter : ∀ client : Client, meter client ≤ meter ⟨0, 1, 0, []⟩ + (26, 27) →
      client.calls ≤ 26 ∧ client.requests ≤ 27 := by
    intro client hle
    obtain ⟨hcalls, hrequests⟩ := Prod.mk_le_mk.mp hle
    exact ⟨hcalls.trans_eq (Nat.zero_add _), hrequests.trans_eq (Nat.zero_add _)⟩
  refine ⟨?_, ?_, ?_, ?_, ?_⟩
  · intro result client h
    rw [h] at hkept
    exact hmeter client hkept
  · intro failure client h
    rw [h] at hkept
    exact ⟨(hmeter client hkept.1).1, (hmeter client hkept.1).2, hkept.2⟩
  · intro blockTag client turns hturns
    exact congrFun (proxyWhile_run rfl hturns) client
  · intro blockTag client n hn h
    exact proxyLoop_deep h hn none []
  · intro blockTag client chain client' h
    obtain ⟨reads, more, -, hfollowed⟩ := proxyLoop_spec h
    obtain rfl : chain.hops = more := hfollowed.hops
    exact ⟨hfollowed.bounded, reads, hfollowed.path⟩

end Lucent.VerifiedSource
