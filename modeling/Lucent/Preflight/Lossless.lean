import Lucent.Preflight.Clearance

/-!
# Lucent.Preflight.Lossless — the reported arguments determine the signed bytes

`_json_safe` forgets the Python type of a value: a number and a text may look the same, and a long byte string is
shown by its digest.  Under one ABI type it forgets nothing.

* `Kind`, `OfKind`: the Python types of decoded values, which the ABI type fixes.
* `jsonSafe_injective`: values of one kind are told apart by their rendering, as far as the digest tells bytes apart.
* `decodeArguments_lossless`: two accepted calldatas of a function report the same arguments exactly if they agree.
-/

namespace Lucent.Preflight

open Lucent.Lib

/-- The Python type of a decoded value; fixed-point numbers are decimals. -/
inductive Kind
  | bytes
  | bool
  | int
  | str
  | decimal
  | array (item : Kind)
  | tuple (items : List Kind)

mutual

/-- The value has the kind. -/
def OfKind : Kind → AbiValue → Prop
  | .bytes, .bytes _ => True
  | .bool, .bool _ => True
  | .int, .int _ => True
  | .str, .str _ => True
  | .decimal, .other _ => True
  | .array kind, .seq items => EachOfKind kind items
  | .tuple kinds, .seq items => OfKinds kinds items
  | _, _ => False
termination_by structural _ v => v

/-- Every value has the kind. -/
def EachOfKind : Kind → List AbiValue → Prop
  | _, [] => True
  | kind, v :: rest => OfKind kind v ∧ EachOfKind kind rest
termination_by structural _ items => items

/-- The values have the kinds, one by one. -/
def OfKinds : List Kind → List AbiValue → Prop
  | [], [] => True
  | kind :: kinds, v :: rest => OfKind kind v ∧ OfKinds kinds rest
  | _, _ => False
termination_by structural _ items => items

end

/-- The decoder gives every type values of its kind. -/
def KindedBy (env : Env) (kind : String → Kind) : Prop :=
  ∀ types data values, env.abiDecode types data = some values → OfKinds (types.map kind) values

/-- The byte strings in some values. -/
def bytesIn (values : List AbiValue) : Set Bytes := {b | ∃ v ∈ values, Within (.bytes b) v}

section Injective

variable {env : Env} {seen : Set Bytes}

/-- The two renderings of byte strings: in full, or by length, prefix and digest. -/
theorem jsonSafe_bytes_injective (hsha : Set.InjOn env.sha256 seen) {b b' : Bytes} (hb : b ∈ seen) (hb' : b' ∈ seen)
    (h : jsonSafe env (.bytes b) = jsonSafe env (.bytes b')) : b = b' := by
  have hhex : ∀ {x y : Bytes}, "0x" ++ hexText x = "0x" ++ hexText y → x = y := fun hxy =>
    hexText_injective ((String.append_right_inj _).mp hxy)
  rw [jsonSafe, jsonSafe] at h
  split_ifs at h
  · exact hhex (Json.str.inj h)
  · simp only [Json.obj.injEq, List.cons.injEq, Prod.mk.injEq, Json.str.injEq, true_and, and_true] at h
    exact hsha hb hb' (hexText_injective h.2.2)

theorem bytesIn_seq_subset {items : List AbiValue} : bytesIn items ⊆ bytesIn [.seq items] := by
  rintro b ⟨v, hv, hw⟩
  exact ⟨.seq items, List.mem_cons_self, .item hv hw⟩

theorem bytesIn_head {v : AbiValue} {rest : List AbiValue} : bytesIn [v] ⊆ bytesIn (v :: rest) := by
  rintro b ⟨w, hw, hin⟩
  obtain rfl := List.mem_singleton.mp hw
  exact ⟨w, List.mem_cons_self, hin⟩

theorem bytesIn_tail {v : AbiValue} {rest : List AbiValue} : bytesIn rest ⊆ bytesIn (v :: rest) := by
  rintro b ⟨w, hw, hin⟩
  exact ⟨w, List.mem_cons_of_mem v hw, hin⟩

mutual

/-- Values of one kind with the same rendering are the same. -/
theorem jsonSafe_injective (hsha : Set.InjOn env.sha256 seen) : ∀ (v w : AbiValue) {kind : Kind}, OfKind kind v →
    OfKind kind w → bytesIn [v] ⊆ seen → bytesIn [w] ⊆ seen → jsonSafe env v = jsonSafe env w → v = w
  | .bytes b, w, kind, hv, hw, hseen, hseen', h => by
    cases kind <;> try exact hv.elim
    cases w <;> try exact hw.elim
    rename_i b'
    have hb : b ∈ seen := hseen ⟨_, List.mem_cons_self, .refl _⟩
    have hb' : b' ∈ seen := hseen' ⟨_, List.mem_cons_self, .refl _⟩
    rw [jsonSafe_bytes_injective hsha hb hb' h]
  | .bool b, w, kind, hv, hw, _, _, h => by
    cases kind <;> try exact hv.elim
    cases w <;> try exact hw.elim
    rw [jsonSafe, jsonSafe] at h
    rw [Json.bool.inj h]
  | .int n, w, kind, hv, hw, _, _, h => by
    cases kind <;> try exact hv.elim
    cases w <;> try exact hw.elim
    rw [jsonSafe, jsonSafe] at h
    rw [intRepr_injective (Json.str.inj h)]
  | .str s, w, kind, hv, hw, _, _, h => by
    cases kind <;> try exact hv.elim
    cases w <;> try exact hw.elim
    rw [jsonSafe, jsonSafe] at h
    rw [Json.str.inj h]
  | .other t, w, kind, hv, hw, _, _, h => by
    cases kind <;> try exact hv.elim
    cases w <;> try exact hw.elim
    rw [jsonSafe, jsonSafe] at h
    rw [Json.str.inj h]
  | .seq items, w, kind, hv, hw, hseen, hseen', h => by
    have hin := bytesIn_seq_subset.trans hseen
    cases kind <;> try exact hv.elim
    · cases w <;> try exact hw.elim
      rw [jsonSafe, jsonSafe] at h
      rw [each_injective hsha items _ hv hw hin (bytesIn_seq_subset.trans hseen') (Json.arr.inj h)]
    · cases w <;> try exact hw.elim
      rw [jsonSafe, jsonSafe] at h
      rw [items_injective hsha items _ hv hw hin (bytesIn_seq_subset.trans hseen') (Json.arr.inj h)]
termination_by structural v => v

theorem each_injective (hsha : Set.InjOn env.sha256 seen) : ∀ (items items' : List AbiValue) {kind : Kind},
    EachOfKind kind items → EachOfKind kind items' → bytesIn items ⊆ seen → bytesIn items' ⊆ seen →
      jsonSafeItems env items = jsonSafeItems env items' → items = items'
  | [], [], _, _, _, _, _, _ => rfl
  | [], _ :: _, _, _, _, _, _, h => nomatch h
  | _ :: _, [], _, _, _, _, _, h => nomatch h
  | v :: rest, w :: rest', kind, hv, hw, hseen, hseen', h => by
    obtain ⟨hhead, htail⟩ := List.cons.inj h
    rw [jsonSafe_injective hsha v w hv.1 hw.1 (bytesIn_head.trans hseen) (bytesIn_head.trans hseen') hhead,
      each_injective hsha rest rest' hv.2 hw.2 (bytesIn_tail.trans hseen) (bytesIn_tail.trans hseen') htail]
termination_by structural items => items

theorem items_injective (hsha : Set.InjOn env.sha256 seen) : ∀ (items items' : List AbiValue) {kinds : List Kind},
    OfKinds kinds items → OfKinds kinds items' → bytesIn items ⊆ seen → bytesIn items' ⊆ seen →
      jsonSafeItems env items = jsonSafeItems env items' → items = items'
  | [], [], _, _, _, _, _, _ => rfl
  | [], _ :: _, _, _, _, _, _, h => nomatch h
  | _ :: _, [], _, _, _, _, _, h => nomatch h
  | v :: rest, w :: rest', [], hv, _, _, _, _ => hv.elim
  | v :: rest, w :: rest', kind :: kinds, hv, hw, hseen, hseen', h => by
    obtain ⟨hhead, htail⟩ := List.cons.inj h
    rw [jsonSafe_injective hsha v w hv.1 hw.1 (bytesIn_head.trans hseen) (bytesIn_head.trans hseen') hhead,
      items_injective hsha rest rest' hv.2 hw.2 (bytesIn_tail.trans hseen) (bytesIn_tail.trans hseen') htail]
termination_by structural items => items

end

end Injective

/-! ## Accepted calldata -/

/-- What is rendered for each value is its rendering. -/
theorem renderArguments_values {env : Env} {inputs : List AbiInput} {values : List AbiValue}
    {decoded : List DecodedArgument}
    {index : ℕ} (h : renderArguments env index inputs values = .ok decoded) :
    decoded.map (·.value) = jsonSafeItems env values := by
  induction inputs generalizing index values decoded with
  | nil =>
    rcases values with _ | ⟨value, values⟩
    · obtain rfl := Except.ok.inj h
      rfl
    · exact nomatch h
  | cons i inputs ih =>
    rcases values with _ | ⟨value, values⟩
    · exact nomatch h
    · obtain ⟨others, hothers, h⟩ := bind_eq_ok.mp h
      obtain rfl := pure_eq_ok.mp h
      rw [List.map_cons, ih hothers]
      rfl

/-- **Nothing signed is hidden by decoding**: of two calldatas that are accepted for a function, the reported arguments
are the same exactly if the bytes after the selector are. -/
theorem decodeArguments_lossless {env : Env} {kind : String → Kind} (hkind : KindedBy env kind) {fn : AbiFunction}
    {calldata calldata' : Bytes} {values values' : List AbiValue} {decoded decoded' : List DecodedArgument}
    (h : decodeArguments env fn calldata = .ok (values, decoded))
    (h' : decodeArguments env fn calldata' = .ok (values', decoded'))
    (hsha : Set.InjOn env.sha256 (bytesIn values ∪ bytesIn values')) :
    decoded = decoded' ↔ calldata.drop 4 = calldata'.drop 4 := by
  have hd := decodeArguments_ok h
  have hd' := decodeArguments_ok h'
  constructor
  · rintro rfl
    have hitems : jsonSafeItems env values = jsonSafeItems env values' :=
      (renderArguments_values hd.rendered).symm.trans (renderArguments_values hd'.rendered)
    obtain rfl := items_injective hsha values values' (hkind _ _ _ hd.decodes) (hkind _ _ _ hd'.decodes)
      Set.subset_union_left Set.subset_union_right hitems
    exact Option.some.inj (hd.canonical.symm.trans hd'.canonical)
  · intro heq
    have hvalues := hd.decodes
    rw [heq, hd'.decodes] at hvalues
    obtain rfl := Option.some.inj hvalues
    exact Except.ok.inj (hd.rendered.symm.trans hd'.rendered)

/-- The kinds of the types that fill one word. -/
def wordKind (abiType : String) : Kind :=
  if abiType = "address" then .str else if abiType = "uint256" then .int else .bool

theorem demoEnv_kinded (digest : Bytes) : KindedBy (demoEnv digest) wordKind := by
  intro types
  induction types with
  | nil =>
    intro data values h
    obtain rfl := Option.some.inj h
    trivial
  | cons abiType types ih =>
    intro data values h
    change decodeWords (abiType :: types) data = some values at h
    rw [decodeWords] at h
    split_ifs at h
    · exact nomatch h
    obtain ⟨value, hvalue, h⟩ := Option.bind_eq_some_iff.mp h
    obtain ⟨rest, hrest, h⟩ := Option.bind_eq_some_iff.mp h
    obtain rfl := Option.some.inj h
    refine ⟨?_, ih _ _ hrest⟩
    unfold decodeWord at hvalue
    unfold wordKind
    split_ifs at hvalue with haddress _ huint
    · obtain rfl := Option.some.inj hvalue
      rw [if_pos haddress]
      trivial
    · obtain rfl := Option.some.inj hvalue
      rw [if_neg haddress, if_pos huint]
      trivial
    · obtain rfl := Option.some.inj hvalue
      rw [if_neg haddress, if_neg huint]
      trivial

/-- The words of the demo environment, with a digest that keeps everything. -/
def wordEnv : Env := { demoEnv [] with sha256 := id }

def transferFunction : AbiFunction := ⟨"transfer", [⟨some "to", "address", []⟩, ⟨some "amount", "uint256", []⟩], none, none⟩

/-- A transfer to the address of ones. -/
def transferCalldata (amount : ℕ) : Bytes :=
  hexOf "a9059cbb" ++ (List.replicate 12 0 ++ List.replicate 20 0x11) ++ wordOf amount

theorem exists_decodeArguments (amount : ℕ)
    (h : (decodeArguments wordEnv transferFunction (transferCalldata amount)).isOk = true) :
    ∃ values decoded, decodeArguments wordEnv transferFunction (transferCalldata amount) = .ok (values, decoded) := by
  rcases hresult : decodeArguments wordEnv transferFunction (transferCalldata amount) with failure | ⟨values, decoded⟩
  · rw [hresult] at h
    exact nomatch h
  · exact ⟨values, decoded, rfl⟩

/-- Two amounts that are one number in JavaScript are reported apart. -/
theorem decodeArguments_lossless_large : ∃ values values' decoded decoded',
    decodeArguments wordEnv transferFunction (transferCalldata (2 ^ 53)) = .ok (values, decoded) ∧
    decodeArguments wordEnv transferFunction (transferCalldata (2 ^ 53 + 1)) = .ok (values', decoded') ∧
      decoded ≠ decoded' := by
  obtain ⟨values, decoded, h⟩ := exists_decodeArguments (2 ^ 53) (by decide +kernel)
  obtain ⟨values', decoded', h'⟩ := exists_decodeArguments (2 ^ 53 + 1) (by decide +kernel)
  have hkind : KindedBy wordEnv wordKind := demoEnv_kinded []
  have hsha : Set.InjOn wordEnv.sha256 (bytesIn values ∪ bytesIn values') := Function.injective_id.injOn
  refine ⟨values, values', decoded, decoded', h, h', fun heq => ?_⟩
  have hsame := (decodeArguments_lossless hkind h h' hsha).mp heq
  exact absurd hsame (by decide +kernel)

end Lucent.Preflight
