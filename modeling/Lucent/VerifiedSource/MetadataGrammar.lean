import Mathlib.Data.List.Perm.Subperm
import Lucent.Lib.Cbor
import Lucent.VerifiedSource.Metadata

/-!
# Lucent.VerifiedSource.MetadataGrammar — what `_is_solidity_metadata` recognizes

* `SolidityMetadata`: the metadata of a compiler, a map of entries with its rules as fields, and its encoding.
* `isSolidityMetadata_iff`: the recognizer accepts the encodings, and each is the encoding of one map.
* `withoutSolidityMetadata_cut`: what is removed is a recognized trailer with its length.
* `withoutSolidityMetadataChecked_eq`: no read of the source is out of range.
-/

namespace Lucent.VerifiedSource

open Lucent.Lib Lucent.Lib.Cbor

/-! ## Items -/

theorem prefix_drop_append {a b value : Bytes} {offset : ℕ} :
    a ++ b <+: value.drop offset ↔ a <+: value.drop offset ∧ b <+: value.drop (offset + a.length) := by
  rw [← List.drop_drop]
  constructor
  · rintro ⟨rest, h⟩
    rw [← h, List.append_assoc, List.drop_left]
    exact ⟨List.prefix_append _ _, List.prefix_append _ _⟩
  · rintro ⟨⟨rest, h⟩, hb⟩
    rw [← h, List.drop_left] at hb
    rw [← h]
    exact (List.prefix_append_right_inj a).mpr hb

theorem fromBytes_eq (value : Bytes) : fromBytes value = ofBigEndian value := rfl

/-- A length of 24 or more takes as many bytes as it needs. -/
theorem head_of_argument {additional count minimum major n : ℕ} (h : cborArgument additional = some (count, minimum))
    (hmin : minimum ≤ n) (hmax : n < 256 ^ count) :
    head major n = initial major additional :: bigEndian count n ∧ n < 2 ^ 32 := by
  unfold cborArgument at h
  unfold head
  split at h <;> cases h
  · rw [if_neg (by omega), if_pos (by omega)]
    exact ⟨rfl, by omega⟩
  · rw [if_neg (by omega), if_neg (by omega), if_pos (by omega)]
    exact ⟨rfl, by omega⟩
  · rw [if_neg (by omega), if_neg (by omega), if_neg (by omega), if_pos (by omega)]
    exact ⟨rfl, by omega⟩

theorem exists_argument {n : ℕ} (h : 24 ≤ n) (h32 : n < 2 ^ 32) : ∃ additional count minimum,
    cborArgument additional = some (count, minimum) ∧ minimum ≤ n ∧ n < 256 ^ count ∧ 24 ≤ additional ∧
      additional < 32 := by
  by_cases h8 : n < 2 ^ 8
  · exact ⟨24, 1, 24, rfl, h, by omega, by omega, by omega⟩
  by_cases h16 : n < 2 ^ 16
  · exact ⟨25, 2, 1 <<< 8, rfl, by omega, by omega, by omega, by omega⟩
  · exact ⟨26, 4, 1 <<< 16, rfl, by omega, by omega, by omega, by omega⟩

/-- `_cbor_length` on an offset where an item may start. -/
theorem cborLength_cons {value rest : Bytes} {offset majorType : ℕ} {byte : UInt8}
    (h : value.drop offset = byte :: rest) : cborLength value offset majorType =
      if byte.toNat >>> 5 ≠ majorType then none
      else if byte.toNat &&& 0x1F < 24 then some (byte.toNat &&& 0x1F, offset + 1)
      else (cborArgument (byte.toNat &&& 0x1F)).bind fun (count, minimum) =>
        if rest.length < count ∨ ofBigEndian (rest.take count) < minimum then none
        else some (ofBigEndian (rest.take count), offset + 1 + count) := by
  have hread : value[offset]? = some byte := by
    rw [← List.head?_drop, h]
    rfl
  have hrest : value.drop (offset + 1) = rest := by rw [← List.drop_drop, h]; rfl
  have hlen : value.length = offset + 1 + rest.length := by
    have hlt : offset < value.length := (List.getElem?_eq_some_iff.mp hread).1
    have := congrArg List.length h
    rw [List.length_drop, List.length_cons] at this
    omega
  unfold cborLength
  simp only [hread, Option.bind_eq_bind, Option.bind_some]
  by_cases hmajor : byte.toNat >>> 5 ≠ majorType
  · rw [if_pos hmajor, if_pos hmajor]
    rfl
  rw [if_neg hmajor, if_neg hmajor]
  by_cases hshort : byte.toNat &&& 0x1F < 24
  · rw [if_pos hshort, if_pos hshort]
    rfl
  · rw [if_neg hshort, if_neg hshort]
    refine Option.bind_congr fun (count, minimum) _ => ?_
    have hslice : slice value (offset + 1) (offset + 1 + count) = rest.take count := by
      rw [slice, List.drop_take, hrest]
      congr 1
      omega
    dsimp only
    rw [hslice, hlen, fromBytes_eq]
    by_cases hcount : rest.length < count
    · have hout : offset + 1 + count > offset + 1 + rest.length := by omega
      have hbad : rest.length < count ∨ ofBigEndian (rest.take count) < minimum := .inl hcount
      rw [if_pos hout, if_pos hbad]
      rfl
    have hin : ¬ offset + 1 + count > offset + 1 + rest.length := by omega
    rw [if_neg hin]
    by_cases hmin : ofBigEndian (rest.take count) < minimum
    · have hbad : rest.length < count ∨ ofBigEndian (rest.take count) < minimum := .inr hmin
      rw [if_pos hbad, if_pos hmin]
      rfl
    · have hgood : ¬ (rest.length < count ∨ ofBigEndian (rest.take count) < minimum) := by tauto
      rw [if_neg hgood, if_neg hmin]
      rfl

/-- **A length** is read where its head stands. -/
theorem cborLength_eq_some {value : Bytes} {offset major n stop : ℕ} (hmajor : major < 8) :
    cborLength value offset major = some (n, stop) ↔
      n < 2 ^ 32 ∧ stop = offset + (head major n).length ∧ head major n <+: value.drop offset := by
  rcases hdrop : value.drop offset with _ | ⟨byte, rest⟩
  · have hread : value[offset]? = none := by
      rw [← List.head?_drop, hdrop]
      rfl
    obtain ⟨a, r, -, hhead⟩ := head_eq_cons major n
    simp [cborLength, hread, hhead]
  rw [cborLength_cons hdrop]
  have hfields := @eq_initial_iff byte major
  have hmask : byte.toNat &&& 0x1F < 32 := Nat.lt_succ_of_le Nat.and_le_right
  constructor
  · intro h
    split_ifs at h with hbyte hshort
    · cases h
      have hinitial := (hfields hmajor hmask).mpr ⟨not_not.mp hbyte, rfl⟩
      have hhead : head major (byte.toNat &&& 0x1F) = [byte] := by
        rw [head, if_pos hshort, ← hinitial]
      rw [hhead]
      exact ⟨by omega, rfl, rest, rfl⟩
    · obtain ⟨⟨count, minimum⟩, hargument, h⟩ := Option.bind_eq_some_iff.mp h
      dsimp only at h
      split_ifs at h with hbad
      cases h
      rw [not_or, not_lt, not_lt] at hbad
      have htake : (rest.take count).length = count := List.length_take_of_le hbad.1
      have hmax := ofBigEndian_lt (rest.take count)
      rw [htake] at hmax
      obtain ⟨hhead, h32⟩ := head_of_argument hargument hbad.2 hmax
      have hback := bigEndian_ofBigEndian (rest.take count)
      rw [htake] at hback
      have hinitial := (hfields hmajor hmask).mpr ⟨not_not.mp hbyte, rfl⟩
      rw [hhead, hback, ← hinitial]
      refine ⟨h32, ?_, ?_⟩
      · rw [List.length_cons, htake]
        omega
      · exact (List.cons_prefix_cons).mpr ⟨rfl, List.take_prefix count rest⟩
  · rintro ⟨h32, rfl, hstarts⟩
    by_cases hshort : n < 24
    · rw [head, if_pos hshort] at hstarts ⊢
      obtain ⟨hinitial, -⟩ := List.cons_prefix_cons.mp hstarts
      obtain ⟨hbyte, hadditional⟩ := (hfields hmajor (by omega)).mp hinitial.symm
      rw [if_neg (not_not.mpr hbyte), hadditional, if_pos hshort]
      rfl
    · obtain ⟨additional, count, minimum, hargument, hmin, hmax, hlow, hhigh⟩ := exists_argument (not_lt.mp hshort) h32
      obtain ⟨hhead, -⟩ := @head_of_argument _ _ _ major _ hargument hmin hmax
      rw [hhead] at hstarts ⊢
      obtain ⟨hinitial, hstarts⟩ := List.cons_prefix_cons.mp hstarts
      obtain ⟨hbyte, hadditional⟩ := (hfields hmajor hhigh).mp hinitial.symm
      have htake : rest.take count = bigEndian count n := by
        have h := List.prefix_iff_eq_take.mp hstarts
        rw [length_bigEndian] at h
        exact h.symm
      have hlen := hstarts.length_le
      rw [length_bigEndian] at hlen
      rw [if_neg (not_not.mpr hbyte), hadditional, if_neg (not_lt.mpr hlow), hargument, Option.bind_some]
      dsimp only
      rw [htake, ofBigEndian_bigEndian hmax, if_neg (by omega), List.length_cons, length_bigEndian,
        Nat.add_right_comm, Nat.add_assoc]

/-- **A blob** is read where it stands. -/
theorem cborBlob_eq_some {value content : Bytes} {offset major stop : ℕ} (hmajor : major < 8) :
    cborBlob value offset major = some (content, stop) ↔
      content.length < 2 ^ 32 ∧ stop = offset + (blob major content).length ∧ blob major content <+: value.drop offset := by
  unfold cborBlob
  simp only [Option.bind_eq_bind, Option.bind_eq_some_iff, Prod.exists, cborLength_eq_some hmajor]
  rw [blob, prefix_drop_append]
  constructor
  · rintro ⟨n, start, ⟨h32, rfl, hhead⟩, h⟩
    split_ifs at h with hstop
    · exact nomatch h
    obtain ⟨rfl, rfl⟩ := Prod.mk.inj (Option.some.inj h)
    have hslice : slice value (offset + (head major n).length) (offset + (head major n).length + n) =
        (value.drop (offset + (head major n).length)).take n := by
      rw [slice, List.drop_take, Nat.add_sub_cancel_left]
    have hlength : ((value.drop (offset + (head major n).length)).take n).length = n := by
      rw [List.length_take_of_le]
      rw [List.length_drop]
      omega
    rw [hslice, hlength]
    refine ⟨h32, ?_, hhead, List.take_prefix n _⟩
    rw [List.length_append, hlength, Nat.add_assoc]
  · rintro ⟨h32, rfl, hhead, hcontent⟩
    refine ⟨content.length, _, ⟨h32, rfl, hhead⟩, ?_⟩
    have hpos : 0 < (head major content.length).length := by
      obtain ⟨a, r, -, hcons⟩ := head_eq_cons major content.length
      simp [hcons]
    have hheadLength := hhead.length_le
    have hlength := hcontent.length_le
    rw [List.length_drop] at hheadLength hlength
    have hslice : slice value (offset + (head major content.length).length)
        (offset + (head major content.length).length + content.length) = content := by
      rw [slice, List.drop_take, Nat.add_sub_cancel_left]
      exact (List.prefix_iff_eq_take.mp hcontent).symm
    rw [if_neg (by omega), hslice, List.length_append, Nat.add_assoc]
    rfl

/-! ## The grammar -/

/-- An entry of the metadata of a compiler. -/
inductive MetadataEntry
  | ipfs (multihash : {b : Bytes // b.length = 34 ∧ [0x12, 0x20] <+: b})
  | bzzr0 (digest : {b : Bytes // b.length = 32})
  | bzzr1 (digest : {b : Bytes // b.length = 32})
  | experimental
  | release (version : {b : Bytes // b.length = 3})
  | prerelease (version : {b : Bytes // solcPrerelease b = true})

/-- The bytes of an ASCII text. -/
def asciiBytes (text : String) : Bytes := text.toList.map fun c => UInt8.ofNat c.toNat

namespace MetadataEntry

def key : MetadataEntry → String
  | .ipfs _ => "ipfs"
  | .bzzr0 _ => "bzzr0"
  | .bzzr1 _ => "bzzr1"
  | .experimental => "experimental"
  | .release _ | .prerelease _ => "solc"

/-- The entry names the source of the contract. -/
def isSource : MetadataEntry → Bool
  | .ipfs _ | .bzzr0 _ | .bzzr1 _ => true
  | .experimental | .release _ | .prerelease _ => false

def value : MetadataEntry → Bytes
  | .ipfs multihash => blob 2 multihash.1
  | .bzzr0 digest | .bzzr1 digest => blob 2 digest.1
  | .experimental => [0xF5]
  | .release version => blob 2 version.1
  | .prerelease version => blob 3 version.1

def encode (e : MetadataEntry) : Bytes := blob 3 (asciiBytes e.key) ++ e.value

end MetadataEntry

/-- The metadata of a compiler: distinct keys, the compiler among them, and at most one source. -/
structure SolidityMetadata where
  entries : List MetadataEntry
  keys_nodup : (entries.map MetadataEntry.key).Nodup
  names_solc : "solc" ∈ entries.map MetadataEntry.key
  one_source : entries.countP MetadataEntry.isSource ≤ 1

/-- A map of definite length. -/
def SolidityMetadata.encode (m : SolidityMetadata) : Bytes :=
  head 5 m.entries.length ++ m.entries.flatMap MetadataEntry.encode

/-! ## The recognizer, one entry at a time -/

theorem decodeAscii_eq_some {value : Bytes} {text : String} (h : decodeAscii value = some text) :
    value = asciiBytes text := by
  unfold decodeAscii at h
  split_ifs at h
  cases h
  rw [asciiBytes, String.toList_ofList, List.map_map]
  refine (List.map_id'' (fun byte => ?_) value).symm
  have hbyte := byte.toNat_lt
  have hvalid : byte.toNat.isValidChar := .inl (by omega)
  have hchar : (Char.ofNat byte.toNat).toNat = byte.toNat := by
    rw [Char.ofNat, dif_pos hvalid]
    rfl
  refine UInt8.toNat_inj.mp ?_
  rw [Function.comp_apply, hchar, UInt8.toNat_ofNat']
  omega

theorem asciiBytes_of_mem : ∀ key ∈ solidityMetadataKeys,
    decodeAscii (asciiBytes key) = some key ∧ (asciiBytes key).length ≤ 12 := by decide +kernel

theorem MetadataEntry.key_mem (e : MetadataEntry) : e.key ∈ solidityMetadataKeys := by
  rcases e with _ | _ | _ | _ | _ | _ <;> simp [key, solidityMetadataKeys]

theorem solcPrerelease_length {text : Bytes} (h : solcPrerelease text = true) :
    3 ≤ text.length ∧ text.length ≤ 96 := by
  rcases text with _ | ⟨first, rest⟩
  · exact nomatch h
  · simp only [solcPrerelease, Bool.and_eq_true, decide_eq_true_eq] at h
    rw [List.length_cons]
    omega

/-- What a turn of the loop reads after the key: where the value ends, if it has the shape of the key. -/
def metadataValue (payload : Bytes) (key : String) (offset : ℕ) : Option ℕ :=
  if key = "experimental" then if payload[offset]? = some 0xF5 then some (offset + 1) else none
  else if key = "solc" then
    match cborBlob payload offset 2 with
    | some ([_, _, _], stop) => some stop
    | _ => (cborBlob payload offset 3).bind fun (prerelease, stop) =>
        if solcPrerelease prerelease then some stop else none
  else (cborBlob payload offset 2).bind fun (hashBytes, stop) =>
    if key = "ipfs" then if hashBytes.length = 34 ∧ hashBytes.take 2 = [0x12, 0x20] then some stop else none
    else if hashBytes.length = 32 then some stop else none

/-- The keys of sources. -/
def isSourceKey (key : String) : Bool := key != "experimental" && key != "solc"

theorem metadataItem_eq (payload : Bytes) (s : MetadataScan) : metadataItem payload s =
    (cborBlob payload s.offset 3).bind fun (keyBytes, offset) => (decodeAscii keyBytes).bind fun key =>
      if key ∉ solidityMetadataKeys ∨ key ∈ s.keys then none
      else (metadataValue payload key offset).map fun stop =>
        ⟨stop, key :: s.keys, s.sourceKeys + if isSourceKey key then 1 else 0⟩ := by
  unfold metadataItem metadataValue
  refine Option.bind_congr fun (keyBytes, offset) _ => Option.bind_congr fun key _ => ?_
  dsimp only
  by_cases hkey : key ∉ solidityMetadataKeys ∨ key ∈ s.keys
  · rw [if_pos hkey, if_pos hkey]
    rfl
  rw [if_neg hkey, if_neg hkey]
  by_cases hexp : key = "experimental"
  · subst hexp
    by_cases hread : payload[offset]? = some 0xF5
    · simp [hread, isSourceKey]
    · simp [hread]
  by_cases hsolc : key = "solc"
  · subst hsolc
    have hfallback : ((cborBlob payload offset 3).bind fun (prerelease, stop) =>
          if !solcPrerelease prerelease then none
          else some (⟨stop, "solc" :: s.keys, s.sourceKeys⟩ : MetadataScan)) =
        ((cborBlob payload offset 3).bind fun (prerelease, stop) =>
          if solcPrerelease prerelease then some stop else none).map
          fun stop => ⟨stop, "solc" :: s.keys, s.sourceKeys + if isSourceKey "solc" then 1 else 0⟩ := by
      rcases cborBlob payload offset 3 with _ | ⟨prerelease, stop⟩
      · rfl
      · rcases hpre : solcPrerelease prerelease <;> simp [hpre, isSourceKey]
    simp only [if_neg hexp, if_true]
    rcases cborBlob payload offset 2 with _ | ⟨_ | ⟨a, _ | ⟨b, _ | ⟨c, _ | ⟨d, rest⟩⟩⟩⟩, stop⟩
    · exact hfallback
    · exact hfallback
    · exact hfallback
    · exact hfallback
    · rfl
    · exact hfallback
  · have hsource : isSourceKey key = true := by simp [isSourceKey, hexp, hsolc]
    simp only [if_neg hexp, if_neg hsolc, hsource]
    rcases cborBlob payload offset 2 with _ | ⟨hashBytes, stop⟩
    · rfl
    dsimp only [Option.bind_eq_bind, Option.bind_some]
    by_cases hipfs : key = "ipfs"
    · rw [if_pos hipfs, if_pos hipfs]
      by_cases hshape : hashBytes.length = 34 ∧ hashBytes.take 2 = [0x12, 0x20]
      · have hgood : ¬ (hashBytes.length ≠ 34 ∨ hashBytes.take 2 ≠ [0x12, 0x20]) := by tauto
        rw [if_pos hshape, if_neg hgood]
        rfl
      · have hbad : hashBytes.length ≠ 34 ∨ hashBytes.take 2 ≠ [0x12, 0x20] := by tauto
        rw [if_neg hshape, if_pos hbad]
        rfl
    · rw [if_neg hipfs, if_neg hipfs]
      by_cases hshape : hashBytes.length = 32
      · rw [if_pos hshape, if_neg (not_not.mpr hshape)]
        rfl
      · rw [if_neg hshape, if_pos hshape]
        rfl

/-- **A value** is read where an entry of the key has it. -/
theorem metadataValue_eq_some {payload : Bytes} {key : String} (hkey : key ∈ solidityMetadataKeys) {offset stop : ℕ} :
    metadataValue payload key offset = some stop ↔
      ∃ e : MetadataEntry, e.key = key ∧ stop = offset + e.value.length ∧ e.value <+: payload.drop offset := by
  unfold metadataValue
  constructor
  · intro h
    split_ifs at h with hexp hread hsolc hipfs
    · cases h
      refine ⟨.experimental, hexp.symm, rfl, ?_⟩
      rw [← List.head?_drop] at hread
      obtain ⟨rest, hrest⟩ := List.head?_eq_some_iff.mp hread
      exact ⟨rest, hrest.symm⟩
    · split at h
      · next a b c stop' hblob =>
        cases h
        obtain ⟨-, rfl, hstarts⟩ := (cborBlob_eq_some (by omega)).mp hblob
        exact ⟨.release ⟨[a, b, c], rfl⟩, hsolc.symm, rfl, hstarts⟩
      · obtain ⟨⟨prerelease, stop'⟩, hblob, h⟩ := Option.bind_eq_some_iff.mp h
        dsimp only at h
        split_ifs at h with hpre
        cases h
        obtain ⟨-, rfl, hstarts⟩ := (cborBlob_eq_some (by omega)).mp hblob
        exact ⟨.prerelease ⟨prerelease, hpre⟩, hsolc.symm, rfl, hstarts⟩
    · obtain ⟨⟨hashBytes, stop'⟩, hblob, h⟩ := Option.bind_eq_some_iff.mp h
      obtain ⟨-, rfl, hstarts⟩ := (cborBlob_eq_some (by omega)).mp hblob
      dsimp only at h
      split_ifs at h with hshape
      cases h
      refine ⟨.ipfs ⟨hashBytes, hshape.1, ?_⟩, hipfs.symm, rfl, hstarts⟩
      exact List.prefix_iff_eq_take.mpr hshape.2.symm
    · obtain ⟨⟨hashBytes, stop'⟩, hblob, h⟩ := Option.bind_eq_some_iff.mp h
      obtain ⟨-, rfl, hstarts⟩ := (cborBlob_eq_some (by omega)).mp hblob
      dsimp only at h
      split_ifs at h with hlen
      cases h
      simp only [solidityMetadataKeys, List.mem_cons, List.not_mem_nil, or_false] at hkey
      rcases hkey with rfl | rfl | rfl | rfl | rfl
      · exact absurd rfl hipfs
      · exact ⟨.bzzr0 ⟨hashBytes, hlen⟩, rfl, rfl, hstarts⟩
      · exact ⟨.bzzr1 ⟨hashBytes, hlen⟩, rfl, rfl, hstarts⟩
      · exact absurd rfl hexp
      · exact absurd rfl hsolc
  · rintro ⟨e, rfl, rfl, hstarts⟩
    have hblob : ∀ {major content}, major < 8 → content.length < 2 ^ 32 → blob major content <+: payload.drop offset →
        cborBlob payload offset major = some (content, offset + (blob major content).length) :=
      fun hmajor hlen hstarts => (cborBlob_eq_some hmajor).mpr ⟨hlen, rfl, hstarts⟩
    rcases e with ⟨h, hlen, hstart⟩ | ⟨h, hlen⟩ | ⟨h, hlen⟩ | _ | ⟨v, hlen⟩ | ⟨v, hpre⟩
    · have htake : h.take 2 = [0x12, 0x20] := (List.prefix_iff_eq_take.mp hstart).symm
      have hread := @hblob 2 h (by omega) (by omega) hstarts
      simp [MetadataEntry.key, MetadataEntry.value, hread, hlen, htake]
    · have hread := @hblob 2 h (by omega) (by omega) hstarts
      simp [MetadataEntry.key, MetadataEntry.value, hread, hlen]
    · have hread := @hblob 2 h (by omega) (by omega) hstarts
      simp [MetadataEntry.key, MetadataEntry.value, hread, hlen]
    · have hread : payload[offset]? = some 0xF5 := by
        obtain ⟨rest, hrest⟩ := hstarts
        rw [← List.head?_drop, ← hrest]
        rfl
      simp [MetadataEntry.key, MetadataEntry.value, hread]
    · obtain ⟨a, b, c, rfl⟩ := List.length_eq_three.mp hlen
      have hread := @hblob 2 [a, b, c] (by omega) (by simp) hstarts
      simp [MetadataEntry.key, MetadataEntry.value, hread]
    · -- the version is no byte string, so the first attempt reads nothing
      have hnone : cborBlob payload offset 2 = none := by
        rcases hread : cborBlob payload offset 2 with _ | ⟨content, stop⟩
        · rfl
        obtain ⟨-, -, hstarts'⟩ := (cborBlob_eq_some (by omega)).mp hread
        obtain ⟨rest, hrest⟩ := hstarts
        obtain ⟨rest', hrest'⟩ := hstarts'
        rw [← hrest', MetadataEntry.value, blob, blob, List.append_assoc, List.append_assoc] at hrest
        exact absurd hrest (head_append_ne (by omega) (by omega) (by omega) _ _)
      have hlen := solcPrerelease_length hpre
      have hread := @hblob 3 v (by omega) (by omega) hstarts
      simp [MetadataEntry.key, MetadataEntry.value, hnone, hread, hpre]

theorem MetadataEntry.isSourceKey_key (e : MetadataEntry) : isSourceKey e.key = e.isSource := by
  rcases e with _ | _ | _ | _ | _ | _ <;> simp [key, isSource, isSourceKey]

theorem MetadataEntry.key_length (e : MetadataEntry) : (asciiBytes e.key).length < 2 ^ 32 := by
  have h := (asciiBytes_of_mem e.key e.key_mem).2
  omega

/-- **A turn of the loop** reads one entry with a new key. -/
theorem metadataItem_eq_some {payload : Bytes} {s s' : MetadataScan} : metadataItem payload s = some s' ↔
    ∃ e : MetadataEntry, e.key ∉ s.keys ∧ e.encode <+: payload.drop s.offset ∧
      s' = ⟨s.offset + e.encode.length, e.key :: s.keys, s.sourceKeys + if e.isSource then 1 else 0⟩ := by
  rw [metadataItem_eq]
  constructor
  · intro h
    obtain ⟨⟨keyBytes, offset⟩, hblob, h⟩ := Option.bind_eq_some_iff.mp h
    obtain ⟨key, hascii, h⟩ := Option.bind_eq_some_iff.mp h
    by_cases hkey : key ∉ solidityMetadataKeys ∨ key ∈ s.keys
    · rw [if_pos hkey] at h
      exact nomatch h
    rw [if_neg hkey] at h
    obtain ⟨hmem, hnew⟩ := not_or.mp hkey
    obtain ⟨stop, hvalue, rfl⟩ := Option.map_eq_some_iff.mp h
    obtain ⟨-, rfl, hstarts⟩ := (cborBlob_eq_some (by omega)).mp hblob
    obtain ⟨e, rfl, rfl, hrest⟩ := (metadataValue_eq_some (not_not.mp hmem)).mp hvalue
    obtain rfl := decodeAscii_eq_some hascii
    refine ⟨e, hnew, prefix_drop_append.mpr ⟨hstarts, hrest⟩, ?_⟩
    rw [e.isSourceKey_key, MetadataEntry.encode, List.length_append, Nat.add_assoc]
  · rintro ⟨e, hnew, hstarts, rfl⟩
    obtain ⟨hkey, hvalue⟩ := prefix_drop_append.mp hstarts
    have hblob := (cborBlob_eq_some (by omega)).mpr ⟨e.key_length, rfl, hkey⟩
    have hread := (metadataValue_eq_some e.key_mem).mpr ⟨e, rfl, rfl, hvalue⟩
    rw [hblob, Option.bind_some]
    show (decodeAscii (asciiBytes e.key)).bind _ = _
    rw [(asciiBytes_of_mem e.key e.key_mem).1, Option.bind_some, if_neg (by simp [e.key_mem, hnew]), hread,
      Option.map_some, e.isSourceKey_key, MetadataEntry.encode, List.length_append, Nat.add_assoc]

/-- **The loop** reads entries with distinct new keys. -/
theorem metadataItems_eq_some {payload : Bytes} {items : ℕ} {s s' : MetadataScan} :
    metadataItems payload items s = some s' ↔ ∃ entries : List MetadataEntry, entries.length = items ∧
      (entries.map MetadataEntry.key).Nodup ∧ (∀ e ∈ entries, e.key ∉ s.keys) ∧
      entries.flatMap MetadataEntry.encode <+: payload.drop s.offset ∧
      s' = ⟨s.offset + (entries.flatMap MetadataEntry.encode).length,
        (entries.map MetadataEntry.key).reverse ++ s.keys, s.sourceKeys + entries.countP MetadataEntry.isSource⟩ := by
  induction items generalizing s with
  | zero =>
    constructor
    · intro h
      cases h
      exact ⟨[], rfl, .nil, nofun, List.nil_prefix, rfl⟩
    · rintro ⟨entries, hlen, -, -, -, rfl⟩
      obtain rfl := List.length_eq_zero_iff.mp hlen
      rfl
  | succ items ih =>
    simp only [metadataItems, Option.bind_eq_bind, Option.bind_eq_some_iff, metadataItem_eq_some]
    constructor
    · rintro ⟨_, ⟨e, hnew, hstarts, rfl⟩, h⟩
      obtain ⟨entries, rfl, hnodup, hfresh, hrest, rfl⟩ := ih.mp h
      have hkey : e.key ∉ entries.map MetadataEntry.key := by
        intro hmem
        obtain ⟨e', he', hsame⟩ := List.mem_map.mp hmem
        exact hfresh e' he' (hsame ▸ List.mem_cons_self)
      refine ⟨e :: entries, rfl, List.nodup_cons.mpr ⟨hkey, hnodup⟩, ?_, ?_, ?_⟩
      · intro e' he'
        rcases List.mem_cons.mp he' with rfl | he'
        · exact hnew
        · exact fun hmem => hfresh e' he' (List.mem_cons_of_mem _ hmem)
      · rw [List.flatMap_cons]
        exact prefix_drop_append.mpr ⟨hstarts, hrest⟩
      · rw [List.flatMap_cons, List.length_append, List.map_cons, List.reverse_cons, List.append_assoc,
          List.countP_cons, Nat.add_assoc, Nat.add_assoc]
        rw [Nat.add_comm (if e.isSource then 1 else 0)]
        rfl
    · rintro ⟨entries, hlen, hnodup, hfresh, hstarts, rfl⟩
      rcases entries with _ | ⟨e, entries⟩
      · exact nomatch hlen
      rw [List.flatMap_cons] at hstarts
      obtain ⟨hfirst, hrest⟩ := prefix_drop_append.mp hstarts
      obtain ⟨hkey, hnodup⟩ := List.nodup_cons.mp hnodup
      refine ⟨_, ⟨e, hfresh e List.mem_cons_self, hfirst, rfl⟩, ih.mpr ⟨entries, Nat.succ.inj hlen, hnodup, ?_, hrest, ?_⟩⟩
      · intro e' he' hmem
        rcases List.mem_cons.mp hmem with hsame | hmem
        · exact hkey (hsame ▸ List.mem_map_of_mem he')
        · exact hfresh e' (List.mem_cons_of_mem _ he') hmem
      · rw [List.flatMap_cons, List.length_append, List.map_cons, List.reverse_cons, List.append_assoc,
          List.countP_cons, Nat.add_assoc, Nat.add_assoc]
        rw [Nat.add_comm (if e.isSource then 1 else 0)]
        rfl

/-! ## One reading -/

theorem blob_append_inj {major : ℕ} {content content' rest rest' : Bytes} (hmajor : major < 8)
    (hlen : content.length < 2 ^ 32) (hlen' : content'.length < 2 ^ 32)
    (h : blob major content ++ rest = blob major content' ++ rest') : content = content' ∧ rest = rest' := by
  have hread := (@cborBlob_eq_some (blob major content ++ rest) content 0 major _ hmajor).mpr
    ⟨hlen, rfl, List.prefix_append _ _⟩
  have hread' := (@cborBlob_eq_some (blob major content' ++ rest') content' 0 major _ hmajor).mpr
    ⟨hlen', rfl, List.prefix_append _ _⟩
  rw [h, hread'] at hread
  obtain ⟨rfl, -⟩ := Prod.mk.inj (Option.some.inj hread)
  exact ⟨rfl, List.append_cancel_left h⟩

/-- Entries end where they say. -/
theorem MetadataEntry.encode_append_inj {e e' : MetadataEntry} {rest rest' : Bytes}
    (h : e.encode ++ rest = e'.encode ++ rest') : e = e' ∧ rest = rest' := by
  rw [encode, encode, List.append_assoc, List.append_assoc] at h
  obtain ⟨hascii, h⟩ := blob_append_inj (by omega) e.key_length e'.key_length h
  have hkey : e.key = e'.key := by
    have hread := (asciiBytes_of_mem e.key e.key_mem).1
    rw [hascii, (asciiBytes_of_mem e'.key e'.key_mem).1] at hread
    exact (Option.some.inj hread).symm
  have hne : ∀ {content content' rest rest' : Bytes}, blob 2 content ++ rest ≠ blob 3 content' ++ rest' := by
    intro content content' rest rest' h
    rw [blob, blob, List.append_assoc, List.append_assoc] at h
    exact head_append_ne (by omega) (by omega) (by omega) _ _ h
  rcases e with ⟨b, hb, _⟩ | ⟨b, hb⟩ | ⟨b, hb⟩ | _ | ⟨b, hb⟩ | ⟨b, hb⟩ <;>
    rcases e' with ⟨b', hb', _⟩ | ⟨b', hb'⟩ | ⟨b', hb'⟩ | _ | ⟨b', hb'⟩ | ⟨b', hb'⟩ <;>
    simp only [key, String.reduceEq] at hkey
  · obtain ⟨rfl, rfl⟩ := @blob_append_inj 2 b b' rest rest' (by omega) (by omega) (by omega) h
    exact ⟨rfl, rfl⟩
  · obtain ⟨rfl, rfl⟩ := @blob_append_inj 2 b b' rest rest' (by omega) (by omega) (by omega) h
    exact ⟨rfl, rfl⟩
  · obtain ⟨rfl, rfl⟩ := @blob_append_inj 2 b b' rest rest' (by omega) (by omega) (by omega) h
    exact ⟨rfl, rfl⟩
  · exact ⟨rfl, (List.cons.inj h).2⟩
  · obtain ⟨rfl, rfl⟩ := @blob_append_inj 2 b b' rest rest' (by omega) (by omega) (by omega) h
    exact ⟨rfl, rfl⟩
  · exact absurd h hne
  · exact absurd h.symm hne
  · have hlen := solcPrerelease_length hb
    have hlen' := solcPrerelease_length hb'
    obtain ⟨rfl, rfl⟩ := @blob_append_inj 3 b b' rest rest' (by omega) (by omega) (by omega) h
    exact ⟨rfl, rfl⟩

theorem MetadataEntry.encode_pos (e : MetadataEntry) : 0 < e.encode.length := by
  obtain ⟨a, r, -, hhead⟩ := head_eq_cons 3 (asciiBytes e.key).length
  simp [encode, blob, hhead]

theorem flatMap_encode_inj {entries entries' : List MetadataEntry}
    (h : entries.flatMap MetadataEntry.encode = entries'.flatMap MetadataEntry.encode) : entries = entries' := by
  induction entries generalizing entries' with
  | nil =>
    rcases entries' with _ | ⟨e', entries'⟩
    · rfl
    · have hpos := e'.encode_pos
      have hlen := congrArg List.length h
      rw [List.flatMap_cons, List.length_append, List.flatMap_nil, List.length_nil] at hlen
      omega
  | cons e entries ih =>
    rcases entries' with _ | ⟨e', entries'⟩
    · have hpos := e.encode_pos
      have hlen := congrArg List.length h
      rw [List.flatMap_cons, List.length_append, List.flatMap_nil, List.length_nil] at hlen
      omega
    · rw [List.flatMap_cons, List.flatMap_cons] at h
      obtain ⟨rfl, hrest⟩ := MetadataEntry.encode_append_inj h
      rw [ih hrest]

namespace SolidityMetadata

theorem length_le (m : SolidityMetadata) : m.entries.length ≤ solidityMetadataKeys.length := by
  have hsub : m.entries.map MetadataEntry.key ⊆ solidityMetadataKeys := by
    intro key hkey
    obtain ⟨e, -, rfl⟩ := List.mem_map.mp hkey
    exact e.key_mem
  have hlen := (m.keys_nodup.subperm hsub).length_le
  rwa [List.length_map] at hlen

theorem length_pos (m : SolidityMetadata) : 1 ≤ m.entries.length := by
  obtain ⟨e, he, -⟩ := List.mem_map.mp m.names_solc
  exact List.length_pos_of_mem he

/-- The start of a map is one byte. -/
theorem cborLength_encode (m : SolidityMetadata) (rest : Bytes) :
    cborLength (m.encode ++ rest) 0 5 = some (m.entries.length, (head 5 m.entries.length).length) := by
  have hlen := m.length_le
  refine (cborLength_eq_some (by omega)).mpr ⟨?_, (Nat.zero_add _).symm, ?_⟩
  · exact lt_of_le_of_lt hlen (by decide)
  · rw [encode, List.append_assoc]
    exact List.prefix_append _ _

theorem encode_injective : Function.Injective encode := by
  rintro m m' h
  have hread := m.cborLength_encode []
  rw [h, m'.cborLength_encode []] at hread
  obtain ⟨hlen, -⟩ := Prod.mk.inj (Option.some.inj hread)
  rw [encode, encode, hlen] at h
  have hentries := flatMap_encode_inj (List.append_cancel_left h)
  cases m
  cases m'
  cases hentries
  rfl

end SolidityMetadata

/-- **The recognizer**: it accepts the encodings of metadata. -/
theorem isSolidityMetadata_encode {payload : Bytes} :
    isSolidityMetadata payload = true ↔ ∃ m : SolidityMetadata, m.encode = payload := by
  unfold isSolidityMetadata
  constructor
  · intro h
    rcases hhead : cborLength payload 0 5 with _ | ⟨items, offset⟩
    · rw [hhead] at h
      exact nomatch h
    simp only [hhead] at h
    split_ifs at h with hitems
    rcases hloop : metadataItems payload items ⟨offset, [], 0⟩ with _ | s
    · rw [hloop] at h
      exact nomatch h
    simp only [hloop, Bool.and_eq_true, decide_eq_true_eq] at h
    obtain ⟨⟨hend, hsolc⟩, hsources⟩ := h
    obtain ⟨-, rfl, hstarts⟩ := (cborLength_eq_some (by omega)).mp hhead
    obtain ⟨entries, rfl, hnodup, -, hrest, rfl⟩ := metadataItems_eq_some.mp hloop
    simp only [List.append_nil, List.mem_reverse, Nat.zero_add] at hend hsolc hsources
    refine ⟨⟨entries, hnodup, hsolc, hsources⟩, ?_⟩
    have hwhole : SolidityMetadata.encode ⟨entries, hnodup, hsolc, hsources⟩ <+: payload.drop 0 :=
      prefix_drop_append.mpr ⟨hstarts, hrest⟩
    refine hwhole.eq_of_length ?_
    rw [SolidityMetadata.encode, List.length_append, List.drop_zero, ← hend]
  · rintro ⟨m, rfl⟩
    have hhead := m.cborLength_encode []
    rw [List.append_nil] at hhead
    have hloop := (@metadataItems_eq_some m.encode m.entries.length
      ⟨(head 5 m.entries.length).length, [], 0⟩ _).mpr ⟨m.entries, rfl, m.keys_nodup, by simp, ?_, rfl⟩
    · simp only [hhead, hloop]
      rw [if_pos ⟨m.length_pos, m.length_le⟩]
      have hsolc := m.names_solc
      have hsource := m.one_source
      simp only [Bool.and_eq_true, decide_eq_true_eq, List.append_nil, List.mem_reverse, Nat.zero_add]
      refine ⟨⟨?_, hsolc⟩, hsource⟩
      rw [SolidityMetadata.encode, List.length_append]
    · rw [SolidityMetadata.encode, List.drop_left]

/-! ## Reads -/

/-- A read outside of the bytes. -/
inductive IndexError
  | outOfRange
deriving DecidableEq

/-- A computation of the source that may return `None` and reads bytes. -/
abbrev Reading := OptionT (Except IndexError)

/-- `value[offset]`. -/
def readAt (value : Bytes) (offset : ℕ) : Except IndexError UInt8 :=
  match value[offset]? with
  | some byte => .ok byte
  | none => .error .outOfRange

/-- `_cbor_length`, its read as the source has it. -/
def cborLengthChecked (value : Bytes) (offset majorType : ℕ) : Reading (ℕ × ℕ) := do
  if offset ≥ value.length then failure
  let initial ← readAt value offset
  if initial.toNat >>> 5 ≠ majorType then failure
  let additional := initial.toNat &&& 0x1F
  let offset := offset + 1
  if additional < 24 then return (additional, offset)
  let (byteCount, minimum) ← OptionT.mk (.ok (cborArgument additional))
  if offset + byteCount > value.length then failure
  let length := fromBytes (slice value offset (offset + byteCount))
  if length < minimum then failure
  return (length, offset + byteCount)

/-- `_cbor_blob`. -/
def cborBlobChecked (value : Bytes) (offset majorType : ℕ) : Reading (Bytes × ℕ) := do
  let (length, contentOffset) ← cborLengthChecked value offset majorType
  let stop := contentOffset + length
  if stop > value.length then failure
  return (slice value contentOffset stop, stop)

/-- One turn of the loop. -/
def metadataItemChecked (payload : Bytes) (s : MetadataScan) : Reading MetadataScan := do
  let (keyBytes, offset) ← cborBlobChecked payload s.offset 3
  let key ← OptionT.mk (.ok (decodeAscii keyBytes))
  if key ∉ solidityMetadataKeys ∨ key ∈ s.keys then failure
  let keys := key :: s.keys
  if key = "experimental" then
    if offset ≥ payload.length then failure
    let byte ← readAt payload offset
    if byte ≠ 0xF5 then failure
    return { s with offset := offset + 1, keys }
  if key = "solc" then
    match ← OptionT.lift (cborBlobChecked payload offset 2).run with
    | some ([_, _, _], offset) => return { s with offset, keys }
    | _ =>
      let (prerelease, offset) ← cborBlobChecked payload offset 3
      if !solcPrerelease prerelease then failure
      return { s with offset, keys }
  let (hashBytes, offset) ← cborBlobChecked payload offset 2
  if key = "ipfs" then
    if hashBytes.length ≠ 34 ∨ hashBytes.take 2 ≠ [0x12, 0x20] then failure
  else
    if hashBytes.length ≠ 32 then failure
  return { offset, keys, sourceKeys := s.sourceKeys + 1 }

theorem run_bind_eq {α β : Type} {x : Reading α} {y : Option α} {f : α → Reading β} {g : α → Option β}
    (h : x.run = .ok y) (hf : ∀ a, y = some a → (f a).run = .ok (g a)) : (x >>= f).run = .ok (y.bind g) := by
  rw [OptionT.run_bind, h]
  rcases y with _ | a
  · rfl
  · exact hf a rfl

theorem readAt_eq {value : Bytes} {offset : ℕ} (h : offset < value.length) :
    readAt value offset = .ok value[offset] := by
  rw [readAt, List.getElem?_eq_getElem h]

theorem cborLengthChecked_run (value : Bytes) (offset majorType : ℕ) :
    (cborLengthChecked value offset majorType).run = .ok (cborLength value offset majorType) := by
  unfold cborLengthChecked cborLength
  by_cases hout : offset ≥ value.length
  · rw [if_pos hout, List.getElem?_eq_none hout]
    rfl
  rw [if_neg hout, List.getElem?_eq_getElem (not_le.mp hout), readAt_eq (not_le.mp hout)]
  refine run_bind_eq (y := some _) rfl fun initial _ => ?_
  by_cases hmajor : initial.toNat >>> 5 ≠ majorType
  · rw [if_pos hmajor, if_pos hmajor]
    rfl
  rw [if_neg hmajor, if_neg hmajor]
  dsimp only
  by_cases hshort : initial.toNat &&& 0x1F < 24
  · rw [if_pos hshort, if_pos hshort]
    rfl
  rw [if_neg hshort, if_neg hshort]
  refine run_bind_eq rfl fun (byteCount, minimum) _ => ?_
  dsimp only
  split_ifs <;> rfl

theorem cborBlobChecked_run (value : Bytes) (offset majorType : ℕ) :
    (cborBlobChecked value offset majorType).run = .ok (cborBlob value offset majorType) := by
  unfold cborBlobChecked cborBlob
  refine run_bind_eq (cborLengthChecked_run ..) fun (length, contentOffset) _ => ?_
  dsimp only
  split_ifs <;> rfl

theorem metadataItemChecked_run (payload : Bytes) (s : MetadataScan) :
    (metadataItemChecked payload s).run = .ok (metadataItem payload s) := by
  unfold metadataItemChecked metadataItem
  refine run_bind_eq (cborBlobChecked_run ..) fun (keyBytes, offset) _ => run_bind_eq rfl fun key _ => ?_
  dsimp only
  by_cases hkey : key ∉ solidityMetadataKeys ∨ key ∈ s.keys
  · rw [if_pos hkey, if_pos hkey]
    rfl
  rw [if_neg hkey, if_neg hkey]
  by_cases hexp : key = "experimental"
  · rw [if_pos hexp, if_pos hexp]
    by_cases hout : offset ≥ payload.length
    · rw [if_pos hout, List.getElem?_eq_none hout]
      rfl
    rw [if_neg hout, List.getElem?_eq_getElem (not_le.mp hout), readAt_eq (not_le.mp hout)]
    by_cases hbyte : payload[offset] = 0xF5
    · rw [hbyte, if_neg (not_not.mpr rfl)]
      rfl
    · have hne : some payload[offset] ≠ some 0xF5 := fun h => hbyte (Option.some.inj h)
      rw [if_pos hne]
      exact congrArg OptionT.run (if_pos hbyte)
  rw [if_neg hexp, if_neg hexp]
  by_cases hsolc : key = "solc"
  · rw [if_pos hsolc, if_pos hsolc, cborBlobChecked_run]
    have hfallback : (do
          let (prerelease, offset) ← cborBlobChecked payload offset 3
          if !solcPrerelease prerelease then failure
          return ({ s with offset, keys := key :: s.keys } : MetadataScan) : Reading MetadataScan).run = .ok (do
          let (prerelease, offset) ← cborBlob payload offset 3
          if !solcPrerelease prerelease then none
          return { s with offset, keys := key :: s.keys }) := by
      refine run_bind_eq (cborBlobChecked_run ..) fun (prerelease, offset) _ => ?_
      dsimp only
      split_ifs <;> rfl
    rcases cborBlob payload offset 2 with _ | ⟨_ | ⟨a, _ | ⟨b, _ | ⟨c, _ | ⟨d, rest⟩⟩⟩⟩, stop⟩
    · exact hfallback
    · exact hfallback
    · exact hfallback
    · exact hfallback
    · rfl
    · exact hfallback
  rw [if_neg hsolc, if_neg hsolc]
  refine run_bind_eq (cborBlobChecked_run ..) fun (hashBytes, offset) _ => ?_
  dsimp only
  split_ifs <;> rfl

/-- The loop. -/
def metadataItemsChecked (payload : Bytes) : ℕ → MetadataScan → Reading MetadataScan
  | 0, s => pure s
  | items + 1, s => do
    let s ← metadataItemChecked payload s
    metadataItemsChecked payload items s

/-- `_is_solidity_metadata`. -/
def isSolidityMetadataChecked (payload : Bytes) : Except IndexError Bool := do
  match ← (cborLengthChecked payload 0 5).run with
  | none => return false
  | some (itemCount, offset) =>
    if 1 ≤ itemCount ∧ itemCount ≤ solidityMetadataKeys.length then
      match ← (metadataItemsChecked payload itemCount ⟨offset, [], 0⟩).run with
      | none => return false
      | some s => return decide (s.offset = payload.length) && decide ("solc" ∈ s.keys) && decide (s.sourceKeys ≤ 1)
    else return false

/-- `_without_solidity_metadata`, with a start that may be negative. -/
def withoutSolidityMetadataChecked (bytecode : Bytes) : Except IndexError Bytes := do
  if bytecode.length < 4 then return bytecode
  let metadataLength := fromBytes (bytecode.drop (bytecode.length - 2))
  let metadataStart : ℤ := bytecode.length - metadataLength - 2
  if metadataLength = 0 ∨ metadataStart < 1 then return bytecode
  if (← readAt bytecode (metadataStart - 1).toNat) ≠ 0xFE then return bytecode
  let payload := slice bytecode metadataStart.toNat (bytecode.length - 2)
  if ← isSolidityMetadataChecked payload then return bytecode.take metadataStart.toNat
  return bytecode

theorem metadataItemsChecked_run (payload : Bytes) (items : ℕ) (s : MetadataScan) :
    (metadataItemsChecked payload items s).run = .ok (metadataItems payload items s) := by
  induction items generalizing s with
  | zero => rfl
  | succ items ih => exact run_bind_eq (metadataItemChecked_run payload s) fun s' _ => ih s'

theorem isSolidityMetadataChecked_eq (payload : Bytes) :
    isSolidityMetadataChecked payload = .ok (isSolidityMetadata payload) := by
  unfold isSolidityMetadataChecked isSolidityMetadata
  rw [cborLengthChecked_run]
  rcases cborLength payload 0 5 with _ | ⟨items, offset⟩
  · rfl
  show (if 1 ≤ items ∧ items ≤ solidityMetadataKeys.length then _ else _ : Except IndexError Bool) =
    .ok (if 1 ≤ items ∧ items ≤ solidityMetadataKeys.length then _ else _)
  by_cases hitems : 1 ≤ items ∧ items ≤ solidityMetadataKeys.length
  · rw [if_pos hitems, if_pos hitems, metadataItemsChecked_run]
    rcases metadataItems payload items ⟨offset, [], 0⟩ with _ | s' <;> rfl
  · rw [if_neg hitems, if_neg hitems]
    rfl

/-- **Reads**: none is out of range. -/
theorem withoutSolidityMetadataChecked_eq (bytecode : Bytes) :
    withoutSolidityMetadataChecked bytecode = .ok (withoutSolidityMetadata bytecode) := by
  unfold withoutSolidityMetadataChecked withoutSolidityMetadata
  by_cases hshort : bytecode.length < 4
  · rw [if_pos hshort, if_pos hshort]
    rfl
  rw [if_neg hshort, if_neg hshort]
  dsimp only
  generalize hlength : fromBytes (bytecode.drop (bytecode.length - 2)) = metadataLength
  by_cases hbad : metadataLength = 0 ∨ bytecode.length < metadataLength + 3
  · rw [if_pos (by omega), if_pos (by tauto)]
    rfl
  obtain ⟨hzero, hroom⟩ := not_or.mp hbad
  have hstart : ((bytecode.length : ℤ) - metadataLength - 2).toNat = bytecode.length - metadataLength - 2 := by omega
  have hlast : ((bytecode.length : ℤ) - metadataLength - 2 - 1).toNat = bytecode.length - metadataLength - 2 - 1 := by
    omega
  have hread : bytecode.length - metadataLength - 2 - 1 < bytecode.length := by omega
  rw [if_neg (by omega), hstart, hlast, readAt_eq hread, List.getElem?_eq_getElem hread]
  by_cases hinvalid : bytecode[bytecode.length - metadataLength - 2 - 1] = 0xFE
  · rw [hinvalid, isSolidityMetadataChecked_eq, if_neg (by tauto)]
    rcases isSolidityMetadata (slice bytecode (bytecode.length - metadataLength - 2) (bytecode.length - 2)) <;> rfl
  · rw [if_pos (by simp [hinvalid])]
    exact if_pos hinvalid

/-! ## The trailer -/

theorem MetadataEntry.encode_length_le (e : MetadataEntry) : e.encode.length ≤ 126 := by
  have hkey := (asciiBytes_of_mem e.key e.key_mem).2
  have hhead := length_head_le 3 (asciiBytes e.key).length
  have hvalue : e.value.length ≤ 9 + 96 := by
    rcases e with ⟨b, hb, _⟩ | ⟨b, hb⟩ | ⟨b, hb⟩ | _ | ⟨b, hb⟩ | ⟨b, hb⟩
    · have := length_head_le 2 b.length
      simp only [value, blob, List.length_append]
      omega
    · have := length_head_le 2 b.length
      simp only [value, blob, List.length_append]
      omega
    · have := length_head_le 2 b.length
      simp only [value, blob, List.length_append]
      omega
    · simp [value]
    · have := length_head_le 2 b.length
      simp only [value, blob, List.length_append]
      omega
    · have := length_head_le 3 b.length
      have := solcPrerelease_length hb
      simp only [value, blob, List.length_append]
      omega
  simp only [encode, blob, List.length_append]
  omega

theorem SolidityMetadata.encode_length_lt (m : SolidityMetadata) : m.encode.length < 256 ^ 2 := by
  have hentries : (m.entries.flatMap MetadataEntry.encode).length ≤ m.entries.length * 126 := by
    induction m.entries with
    | nil => exact Nat.le_refl _
    | cons e entries ih =>
      have he := e.encode_length_le
      rw [List.flatMap_cons, List.length_append, List.length_cons]
      omega
  have hhead := length_head_le 5 m.entries.length
  have hlen : m.entries.length ≤ 5 := m.length_le
  rw [SolidityMetadata.encode, List.length_append]
  omega

/-- What is removed is a recognized trailer, after INVALID and before its length. -/
theorem withoutSolidityMetadata_cut (bytecode : Bytes) : withoutSolidityMetadata bytecode = bytecode ∨
    ∃ payload, bytecode = withoutSolidityMetadata bytecode ++ payload ++ bigEndian 2 payload.length ∧
      (withoutSolidityMetadata bytecode).getLast? = some 0xFE ∧ isSolidityMetadata payload = true := by
  unfold withoutSolidityMetadata
  dsimp only
  generalize hlength : fromBytes (bytecode.drop (bytecode.length - 2)) = n
  split_ifs with hshort hbad hmetadata
  · exact .inl rfl
  · exact .inl rfl
  · right
    obtain ⟨hzero, hbad⟩ := not_or.mp hbad
    obtain ⟨hroom, hinvalid⟩ := not_or.mp hbad
    refine ⟨_, ?_, ?_, hmetadata⟩
    · have hpayload : (slice bytecode (bytecode.length - n - 2) (bytecode.length - 2)).length = n := by
        rw [slice, List.length_drop, List.length_take]
        omega
      have htail : bigEndian 2 n = bytecode.drop (bytecode.length - 2) := by
        have h := bigEndian_ofBigEndian (bytecode.drop (bytecode.length - 2))
        rwa [← fromBytes_eq, hlength, List.length_drop, Nat.sub_sub_self (by omega)] at h
      have hfront : bytecode.take (bytecode.length - n - 2) ++
          slice bytecode (bytecode.length - n - 2) (bytecode.length - 2) = bytecode.take (bytecode.length - 2) := by
        have h := List.take_append_drop (bytecode.length - n - 2) (bytecode.take (bytecode.length - 2))
        rwa [List.take_take, Nat.min_eq_left (by omega)] at h
      rw [hpayload, htail, hfront, List.take_append_drop]
    · rw [List.getLast?_take, if_neg (by omega), not_not.mp hinvalid]
      rfl
  · exact .inl rfl

/-- Such a trailer is removed. -/
theorem withoutSolidityMetadata_append {code payload : Bytes} (hlast : code.getLast? = some 0xFE)
    (hmetadata : isSolidityMetadata payload = true) :
    withoutSolidityMetadata (code ++ payload ++ bigEndian 2 payload.length) = code := by
  obtain ⟨m, hm⟩ := isSolidityMetadata_encode.mp hmetadata
  have hsmall := m.encode_length_lt
  rw [hm] at hsmall
  have hcode : 0 < code.length := List.length_pos_of_ne_nil (by rintro rfl; exact nomatch hlast)
  have hpayload : 0 < payload.length := by
    obtain ⟨a, r, -, hhead⟩ := head_eq_cons 5 m.entries.length
    rw [← hm, SolidityMetadata.encode, hhead]
    exact Nat.succ_pos _
  have hlen : (code ++ payload ++ bigEndian 2 payload.length).length = code.length + payload.length + 2 := by
    rw [List.length_append, List.length_append, length_bigEndian]
  have hstart : code.length + payload.length + 2 - payload.length - 2 = code.length := by omega
  have htail : (code ++ payload ++ bigEndian 2 payload.length).drop (code.length + payload.length + 2 - 2) =
      bigEndian 2 payload.length := by
    rw [Nat.add_sub_cancel, ← List.length_append, List.drop_left]
  have hslice : slice (code ++ payload ++ bigEndian 2 payload.length) code.length
      (code.length + payload.length + 2 - 2) = payload := by
    rw [slice, Nat.add_sub_cancel, ← List.length_append, List.take_left, List.drop_left]
  have hinvalid : (code ++ payload ++ bigEndian 2 payload.length)[code.length - 1]? = some 0xFE := by
    rw [List.append_assoc, List.getElem?_append_left (by omega), ← List.getLast?_eq_getElem?, hlast]
  have hlong : ¬ code.length + payload.length + 2 < 4 := by omega
  have hframed : ¬ (payload.length = 0 ∨ code.length + payload.length + 2 < payload.length + 3 ∨
      some (0xFE : UInt8) ≠ some 0xFE) := by
    rintro (h | h | h)
    · omega
    · omega
    · exact h rfl
  unfold withoutSolidityMetadata
  dsimp only
  rw [hlen, htail, fromBytes_eq, ofBigEndian_bigEndian hsmall, hstart, hslice, hinvalid, if_neg hlong, if_neg hframed,
    if_pos hmetadata, List.append_assoc, List.take_left]

/-- **The metadata recognizer accepts exactly its grammar**, each payload in one way; what is removed from a bytecode is
such a payload with its frame, whenever there is one; and no read is out of range. -/
theorem solidityMetadata_recognized :
    (∀ payload, isSolidityMetadata payload = true ↔ ∃! m : SolidityMetadata, m.encode = payload) ∧
    (∀ bytecode, withoutSolidityMetadata bytecode = bytecode ∨
      ∃ payload, bytecode = withoutSolidityMetadata bytecode ++ payload ++ bigEndian 2 payload.length ∧
        (withoutSolidityMetadata bytecode).getLast? = some 0xFE ∧ isSolidityMetadata payload = true) ∧
    (∀ code payload : Bytes, code.getLast? = some 0xFE → isSolidityMetadata payload = true →
      withoutSolidityMetadata (code ++ payload ++ bigEndian 2 payload.length) = code) ∧
    (∀ payload, isSolidityMetadataChecked payload = .ok (isSolidityMetadata payload)) ∧
    ∀ bytecode, withoutSolidityMetadataChecked bytecode = .ok (withoutSolidityMetadata bytecode) := by
  refine ⟨fun payload => ?_, withoutSolidityMetadata_cut, fun _ _ => withoutSolidityMetadata_append,
    isSolidityMetadataChecked_eq, withoutSolidityMetadataChecked_eq⟩
  rw [isSolidityMetadata_encode]
  constructor
  · rintro ⟨m, rfl⟩
    exact ⟨m, rfl, fun m' h => SolidityMetadata.encode_injective h⟩
  · rintro ⟨m, h, -⟩
    exact ⟨m, h⟩

end Lucent.VerifiedSource
