import Mathlib.Algebra.Order.Ring.Int
import Mathlib.Data.Rat.Floor
import Lucent.Lib.Text

/-!
# Lucent.Lib.Cbor — CBOR items of definite length

An item starts with its major type and a length, spelled in the fewest bytes.

* `bigEndian count n`: `n` in `count` bytes; `ofBigEndian` reads it back.
* `head major n`: the start of an item; `blob major content`: a byte string or a text.
-/

namespace Lucent.Lib.Cbor

/-! ## Big-endian numbers -/

/-- The number the bytes stand for. -/
def ofBigEndian (value : Bytes) : ℕ := value.foldl (fun n byte => 256 * n + byte.toNat) 0

/-- The last `count` digits of `n` to base 256. -/
def bigEndian : ℕ → ℕ → Bytes
  | 0, _ => []
  | count + 1, n => bigEndian count (n / 256) ++ [UInt8.ofNat n]

@[simp] theorem length_bigEndian (count n : ℕ) : (bigEndian count n).length = count := by
  induction count generalizing n with
  | zero => rfl
  | succ count ih => rw [bigEndian, List.length_append, ih, List.length_singleton]

theorem ofBigEndian_concat (value : Bytes) (byte : UInt8) :
    ofBigEndian (value ++ [byte]) = 256 * ofBigEndian value + byte.toNat := List.foldl_append

theorem ofBigEndian_bigEndian {count n : ℕ} (h : n < 256 ^ count) : ofBigEndian (bigEndian count n) = n := by
  induction count generalizing n with
  | zero => exact (Nat.lt_one_iff.mp h).symm
  | succ count ih =>
    have hdiv : n / 256 < 256 ^ count := Nat.div_lt_of_lt_mul (by rwa [Nat.pow_succ, Nat.mul_comm] at h)
    rw [bigEndian, ofBigEndian_concat, ih hdiv, UInt8.toNat_ofNat']
    omega

theorem bigEndian_ofBigEndian (value : Bytes) : bigEndian value.length (ofBigEndian value) = value := by
  induction value using List.reverseRecOn with
  | nil => rfl
  | append_singleton value byte ih =>
    have hbyte := byte.toNat_lt
    have hdiv : (256 * ofBigEndian value + byte.toNat) / 256 = ofBigEndian value := by omega
    have hlast : UInt8.ofNat (256 * ofBigEndian value + byte.toNat) = byte := by
      refine UInt8.toNat_inj.mp ?_
      rw [UInt8.toNat_ofNat']
      omega
    rw [List.length_append, List.length_singleton, bigEndian, ofBigEndian_concat, hdiv, ih, hlast]

theorem ofBigEndian_lt (value : Bytes) : ofBigEndian value < 256 ^ value.length := by
  induction value using List.reverseRecOn with
  | nil => exact Nat.one_pos
  | append_singleton value byte ih =>
    have hbyte := byte.toNat_lt
    rw [ofBigEndian_concat, List.length_append, List.length_singleton, Nat.pow_succ]
    omega

/-! ## Heads -/

/-- The initial byte of an item. -/
def initial (major additional : ℕ) : UInt8 := UInt8.ofNat (32 * major + additional)

/-- The major type and the length of an item, in the fewest bytes. -/
def head (major n : ℕ) : Bytes :=
  if n < 24 then [initial major n]
  else if n < 2 ^ 8 then initial major 24 :: bigEndian 1 n
  else if n < 2 ^ 16 then initial major 25 :: bigEndian 2 n
  else if n < 2 ^ 32 then initial major 26 :: bigEndian 4 n
  else initial major 27 :: bigEndian 8 n

/-- A byte string (major type 2) or a text (major type 3). -/
def blob (major : ℕ) (content : Bytes) : Bytes := head major content.length ++ content

/-- The fields of an initial byte. -/
theorem eq_initial_iff {byte : UInt8} {major additional : ℕ} (hmajor : major < 8) (hadditional : additional < 32) :
    byte = initial major additional ↔ byte.toNat >>> 5 = major ∧ byte.toNat &&& 0x1F = additional := by
  have hbyte := byte.toNat_lt
  have hmask : byte.toNat &&& 0x1F = byte.toNat % 32 := Nat.and_two_pow_sub_one_eq_mod byte.toNat 5
  rw [hmask, Nat.shiftRight_eq_div_pow, ← UInt8.toNat_inj, initial, UInt8.toNat_ofNat']
  omega

theorem head_eq_cons (major n : ℕ) :
    ∃ additional rest, additional < 32 ∧ head major n = initial major additional :: rest := by
  unfold head
  split_ifs
  · exact ⟨n, [], by omega, rfl⟩
  · exact ⟨24, _, by omega, rfl⟩
  · exact ⟨25, _, by omega, rfl⟩
  · exact ⟨26, _, by omega, rfl⟩
  · exact ⟨27, _, by omega, rfl⟩

theorem length_head_le (major n : ℕ) : (head major n).length ≤ 9 := by
  unfold head
  split_ifs <;> simp

/-- Items of two major types do not start alike. -/
theorem head_append_ne {major major' n n' : ℕ} (hmajor : major < 8) (hmajor' : major' < 8) (hne : major ≠ major')
    (rest rest' : Bytes) : head major n ++ rest ≠ head major' n' ++ rest' := by
  intro h
  obtain ⟨a, r, ha, hhead⟩ := head_eq_cons major n
  obtain ⟨a', r', ha', hhead'⟩ := head_eq_cons major' n'
  rw [hhead, hhead', List.cons_append, List.cons_append] at h
  have hinitial := (List.cons.inj h).1
  have hfields := (eq_initial_iff hmajor ha).mp rfl
  rw [hinitial] at hfields
  exact hne (hfields.1.symm.trans ((eq_initial_iff hmajor' ha').mp rfl).1)

end Lucent.Lib.Cbor
