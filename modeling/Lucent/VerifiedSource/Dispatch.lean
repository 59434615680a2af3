import Lucent.Lib.LinearCode
import Lucent.VerifiedSource.Metadata

/-!
# Lucent.VerifiedSource.Dispatch — the opcode scan of `lucent/verified_source.py`

`_has_unsupported_dispatch` scans the code without its metadata trailer; the EVM executes the code with it.

* `hasUnsupportedDispatch_linear`: the scan is the linear decoding of the code before the cut.
* `hasUnsupportedDispatch_iff`: the scan finds exactly the dispatch opcodes of the linear decoding before the cut.
* `dispatchScan_sound_iff`: the scan is sound on exactly the code whose trailer control cannot use to dispatch.
-/

namespace Lucent.VerifiedSource

open Lucent.Lib

/-- `UNSUPPORTED_DISPATCH_OPCODES`: CALLCODE, DELEGATECALL. -/
def unsupportedDispatchOpcodes : List UInt8 := [0xF2, 0xF4]

/-- The loop of `_has_unsupported_dispatch`; `skip` bytes of PUSH data come before the next opcode. -/
def dispatchScan : ℕ → Bytes → Bool
  | _, [] => false
  | skip + 1, _ :: rest => dispatchScan skip rest
  | 0, opcode :: rest =>
    if opcode ∈ unsupportedDispatchOpcodes then true
    else if 0x60 ≤ opcode ∧ opcode ≤ 0x7F then dispatchScan (opcode.toNat - 0x5F) rest
    else dispatchScan 0 rest

/-- `_has_unsupported_dispatch`. -/
def hasUnsupportedDispatch (bytecode : Bytes) : Bool := dispatchScan 0 (withoutSolidityMetadata bytecode)

/-! ## The EVM -/

/-- PUSH1 to PUSH32 carry immediates; STOP, JUMP, RETURN, REVERT, INVALID and SELFDESTRUCT do not fall through;
JUMP and JUMPI jump, to a JUMPDEST. -/
def evm : Isa UInt8 where
  width opcode := if 0x60 ≤ opcode ∧ opcode ≤ 0x7F then opcode.toNat - 0x5F else 0
  halts opcode := [0x00, 0x56, 0xF3, 0xFD, 0xFE, 0xFF].contains opcode
  jumps opcode := [0x56, 0x57].contains opcode
  target opcode := opcode == 0x5B

/-- An instruction that is a CALLCODE or a DELEGATECALL. -/
def dispatches (i : ℕ × UInt8) : Bool := decide (i.2 ∈ unsupportedDispatchOpcodes)

/-- The scan is a search in the linear decoding. -/
theorem dispatchScan_eq (skip offset : ℕ) (code : Bytes) :
    dispatchScan skip code = (evm.decode skip offset code).any dispatches := by
  induction code generalizing skip offset with
  | nil => rfl
  | cons opcode code ih =>
    rcases skip with _ | skip
    · rw [dispatchScan, Isa.decode, List.any_cons, ← ih]
      by_cases hop : opcode ∈ unsupportedDispatchOpcodes
      · simp [hop, dispatches]
      · by_cases hpush : 0x60 ≤ opcode ∧ opcode ≤ 0x7F
        · simp [hop, hpush, dispatches, evm]
        · simp [hop, hpush, dispatches, evm]
    · exact ih skip (offset + 1)

/-- **The scan**: it finds the dispatch opcodes at the instruction starts before the cut. -/
theorem hasUnsupportedDispatch_iff (bytecode : Bytes) : hasUnsupportedDispatch bytecode = true ↔
    ∃ i ∈ evm.instructions bytecode, i.1 < (withoutSolidityMetadata bytecode).length ∧ dispatches i = true := by
  obtain ⟨trailer, htrailer⟩ := withoutSolidityMetadata_prefix bytecode
  rw [hasUnsupportedDispatch, dispatchScan_eq 0 0, List.any_eq_true]
  have hmem : ∀ i, i ∈ evm.decode 0 0 (withoutSolidityMetadata bytecode) ↔
      i ∈ evm.instructions bytecode ∧ i.1 < (withoutSolidityMetadata bytecode).length := by
    intro i
    have h := Isa.mem_instructions_append (M := evm) (withoutSolidityMetadata bytecode) trailer i
    rwa [← htrailer] at h
  simp only [hmem, and_assoc]

/-- The loop as the source has it, with its offset. -/
def dispatchLoop (bytecode : Bytes) (offset : ℕ) : Bool :=
  if h : offset < bytecode.length then
    let opcode := bytecode[offset]
    if opcode ∈ unsupportedDispatchOpcodes then true
    else if 0x60 ≤ opcode ∧ opcode ≤ 0x7F then dispatchLoop bytecode (offset + 1 + (opcode.toNat - 0x5F))
    else dispatchLoop bytecode (offset + 1)
  else false
termination_by bytecode.length - offset

theorem dispatchScan_skip (skip : ℕ) (code : Bytes) : dispatchScan skip code = dispatchScan 0 (code.drop skip) := by
  induction code generalizing skip with
  | nil => rw [List.drop_nil, dispatchScan, dispatchScan]
  | cons opcode code ih =>
    rcases skip with _ | skip
    · rfl
    · exact ih skip

theorem dispatchLoop_eq (bytecode : Bytes) (offset : ℕ) :
    dispatchLoop bytecode offset = dispatchScan 0 (bytecode.drop offset) := by
  fun_induction dispatchLoop bytecode offset with
  | case1 offset h opcode hop =>
    rw [List.drop_eq_getElem_cons h, dispatchScan, if_pos hop]
  | case2 offset h opcode hop hpush ih =>
    rw [ih, ← List.drop_drop, ← dispatchScan_skip, List.drop_eq_getElem_cons h, dispatchScan, if_neg hop, if_pos hpush]
  | case3 offset h opcode hop hpush ih =>
    rw [ih, List.drop_eq_getElem_cons h, dispatchScan, if_neg hop, if_neg hpush]
  | case4 offset h =>
    rw [List.drop_eq_nil_of_le (not_lt.mp h), dispatchScan]

/-- **The scan is the linear disassembly** of the code before the cut: the loop ends, it finds a dispatch opcode if and
only if one stands at an instruction start, and no start lies in the data of a PUSH. -/
theorem hasUnsupportedDispatch_linear (bytecode : Bytes) :
    hasUnsupportedDispatch bytecode = dispatchLoop (withoutSolidityMetadata bytecode) 0 ∧
    (hasUnsupportedDispatch bytecode = true ↔ ∃ i, evm.Start (withoutSolidityMetadata bytecode) i ∧
      ((withoutSolidityMetadata bytecode)[i]? = some 0xF2 ∨ (withoutSolidityMetadata bytecode)[i]? = some 0xF4)) ∧
    ∀ i opcode, evm.Start (withoutSolidityMetadata bytecode) i → (withoutSolidityMetadata bytecode)[i]? = some opcode →
      0x60 ≤ opcode → opcode ≤ 0x7F → ∀ j, i < j → j ≤ i + (opcode.toNat - 0x5F) →
        ¬ evm.Start (withoutSolidityMetadata bytecode) j := by
  generalize hcode : withoutSolidityMetadata bytecode = code
  have hscan : hasUnsupportedDispatch bytecode = dispatchScan 0 code := by rw [hasUnsupportedDispatch, hcode]
  refine ⟨?_, ?_, ?_⟩
  · rw [hscan, dispatchLoop_eq, List.drop_zero]
  · rw [hscan, dispatchScan_eq 0 0, List.any_eq_true]
    constructor
    · rintro ⟨⟨i, opcode⟩, hmem, hd⟩
      obtain ⟨hstart, hread⟩ := Isa.mem_instructions_iff.mp hmem
      have hop : opcode = 0xF2 ∨ opcode = 0xF4 := by simpa [dispatches, unsupportedDispatchOpcodes] using hd
      rcases hop with rfl | rfl
      · exact ⟨i, hstart, .inl hread⟩
      · exact ⟨i, hstart, .inr hread⟩
    · rintro ⟨i, hstart, hread | hread⟩
      · exact ⟨(i, 0xF2), Isa.mem_instructions_iff.mpr ⟨hstart, hread⟩, rfl⟩
      · exact ⟨(i, 0xF4), Isa.mem_instructions_iff.mpr ⟨hstart, hread⟩, rfl⟩
  · intro i opcode hstart hread hlo hhi j hij hj
    have hwidth : evm.width opcode = opcode.toNat - 0x5F := if_pos ⟨hlo, hhi⟩
    exact hstart.not_immediate hread hij (hwidth ▸ hj)

/-! ## Soundness of the scan -/

/-- Control can run into a dispatch opcode at or after the cut: on the block entered at 0 or, if that block jumps,
on a block entered at a JUMPDEST. -/
def trailerDispatches (bytecode : Bytes) : Bool :=
  let cut := (withoutSolidityMetadata bytecode).length
  let runsInto := evm.blockAny (fun i => decide (cut ≤ i.1) && dispatches i)
  runsInto (evm.instructions bytecode) ||
    (evm.blockAny (fun i => evm.jumps i.2) (evm.instructions bytecode) &&
      (evm.instructions bytecode).any (fun i => evm.target i.2 && runsInto (evm.instructionsFrom bytecode i.1)))

theorem trailerDispatches_iff (bytecode : Bytes) : trailerDispatches bytecode = true ↔
    ∃ p opcode, evm.Executable bytecode p ∧ bytecode[p]? = some opcode ∧ dispatches (p, opcode) = true ∧
      (withoutSolidityMetadata bytecode).length ≤ p := by
  unfold trailerDispatches
  simp only [Bool.or_eq_true, Bool.and_eq_true, List.any_eq_true, Isa.blockAny_iff, decide_eq_true_eq]
  refine ⟨?_, ?_⟩
  · rintro (⟨⟨p, opcode⟩, hon, hcut, hd⟩ | ⟨hj, ⟨q, target⟩, hq, ht, ⟨p, opcode⟩, hon, hcut, hd⟩)
    · have hp := Isa.OnBlock.getElem? hon
      exact ⟨p, opcode, (Isa.executable_iff hp).mpr (.inl hon), hp, hd, hcut⟩
    · have hp := Isa.OnBlock.getElem? hon
      exact ⟨p, opcode, (Isa.executable_iff hp).mpr (.inr ⟨Isa.blockAny_iff.mpr hj, q, target, hq, ht, hon⟩), hp, hd,
        hcut⟩
  · rintro ⟨p, opcode, hex, hp, hd, hcut⟩
    rcases (Isa.executable_iff hp).mp hex with hon | ⟨hj, q, target, hq, ht, hon⟩
    · exact .inl ⟨(p, opcode), hon, hcut, hd⟩
    · exact .inr ⟨Isa.blockAny_iff.mp hj, (q, target), hq, ht, (p, opcode), hon, hcut, hd⟩

/-- **When the scan is sound.**  A scan that finds nothing leaves no executable CALLCODE or DELEGATECALL, if and only
if an instruction before the cut is one, or control cannot run into one after the cut. -/
theorem dispatchScan_sound_iff (bytecode : Bytes) :
    (hasUnsupportedDispatch bytecode = false → ∀ p, evm.Executable bytecode p →
      bytecode[p]? ≠ some 0xF2 ∧ bytecode[p]? ≠ some 0xF4) ↔
    (∃ i ∈ evm.instructions bytecode, i.1 < (withoutSolidityMetadata bytecode).length ∧ dispatches i = true) ∨
      trailerDispatches bytecode = false := by
  have hop : ∀ p opcode, dispatches (p, opcode) = true ↔ opcode = 0xF2 ∨ opcode = 0xF4 := by
    intro p opcode
    simp [dispatches, unsupportedDispatchOpcodes]
  refine ⟨fun h => ?_, ?_⟩
  · by_cases hscan : hasUnsupportedDispatch bytecode = true
    · exact .inl ((hasUnsupportedDispatch_iff bytecode).mp hscan)
    · refine .inr (Bool.eq_false_iff.mpr fun htrailer => ?_)
      obtain ⟨p, opcode, hex, hp, hd, -⟩ := (trailerDispatches_iff bytecode).mp htrailer
      obtain ⟨h2, h4⟩ := h (Bool.eq_false_iff.mpr hscan) p hex
      rcases (hop p opcode).mp hd with rfl | rfl
      · exact h2 hp
      · exact h4 hp
  · rintro hcond hscan p hex
    have hfree : ∀ opcode, dispatches (p, opcode) = true → bytecode[p]? ≠ some opcode := by
      intro opcode hd hp
      have hmem : (p, opcode) ∈ evm.instructions bytecode := Isa.mem_instructions_iff.mpr ⟨hex.start, hp⟩
      have hnot := Bool.eq_false_iff.mp hscan
      rcases hcond with hfound | htrailer
      · exact hnot ((hasUnsupportedDispatch_iff bytecode).mpr hfound)
      · by_cases hcut : p < (withoutSolidityMetadata bytecode).length
        · exact hnot ((hasUnsupportedDispatch_iff bytecode).mpr ⟨_, hmem, hcut, hd⟩)
        · exact Bool.eq_false_iff.mp htrailer
            ((trailerDispatches_iff bytecode).mpr ⟨p, opcode, hex, hp, hd, Nat.le_of_not_lt hcut⟩)
    exact ⟨hfree 0xF2 ((hop p _).mpr (.inl rfl)), hfree 0xF4 ((hop p _).mpr (.inr rfl))⟩

/-- Six PUSH1 arguments, a jump to 26, INVALID, and the metadata of a contract whose IPFS digest starts with
JUMPDEST DELEGATECALL. -/
def hiddenDispatch : Bytes :=
  [0x60, 0, 0x60, 0, 0x60, 0, 0x60, 0, 0x60, 0, 0x60, 0, 0x60, 26, 0x56, 0xFE,
    0xA2, 0x64, 0x69, 0x70, 0x66, 0x73, 0x58, 0x22, 0x12, 0x20, 0x5B, 0xF4,
    0, 0, 0, 0, 0, 0, 0, 0, 0, 0, 0, 0, 0, 0, 0, 0, 0, 0, 0, 0, 0, 0, 0, 0, 0, 0, 0, 0, 0, 0,
    0x64, 0x73, 0x6F, 0x6C, 0x63, 0x43, 0x00, 0x08, 0x1A, 0x00, 0x33]

/-- The scan clears it, and the EVM jumps into the digest and reaches the DELEGATECALL. -/
theorem hiddenDispatch_cleared : hasUnsupportedDispatch hiddenDispatch = false ∧
    evm.Executable hiddenDispatch 27 ∧ hiddenDispatch[27]? = some 0xF4 := by
  refine ⟨by decide +kernel, ?_, rfl⟩
  have hjumps : evm.blockAny (fun i => evm.jumps i.2) (evm.instructions hiddenDispatch) = true := by decide +kernel
  have htarget : (26, 0x5B) ∈ evm.instructions hiddenDispatch := by decide +kernel
  have hdest : evm.OnBlock (evm.instructionsFrom hiddenDispatch 26) (26, 0x5B) := Isa.OnBlock.start rfl
  have hblock : evm.OnBlock (evm.instructionsFrom hiddenDispatch 26) (27, 0xF4) := hdest.extend rfl rfl
  exact (Isa.executable_iff rfl).mpr (.inr ⟨hjumps, 26, 0x5B, htarget, rfl, hblock⟩)

end Lucent.VerifiedSource
