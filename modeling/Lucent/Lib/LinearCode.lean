import Mathlib.Data.List.Basic

/-!
# Lucent.Lib.LinearCode — linear code with immediates, and what of it can execute

Code is a list of cells.  An `Isa` says how many immediate cells follow an opcode, which opcodes stop the
fall-through, which ones jump, and which ones may be jumped to.

* `Start code p`: `p` is an instruction start of the linear decoding from offset 0.
* `instructions code`: the decoding as a list, in one structural pass (`mem_instructions_iff`).
* `Executable code p`: `p` can be reached, by falling through and by jumping to any target.
* `executable_iff`: what can be reached lies on the block entered at 0 or, if that block jumps, on a block entered
  at a target.  So reachability is decided by walks that never branch (`blockAny`).
-/

namespace Lucent.Lib

/-- The shape of an instruction set. -/
structure Isa (α : Type) where
  /-- Number of immediate cells. -/
  width : α → ℕ
  /-- Control does not fall through. -/
  halts : α → Bool
  jumps : α → Bool
  target : α → Bool

namespace Isa

variable {α : Type} (M : Isa α)

/-- An instruction start of the linear decoding from offset 0. -/
inductive Start (code : List α) : ℕ → Prop
  | entry (h : code ≠ []) : Start code 0
  | next {p : ℕ} {a : α} : Start code p → code[p]? = some a → p + 1 + M.width a < code.length →
      Start code (p + 1 + M.width a)

/-- The offsets control can reach: by falling through, and from any jump to any target. -/
inductive Executable (code : List α) : ℕ → Prop
  | entry (h : code ≠ []) : Executable code 0
  | fall {p : ℕ} {a : α} : Executable code p → code[p]? = some a → M.halts a = false →
      p + 1 + M.width a < code.length → Executable code (p + 1 + M.width a)
  | jump {p q : ℕ} {a b : α} : Executable code p → code[p]? = some a → M.jumps a = true →
      M.Start code q → code[q]? = some b → M.target b = true → Executable code q

/-- The instructions of a cell list: `skip` cells are immediates, the next cell has offset `offset`. -/
def decode : ℕ → ℕ → List α → List (ℕ × α)
  | _, _, [] => []
  | skip + 1, offset, _ :: rest => decode skip (offset + 1) rest
  | 0, offset, a :: rest => (offset, a) :: decode (M.width a) (offset + 1) rest

/-- The instructions from the start `p` on. -/
def instructionsFrom (code : List α) (p : ℕ) : List (ℕ × α) := M.decode 0 p (code.drop p)

/-- The instructions of the linear decoding from offset 0. -/
def instructions (code : List α) : List (ℕ × α) := M.decode 0 0 code

/-- Some instruction before control stops falling through satisfies `f`. -/
def blockAny (f : ℕ × α → Bool) : List (ℕ × α) → Bool
  | [] => false
  | i :: rest => f i || (!M.halts i.2 && blockAny f rest)

/-- The instruction `i` lies on the block that `L` starts with. -/
def OnBlock (L : List (ℕ × α)) (i : ℕ × α) : Prop :=
  ∃ pre post, L = pre ++ i :: post ∧ ∀ j ∈ pre, M.halts j.2 = false

variable {M}

/-! ## Decoding -/

theorem decode_skip (skip offset : ℕ) (code : List α) :
    M.decode skip offset code = M.decode 0 (offset + skip) (code.drop skip) := by
  induction code generalizing skip offset with
  | nil => simp [decode]
  | cons a code ih =>
    rcases skip with _ | skip
    · rfl
    · rw [decode, ih, List.drop_succ_cons, show offset + 1 + skip = offset + (skip + 1) by omega]

theorem instructions_eq (code : List α) : M.instructions code = M.instructionsFrom code 0 := rfl

theorem instructionsFrom_of_none {code : List α} {p : ℕ} (h : code[p]? = none) : M.instructionsFrom code p = [] := by
  have hp : code.length ≤ p := List.getElem?_eq_none_iff.mp h
  rw [instructionsFrom, List.drop_eq_nil_of_le hp]
  rfl

/-- The instruction at a start, then those from the next start on. -/
theorem instructionsFrom_of_some {code : List α} {p : ℕ} {a : α} (h : code[p]? = some a) :
    M.instructionsFrom code p = (p, a) :: M.instructionsFrom code (p + 1 + M.width a) := by
  obtain ⟨hp, rfl⟩ := List.getElem?_eq_some_iff.mp h
  rw [instructionsFrom, List.drop_eq_getElem_cons hp, decode, decode_skip, List.drop_drop]
  rfl

/-- What follows an instruction is decoded from where it ends. -/
theorem instructionsFrom_suffix {code : List α} {q : ℕ} {pre post : List (ℕ × α)} {p : ℕ} {a : α}
    (h : M.instructionsFrom code q = pre ++ (p, a) :: post) :
    code[p]? = some a ∧ post = M.instructionsFrom code (p + 1 + M.width a) := by
  induction pre generalizing q with
  | nil =>
    rcases hq : code[q]? with _ | b
    · rw [instructionsFrom_of_none hq] at h
      exact nomatch h
    · rw [instructionsFrom_of_some hq] at h
      cases h
      exact ⟨hq, rfl⟩
  | cons i pre ih =>
    rcases hq : code[q]? with _ | b
    · rw [instructionsFrom_of_none hq] at h
      exact nomatch h
    · rw [instructionsFrom_of_some hq, List.cons_append] at h
      exact ih (List.cons.inj h).2

theorem start_of_mem {code : List α} {q : ℕ} (hq : q < code.length → M.Start code q) {i : ℕ × α}
    (hi : i ∈ M.instructionsFrom code q) : M.Start code i.1 := by
  obtain ⟨pre, post, h⟩ := List.append_of_mem hi
  induction pre generalizing q with
  | nil =>
    rcases hc : code[q]? with _ | b
    · rw [instructionsFrom_of_none hc] at h
      exact nomatch h
    · rw [instructionsFrom_of_some hc] at h
      cases h
      exact hq (List.getElem?_eq_some_iff.mp hc).1
  | cons j pre ih =>
    rcases hc : code[q]? with _ | b
    · rw [instructionsFrom_of_none hc] at h
      exact nomatch h
    · have hs := hq (List.getElem?_eq_some_iff.mp hc).1
      rw [instructionsFrom_of_some hc, List.cons_append] at h
      have htail := (List.cons.inj h).2
      exact ih (fun hlt => .next hs hc hlt) (htail ▸ by simp) htail

/-- **Decoding**: the list holds the instruction starts with their opcodes. -/
theorem mem_instructions_iff {code : List α} {p : ℕ} {a : α} :
    (p, a) ∈ M.instructions code ↔ M.Start code p ∧ code[p]? = some a := by
  refine ⟨fun h => ⟨?_, ?_⟩, ?_⟩
  · exact start_of_mem (q := 0) (fun hlt => .entry (List.ne_nil_of_length_pos hlt)) h
  · obtain ⟨pre, post, heq⟩ := List.append_of_mem h
    exact (instructionsFrom_suffix heq).1
  · rintro ⟨hs, ha⟩
    induction hs generalizing a with
    | entry h =>
      rw [instructions_eq, instructionsFrom_of_some ha]
      exact List.mem_cons_self
    | @next p b _ hb _ ih =>
      obtain ⟨pre, post, heq⟩ := List.append_of_mem (ih hb)
      obtain ⟨-, rfl⟩ := instructionsFrom_suffix heq
      rw [heq, instructionsFrom_of_some ha]
      simp

/-- The instructions of a prefix are the first instructions of the whole. -/
theorem decode_append (skip offset : ℕ) (code rest : List α) : ∃ skip', M.decode skip offset (code ++ rest) =
    M.decode skip offset code ++ M.decode skip' (offset + code.length) rest := by
  induction code generalizing skip offset with
  | nil => exact ⟨skip, rfl⟩
  | cons a code ih =>
    rcases skip with _ | skip
    · obtain ⟨skip', h⟩ := ih (M.width a) (offset + 1)
      refine ⟨skip', ?_⟩
      rw [List.cons_append, decode, decode, h, List.cons_append, List.length_cons,
        show offset + (code.length + 1) = offset + 1 + code.length by omega]
    · obtain ⟨skip', h⟩ := ih skip (offset + 1)
      refine ⟨skip', ?_⟩
      rw [List.cons_append, decode, decode, h, List.length_cons,
        show offset + (code.length + 1) = offset + 1 + code.length by omega]

theorem decode_bounds {skip offset : ℕ} {code : List α} {i : ℕ × α} (h : i ∈ M.decode skip offset code) :
    offset ≤ i.1 ∧ i.1 < offset + code.length := by
  induction code generalizing skip offset with
  | nil => exact absurd h (List.not_mem_nil)
  | cons a code ih =>
    rw [List.length_cons]
    rcases skip with _ | skip
    · rcases List.mem_cons.mp h with rfl | h
      · exact ⟨Nat.le_refl _, by omega⟩
      · have hb := ih h
        omega
    · have htail : i ∈ M.decode skip (offset + 1) code := h
      have hb := ih htail
      omega

theorem decode_pairwise (skip offset : ℕ) (code : List α) :
    (M.decode skip offset code).Pairwise fun i j => i.1 < j.1 := by
  induction code generalizing skip offset with
  | nil => exact .nil
  | cons a code ih =>
    rcases skip with _ | skip
    · refine List.pairwise_cons.mpr ⟨fun i hi => ?_, ih _ _⟩
      exact (decode_bounds hi).1
    · exact ih skip (offset + 1)

/-- No instruction starts inside of the immediates of another one. -/
theorem Start.not_immediate {code : List α} {p q : ℕ} {a : α} (hp : M.Start code p) (ha : code[p]? = some a)
    (hlo : p < q) (hhi : q ≤ p + M.width a) : ¬ M.Start code q := by
  intro hq
  have hlt : q < code.length := by
    cases hq with
    | entry h => exact List.length_pos_of_ne_nil h
    | next _ _ h => exact h
  obtain ⟨pre, post, heq⟩ := List.append_of_mem (mem_instructions_iff.mpr ⟨hp, ha⟩)
  obtain ⟨-, rfl⟩ := instructionsFrom_suffix (q := 0) heq
  have hmem := mem_instructions_iff.mpr ⟨hq, List.getElem?_eq_getElem hlt⟩
  have hsorted := decode_pairwise (M := M) 0 0 code
  rw [show M.decode 0 0 code = _ from heq, List.pairwise_append] at hsorted
  rw [heq] at hmem
  rcases List.mem_append.mp hmem with hpre | hpost
  · have := hsorted.2.2 _ hpre _ List.mem_cons_self
    omega
  rcases List.mem_cons.mp hpost with heq | hpost
  · cases heq
    omega
  · have := (decode_bounds hpost).1
    omega

/-- An instruction of the prefix is an instruction of the whole below the cut, and conversely. -/
theorem mem_instructions_append (code rest : List α) (i : ℕ × α) :
    i ∈ M.instructions code ↔ i ∈ M.instructions (code ++ rest) ∧ i.1 < code.length := by
  obtain ⟨skip, h⟩ := M.decode_append 0 0 code rest
  rw [instructions, instructions, h, List.mem_append]
  refine ⟨fun hi => ⟨.inl hi, ?_⟩, ?_⟩
  · have hb := decode_bounds hi
    omega
  · rintro ⟨hi | hi, hlt⟩
    · exact hi
    · have hb := decode_bounds hi
      omega

/-! ## Blocks -/

/-- Control never enters an immediate. -/
theorem Executable.start {code : List α} {p : ℕ} (h : M.Executable code p) : M.Start code p := by
  induction h with
  | entry h => exact .entry h
  | fall _ hc _ hlt ih => exact .next ih hc hlt
  | jump _ _ _ hs _ _ _ => exact hs

theorem blockAny_iff {f : ℕ × α → Bool} {L : List (ℕ × α)} :
    M.blockAny f L = true ↔ ∃ i, M.OnBlock L i ∧ f i = true := by
  induction L with
  | nil =>
    refine ⟨nofun, ?_⟩
    rintro ⟨i, ⟨pre, post, h, -⟩, -⟩
    exact absurd h (by simp)
  | cons j L ih =>
    rw [blockAny, Bool.or_eq_true, Bool.and_eq_true, Bool.not_eq_true', ih]
    refine ⟨?_, ?_⟩
    · rintro (hf | ⟨hh, i, ⟨pre, post, rfl, hpre⟩, hf⟩)
      · exact ⟨j, ⟨[], L, rfl, nofun⟩, hf⟩
      · refine ⟨i, ⟨j :: pre, post, rfl, ?_⟩, hf⟩
        intro k hk
        rcases List.mem_cons.mp hk with rfl | hk
        · exact hh
        · exact hpre k hk
    · rintro ⟨i, ⟨pre, post, h, hpre⟩, hf⟩
      rcases pre with _ | ⟨k, pre⟩
      · cases h
        exact .inl hf
      · cases h
        exact .inr ⟨hpre _ List.mem_cons_self, i,
          ⟨pre, post, rfl, fun k hk => hpre k (List.mem_cons_of_mem _ hk)⟩, hf⟩

theorem OnBlock.extend {code : List α} {q p : ℕ} {a b : α} (h : M.OnBlock (M.instructionsFrom code q) (p, a))
    (hh : M.halts a = false) (hb : code[p + 1 + M.width a]? = some b) :
    M.OnBlock (M.instructionsFrom code q) (p + 1 + M.width a, b) := by
  obtain ⟨pre, post, heq, hpre⟩ := h
  obtain ⟨-, rfl⟩ := instructionsFrom_suffix heq
  refine ⟨pre ++ [(p, a)], M.instructionsFrom code (p + 1 + M.width a + 1 + M.width b), ?_, ?_⟩
  · rw [heq, instructionsFrom_of_some hb, List.append_assoc, List.singleton_append]
  · intro j hj
    rcases List.mem_append.mp hj with hj | hj
    · exact hpre j hj
    · rw [List.mem_singleton.mp hj]
      exact hh

theorem OnBlock.start {code : List α} {q : ℕ} {a : α} (h : code[q]? = some a) :
    M.OnBlock (M.instructionsFrom code q) (q, a) :=
  ⟨[], M.instructionsFrom code (q + 1 + M.width a), by rw [instructionsFrom_of_some h]; rfl, nofun⟩

theorem OnBlock.getElem? {code : List α} {q p : ℕ} {a : α} (h : M.OnBlock (M.instructionsFrom code q) (p, a)) :
    code[p]? = some a := by
  obtain ⟨pre, post, heq, -⟩ := h
  exact (instructionsFrom_suffix heq).1

theorem OnBlock.executable {code : List α} {q : ℕ} {i : ℕ × α} (hq : q < code.length → M.Executable code q)
    (h : M.OnBlock (M.instructionsFrom code q) i) : M.Executable code i.1 := by
  obtain ⟨pre, post, heq, hpre⟩ := h
  induction pre generalizing q with
  | nil =>
    rcases hc : code[q]? with _ | b
    · rw [instructionsFrom_of_none hc] at heq
      exact nomatch heq
    · rw [instructionsFrom_of_some hc] at heq
      cases heq
      exact hq (List.getElem?_eq_some_iff.mp hc).1
  | cons j pre ih =>
    rcases hc : code[q]? with _ | b
    · rw [instructionsFrom_of_none hc] at heq
      exact nomatch heq
    · have he := hq (List.getElem?_eq_some_iff.mp hc).1
      rw [instructionsFrom_of_some hc, List.cons_append] at heq
      obtain ⟨rfl, htail⟩ := List.cons.inj heq
      exact ih (fun hlt => .fall he hc (hpre _ List.mem_cons_self) hlt) htail
        fun k hk => hpre k (List.mem_cons_of_mem _ hk)

/-- **Reachability**: control stays on the block entered at 0 unless that block jumps, and then it stays on the
blocks entered at targets. -/
theorem executable_iff {code : List α} {p : ℕ} {a : α} (ha : code[p]? = some a) :
    M.Executable code p ↔ M.OnBlock (M.instructions code) (p, a) ∨
      M.blockAny (fun i => M.jumps i.2) (M.instructions code) = true ∧
        ∃ q b, (q, b) ∈ M.instructions code ∧ M.target b = true ∧ M.OnBlock (M.instructionsFrom code q) (p, a) := by
  refine ⟨fun h => ?_, ?_⟩
  · induction h generalizing a with
    | entry h => exact .inl (OnBlock.start ha)
    | fall _ hc hh _ ih =>
      rcases ih hc with hb | ⟨hj, q, b, hq, ht, hb⟩
      · exact .inl (hb.extend hh ha)
      · exact .inr ⟨hj, q, b, hq, ht, hb.extend hh ha⟩
    | jump _ hc hj hs hb ht ih =>
      have htarget := OnBlock.start (M := M) ha
      rw [ha] at hb
      cases hb
      refine .inr ⟨?_, _, _, mem_instructions_iff.mpr ⟨hs, ha⟩, ht, htarget⟩
      rcases ih hc with hon | ⟨hany, -⟩
      · exact blockAny_iff.mpr ⟨_, hon, hj⟩
      · exact hany
  · have hentry : 0 < code.length → M.Executable code 0 := fun h => .entry (List.ne_nil_of_length_pos h)
    rintro (hb | ⟨hany, q, b, hq, ht, hb⟩)
    · exact hb.executable hentry
    · obtain ⟨⟨r, c⟩, hon, hj⟩ := blockAny_iff.mp hany
      obtain ⟨hs, hqb⟩ := mem_instructions_iff.mp hq
      exact hb.executable fun _ => .jump (hon.executable hentry) (OnBlock.getElem? hon) hj hs hqb ht

end Isa

end Lucent.Lib
