import RipSim.Library.RV32IM

/-!
# Runs of an RV32IM machine

A machine fetches the word at its program counter and executes it, for as long as the word is
legal.  `State.after k` is the state after `k` instructions; a run that has ended stays where
it is.

The registers that an instruction reads and writes, and the value it writes, are also said by
themselves (`exec_x`).
-/

namespace RV32IM

/-! ## Runs -/

namespace State

variable (s : State)

/-- The word at an address, low bytes first. -/
def word (a : BitVec 32) : BitVec 32 := s.mem (a + 3) ++ s.mem (a + 2) ++ s.mem (a + 1) ++ s.mem a

/-- The instruction at the program counter, if there is one. -/
def fetch : Option Instr := decode (s.word s.pc)

/-- One instruction. -/
def next : State := (s.fetch.map (·.exec s)).getD s

/-- `k` instructions. -/
def after : ℕ → State
  | 0 => s
  | k + 1 => (after k).next

variable {s}

@[simp] theorem after_zero : s.after 0 = s := rfl

theorem after_succ (k : ℕ) : s.after (k + 1) = (s.after k).next := rfl

theorem next_of_fetch {i : Instr} (h : s.fetch = some i) : s.next = i.exec s := by
  simp [next, h]

theorem next_of_end (h : s.fetch = none) : s.next = s := by
  simp [next, h]

/-- A run that has ended stays where it is. -/
theorem after_of_end {m k : ℕ} (h : (s.after m).fetch = none) (hk : m ≤ k) :
    s.after k = s.after m := by
  induction k, hk using Nat.le_induction with
  | base => rfl
  | succ k _ ih => rw [after_succ, ih, next_of_end h]

/-- What holds up to the end of a run holds for ever. -/
theorem forall_after {p : State → Prop} {m : ℕ} (h : (s.after m).fetch = none)
    (hp : ∀ k < m + 1, p (s.after k)) (k : ℕ) : p (s.after k) := by
  rcases Nat.lt_or_ge k (m + 1) with hk | hk
  · exact hp k hk
  · rw [after_of_end h (by omega)]
    exact hp m (Nat.lt_succ_self m)

end State

/-! ## The registers of an instruction -/

namespace Instr

/-- The register an instruction writes, if it writes one. -/
def dest : Instr → Option (BitVec 5)
  | lui rd _ | auipc rd _ | jal rd _ | jalr rd _ _ | load _ rd _ _ | opImm _ rd _ _
  | shift _ rd _ _ | reg _ rd _ _ => some rd
  | branch .. | store .. => none

/-- The registers an instruction reads. -/
def sources : Instr → List (BitVec 5)
  | jalr _ rs1 _ | load _ _ rs1 _ | opImm _ _ rs1 _ | shift _ _ rs1 _ => [rs1]
  | branch _ rs1 rs2 _ | store _ rs1 rs2 _ | reg _ _ rs1 rs2 => [rs1, rs2]
  | lui .. | auipc .. | jal .. => []

/-- A jump. -/
def links : Instr → Bool
  | jal .. | jalr .. => true
  | _ => false

/-- The value an instruction writes to its register. -/
def value (i : Instr) (s : State) : BitVec 32 :=
  match i with
  | lui _ imm => imm ++ 0#12
  | auipc _ imm => s.pc + (imm ++ 0#12)
  | jal .. | jalr .. => s.pc + 4
  | load op _ rs1 offset => s.loadValue op (s.get rs1 + offset.signExtend 32)
  | opImm op _ rs1 imm => op.eval (s.get rs1) (imm.signExtend 32)
  | shift op _ rs1 shamt => op.eval (s.get rs1) shamt
  | reg op _ rs1 rs2 => op.eval (s.get rs1) (s.get rs2)
  | branch .. | store .. => 0

variable {i : Instr} {s : State}

/-- The register and the value are those of `exec`. -/
theorem exec_x : (i.exec s).x = (i.dest.map fun rd => (s.set rd (i.value s)).x).getD s.x := by
  cases i with
  | branch =>
    unfold exec
    dsimp only
    split <;> rfl
  | _ => rfl

end Instr

/-! ## Branch offsets -/

/-- The lowest bit of an offset is not encoded. -/
theorem immB_even (w : BitVec 32) : immB w &&& ~~~1#13 = immB w := by
  apply BitVec.eq_of_getLsbD_eq
  intro i hi
  rw [BitVec.getLsbD_and]
  cases i with
  | zero =>
    have hlow : (immB w).getLsbD 0 = false := by
      rw [immB, BitVec.getLsbD_append]
      rfl
    rw [hlow, Bool.false_and]
  | succ i =>
    have hm : ∀ j < 13, j ≠ 0 → (~~~1#13).getLsbD j = true := by decide
    rw [hm _ hi (Nat.succ_ne_zero i), Bool.and_true]

theorem decode_branch {w : BitVec 32} {op : BranchOp} {r1 r2 : BitVec 5} {offset : BitVec 13}
    (h : decode w = some (.branch op r1 r2 offset)) : offset = immB w := by
  unfold decode at h
  split_ifs at h
  any_goals cases h
  any_goals simp only [Option.map_eq_some_iff] at h
  · obtain ⟨op', -, h⟩ := h
    cases h
    rfl
  · obtain ⟨op', -, h⟩ := h
    cases h
  · obtain ⟨op', -, h⟩ := h
    cases h
  · split at h
    · cases h
    · simp only [Option.map_eq_some_iff] at h
      obtain ⟨op', -, h⟩ := h
      cases h
  · obtain ⟨op', -, h⟩ := h
    cases h

end RV32IM
