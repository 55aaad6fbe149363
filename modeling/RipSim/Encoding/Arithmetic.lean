import RipSim.Encoding.Legal
import RipSim.Model.InstructionExec

/-!
# The arithmetic of the interpreter

The interpreter computes in words of 32 and 64 bits, the specification in integers.
Here the two agree on all operands: `eval_reg` for the operations on two values,
`cond_branch` for the comparisons of branches.
-/

namespace RipSim

/-! ## Shifts -/

theorem and_31_toNat (b : BitVec 32) : (b &&& 0b11111#32).toNat = b.toNat % 32 := by
  rw [BitVec.toNat_and]
  exact Nat.and_two_pow_sub_one_eq_mod b.toNat 5

theorem shiftLeft_eq_ofNat (a : BitVec 32) (n : ℕ) :
    a <<< n = BitVec.ofNat 32 (a.toNat * 2 ^ n) := by
  apply BitVec.eq_of_toNat_eq
  rw [BitVec.toNat_shiftLeft, BitVec.toNat_ofNat, Nat.shiftLeft_eq]

theorem ushiftRight_eq_ofNat (a : BitVec 32) (n : ℕ) :
    a >>> n = BitVec.ofNat 32 (a.toNat / 2 ^ n) := by
  apply BitVec.eq_of_toNat_eq
  rw [BitVec.toNat_ushiftRight, BitVec.toNat_ofNat, Nat.shiftRight_eq_div_pow,
    Nat.mod_eq_of_lt (Nat.lt_of_le_of_lt (Nat.div_le_self _ _) a.isLt)]

theorem sshiftRight_eq_ofInt (a : BitVec 32) (n : ℕ) :
    a.sshiftRight n = BitVec.ofInt 32 (a.toInt / 2 ^ n) := by
  rw [← BitVec.ofInt_toInt (x := a.sshiftRight n), BitVec.toInt_sshiftRight,
    Int.shiftRight_eq_div_pow]
  rfl

/-! ## Products -/

theorem signExtend_eq_ofInt (a : BitVec 32) : a.signExtend 64 = BitVec.ofInt 64 a.toInt := rfl

theorem setWidth_eq_ofInt (a : BitVec 32) : a.setWidth 64 = BitVec.ofInt 64 a.toNat := by
  apply BitVec.eq_of_toNat_eq
  rw [BitVec.toNat_setWidth, BitVec.toNat_ofInt]
  have := a.isLt
  omega

/-- The low word of a product, which the source masks before it is converted. -/
theorem low_ofInt (p : ℤ) :
    (BitVec.ofInt 64 p &&& 0xffffffff#64).setWidth 32 = BitVec.ofInt 32 p := by
  apply BitVec.eq_of_toNat_eq
  have hmask : (BitVec.ofInt 64 p).toNat &&& (0xffffffff#64).toNat
      = (BitVec.ofInt 64 p).toNat % 2 ^ 32 := Nat.and_two_pow_sub_one_eq_mod _ 32
  rw [BitVec.toNat_setWidth, BitVec.toNat_and, hmask, BitVec.toNat_ofInt, BitVec.toNat_ofInt]
  omega

/-- The high word of a product, by a shift that fills with zeros. -/
theorem high_ofInt (p : ℤ) :
    (BitVec.ofInt 64 p >>> 32).setWidth 32 = BitVec.ofInt 32 (p / 2 ^ 32) := by
  apply BitVec.eq_of_toNat_eq
  rw [BitVec.toNat_setWidth, BitVec.toNat_ushiftRight, Nat.shiftRight_eq_div_pow,
    BitVec.toNat_ofInt, BitVec.toNat_ofInt]
  omega

/-- The two shifts differ above the high word only. -/
theorem setWidth_sshiftRight (z : BitVec 64) :
    (z.sshiftRight 32).setWidth 32 = (z >>> 32).setWidth 32 := by
  apply BitVec.eq_of_getLsbD_eq
  intro i hi
  rw [BitVec.getLsbD_setWidth, BitVec.getLsbD_setWidth, BitVec.getLsbD_sshiftRight,
    BitVec.getLsbD_ushiftRight, decide_eq_false (show ¬64 ≤ i by omega),
    if_pos (show 32 + i < 64 by omega), Bool.not_false, Bool.true_and]

/-! ## Quotients -/

theorem sdiv_eq_ofInt (a b : BitVec 32) : a.sdiv b = BitVec.ofInt 32 (a.toInt.tdiv b.toInt) := by
  apply BitVec.eq_of_toInt_eq
  rw [BitVec.toInt_sdiv, BitVec.toInt_ofInt]

theorem srem_eq_ofInt (a b : BitVec 32) : a.srem b = BitVec.ofInt 32 (a.toInt.tmod b.toInt) := by
  rw [← BitVec.ofInt_toInt (x := a.srem b), BitVec.toInt_srem]

/-! ## Operations -/

theorem ofBool_decide (p : Prop) [Decidable p] : ofBool (decide p) = RV32IM.flag p := by
  unfold ofBool RV32IM.flag
  split <;> simp_all

/-- The interpreter computes what the specification prescribes, for all operands. -/
theorem eval_reg (op : RV32IM.RegOp) (a b : BitVec 32) : (regKind op).eval a b = op.eval a b := by
  cases op with
  | add =>
    apply BitVec.eq_of_toInt_eq
    exact (BitVec.toInt_add ..).trans (BitVec.toInt_ofInt ..).symm
  | sub =>
    apply BitVec.eq_of_toInt_eq
    exact (BitVec.toInt_sub ..).trans (BitVec.toInt_ofInt ..).symm
  | sll =>
    refine (shiftLeft_eq_ofNat a _).trans ?_
    rw [and_31_toNat]
    rfl
  | srl =>
    refine (ushiftRight_eq_ofNat a _).trans ?_
    rw [and_31_toNat]
    rfl
  | sra =>
    refine (sshiftRight_eq_ofInt a _).trans ?_
    rw [and_31_toNat]
    rfl
  | slt => exact ofBool_decide _
  | sltu => exact ofBool_decide _
  | xor => rfl
  | or => rfl
  | and => rfl
  | mul =>
    change (a.signExtend 64 * b.signExtend 64 &&& 0xffffffff#64).setWidth 32 = _
    rw [signExtend_eq_ofInt, signExtend_eq_ofInt, ← BitVec.ofInt_mul]
    exact low_ofInt _
  | mulh =>
    change ((a.signExtend 64 * b.signExtend 64).sshiftRight 32).setWidth 32 = _
    rw [setWidth_sshiftRight, signExtend_eq_ofInt, signExtend_eq_ofInt, ← BitVec.ofInt_mul]
    exact high_ofInt _
  | mulhsu =>
    change ((a.signExtend 64 * b.setWidth 64) >>> 32).setWidth 32 = _
    rw [signExtend_eq_ofInt, setWidth_eq_ofInt, ← BitVec.ofInt_mul]
    exact high_ofInt _
  | mulhu =>
    change ((a.setWidth 64 * b.setWidth 64) >>> 32).setWidth 32 = _
    rw [setWidth_eq_ofInt, setWidth_eq_ofInt, ← BitVec.ofInt_mul, high_ofInt]
    rfl
  | div =>
    change (if b = 0 then -1 else if a = 0x80000000 ∧ b = -1 then 0x80000000 else a.sdiv b)
      = if b = 0 then -1 else BitVec.ofInt 32 (a.toInt.tdiv b.toInt)
    congr 1
    split
    · rename_i h
      rw [h.1, h.2]
      decide
    · exact sdiv_eq_ofInt a b
  | divu =>
    change (if b = 0 then 0xffffffff#32 else a.udiv b)
      = if b = 0 then -1 else BitVec.ofNat 32 (a.toNat / b.toNat)
    congr 1
    apply BitVec.eq_of_toNat_eq
    rw [BitVec.udiv_eq, BitVec.toNat_udiv, BitVec.toNat_ofNat,
      Nat.mod_eq_of_lt (Nat.lt_of_le_of_lt (Nat.div_le_self _ _) a.isLt)]
  | rem =>
    change (if b = 0 then a else if a = 0x80000000 ∧ b = -1 then 0 else a.srem b)
      = if b = 0 then a else BitVec.ofInt 32 (a.toInt.tmod b.toInt)
    congr 1
    split
    · rename_i h
      rw [h.1, h.2]
      decide
    · exact srem_eq_ofInt a b
  | remu =>
    change (if b = 0 then a else a.umod b)
      = if b = 0 then a else BitVec.ofNat 32 (a.toNat % b.toNat)
    congr 1
    apply BitVec.eq_of_toNat_eq
    rw [BitVec.umod_eq, BitVec.toNat_umod, BitVec.toNat_ofNat,
      Nat.mod_eq_of_lt (Nat.lt_of_le_of_lt (Nat.mod_le _ _) a.isLt)]

/-- Branches compare as the specification prescribes. -/
theorem cond_branch (op : RV32IM.BranchOp) (a b : BitVec 32) :
    (branchKind op).cond a b = true ↔ op.taken a b := by
  cases op with
  | eq => exact beq_iff_eq
  | ne => exact bne_iff_ne
  | lt => exact decide_eq_true_iff
  | ltu => exact decide_eq_true_iff
  | ge =>
    change (!a.slt b) = true ↔ b.toInt ≤ a.toInt
    rw [BitVec.slt_eq_decide, Bool.not_eq_true', decide_eq_false_iff_not, Int.not_lt]
  | geu =>
    change (!a.ult b) = true ↔ b.toNat ≤ a.toNat
    rw [BitVec.ult_eq_decide, Bool.not_eq_true', decide_eq_false_iff_not, Nat.not_lt]

end RipSim
