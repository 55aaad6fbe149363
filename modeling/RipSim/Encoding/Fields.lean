import RipSim.Model.RIPSimulator
import RipSim.Library.BitField
import Mathlib.Tactic.IntervalCases

/-!
# What the accessors read

The pipeline never looks at the members of an instruction object: it reads `Val`
through the accessors.  This file computes every accessor on every object, so that
nothing after it mentions a mask or a shift of an instruction word.

* `getRd_eq`, `getRs1_eq`, `getRs2_eq`: a register field is the member.
* `immediate_eq`: the immediate latched by `decode` is `immVal`.  It is the
  sign-extended member in every class but two: branches and jumps lose bit `0` of
  their member, which the decoder leaves clear, and `jal` extends its 21-bit
  member from bit 19.
-/

namespace RipSim

open BitField

/-- The local `signExtend` of the pipeline is sign extension when its argument fits
the width. -/
theorem signExtend_setWidth {w : ℕ} (x : BitVec w)
    (hm : ∀ i < 32, (-1#32 ^^^ (1#32 <<< w - 1)).getLsbD i = decide (w ≤ i))
    (hw : w ≤ 32) (h0 : 0 < w) : signExtend (x.setWidth 32) w = x.signExtend 32 := by
  apply BitVec.eq_of_getLsbD_eq
  intro i hi
  have hmsb : x.msb = x.getLsbD (w - 1) := BitVec.msb_eq_getLsbD_last x
  rw [BitVec.getLsbD_signExtend, hmsb, decide_eq_true hi, Bool.true_and, signExtend,
    BitVec.getLsbD_setWidth, decide_eq_true (by omega : w - 1 < 32), Bool.true_and]
  split
  · rename_i hx
    rw [BitVec.getLsbD_or, hm i hi, BitVec.getLsbD_setWidth, decide_eq_true hi, hx, Bool.true_and]
    by_cases hiw : i < w
    · rw [if_pos hiw, decide_eq_false (by omega), Bool.false_or]
    · rw [if_neg hiw, decide_eq_true (by omega), Bool.true_or]
  · rename_i hx
    rw [BitVec.getLsbD_setWidth, decide_eq_true hi, Bool.true_and]
    by_cases hiw : i < w
    · rw [if_pos hiw]
    · rw [if_neg hiw, BitVec.getLsbD_of_ge x _ (by omega)]
      simpa using hx

/-- Extending twice from bit 11 is extending once: `jalr` does so. -/
theorem signExtend_signExtend_twelve (x : BitVec 12) :
    signExtend (x.signExtend 32) 12 = x.signExtend 32 := by
  apply BitVec.eq_of_getLsbD_eq
  intro i hi
  have hm : ∀ i < 32, (-1#32 ^^^ (1#32 <<< 12 - 1)).getLsbD i = decide (12 ≤ i) := by
    decide
  have hmsb : x.msb = x.getLsbD 11 := BitVec.msb_eq_getLsbD_last x
  rw [signExtend]
  split
  · rename_i hx
    rw [BitVec.getLsbD_or, hm i hi]
    by_cases h : i < 12
    · rw [decide_eq_false (by omega), Bool.false_or]
    · rw [BitVec.getLsbD_signExtend] at hx
      have hx' : x.getLsbD 11 = true := by simpa using hx
      rw [decide_eq_true (by omega), Bool.true_or, BitVec.getLsbD_signExtend, if_neg h, hmsb, hx',
        decide_eq_true hi, Bool.true_and]
  · rfl

namespace Instruction

/-! ## Register fields -/

/-- The member `Rd`, or zero where there is none. -/
def rd : Instruction → BitVec 5
  | IInstruction _ Rd _ _ => Rd
  | RInstruction _ Rd _ _ => Rd
  | UInstruction _ Rd _ => Rd
  | JInstruction _ Rd _ => Rd
  | SInstruction .. => 0
  | BInstruction .. => 0

/-- The member `Rs1`, or zero where there is none. -/
def rs1 : Instruction → BitVec 5
  | IInstruction _ _ Rs1 _ => Rs1
  | RInstruction _ _ Rs1 _ => Rs1
  | SInstruction _ Rs1 _ _ => Rs1
  | BInstruction _ Rs1 _ _ => Rs1
  | UInstruction .. => 0
  | JInstruction .. => 0

/-- The member `Rs2`, or zero where there is none. -/
def rs2 : Instruction → BitVec 5
  | RInstruction _ _ _ Rs2 => Rs2
  | SInstruction _ _ Rs2 _ => Rs2
  | BInstruction _ _ Rs2 _ => Rs2
  | IInstruction .. => 0
  | UInstruction .. => 0
  | JInstruction .. => 0

/-- The member `Imm` of an I-type instruction, which a csr instruction uses as its
address. -/
def csrAddr : Instruction → CSRAddress
  | IInstruction _ _ _ Imm => Imm
  | _ => 0

theorem rd_field {I : Instruction} (h : I.hasRd = true) :
    ((I.getVal &&& 0x00000f80#32) >>> 7).setWidth 5 = I.rd := by
  rw [setWidth_and_ushiftRight _ _ _ _ (by decide)]
  cases I with
  | SInstruction => exact absurd h Bool.false_ne_true
  | BInstruction => exact absurd h Bool.false_ne_true
  | _ => simp [getVal, rd, BitVec.extractLsb'_or]

theorem rs1_field {I : Instruction} (h : I.hasRs1 = true) :
    ((I.getVal &&& 0x000f8000#32) >>> 15).setWidth 5 = I.rs1 := by
  rw [setWidth_and_ushiftRight _ _ _ _ (by decide)]
  cases I with
  | UInstruction => exact absurd h Bool.false_ne_true
  | JInstruction => exact absurd h Bool.false_ne_true
  | SInstruction =>
    simp [getVal, rs1, BitVec.extractLsb'_or, and_low _ (31#32) 5 (by decide)]
  | BInstruction =>
    simp [getVal, rs1, BitVec.extractLsb'_or, and_ushiftRight _ (0b0000000011110#32) 1 4
      (by decide),
      and_ushiftRight _ (0b0100000000000#32) 11 1 (by decide)]
  | _ => simp [getVal, rs1, BitVec.extractLsb'_or]

theorem rs2_field {I : Instruction} (h : I.hasRs2 = true) :
    ((I.getVal &&& 0x01f00000#32) >>> 20).setWidth 5 = I.rs2 := by
  rw [setWidth_and_ushiftRight _ _ _ _ (by decide)]
  cases I with
  | IInstruction => exact absurd h Bool.false_ne_true
  | UInstruction => exact absurd h Bool.false_ne_true
  | JInstruction => exact absurd h Bool.false_ne_true
  | SInstruction =>
    simp [getVal, rs2, BitVec.extractLsb'_or, and_low _ (31#32) 5 (by decide)]
  | BInstruction =>
    simp [getVal, rs2, BitVec.extractLsb'_or, and_ushiftRight _ (0b0000000011110#32) 1 4
      (by decide),
      and_ushiftRight _ (0b0100000000000#32) 11 1 (by decide)]
  | RInstruction => simp [getVal, rs2, BitVec.extractLsb'_or]

theorem getRd_eq {I : Instruction} (h : I.hasRd = true) : I.getRd = .ok I.rd := by
  rw [getRd, field, if_pos h, rd_field h]

theorem getRs1_eq {I : Instruction} (h : I.hasRs1 = true) : I.getRs1 = .ok I.rs1 := by
  rw [getRs1, field, if_pos h, rs1_field h]

theorem getRs2_eq {I : Instruction} (h : I.hasRs2 = true) : I.getRs2 = .ok I.rs2 := by
  rw [getRs2, field, if_pos h, rs2_field h]

/-! ## Immediates -/

theorem getIImm_eq (IT : ITypeKinds) (Rd Rs1 : BitVec 5) (Imm : BitVec 12) :
    (IInstruction IT Rd Rs1 Imm).getIImm = .ok (Imm.setWidth 32) := by
  rw [getIImm, field, if_pos (by rfl), and_ushiftRight _ _ 20 12 (by decide)]
  simp [getVal, BitVec.extractLsb'_or]

theorem getSImm_eq (ST : STypeKinds) (Rs1 Rs2 : BitVec 5) (Imm : BitVec 12) :
    (SInstruction ST Rs1 Rs2 Imm).getSImm = .ok (Imm.setWidth 32) := by
  rw [getSImm, field, if_pos (by rfl)]
  congr 1
  apply BitVec.eq_of_getLsbD_eq
  intro i hi
  simp only [getVal, BitVec.getLsbD_setWidth, BitVec.getLsbD_ushiftRight, BitVec.getLsbD_and,
    BitVec.getLsbD_or, BitVec.getLsbD_shiftLeft]
  interval_cases i <;> simp

/-- A branch keeps its immediate but for bit `0`. -/
theorem getBImm_eq (BT : BTypeKinds) (Rs1 Rs2 : BitVec 5) (Imm : BitVec 13) :
    (BInstruction BT Rs1 Rs2 Imm).getBImm = .ok ((Imm &&& ~~~1#13).setWidth 32) := by
  rw [getBImm, field, if_pos (by rfl)]
  congr 1
  apply BitVec.eq_of_getLsbD_eq
  intro i hi
  simp only [getVal, BitVec.getLsbD_setWidth, BitVec.getLsbD_ushiftRight, BitVec.getLsbD_and,
    BitVec.getLsbD_or, BitVec.getLsbD_shiftLeft]
  interval_cases i <;> simp

/-- A jump keeps its immediate but for bit `0`. -/
theorem getJImm_eq (JT : JTypeKinds) (Rd : BitVec 5) (Imm : BitVec 21) :
    (JInstruction JT Rd Imm).getJImm = .ok ((Imm &&& ~~~1#21).setWidth 32) := by
  rw [getJImm, field, if_pos (by rfl)]
  congr 1
  apply BitVec.eq_of_getLsbD_eq
  intro i hi
  simp only [getVal, BitVec.getLsbD_setWidth, BitVec.getLsbD_ushiftRight, BitVec.getLsbD_and,
    BitVec.getLsbD_or, BitVec.getLsbD_shiftLeft]
  interval_cases i <;> simp

theorem getUImm_eq (UT : UTypeKinds) (Rd : BitVec 5) (Imm : BitVec 20) :
    (UInstruction UT Rd Imm).getUImm = .ok (Imm.setWidth 32) := by
  rw [getUImm, field, if_pos (by rfl), and_ushiftRight _ _ 12 20 (by decide)]
  simp [getVal, BitVec.extractLsb'_or]

/-- The immediate `decode` latches. -/
def immVal : Instruction → RegVal
  | IInstruction _ _ _ Imm => Imm.signExtend 32
  | RInstruction .. => 0
  | UInstruction _ _ Imm => Imm.signExtend 32
  | JInstruction _ _ Imm => RipSim.signExtend ((Imm &&& ~~~1#21).setWidth 32) 20
  | SInstruction _ _ _ Imm => Imm.signExtend 32
  | BInstruction _ _ _ Imm => (Imm &&& ~~~1#13).signExtend 32

/-- **No accessor assertion fires in `decode`'s immediate**, and this is its value. -/
theorem immediate_eq (I : Instruction) : RIPSimulator.immediate I = .ok I.immVal := by
  cases I with
  | IInstruction IT Rd Rs1 Imm =>
    have h := signExtend_setWidth Imm (by decide) (by decide) (by decide)
    simp [RIPSimulator.immediate, getMnemo, getIImm_eq, immVal, h, Functor.map, Except.map]
  | RInstruction => rfl
  | UInstruction UT Rd Imm =>
    have h := signExtend_setWidth Imm (by decide) (by decide) (by decide)
    simp [RIPSimulator.immediate, getMnemo, getUImm_eq, immVal, h, Functor.map, Except.map]
  | JInstruction JT Rd Imm =>
    simp [RIPSimulator.immediate, getMnemo, getJImm_eq, immVal, Functor.map, Except.map]
  | SInstruction ST Rs1 Rs2 Imm =>
    have h := signExtend_setWidth Imm (by decide) (by decide) (by decide)
    simp [RIPSimulator.immediate, getMnemo, getSImm_eq, immVal, h, Functor.map, Except.map]
  | BInstruction BT Rs1 Rs2 Imm =>
    have h := signExtend_setWidth (Imm &&& ~~~1#13) (by decide) (by decide) (by decide)
    simp only [RIPSimulator.immediate, getMnemo, getBImm_eq, immVal, h, Functor.map, Except.map]

end Instruction

end RipSim
