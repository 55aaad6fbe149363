import RipSim.Encoding.Decoded
import RipSim.Library.RV32IM

/-!
# The decoder on legal words

Every word that is legal for RV32IM is decoded as the instruction it encodes.  The
decoder tests masked words where the encoding tables give fields, so it is first said
over again in terms of fields; after that each operation is a computation on its codes.
-/

namespace RipSim

open BitField

namespace Decoder

section Fields

variable (w : BitVec 32)

theorem opcode_eq : w &&& 0x0000007f#32 = (RV32IM.opcode w).setWidth 32 := by
  have h := and_ushiftRight w 0x0000007f#32 0 7 (by decide)
  rwa [BitVec.ushiftRight_zero] at h

theorem rd_eq : ((w &&& 0x00000f80#32) >>> 7).setWidth 5 = RV32IM.rd w :=
  setWidth_and_ushiftRight _ _ _ _ (by decide)

theorem rs1_eq : ((w &&& 0x000f8000#32) >>> 15).setWidth 5 = RV32IM.rs1 w :=
  setWidth_and_ushiftRight _ _ _ _ (by decide)

theorem rs2_eq : ((w &&& 0x01f00000#32) >>> 20).setWidth 5 = RV32IM.rs2 w :=
  setWidth_and_ushiftRight _ _ _ _ (by decide)

theorem funct3_eq : (w &&& 0x00007000#32) >>> 12 = (RV32IM.funct3 w).setWidth 32 :=
  and_ushiftRight _ _ _ _ (by decide)

theorem funct7_eq : (w &&& 0xfe000000#32) >>> 25 = (RV32IM.funct7 w).setWidth 32 :=
  and_ushiftRight _ _ _ _ (by decide)

theorem immI_eq : (w >>> 20).setWidth 12 = RV32IM.immI w := setWidth_ushiftRight _ _ _

theorem immU_eq : ((w &&& 0xfffff000#32) >>> 12).setWidth 20 = RV32IM.immU w :=
  setWidth_and_ushiftRight _ _ _ _ (by decide)

theorem shamt_eq : (w >>> 20 &&& 0b11111#32).setWidth 12 = (RV32IM.rs2 w).setWidth 12 := by
  apply BitVec.eq_of_getLsbD_eq
  intro i hi
  simp only [RV32IM.rs2, BitVec.getLsbD_setWidth, BitVec.getLsbD_and, BitVec.getLsbD_ushiftRight,
    BitVec.getLsbD_extractLsb']
  interval_cases i <;> simp

theorem immS_eq :
    ((w &&& 0xfe000000#32) >>> 20 ||| (w >>> 7 &&& 0x1f#32)).setWidth 12 = RV32IM.immS w := by
  apply BitVec.eq_of_getLsbD_eq
  intro i hi
  simp only [RV32IM.immS, BitVec.getLsbD_setWidth, BitVec.getLsbD_and, BitVec.getLsbD_or,
    BitVec.getLsbD_ushiftRight, BitVec.getLsbD_append, BitVec.getLsbD_extractLsb']
  interval_cases i <;> simp

theorem immB_eq :
    ((w &&& 0x80000000#32) >>> 19 ||| (w &&& 0x80#32) <<< 4 ||| (w >>> 20 &&& 0x7e0#32) |||
      (w >>> 7 &&& 0x1e#32)).setWidth 13 = RV32IM.immB w := by
  apply BitVec.eq_of_getLsbD_eq
  intro i hi
  simp only [RV32IM.immB, BitVec.getLsbD_setWidth, BitVec.getLsbD_and, BitVec.getLsbD_or,
    BitVec.getLsbD_ushiftRight, BitVec.getLsbD_shiftLeft, BitVec.getLsbD_append,
    BitVec.getLsbD_extractLsb']
  interval_cases i <;> simp

theorem immJ_eq :
    ((w &&& 0x80000000#32) >>> 11 ||| (w &&& 0xff000#32) ||| (w >>> 9 &&& 0x800#32) |||
      (w >>> 20 &&& 0x7fe#32)).setWidth 21 = RV32IM.immJ w := by
  apply BitVec.eq_of_getLsbD_eq
  intro i hi
  simp only [RV32IM.immJ, BitVec.getLsbD_setWidth, BitVec.getLsbD_and, BitVec.getLsbD_or,
    BitVec.getLsbD_ushiftRight, BitVec.getLsbD_append, BitVec.getLsbD_extractLsb']
  interval_cases i <;> simp

/-- A shift amount is the whole immediate when the bits above it are zero. -/
theorem immI_of_funct7 (h : RV32IM.funct7 w = 0) : RV32IM.immI w = (RV32IM.rs2 w).setWidth 12 := by
  have happ : RV32IM.immI w = RV32IM.funct7 w ++ RV32IM.rs2 w := by
    apply BitVec.eq_of_getLsbD_eq
    intro i hi
    simp only [RV32IM.immI, RV32IM.funct7, RV32IM.rs2, BitVec.getLsbD_append,
      BitVec.getLsbD_extractLsb']
    interval_cases i <;> simp
  rw [happ, h]
  apply BitVec.eq_of_getLsbD_eq
  intro i hi
  rw [BitVec.getLsbD_append, BitVec.getLsbD_setWidth, decide_eq_true hi, Bool.true_and]
  split
  · rfl
  · rw [BitVec.getLsbD_of_ge (RV32IM.rs2 w) i (by omega)]
    exact BitVec.getLsbD_zero

end Fields

end Decoder

/-! ## Instructions -/

/-- The mnemonic of a branch. -/
def branchKind : RV32IM.BranchOp → BTypeKinds
  | .eq => .beq | .ne => .bne | .lt => .blt | .ge => .bge | .ltu => .bltu | .geu => .bgeu

/-- The mnemonic of a load. -/
def loadKind : RV32IM.LoadOp → ITypeKinds
  | .b => .lb | .h => .lh | .w => .lw | .bu => .lbu | .hu => .lhu

/-- The mnemonic of a store. -/
def storeKind : RV32IM.StoreOp → STypeKinds
  | .b => .sb | .h => .sh | .w => .sw

/-- The mnemonic of an operation on a register and an immediate. -/
def immKind : RV32IM.ImmOp → ITypeKinds
  | .add => .addi | .slt => .slti | .sltu => .sltiu | .xor => .xori | .or => .ori | .and => .andi

/-- The mnemonic of a shift by an immediate. -/
def shiftKind : RV32IM.ShiftOp → ITypeKinds
  | .sll => .slli | .srl => .srli | .sra => .srai

/-- The mnemonic of an operation on two registers. -/
def regKind : RV32IM.RegOp → RTypeKinds
  | .add => .add | .sub => .sub | .sll => .sll | .slt => .slt | .sltu => .sltu | .xor => .xor
  | .srl => .srl | .sra => .sra | .or => .or | .and => .and | .mul => .mul | .mulh => .mulh
  | .mulhsu => .mulhsu | .mulhu => .mulhu | .div => .div | .divu => .divu | .rem => .rem
  | .remu => .remu

/-- The instruction object that stands for an instruction. -/
def ofInstr : RV32IM.Instr → Instruction
  | .lui rd imm => .UInstruction .lui rd imm
  | .auipc rd imm => .UInstruction .auipc rd imm
  | .jal rd offset => .JInstruction .jal rd offset
  | .jalr rd rs1 offset => .IInstruction .jalr rd rs1 offset
  | .branch op rs1 rs2 offset => .BInstruction (branchKind op) rs1 rs2 offset
  | .load op rd rs1 offset => .IInstruction (loadKind op) rd rs1 offset
  | .store op rs1 rs2 offset => .SInstruction (storeKind op) rs1 rs2 offset
  | .opImm op rd rs1 imm => .IInstruction (immKind op) rd rs1 imm
  | .shift op rd rs1 shamt => .IInstruction (shiftKind op) rd rs1 (shamt.setWidth 12)
  | .reg op rd rs1 rs2 => .RInstruction (regKind op) rd rs1 rs2

/-- **The decoder finds the instruction that a legal word encodes.** -/
theorem decode_legal {w : BitVec 32} {i : RV32IM.Instr} (h : RV32IM.decode w = some i) :
    Decoder.decode w = some (ofInstr i) := by
  open Decoder in
  unfold decode
  simp only [opcode_eq, rd_eq, rs1_eq, rs2_eq, funct3_eq, funct7_eq, immU_eq, immJ_eq, immI_eq]
  unfold RV32IM.decode at h
  by_cases h1 : RV32IM.opcode w = 0b0110111
  · rw [if_pos h1] at h
    injection h with h
    rw [h1, ← h]
    rfl
  by_cases h2 : RV32IM.opcode w = 0b0010111
  · rw [if_neg h1, if_pos h2] at h
    injection h with h
    rw [h2, ← h]
    rfl
  by_cases h3 : RV32IM.opcode w = 0b1101111
  · rw [if_neg h1, if_neg h2, if_pos h3] at h
    injection h with h
    rw [h3, ← h]
    rfl
  by_cases h4 : RV32IM.opcode w = 0b1100111
  · rw [if_neg h1, if_neg h2, if_neg h3, if_pos h4] at h
    split_ifs at h
    injection h with h
    rw [h4, ← h]
    rfl
  by_cases h5 : RV32IM.opcode w = 0b1100011
  · rw [if_neg h1, if_neg h2, if_neg h3, if_neg h4, if_pos h5] at h
    obtain ⟨op, hop, rfl⟩ := Option.map_eq_some_iff.mp h
    have hf : op.funct3 = RV32IM.funct3 w := by simpa using List.find?_some hop
    rw [h5, ← hf]
    change decodeBranch w _ _ _ = _
    unfold decodeBranch
    rw [immB_eq]
    cases op <;> rfl
  by_cases h6 : RV32IM.opcode w = 0b0000011
  · rw [if_neg h1, if_neg h2, if_neg h3, if_neg h4, if_neg h5, if_pos h6] at h
    obtain ⟨op, hop, rfl⟩ := Option.map_eq_some_iff.mp h
    have hf : op.funct3 = RV32IM.funct3 w := by simpa using List.find?_some hop
    rw [h6, ← hf]
    change decodeLoad w _ _ _ = _
    unfold decodeLoad
    rw [immI_eq]
    cases op <;> rfl
  by_cases h7 : RV32IM.opcode w = 0b0100011
  · rw [if_neg h1, if_neg h2, if_neg h3, if_neg h4, if_neg h5, if_neg h6, if_pos h7] at h
    obtain ⟨op, hop, rfl⟩ := Option.map_eq_some_iff.mp h
    have hf : op.funct3 = RV32IM.funct3 w := by simpa using List.find?_some hop
    rw [h7, ← hf]
    change decodeStore w _ _ _ = _
    unfold decodeStore
    rw [immS_eq]
    cases op <;> rfl
  by_cases h8 : RV32IM.opcode w = 0b0010011
  · rw [if_neg h1, if_neg h2, if_neg h3, if_neg h4, if_neg h5, if_neg h6, if_neg h7, if_pos h8] at h
    rw [h8]
    change decodeOpImm w _ _ _ _ = _
    unfold decodeOpImm
    rw [immI_eq, shamt_eq]
    cases hop : RV32IM.ImmOp.ofFunct3 (RV32IM.funct3 w) with
    | some op =>
      rw [hop] at h
      injection h with h
      have hf : op.funct3 = RV32IM.funct3 w := by simpa using List.find?_some hop
      rw [← hf, ← h]
      cases op <;> rfl
    | none =>
      rw [hop] at h
      obtain ⟨op, hop, rfl⟩ := Option.map_eq_some_iff.mp h
      have hf : op.funct3 = RV32IM.funct3 w ∧ op.funct7 = RV32IM.funct7 w := by
        simpa using List.find?_some hop
      rw [← hf.1, ← hf.2]
      cases op with
      | sll =>
        rw [immI_of_funct7 w hf.2.symm]
        rfl
      | srl => rfl
      | sra => rfl
  by_cases h9 : RV32IM.opcode w = 0b0110011
  · rw [if_neg h1, if_neg h2, if_neg h3, if_neg h4, if_neg h5, if_neg h6, if_neg h7, if_neg h8,
      if_pos h9] at h
    obtain ⟨op, hop, rfl⟩ := Option.map_eq_some_iff.mp h
    have hf : op.funct3 = RV32IM.funct3 w ∧ op.funct7 = RV32IM.funct7 w := by
      simpa using List.find?_some hop
    rw [h9, ← hf.1, ← hf.2]
    cases op <;> rfl
  · rw [if_neg h1, if_neg h2, if_neg h3, if_neg h4, if_neg h5, if_neg h6, if_neg h7, if_neg h8,
      if_neg h9] at h
    exact nomatch h

end RipSim
