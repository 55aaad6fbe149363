import RipSim.Model.Instructions

/-!
# The decoder

`Decoder::decode`, by opcode.  `none` is the null pointer.
-/

namespace RipSim

namespace Decoder

/-- The case `0b0000011`. -/
def decodeLoad (InstVal : BitVec 32) (Rd Rs1 : BitVec 5) (Funct3 : BitVec 32) :
    Option Instruction :=
  let Imm := (InstVal >>> 20).setWidth 12
  if Funct3 = 0b000#32 then some (.IInstruction .lb Rd Rs1 Imm)
  else if Funct3 = 0b001#32 then some (.IInstruction .lh Rd Rs1 Imm)
  else if Funct3 = 0b010#32 then some (.IInstruction .lw Rd Rs1 Imm)
  else if Funct3 = 0b100#32 then some (.IInstruction .lbu Rd Rs1 Imm)
  else if Funct3 = 0b101#32 then some (.IInstruction .lhu Rd Rs1 Imm)
  else none

/-- The case `0b0110011`. -/
def decodeOp (Rd Rs1 Rs2 : BitVec 5) (Funct3 Funct7 : BitVec 32) : Option Instruction :=
  if Funct3 = 0b000#32 ∧ Funct7 = 0b0000000#32 then some (.RInstruction .add Rd Rs1 Rs2)
  else if Funct3 = 0b000#32 ∧ Funct7 = 0b0100000#32 then some (.RInstruction .sub Rd Rs1 Rs2)
  else if Funct3 = 0b001#32 ∧ Funct7 = 0b0000000#32 then some (.RInstruction .sll Rd Rs1 Rs2)
  else if Funct3 = 0b010#32 ∧ Funct7 = 0b0000000#32 then some (.RInstruction .slt Rd Rs1 Rs2)
  else if Funct3 = 0b011#32 ∧ Funct7 = 0b0000000#32 then some (.RInstruction .sltu Rd Rs1 Rs2)
  else if Funct3 = 0b101#32 ∧ Funct7 = 0b0000000#32 then some (.RInstruction .srl Rd Rs1 Rs2)
  else if Funct3 = 0b101#32 ∧ Funct7 = 0b0100000#32 then some (.RInstruction .sra Rd Rs1 Rs2)
  else if Funct3 = 0b110#32 ∧ Funct7 = 0b0000000#32 then some (.RInstruction .or Rd Rs1 Rs2)
  else if Funct3 = 0b111#32 ∧ Funct7 = 0b0000000#32 then some (.RInstruction .and Rd Rs1 Rs2)
  else if Funct3 = 0b000#32 ∧ Funct7 = 0b0000001#32 then some (.RInstruction .mul Rd Rs1 Rs2)
  else if Funct3 = 0b001#32 ∧ Funct7 = 0b0000001#32 then some (.RInstruction .mulh Rd Rs1 Rs2)
  else if Funct3 = 0b010#32 ∧ Funct7 = 0b0000001#32 then some (.RInstruction .mulhsu Rd Rs1 Rs2)
  else if Funct3 = 0b011#32 ∧ Funct7 = 0b0000001#32 then some (.RInstruction .mulhu Rd Rs1 Rs2)
  else if Funct3 = 0b100#32 ∧ Funct7 = 0b0000000#32 then some (.RInstruction .xor Rd Rs1 Rs2)
  else if Funct3 = 0b100#32 ∧ Funct7 = 0b0000001#32 then some (.RInstruction .div Rd Rs1 Rs2)
  else if Funct3 = 0b101#32 ∧ Funct7 = 0b0000001#32 then some (.RInstruction .divu Rd Rs1 Rs2)
  else if Funct3 = 0b110#32 ∧ Funct7 = 0b0000001#32 then some (.RInstruction .rem Rd Rs1 Rs2)
  else if Funct3 = 0b111#32 ∧ Funct7 = 0b0000001#32 then some (.RInstruction .remu Rd Rs1 Rs2)
  else none

/-- The case `0b0010011`.  A word with `Funct3 == 0b101` is `srli` when `Funct7` is
zero and `srai` otherwise, and only these two keep just five bits of the
immediate. -/
def decodeOpImm (InstVal : BitVec 32) (Rd Rs1 : BitVec 5) (Funct3 Funct7 : BitVec 32) :
    Option Instruction :=
  let Imm := (InstVal >>> 20).setWidth 12
  if Funct3 = 0b000#32 then some (.IInstruction .addi Rd Rs1 Imm)
  else if Funct3 = 0b010#32 then some (.IInstruction .slti Rd Rs1 Imm)
  else if Funct3 = 0b011#32 then some (.IInstruction .sltiu Rd Rs1 Imm)
  else if Funct3 = 0b100#32 then some (.IInstruction .xori Rd Rs1 Imm)
  else if Funct3 = 0b110#32 then some (.IInstruction .ori Rd Rs1 Imm)
  else if Funct3 = 0b111#32 then some (.IInstruction .andi Rd Rs1 Imm)
  else if Funct3 = 0b001#32 then some (.IInstruction .slli Rd Rs1 Imm)
  else if Funct3 = 0b101#32 then
    let shamt := (InstVal >>> 20 &&& 0b11111#32).setWidth 12
    if Funct7 = 0#32 then some (.IInstruction .srli Rd Rs1 shamt)
    else some (.IInstruction .srai Rd Rs1 shamt)
  else none

/-- The case `0b0100011`, with `offset[11:5|4:0] = inst[31:25|11:7]`. -/
def decodeStore (InstVal : BitVec 32) (Rs1 Rs2 : BitVec 5) (Funct3 : BitVec 32) :
    Option Instruction :=
  let Offset := ((InstVal &&& 0xfe000000#32) >>> 20 ||| (InstVal >>> 7 &&& 0x1f#32)).setWidth 12
  if Funct3 = 0b000#32 then some (.SInstruction .sb Rs1 Rs2 Offset)
  else if Funct3 = 0b001#32 then some (.SInstruction .sh Rs1 Rs2 Offset)
  else if Funct3 = 0b010#32 then some (.SInstruction .sw Rs1 Rs2 Offset)
  else none

/-- The case `0b1100011`, with `imm[12|11|10:5|4:1] = inst[31|7|30:25|11:8]`. -/
def decodeBranch (InstVal : BitVec 32) (Rs1 Rs2 : BitVec 5) (Funct3 : BitVec 32) :
    Option Instruction :=
  let Imm := ((InstVal &&& 0x80000000#32) >>> 19 ||| (InstVal &&& 0x80#32) <<< 4 |||
    (InstVal >>> 20 &&& 0x7e0#32) ||| (InstVal >>> 7 &&& 0x1e#32)).setWidth 13
  if Funct3 = 0b000#32 then some (.BInstruction .beq Rs1 Rs2 Imm)
  else if Funct3 = 0b001#32 then some (.BInstruction .bne Rs1 Rs2 Imm)
  else if Funct3 = 0b100#32 then some (.BInstruction .blt Rs1 Rs2 Imm)
  else if Funct3 = 0b101#32 then some (.BInstruction .bge Rs1 Rs2 Imm)
  else if Funct3 = 0b110#32 then some (.BInstruction .bltu Rs1 Rs2 Imm)
  else if Funct3 = 0b111#32 then some (.BInstruction .bgeu Rs1 Rs2 Imm)
  else none

/-- The case `0b1110011`: the five instructions told apart by `Funct12`, then the
six csr instructions. -/
def decodeSystem (InstVal : BitVec 32) (Rd Rs1 Rs2 : BitVec 5) (Funct3 Funct7 : BitVec 32) :
    Option Instruction :=
  let Imm := (InstVal >>> 20).setWidth 12
  if Funct3 = 0b000#32 then
    let Funct12 := Funct7 <<< 5 ||| Rs2.setWidth 32
    if Funct12 = 0#32 then some (.IInstruction .ecall Rd Rs1 Imm)
    else if Funct12 = 1#32 then some (.IInstruction .ebreak Rd Rs1 Imm)
    else if Funct12 = 2#32 then some (.IInstruction .uret Rd Rs1 Imm)
    else if Funct12 = 0b100000010#32 then some (.IInstruction .sret Rd Rs1 Imm)
    else if Funct12 = 0b1100000010#32 then some (.IInstruction .mret Rd Rs1 Imm)
    else none
  else if Funct3 = 0b001#32 then some (.IInstruction .csrrw Rd Rs1 Imm)
  else if Funct3 = 0b010#32 then some (.IInstruction .csrrs Rd Rs1 Imm)
  else if Funct3 = 0b011#32 then some (.IInstruction .csrrc Rd Rs1 Imm)
  else if Funct3 = 0b101#32 then some (.IInstruction .csrrwi Rd Rs1 Imm)
  else if Funct3 = 0b110#32 then some (.IInstruction .csrrsi Rd Rs1 Imm)
  else if Funct3 = 0b111#32 then some (.IInstruction .csrrci Rd Rs1 Imm)
  else none

/-- `Decoder::decode`. -/
def decode (InstVal : BitVec 32) : Option Instruction :=
  let Opcode := InstVal &&& 0x0000007f#32
  let Rd := ((InstVal &&& 0x00000f80#32) >>> 7).setWidth 5
  let Rs1 := ((InstVal &&& 0x000f8000#32) >>> 15).setWidth 5
  let Rs2 := ((InstVal &&& 0x01f00000#32) >>> 20).setWidth 5
  let Funct3 := (InstVal &&& 0x00007000#32) >>> 12
  let Funct7 := (InstVal &&& 0xfe000000#32) >>> 25
  if Opcode = 0b0000011#32 then decodeLoad InstVal Rd Rs1 Funct3
  else if Opcode = 0b0001011#32 then
    -- extended instructions, told apart by the rs2 field alone
    if Rs2 = 0 then some (.IInstruction .extx 0 0 0)
    else if Rs2 = 1 then some (.IInstruction .ext 0 0 0)
    else none
  else if Opcode = 0b0001111#32 then
    -- fence and fence.i keep their rd and rs1 fields
    if Funct3 = 0b000#32 then some (.IInstruction .addi Rd Rs1 0)
    else if Funct3 = 0b001#32 then some (.IInstruction .addi Rd Rs1 0)
    else none
  else if Opcode = 0b0010111#32 then
    some (.UInstruction .auipc Rd (((InstVal &&& 0xfffff000#32) >>> 12).setWidth 20))
  else if Opcode = 0b0110011#32 then decodeOp Rd Rs1 Rs2 Funct3 Funct7
  else if Opcode = 0b0010011#32 then decodeOpImm InstVal Rd Rs1 Funct3 Funct7
  else if Opcode = 0b0110111#32 then
    some (.UInstruction .lui Rd (((InstVal &&& 0xfffff000#32) >>> 12).setWidth 20))
  else if Opcode = 0b1100111#32 then
    some (.IInstruction .jalr Rd Rs1 ((InstVal >>> 20).setWidth 12))
  else if Opcode = 0b0100011#32 then decodeStore InstVal Rs1 Rs2 Funct3
  else if Opcode = 0b1100011#32 then decodeBranch InstVal Rs1 Rs2 Funct3
  else if Opcode = 0b1101111#32 then
    -- imm[20|10:1|11|19:12] = inst[31|30:21|20|19:12]
    some (.JInstruction .jal Rd (((InstVal &&& 0x80000000#32) >>> 11 |||
      (InstVal &&& 0xff000#32) |||
      (InstVal >>> 9 &&& 0x800#32) ||| (InstVal >>> 20 &&& 0x7fe#32)).setWidth 21))
  else if Opcode = 0b1110011#32 then decodeSystem InstVal Rd Rs1 Rs2 Funct3 Funct7
  else none

end Decoder

end RipSim
