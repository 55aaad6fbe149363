import RipSim.Model.Registers

/-!
# Instructions

`InstructionTypes.h`, `Exceptions.h` and the class part of `Instructions.h`: the
mnemonic tables, the six instruction classes, the word each object keeps in `Val`
and the accessors that read fields back out of that word.

A decoded instruction holds its fields twice: as members, which `exec` of the
instruction-level simulator reads, and inside `Val`, which the pipeline reads
through the accessors.  `Val` is rebuilt from the members by the constructor, so
the model computes it from them and stores only the members.

The tables `ITypeKinds` … `JTypeKinds` are disjoint, hence a mnemonic's class is
its table.  `"fence"` and `"fence.i"` are in none of them: the decoder maps both
words to `addi`, and the branches of `exec` and `writeback` that test for these
two strings are never taken.
-/

namespace RipSim

/-! ## Mnemonic tables -/

/-- `ITypeKinds`. -/
inductive ITypeKinds where
  | addi | slti | sltiu | xori | ori | andi | jalr
  | lb | lh | lw | lbu | lhu
  | slli | srli | srai
  | csrrw | csrrs | csrrc | csrrwi | csrrsi | csrrci
  | ecall | ebreak | uret | sret | mret
  | ext | extx
  deriving DecidableEq, Repr

/-- `STypeKinds`. -/
inductive STypeKinds where
  | sb | sh | sw
  deriving DecidableEq, Repr

/-- `BTypeKinds`. -/
inductive BTypeKinds where
  | beq | bne | blt | bge | bltu | bgeu
  deriving DecidableEq, Repr

/-- `RTypeKinds`. -/
inductive RTypeKinds where
  | add | sub | sll | slt | sltu | xor | srl | sra | or | and
  | mul | mulh | mulhsu | mulhu | div | divu | rem | remu
  deriving DecidableEq, Repr

/-- `UTypeKinds`. -/
inductive UTypeKinds where
  | lui | auipc
  deriving DecidableEq, Repr

/-- `JTypeKinds`. -/
inductive JTypeKinds where
  | jal
  deriving DecidableEq, Repr

/-- The string `getMnemo` returns, by the table it is a key of. -/
inductive Mnemo where
  | I (IT : ITypeKinds)
  | R (RT : RTypeKinds)
  | U (UT : UTypeKinds)
  | J (JT : JTypeKinds)
  | S (ST : STypeKinds)
  | B (BT : BTypeKinds)
  deriving DecidableEq, Repr

/-- `ISBType::getFunct3` of an entry of `ITypeKinds`. -/
def ITypeKinds.getFunct3 : ITypeKinds → BitVec 3
  | .addi => 0b000 | .slti => 0b010 | .sltiu => 0b011 | .xori => 0b100
  | .ori => 0b110 | .andi => 0b111 | .jalr => 0b000
  | .lb => 0b000 | .lh => 0b001 | .lw => 0b010 | .lbu => 0b100 | .lhu => 0b101
  | .slli => 0b001 | .srli => 0b101 | .srai => 0b101
  | .csrrw => 0b001 | .csrrs => 0b010 | .csrrc => 0b011
  | .csrrwi => 0b101 | .csrrsi => 0b110 | .csrrci => 0b111
  | .ecall => 0b000 | .ebreak => 0b000 | .uret => 0b000 | .sret => 0b000 | .mret => 0b000
  | .ext => 0b000 | .extx => 0b000

/-- `ISBType::getOpcode` of an entry of `ITypeKinds`. -/
def ITypeKinds.getOpcode : ITypeKinds → BitVec 7
  | .addi | .slti | .sltiu | .xori | .ori | .andi | .slli | .srli | .srai => 0b0010011
  | .jalr => 0b1100111
  | .lb | .lh | .lw | .lbu | .lhu => 0b0000011
  | .csrrw | .csrrs | .csrrc | .csrrwi | .csrrsi | .csrrci
  | .ecall | .ebreak | .uret | .sret | .mret => 0b1110011
  | .ext | .extx => 0b0001011

/-- `ISBType::getFunct3` of an entry of `STypeKinds`. -/
def STypeKinds.getFunct3 : STypeKinds → BitVec 3
  | .sb => 0b000 | .sh => 0b001 | .sw => 0b010

/-- `ISBType::getOpcode` of an entry of `STypeKinds`. -/
def STypeKinds.getOpcode (_ : STypeKinds) : BitVec 7 := 0b0100011

/-- `ISBType::getFunct3` of an entry of `BTypeKinds`. -/
def BTypeKinds.getFunct3 : BTypeKinds → BitVec 3
  | .beq => 0b000 | .bne => 0b001 | .blt => 0b100 | .bge => 0b101 | .bltu => 0b110 | .bgeu => 0b111

/-- `ISBType::getOpcode` of an entry of `BTypeKinds`. -/
def BTypeKinds.getOpcode (_ : BTypeKinds) : BitVec 7 := 0b1100011

/-- `RType::getFunct7`. -/
def RTypeKinds.getFunct7 : RTypeKinds → BitVec 7
  | .sub | .sra => 0b0100000
  | .add | .sll | .slt | .sltu | .xor | .srl | .or | .and => 0b0000000
  | .mul | .mulh | .mulhsu | .mulhu | .div | .divu | .rem | .remu => 0b0000001

/-- `RType::getFunct3`. -/
def RTypeKinds.getFunct3 : RTypeKinds → BitVec 3
  | .add => 0b000 | .sub => 0b000 | .sll => 0b001 | .slt => 0b010 | .sltu => 0b011
  | .xor => 0b100 | .srl => 0b101 | .sra => 0b101 | .or => 0b110 | .and => 0b111
  | .mul => 0b000 | .mulh => 0b001 | .mulhsu => 0b010 | .mulhu => 0b011
  | .div => 0b100 | .divu => 0b101 | .rem => 0b110 | .remu => 0b111

/-- `RType::getOpcode`. -/
def RTypeKinds.getOpcode (_ : RTypeKinds) : BitVec 7 := 0b0110011

/-- `UJType::getOpcode` of an entry of `UTypeKinds`. -/
def UTypeKinds.getOpcode : UTypeKinds → BitVec 7
  | .lui => 0b0110111 | .auipc => 0b0010111

/-- `UJType::getOpcode` of an entry of `JTypeKinds`. -/
def JTypeKinds.getOpcode (_ : JTypeKinds) : BitVec 7 := 0b1101111

/-! ## Instruction objects -/

/-- `Instruction` and its six subclasses, by their members. -/
inductive Instruction where
  | IInstruction (IT : ITypeKinds) (Rd Rs1 : BitVec 5) (Imm : BitVec 12)
  | RInstruction (RT : RTypeKinds) (Rd Rs1 Rs2 : BitVec 5)
  | UInstruction (UT : UTypeKinds) (Rd : BitVec 5) (Imm : BitVec 20)
  | JInstruction (JT : JTypeKinds) (Rd : BitVec 5) (Imm : BitVec 21)
  | SInstruction (ST : STypeKinds) (Rs1 Rs2 : BitVec 5) (Imm : BitVec 12)
  | BInstruction (BT : BTypeKinds) (Rs1 Rs2 : BitVec 5) (Imm : BitVec 13)
  deriving DecidableEq, Repr

namespace Instruction

/-- `getMnemo`. -/
def getMnemo : Instruction → Mnemo
  | IInstruction IT _ _ _ => .I IT
  | RInstruction RT _ _ _ => .R RT
  | UInstruction UT _ _ => .U UT
  | JInstruction JT _ _ => .J JT
  | SInstruction ST _ _ _ => .S ST
  | BInstruction BT _ _ _ => .B BT

/-- `getVal`: the word the decoder's constructor passes to `setVal`. -/
def getVal : Instruction → BitVec 32
  | IInstruction IT Rd Rs1 Imm =>
    Imm.setWidth 32 <<< 20 ||| Rs1.setWidth 32 <<< 15 ||| IT.getFunct3.setWidth 32 <<< 12 |||
      Rd.setWidth 32 <<< 7 ||| IT.getOpcode.setWidth 32
  | RInstruction RT Rd Rs1 Rs2 =>
    RT.getFunct7.setWidth 32 <<< 25 ||| Rs2.setWidth 32 <<< 20 ||| Rs1.setWidth 32 <<< 15 |||
      RT.getFunct3.setWidth 32 <<< 12 ||| Rd.setWidth 32 <<< 7 ||| RT.getOpcode.setWidth 32
  | UInstruction UT Rd Imm =>
    Imm.setWidth 32 <<< 12 ||| Rd.setWidth 32 <<< 7 ||| UT.getOpcode.setWidth 32
  | JInstruction JT Rd Imm =>
    let ImmU := Imm.setWidth 32
    ((ImmU &&& 0b100000000000000000000#32) >>> 20) <<< 31 |||
      ((ImmU &&& 0b000000000011111111110#32) >>> 1) <<< 21 |||
      ((ImmU &&& 0b000000000100000000000#32) >>> 11) <<< 20 |||
      ((ImmU &&& 0b011111111000000000000#32) >>> 12) <<< 12 |||
      Rd.setWidth 32 <<< 7 ||| JT.getOpcode.setWidth 32
  | SInstruction ST Rs1 Rs2 Imm =>
    let ImmU := Imm.setWidth 32
    ((ImmU &&& 0b111111100000#32) >>> 5) <<< 25 ||| Rs2.setWidth 32 <<< 20 |||
      Rs1.setWidth 32 <<< 15 ||| ST.getFunct3.setWidth 32 <<< 12 |||
      (ImmU &&& 0b000000011111#32) <<< 7 ||| ST.getOpcode.setWidth 32
  | BInstruction BT Rs1 Rs2 Imm =>
    let ImmU := Imm.setWidth 32
    ((ImmU &&& 0b1000000000000#32) >>> 12) <<< 31 |||
    ((ImmU &&& 0b0011111100000#32) >>> 5) <<< 25 |||
      Rs2.setWidth 32 <<< 20 ||| Rs1.setWidth 32 <<< 15 ||| BT.getFunct3.setWidth 32 <<< 12 |||
      ((ImmU &&& 0b0000000011110#32) >>> 1) <<< 8 |||
      ((ImmU &&& 0b0100000000000#32) >>> 11) <<< 7 |||
      BT.getOpcode.setWidth 32

variable (Inst : Instruction)

/-- `hasRd`: everything but stores and branches. -/
def hasRd : Bool :=
  match Inst.getMnemo with
  | .S _ | .B _ => false
  | _ => true

/-- `hasRs1`: everything but `lui`, `auipc` and `jal`. -/
def hasRs1 : Bool :=
  match Inst.getMnemo with
  | .U _ | .J _ => false
  | _ => true

/-- `hasRs2`: neither in `ITypeKinds` nor in `UTypeKinds` nor in `JTypeKinds`. -/
def hasRs2 : Bool :=
  match Inst.getMnemo with
  | .I _ | .U _ | .J _ => false
  | _ => true

/-- The body the accessors share: the value if the assertion holds. -/
def field {w : ℕ} (has : Bool) (v : BitVec w) : Except Fault (BitVec w) :=
  if has then .ok v else .error .noSuchField

/-- `getRd`, an index below `RegNum`. -/
def getRd : Except Fault (BitVec 5) :=
  field Inst.hasRd (((Inst.getVal &&& 0x00000f80#32) >>> 7).setWidth 5)

/-- `getRs1`, an index below `RegNum`. -/
def getRs1 : Except Fault (BitVec 5) :=
  field Inst.hasRs1 (((Inst.getVal &&& 0x000f8000#32) >>> 15).setWidth 5)

/-- `getRs2`, an index below `RegNum`. -/
def getRs2 : Except Fault (BitVec 5) :=
  field Inst.hasRs2 (((Inst.getVal &&& 0x01f00000#32) >>> 20).setWidth 5)

/-- `ITypeKinds.count(getMnemo())`. -/
def isIType : Bool := match Inst.getMnemo with | .I _ => true | _ => false
/-- `STypeKinds.count(getMnemo())`. -/
def isSType : Bool := match Inst.getMnemo with | .S _ => true | _ => false
/-- `JTypeKinds.count(getMnemo())`. -/
def isJType : Bool := match Inst.getMnemo with | .J _ => true | _ => false
/-- `BTypeKinds.count(getMnemo())`. -/
def isBType : Bool := match Inst.getMnemo with | .B _ => true | _ => false
/-- `UTypeKinds.count(getMnemo())`. -/
def isUType : Bool := match Inst.getMnemo with | .U _ => true | _ => false

/-- `getIImm`. -/
def getIImm : Except Fault (BitVec 32) :=
  field Inst.isIType ((Inst.getVal &&& 0xfff00000#32) >>> 20)

/-- `getSImm`. -/
def getSImm : Except Fault (BitVec 32) :=
  field Inst.isSType ((Inst.getVal &&& 0xfe000000#32) >>> 20 ||| (Inst.getVal >>> 7 &&& 0x1f#32))

/-- `getJImm`. -/
def getJImm : Except Fault (BitVec 32) :=
  field Inst.isJType ((Inst.getVal &&& 0x80000000#32) >>> 11 ||| (Inst.getVal &&& 0xff000#32) |||
    (Inst.getVal >>> 9 &&& 0x800#32) ||| (Inst.getVal >>> 20 &&& 0x7fe#32))

/-- `getBImm`. -/
def getBImm : Except Fault (BitVec 32) :=
  field Inst.isBType ((Inst.getVal &&& 0x80000000#32) >>> 19 ||| (Inst.getVal &&& 0x80#32) <<< 4 |||
    (Inst.getVal >>> 20 &&& 0x7e0#32) ||| (Inst.getVal >>> 7 &&& 0x1e#32))

/-- `getUImm`. -/
def getUImm : Except Fault (BitVec 32) :=
  field Inst.isUType ((Inst.getVal &&& 0xfffff000#32) >>> 12)

end Instruction

/-- `CSR_INSTs.count(Mnemo)`. -/
def ITypeKinds.isCSR : ITypeKinds → Bool
  | .csrrw | .csrrs | .csrrc | .csrrwi | .csrrsi | .csrrci => true
  | _ => false

/-- `CSR_INSTs.count(getMnemo())`. -/
def Instruction.isCSR (Inst : Instruction) : Bool :=
  match Inst.getMnemo with
  | .I IT => IT.isCSR
  | _ => false

/-! ## Exceptions -/

/-- `Exception`. -/
inductive Exception where
  | InstructionAddressMisaligned
  | InstructionAccessFault
  | IllegalInstruction
  | Breakpoint
  | LoadAddressMisaligned
  | LoadAccessFault
  | StoreAMOAddressMisaligned
  | StoreAMOAccessFault
  | EnvironmentCallFromUMode
  | EnvironmentCallFromSMode
  | R0
  | EnvironmentCallFromMMode
  | InstructionPageFault
  | LoadPageFault
  | R1
  | StoreAMOPageFault
  deriving DecidableEq, Repr

/-- The value of the enumerator. -/
def Exception.cause : Exception → BitVec 32
  | .InstructionAddressMisaligned => 0
  | .InstructionAccessFault => 1
  | .IllegalInstruction => 2
  | .Breakpoint => 3
  | .LoadAddressMisaligned => 4
  | .LoadAccessFault => 5
  | .StoreAMOAddressMisaligned => 6
  | .StoreAMOAccessFault => 7
  | .EnvironmentCallFromUMode => 8
  | .EnvironmentCallFromSMode => 9
  | .R0 => 10
  | .EnvironmentCallFromMMode => 11
  | .InstructionPageFault => 12
  | .LoadPageFault => 13
  | .R1 => 14
  | .StoreAMOPageFault => 15

/-- `trap_val`. -/
def trap_val (E : Exception) (PC InstVal : BitVec 32) : Except Fault (BitVec 32) :=
  match E with
  | .InstructionAddressMisaligned | .InstructionAccessFault | .Breakpoint
  | .LoadAddressMisaligned | .LoadAccessFault
  | .StoreAMOAddressMisaligned | .StoreAMOAccessFault => .ok PC
  | .IllegalInstruction => .ok InstVal
  | .InstructionPageFault | .LoadPageFault | .StoreAMOPageFault => .error .unimplemented
  | _ => .ok 0

end RipSim
