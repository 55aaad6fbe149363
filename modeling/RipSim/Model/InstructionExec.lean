import RipSim.Model.Decoder

/-!
# Executing one instruction

`Instructions.cpp`: the six overrides of `Instruction::exec`, which read and write
the machine by reference.  `Hart` bundles those references; `cerr` is the part of
the standard error stream that the console address produces.

Two liberties of the source are fixed here.  A sum of two `RegVal`s wraps.  A
shift by 32 or more, which the language leaves undefined and which only an
encoding outside the base instruction set can ask for, takes the low five bits of
its count, as the machine instruction behind it does.
-/

namespace RipSim

/-- What `Instruction::exec` is given by reference, and the console output. -/
@[ext] structure Hart where
  /-- `PC`. -/
  PC : Address
  /-- `GPRegs`. -/
  GPRegs : GPRegisters
  /-- `Mem`. -/
  Mem : Memory
  /-- `States`. -/
  States : CSRs
  /-- `Mode`. -/
  Mode : ModeKind
  /-- The characters written for stores to `0x10000000`. -/
  cerr : List Byte

/-- The console address. -/
def consoleAd : BitVec 32 := 0x10000000

/-- A `bool` converted to `RegVal`. -/
def ofBool (b : Bool) : RegVal := (BitVec.ofBool b).setWidth 32

/-- The `!` of the source on a `RegVal`, a logical negation. -/
def lnot (v : RegVal) : RegVal := ofBool (v == 0)

/-- The value `RInstruction::exec` writes to `Rd`.  `RIPSimulator::exec` has the
same expressions over its latched operands. -/
def RTypeKinds.eval (RT : RTypeKinds) (rs1 rs2 : RegVal) : RegVal :=
  match RT with
  | .add => rs1 + rs2
  | .sub => rs1 - rs2
  | .sll => rs1 <<< (rs2 &&& 0b11111#32).toNat
  | .slt => ofBool (rs1.slt rs2)
  | .sltu => ofBool (rs1.ult rs2)
  | .xor => rs1 ^^^ rs2
  | .srl => rs1 >>> (rs2 &&& 0b11111#32).toNat
  | .sra => rs1.sshiftRight (rs2 &&& 0b11111#32).toNat
  | .or => rs1 ||| rs2
  | .and => rs1 &&& rs2
  | .mul => (rs1.signExtend 64 * rs2.signExtend 64 &&& 0xffffffff#64).setWidth 32
  | .mulh => ((rs1.signExtend 64 * rs2.signExtend 64).sshiftRight 32).setWidth 32
  | .mulhsu => ((rs1.signExtend 64 * rs2.setWidth 64) >>> 32).setWidth 32
  | .mulhu => ((rs1.setWidth 64 * rs2.setWidth 64) >>> 32).setWidth 32
  | .div =>
    if rs2 = 0 then -1
    else if rs1 = 0x80000000 ∧ rs2 = -1 then 0x80000000
    else rs1.sdiv rs2
  | .divu => if rs2 = 0 then 0xffffffff else rs1.udiv rs2
  | .rem =>
    if rs2 = 0 then rs1
    else if rs1 = 0x80000000 ∧ rs2 = -1 then 0
    else rs1.srem rs2
  | .remu => if rs2 = 0 then rs1 else rs1.umod rs2

/-- The condition `BInstruction::exec` tests.  `RIPSimulator::exec` computes `Cond`
by the same comparisons. -/
def BTypeKinds.cond (BT : BTypeKinds) (rs1 rs2 : RegVal) : Bool :=
  match BT with
  | .beq => rs1 == rs2
  | .bne => rs1 != rs2
  | .blt => rs1.slt rs2
  | .bge => !rs1.slt rs2
  | .bltu => rs1.ult rs2
  | .bgeu => !rs1.ult rs2

namespace Hart

variable (h : Hart)

/-- `GPRegs.write(Rd, v); PC += 4;` -/
def writeRd (Rd : BitVec 5) (v : RegVal) : Hart :=
  { h with GPRegs := h.GPRegs.write Rd v, PC := h.PC + 4 }

/-- `States.write(CA, cv); GPRegs.write(Rd, v); PC += 4;` -/
def writeCSRRd (CA : CSRAddress) (cv : RegVal) (Rd : BitVec 5) (v : RegVal) : Hart :=
  { h with States := h.States.write CA cv, GPRegs := h.GPRegs.write Rd v, PC := h.PC + 4 }

/-- The `mret` branch of `IInstruction::exec`.  The write that should clear MPREV
combines the *address* `MSTATUS`, and the last write replaces it in any case. -/
def mret : Option Exception × Hart :=
  let MSTATUSVal := h.States.read MSTATUS
  let h := { h with PC := (h.States.read MEPC).signExtend 64 }
  let finish (h : Hart) : Option Exception × Hart :=
    let MPIE := MSTATUSVal.getLsbD 7
    let ResVal := (MSTATUSVal &&& 0xfffffff7#32) ||| ofBool MPIE <<< 3
    let ResVal := ResVal ||| 0b10000000#32
    let ResVal := ResVal &&& 0xffffe7ff#32
    (none, { h with States := h.States.write MSTATUS ResVal })
  let clear := h.States.write MSTATUS (MSTATUS.setWidth 32 &&& 0xfffdffff#32)
  match ModeKind.ofMPP MSTATUSVal with
  | .User => finish { h with States := clear }
  | .Supervisor => finish { h with States := clear, Mode := .Supervisor }
  | .Machine => finish { h with Mode := .Machine }
  | _ => (some .IllegalInstruction, h)

/-- The exception of an `ecall`. -/
def ecallException : ModeKind → Exception
  | .User => .EnvironmentCallFromUMode
  | .Supervisor => .EnvironmentCallFromSMode
  | .Machine => .EnvironmentCallFromMMode
  | _ => .IllegalInstruction

/-- `IInstruction::exec`. -/
def execI (IT : ITypeKinds) (Rd Rs1 : BitVec 5) (Imm : BitVec 12) :
    Except Fault (Option Exception × Hart) :=
  let ImmI := Imm.signExtend 32
  let rs1 := h.GPRegs Rs1
  let CA : CSRAddress := Imm
  let CV := h.States.read CA
  let ZImm := Rs1.setWidth 32
  let Ad : Address := (rs1 + ImmI).signExtend 64
  match IT with
  | .addi => .ok (none, h.writeRd Rd (rs1 + ImmI))
  | .slti => .ok (none, h.writeRd Rd (ofBool (rs1.slt ImmI)))
  | .sltiu => .ok (none, h.writeRd Rd (ofBool (rs1.ult ImmI)))
  | .xori => .ok (none, h.writeRd Rd (rs1 ^^^ ImmI))
  | .ori => .ok (none, h.writeRd Rd (rs1 ||| ImmI))
  | .andi => .ok (none, h.writeRd Rd (rs1 &&& ImmI))
  | .jalr =>
    .ok (none, { h with
      PC := ((rs1 + ImmI) &&& ~~~1#32).signExtend 64
      GPRegs := h.GPRegs.write Rd ((h.PC + 4).setWidth 32) })
  | .lb => do
    let V ← h.Mem.readByte Ad
    return (none, h.writeRd Rd (V.signExtend 32))
  | .lh => do
    let V ← h.Mem.readHalfWord Ad
    return (none, h.writeRd Rd (V.signExtend 32))
  | .lw => do
    let V ← h.Mem.readWord Ad
    return (none, h.writeRd Rd V)
  | .lbu => do
    let V ← h.Mem.readByte Ad
    return (none, h.writeRd Rd (V.setWidth 32))
  | .lhu => do
    let V ← h.Mem.readHalfWord Ad
    return (none, h.writeRd Rd (V.setWidth 32))
  | .slli => .ok (none, h.writeRd Rd (rs1 <<< (Imm.toNat % 32)))
  | .srli => .ok (none, h.writeRd Rd (rs1 >>> (Imm.toNat % 32)))
  | .srai => .ok (none, h.writeRd Rd (rs1.sshiftRight (Imm.toNat % 32)))
  | .csrrw => .ok (none, h.writeCSRRd CA rs1 Rd CV)
  | .csrrs => .ok (none, h.writeCSRRd CA (rs1 ||| CV) Rd CV)
  | .csrrc => .ok (none, h.writeCSRRd CA (rs1 &&& lnot CV) Rd CV)
  | .csrrwi => .ok (none, h.writeCSRRd CA ZImm Rd CV)
  | .csrrsi => .ok (none, h.writeCSRRd CA (CV ||| ZImm) Rd CV)
  | .csrrci => .ok (none, h.writeCSRRd CA (CV &&& lnot ZImm) Rd CV)
  | .ecall => .ok (some (ecallException h.Mode), h)
  | .ebreak => .ok (some .Breakpoint, h)
  | .uret => .error .unimplemented
  | .sret => .error .unimplemented
  | .mret => .ok h.mret
  | .ext => .ok (some .R0, { h with PC := h.PC + 4 })
  | .extx => .ok (some .R1, { h with PC := h.PC + 4 })

/-- `RInstruction::exec`. -/
def execR (RT : RTypeKinds) (Rd Rs1 Rs2 : BitVec 5) : Except Fault (Option Exception × Hart) :=
  .ok (none, h.writeRd Rd (RT.eval (h.GPRegs Rs1) (h.GPRegs Rs2)))

/-- `UInstruction::exec`. -/
def execU (UT : UTypeKinds) (Rd : BitVec 5) (Imm : BitVec 20) :
    Except Fault (Option Exception × Hart) :=
  let ImmI := Imm.signExtend 32
  match UT with
  | .lui => .ok (none, h.writeRd Rd (ImmI <<< 12))
  | .auipc => .ok (none, h.writeRd Rd ((h.PC + (ImmI <<< 12).signExtend 64).setWidth 32))

/-- `JInstruction::exec`. -/
def execJ (JT : JTypeKinds) (Rd : BitVec 5) (Imm : BitVec 21) :
    Except Fault (Option Exception × Hart) :=
  match JT with
  | .jal =>
    .ok (none, { h with
      GPRegs := h.GPRegs.write Rd ((h.PC + 4).setWidth 32)
      PC := h.PC + (Imm.signExtend 32).signExtend 64 })

/-- `SInstruction::exec`: the console first, then the mode, then the store. -/
def execS (ST : STypeKinds) (Rs1 Rs2 : BitVec 5) (Imm : BitVec 12) :
    Except Fault (Option Exception × Hart) :=
  let Ad : Address := (h.GPRegs Rs1 + Imm.signExtend 32).signExtend 64
  let rs2 := h.GPRegs Rs2
  if Ad.setWidth 32 = consoleAd then
    .ok (none, { h with cerr := h.cerr ++ [rs2.setWidth 8], PC := h.PC + 4 })
  else if h.Mode = .Epilogue then .ok (none, { h with PC := h.PC + 4 })
  else do
    let Mem ← match ST with
      | .sb => h.Mem.writeByte Ad (rs2.setWidth 8)
      | .sh => h.Mem.writeHalfWord Ad (rs2.setWidth 16)
      | .sw => h.Mem.writeWord Ad rs2
    return (none, { h with Mem := Mem, PC := h.PC + 4 })

/-- `BInstruction::exec`. -/
def execB (BT : BTypeKinds) (Rs1 Rs2 : BitVec 5) (Imm : BitVec 13) :
    Except Fault (Option Exception × Hart) :=
  .ok (none, { h with
    PC := if BT.cond (h.GPRegs Rs1) (h.GPRegs Rs2) then
        h.PC + (Imm.signExtend 32).signExtend 64
      else h.PC + 4 })

end Hart

/-- `Instruction::exec`, the virtual call. -/
def Instruction.exec (I : Instruction) (h : Hart) : Except Fault (Option Exception × Hart) :=
  match I with
  | IInstruction IT Rd Rs1 Imm => h.execI IT Rd Rs1 Imm
  | RInstruction RT Rd Rs1 Rs2 => h.execR RT Rd Rs1 Rs2
  | UInstruction UT Rd Imm => h.execU UT Rd Imm
  | JInstruction JT Rd Imm => h.execJ JT Rd Imm
  | SInstruction ST Rs1 Rs2 Imm => h.execS ST Rs1 Rs2 Imm
  | BInstruction BT Rs1 Rs2 Imm => h.execB BT Rs1 Rs2 Imm

end RipSim
