import RipSim.Model.Simulator
import RipSim.Model.BranchPredictor
import RipSim.Model.PipelineStates

/-!
# The pipeline simulator

`RIPSimulator.cpp`.  A cycle runs the stages from write back down to decode, so
that a stage sees what the older instructions latched in this very cycle, and then
resolves the next PC.

Three things write the next PC of a cycle: `exec` and `handleException` assign
`PC` themselves, `decode` leaves a predicted target with the predictor, and `exec`
leaves a branch target in the pipeline registers.  The order in which
`proceedNStage` reads the last two is the only priority there is.
-/

namespace RipSim

/-- `RIPSimulator`.  `BP` null is `none`, and so is `Stats` null. -/
structure RIPSimulator (σ : Type) where
  Mem : Memory
  PC : Address
  States : CSRs
  Mode : ModeKind
  NumStages : BitVec 32
  PS : PipelineStates
  GPRegs : GPRegisters
  BP : Option (BPBase σ)
  Stats : Option Statistics
  /-- The characters written for the console address. -/
  cerr : List Byte

/-- `signExtend(Imm, BitWidth)`: bits from `BitWidth` on are set when bit
`BitWidth - 1` is, and are otherwise left as they are. -/
def signExtend (Imm : BitVec 32) (BitWidth : ℕ) : RegVal :=
  if Imm.getLsbD (BitWidth - 1) then (-1#32 ^^^ (1#32 <<< BitWidth - 1)) ||| Imm else Imm

namespace RIPSimulator

variable {σ : Type}

/-- The constructor. -/
def new (is : List Byte) (BP : Option (BPBase σ)) (DRAMSize : Address) (Stats : Option Statistics)
    (DRAMBase : Address) (SPIValue : Option Address)
    (DERs1Val : RegVal) (PCs : Staged Address) : Except Fault (RIPSimulator σ) := do
  let Mem ← loadImage is (Memory.new DRAMSize DRAMBase) DRAMBase
  return {
    Mem := Mem
    PC := DRAMBase
    States := CSRs.new
    Mode := .Machine
    NumStages := 0
    PS := PipelineStates.new DERs1Val PCs
    GPRegs := GPRegisters.new DRAMSize DRAMBase SPIValue
    BP := BP
    Stats := Stats
    cerr := [] }

variable (S : RIPSimulator σ)

/-! ## Write back -/

/-- `RIPSimulator::writeback`, with the null check of its caller. -/
def writeback : Except Fault (RIPSimulator σ) :=
  match S.PS.Insts.WB with
  | none => .ok S
  | some Inst =>
    if Inst.isBType || Inst.isSType then .ok { S with PS := { S.PS with WBImmVal := 0 } }
    else if Inst.isCSR then do
      let RdVal := S.PS.MARdVal
      let CV := S.PS.MACSRVal
      let CSRAddr : CSRAddress := (S.PS.MAImmVal &&& 0xfff#32).setWidth 12
      let Rd ← Inst.getRd
      return { S with
        States := S.States.write CSRAddr CV
        GPRegs := S.GPRegs.write Rd RdVal
        PS := { S.PS with WBImmVal := 0 } }
    else do
      let Res := S.PS.MARdVal
      let Rd ← Inst.getRd
      return { S with
        GPRegs := S.GPRegs.write Rd Res
        PS := { S.PS with WBImmVal := Res } }

/-! ## Memory access -/

/-- What `memoryaccess` does after its two mode tests: the memory and `Res`. -/
def access (M : Memory) (Inst : Instruction) (MARdVal Rs2Val : RegVal) :
    Except Fault (Memory × RegVal) :=
  let Ad : Address := MARdVal.setWidth 64
  match Inst.getMnemo with
  | .S .sw => do
    let M ← M.writeWord Ad Rs2Val
    return (M, MARdVal)
  | .S .sh => do
    let M ← M.writeHalfWord Ad (Rs2Val.setWidth 16)
    return (M, MARdVal)
  | .S .sb => do
    let M ← M.writeByte Ad (Rs2Val.setWidth 8)
    return (M, MARdVal)
  | .I .lw => do
    -- the only access whose address is not cast to unsigned
    let V ← M.readWord (MARdVal.signExtend 64)
    return (M, V)
  | .I .lh => do
    let V ← M.readHalfWord Ad
    return (M, V.signExtend 32)
  | .I .lbu => do
    let V ← M.readByte Ad
    return (M, V.setWidth 32)
  | .I .lhu => do
    let V ← M.readHalfWord Ad
    return (M, V.setWidth 32)
  | .I .lb => do
    let V ← M.readByte Ad
    return (M, V.signExtend 32)
  | _ => .ok (M, MARdVal)

/-- `RIPSimulator::memoryaccess`, with the null check of its caller. -/
def memoryaccess : Except Fault (RIPSimulator σ) :=
  match S.PS.Insts.MA with
  | none => .ok S
  | some Inst =>
    let MARdVal := S.PS.EXRdVal
    let latch (Res : RegVal) : PipelineStates :=
      { S.PS with MARdVal := Res, MACSRVal := S.PS.EXCSRVal, MAImmVal := S.PS.EXImmVal }
    if MARdVal = consoleAd then
      .ok { S with PS := latch MARdVal, cerr := S.cerr ++ [MARdVal.setWidth 8] }
    else if S.Mode = .Epilogue then .ok { S with PS := latch MARdVal }
    else do
      let (Mem, Res) ← access S.Mem Inst MARdVal S.PS.EXRs2Val
      return { S with PS := latch Res, Mem := Mem }

/-! ## Execute -/

/-- The three assignments that end `exec`. -/
def latchEX (RdVal CV : RegVal) : RIPSimulator σ :=
  { S with PS := { S.PS with EXRdVal := RdVal, EXCSRVal := CV, EXImmVal := S.PS.DEImmVal } }

/-- `PS.setBranchPC(nextPC); PS.setInvalid(DE); PS.setInvalid(IF);` -/
def branchTo (nextPC : Address) : RIPSimulator σ :=
  { S with PS := (S.PS.setBranchPC nextPC).setInvalidDEIF }

/-- The load-use test: the instruction in DE reads the load's `Rd`. -/
def loadUse (Inst : Instruction) : Except Fault Bool :=
  match S.PS.Insts.DE with
  | none => .ok false
  | some DE =>
    if Inst.hasRd then do
      let Rd ← Inst.getRd
      let m1 ← if DE.hasRs1 then (Rd == ·) <$> DE.getRs1 else pure false
      let m2 ← if DE.hasRs2 then (Rd == ·) <$> DE.getRs2 else pure false
      return m1 || m2
    else .ok false

/-- `PS[Stage] && CSR_INSTs.count(PS[Stage]->getMnemo()) && (Ad == PS[Stage]->getIImm())`
for the instruction `I` of that stage. -/
def isCSRAt (I : Option Instruction) (Ad : BitVec 32) : Except Fault Bool :=
  match I with
  | none => .ok false
  | some I => if I.isCSR then (Ad == ·) <$> I.getIImm else pure false

/-- The `mret` branch of `exec`. -/
def execMret : Except Fault (Option Exception × RIPSimulator σ) := do
  let fwdMEPC ← isCSRAt S.PS.Insts.MA (MEPC.setWidth 32)
  let nextPC := if fwdMEPC then S.PS.MACSRVal else S.States.read MEPC
  let S := S.branchTo (nextPC.signExtend 64)
  let fwdMSTATUS ← isCSRAt S.PS.Insts.MA (MSTATUS.setWidth 32)
  let MSTATUSVal := if fwdMSTATUS then S.PS.MACSRVal else S.States.read MSTATUS
  let finish (S : RIPSimulator σ) : RIPSimulator σ :=
    let MPIEVal := MSTATUSVal.getLsbD 7
    let States := ((S.States.setMIE MPIEVal).setMPIE true).setMPP .User
    { S with States := States }.latchEX 0 0
  match ModeKind.ofMPP MSTATUSVal with
  | .User => return (none, finish { S with States := S.States.setMPREV false })
  | .Supervisor =>
    return (none, finish { S with States := S.States.setMPREV false, Mode := .Supervisor })
  | .Machine => return (none, finish { S with Mode := .Machine })
  | _ => return (some .IllegalInstruction, S)

/-- The I-type branches of `exec`. -/
def execI (Inst : Instruction) (IT : ITypeKinds) :
    Except Fault (Option Exception × RIPSimulator σ) :=
  let Rs1 := S.PS.DERs1Val
  let Imm := S.PS.DEImmVal
  let CSR := S.PS.DECSRVal
  match IT with
  | .addi => .ok (none, S.latchEX (Rs1 + Imm) 0)
  | .slti => .ok (none, S.latchEX (ofBool (Rs1.slt Imm)) 0)
  | .sltiu => .ok (none, S.latchEX (ofBool (Rs1.ult Imm)) 0)
  | .xori => .ok (none, S.latchEX (Rs1 ^^^ Imm) 0)
  | .ori => .ok (none, S.latchEX (Rs1 ||| Imm) 0)
  | .andi => .ok (none, S.latchEX (Rs1 &&& Imm) 0)
  | .jalr =>
    .ok (none, (S.branchTo ((Rs1 + signExtend Imm 12).signExtend 64)).latchEX
      ((S.PS.PCs.EX + 4).setWidth 32) 0)
  | .lb | .lh | .lw | .lbu | .lhu => do
    let use ← S.loadUse Inst
    let PS := if use then S.PS.setStallDEIF else S.PS
    return (none, { S with PS := PS }.latchEX (Rs1 + Imm) 0)
  | .slli => .ok (none, S.latchEX (Rs1 <<< (Imm.toNat % 32)) 0)
  | .srli => .ok (none, S.latchEX (Rs1 >>> (Imm.toNat % 32)) 0)
  | .srai => .ok (none, S.latchEX (Rs1.sshiftRight (Imm.toNat % 32)) 0)
  | .csrrw | .csrrwi => .ok (none, S.latchEX CSR Rs1)
  | .csrrs | .csrrsi => .ok (none, S.latchEX CSR (CSR ||| Rs1))
  | .csrrc | .csrrci => .ok (none, S.latchEX CSR (CSR &&& ~~~Rs1))
  | .ecall => .ok (some (Hart.ecallException S.Mode), S)
  | .ebreak => .ok (some .Breakpoint, S)
  | .uret | .sret => .error .unimplemented
  | .mret => S.execMret
  | .ext => .ok (some .R0, S)
  | .extx => .ok (some .R1, S)

/-- The branch statistics CSR that `exec` increments. -/
def countBranch (States : CSRs) (Pred Cond : Bool) : CSRs :=
  match Pred, Cond with
  | true, true => States.incBPTP
  | true, false => States.incBPFP
  | false, true => States.incBPFN
  | false, false => States.incBPTN

/-- The B-type branch of `exec`. -/
def execB [BranchPredictor σ] (BT : BTypeKinds) : RIPSimulator σ :=
  let Cond := BT.cond S.PS.DERs1Val S.PS.DERs2Val
  let NextPC := S.PS.PCs.EX + S.PS.DEImmVal.signExtend 64
  match S.BP with
  | none =>
    (if Cond then { S with PC := NextPC, PS := S.PS.setInvalidDEIF } else S).latchEX 0 0
  | some B =>
    let Pred := B.PrevPred
    let S' := if Pred ^^ Cond then S.branchTo (if Cond then NextPC else S.PS.PCs.EX + 4) else S
    { S' with
      States := countBranch S.States Pred Cond
      BP := some ((B.StatsUpdate Cond Pred).Learn Cond S.PS.PCs.EX) }.latchEX 0 0

/-- `RIPSimulator::exec`, with the null check of its caller. -/
def exec [BranchPredictor σ] : Except Fault (Option Exception × RIPSimulator σ) :=
  match S.PS.Insts.EX with
  | none => .ok (none, S)
  | some Inst =>
    let PC := S.PS.PCs.EX
    let Rs1 := S.PS.DERs1Val
    let Rs2 := S.PS.DERs2Val
    let Imm := S.PS.DEImmVal
    match Inst.getMnemo with
    | .I IT => S.execI Inst IT
    | .R RT => .ok (none, S.latchEX (RT.eval Rs1 Rs2) 0)
    | .J .jal =>
      .ok (none, (S.branchTo (PC + (signExtend Imm 20).signExtend 64)).latchEX
        ((PC + 4).setWidth 32) 0)
    | .B BT => .ok (none, S.execB BT)
    | .S _ => .ok (none, { S with PS := { S.PS with EXRs2Val := Rs2 } }.latchEX (Rs1 + Imm) 0)
    | .U .lui => .ok (none, S.latchEX (Imm <<< 12) 0)
    | .U .auipc => .ok (none, S.latchEX ((PC + (Imm <<< 12).signExtend 64).setWidth 32) 0)

/-! ## Decode -/

/-- `PS[Stage] && PS[Stage]->hasRd() && Rs == PS[Stage]->getRd()` for the instruction
`I` of that stage. -/
def isRdOf (I : Option Instruction) (Rs : BitVec 5) : Except Fault Bool :=
  match I with
  | none => .ok false
  | some I => if I.hasRd then (Rs == ·) <$> I.getRd else pure false

/-- `forwardRs1OnDE` and `forwardRs2OnDE`, given the field they compare: the value
forwarded from EX, else from MA, if either holds an instruction with that `Rd`. -/
def forwardOnDE (PS : PipelineStates) (Rs : BitVec 5) : Except Fault (Option RegVal) := do
  if ← isRdOf PS.Insts.EX Rs then return some PS.EXRdVal
  else if ← isRdOf PS.Insts.MA Rs then return some PS.MARdVal
  else return none

/-- `forwardCSROnDE`, for a csr instruction whose address field is `A`. -/
def forwardCSROnDE (PS : PipelineStates) (A : BitVec 32) : Except Fault (Option RegVal) := do
  if ← isCSRAt PS.Insts.EX A then return some PS.EXCSRVal
  else if ← isCSRAt PS.Insts.MA A then return some PS.MACSRVal
  else return none

/-- A csr instruction with an immediate instead of `Rs1`. -/
def isCSRImm (Inst : Instruction) : Bool :=
  match Inst.getMnemo with
  | .I .csrrwi | .I .csrrsi | .I .csrrci => true
  | _ => false

/-- The access to `Rs1` of `decode`. -/
def readRs1 (Inst : Instruction) (PS : PipelineStates) : Except Fault PipelineStates :=
  if isCSRImm Inst then do
    let Rs1 ← Inst.getRs1
    return { PS with DERs1Val := Rs1.setWidth 32 }
  else if Inst.hasRs1 then do
    let Rs1 ← Inst.getRs1
    let fwd ← forwardOnDE PS Rs1
    return { PS with DERs1Val := fwd.getD (S.GPRegs Rs1) }
  else .ok PS

/-- The access to the CSR of `decode`. -/
def readCSR (Inst : Instruction) (PS : PipelineStates) : Except Fault PipelineStates :=
  if Inst.isCSR then do
    let A ← Inst.getIImm
    let fwd ← forwardCSROnDE PS A
    return { PS with DECSRVal := fwd.getD (S.States.read (A.setWidth 12)) }
  else .ok PS

/-- The access to `Rs2` of `decode`. -/
def readRs2 (Inst : Instruction) (PS : PipelineStates) : Except Fault PipelineStates :=
  if Inst.hasRs2 then do
    let Rs2 ← Inst.getRs2
    let fwd ← forwardOnDE PS Rs2
    return { PS with DERs2Val := fwd.getD (S.GPRegs Rs2) }
  else .ok PS

/-- The immediate `decode` latches. -/
def immediate (Inst : Instruction) : Except Fault RegVal :=
  match Inst.getMnemo with
  | .I _ => (signExtend · 12) <$> Inst.getIImm
  | .S _ => (signExtend · 12) <$> Inst.getSImm
  | .J _ => (signExtend · 20) <$> Inst.getJImm
  | .B _ => (signExtend · 13) <$> Inst.getBImm
  | .U _ => (signExtend · 20) <$> Inst.getUImm
  | .R _ => .ok 0

/-- The branch prediction of `decode`. -/
def predict [BranchPredictor σ] (Imm : RegVal) : RIPSimulator σ :=
  match S.BP with
  | none => S
  | some B =>
    let (pred, B) := B.Predict S.PS.PCs.DE
    let B := B.setPrevPred pred
    if pred then
      { S with
        BP := some (B.setBranchPredPC (S.PS.PCs.DE + Imm.signExtend 64))
        PS := S.PS.setInvalidIF }
    else { S with BP := some B }

/-- `RIPSimulator::decode`, with the null and stall check of its caller. -/
def decode [BranchPredictor σ] : Except Fault (RIPSimulator σ) :=
  match S.PS.Insts.DE with
  | none => .ok S
  | some Inst =>
    if S.PS.StalledStages.DE then .ok S
    else do
      let PS ← S.readRs1 Inst S.PS
      let PS ← S.readCSR Inst PS
      let PS ← S.readRs2 Inst PS
      let Imm ← immediate Inst
      let S := { S with PS := PS }
      let S := if Inst.isBType then S.predict Imm else S
      return { S with PS := { S.PS with DEImmVal := Imm } }

/-! ## Exceptions -/

/-- The part of `handleException` that enters a trap.  `MSTATUSVal` is forwarded
and then read again. -/
def trapEntry (E : Exception) : Except Fault (RIPSimulator σ) := do
  let ExceptionPC := S.PS.PCs.EX
  let PrevMode := S.Mode
  let I := S.PS.Insts
  let fwdEX ← isCSRAt I.EX (MTVEC.setWidth 32)
  let fwdMA ← isCSRAt I.MA (MTVEC.setWidth 32)
  let VecVal :=
    if fwdEX then S.PS.EXCSRVal
    else if fwdMA then S.PS.MACSRVal
    else S.States.read MTVEC
  let PC := (VecVal &&& ~~~1#32).signExtend 64
  let States := S.States.write MEPC ((ExceptionPC &&& ~~~1#64).setWidth 32)
  let States := States.write MCAUSE E.cause
  let tv ← trap_val E (ExceptionPC.setWidth 32) ((I.EX.map Instruction.getVal).getD 0)
  let States := States.write MTVAL tv
  let MSTATUSVal := States.read MSTATUS
  let MIE := MSTATUSVal.getLsbD 3
  let States := ((States.setMPIE MIE).setMIE false).setMPP PrevMode
  return { S with PC := PC, States := States }

/-- `RIPSimulator::handleException`: whether the run goes on, and the state. -/
def handleException (E : Exception) : Except Fault (Bool × RIPSimulator σ) :=
  let S := { S with PS := S.PS.setInvalidDEIF }
  if E = .Breakpoint then .ok (false, S)
  else if E = .R0 then .ok (false, S)
  else if E = .R1 then .ok (true, { S with Mode := .Epilogue })
  else if S.Mode = .Machine then do
    let S ← S.trapEntry E
    return (true, S)
  else .error .nonMachineMode

/-! ## A cycle -/

/-- The fetch that opens a cycle, or the shift of a stalled pipeline. -/
def advance : Except Fault (RIPSimulator σ) :=
  if S.PS.StalledStages.IF then
    .ok { S with PS := ((S.PS.proceedPC (-1)).proceed none).clearStall }
  else do
    let w ← S.Mem.readWord S.PC
    let InstPtr := Decoder.decode w
    return { S with
      PC := if InstPtr.isSome then S.PC + 4 else S.PC
      PS := (S.PS.proceedPC S.PC).proceed InstPtr }

/-- The choice of the next PC: a branch target beats a predicted target, and both
beat what `PC` holds. -/
def redirect : RIPSimulator σ :=
  let (NextPC, B) : Option Address × Option (BPBase σ) :=
    match S.BP with
    | none => (none, none)
    | some B => (B.takeBranchPredPC.1, some B.takeBranchPredPC.2)
  let (BranchTarget, PS) := S.PS.takeBranchPC
  { S with PC := (BranchTarget.or NextPC).getD S.PC, PS := PS, BP := B }

/-- What ends a cycle: bubbles, the two cycle counters, the statistics. -/
def finish : RIPSimulator σ :=
  let PS := S.PS.fillBubble
  { S with
    PS := PS
    NumStages := S.NumStages + 1
    States := S.States.incCYCLE
    Stats := match PS.Insts.EX with
      | some I => S.Stats.map (·.count I)
      | none => S.Stats }

/-- How an iteration of the loop of `proceedNStage` ends: it goes on, it breaks
because the pipeline is empty, or it returns because of an exception. -/
inductive Exit where
  | next
  | empty
  | stop
  deriving DecidableEq, Repr

/-- The stages of a cycle, from write back to decode. -/
def stages [BranchPredictor σ] : Except Fault (Option Exception × RIPSimulator σ) := do
  let S ← S.writeback
  let S ← S.memoryaccess
  let (Except, S) ← S.exec
  let S ← S.decode
  return (Except, S)

/-- One iteration of the loop of `RIPSimulator::proceedNStage`. -/
def cycle [BranchPredictor σ] : Except Fault (Exit × RIPSimulator σ) := do
  let S ← S.advance
  if S.PS.isEmpty then return (.empty, S)
  else
    let (E, S) ← S.stages
    match E with
    | none => return (.next, S.redirect.finish)
    | some E =>
      let (goesOn, S) ← S.handleException E
      if goesOn then return (.next, S.redirect.finish) else return (.stop, S)

/-- `RIPSimulator::proceedNStage`. -/
def proceedNStage [BranchPredictor σ] (S : RIPSimulator σ) :
    ℕ → Except Fault (Bool × RIPSimulator σ)
  | 0 => .ok (S.PS.isEmpty, S)
  | N + 1 => do
    match ← S.cycle with
    | (.next, S) => S.proceedNStage N
    | (.empty, S) => return (S.PS.isEmpty, S)
    | (.stop, S) => return (true, S)

/-- The loop of `RIPSimulator::run`, for at most `fuel` cycles: `none` if it is
still running then. -/
def runLoop [BranchPredictor σ] (EndAddress : Option Address) :
    ℕ → RIPSimulator σ → Except Fault (Option (RIPSimulator σ))
  | 0, _ => .ok none
  | fuel + 1, S => do
    let (stopped, S) ← S.proceedNStage 1
    if stopped then return some S
    else if EndAddress = some S.PC then return some S
    else runLoop EndAddress fuel S

/-- `RIPSimulator::run`. -/
def run [BranchPredictor σ] (StartAddress EndAddress : Option Address) (fuel : ℕ) :
    Except Fault (Option (RIPSimulator σ)) :=
  runLoop EndAddress fuel { S with PC := StartAddress.getD S.PC }

end RIPSimulator

end RipSim
