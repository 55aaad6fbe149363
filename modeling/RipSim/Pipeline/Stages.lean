import RipSim.Encoding.Fields

/-!
# The stages in closed form

The stage functions of `RIPSimulator` are monadic because an accessor can fail its
assertion, a memory access can fault and `exec` can meet an unimplemented
mnemonic.  The accessors never do fail, so `writeback` and `decode` are total, and
so is `exec` on every *plain* instruction: one that is neither a system nor a
custom instruction.  For these this file gives the resulting state outright:

* `writeback_eq`: `writeback` is `written`;
* `exec_eq`: `exec` of a plain instruction is `executed`;
* `decode_eq`: `decode` is `decoded`.

`executed` and `decoded` name what the later proofs reason about: the value
latched, the redirect requested, the operand forwarded.
-/

namespace RipSim

theorem setWidth_beq_setWidth {v w : ℕ} (h : v ≤ w) (a b : BitVec v) :
    (a.setWidth w == b.setWidth w) = (a == b) := by
  rw [Bool.eq_iff_iff, beq_iff_eq, beq_iff_eq]
  constructor
  · intro hab
    have h' := congrArg (BitVec.setWidth v) hab
    rwa [BitVec.setWidth_setWidth_of_le _ h, BitVec.setWidth_setWidth_of_le _ h,
      BitVec.setWidth_eq, BitVec.setWidth_eq] at h'
  · rintro rfl
    rfl

/-! ## Classes of instructions -/

namespace ITypeKinds

/-- The five loads. -/
def isLoad : ITypeKinds → Bool
  | .lb | .lh | .lw | .lbu | .lhu => true
  | _ => false

/-- Neither a system instruction nor a custom one. -/
def isPlain : ITypeKinds → Bool
  | .ecall | .ebreak | .uret | .sret | .mret | .ext | .extx => false
  | _ => true

end ITypeKinds

namespace Instruction

/-- One of the five loads. -/
def isLoad : Instruction → Bool
  | IInstruction IT _ _ _ => IT.isLoad
  | _ => false

/-- Neither a system instruction nor a custom one. -/
def isPlain : Instruction → Bool
  | IInstruction IT _ _ _ => IT.isPlain
  | _ => true

/-- `jal` or `jalr`. -/
def isJump : Instruction → Bool
  | IInstruction .jalr _ _ _ => true
  | JInstruction .. => true
  | _ => false

/-- The outcome of a branch on the operands. -/
def taken (I : Instruction) (Rs1 Rs2 : RegVal) : Bool :=
  match I with
  | BInstruction BT _ _ _ => BT.cond Rs1 Rs2
  | _ => false

theorem isBType_or_isSType (I : Instruction) : (I.isBType || I.isSType) = !I.hasRd := by
  cases I <;> rfl

theorem isCSR_of_not_hasRd {I : Instruction} (h : I.hasRd = false) : I.isCSR = false := by
  cases I with
  | IInstruction => exact absurd h.symm Bool.false_ne_true
  | _ => rfl

theorem isPlain_of_isLoad {I : Instruction} (h : I.isLoad = true) : I.isPlain = true := by
  cases I with
  | IInstruction IT => cases IT <;> first | rfl | exact absurd h Bool.false_ne_true
  | _ => rfl

theorem getIImm_of_isCSR {I : Instruction} (h : I.isCSR = true) :
    I.getIImm = .ok (I.csrAddr.setWidth 32) := by
  cases I with
  | IInstruction IT Rd Rs1 Imm => exact getIImm_eq IT Rd Rs1 Imm
  | _ => exact absurd h Bool.false_ne_true

/-! ## What `exec` latches -/

/-- `EXRdVal` after `exec` of a plain instruction, from the latched operands. -/
def exRd (I : Instruction) (PC : Address) (Rs1 Rs2 CSR Imm : RegVal) : RegVal :=
  match I with
  | IInstruction IT _ _ _ =>
    match IT with
    | .addi | .lb | .lh | .lw | .lbu | .lhu => Rs1 + Imm
    | .slti => ofBool (Rs1.slt Imm)
    | .sltiu => ofBool (Rs1.ult Imm)
    | .xori => Rs1 ^^^ Imm
    | .ori => Rs1 ||| Imm
    | .andi => Rs1 &&& Imm
    | .jalr => (PC + 4).setWidth 32
    | .slli => Rs1 <<< (Imm.toNat % 32)
    | .srli => Rs1 >>> (Imm.toNat % 32)
    | .srai => Rs1.sshiftRight (Imm.toNat % 32)
    | .csrrw | .csrrs | .csrrc | .csrrwi | .csrrsi | .csrrci => CSR
    | .ecall | .ebreak | .uret | .sret | .mret | .ext | .extx => 0
  | RInstruction RT _ _ _ => RT.eval Rs1 Rs2
  | UInstruction .lui _ _ => Imm <<< 12
  | UInstruction .auipc _ _ => (PC + (Imm <<< 12).signExtend 64).setWidth 32
  | JInstruction .. => (PC + 4).setWidth 32
  | SInstruction .. => Rs1 + Imm
  | BInstruction .. => 0

/-- `EXCSRVal` after `exec` of a plain instruction: the value a csr instruction will
write. -/
def exCSR (I : Instruction) (Rs1 CSR : RegVal) : RegVal :=
  match I with
  | IInstruction .csrrw _ _ _ | IInstruction .csrrwi _ _ _ => Rs1
  | IInstruction .csrrs _ _ _ | IInstruction .csrrsi _ _ _ => CSR ||| Rs1
  | IInstruction .csrrc _ _ _ | IInstruction .csrrci _ _ _ => CSR &&& ~~~Rs1
  | _ => 0

end Instruction

namespace RIPSimulator

variable {σ : Type}

/-! ## Write back -/

/-- The state after `writeback`. -/
def written (S : RIPSimulator σ) : RIPSimulator σ :=
  match S.PS.Insts.WB with
  | none => S
  | some I =>
    { S with
      States :=
        if I.isCSR then S.States.write ((S.PS.MAImmVal &&& 0xfff#32).setWidth 12) S.PS.MACSRVal
        else S.States
      GPRegs := if I.hasRd then S.GPRegs.write I.rd S.PS.MARdVal else S.GPRegs
      PS := { S.PS with WBImmVal := if I.hasRd && !I.isCSR then S.PS.MARdVal else 0 } }

theorem writeback_eq (S : RIPSimulator σ) : S.writeback = .ok S.written := by
  unfold writeback written
  cases S.PS.Insts.WB with
  | none => rfl
  | some I =>
    dsimp only
    cases hrd : I.hasRd with
    | false =>
      rw [I.isBType_or_isSType, hrd, Instruction.isCSR_of_not_hasRd hrd]
      rfl
    | true =>
      rw [I.isBType_or_isSType, hrd, Instruction.getRd_eq hrd]
      cases hc : I.isCSR <;> rfl

/-! ## Execute -/

/-- The load-use test, with the fields as members. -/
def loadUses (S : RIPSimulator σ) (I : Instruction) : Bool :=
  match S.PS.Insts.DE with
  | none => false
  | some DE => DE.hasRs1 && I.rd == DE.rs1 || DE.hasRs2 && I.rd == DE.rs2

theorem loadUse_eq (S : RIPSimulator σ) {I : Instruction} (h : I.hasRd = true) :
    S.loadUse I = .ok (S.loadUses I) := by
  unfold loadUse loadUses
  cases S.PS.Insts.DE with
  | none => rfl
  | some DE =>
    dsimp only
    rw [if_pos h, Instruction.getRd_eq h]
    cases h1 : DE.hasRs1 <;> cases h2 : DE.hasRs2 <;>
      simp [h1, h2, Instruction.getRs1_eq, Instruction.getRs2_eq, bind, Except.bind, pure,
        Except.pure, Functor.map, Except.map]

/-- The address a plain instruction in EX redirects to, if it does: a jump always,
a branch without predictor when taken, a branch with predictor when mispredicted. -/
def target (S : RIPSimulator σ) (I : Instruction) : Option Address :=
  let PC := S.PS.PCs.EX
  let Imm := S.PS.DEImmVal
  match I with
  | .IInstruction .jalr _ _ _ => some ((S.PS.DERs1Val + signExtend Imm 12).signExtend 64)
  | .JInstruction .jal _ _ => some (PC + (signExtend Imm 20).signExtend 64)
  | .BInstruction BT _ _ _ =>
    let Cond := BT.cond S.PS.DERs1Val S.PS.DERs2Val
    let Pred := match S.BP with
      | none => false
      | some B => B.PrevPred
    if Pred ^^ Cond then some (if Cond then PC + Imm.signExtend 64 else PC + 4) else none
  | _ => none

/-- A branch that no predictor watches: it assigns `PC` itself. -/
def setsPC (S : RIPSimulator σ) (I : Instruction) : Bool := I.isBType && S.BP.isNone

/-- The branch counters after `exec` of `I`. -/
def counted (S : RIPSimulator σ) (I : Instruction) : CSRs :=
  match I, S.BP with
  | .BInstruction BT _ _ _, some B =>
    countBranch S.States B.PrevPred (BT.cond S.PS.DERs1Val S.PS.DERs2Val)
  | _, _ => S.States

/-- The predictor after `exec` of `I`. -/
def learned [BranchPredictor σ] (S : RIPSimulator σ) (I : Instruction) : Option (BPBase σ) :=
  match I, S.BP with
  | .BInstruction BT _ _ _, some B =>
    let Cond := BT.cond S.PS.DERs1Val S.PS.DERs2Val
    some ((B.StatsUpdate Cond B.PrevPred).Learn Cond S.PS.PCs.EX)
  | _, B => B

/-- The pipeline registers after `exec` of the plain instruction `I`. -/
def executedPS (S : RIPSimulator σ) (I : Instruction) : PipelineStates :=
  let PS := S.PS
  { PS with
    EXRdVal := I.exRd PS.PCs.EX PS.DERs1Val PS.DERs2Val PS.DECSRVal PS.DEImmVal
    EXCSRVal := I.exCSR PS.DERs1Val PS.DECSRVal
    EXImmVal := PS.DEImmVal
    EXRs2Val := if I.isSType then PS.DERs2Val else PS.EXRs2Val
    BranchPC := if S.setsPC I then PS.BranchPC else (S.target I).or PS.BranchPC
    StalledStages :=
      if I.isLoad && S.loadUses I then { PS.StalledStages with DE := true, IF := true }
      else PS.StalledStages
    InvalidStages :=
      if (S.target I).isSome then { PS.InvalidStages with DE := true, IF := true }
      else PS.InvalidStages }

/-- The state after `exec` of the plain instruction `I`. -/
def executed [BranchPredictor σ] (S : RIPSimulator σ) (I : Instruction) : RIPSimulator σ :=
  { S with
    PC := if S.setsPC I then (S.target I).getD S.PC else S.PC
    States := S.counted I
    BP := S.learned I
    PS := S.executedPS I }

theorem exec_eq [BranchPredictor σ] (S : RIPSimulator σ) {I : Instruction}
    (hI : S.PS.Insts.EX = some I) (hp : I.isPlain = true) :
    S.exec = .ok (none, S.executed I) := by
  have hload : ∀ Rd Rs1 Imm (IT : ITypeKinds), IT.isLoad = true →
      (do
        let use ← S.loadUse (.IInstruction IT Rd Rs1 Imm)
        let PS := if use then S.PS.setStallDEIF else S.PS
        return (none, { S with PS := PS }.latchEX (S.PS.DERs1Val + S.PS.DEImmVal) 0)) =
      (Except.ok (none, S.executed (.IInstruction IT Rd Rs1 Imm)) :
        Except Fault (Option Exception × RIPSimulator σ)) := by
    intro Rd Rs1 Imm IT hIT
    rw [loadUse_eq S rfl]
    cases hu : S.loadUses (.IInstruction IT Rd Rs1 Imm) <;> cases IT <;>
      simp_all [ITypeKinds.isLoad, executed, executedPS, Instruction.isLoad, Instruction.exRd,
        Instruction.exCSR, Instruction.isSType, Instruction.getMnemo, setsPC, target, counted,
        learned, Instruction.isBType, bind, Except.bind, pure, Except.pure, latchEX,
        PipelineStates.setStallDEIF]
  unfold exec
  rw [hI]
  cases I with
  | IInstruction IT Rd Rs1 Imm =>
    cases IT with
    | lb => exact hload Rd Rs1 Imm .lb rfl
    | lh => exact hload Rd Rs1 Imm .lh rfl
    | lw => exact hload Rd Rs1 Imm .lw rfl
    | lbu => exact hload Rd Rs1 Imm .lbu rfl
    | lhu => exact hload Rd Rs1 Imm .lhu rfl
    | ecall => exact absurd hp Bool.false_ne_true
    | ebreak => exact absurd hp Bool.false_ne_true
    | uret => exact absurd hp Bool.false_ne_true
    | sret => exact absurd hp Bool.false_ne_true
    | mret => exact absurd hp Bool.false_ne_true
    | ext => exact absurd hp Bool.false_ne_true
    | extx => exact absurd hp Bool.false_ne_true
    | _ => rfl
  | RInstruction => rfl
  | UInstruction UT => cases UT <;> rfl
  | JInstruction JT => cases JT; rfl
  | SInstruction => rfl
  | BInstruction BT Rs1 Rs2 Imm =>
    cases hB : S.BP with
    | none =>
      cases hc : BT.cond S.PS.DERs1Val S.PS.DERs2Val <;>
        simp [Instruction.getMnemo, execB, executed, executedPS, setsPC, target, counted, learned,
          Instruction.isBType, Instruction.isSType, Instruction.isLoad, Instruction.exRd,
          Instruction.exCSR, hB, hc, latchEX, PipelineStates.setInvalidDEIF]
    | some B =>
      cases hb : B.PrevPred <;> cases hc : BT.cond S.PS.DERs1Val S.PS.DERs2Val <;>
        simp [Instruction.getMnemo, execB, executed, executedPS, setsPC, target, counted, learned,
          Instruction.isBType, Instruction.isSType, Instruction.isLoad, Instruction.exRd,
          Instruction.exCSR, hB, hb, hc, latchEX, branchTo, PipelineStates.setBranchPC,
          PipelineStates.setInvalidDEIF]

/-! ## Decode -/

/-- The instruction `I` of a stage writes register `Rs`. -/
def rdIs (I : Option Instruction) (Rs : BitVec 5) : Bool :=
  match I with
  | none => false
  | some I => I.hasRd && Rs == I.rd

/-- The instruction `I` of a stage is a csr instruction on `A`. -/
def csrIs (I : Option Instruction) (A : CSRAddress) : Bool :=
  match I with
  | none => false
  | some I => I.isCSR && A == I.csrAddr

theorem isRdOf_eq (I : Option Instruction) (Rs : BitVec 5) : isRdOf I Rs = .ok (rdIs I Rs) := by
  cases I with
  | none => rfl
  | some I =>
    cases h : I.hasRd with
    | false => simp [isRdOf, rdIs, h, pure, Except.pure]
    | true => simp [isRdOf, rdIs, h, Instruction.getRd_eq h, Functor.map, Except.map]

theorem isCSRAt_eq (I : Option Instruction) (A : CSRAddress) :
    isCSRAt I (A.setWidth 32) = .ok (csrIs I A) := by
  cases I with
  | none => rfl
  | some I =>
    cases h : I.isCSR with
    | false => simp [isCSRAt, csrIs, h, pure, Except.pure]
    | true =>
      simp only [isCSRAt, csrIs, h, if_true, Instruction.getIImm_of_isCSR h, Functor.map,
        Except.map, setWidth_beq_setWidth (by decide : 12 ≤ 32), Bool.true_and]

/-- The register value in flight for `Rs`, if any: the one in EX before the one in
MA. -/
def fwd (PS : PipelineStates) (Rs : BitVec 5) : Option RegVal :=
  if rdIs PS.Insts.EX Rs then some PS.EXRdVal
  else if rdIs PS.Insts.MA Rs then some PS.MARdVal
  else none

/-- The value in flight for the CSR `A`, if any. -/
def fwdCSR (PS : PipelineStates) (A : CSRAddress) : Option RegVal :=
  if csrIs PS.Insts.EX A then some PS.EXCSRVal
  else if csrIs PS.Insts.MA A then some PS.MACSRVal
  else none

theorem forwardOnDE_eq (PS : PipelineStates) (Rs : BitVec 5) :
    forwardOnDE PS Rs = .ok (fwd PS Rs) := by
  simp only [forwardOnDE, fwd, isRdOf_eq, bind, Except.bind, pure, Except.pure]
  cases rdIs PS.Insts.EX Rs <;> cases rdIs PS.Insts.MA Rs <;> rfl

theorem forwardCSROnDE_eq (PS : PipelineStates) (A : CSRAddress) :
    forwardCSROnDE PS (A.setWidth 32) = .ok (fwdCSR PS A) := by
  simp only [forwardCSROnDE, fwdCSR, isCSRAt_eq, bind, Except.bind, pure, Except.pure]
  cases csrIs PS.Insts.EX A <;> cases csrIs PS.Insts.MA A <;> rfl

/-- `DERs1Val` after `decode` of `I`. -/
def operand1 (S : RIPSimulator σ) (I : Instruction) : RegVal :=
  if isCSRImm I then I.rs1.setWidth 32
  else if I.hasRs1 then (fwd S.PS I.rs1).getD (S.GPRegs I.rs1)
  else S.PS.DERs1Val

/-- `DERs2Val` after `decode` of `I`. -/
def operand2 (S : RIPSimulator σ) (I : Instruction) : RegVal :=
  if I.hasRs2 then (fwd S.PS I.rs2).getD (S.GPRegs I.rs2) else S.PS.DERs2Val

/-- `DECSRVal` after `decode` of `I`. -/
def operandCSR (S : RIPSimulator σ) (I : Instruction) : RegVal :=
  if I.isCSR then (fwdCSR S.PS I.csrAddr).getD (S.States.read I.csrAddr) else S.PS.DECSRVal

theorem hasRs1_of_isCSRImm {I : Instruction} (h : isCSRImm I = true) : I.hasRs1 = true := by
  cases I with
  | IInstruction => rfl
  | RInstruction => rfl
  | SInstruction => rfl
  | BInstruction => rfl
  | UInstruction => exact absurd h Bool.false_ne_true
  | JInstruction => exact absurd h Bool.false_ne_true

theorem readRs1_eq (S : RIPSimulator σ) (I : Instruction) :
    S.readRs1 I S.PS = .ok { S.PS with DERs1Val := S.operand1 I } := by
  unfold readRs1 operand1
  cases hi : isCSRImm I with
  | true => simp [Instruction.getRs1_eq (hasRs1_of_isCSRImm hi), bind, Except.bind, pure,
    Except.pure]
  | false =>
    cases h1 : I.hasRs1 with
    | false => simp
    | true =>
      simp [Instruction.getRs1_eq h1, forwardOnDE_eq, bind, Except.bind, pure, Except.pure]

/-- The reads of a CSR and of `Rs2` look at the other latches only. -/
theorem readCSR_eq (S : RIPSimulator σ) (I : Instruction) (v : RegVal) :
    S.readCSR I { S.PS with DERs1Val := v } =
      .ok { S.PS with DERs1Val := v, DECSRVal := S.operandCSR I } := by
  unfold readCSR operandCSR
  cases h : I.isCSR with
  | false => simp
  | true =>
    simp [Instruction.getIImm_of_isCSR h, forwardCSROnDE_eq, bind, Except.bind, pure, Except.pure,
      fwdCSR]

theorem readRs2_eq (S : RIPSimulator σ) (I : Instruction) (v c : RegVal) :
    S.readRs2 I { S.PS with DERs1Val := v, DECSRVal := c } =
      .ok { S.PS with DERs1Val := v, DECSRVal := c, DERs2Val := S.operand2 I } := by
  unfold readRs2 operand2
  cases h : I.hasRs2 with
  | false => simp
  | true =>
    simp [Instruction.getRs2_eq h, forwardOnDE_eq, bind, Except.bind, pure, Except.pure, fwd]

/-- The predictor after `decode` of `I`. -/
def predicted [BranchPredictor σ] (S : RIPSimulator σ) (I : Instruction) : Option (BPBase σ) :=
  match I.isBType, S.BP with
  | true, some B =>
    let p := B.Predict S.PS.PCs.DE
    let B := p.2.setPrevPred p.1
    some (if p.1 then B.setBranchPredPC (S.PS.PCs.DE + I.immVal.signExtend 64) else B)
  | _, B => B

/-- `decode` of `I` predicts a taken branch. -/
def predictsTaken [BranchPredictor σ] (S : RIPSimulator σ) (I : Instruction) : Bool :=
  match I.isBType, S.BP with
  | true, some B => (B.Predict S.PS.PCs.DE).1
  | _, _ => false

/-- The pipeline registers after `decode` of `I`. -/
def decodedPS [BranchPredictor σ] (S : RIPSimulator σ) (I : Instruction) : PipelineStates :=
  { S.PS with
    DERs1Val := S.operand1 I
    DERs2Val := S.operand2 I
    DECSRVal := S.operandCSR I
    DEImmVal := I.immVal
    InvalidStages :=
      if S.predictsTaken I then { S.PS.InvalidStages with IF := true } else S.PS.InvalidStages }

/-- The state after `decode`. -/
def decoded [BranchPredictor σ] (S : RIPSimulator σ) : RIPSimulator σ :=
  match S.PS.Insts.DE with
  | none => S
  | some I =>
    if S.PS.StalledStages.DE then S else { S with BP := S.predicted I, PS := S.decodedPS I }

theorem decode_eq [BranchPredictor σ] (S : RIPSimulator σ) : S.decode = .ok S.decoded := by
  unfold decode decoded
  cases S.PS.Insts.DE with
  | none => rfl
  | some I =>
    cases hs : S.PS.StalledStages.DE with
    | true => rfl
    | false =>
      simp only [readRs1_eq, readCSR_eq, readRs2_eq, Instruction.immediate_eq, bind, Except.bind,
        pure, Except.pure, Bool.false_eq_true, if_false]
      cases hb : I.isBType with
      | false => simp [predicted, decodedPS, predictsTaken, hb]
      | true =>
        cases hB : S.BP with
        | none => simp [predict, predicted, decodedPS, predictsTaken, hb, hB]
        | some B =>
          cases hp : (B.Predict S.PS.PCs.DE).1 <;>
            simp [predict, predicted, decodedPS, predictsTaken, hb, hB, hp,
              PipelineStates.setInvalidIF]

end RIPSimulator

end RipSim
