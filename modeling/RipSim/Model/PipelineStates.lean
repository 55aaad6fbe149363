import RipSim.Model.Instructions

/-!
# Pipeline registers

`PipelineStates.h`: the values latched between the stages, the instruction and the
address in each stage, and the stall and invalid flags.

The loops over the stages are unrolled.  `FetchedInst` is written and read by
nothing and is left out.
-/

namespace RipSim

/-- `STAGES`. -/
inductive STAGES where
  | IF
  | DE
  | EX
  | MA
  | WB
  deriving DecidableEq, Repr

/-- An array indexed by `STAGES`. -/
@[ext] structure Staged (α : Type) where
  /-- Instruction fetch. -/
  IF : α
  /-- Decode. -/
  DE : α
  /-- Execution. -/
  EX : α
  /-- Memory access. -/
  MA : α
  /-- Register write back. -/
  WB : α

/-- The array with every entry `a`. -/
def Staged.const {α : Type} (a : α) : Staged α := ⟨a, a, a, a, a⟩

/-- `PipelineStates`.  A bubble, the null pointer of the source, is `none`. -/
@[ext] structure PipelineStates where
  DERs1Val : RegVal
  DERs2Val : RegVal
  DECSRVal : RegVal
  DEImmVal : RegVal
  EXRdVal : RegVal
  EXRs2Val : RegVal
  EXImmVal : RegVal
  EXCSRVal : RegVal
  MARdVal : RegVal
  MAImmVal : RegVal
  MACSRVal : RegVal
  WBImmVal : RegVal
  BranchPC : Option Address
  Insts : Staged (Option Instruction)
  PCs : Staged Address
  StalledStages : Staged Bool
  InvalidStages : Staged Bool

namespace PipelineStates

/-- The constructor.  It leaves `DERs1Val` and `PCs` unset, so their first values
are arguments here. -/
def new (DERs1Val : RegVal) (PCs : Staged Address) : PipelineStates where
  DERs1Val := DERs1Val
  DERs2Val := 0
  DECSRVal := 0
  DEImmVal := 0
  EXRdVal := 0
  EXRs2Val := 0
  EXImmVal := 0
  EXCSRVal := 0
  MARdVal := 0
  MAImmVal := 0
  MACSRVal := 0
  WBImmVal := 0
  BranchPC := none
  Insts := Staged.const none
  PCs := PCs
  StalledStages := Staged.const false
  InvalidStages := Staged.const false

variable (PS : PipelineStates)

/-- `takeBranchPC`: the target, and the registers with the target removed. -/
def takeBranchPC : Option Address × PipelineStates := (PS.BranchPC, { PS with BranchPC := none })

/-- `setBranchPC`. -/
def setBranchPC (V : Address) : PipelineStates := { PS with BranchPC := some V }

/-- `setStall(DE); setStall(IF);`, the only two stages ever stalled. -/
def setStallDEIF : PipelineStates :=
  { PS with StalledStages := { PS.StalledStages with DE := true, IF := true } }

/-- `clearStall`. -/
def clearStall : PipelineStates := { PS with StalledStages := Staged.const false }

/-- `setInvalid(IF)`. -/
def setInvalidIF : PipelineStates :=
  { PS with InvalidStages := { PS.InvalidStages with IF := true } }

/-- `setInvalid(DE); setInvalid(IF);` -/
def setInvalidDEIF : PipelineStates :=
  { PS with InvalidStages := { PS.InvalidStages with DE := true, IF := true } }

/-- `proceed`: from write back down, each stage takes the instruction of the one
before it, which is left null, until a stalled stage stops the loop. -/
def proceed (InstPtr : Option Instruction) : PipelineStates :=
  let I := PS.Insts
  { PS with Insts :=
      if PS.StalledStages.MA then I
      else if PS.StalledStages.EX then { I with WB := I.MA, MA := none }
      else if PS.StalledStages.DE then { I with WB := I.MA, MA := I.EX, EX := none }
      else if PS.StalledStages.IF then { I with WB := I.MA, MA := I.EX, EX := I.DE, DE := none }
      else { IF := InstPtr, DE := I.IF, EX := I.DE, MA := I.EX, WB := I.MA } }

/-- `proceedPC`: the same for the addresses, which are copied. -/
def proceedPC (PC : Address) : PipelineStates :=
  let P := PS.PCs
  { PS with PCs :=
      if PS.StalledStages.MA then P
      else if PS.StalledStages.EX then { P with WB := P.MA }
      else if PS.StalledStages.DE then { P with WB := P.MA, MA := P.EX }
      else if PS.StalledStages.IF then { P with WB := P.MA, MA := P.EX, EX := P.DE }
      else { IF := PC, DE := P.IF, EX := P.DE, MA := P.EX, WB := P.MA } }

/-- `isEmpty`. -/
def isEmpty : Bool :=
  PS.Insts.IF.isNone && PS.Insts.DE.isNone && PS.Insts.EX.isNone && PS.Insts.MA.isNone &&
    PS.Insts.WB.isNone

/-- `fillBubble`: an invalid stage becomes a bubble and is valid again. -/
def fillBubble : PipelineStates :=
  let I := PS.Insts
  let V := PS.InvalidStages
  { PS with
    Insts := {
      IF := if V.IF then none else I.IF
      DE := if V.DE then none else I.DE
      EX := if V.EX then none else I.EX
      MA := if V.MA then none else I.MA
      WB := if V.WB then none else I.WB }
    InvalidStages := Staged.const false }

end PipelineStates

end RipSim
