import RipSim.Model.InstructionExec

/-!
# The instruction-level simulator

`Statistics.h` and `Simulator/Simulator.cpp`: the loop that decodes the word at
the PC, executes it, and enters a trap when `exec` returns an exception.
-/

namespace RipSim

/-! ## Statistics -/

/-- `Statistics`.  A key absent from a map is `none`. -/
@[ext] structure Statistics where
  /-- Instructions since the last branch. -/
  BDist : BitVec 32
  /-- How often each distance occurred. -/
  BDists : BitVec 32 → Option (BitVec 32)
  /-- How often each mnemonic was executed. -/
  InstCounts : Mnemo → Option (BitVec 32)

namespace Statistics

/-- The constructor. -/
def new : Statistics := ⟨0, fun _ => none, fun _ => none⟩

variable (S : Statistics)

/-- One more at key `k`, inserted with count `1` if absent. -/
def bump {κ : Type} [DecidableEq κ] (m : κ → Option (BitVec 32)) (k : κ) :
    κ → Option (BitVec 32) :=
  Function.update m k (some (match m k with
    | some n => n + 1
    | none => 1))

/-- `incrementBDist`. -/
def incrementBDist : Statistics := { S with BDist := S.BDist + 1 }

/-- `addInst`. -/
def addInst (M : Mnemo) : Statistics := { S with InstCounts := bump S.InstCounts M }

/-- `addBDistAndReset`. -/
def addBDistAndReset : Statistics := { S with BDists := bump S.BDists S.BDist, BDist := 0 }

/-- What both simulators do for an executed instruction. -/
def count (I : Instruction) : Statistics :=
  let S := S.addInst I.getMnemo
  if I.isBType then S.addBDistAndReset else S.incrementBDist

end Statistics

/-! ## Loading an image -/

/-- The constructors' loop: words are read four bytes at a time and written from
`P` on; a remainder of fewer than four bytes is not read. -/
def loadImage : List Byte → Memory → Address → Except Fault Memory
  | b0 :: b1 :: b2 :: b3 :: rest, M, P => do
    let M ← M.writeWord P (b3 ++ b2 ++ b1 ++ b0)
    loadImage rest M (P + 4)
  | _, M, _ => .ok M

/-! ## The simulator -/

/-- `Simulator`. -/
structure Simulator where
  /-- The machine state handed to `exec`. -/
  hart : Hart
  /-- `Stats`. -/
  Stats : Statistics

namespace Simulator

/-- The constructor. -/
def new (is : List Byte) (DRAMSize DRAMBase : Address) (SPIValue : Option Address) :
    Except Fault Simulator := do
  let Mem ← loadImage is (Memory.new DRAMSize DRAMBase) DRAMBase
  return {
    hart := {
      PC := DRAMBase
      GPRegs := GPRegisters.new DRAMSize DRAMBase SPIValue
      Mem := Mem
      States := CSRs.new
      Mode := .Machine
      cerr := [] }
    Stats := Statistics.new }

/-- The trap entry of `Simulator::run`.  The three writes of `mstatus` all start
from `MSTATUSVal`, so the last one is the one that stays. -/
def trap (h : Hart) (I : Instruction) (E : Exception) : Except Fault Hart := do
  let ExceptionPC := h.PC
  if h.Mode = .Machine then
    let PC := (h.States.read MTVEC &&& ~~~1#32).signExtend 64
    let S := h.States.write MEPC ((ExceptionPC &&& ~~~1#64).setWidth 32)
    let S := S.write MCAUSE E.cause
    let tv ← trap_val E (ExceptionPC.setWidth 32) I.getVal
    let S := S.write MTVAL tv
    let MSTATUSVal := S.read MSTATUS
    let MIE := MSTATUSVal.getLsbD 3
    let S := S.write MSTATUS ((MSTATUSVal &&& 0xffffff7f#32) ||| ofBool MIE <<< 7)
    let S := S.write MSTATUS (MSTATUSVal &&& 0xfffffff7#32)
    let S := S.write MSTATUS ((MSTATUSVal &&& 0xffffe7ff#32) ||| h.Mode.val <<< 11)
    return { h with PC := PC, States := S }
  else throw .nonMachineMode

/-- What follows `exec` in an iteration that does not leave it early. -/
def afterInst (S : Simulator) (I : Instruction) (h : Hart) : Simulator :=
  { hart := { h with States := h.States.incCYCLE }, Stats := S.Stats.count I }

/-- One iteration of the loop of `Simulator::run`; `none` when the loop is left. -/
def iterate (EndAddress : Option Address) (S : Simulator) : Except Fault (Option Simulator) := do
  let w ← S.hart.Mem.readWord S.hart.PC
  match Decoder.decode w with
  | none => return none
  | some I =>
    if EndAddress = some S.hart.PC then return none
    else
      match ← I.exec S.hart with
      | (none, h) => return some (S.afterInst I h)
      | (some E, h) =>
        if E = .R0 then return none
        else if E = .R1 then
          return some { S with hart := { h with Mode := .Epilogue } }
        else if E = .Breakpoint then return none
        else
          let h ← trap h I E
          return some (S.afterInst I h)

end Simulator

end RipSim
