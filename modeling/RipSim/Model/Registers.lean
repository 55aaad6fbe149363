import RipSim.Model.Memory

/-!
# Registers

`Registers.h` and `CSR.h`: the 32 general registers, the 4096 control and status
registers, and the field accessors of `mstatus`.

`GPRegisters` keeps `Regs` private, zeroes it in the constructor and refuses to
write register `0`, so the class maintains `Regs[0] == 0`; here that is a field
of the structure.  A CSR address is a 12-bit field in every caller, which is what
the assertion `Ad < CSR_SIZE` asks.
-/

namespace RipSim

/-! ## General registers -/

/-- `GPRegisters`. -/
@[ext] structure GPRegisters where
  /-- The register values. -/
  Regs : BitVec 5 → RegVal
  /-- No constructor or method stores anything in `x0`. -/
  Regs_zero : Regs 0 = 0

namespace GPRegisters

/-- The constructor: everything zero but the stack pointer `x2`, which is the
given value or the end of the DRAM. -/
def new (DRAMSize DRAMBase : Address) (SPIValue : Option Address) : GPRegisters where
  Regs := Function.update (fun _ => 0) 2
    (match SPIValue with
      | some v => v.setWidth 32
      | none => DRAMSize.setWidth 32 + DRAMBase.setWidth 32)
  Regs_zero := by rw [Function.update_of_ne (by decide)]

/-- `GPRegisters::write`: a write to `x0` is dropped. -/
def write (R : GPRegisters) (Id : BitVec 5) (Val : RegVal) : GPRegisters where
  Regs := if Id = 0 then R.Regs else Function.update R.Regs Id Val
  Regs_zero := by
    split
    · exact R.Regs_zero
    · rename_i h
      rw [Function.update_of_ne (Ne.symm h)]
      exact R.Regs_zero

instance : CoeFun GPRegisters fun _ => BitVec 5 → RegVal := ⟨Regs⟩

variable (R : GPRegisters)

@[simp] theorem apply_zero : R 0#5 = 0#32 := R.Regs_zero

@[simp] theorem write_zero (v : RegVal) : R.write 0#5 v = R := by
  ext; simp [write]

theorem write_apply (Id r : BitVec 5) (v : RegVal) :
    R.write Id v r = if r = Id ∧ Id ≠ 0 then v else R r := by
  by_cases h0 : Id = 0
  · subst h0
    simp
  · change (if Id = 0 then R.Regs else Function.update R.Regs Id v) r = _
    rw [if_neg h0, Function.update_apply]
    simp only [ne_eq, h0, not_false_eq_true, and_true]

theorem write_apply_self {Id : BitVec 5} (h : Id ≠ 0) (v : RegVal) : R.write Id v Id = v := by
  rw [write_apply, if_pos ⟨rfl, h⟩]

theorem write_apply_of_ne {Id r : BitVec 5} (h : r ≠ Id) (v : RegVal) :
    R.write Id v r = R r := by
  rw [write_apply, if_neg fun hh => h hh.1]

end GPRegisters

/-! ## Control and status registers -/

/-- `CSRAddress`, below `CSR_SIZE`. -/
abbrev CSRAddress := BitVec 12

/-- Machine status register. -/
def MSTATUS : CSRAddress := 0x300
/-- Machine trap-handler base address. -/
def MTVEC : CSRAddress := 0x305
/-- Machine exception program counter. -/
def MEPC : CSRAddress := 0x341
/-- Machine trap cause. -/
def MCAUSE : CSRAddress := 0x342
/-- Machine trap value: bad address or instruction. -/
def MTVAL : CSRAddress := 0x343
/-- Cycle counter. -/
def CYCLE : CSRAddress := 0xc00
/-- Branches predicted taken and taken. -/
def BPTP : CSRAddress := 0xfc0
/-- Branches predicted not taken and not taken. -/
def BPTN : CSRAddress := 0xfc1
/-- Branches predicted taken and not taken. -/
def BPFP : CSRAddress := 0xfc2
/-- Branches predicted not taken and taken. -/
def BPFN : CSRAddress := 0xfc3

/-- The counters of branches. -/
def branchCounters : List CSRAddress := [BPTP, BPTN, BPFP, BPFN]

/-- The counters. -/
def counters : List CSRAddress := CYCLE :: branchCounters

/-- `ModeKind`.  `Epilogue` is the mode entered by `extx`. -/
inductive ModeKind where
  | User
  | Supervisor
  | Hypervisor
  | Machine
  | Epilogue
  deriving DecidableEq, Repr

/-- The value of the enumerator. -/
def ModeKind.val : ModeKind → BitVec 32
  | .User => 0
  | .Supervisor => 1
  | .Hypervisor => 2
  | .Machine => 3
  | .Epilogue => 4

/-- `(ModeKind)((v >> 11) & 0b11)`, the MPP field of an `mstatus` value. -/
def ModeKind.ofMPP (v : RegVal) : ModeKind :=
  let f := v.sshiftRight 11 &&& 0b11#32
  if f = 0 then .User else if f = 1 then .Supervisor else if f = 2 then .Hypervisor else .Machine

/-- The cast `(ModeKind)v` of a value in `0..3`. -/
def ModeKind.ofVal (v : BitVec 32) : ModeKind :=
  if v = 0 then .User else if v = 1 then .Supervisor else if v = 2 then .Hypervisor else .Machine

/-- `CSRs`: the array `States[CSR_SIZE]`. -/
abbrev CSRs := CSRAddress → RegVal

namespace CSRs

variable (S : CSRs)

/-- The constructor: every register is zero. -/
def new : CSRs := fun _ => 0

/-- `CSRs::write`. -/
def write (Ad : CSRAddress) (Val : RegVal) : CSRs := Function.update S Ad Val

/-- `CSRs::read`. -/
def read (Ad : CSRAddress) : RegVal := S Ad

/-- `CSRs::getMPREV`: the mask is the one of the setter. -/
def getMPREV : Bool := (S.read MSTATUS &&& 0xfffdffff#32) >>> 17 != 0

/-- `CSRs::getMIE`. -/
def getMIE : Bool := (S.read MSTATUS &&& 0xfffffff7#32) >>> 3 != 0

/-- `CSRs::getMPIE`. -/
def getMPIE : Bool := (S.read MSTATUS &&& 0xffffff7f#32) >>> 7 != 0

/-- `CSRs::getMPP`. -/
def getMPP : ModeKind := .ofVal ((S.read MSTATUS &&& 0xffffe7ff#32) >>> 11 &&& 0b11#32)

/-- `CSRs::setMPREV`, bit 17. -/
def setMPREV (Val : Bool) : CSRs :=
  S.write MSTATUS ((S.read MSTATUS &&& 0xfffdffff#32) ||| (BitVec.ofBool Val).setWidth 32 <<< 17)

/-- `CSRs::setMIE`, bit 3. -/
def setMIE (Val : Bool) : CSRs :=
  S.write MSTATUS ((S.read MSTATUS &&& 0xfffffff7#32) ||| (BitVec.ofBool Val).setWidth 32 <<< 3)

/-- `CSRs::setMPIE`, bit 7. -/
def setMPIE (Val : Bool) : CSRs :=
  S.write MSTATUS ((S.read MSTATUS &&& 0xffffff7f#32) ||| (BitVec.ofBool Val).setWidth 32 <<< 7)

/-- `CSRs::setMPP`, bits 12 and 11. -/
def setMPP (Val : ModeKind) : CSRs :=
  S.write MSTATUS ((S.read MSTATUS &&& 0xffffe7ff#32) ||| Val.val <<< 11)

/-- `CSRs::incCYCLE`, `incBPTP`, `incBPTN`, `incBPFP`, `incBPFN`: one more in the
counter `Ad`. -/
def inc (Ad : CSRAddress) : CSRs := S.write Ad (S.read Ad + 1)

/-- `CSRs::incCYCLE`. -/
def incCYCLE : CSRs := S.inc CYCLE
/-- `CSRs::incBPTP`. -/
def incBPTP : CSRs := S.inc BPTP
/-- `CSRs::incBPTN`. -/
def incBPTN : CSRs := S.inc BPTN
/-- `CSRs::incBPFP`. -/
def incBPFP : CSRs := S.inc BPFP
/-- `CSRs::incBPFN`. -/
def incBPFN : CSRs := S.inc BPFN

@[simp] theorem write_self (a : CSRAddress) (v : RegVal) : S.write a v a = v := by
  simp [write]

theorem write_of_ne {a b : CSRAddress} (h : b ≠ a) (v : RegVal) : S.write a v b = S b := by
  simp [write, Function.update_of_ne h]

theorem inc_self (a : CSRAddress) : S.inc a a = S a + 1 := by
  simp [inc, read]

theorem inc_of_ne {a b : CSRAddress} (h : b ≠ a) : S.inc a b = S b := write_of_ne S h _

end CSRs

end RipSim
