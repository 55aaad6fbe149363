import Mathlib.Data.BitVec
import Mathlib.Logic.Function.Basic

/-!
# RV32IM

The 32-bit base integer instructions without FENCE and SYSTEM, and the multiplication
and division extension, as the unprivileged specification prescribes them.

An operation is given by the codes of its fields, and the decoder looks it up in the
table of these; so a word is legal exactly if it is in a table.  Arithmetic is said in
integers and brought back to 32 bits at the end: a wrapping sum is `ofInt` of a sum of
integers, a high product the quotient of a product by `2 ^ 32`.

`Instr.exec` is what an instruction does if it raises no exception.  The only exception
of these instructions other than those of the memory is the one for a misaligned target,
and `Instr.step` is the step of a machine that has it.
-/

namespace RV32IM

/-! ## Operations and their codes -/

/-- Conditional branches. -/
inductive BranchOp where
  | eq | ne | lt | ge | ltu | geu
  deriving DecidableEq, Repr

/-- Loads: byte, half, word, and the two that extend with zeros. -/
inductive LoadOp where
  | b | h | w | bu | hu
  deriving DecidableEq, Repr

/-- Stores: byte, half, word. -/
inductive StoreOp where
  | b | h | w
  deriving DecidableEq, Repr

/-- Operations on a register and a 12-bit immediate. -/
inductive ImmOp where
  | add | slt | sltu | xor | or | and
  deriving DecidableEq, Repr

/-- Shifts by a 5-bit immediate. -/
inductive ShiftOp where
  | sll | srl | sra
  deriving DecidableEq, Repr

/-- Operations on two registers. -/
inductive RegOp where
  | add | sub | sll | slt | sltu | xor | srl | sra | or | and
  | mul | mulh | mulhsu | mulhu | div | divu | rem | remu
  deriving DecidableEq, Repr

namespace BranchOp

def funct3 : BranchOp → BitVec 3
  | eq => 0b000 | ne => 0b001 | lt => 0b100 | ge => 0b101 | ltu => 0b110 | geu => 0b111

/-- The branch with this code. -/
def ofFunct3 (f : BitVec 3) : Option BranchOp :=
  [eq, ne, lt, ge, ltu, geu].find? (·.funct3 == f)

end BranchOp

namespace LoadOp

def funct3 : LoadOp → BitVec 3
  | b => 0b000 | h => 0b001 | w => 0b010 | bu => 0b100 | hu => 0b101

/-- The load with this code. -/
def ofFunct3 (f : BitVec 3) : Option LoadOp := [b, h, w, bu, hu].find? (·.funct3 == f)

end LoadOp

namespace StoreOp

def funct3 : StoreOp → BitVec 3
  | b => 0b000 | h => 0b001 | w => 0b010

/-- The store with this code. -/
def ofFunct3 (f : BitVec 3) : Option StoreOp := [b, h, w].find? (·.funct3 == f)

/-- The number of bytes stored. -/
def width : StoreOp → ℕ
  | b => 1 | h => 2 | w => 4

end StoreOp

/-- The number of bytes loaded. -/
def LoadOp.width : LoadOp → ℕ
  | b | bu => 1
  | h | hu => 2
  | w => 4

namespace ImmOp

def funct3 : ImmOp → BitVec 3
  | add => 0b000 | slt => 0b010 | sltu => 0b011 | xor => 0b100 | or => 0b110 | and => 0b111

/-- The operation with this code. -/
def ofFunct3 (f : BitVec 3) : Option ImmOp :=
  [add, slt, sltu, xor, or, and].find? (·.funct3 == f)

end ImmOp

namespace ShiftOp

def funct3 : ShiftOp → BitVec 3
  | sll => 0b001 | srl | sra => 0b101

def funct7 : ShiftOp → BitVec 7
  | sll | srl => 0b0000000 | sra => 0b0100000

/-- The shift with these codes. -/
def ofFunct (f3 : BitVec 3) (f7 : BitVec 7) : Option ShiftOp :=
  [sll, srl, sra].find? fun op => op.funct3 == f3 && op.funct7 == f7

end ShiftOp

namespace RegOp

def funct3 : RegOp → BitVec 3
  | add | sub | mul => 0b000
  | sll | mulh => 0b001
  | slt | mulhsu => 0b010
  | sltu | mulhu => 0b011
  | xor | div => 0b100
  | srl | sra | divu => 0b101
  | or | rem => 0b110
  | and | remu => 0b111

def funct7 : RegOp → BitVec 7
  | sub | sra => 0b0100000
  | mul | mulh | mulhsu | mulhu | div | divu | rem | remu => 0b0000001
  | _ => 0b0000000

/-- The operation with these codes. -/
def ofFunct (f3 : BitVec 3) (f7 : BitVec 7) : Option RegOp :=
  [add, sub, sll, slt, sltu, xor, srl, sra, or, and, mul, mulh, mulhsu, mulhu, div, divu, rem,
    remu].find? fun op => op.funct3 == f3 && op.funct7 == f7

end RegOp

/-! ## Instructions -/

/-- A decoded instruction. -/
inductive Instr where
  | lui (rd : BitVec 5) (imm : BitVec 20)
  | auipc (rd : BitVec 5) (imm : BitVec 20)
  | jal (rd : BitVec 5) (offset : BitVec 21)
  | jalr (rd rs1 : BitVec 5) (offset : BitVec 12)
  | branch (op : BranchOp) (rs1 rs2 : BitVec 5) (offset : BitVec 13)
  | load (op : LoadOp) (rd rs1 : BitVec 5) (offset : BitVec 12)
  | store (op : StoreOp) (rs1 rs2 : BitVec 5) (offset : BitVec 12)
  | opImm (op : ImmOp) (rd rs1 : BitVec 5) (imm : BitVec 12)
  | shift (op : ShiftOp) (rd rs1 : BitVec 5) (shamt : BitVec 5)
  | reg (op : RegOp) (rd rs1 rs2 : BitVec 5)
  deriving DecidableEq, Repr

section Fields

variable (w : BitVec 32)

def opcode : BitVec 7 := w.extractLsb' 0 7
def rd : BitVec 5 := w.extractLsb' 7 5
def funct3 : BitVec 3 := w.extractLsb' 12 3
def rs1 : BitVec 5 := w.extractLsb' 15 5
def rs2 : BitVec 5 := w.extractLsb' 20 5
def funct7 : BitVec 7 := w.extractLsb' 25 7

/-- `inst[31:20]`. -/
def immI : BitVec 12 := w.extractLsb' 20 12

/-- `inst[31:25] inst[11:7]`. -/
def immS : BitVec 12 := w.extractLsb' 25 7 ++ w.extractLsb' 7 5

/-- `inst[31] inst[7] inst[30:25] inst[11:8]` and a zero. -/
def immB : BitVec 13 :=
  w.extractLsb' 31 1 ++ w.extractLsb' 7 1 ++ w.extractLsb' 25 6 ++ w.extractLsb' 8 4 ++ 0#1

/-- `inst[31:12]`. -/
def immU : BitVec 20 := w.extractLsb' 12 20

/-- `inst[31] inst[19:12] inst[20] inst[30:21]` and a zero. -/
def immJ : BitVec 21 :=
  w.extractLsb' 31 1 ++ w.extractLsb' 12 8 ++ w.extractLsb' 20 1 ++ w.extractLsb' 21 10 ++ 0#1

/-- The instruction a legal word encodes. -/
def decode : Option Instr :=
  if opcode w = 0b0110111 then some (.lui (rd w) (immU w))
  else if opcode w = 0b0010111 then some (.auipc (rd w) (immU w))
  else if opcode w = 0b1101111 then some (.jal (rd w) (immJ w))
  else if opcode w = 0b1100111 then
    if funct3 w = 0b000 then some (.jalr (rd w) (rs1 w) (immI w)) else none
  else if opcode w = 0b1100011 then
    (BranchOp.ofFunct3 (funct3 w)).map fun op => .branch op (rs1 w) (rs2 w) (immB w)
  else if opcode w = 0b0000011 then
    (LoadOp.ofFunct3 (funct3 w)).map fun op => .load op (rd w) (rs1 w) (immI w)
  else if opcode w = 0b0100011 then
    (StoreOp.ofFunct3 (funct3 w)).map fun op => .store op (rs1 w) (rs2 w) (immS w)
  else if opcode w = 0b0010011 then
    match ImmOp.ofFunct3 (funct3 w) with
    | some op => some (.opImm op (rd w) (rs1 w) (immI w))
    | none =>
      (ShiftOp.ofFunct (funct3 w) (funct7 w)).map fun op => .shift op (rd w) (rs1 w) (rs2 w)
  else if opcode w = 0b0110011 then
    (RegOp.ofFunct (funct3 w) (funct7 w)).map fun op => .reg op (rd w) (rs1 w) (rs2 w)
  else none

end Fields

/-! ## Arithmetic -/

/-- A comparison's result. -/
def flag (p : Prop) [Decidable p] : BitVec 32 := if p then 1 else 0

/-- The value of an operation on two registers. -/
def RegOp.eval (op : RegOp) (a b : BitVec 32) : BitVec 32 :=
  match op with
  | add => BitVec.ofInt 32 (a.toInt + b.toInt)
  | sub => BitVec.ofInt 32 (a.toInt - b.toInt)
  | sll => BitVec.ofNat 32 (a.toNat * 2 ^ (b.toNat % 32))
  | slt => flag (a.toInt < b.toInt)
  | sltu => flag (a.toNat < b.toNat)
  | xor => a ^^^ b
  | srl => BitVec.ofNat 32 (a.toNat / 2 ^ (b.toNat % 32))
  | sra => BitVec.ofInt 32 (a.toInt / 2 ^ (b.toNat % 32))
  | or => a ||| b
  | and => a &&& b
  | mul => BitVec.ofInt 32 (a.toInt * b.toInt)
  | mulh => BitVec.ofInt 32 (a.toInt * b.toInt / 2 ^ 32)
  | mulhsu => BitVec.ofInt 32 (a.toInt * b.toNat / 2 ^ 32)
  | mulhu => BitVec.ofNat 32 (a.toNat * b.toNat / 2 ^ 32)
  | div => if b = 0 then -1 else BitVec.ofInt 32 (a.toInt.tdiv b.toInt)
  | divu => if b = 0 then -1 else BitVec.ofNat 32 (a.toNat / b.toNat)
  | rem => if b = 0 then a else BitVec.ofInt 32 (a.toInt.tmod b.toInt)
  | remu => if b = 0 then a else BitVec.ofNat 32 (a.toNat % b.toNat)

/-- The value of an operation on a register and an immediate. -/
def ImmOp.eval (op : ImmOp) (a b : BitVec 32) : BitVec 32 :=
  match op with
  | add => RegOp.add.eval a b
  | slt => RegOp.slt.eval a b
  | sltu => RegOp.sltu.eval a b
  | xor => RegOp.xor.eval a b
  | or => RegOp.or.eval a b
  | and => RegOp.and.eval a b

/-- The value of a shift by an immediate. -/
def ShiftOp.eval (op : ShiftOp) (a : BitVec 32) (shamt : BitVec 5) : BitVec 32 :=
  match op with
  | sll => RegOp.sll.eval a (shamt.setWidth 32)
  | srl => RegOp.srl.eval a (shamt.setWidth 32)
  | sra => RegOp.sra.eval a (shamt.setWidth 32)

/-- Whether a branch is taken. -/
def BranchOp.taken (op : BranchOp) (a b : BitVec 32) : Prop :=
  match op with
  | eq => a = b
  | ne => a ≠ b
  | lt => a.toInt < b.toInt
  | ge => b.toInt ≤ a.toInt
  | ltu => a.toNat < b.toNat
  | geu => b.toNat ≤ a.toNat

instance (op : BranchOp) (a b : BitVec 32) : Decidable (op.taken a b) := by
  cases op <;> unfold BranchOp.taken <;> infer_instance

/-! ## Execution -/

/-- The architectural state. -/
@[ext] structure State where
  /-- The registers. -/
  x : BitVec 5 → BitVec 32
  /-- The program counter. -/
  pc : BitVec 32
  /-- The memory, by bytes. -/
  mem : BitVec 32 → BitVec 8

namespace State

variable (s : State)

/-- The value of a register: `x0` is zero. -/
def get (r : BitVec 5) : BitVec 32 := if r = 0 then 0 else s.x r

/-- A write to a register: none to `x0`. -/
def set (r : BitVec 5) (v : BitVec 32) : State :=
  { s with x := if r = 0 then s.x else Function.update s.x r v }

/-- The value at an address, low bytes first. -/
def loadValue (op : LoadOp) (a : BitVec 32) : BitVec 32 :=
  match op with
  | .b => (s.mem a).signExtend 32
  | .h => (s.mem (a + 1) ++ s.mem a).signExtend 32
  | .w => s.mem (a + 3) ++ s.mem (a + 2) ++ s.mem (a + 1) ++ s.mem a
  | .bu => (s.mem a).setWidth 32
  | .hu => (s.mem (a + 1) ++ s.mem a).setWidth 32

/-- The low `n` bytes of `v` at an address, low bytes first. -/
def write (a : BitVec 32) (n : ℕ) (v : BitVec 32) : State :=
  { s with mem := fun b =>
      if (b - a).toNat < n then v.extractLsb' (8 * (b - a).toNat) 8 else s.mem b }

/-- The next instruction. -/
def advance : State := { s with pc := s.pc + 4 }

end State

/-- The address and the width of the data access of an instruction. -/
def Instr.dataAccess (i : Instr) (s : State) : Option (BitVec 32 × ℕ) :=
  match i with
  | load op _ rs1 offset => some (s.get rs1 + offset.signExtend 32, op.width)
  | store op rs1 _ offset => some (s.get rs1 + offset.signExtend 32, op.width)
  | _ => none

/-- Where an instruction transfers control to, if it does. -/
def Instr.target (i : Instr) (s : State) : Option (BitVec 32) :=
  match i with
  | jal _ offset => some (s.pc + offset.signExtend 32)
  | jalr _ rs1 offset => some ((s.get rs1 + offset.signExtend 32) &&& ~~~1)
  | branch op rs1 rs2 offset =>
    if op.taken (s.get rs1) (s.get rs2) then some (s.pc + offset.signExtend 32) else none
  | _ => none

/-- One instruction, whatever the alignment of its target. -/
def Instr.exec (i : Instr) (s : State) : State :=
  match i with
  | lui rd imm => (s.set rd (imm ++ 0#12)).advance
  | auipc rd imm => (s.set rd (s.pc + (imm ++ 0#12))).advance
  | jal rd offset => { s.set rd (s.pc + 4) with pc := s.pc + offset.signExtend 32 }
  | jalr rd rs1 offset =>
    { s.set rd (s.pc + 4) with pc := (s.get rs1 + offset.signExtend 32) &&& ~~~1 }
  | branch op rs1 rs2 offset =>
    if op.taken (s.get rs1) (s.get rs2) then { s with pc := s.pc + offset.signExtend 32 }
    else s.advance
  | load op rd rs1 offset =>
    (s.set rd (s.loadValue op (s.get rs1 + offset.signExtend 32))).advance
  | store op rs1 rs2 offset =>
    (s.write (s.get rs1 + offset.signExtend 32) op.width (s.get rs2)).advance
  | opImm op rd rs1 imm => (s.set rd (op.eval (s.get rs1) (imm.signExtend 32))).advance
  | shift op rd rs1 shamt => (s.set rd (op.eval (s.get rs1) shamt)).advance
  | reg op rd rs1 rs2 => (s.set rd (op.eval (s.get rs1) (s.get rs2))).advance

/-- One instruction where instructions are aligned to four bytes: a transfer of control to
any other address raises instruction-address-misaligned, and nothing is done. -/
def Instr.step (i : Instr) (s : State) : Option State :=
  if (i.target s).all fun t => t.extractLsb' 0 2 == 0 then some (i.exec s) else none

end RV32IM
