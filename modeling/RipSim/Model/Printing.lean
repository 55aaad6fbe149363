import RipSim.Model.Assembler

/-!
# Printed instructions

`Instruction::mprint` of the classes of `Instructions.h`, with the tables it reads.  The line
that `PipelineStates::printJSON` writes for a stage shows its instruction in this way.
-/

namespace RipSim

/-- `ABI`. -/
def ABINames : List String :=
  ["zero", " ra ", " sp ", " gp ", " tp ", " t0 ", " t1 ", " t2 ",
   " s0 ", " s1 ", " a0 ", " a1 ", " a2 ", " a3 ", " a4 ", " a5 ",
   " a6 ", " a7 ", " s2 ", " s3 ", " s4 ", " s5 ", " s6 ", " s7 ",
   " s8 ", " s9 ", " s10", " s11", " t3 ", " t4 ", " t5 ", " t6 "]

/-- `ABI[r.to_ulong()]`. -/
def ABI (r : BitVec 5) : Text := (ABINames.get r.toFin).toList

/-- `CSRNames`.  Its keys have the 16 bits of `CSRAddress`. -/
def CSRNames : List (BitVec 16 × String) :=
  [(0x180, "satp"), (0x300, "mstatus"), (0x302, "medeleg"), (0x303, "mideleg"), (0x304, "mie"),
   (0x305, "mtvec"), (0x341, "mepc"), (0x342, "mcause"), (0x343, "mtval"), (0x3a0, "pmpcfg"),
   (0x3b0, "pmpaddr"), (0xc00, "cycle"), (0xf14, "mhartid"), (0xfc0, "bptp"), (0xfc1, "bptn"),
   (0xfc2, "bpfp"), (0xfc3, "bpfn")]

/-- `os << std::dec <<` a number. -/
def dec : Int → Text
  | .ofNat n => Nat.toDigits 10 n
  | .negSucc n => '-' :: Nat.toDigits 10 (n + 1)

/-- `signExtend` of a `std::bitset`. -/
def signExtendInt {n : ℕ} (bs : BitVec n) : Int := (bs.signExtend 32).toInt

/-- `(int)str.rfind(pat) != -1`. -/
def rfind (str pat : Text) : Bool := decide (pat <:+: str)

/-- What the branches for csr instructions print for the address of the CSR. -/
def csrText (Imm : BitVec 12) : Text :=
  let CSRAddr : BitVec 16 := (Imm.signExtend 32).setWidth 16
  match CSRNames.lookup CSRAddr with
  | some name => name.toList
  | none => dec CSRAddr.toNat

/-- An offset in parentheses, in front of a register. -/
def offsetText (Imm : BitVec 12) (Rs1 : BitVec 5) : Text :=
  "(".toList ++ dec (signExtendInt Imm) ++ ")".toList ++ ABI Rs1

/-- `IInstruction::mprint`. -/
def mprintI (IT : ITypeKinds) (Rd Rs1 : BitVec 5) (Imm : BitVec 12) : Text :=
  let Mnemo := IT.mnemonic.toList
  if IT ∈ [.lb, .lh, .lw, .lbu, .lhu] then
    Mnemo ++ " ".toList ++ ABI Rd ++ " ".toList ++ offsetText Imm Rs1
  else if rfind Mnemo "csr".toList && !rfind Mnemo "i".toList then
    Mnemo ++ " ".toList ++ ABI Rd ++ " ".toList ++ " ".toList ++ csrText Imm ++ " ".toList ++
      ABI Rs1
  else if rfind Mnemo "csr".toList && rfind Mnemo "i".toList then
    Mnemo ++ " ".toList ++ ABI Rd ++ " ".toList ++ " ".toList ++ csrText Imm ++ " ".toList ++
      dec Rs1.toNat
  else if IT = .ecall || IT = .ebreak || rfind Mnemo "ret".toList then Mnemo
  else
    Mnemo ++ " ".toList ++ ABI Rd ++ " ".toList ++ ABI Rs1 ++ " ".toList ++ dec (signExtendInt Imm)

/-- `Instruction::mprint`. -/
def Instruction.mprint : Instruction → Text
  | IInstruction IT Rd Rs1 Imm => mprintI IT Rd Rs1 Imm
  | RInstruction RT Rd Rs1 Rs2 =>
    RT.mnemonic.toList ++ " ".toList ++ ABI Rd ++ " ".toList ++ ABI Rs1 ++ " ".toList ++ ABI Rs2
  | UInstruction UT Rd Imm =>
    UT.mnemonic.toList ++ " ".toList ++ ABI Rd ++ " ".toList ++ dec (signExtendInt Imm)
  | JInstruction JT Rd Imm =>
    JT.mnemonic.toList ++ " ".toList ++ ABI Rd ++ " ".toList ++ dec (signExtendInt Imm)
  | SInstruction ST Rs1 Rs2 Imm =>
    ST.mnemonic.toList ++ " ".toList ++ ABI Rs2 ++ " ".toList ++ offsetText Imm Rs1
  | BInstruction BT Rs1 Rs2 Imm =>
    -- nothing stands between the second register and the number
    BT.mnemonic.toList ++ " ".toList ++ ABI Rs1 ++ " ".toList ++ ABI Rs2 ++ dec (signExtendInt Imm)

end RipSim
