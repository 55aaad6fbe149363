import RipSim.Library.Words
import RipSim.Model.Instructions

/-!
# The assembler

`AsmParser`, `BinaryEmitter` and the assembling constructors of `Instructions.h`.  A
`std::string` is a list of characters, and the input stream the list of its lines.

The constructors end with the same `setVal` as those of the decoder, so an assembled
object is given by the members that make up its `Val`.  (`BInstruction` computes `Val` from
a local `Imm` that hides the member; nothing here reads the member.)
-/

namespace RipSim

/-- `std::string`. -/
abbrev Text := List Char

/-- What ends the assembler other than by returning. -/
inductive AsmFault where
  /-- A failing `assert`, by its text. -/
  | assert (msg : String)
  /-- A `std::runtime_error`, by its text. -/
  | runtimeError (msg : String)
  /-- `std::invalid_argument` of `stoi` or of `std::bitset`. -/
  | invalidArgument
  /-- `std::out_of_range` of `stoi`. -/
  | outOfRange
  /-- `Toks[0]` of an empty vector. -/
  | noToken
  deriving DecidableEq, Repr

/-! ## Characters and numbers -/

/-- `isspace` in the "C" locale. -/
def isspace (c : Char) : Bool := c == ' ' || (9 ≤ c.toNat && c.toNat ≤ 13)

/-- `std::isdigit`. -/
def isdigit (c : Char) : Bool := 48 ≤ c.toNat && c.toNat ≤ 57

/-- `std::isalnum` in the "C" locale. -/
def isalnum (c : Char) : Bool :=
  isdigit c || (65 ≤ c.toNat && c.toNat ≤ 90) || (97 ≤ c.toNat && c.toNat ≤ 122)

/-- The number a row of decimal digits stands for. -/
def digitsVal (ds : Text) : ℕ := ds.foldl (fun v c => 10 * v + (c.toNat - 48)) 0

/-- `std::stoi` in base ten: blanks, a sign, and as many digits as there are. -/
def stoi (str : Text) : Except AsmFault Int :=
  let str := str.dropWhile isspace
  let (neg, str) : Bool × Text :=
    match str with
    | '-' :: str => (true, str)
    | '+' :: str => (false, str)
    | str => (false, str)
  let ds := str.takeWhile isdigit
  if ds = [] then .error .invalidArgument
  else
    let v : Int := if neg then -(digitsVal ds : Int) else digitsVal ds
    if v < -2 ^ 31 ∨ 2 ^ 31 ≤ v then .error .outOfRange else .ok v

/-- `std::bitset<5>` of a string of zeros and ones, the first five of which count. -/
def bitset5 (str : Text) : Except AsmFault (BitVec 5) :=
  if str.all fun c => c == '0' || c == '1' then
    .ok ((str.take 5).foldl (fun b c => b <<< 1 ||| if c = '1' then 1 else 0) 0)
  else .error .invalidArgument

/-! ## Tables -/

/-- `GPRegMap`. -/
def GPRegMap : List (String × BitVec 5) :=
  [("x0", 0), ("zero", 0), ("x1", 1), ("ra", 1), ("x2", 2), ("sp", 2),
   ("x3", 3), ("gp", 3), ("x4", 4), ("tp", 4), ("x5", 5), ("t0", 5),
   ("x6", 6), ("t1", 6), ("x7", 7), ("t2", 7), ("x8", 8), ("s0", 8),
   ("fp", 8), ("x9", 9), ("s1", 9), ("x10", 10), ("a0", 10), ("x11", 11),
   ("a1", 11), ("x12", 12), ("a2", 12), ("x13", 13), ("a3", 13), ("x14", 14),
   ("a4", 14), ("x15", 15), ("a5", 15), ("x16", 16), ("a6", 16), ("x17", 17),
   ("a7", 17), ("x18", 18), ("s2", 18), ("x19", 19), ("s3", 19), ("x20", 20),
   ("s4", 20), ("x21", 21), ("s5", 21), ("x22", 22), ("s6", 22), ("x23", 23),
   ("s7", 23), ("x24", 24), ("s8", 24), ("x25", 25), ("s9", 25), ("x26", 26),
   ("s10", 26), ("x27", 27), ("s11", 27), ("x28", 28), ("t3", 28), ("x29", 29),
   ("t4", 29), ("x30", 30), ("t5", 30), ("x31", 31), ("t6", 31)]

/-- The mnemonic of an entry of `ITypeKinds`, which is its key. -/
def ITypeKinds.mnemonic : ITypeKinds → String
  | .addi => "addi" | .slti => "slti" | .sltiu => "sltiu" | .xori => "xori" | .ori => "ori"
  | .andi => "andi" | .jalr => "jalr" | .lb => "lb" | .lh => "lh" | .lw => "lw" | .lbu => "lbu"
  | .lhu => "lhu" | .slli => "slli" | .srli => "srli" | .srai => "srai" | .csrrw => "csrrw"
  | .csrrs => "csrrs" | .csrrc => "csrrc" | .csrrwi => "csrrwi" | .csrrsi => "csrrsi"
  | .csrrci => "csrrci" | .ecall => "ecall" | .ebreak => "ebreak" | .uret => "uret"
  | .sret => "sret" | .mret => "mret" | .ext => "ext" | .extx => "extx"

/-- The mnemonic of an entry of `RTypeKinds`. -/
def RTypeKinds.mnemonic : RTypeKinds → String
  | .add => "add" | .sub => "sub" | .sll => "sll" | .slt => "slt" | .sltu => "sltu" | .xor => "xor"
  | .srl => "srl" | .sra => "sra" | .or => "or" | .and => "and" | .mul => "mul" | .mulh => "mulh"
  | .mulhsu => "mulhsu" | .mulhu => "mulhu" | .div => "div" | .divu => "divu" | .rem => "rem"
  | .remu => "remu"

/-- The mnemonic of an entry of `UTypeKinds`. -/
def UTypeKinds.mnemonic : UTypeKinds → String
  | .lui => "lui" | .auipc => "auipc"

/-- The mnemonic of an entry of `JTypeKinds`. -/
def JTypeKinds.mnemonic : JTypeKinds → String
  | .jal => "jal"

/-- The mnemonic of an entry of `STypeKinds`. -/
def STypeKinds.mnemonic : STypeKinds → String
  | .sb => "sb" | .sh => "sh" | .sw => "sw"

/-- The mnemonic of an entry of `BTypeKinds`. -/
def BTypeKinds.mnemonic : BTypeKinds → String
  | .beq => "beq" | .bne => "bne" | .blt => "blt" | .bge => "bge" | .bltu => "bltu"
  | .bgeu => "bgeu"

/-- `find` of a table with the given entries. -/
def findKey {κ : Type} (table : List κ) (key : κ → String) (str : Text) : Option κ :=
  table.find? fun k => (key k).toList == str

def ITypeKinds.find : Text → Option ITypeKinds :=
  findKey [addi, slti, sltiu, xori, ori, andi, jalr, lb, lh, lw, lbu, lhu, slli, srli, srai, csrrw,
    csrrs, csrrc, csrrwi, csrrsi, csrrci, ecall, ebreak, uret, sret, mret, ext, extx] mnemonic

def RTypeKinds.find : Text → Option RTypeKinds :=
  findKey [add, sub, sll, slt, sltu, xor, srl, sra, or, and, mul, mulh, mulhsu, mulhu, div, divu,
    rem, remu] mnemonic

def UTypeKinds.find : Text → Option UTypeKinds := findKey [lui, auipc] mnemonic

def JTypeKinds.find : Text → Option JTypeKinds := findKey [jal] mnemonic

def STypeKinds.find : Text → Option STypeKinds := findKey [sb, sh, sw] mnemonic

def BTypeKinds.find : Text → Option BTypeKinds :=
  findKey [beq, bne, blt, bge, bltu, bgeu] mnemonic

/-- `findReg`, with the dereference of its callers. -/
def findReg (RegStr : Text) : Except AsmFault (BitVec 5) :=
  match findKey GPRegMap Prod.fst RegStr with
  | some RI => .ok RI.2
  | none => .error (.assert "invalid register name")

/-! ## The constructors -/

/-- `parseOffsetReg`: a number, and what follows it up to the first character of neither
loop. -/
def parseOffsetReg (input : Text) : Except AsmFault (Int × Text) :=
  let numStr := input.takeWhile fun c => isdigit c || c == '-'
  let rest := input.dropWhile fun c => isdigit c || c == '-'
  let identifier := rest.takeWhile fun c => isalnum c || c == '_'
  match stoi numStr with
  | .ok num => .ok (num, identifier)
  | .error _ => .error (.runtimeError "Failed to parse number from string.")

/-- `IInstruction(IT, Toks)`, for the numbers of tokens its caller lets through. -/
def asmI (IT : ITypeKinds) (Toks : List Text) : Except AsmFault Instruction :=
  let srai (Imm : BitVec 12) : BitVec 12 := if IT = .srai then Imm ||| 1#12 <<< 10 else Imm
  match Toks with
  | [_, Rd, Off] => do
    let Rd ← findReg Rd
    if IT ∈ [.lb, .lh, .lw, .lbu, .lhu] then
      -- op rd, offset(rs1): the register is taken from what parseOffsetReg leaves
      let OffReg ← parseOffsetReg Off
      let Rs1 ← bitset5 OffReg.2
      return .IInstruction IT Rd Rs1 (srai (BitVec.ofInt 12 OffReg.1))
    else .error (.assert "invarid offset(reg) notation except loads")
  | [_, Rd, Rs1, Imm] => do
    let Rd ← findReg Rd
    let Rs1 ← findReg Rs1
    let Imm ← stoi Imm
    return .IInstruction IT Rd Rs1 (srai (BitVec.ofInt 12 Imm))
  | _ => .error (.assert "Wrong token number I-Type Inst.")

/-- `RInstruction(RT, Toks)`. -/
def asmR (RT : RTypeKinds) (Toks : List Text) : Except AsmFault Instruction :=
  match Toks with
  | [_, Rd, Rs1, Rs2] => do
    let Rd ← findReg Rd
    let Rs1 ← findReg Rs1
    let Rs2 ← findReg Rs2
    return .RInstruction RT Rd Rs1 Rs2
  | _ => .error (.assert "Wrong token number R-Type Inst.")

/-- `UInstruction(UT, Toks)`. -/
def asmU (UT : UTypeKinds) (Toks : List Text) : Except AsmFault Instruction :=
  match Toks with
  | [_, Rd, Imm] => do
    let Rd ← findReg Rd
    let Imm ← stoi Imm
    return .UInstruction UT Rd (BitVec.ofInt 20 Imm)
  | _ => .error (.assert "Wrong token number for U-Type Inst.")

/-- `JInstruction(JT, Toks)`. -/
def asmJ (JT : JTypeKinds) (Toks : List Text) : Except AsmFault Instruction :=
  match Toks with
  | [_, Rd, Imm] => do
    let Rd ← findReg Rd
    let Imm ← stoi Imm
    return .JInstruction JT Rd (BitVec.ofInt 21 Imm)
  | _ => .error (.assert "Wrong token number for J-Type Inst.")

/-- `SInstruction(ST, Toks)`. -/
def asmS (ST : STypeKinds) (Toks : List Text) : Except AsmFault Instruction :=
  match Toks with
  | [_, Rs2, Off] => do
    let Rs2 ← findReg Rs2
    let OffReg ← parseOffsetReg Off
    let Rs1 ← bitset5 OffReg.2
    return .SInstruction ST Rs1 Rs2 (BitVec.ofInt 12 OffReg.1)
  | _ => .error (.assert "Wrong token number for S-Type Inst.")

/-- `BInstruction(BT, Toks)`. -/
def asmB (BT : BTypeKinds) (Toks : List Text) : Except AsmFault Instruction :=
  match Toks with
  | [_, Rs1, Rs2, Imm] => do
    let Rs1 ← findReg Rs1
    let Rs2 ← findReg Rs2
    let Imm ← stoi Imm
    return .BInstruction BT Rs1 Rs2 (BitVec.ofInt 13 Imm)
  | _ => .error (.assert "Wrong token number for B-Type Inst.")

/-! ## Lines -/

/-- `AsmParser::parseLineInner`: pieces between commas, and the words of each. -/
def parseLineInner (str : Text) : List Text :=
  (str.splitOnP (· == ',')).flatMap (Words.words isspace)

/-- The body of the loop of `BinaryEmitter::emitBinary`: the object made of a line's tokens. -/
def assemble (Toks : List Text) : Except AsmFault Instruction :=
  match Toks with
  | [] => .error .noToken
  | Mnemo :: _ =>
    match ITypeKinds.find Mnemo with
    | some IT => asmI IT Toks
    | none =>
    match RTypeKinds.find Mnemo with
    | some RT => asmR RT Toks
    | none =>
    match UTypeKinds.find Mnemo with
    | some UT => asmU UT Toks
    | none =>
    match JTypeKinds.find Mnemo with
    | some JT => asmJ JT Toks
    | none =>
    match STypeKinds.find Mnemo with
    | some ST => asmS ST Toks
    | none =>
    match BTypeKinds.find Mnemo with
    | some BT => asmB BT Toks
    | none => .error (.assert "unimplemented!")

/-- `Labels`: a label and its address, 32 bits wide here. -/
abbrev LabelMap := Text → Option (BitVec 32)

/-- `Labels.insert({lab, PC})`: a label that is there keeps its address. -/
def LabelMap.insert (Labels : LabelMap) (lab : Text) (PC : BitVec 32) : LabelMap :=
  match Labels lab with
  | some _ => Labels
  | none => Function.update Labels lab (some PC)

/-- `line.substr(0, line.find(':'))`. -/
def labelOf (line : Text) : Text := line.takeWhile (· != ':')

/-- The loop of `AsmParser::AsmParser`. -/
def initLabels : List Text → BitVec 32 → LabelMap → LabelMap
  | [], _, Labels => Labels
  | line :: lines, PC, Labels =>
    if ':' ∈ line then initLabels lines PC (Labels.insert (labelOf line) PC)
    else initLabels lines (PC + 4) Labels

/-- `getLabels` of the parser constructed from the lines. -/
def getLabels (lines : List Text) : LabelMap := initLabels lines 0 fun _ => none

/-- The four bytes `Instruction::emitBinary` writes. -/
def bytesOf (Val : Word) : List Byte :=
  [Val.extractLsb' 0 8, Val.extractLsb' 8 8, Val.extractLsb' 16 8, Val.extractLsb' 24 8]

/-- `BinaryEmitter::emitBinary`, with the loop of `AsmParser::parseLine`, which passes over the
lines with a label.  The constructor has put the stream back to its beginning. -/
def emitBinary : List Text → Except AsmFault (List Byte)
  | [] => .ok []
  | line :: lines =>
    if ':' ∈ line then emitBinary lines
    else do
      let Inst ← assemble (parseLineInner line)
      let os ← emitBinary lines
      return bytesOf Inst.getVal ++ os

end RipSim
