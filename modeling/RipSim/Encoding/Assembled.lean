import RipSim.Encoding.Accepted
import RipSim.Encoding.Lines

/-!
# Decoding undoes assembling

The decoder finds in the word of an object the members the object was made of, except for
the custom rows, of which it looks at rs2 alone.  So the word of a line decodes to what the
line says, provided the constructor read all of the line: the base register of a load or a
store it does not, since `parseOffsetReg` stops at the parenthesis and an empty string is
the `bitset` of x0.
-/

namespace RipSim

open BitField
open RV32IM (opcode rd funct3 rs1 rs2 funct7 immI immS immB immU immJ)

/-! ## Decoding the word of an object -/

namespace Instruction

theorem opcode_getVal (I : Instruction) : opcode I.getVal = match I with
    | .IInstruction IT _ _ _ => IT.getOpcode
    | .RInstruction RT _ _ _ => RT.getOpcode
    | .UInstruction UT _ _ => UT.getOpcode
    | .JInstruction JT _ _ => JT.getOpcode
    | .SInstruction ST _ _ _ => ST.getOpcode
    | .BInstruction BT _ _ _ => BT.getOpcode := by
  cases I <;> simp [opcode, getVal, BitVec.extractLsb'_or]

theorem rd_getVal {I : Instruction} (h : I.hasRd = true) : RV32IM.rd I.getVal = I.rd :=
  (Decoder.rd_eq _).symm.trans (rd_field h)

theorem rs1_getVal {I : Instruction} (h : I.hasRs1 = true) : RV32IM.rs1 I.getVal = I.rs1 :=
  (Decoder.rs1_eq _).symm.trans (rs1_field h)

theorem rs2_getVal {I : Instruction} (h : I.hasRs2 = true) : RV32IM.rs2 I.getVal = I.rs2 :=
  (Decoder.rs2_eq _).symm.trans (rs2_field h)

section Classes

variable (IT : ITypeKinds) (RT : RTypeKinds) (UT : UTypeKinds) (JT : JTypeKinds) (ST : STypeKinds)
  (BT : BTypeKinds) (Rd Rs1 Rs2 : BitVec 5)

theorem fields_I (Imm : BitVec 12) :
    funct3 (IInstruction IT Rd Rs1 Imm).getVal = IT.getFunct3 ∧
      immI (IInstruction IT Rd Rs1 Imm).getVal = Imm ∧
      RV32IM.rs2 (IInstruction IT Rd Rs1 Imm).getVal = Imm.extractLsb' 0 5 ∧
      funct7 (IInstruction IT Rd Rs1 Imm).getVal = Imm.extractLsb' 5 7 := by
  refine ⟨?_, ?_, ?_, ?_⟩
  · simp [funct3, getVal, BitVec.extractLsb'_or]
  · simp [immI, getVal, BitVec.extractLsb'_or]
  · apply BitVec.eq_of_getLsbD_eq
    intro i hi
    simp only [RV32IM.rs2, getVal, BitVec.getLsbD_extractLsb', BitVec.getLsbD_or,
      BitVec.getLsbD_shiftLeft, BitVec.getLsbD_setWidth]
    interval_cases i <;> simp
  · apply BitVec.eq_of_getLsbD_eq
    intro i hi
    simp only [funct7, getVal, BitVec.getLsbD_extractLsb', BitVec.getLsbD_or,
      BitVec.getLsbD_shiftLeft, BitVec.getLsbD_setWidth]
    interval_cases i <;> simp

theorem decode_R : Decoder.decode (RInstruction RT Rd Rs1 Rs2).getVal =
    some (.RInstruction RT Rd Rs1 Rs2) := by
  have hf3 : funct3 (RInstruction RT Rd Rs1 Rs2).getVal = RT.getFunct3 := by
    simp [funct3, getVal, BitVec.extractLsb'_or]
  have hf7 : funct7 (RInstruction RT Rd Rs1 Rs2).getVal = RT.getFunct7 := by
    simp [funct7, getVal, BitVec.extractLsb'_or]
  rw [Decoder.decode_eq_fields, opcode_getVal, rd_getVal rfl, rs1_getVal rfl, rs2_getVal rfl, hf3,
    hf7]
  cases RT <;> rfl

theorem decode_U (Imm : BitVec 20) : Decoder.decode (UInstruction UT Rd Imm).getVal =
    some (.UInstruction UT Rd Imm) := by
  have himm : immU (UInstruction UT Rd Imm).getVal = Imm := by
    simp [immU, getVal, BitVec.extractLsb'_or]
  rw [Decoder.decode_eq_fields, opcode_getVal, rd_getVal rfl, himm]
  cases UT <;> rfl

theorem decode_J {Imm : BitVec 21} (he : Imm[0] = false) :
    Decoder.decode (JInstruction JT Rd Imm).getVal = some (.JInstruction JT Rd Imm) := by
  have himm : immJ (JInstruction JT Rd Imm).getVal = Imm := by
    apply BitVec.eq_of_getLsbD_eq
    intro i hi
    simp only [immJ, getVal, BitVec.getLsbD_append, BitVec.getLsbD_extractLsb', BitVec.getLsbD_or,
      BitVec.getLsbD_and, BitVec.getLsbD_ushiftRight, BitVec.getLsbD_shiftLeft,
      BitVec.getLsbD_setWidth]
    interval_cases i <;> simp [he]
  rw [Decoder.decode_eq_fields, opcode_getVal, rd_getVal rfl, himm]
  cases JT
  rfl

theorem decode_S (Imm : BitVec 12) : Decoder.decode (SInstruction ST Rs1 Rs2 Imm).getVal =
    some (.SInstruction ST Rs1 Rs2 Imm) := by
  have hf3 : funct3 (SInstruction ST Rs1 Rs2 Imm).getVal = ST.getFunct3 := by
    simp [funct3, getVal, BitVec.extractLsb'_or, and_low _ (31#32) 5 (by decide)]
  have himm : immS (SInstruction ST Rs1 Rs2 Imm).getVal = Imm := by
    apply BitVec.eq_of_getLsbD_eq
    intro i hi
    simp only [immS, getVal, BitVec.getLsbD_append, BitVec.getLsbD_extractLsb', BitVec.getLsbD_or,
      BitVec.getLsbD_and, BitVec.getLsbD_ushiftRight, BitVec.getLsbD_shiftLeft,
      BitVec.getLsbD_setWidth]
    interval_cases i <;> simp
  rw [Decoder.decode_eq_fields, opcode_getVal, rs1_getVal rfl, rs2_getVal rfl, hf3]
  show Decoder.decodeStore _ Rs1 Rs2 _ = _
  unfold Decoder.decodeStore
  rw [Decoder.immS_eq, himm]
  cases ST <;> rfl

theorem decode_B {Imm : BitVec 13} (he : Imm[0] = false) :
    Decoder.decode (BInstruction BT Rs1 Rs2 Imm).getVal = some (.BInstruction BT Rs1 Rs2 Imm) := by
  have hf3 : funct3 (BInstruction BT Rs1 Rs2 Imm).getVal = BT.getFunct3 := by
    simp [funct3, getVal, BitVec.extractLsb'_or,
      and_ushiftRight _ (0b0000000011110#32) 1 4 (by decide),
      and_ushiftRight _ (0b0100000000000#32) 11 1 (by decide)]
  have himm : immB (BInstruction BT Rs1 Rs2 Imm).getVal = Imm := by
    apply BitVec.eq_of_getLsbD_eq
    intro i hi
    simp only [immB, getVal, BitVec.getLsbD_append, BitVec.getLsbD_extractLsb', BitVec.getLsbD_or,
      BitVec.getLsbD_and, BitVec.getLsbD_ushiftRight, BitVec.getLsbD_shiftLeft,
      BitVec.getLsbD_setWidth]
    interval_cases i <;> simp [he]
  rw [Decoder.decode_eq_fields, opcode_getVal, rs1_getVal rfl, rs2_getVal rfl, hf3]
  show Decoder.decodeBranch _ Rs1 Rs2 _ = _
  unfold Decoder.decodeBranch
  rw [Decoder.immB_eq, himm]
  cases BT <;> rfl

/-- The rows that keep the whole immediate. -/
theorem decode_I (hIT : IT ∈ [.addi, .slti, .sltiu, .xori, .ori, .andi, .jalr, .lb, .lh, .lw, .lbu,
    .lhu, .slli]) (Imm : BitVec 12) : Decoder.decode (IInstruction IT Rd Rs1 Imm).getVal =
      some (.IInstruction IT Rd Rs1 Imm) := by
  obtain ⟨hf3, himm, -, -⟩ := fields_I IT Rd Rs1 Imm
  rw [Decoder.decode_eq_fields, opcode_getVal, rd_getVal rfl, rs1_getVal rfl, hf3, himm]
  unfold Decoder.decodeLoad Decoder.decodeOpImm
  rw [Decoder.immI_eq, himm]
  cases IT with
  | addi | slti | sltiu | xori | ori | andi | jalr | lb | lh | lw | lbu | lhu | slli => rfl
  | _ => exact absurd hIT (by decide)

/-- The rows that keep five bits of it. -/
theorem decode_shift (hIT : IT ∈ [.srli, .srai]) (Imm : BitVec 12) (shamt : BitVec 5)
    (hlow : Imm.extractLsb' 0 5 = shamt) (hhigh : Imm.extractLsb' 5 7 = 0 ↔ IT = .srli) :
    Decoder.decode (IInstruction IT Rd Rs1 Imm).getVal =
      some (.IInstruction IT Rd Rs1 (shamt.setWidth 12)) := by
  obtain ⟨hf3, -, hrs2, hf7⟩ := fields_I IT Rd Rs1 Imm
  have hzero : (Imm.extractLsb' 5 7).setWidth 32 = 0#32 ↔ IT = .srli :=
    Iff.trans ⟨fun h => Decoder.eq_of_setWidth (by decide) h, fun h => by rw [h]; rfl⟩ hhigh
  rw [Decoder.decode_eq_fields, opcode_getVal, rd_getVal rfl, rs1_getVal rfl, hf3, hf7]
  unfold Decoder.decodeOpImm
  rw [Decoder.shamt_eq, hrs2, hlow]
  cases IT with
  | srli => exact if_pos (hzero.mpr rfl)
  | srai => exact if_neg fun h => nomatch hzero.mp h
  | _ => exact absurd hIT (by decide)

/-- The custom-0 rows look at rs2 alone. -/
theorem decode_custom (hIT : IT ∈ [.ext, .extx]) (Imm : BitVec 12) :
    Decoder.decode (IInstruction IT Rd Rs1 Imm).getVal =
      if Imm.extractLsb' 0 5 = 0 then some (.IInstruction .extx 0 0 0)
      else if Imm.extractLsb' 0 5 = 1 then some (.IInstruction .ext 0 0 0)
      else none := by
  obtain ⟨-, -, hrs2, -⟩ := fields_I IT Rd Rs1 Imm
  rw [Decoder.decode_eq_fields, opcode_getVal, hrs2]
  cases IT with
  | ext | extx => rfl
  | _ => exact absurd hIT (by decide)

end Classes

end Instruction

/-! ## Lines and their words -/

/-- A number of a line. -/
structure Decimal where
  str : Text
  val : Int
  spelled : IsDecimal str val

/-- What a line may say, outside the csr and system instructions. -/
inductive AsmInst where
  /-- op rd, rs1, rs2 -/
  | reg (op : RTypeKinds) (rd rs1 rs2 : RegName)
  /-- op rd, rs1, imm -/
  | imm (op : ITypeKinds) (rd rs1 : RegName) (n : Decimal)
  /-- load rd, offset(rs1) -/
  | load (op : ITypeKinds) (rd : RegName) (offset : Decimal) (rs1 : RegName)
  /-- store rs2, offset(rs1) -/
  | store (op : STypeKinds) (rs2 : RegName) (offset : Decimal) (rs1 : RegName)
  /-- branch rs1, rs2, offset -/
  | branch (op : BTypeKinds) (rs1 rs2 : RegName) (offset : Decimal)
  /-- lui/auipc rd, imm -/
  | upper (op : UTypeKinds) (rd : RegName) (n : Decimal)
  /-- jal rd, offset -/
  | jump (op : JTypeKinds) (rd : RegName) (offset : Decimal)

namespace AsmInst

/-- The token of an offset and a base register. -/
def offsetReg (offset : Decimal) (rs1 : RegName) : Text :=
  offset.str ++ '(' :: (rs1.name ++ [')'])

/-- The tokens of the line. -/
def tokens : AsmInst → List Text
  | reg op rd rs1 rs2 => [op.mnemonic.toList, rd.name, rs1.name, rs2.name]
  | imm op rd rs1 n => [op.mnemonic.toList, rd.name, rs1.name, n.str]
  | load op rd offset rs1 => [op.mnemonic.toList, rd.name, offsetReg offset rs1]
  | store op rs2 offset rs1 => [op.mnemonic.toList, rs2.name, offsetReg offset rs1]
  | branch op rs1 rs2 offset => [op.mnemonic.toList, rs1.name, rs2.name, offset.str]
  | upper op rd n => [op.mnemonic.toList, rd.name, n.str]
  | jump op rd offset => [op.mnemonic.toList, rd.name, offset.str]

/-- The mnemonic belongs to the form, and the number is in the range of the format. -/
def InRange : AsmInst → Prop
  | reg _ _ _ _ => True
  | imm op _ _ n =>
    match op with
    | .csrrw | .csrrs | .csrrc | .csrrwi | .csrrsi | .csrrci | .ecall | .ebreak | .uret | .sret
    | .mret => False
    | .slli | .srli | .srai => 0 ≤ n.val ∧ n.val ≤ 31
    | _ => -2048 ≤ n.val ∧ n.val ≤ 2047
  | load op _ offset _ =>
    op ∈ [.lb, .lh, .lw, .lbu, .lhu] ∧ -2048 ≤ offset.val ∧ offset.val ≤ 2047
  | store _ _ offset _ => -2048 ≤ offset.val ∧ offset.val ≤ 2047
  | branch _ _ _ offset => -4096 ≤ offset.val ∧ offset.val ≤ 4094 ∧ offset.val % 2 = 0
  | upper _ _ n => -2 ^ 19 ≤ n.val ∧ n.val < 2 ^ 20
  | jump _ _ offset => -2 ^ 20 ≤ offset.val ∧ offset.val ≤ 2 ^ 20 - 2 ∧ offset.val % 2 = 0

/-- The instruction the line says. -/
def meant : AsmInst → Instruction
  | reg op rd rs1 rs2 => .RInstruction op rd.num rs1.num rs2.num
  | imm op rd rs1 n => .IInstruction op rd.num rs1.num (BitVec.ofInt 12 n.val)
  | load op rd offset rs1 => .IInstruction op rd.num rs1.num (BitVec.ofInt 12 offset.val)
  | store op rs2 offset rs1 => .SInstruction op rs1.num rs2.num (BitVec.ofInt 12 offset.val)
  | branch op rs1 rs2 offset => .BInstruction op rs1.num rs2.num (BitVec.ofInt 13 offset.val)
  | upper op rd n => .UInstruction op rd.num (BitVec.ofInt 20 n.val)
  | jump op rd offset => .JInstruction op rd.num (BitVec.ofInt 21 offset.val)

/-- The lines whose word keeps all they say: a load or a store of the form offset(rs1) from x0,
and of the custom rows the one without operands. -/
def Kept : AsmInst → Prop
  | load _ _ _ rs1 | store _ _ _ rs1 => rs1.num = 0
  | imm op rd rs1 n =>
    match op with
    | .ext => False
    | .extx => rd.num = 0 ∧ rs1.num = 0 ∧ n.val = 0
    | _ => True
  | _ => True

/-- The object the constructors make of the line. -/
def object : AsmInst → Instruction
  | reg op rd rs1 rs2 => .RInstruction op rd.num rs1.num rs2.num
  | imm op rd rs1 n => .IInstruction op rd.num rs1.num
    (if op = .srai then BitVec.ofInt 12 n.val ||| 1#12 <<< 10 else BitVec.ofInt 12 n.val)
  | load op rd offset _ => .IInstruction op rd.num 0 (BitVec.ofInt 12 offset.val)
  | store op rs2 offset _ => .SInstruction op 0 rs2.num (BitVec.ofInt 12 offset.val)
  | branch op rs1 rs2 offset => .BInstruction op rs1.num rs2.num (BitVec.ofInt 13 offset.val)
  | upper op rd n => .UInstruction op rd.num (BitVec.ofInt 20 n.val)
  | jump op rd offset => .JInstruction op rd.num (BitVec.ofInt 21 offset.val)

theorem isToken_tokens (e : AsmInst) : ∀ t ∈ e.tokens, IsToken t := by
  intro t ht
  cases e <;> simp only [tokens, List.mem_cons, List.not_mem_nil, or_false] at ht
  case reg op rd rs1 rs2 =>
    rcases ht with rfl | rfl | rfl | rfl
    · exact isToken_R op
    · exact rd.isToken
    · exact rs1.isToken
    · exact rs2.isToken
  case imm op rd rs1 n =>
    rcases ht with rfl | rfl | rfl | rfl
    · exact isToken_I op
    · exact rd.isToken
    · exact rs1.isToken
    · exact n.spelled.isToken
  case load op rd offset rs1 =>
    rcases ht with rfl | rfl | rfl
    · exact isToken_I op
    · exact rd.isToken
    · exact isToken_offset offset.spelled rs1
  case store op rs2 offset rs1 =>
    rcases ht with rfl | rfl | rfl
    · exact isToken_S op
    · exact rs2.isToken
    · exact isToken_offset offset.spelled rs1
  case branch op rs1 rs2 offset =>
    rcases ht with rfl | rfl | rfl | rfl
    · exact isToken_B op
    · exact rs1.isToken
    · exact rs2.isToken
    · exact offset.spelled.isToken
  case upper op rd n =>
    rcases ht with rfl | rfl | rfl
    · exact isToken_U op
    · exact rd.isToken
    · exact n.spelled.isToken
  case jump op rd offset =>
    rcases ht with rfl | rfl | rfl
    · exact isToken_J op
    · exact rd.isToken
    · exact offset.spelled.isToken

/-- The constructors accept the line. -/
theorem assemble_tokens {e : AsmInst} (h : e.InRange) : assemble e.tokens = .ok e.object := by
  cases e with
  | reg op rd rs1 rs2 =>
    simp only [tokens, assemble_R, asmR, rd.found, rs1.found, rs2.found]
    rfl
  | imm op rd rs1 n =>
    have hn : -2 ^ 31 ≤ n.val ∧ n.val < 2 ^ 31 := by
      cases op <;> simp only [InRange] at h <;> omega
    simp only [tokens, assemble_I, asmI, rd.found, rs1.found, stoi_decimal n.spelled hn.1 hn.2]
    rfl
  | load op rd offset rs1 =>
    obtain ⟨hop, hlo, hhi⟩ := h
    have hsrai : op ≠ .srai := by rintro rfl; exact absurd hop (by decide)
    simp only [tokens, assemble_I, asmI, rd.found, if_pos hop, if_neg hsrai, offsetReg,
      parseOffsetReg_decimal offset.spelled (by omega : -2 ^ 31 ≤ offset.val) (by omega)]
    rfl
  | store op rs2 offset rs1 =>
    obtain ⟨hlo, hhi⟩ := h
    simp only [tokens, assemble_S, asmS, rs2.found, offsetReg,
      parseOffsetReg_decimal offset.spelled (by omega : -2 ^ 31 ≤ offset.val) (by omega)]
    rfl
  | branch op rs1 rs2 offset =>
    obtain ⟨hlo, hhi, -⟩ := h
    simp only [tokens, assemble_B, asmB, rs1.found, rs2.found,
      stoi_decimal offset.spelled (by omega : -2 ^ 31 ≤ offset.val) (by omega)]
    rfl
  | upper op rd n =>
    obtain ⟨hlo, hhi⟩ := h
    simp only [tokens, assemble_U, asmU, rd.found,
      stoi_decimal n.spelled (by omega : -2 ^ 31 ≤ n.val) (by omega)]
    rfl
  | jump op rd offset =>
    obtain ⟨hlo, hhi, -⟩ := h
    simp only [tokens, assemble_J, asmJ, rd.found,
      stoi_decimal offset.spelled (by omega : -2 ^ 31 ≤ offset.val) (by omega)]
    rfl

/-- A shift amount fills the low five bits, and the bit `srai` adds is above them. -/
theorem shamt_fields {n : Int} (h : 0 ≤ n ∧ n ≤ 31) :
    (BitVec.ofInt 12 n).extractLsb' 0 5 = BitVec.ofInt 5 n ∧
      (BitVec.ofInt 12 n).extractLsb' 5 7 = 0 ∧
      (BitVec.ofInt 12 n ||| 1#12 <<< 10).extractLsb' 0 5 = BitVec.ofInt 5 n ∧
      (BitVec.ofInt 12 n ||| 1#12 <<< 10).extractLsb' 5 7 = 32 ∧
      (BitVec.ofInt 5 n).setWidth 12 = BitVec.ofInt 12 n := by
  obtain ⟨k, rfl⟩ := Int.eq_ofNat_of_zero_le h.1
  have hk : k ≤ 31 := by omega
  interval_cases k <;> decide

/-- An even number has a clear low bit at every width. -/
theorem ofInt_even {w : ℕ} {n : Int} (h : n % 2 = 0) (hw : 0 < w) :
    (BitVec.ofInt w n)[0] = false := by
  have hdvd : (2 : Int) ∣ ((2 ^ w : ℕ) : Int) := by
    exact_mod_cast dvd_pow_self 2 (Nat.pos_iff_ne_zero.mp hw)
  have hmod : n % ((2 ^ w : ℕ) : Int) % 2 = 0 := by rw [Int.emod_emod_of_dvd n hdvd, h]
  rw [BitVec.getElem_eq_testBit_toNat, BitVec.toNat_ofInt, Nat.testBit_zero,
    decide_eq_false_iff_not]
  omega

/-- In the range of the format only zero has a zero immediate. -/
theorem eq_zero_of_ofInt {n : Int} (h : -2048 ≤ n ∧ n ≤ 2047) (h0 : BitVec.ofInt 12 n = 0) :
    n = 0 := by
  have hmod : (BitVec.ofInt 12 n).toNat = 0 := by rw [h0]; rfl
  rw [BitVec.toNat_ofInt] at hmod
  omega

/-- The word of the line decodes to what the line says exactly when it keeps all of it. -/
theorem decode_object {e : AsmInst} (h : e.InRange) :
    Decoder.decode e.object.getVal = some e.meant ↔ e.Kept := by
  cases e with
  | reg op rd rs1 rs2 => exact iff_of_true (Instruction.decode_R _ _ _ _) trivial
  | imm op rd rs1 n =>
    cases op with
    | srli =>
      obtain ⟨hlow, hhigh, -, -, hwide⟩ := shamt_fields h
      refine iff_of_true ?_ trivial
      rw [object, if_neg (by decide), Instruction.decode_shift .srli _ _ (by decide) _ _ hlow
        (iff_of_true hhigh rfl), hwide, meant]
    | srai =>
      obtain ⟨-, -, hlow, hhigh, hwide⟩ := shamt_fields h
      refine iff_of_true ?_ trivial
      rw [object, if_pos rfl, Instruction.decode_shift .srai _ _ (by decide) _ _ hlow
        (iff_of_false (by rw [hhigh]; decide) (by decide)), hwide, meant]
    | ext =>
      refine iff_of_false (fun hd => ?_) id
      rw [object, if_neg (by decide), Instruction.decode_custom .ext _ _ (by decide)] at hd
      split at hd
      · nomatch hd
      · rename_i hne
        split at hd
        · -- the decoded object has no immediate, so neither has the line
          rw [meant, Option.some.injEq, Instruction.IInstruction.injEq] at hd
          exact hne (by rw [← hd.2.2.2]; decide)
        · nomatch hd
    | extx =>
      rw [object, if_neg (by decide), Instruction.decode_custom .extx _ _ (by decide), meant]
      constructor
      · intro hd
        split at hd
        · rw [Option.some.injEq, Instruction.IInstruction.injEq] at hd
          exact ⟨hd.2.1.symm, hd.2.2.1.symm, eq_zero_of_ofInt h hd.2.2.2.symm⟩
        · split at hd <;> nomatch hd
      · rintro ⟨hrd, hrs1, hn⟩
        rw [hrd, hrs1, hn]
        rfl
    | addi | slti | sltiu | xori | ori | andi | jalr | lb | lh | lw | lbu | lhu | slli =>
      exact iff_of_true (Instruction.decode_I _ _ _ (by decide) _) trivial
    | _ => exact h.elim
  | load op rd offset rs1 =>
    obtain ⟨hop, -, -⟩ := h
    have hloads : [ITypeKinds.lb, .lh, .lw, .lbu, .lhu] ⊆ [.addi, .slti, .sltiu, .xori, .ori, .andi,
        .jalr, .lb, .lh, .lw, .lbu, .lhu, .slli] := by decide
    have hd : Decoder.decode (Instruction.IInstruction op rd.num 0 _).getVal = _ :=
      Instruction.decode_I op rd.num 0 (hloads hop)
        (BitVec.ofInt 12 offset.val)
    rw [object, hd, meant, Option.some.injEq, Instruction.IInstruction.injEq]
    exact ⟨fun h => h.2.2.1.symm, fun h => ⟨rfl, rfl, h.symm, rfl⟩⟩
  | store op rs2 offset rs1 =>
    rw [object, Instruction.decode_S, meant, Option.some.injEq, Instruction.SInstruction.injEq]
    exact ⟨fun h => h.2.1.symm, fun h => ⟨rfl, h.symm, rfl, rfl⟩⟩
  | branch op rs1 rs2 offset =>
    exact iff_of_true (Instruction.decode_B _ _ _ (ofInt_even h.2.2 (by decide))) trivial
  | upper op rd n => exact iff_of_true (Instruction.decode_U _ _ _) trivial
  | jump op rd offset =>
    exact iff_of_true (Instruction.decode_J _ _ (ofInt_even h.2.2 (by decide))) trivial

end AsmInst

/-- The assembler writes the word of one object for each line, in order. -/
theorem emitBinary_lines {prog : List (AsmInst × Text)}
    (h : ∀ p ∈ prog, p.1.InRange ∧ Spells p.1.tokens p.2) :
    emitBinary (prog.map (·.2)) =
      .ok ((prog.map fun p => p.1.object.getVal).flatMap bytesOf) := by
  induction prog with
  | nil => rfl
  | cons p prog ih =>
    obtain ⟨hin, hline⟩ := h p List.mem_cons_self
    have hnext := ih fun q hq => h q (List.mem_cons_of_mem p hq)
    rw [List.map_cons, emitBinary, if_neg (no_label hline p.1.isToken_tokens),
      parseLineInner_spells hline p.1.isToken_tokens, AsmInst.assemble_tokens hin, hnext]
    rfl

/-- **Decoding undoes assembling, but for the base registers.**  The words of a program decode
to what its lines say exactly where these are kept. -/
theorem assembled_iff (prog : List (AsmInst × Text))
    (h : ∀ p ∈ prog, p.1.InRange ∧ Spells p.1.tokens p.2) :
    ∃ ws, emitBinary (prog.map (·.2)) = .ok (ws.flatMap bytesOf) ∧
      List.Forall₂ (fun p w => Decoder.decode w = some p.1.meant ↔ p.1.Kept) prog ws := by
  refine ⟨prog.map fun p => p.1.object.getVal, emitBinary_lines h, ?_⟩
  rw [List.forall₂_map_right_iff, List.forall₂_same]
  exact fun p hp => AsmInst.decode_object (h p hp).1

/-- A load with its base register by its second name. -/
theorem assembled_iff_lw : ∃ ws,
    emitBinary ["lw ra, -4(zero)".toList] = .ok (ws.flatMap bytesOf) ∧
      List.Forall₂ (fun p w => Decoder.decode w = some p.1.meant ↔ p.1.Kept)
        [(AsmInst.load .lw ⟨"ra".toList, 1, rfl⟩
          ⟨"-4".toList, -4, @IsDecimal.neg ['4'] (List.cons_ne_nil _ _) (List.all_eq_true.mp rfl)⟩
          ⟨"zero".toList, 0, rfl⟩, "lw ra, -4(zero)".toList)] ws := by
  refine assembled_iff [(_, _)] fun p hp => ?_
  rw [List.mem_singleton.mp hp]
  refine ⟨⟨by decide, by decide, by decide⟩, ?_⟩
  have hend : Spells [] [] := .nil (List.forall_mem_nil _)
  have hoff : Spells ["-4(zero)".toList] ([',', ' '] ++ ("-4(zero)".toList ++ [])) :=
    .cons (List.all_eq_true.mp rfl) (by rintro _ ⟨⟩) hend
  have hrd : Spells ["ra".toList, "-4(zero)".toList] ([' '] ++ ("ra".toList ++ _)) :=
    .cons (List.all_eq_true.mp rfl) (by rintro _ ⟨⟩; rfl) hoff
  exact Spells.cons (s := []) (t := "lw".toList) (List.forall_mem_nil _)
    (by rintro _ ⟨⟩; rfl) hrd

/-- The base register x2 of the line is x0 in the word. -/
theorem lw_from_sp : emitBinary ["lw x1, 4(x2)".toList] = .ok (bytesOf 0x00402083) ∧
    Decoder.decode 0x00402083 = some (.IInstruction .lw 1 0 4) ∧
      Decoder.decode 0x00402083 ≠ some (AsmInst.load .lw ⟨"x1".toList, 1, rfl⟩
        ⟨"4".toList, 4, @IsDecimal.pos ['4'] (List.cons_ne_nil _ _) (List.all_eq_true.mp rfl)⟩
        ⟨"x2".toList, 2, rfl⟩).meant := by
  have hdec : Decoder.decode 0x00402083 = some (.IInstruction .lw 1 0 4) := by decide +kernel
  refine ⟨by decide +kernel, hdec, ?_⟩
  rw [hdec]
  decide

end RipSim
