import RipSim.Model.Printing
import RipSim.Encoding.Layout
import RipSim.Encoding.Rebuilt

/-!
# Assembling what has been printed

A listing of instructions as `mprint` shows them is assembled to the same instructions as
long as the two agree on the notation.  Loads and stores are printed with the offset in the
parentheses, csr instructions with the name or the number of the CSR, a system instruction
without operands, and a branch without a space in front of its offset.  That space is missed
only where the name of the register fills its column: behind `zero`, `s10` and `s11`
(`listing_iff`).
-/

namespace RipSim

/-! ## Numbers -/

theorem signExtendInt_eq {n : ℕ} (hn : n ≤ 32) (bs : BitVec n) : signExtendInt bs = bs.toInt :=
  BitVec.toInt_signExtend_of_le hn

theorem isDecimal_dec (n : Int) : IsDecimal (dec n) n := by
  have hval : ∀ k, digitsVal (Nat.toDigits 10 k) = k := fun k =>
    Nat.ofDigitChars_eq_foldl.symm.trans Nat.ofDigitChars_ten_toDigits
  have hdigit : ∀ k, ∀ c ∈ Nat.toDigits 10 k, isdigit c = true := by
    intro k c hc
    have h := Nat.isDigit_of_mem_toDigits (by decide) (by decide) hc
    simpa [Char.isDigit, isdigit, UInt32.le_iff_toNat_le] using h
  cases n with
  | ofNat k =>
    have h := IsDecimal.pos Nat.toDigits_ne_nil (hdigit k)
    rwa [hval k] at h
  | negSucc k =>
    have h := IsDecimal.neg Nat.toDigits_ne_nil (hdigit (k + 1))
    rwa [hval (k + 1)] at h

/-- A number starts with no letter. -/
theorem dec_head (n : Int) : ∃ c str, dec n = c :: str ∧ c.toNat < 97 := by
  generalize dec n = str, isDecimal_dec n = h
  cases h with
  | pos hne hds =>
    obtain ⟨c, ds', rfl⟩ := List.exists_cons_of_ne_nil hne
    have hc := hds c List.mem_cons_self
    simp only [isdigit, Bool.and_eq_true, decide_eq_true_eq] at hc
    exact ⟨c, ds', rfl, by omega⟩
  | neg _ _ => exact ⟨_, _, rfl, by decide⟩

/-! ## Registers -/

/-- The name in a column of `ABI`. -/
def abiName (r : BitVec 5) : Text := (ABI r).filter fun c => !isspace c

/-- What fills the column behind it. -/
def abiTrail (r : BitVec 5) : Text := if r ∈ [0, 26, 27] then [] else [' ']

/-- What fills the column in front of it. -/
def abiLead (r : BitVec 5) : Text := if r = 0 then [] else [' ']

theorem ABI_eq (r : BitVec 5) : ABI r = abiLead r ++ (abiName r ++ abiTrail r) := by
  revert r
  decide

/-- The register by the name that is printed. -/
def regOf (r : BitVec 5) : RegName :=
  ⟨abiName r, r, by revert r; decide⟩

/-! ## The tokens of a printed line -/

theorem Spells.sep {s line : Text} {toks : List Text} (hs : ∀ c ∈ s, isSep c = true)
    (h : Spells toks line) : Spells toks (s ++ line) := by
  have happ : ∀ {s' : Text}, (∀ c ∈ s', isSep c = true) → ∀ c ∈ s ++ s', isSep c = true := by
    intro s' hs' c hc
    rcases List.mem_append.mp hc with hc | hc
    · exact hs c hc
    · exact hs' c hc
  cases h with
  | nil hs' => exact .nil (happ hs')
  | cons hs' hnext hline =>
    rw [← List.append_assoc]
    exact .cons (happ hs') hnext hline

theorem Spells.space {line : Text} {toks : List Text} (h : Spells toks line) :
    Spells toks (" ".toList ++ line) :=
  h.sep (List.all_eq_true.mp rfl)

/-- A token in front of a separator, or alone. -/
theorem Spells.token {line : Text} {toks : List Text} (t : Text)
    (hnext : ∀ c ∈ line.head?, isSep c = true) (h : Spells toks line) :
    Spells (t :: toks) (t ++ line) :=
  .cons (List.forall_mem_nil _) hnext h

theorem spells_last (t : Text) : Spells [t] t := by
  have h : Spells [t] (t ++ []) := .token t (by rintro _ ⟨⟩) (.nil (List.forall_mem_nil _))
  rwa [List.append_nil] at h

theorem head_space (line : Text) : ∀ c ∈ (" ".toList ++ line).head?, isSep c = true := by
  rintro _ ⟨⟩
  rfl

theorem abiLead_sep (r : BitVec 5) : ∀ c ∈ abiLead r, isSep c = true := by
  unfold abiLead
  split
  · exact List.forall_mem_nil _
  · exact List.all_eq_true.mp rfl

theorem abiTrail_sep (r : BitVec 5) : ∀ c ∈ abiTrail r, isSep c = true := by
  unfold abiTrail
  split
  · exact List.forall_mem_nil _
  · exact List.all_eq_true.mp rfl

/-- A register, in front of a separator or with a space in its own column. -/
theorem Spells.register {line : Text} {toks : List Text} (r : BitVec 5)
    (hnext : ∀ c ∈ (abiTrail r ++ line).head?, isSep c = true) (h : Spells toks line) :
    Spells (abiName r :: toks) (ABI r ++ line) := by
  rw [ABI_eq, List.append_assoc, List.append_assoc]
  exact .cons (abiLead_sep r) hnext (h.sep (abiTrail_sep r))

/-- A column in front of a space. -/
theorem Spells.column {line : Text} {toks : List Text} (r : BitVec 5) (h : Spells toks line) :
    Spells (abiName r :: toks) (ABI r ++ (" ".toList ++ line)) := by
  refine h.space.register r ?_
  unfold abiTrail
  split <;> exact head_space _

/-- The last column of a line. -/
theorem spells_column (r : BitVec 5) : Spells [abiName r] (ABI r) := by
  have h : Spells [abiName r] (ABI r ++ []) := .register r ?_ (.nil (List.forall_mem_nil _))
  · rwa [List.append_nil] at h
  · rw [List.append_nil]
    exact fun c hc => abiTrail_sep r c (List.mem_of_mem_head? hc)

/-- A word in front of a space. -/
theorem Spells.word {line : Text} {toks : List Text} (t : Text) (h : Spells toks line) :
    Spells (t :: toks) (t ++ (" ".toList ++ line)) :=
  h.space.token t (head_space line)

/-- The tokens of an offset and its register: they are one where the name fills its column. -/
def offsetTokens (Imm : BitVec 12) (Rs1 : BitVec 5) : List Text :=
  if Rs1 = 0 then [offsetText Imm Rs1]
  else ["(".toList ++ dec (signExtendInt Imm) ++ ")".toList, abiName Rs1]

theorem spells_offset (Imm : BitVec 12) (Rs1 : BitVec 5) :
    Spells (offsetTokens Imm Rs1) (offsetText Imm Rs1) := by
  unfold offsetTokens
  split
  · exact spells_last _
  · rename_i hRs1
    refine (spells_column Rs1).token _ ?_
    rw [ABI_eq, abiLead, if_neg hRs1]
    rintro _ ⟨⟩
    rfl

/-- The tokens of a branch: the second register and the offset are one where the name fills its
column. -/
def branchTokens (Rs2 : BitVec 5) (Imm : BitVec 13) : List Text :=
  if Rs2 ∈ [0, 26, 27] then [abiName Rs2 ++ dec (signExtendInt Imm)]
  else [abiName Rs2, dec (signExtendInt Imm)]

theorem spells_branch (Rs2 : BitVec 5) (Imm : BitVec 13) :
    Spells (branchTokens Rs2 Imm) (ABI Rs2 ++ dec (signExtendInt Imm)) := by
  unfold branchTokens
  split
  · rename_i hRs2
    rw [ABI_eq, abiTrail, if_pos hRs2, List.append_nil, List.append_assoc]
    exact (spells_last _).sep (abiLead_sep Rs2)
  · rename_i hRs2
    refine (spells_last _).register Rs2 ?_
    rw [abiTrail, if_neg hRs2]
    rintro _ ⟨⟩
    rfl

/-- The tokens of an instruction of the I-type. -/
def printedTokensI (IT : ITypeKinds) (Rd Rs1 : BitVec 5) (Imm : BitVec 12) : List Text :=
  match IT with
  | .lb | .lh | .lw | .lbu | .lhu => IT.mnemonic.toList :: abiName Rd :: offsetTokens Imm Rs1
  | .csrrw | .csrrs | .csrrc => [IT.mnemonic.toList, abiName Rd, csrText Imm, abiName Rs1]
  | .csrrwi | .csrrsi | .csrrci => [IT.mnemonic.toList, abiName Rd, csrText Imm, dec Rs1.toNat]
  | .ecall | .ebreak | .uret | .sret | .mret => [IT.mnemonic.toList]
  | _ => [IT.mnemonic.toList, abiName Rd, abiName Rs1, dec (signExtendInt Imm)]

namespace Instruction

/-- The tokens of a printed instruction. -/
def printedTokens : Instruction → List Text
  | IInstruction IT Rd Rs1 Imm => printedTokensI IT Rd Rs1 Imm
  | RInstruction RT Rd Rs1 Rs2 => [RT.mnemonic.toList, abiName Rd, abiName Rs1, abiName Rs2]
  | UInstruction UT Rd Imm => [UT.mnemonic.toList, abiName Rd, dec (signExtendInt Imm)]
  | JInstruction JT Rd Imm => [JT.mnemonic.toList, abiName Rd, dec (signExtendInt Imm)]
  | SInstruction ST Rs1 Rs2 Imm => ST.mnemonic.toList :: abiName Rs2 :: offsetTokens Imm Rs1
  | BInstruction BT Rs1 Rs2 Imm =>
    BT.mnemonic.toList :: abiName Rs1 :: branchTokens Rs2 Imm

theorem spells_I (IT : ITypeKinds) (Rd Rs1 : BitVec 5) (Imm : BitVec 12) :
    Spells (printedTokensI IT Rd Rs1 Imm) (mprintI IT Rd Rs1 Imm) := by
  have hload := ((spells_offset Imm Rs1).column Rd).word IT.mnemonic.toList
  have hcsr := (((spells_column Rs1).word (csrText Imm)).space.column Rd).word IT.mnemonic.toList
  have hcsri := (((spells_last (dec Rs1.toNat)).word (csrText Imm)).space.column Rd).word
    IT.mnemonic.toList
  have himm := (((spells_last (dec (signExtendInt Imm))).column Rs1).column Rd).word
    IT.mnemonic.toList
  simp only [← List.append_assoc] at hload hcsr hcsri himm
  cases IT with
  | lb | lh | lw | lbu | lhu => exact hload
  | csrrw | csrrs | csrrc => exact hcsr
  | csrrwi | csrrsi | csrrci => exact hcsri
  | ecall | ebreak | uret | sret | mret => exact spells_last _
  | _ => exact himm

theorem spells_mprint (I : Instruction) : Spells I.printedTokens I.mprint := by
  cases I with
  | IInstruction IT Rd Rs1 Imm => exact spells_I IT Rd Rs1 Imm
  | RInstruction RT Rd Rs1 Rs2 =>
    have h := (((spells_column Rs2).column Rs1).column Rd).word RT.mnemonic.toList
    simp only [← List.append_assoc] at h
    exact h
  | UInstruction UT Rd Imm =>
    have h := ((spells_last (dec (signExtendInt Imm))).column Rd).word UT.mnemonic.toList
    simp only [← List.append_assoc] at h
    exact h
  | JInstruction JT Rd Imm =>
    have h := ((spells_last (dec (signExtendInt Imm))).column Rd).word JT.mnemonic.toList
    simp only [← List.append_assoc] at h
    exact h
  | SInstruction ST Rs1 Rs2 Imm =>
    have h := ((spells_offset Imm Rs1).column Rs2).word ST.mnemonic.toList
    simp only [← List.append_assoc] at h
    exact h
  | BInstruction BT Rs1 Rs2 Imm =>
    have h := ((spells_branch Rs2 Imm).column Rs1).word BT.mnemonic.toList
    simp only [← List.append_assoc] at h
    exact h

end Instruction

theorem isToken_abiName (r : BitVec 5) : IsToken (abiName r) := (regOf r).isToken

theorem isToken_dec (n : Int) : IsToken (dec n) := (isDecimal_dec n).isToken

theorem isToken_append {s t : Text} (hs : IsToken s) (ht : ∀ c ∈ t, isPlainChar c = true) :
    IsToken (s ++ t) := by
  refine ⟨List.append_ne_nil_of_left_ne_nil hs.ne_nil t, fun c hc => ?_⟩
  rcases List.mem_append.mp hc with hc | hc
  · exact hs.plain c hc
  · exact ht c hc

theorem isToken_parens (n : Int) : IsToken ("(".toList ++ dec n ++ ")".toList) := by
  have hopen : IsToken "(".toList := .of_all rfl
  exact isToken_append (isToken_append hopen (isToken_dec n).plain) (List.all_eq_true.mp rfl)

/-- The address of a CSR is shown by a name of the table or as a number. -/
theorem csrText_cases (Imm : BitVec 12) :
    (∃ C ∈ CSRNames, C.1 = (Imm.signExtend 32).setWidth 16 ∧ csrText Imm = C.2.toList) ∨
      csrText Imm = dec ((Imm.signExtend 32).setWidth 16 : BitVec 16).toNat := by
  generalize hC : (Imm.signExtend 32).setWidth 16 = CSRAddr
  cases h : CSRNames.lookup CSRAddr with
  | some name =>
    obtain ⟨pre, post, heq, -⟩ := List.lookup_eq_some_iff.mp h
    refine .inl ⟨(CSRAddr, name), ?_, rfl, by simp only [csrText, hC, h]⟩
    rw [heq]
    exact List.mem_append_right _ List.mem_cons_self
  | none => exact .inr (by simp only [csrText, hC, h])

theorem isToken_csrText (Imm : BitVec 12) : IsToken (csrText Imm) := by
  have hnames : (CSRNames.all fun C => !C.2.toList.isEmpty && C.2.toList.all isPlainChar) = true :=
    rfl
  rcases csrText_cases Imm with ⟨C, hC, -, h⟩ | h <;> rw [h]
  · exact .of_all (List.all_eq_true.mp hnames C hC)
  · exact isToken_dec _

theorem isToken_offsetTokens (Imm : BitVec 12) (Rs1 : BitVec 5) :
    ∀ t ∈ offsetTokens Imm Rs1, IsToken t := by
  have hparens := isToken_parens (signExtendInt Imm)
  unfold offsetTokens
  split
  · rename_i hRs1
    subst hRs1
    refine List.forall_mem_singleton.mpr (isToken_append hparens (List.all_eq_true.mp rfl))
  · exact List.forall_mem_cons.mpr ⟨hparens, List.forall_mem_singleton.mpr (isToken_abiName Rs1)⟩

theorem isToken_branchTokens (Rs2 : BitVec 5) (Imm : BitVec 13) :
    ∀ t ∈ branchTokens Rs2 Imm, IsToken t := by
  have hdec := isToken_dec (signExtendInt Imm)
  unfold branchTokens
  split
  · exact List.forall_mem_singleton.mpr (isToken_append (isToken_abiName Rs2) hdec.plain)
  · exact List.forall_mem_cons.mpr ⟨isToken_abiName Rs2, List.forall_mem_singleton.mpr hdec⟩

theorem isToken_printedTokensI (IT : ITypeKinds) (Rd Rs1 : BitVec 5) (Imm : BitVec 12) :
    ∀ t ∈ printedTokensI IT Rd Rs1 Imm, IsToken t := by
  have hm := isToken_I IT
  have hRd := isToken_abiName Rd
  have hRs1 := isToken_abiName Rs1
  cases IT with
  | lb | lh | lw | lbu | lhu =>
    exact List.forall_mem_cons.mpr ⟨hm, List.forall_mem_cons.mpr
      ⟨hRd, isToken_offsetTokens Imm Rs1⟩⟩
  | ecall | ebreak | uret | sret | mret => exact List.forall_mem_singleton.mpr hm
  | csrrw | csrrs | csrrc | csrrwi | csrrsi | csrrci =>
    simp only [printedTokensI, List.forall_mem_cons, List.not_mem_nil, false_imp_iff,
      implies_true, and_true]
    simp only [hm, hRd, hRs1, isToken_csrText, isToken_dec, and_self]
  | _ =>
    simp only [printedTokensI, List.forall_mem_cons, List.not_mem_nil, false_imp_iff,
      implies_true, and_true]
    exact ⟨hm, hRd, hRs1, isToken_dec _⟩

namespace Instruction

theorem isToken_printedTokens (I : Instruction) : ∀ t ∈ I.printedTokens, IsToken t := by
  cases I with
  | IInstruction IT Rd Rs1 Imm => exact isToken_printedTokensI IT Rd Rs1 Imm
  | RInstruction RT Rd Rs1 Rs2 =>
    simp only [printedTokens, List.forall_mem_cons, List.not_mem_nil, false_imp_iff,
      implies_true, and_true]
    exact ⟨isToken_R RT, isToken_abiName Rd, isToken_abiName Rs1, isToken_abiName Rs2⟩
  | UInstruction UT Rd Imm =>
    simp only [printedTokens, List.forall_mem_cons, List.not_mem_nil, false_imp_iff,
      implies_true, and_true]
    exact ⟨isToken_U UT, isToken_abiName Rd, isToken_dec _⟩
  | JInstruction JT Rd Imm =>
    simp only [printedTokens, List.forall_mem_cons, List.not_mem_nil, false_imp_iff,
      implies_true, and_true]
    exact ⟨isToken_J JT, isToken_abiName Rd, isToken_dec _⟩
  | SInstruction ST Rs1 Rs2 Imm =>
    exact List.forall_mem_cons.mpr
      ⟨isToken_S ST, List.forall_mem_cons.mpr ⟨isToken_abiName Rs2, isToken_offsetTokens Imm Rs1⟩⟩
  | BInstruction BT Rs1 Rs2 Imm =>
    exact List.forall_mem_cons.mpr
      ⟨isToken_B BT, List.forall_mem_cons.mpr ⟨isToken_abiName Rs1, isToken_branchTokens Rs2 Imm⟩⟩

/-- The parser finds the tokens of a printed instruction. -/
theorem parseLineInner_mprint (I : Instruction) : parseLineInner I.mprint = I.printedTokens :=
  parseLineInner_spells I.spells_mprint I.isToken_printedTokens

/-- A printed instruction is no label line. -/
theorem noColon_mprint (I : Instruction) : noColon I.mprint = true :=
  noColon_iff.mpr (no_label I.spells_mprint I.isToken_printedTokens)

end Instruction

/-! ## What the assembler makes of them -/

/-- A name of a register starts with a letter. -/
theorem findReg_ne {c : Char} (hc : c.toNat < 97) (str : Text) (r : BitVec 5) :
    findReg (c :: str) ≠ .ok r := by
  intro h
  obtain ⟨RI, hRI, hname, -⟩ := findReg_ok h
  have hkeys : (GPRegMap.all fun RI => RI.1.toList.head?.all fun c => 97 ≤ c.toNat) = true := rfl
  have hhead := List.all_eq_true.mp hkeys RI hRI
  rw [hname] at hhead
  exact absurd (of_decide_eq_true hhead) (by omega)

/-- A number is no register. -/
theorem findReg_dec (n : Int) (r : BitVec 5) : findReg (dec n) ≠ .ok r := by
  obtain ⟨c, str, hn, hc⟩ := dec_head n
  rw [hn]
  exact findReg_ne hc str r

/-- Neither is a CSR. -/
theorem findReg_csrText (Imm : BitVec 12) (r : BitVec 5) : findReg (csrText Imm) ≠ .ok r := by
  have hnames : (CSRNames.all fun C => (findReg C.2.toList).toOption.isNone) = true := rfl
  rcases csrText_cases Imm with ⟨C, hC, -, h⟩ | h <;> rw [h]
  · intro hr
    have hnone := List.all_eq_true.mp hnames C hC
    rw [hr] at hnone
    cases hnone
  · exact findReg_dec _ r

theorem asmI_third {IT : ITypeKinds} {m rd t n : Text} (ht : ∀ r, findReg t ≠ .ok r)
    (J : Instruction) : asmI IT [m, rd, t, n] ≠ .ok J := by
  intro h
  simp only [asmI] at h
  cases hrd : findReg rd with
  | error f =>
    rw [hrd] at h
    cases h
  | ok r =>
    cases hr : findReg t with
    | ok r' => exact ht r' hr
    | error f =>
      rw [hrd, hr] at h
      cases h

/-- An offset in parentheses has no digit in front of them. -/
theorem parseOffsetReg_parens (str : Text) : parseOffsetReg ("(".toList ++ str) =
    .error (.runtimeError "Failed to parse number from string.") := rfl

/-- The constructors do not take a base register behind its offset. -/
theorem asmI_offset {IT : ITypeKinds} {m rd : Text} (Imm : BitVec 12) (Rs1 : BitVec 5)
    (J : Instruction) : asmI IT (m :: rd :: offsetTokens Imm Rs1) ≠ .ok J := by
  unfold offsetTokens
  split
  · intro h
    simp only [asmI, offsetText, List.append_assoc, parseOffsetReg_parens] at h
    cases hrd : findReg rd with
    | error f =>
      rw [hrd] at h
      cases h
    | ok r =>
      rw [hrd] at h
      dsimp only [bind, Except.bind] at h
      split at h <;> cases h
  · exact asmI_third (fun r => findReg_ne (by decide) _ r) J

theorem asmS_offset {ST : STypeKinds} {m rs2 : Text} (Imm : BitVec 12) (Rs1 : BitVec 5)
    (J : Instruction) : asmS ST (m :: rs2 :: offsetTokens Imm Rs1) ≠ .ok J := by
  unfold offsetTokens
  split
  · intro h
    simp only [asmS, offsetText, List.append_assoc, parseOffsetReg_parens] at h
    cases hrs2 : findReg rs2 with
    | error f =>
      rw [hrs2] at h
      cases h
    | ok r =>
      rw [hrs2] at h
      cases h
  · intro h
    cases h

/-- The mnemonics of the I-type that are written and printed with two registers and a number,
and keep them in their word. -/
def ITypeKinds.Readable (IT : ITypeKinds) : Prop :=
  IT ∈ [addi, slti, sltiu, xori, ori, andi, jalr, slli, srli, srai, extx]

instance : DecidablePred ITypeKinds.Readable := fun IT =>
  inferInstanceAs (Decidable (IT ∈ _))

/-- The instructions whose notation is the same on both sides. -/
def Instruction.Readable : Instruction → Prop
  | .IInstruction IT _ _ _ => IT.Readable
  | .SInstruction _ _ _ _ => False
  | .BInstruction _ _ Rs2 _ => Rs2 ∉ [0, 26, 27]
  | _ => True

instance : DecidablePred Instruction.Readable := fun I =>
  match I with
  | .IInstruction IT _ _ _ => inferInstanceAs (Decidable IT.Readable)
  | .SInstruction _ _ _ _ => .isFalse id
  | .BInstruction _ _ Rs2 _ => inferInstanceAs (Decidable (Rs2 ∉ [0, 26, 27]))
  | .RInstruction _ _ _ _ | .UInstruction _ _ _ | .JInstruction _ _ _ => .isTrue trivial

theorem stoi_dec {n : ℕ} (hn : n ≤ 31) (Imm : BitVec n) :
    stoi (dec (signExtendInt Imm)) = .ok Imm.toInt := by
  have hle : (2 : Int) ^ n ≤ 2 ^ 31 := pow_le_pow_right₀ (by decide) hn
  have hlo := @BitVec.le_two_mul_toInt n Imm
  have hhi := @BitVec.two_mul_toInt_lt n Imm
  rw [signExtendInt_eq (by omega)]
  exact stoi_decimal (isDecimal_dec _) (by omega) (by omega)

theorem findReg_abiName (r : BitVec 5) : findReg (abiName r) = .ok r := (regOf r).found

/-- The object made of a line with two registers and a number. -/
theorem asmI_imm (IT : ITypeKinds) (m : Text) (Rd Rs1 : BitVec 5) (Imm : BitVec 12) :
    asmI IT [m, abiName Rd, abiName Rs1, dec (signExtendInt Imm)] =
      .ok (.IInstruction IT Rd Rs1 (if IT = .srai then Imm ||| 1#12 <<< 10 else Imm)) := by
  simp only [asmI, findReg_abiName, stoi_dec (by decide : 12 ≤ 31) Imm, bind, Except.bind,
    BitVec.ofInt_toInt]
  rfl

namespace Instruction

variable {w : Word} {I : Instruction}

/-- A printed instruction of this kind is assembled to itself, except for the bit that `srai`
adds. -/
theorem assemble_readable (hr : I.Readable)
    (hsrai : ∀ Rd Rs1 Imm, I ≠ .IInstruction .srai Rd Rs1 Imm) :
    assemble I.printedTokens = .ok I := by
  cases I with
  | IInstruction IT Rd Rs1 Imm =>
    have hIT : IT.Readable := hr
    have hne : IT ≠ .srai := by
      rintro rfl
      exact hsrai Rd Rs1 Imm rfl
    have h := (assemble_I IT _).trans (asmI_imm IT IT.mnemonic.toList Rd Rs1 Imm)
    rw [if_neg hne] at h
    cases IT with
    | addi | slti | sltiu | xori | ori | andi | jalr | slli | srli | srai | extx => exact h
    | _ => exact absurd hIT (by decide)
  | RInstruction RT Rd Rs1 Rs2 =>
    simp only [printedTokens, assemble_R, asmR, findReg_abiName]
    rfl
  | UInstruction UT Rd Imm =>
    simp only [printedTokens, assemble_U, asmU, findReg_abiName, stoi_dec (by decide : 20 ≤ 31) Imm,
      bind, Except.bind, BitVec.ofInt_toInt]
    rfl
  | JInstruction JT Rd Imm =>
    simp only [printedTokens, assemble_J, asmJ, findReg_abiName, stoi_dec (by decide : 21 ≤ 31) Imm,
      bind, Except.bind, BitVec.ofInt_toInt]
    rfl
  | SInstruction ST Rs1 Rs2 Imm => exact hr.elim
  | BInstruction BT Rs1 Rs2 Imm =>
    have hRs2 : Rs2 ∉ [0, 26, 27] := hr
    simp only [printedTokens, branchTokens, if_neg hRs2, assemble_B, asmB, findReg_abiName,
      stoi_dec (by decide : 13 ≤ 31) Imm, bind, Except.bind, BitVec.ofInt_toInt]
    rfl

/-- The assembler gives the instruction back. -/
theorem printed_of_readable (h : Decoder.decode w = some I) (hr : I.Readable) :
    ∃ J, assemble I.printedTokens = .ok J ∧ Decoder.decode J.getVal = some I := by
  by_cases hsrai : ∃ Rd Rs1 Imm, I = .IInstruction .srai Rd Rs1 Imm
  · obtain ⟨Rd, Rs1, Imm, rfl⟩ := hsrai
    have hhigh : Imm.extractLsb' 5 7 = 0 := (Decoder.decode_kept w _ h).1
    have hbit : ∀ s : BitVec 5, (s.setWidth 12 ||| 1#12 <<< 10).extractLsb' 0 5 = s ∧
        (s.setWidth 12 ||| 1#12 <<< 10).extractLsb' 5 7 ≠ 0 := by decide
    obtain ⟨hlow, hne⟩ := hbit (Imm.extractLsb' 0 5)
    rw [setWidth_shamt hhigh] at hlow hne
    refine ⟨_, (assemble_I .srai _).trans (asmI_imm .srai _ Rd Rs1 Imm), ?_⟩
    rw [if_pos rfl, decode_shift .srai Rd Rs1 (by decide) _ _ hlow (iff_of_false hne (by decide)),
      setWidth_shamt hhigh]
  · push Not at hsrai
    refine ⟨I, assemble_readable hr hsrai, ?_⟩
    refine (decode_getVal_iff h).mpr fun hs => ?_
    rcases Decoder.decode_shortened hs with hw | hw <;>
      obtain rfl := Option.some.inj (h.symm.trans hw)
    · exact hsrai _ _ _ rfl
    · exact absurd hr (by decide)

/-- Only then. -/
theorem readable_of_printed {J : Instruction} (hJ : assemble I.printedTokens = .ok J)
    (hd : Decoder.decode J.getVal = some I) : I.Readable := by
  cases I with
  | IInstruction IT Rd Rs1 Imm =>
    cases IT with
    | lb | lh | lw | lbu | lhu =>
      exact absurd ((assemble_I _ _).symm.trans hJ) (asmI_offset Imm Rs1 J)
    | csrrw | csrrs | csrrc | csrrwi | csrrsi | csrrci =>
      exact absurd ((assemble_I _ _).symm.trans hJ) (asmI_third (findReg_csrText Imm) J)
    | ecall | ebreak | uret | sret | mret =>
      have hJ := (assemble_I _ _).symm.trans hJ
      cases hJ
    | ext =>
      -- a line of its own makes the word of another
      have hI := ((assemble_I _ _).symm.trans hJ).symm.trans (asmI_imm .ext _ Rd Rs1 Imm)
      rw [if_neg (by decide)] at hI
      obtain rfl := Except.ok.inj hI
      rw [decode_custom .ext Rd Rs1 (by decide)] at hd
      split at hd
      · cases hd
      · rename_i hne
        split at hd
        · rw [Option.some.injEq, IInstruction.injEq] at hd
          exact absurd (by rw [← hd.2.2.2]; decide) hne
        · cases hd
    | _ =>
      show ITypeKinds.Readable _
      decide
  | RInstruction RT Rd Rs1 Rs2 => trivial
  | UInstruction UT Rd Imm => trivial
  | JInstruction JT Rd Imm => trivial
  | SInstruction ST Rs1 Rs2 Imm =>
    exact absurd ((assemble_S _ _).symm.trans hJ) (asmS_offset Imm Rs1 J)
  | BInstruction BT Rs1 Rs2 Imm =>
    intro hRs2
    rw [printedTokens, branchTokens, if_pos hRs2, assemble_B] at hJ
    cases hJ

/-- One line. -/
theorem printed_iff (h : Decoder.decode w = some I) :
    (∃ J, assemble (parseLineInner I.mprint) = .ok J ∧ Decoder.decode J.getVal = some I) ↔
      I.Readable := by
  rw [parseLineInner_mprint]
  constructor
  · rintro ⟨J, hJ, hd⟩
    exact readable_of_printed hJ hd
  · exact printed_of_readable h

end Instruction

/-! ## Listings -/

theorem bytesOf_injective {w w' : Word} (h : bytesOf w = bytesOf w') : w = w' := by
  simp only [bytesOf, List.cons.injEq, and_true] at h
  obtain ⟨h0, h1, h2, h3⟩ := h
  have hsplit : ∀ v : Word, v = v.extractLsb' 24 8 ++ (v.extractLsb' 16 8 ++
      (v.extractLsb' 8 8 ++ v.extractLsb' 0 8)) := by
    intro v
    apply BitVec.eq_of_getLsbD_eq
    intro i hi
    simp only [BitVec.getLsbD_append, BitVec.getLsbD_extractLsb']
    interval_cases i <;> rfl
  rw [hsplit w, hsplit w', h0, h1, h2, h3]

/-- The words of a file are determined by its bytes. -/
theorem flatMap_bytesOf_injective {ws ws' : List Word}
    (h : ws.flatMap bytesOf = ws'.flatMap bytesOf) : ws = ws' := by
  induction ws generalizing ws' with
  | nil =>
    cases ws' with
    | nil => rfl
    | cons w' ws' => cases h
  | cons w ws ih =>
    cases ws' with
    | nil => cases h
    | cons w' ws' =>
      rw [List.flatMap_cons, List.flatMap_cons] at h
      obtain ⟨hw, hws⟩ := List.append_inj h rfl
      rw [bytesOf_injective hw, ih hws]

/-- What `emitBinary` writes for a listing. -/
theorem emitBinary_listing {Is : List Instruction} {os : List Byte} :
    emitBinary (Is.map Instruction.mprint) = .ok os ↔
      ∃ Js, List.Forall₂ (fun I J => assemble I.printedTokens = .ok J) Is Js ∧
        os = (Js.map Instruction.getVal).flatMap bytesOf := by
  have hall : (Is.map Instruction.mprint).filter noColon = Is.map Instruction.mprint := by
    rw [List.filter_eq_self]
    rintro _ hline
    obtain ⟨I, -, rfl⟩ := List.mem_map.mp hline
    exact I.noColon_mprint
  simp only [emitBinary_eq_ok_iff, hall, List.forall₂_map_left_iff,
    Instruction.parseLineInner_mprint, List.flatMap_map]

/-- **Assembling a listing.**  The lines that show the instructions of a program are assembled to
words of the same instructions exactly when there is no load or store, no csr or system
instruction, no `ext`, and no branch with `zero`, `s10` or `s11` as its second register. -/
theorem listing_iff {ws : List Word} {Is : List Instruction}
    (h : List.Forall₂ (fun w I => Decoder.decode w = some I) ws Is) :
    (∃ ws', emitBinary (Is.map Instruction.mprint) = .ok (ws'.flatMap bytesOf) ∧
      List.Forall₂ (fun w I => Decoder.decode w = some I) ws' Is) ↔ ∀ I ∈ Is, I.Readable := by
  constructor
  · rintro ⟨ws', hos, hd⟩
    obtain ⟨Js, hJs, heq⟩ := emitBinary_listing.mp hos
    obtain rfl := flatMap_bytesOf_injective heq
    rw [List.forall₂_map_left_iff] at hd
    clear h hos heq
    induction hJs with
    | nil => exact List.forall_mem_nil _
    | cons hJ _ ih =>
      cases hd with
      | cons hI hd =>
        exact List.forall_mem_cons.mpr ⟨Instruction.readable_of_printed hJ hI, ih hd⟩
  · intro hr
    have hJs : ∃ Js, List.Forall₂ (fun I J => assemble I.printedTokens = .ok J) Is Js ∧
        List.Forall₂ (fun w I => Decoder.decode w = some I) (Js.map Instruction.getVal) Is := by
      induction h with
      | nil => exact ⟨[], .nil, .nil⟩
      | cons hI _ ih =>
        obtain ⟨hrI, hr⟩ := List.forall_mem_cons.mp hr
        obtain ⟨J, hJ, hd⟩ := Instruction.printed_of_readable hI hrI
        obtain ⟨Js, hJs, hds⟩ := ih hr
        exact ⟨J :: Js, .cons hJ hJs, .cons hd hds⟩
    obtain ⟨Js, hJs, hd⟩ := hJs
    exact ⟨_, emitBinary_listing.mpr ⟨Js, hJs, rfl⟩, hd⟩

/-- `addi a0, a0, -1` and `beq a0, s10, 8`: the offset is read as part of the name. -/
theorem listing_iff_beq :
    [.IInstruction .addi 10 10 (-1), .BInstruction .beq 10 26 8].map Instruction.mprint =
        ["addi  a0   a0  -1".toList, "beq  a0   s108".toList] ∧
      ((∃ ws', emitBinary ([.IInstruction .addi 10 10 (-1), .BInstruction .beq 10 26 8].map
            Instruction.mprint) = .ok (ws'.flatMap bytesOf) ∧
          List.Forall₂ (fun w I => Decoder.decode w = some I) ws'
            [.IInstruction .addi 10 10 (-1), .BInstruction .beq 10 26 8]) ↔
        ∀ I ∈ [Instruction.IInstruction .addi 10 10 (-1), .BInstruction .beq 10 26 8],
          I.Readable) := by
  have hws : List.Forall₂ (fun w I => Decoder.decode w = some I) [0xfff50513, 0x01a50463]
      [.IInstruction .addi 10 10 (-1), .BInstruction .beq 10 26 8] :=
    .cons (by decide) (.cons (by decide) .nil)
  exact ⟨by decide, listing_iff hws⟩

end RipSim
