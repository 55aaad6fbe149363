import RipSim.Encoding.Printed

/-!
# Instructions by their lines

Two decoded instructions are printed alike only if they are the same, or the same system
instruction: of that only the mnemonic is printed, and the decoder leaves register fields in it
(`mprint_eq_iff`).
-/

namespace RipSim

/-! ## The parts of a line -/

theorem abiName_injective {r r' : BitVec 5} (h : abiName r = abiName r') : r = r' :=
  Except.ok.inj ((findReg_abiName r).symm.trans (h ▸ findReg_abiName r'))

theorem dec_injective {a b : Int} (h : dec a = dec b) (ha : -2 ^ 31 ≤ a ∧ a < 2 ^ 31)
    (hb : -2 ^ 31 ≤ b ∧ b < 2 ^ 31) : a = b := by
  have hstoi := stoi_decimal (isDecimal_dec a) ha.1 ha.2
  rw [h, stoi_decimal (isDecimal_dec b) hb.1 hb.2] at hstoi
  exact (Except.ok.inj hstoi).symm

theorem immediate_injective {n : ℕ} (hn : n ≤ 31) {Imm Imm' : BitVec n}
    (h : dec (signExtendInt Imm) = dec (signExtendInt Imm')) : Imm = Imm' := by
  have hstoi := stoi_dec hn Imm
  rw [h, stoi_dec hn Imm'] at hstoi
  exact BitVec.eq_of_toInt_eq (Except.ok.inj hstoi).symm

/-- The number in parentheses. -/
theorem parens_injective {Imm Imm' : BitVec 12}
    (h : "(".toList ++ dec (signExtendInt Imm) ++ ")".toList =
      "(".toList ++ dec (signExtendInt Imm') ++ ")".toList) : Imm = Imm' :=
  immediate_injective (by decide) (List.append_cancel_left (List.append_cancel_right h))

theorem offsetTokens_injective {Imm Imm' : BitVec 12} {Rs1 Rs1' : BitVec 5}
    (h : offsetTokens Imm Rs1 = offsetTokens Imm' Rs1') : Imm = Imm' ∧ Rs1 = Rs1' := by
  unfold offsetTokens at h
  split at h <;> split at h
  · rename_i hRs1 hRs1'
    subst hRs1 hRs1'
    exact ⟨parens_injective (List.append_cancel_right (List.singleton_inj.mp h)), rfl⟩
  · simp at h
  · simp at h
  · simp only [List.cons.injEq, and_true] at h
    exact ⟨parens_injective h.1, abiName_injective h.2⟩

theorem branchTokens_injective {Rs2 Rs2' : BitVec 5} {Imm Imm' : BitVec 13}
    (h : branchTokens Rs2 Imm = branchTokens Rs2' Imm') : Rs2 = Rs2' ∧ Imm = Imm' := by
  -- three letters tell the full columns apart
  have hfull : ∀ r r' : BitVec 5, r ∈ [0, 26, 27] → r' ∈ [0, 26, 27] →
      (abiName r).take 3 = (abiName r').take 3 → r = r' := by decide
  have hlen : ∀ r : BitVec 5, r ∈ [0, 26, 27] → 3 ≤ (abiName r).length := by decide
  unfold branchTokens at h
  split at h <;> split at h
  · rename_i hr hr'
    have h := List.singleton_inj.mp h
    have htake := congrArg (List.take 3) h
    rw [List.take_append_of_le_length (hlen Rs2 hr),
      List.take_append_of_le_length (hlen Rs2' hr')] at htake
    obtain rfl := hfull Rs2 Rs2' hr hr' htake
    exact ⟨rfl, immediate_injective (by decide) (List.append_cancel_left h)⟩
  · simp at h
  · simp at h
  · simp only [List.cons.injEq, and_true] at h
    exact ⟨abiName_injective h.1, immediate_injective (by decide) h.2⟩

/-- The name of a CSR, which starts with a letter, is no number. -/
theorem name_ne_dec {C : BitVec 16 × String} (hC : C ∈ CSRNames) (n : Int) :
    C.2.toList ≠ dec n := by
  have hnames : (CSRNames.all fun C => C.2.toList.head?.all fun c => 97 ≤ c.toNat) = true := rfl
  have hhead := List.all_eq_true.mp hnames C hC
  obtain ⟨c, str, hn, hc⟩ := dec_head n
  intro h
  rw [h, hn] at hhead
  exact absurd (of_decide_eq_true hhead) (by omega)

theorem csrText_injective {Imm Imm' : BitVec 12} (h : csrText Imm = csrText Imm') :
    Imm = Imm' := by
  have haddr : ∀ a : BitVec 12, ((a.signExtend 32).setWidth 16 : BitVec 16).setWidth 12 = a := by
    intro a
    apply BitVec.eq_of_getLsbD_eq
    intro i hi
    have h16 : i < 16 := by omega
    have h32 : i < 32 := by omega
    simp only [BitVec.getLsbD_setWidth, BitVec.getLsbD_signExtend, hi, h16, h32, decide_true,
      Bool.true_and, if_true]
  have hnodup : ∀ C ∈ CSRNames, ∀ C' ∈ CSRNames, C.2 = C'.2 → C.1 = C'.1 := by decide
  suffices hC : ((Imm.signExtend 32).setWidth 16 : BitVec 16) = (Imm'.signExtend 32).setWidth 16 by
    rw [← haddr Imm, hC, haddr Imm']
  rcases csrText_cases Imm with ⟨C, hC, haC, hI⟩ | hI <;>
    rcases csrText_cases Imm' with ⟨C', hC', haC', hI'⟩ | hI' <;>
    rw [hI, hI'] at h
  · rw [← haC, ← haC']
    exact hnodup C hC C' hC' (String.toList_injective h)
  · exact absurd h (name_ne_dec hC _)
  · exact absurd h.symm (name_ne_dec hC' _)
  · have hlt := ((Imm.signExtend 32).setWidth 16 : BitVec 16).isLt
    have hlt' := ((Imm'.signExtend 32).setWidth 16 : BitVec 16).isLt
    exact BitVec.eq_of_toNat_eq (Int.ofNat_inj.mp (dec_injective h (by omega) (by omega)))

/-! ## The mnemonic -/

/-- What the tables have for a mnemonic. -/
def rowOf (m : Text) : Option ITypeKinds × Option RTypeKinds × Option UTypeKinds ×
    Option JTypeKinds × Option STypeKinds × Option BTypeKinds :=
  (ITypeKinds.find m, RTypeKinds.find m, UTypeKinds.find m, JTypeKinds.find m, STypeKinds.find m,
    BTypeKinds.find m)

namespace Instruction

/-- The row of the tables an instruction belongs to. -/
def row : Instruction → Option ITypeKinds × Option RTypeKinds × Option UTypeKinds ×
    Option JTypeKinds × Option STypeKinds × Option BTypeKinds
  | IInstruction IT _ _ _ => (some IT, none, none, none, none, none)
  | RInstruction RT _ _ _ => (none, some RT, none, none, none, none)
  | UInstruction UT _ _ => (none, none, some UT, none, none, none)
  | JInstruction JT _ _ => (none, none, none, some JT, none, none)
  | SInstruction ST _ _ _ => (none, none, none, none, some ST, none)
  | BInstruction BT _ _ _ => (none, none, none, none, none, some BT)

/-- The first token tells the row. -/
theorem rowOf_printed (I : Instruction) : I.printedTokens.head?.map rowOf = some I.row := by
  cases I with
  | IInstruction IT Rd Rs1 Imm => cases IT <;> rfl
  | RInstruction RT Rd Rs1 Rs2 => cases RT <;> rfl
  | UInstruction UT Rd Imm => cases UT <;> rfl
  | JInstruction JT Rd Imm => cases JT; rfl
  | SInstruction ST Rs1 Rs2 Imm => cases ST <;> rfl
  | BInstruction BT Rs1 Rs2 Imm => cases BT <;> rfl

/-- The same system instruction. -/
def SameSystem (I J : Instruction) : Prop :=
  ∃ op : SystemOp, ∃ Rd Rs1 Rd' Rs1', I = .IInstruction op.kind Rd Rs1 op.funct12 ∧
    J = .IInstruction op.kind Rd' Rs1' op.funct12

variable {w w' : Word} {I J : Instruction}

/-- Within the I-type. -/
theorem printedI_injective {IT : ITypeKinds} {Rd Rs1 Rd' Rs1' : BitVec 5} {Imm Imm' : BitVec 12}
    (hI : Decoder.decode w = some (.IInstruction IT Rd Rs1 Imm))
    (hJ : Decoder.decode w' = some (.IInstruction IT Rd' Rs1' Imm'))
    (h : printedTokensI IT Rd Rs1 Imm = printedTokensI IT Rd' Rs1' Imm') :
    IInstruction IT Rd Rs1 Imm = .IInstruction IT Rd' Rs1' Imm' ∨
      SameSystem (.IInstruction IT Rd Rs1 Imm) (.IInstruction IT Rd' Rs1' Imm') := by
  have hkept := Decoder.decode_kept w _ hI
  have hkept' := Decoder.decode_kept w' _ hJ
  cases IT with
  | lb | lh | lw | lbu | lhu =>
    simp only [printedTokensI, List.cons.injEq, true_and] at h
    obtain ⟨rfl, rfl⟩ := offsetTokens_injective h.2
    exact .inl (by rw [abiName_injective h.1])
  | csrrw | csrrs | csrrc =>
    simp only [printedTokensI, List.cons.injEq, true_and, and_true] at h
    obtain ⟨hRd, hImm, hRs1⟩ := h
    exact .inl (by rw [abiName_injective hRd, csrText_injective hImm, abiName_injective hRs1])
  | csrrwi | csrrsi | csrrci =>
    simp only [printedTokensI, List.cons.injEq, true_and, and_true] at h
    obtain ⟨hRd, hImm, hRs1⟩ := h
    have hnum := dec_injective hRs1 (by omega) (by omega)
    exact .inl (by rw [abiName_injective hRd, csrText_injective hImm,
      BitVec.eq_of_toNat_eq (Int.ofNat_inj.mp hnum)])
  | ecall =>
    obtain rfl : Imm = 0 := hkept
    obtain rfl : Imm' = 0 := hkept'
    exact .inr ⟨.ecall, Rd, Rs1, Rd', Rs1', rfl, rfl⟩
  | ebreak =>
    obtain rfl : Imm = 1 := hkept
    obtain rfl : Imm' = 1 := hkept'
    exact .inr ⟨.ebreak, Rd, Rs1, Rd', Rs1', rfl, rfl⟩
  | uret =>
    obtain rfl : Imm = 2 := hkept
    obtain rfl : Imm' = 2 := hkept'
    exact .inr ⟨.uret, Rd, Rs1, Rd', Rs1', rfl, rfl⟩
  | sret =>
    obtain rfl : Imm = 0b100000010 := hkept
    obtain rfl : Imm' = 0b100000010 := hkept'
    exact .inr ⟨.sret, Rd, Rs1, Rd', Rs1', rfl, rfl⟩
  | mret =>
    obtain rfl : Imm = 0b1100000010 := hkept
    obtain rfl : Imm' = 0b1100000010 := hkept'
    exact .inr ⟨.mret, Rd, Rs1, Rd', Rs1', rfl, rfl⟩
  | _ =>
    simp only [printedTokensI, List.cons.injEq, true_and, and_true] at h
    obtain ⟨hRd, hRs1, hImm⟩ := h
    exact .inl (by rw [abiName_injective hRd, abiName_injective hRs1,
      immediate_injective (by decide) hImm])

theorem printed_injective (hI : Decoder.decode w = some I) (hJ : Decoder.decode w' = some J)
    (h : I.printedTokens = J.printedTokens) : I = J ∨ SameSystem I J := by
  have hrow : I.row = J.row := by
    have hhead : I.printedTokens.head?.map rowOf = J.printedTokens.head?.map rowOf := by rw [h]
    rw [rowOf_printed, rowOf_printed] at hhead
    exact Option.some.inj hhead
  cases I with
  | IInstruction IT Rd Rs1 Imm =>
    cases J with
    | IInstruction IT' Rd' Rs1' Imm' =>
      obtain rfl : IT = IT' := Option.some.inj (congrArg (·.1) hrow)
      exact printedI_injective hI hJ h
    | _ => cases hrow
  | RInstruction RT Rd Rs1 Rs2 =>
    cases J with
    | RInstruction RT' Rd' Rs1' Rs2' =>
      obtain rfl : RT = RT' := Option.some.inj (congrArg (·.2.1) hrow)
      simp only [printedTokens, List.cons.injEq, true_and, and_true] at h
      obtain ⟨hRd, hRs1, hRs2⟩ := h
      exact .inl (by rw [abiName_injective hRd, abiName_injective hRs1, abiName_injective hRs2])
    | _ => cases hrow
  | UInstruction UT Rd Imm =>
    cases J with
    | UInstruction UT' Rd' Imm' =>
      obtain rfl : UT = UT' := Option.some.inj (congrArg (·.2.2.1) hrow)
      simp only [printedTokens, List.cons.injEq, true_and, and_true] at h
      exact .inl (by rw [abiName_injective h.1, immediate_injective (by decide) h.2])
    | _ => cases hrow
  | JInstruction JT Rd Imm =>
    cases J with
    | JInstruction JT' Rd' Imm' =>
      obtain rfl : JT = JT' := Option.some.inj (congrArg (·.2.2.2.1) hrow)
      simp only [printedTokens, List.cons.injEq, true_and, and_true] at h
      exact .inl (by rw [abiName_injective h.1, immediate_injective (by decide) h.2])
    | _ => cases hrow
  | SInstruction ST Rs1 Rs2 Imm =>
    cases J with
    | SInstruction ST' Rs1' Rs2' Imm' =>
      obtain rfl : ST = ST' := Option.some.inj (congrArg (·.2.2.2.2.1) hrow)
      simp only [printedTokens, List.cons.injEq, true_and] at h
      obtain ⟨rfl, rfl⟩ := offsetTokens_injective h.2
      exact .inl (by rw [abiName_injective h.1])
    | _ => cases hrow
  | BInstruction BT Rs1 Rs2 Imm =>
    cases J with
    | BInstruction BT' Rs1' Rs2' Imm' =>
      obtain rfl : BT = BT' := Option.some.inj (congrArg (·.2.2.2.2.2) hrow)
      simp only [printedTokens, List.cons.injEq, true_and] at h
      obtain ⟨rfl, rfl⟩ := branchTokens_injective h.2
      exact .inl (by rw [abiName_injective h.1])
    | _ => cases hrow

end Instruction

/-- **What a line shows.**  Two decoded instructions have one line exactly when they are the same,
or one system instruction with different register fields. -/
theorem mprint_eq_iff {w w' : Word} {I J : Instruction} (hI : Decoder.decode w = some I)
    (hJ : Decoder.decode w' = some J) : I.mprint = J.mprint ↔ I = J ∨ I.SameSystem J := by
  constructor
  · intro h
    refine Instruction.printed_injective hI hJ ?_
    rw [← I.parseLineInner_mprint, h, J.parseLineInner_mprint]
  · rintro (rfl | ⟨op, Rd, Rs1, Rd', Rs1', rfl, rfl⟩)
    · rfl
    · cases op <;> rfl

/-- `csrrs a0, mstatus, x0` is told from `csrrs a0, 0x301, x0`, and an `mret` is shown without the
fields that are set in it. -/
theorem mprint_eq_iff_mret :
    ((Instruction.IInstruction .csrrs 10 0 0x300).mprint =
        (Instruction.IInstruction .csrrs 10 0 0x301).mprint ↔
      Instruction.IInstruction .csrrs 10 0 0x300 = .IInstruction .csrrs 10 0 0x301 ∨
        (Instruction.IInstruction .csrrs 10 0 0x300).SameSystem (.IInstruction .csrrs 10 0 0x301)) ∧
    ((Instruction.IInstruction .mret 0 0 0x302).mprint =
        (Instruction.IInstruction .mret 1 0 0x302).mprint ↔
      Instruction.IInstruction .mret 0 0 0x302 = .IInstruction .mret 1 0 0x302 ∨
        (Instruction.IInstruction .mret 0 0 0x302).SameSystem (.IInstruction .mret 1 0 0x302)) :=
  ⟨mprint_eq_iff (by decide : Decoder.decode 0x30002573 = _)
    (by decide : Decoder.decode 0x30102573 = _),
    mprint_eq_iff (by decide : Decoder.decode 0x30200073 = _)
      (by decide : Decoder.decode 0x302000f3 = _)⟩

end RipSim
