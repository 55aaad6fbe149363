import RipSim.Encoding.Assembled

/-!
# The word kept in an instruction

`getVal` is put together from the members.  What the decoder has made of a word it makes of
that word again, unless the two instructions are told apart by a field no member keeps:
`srai` has no funct7 and only five bits of its immediate, so its word is that of `srli`; and
`ext`, without operands, has the word of `extx`.
-/

namespace RipSim

open RV32IM (opcode rd funct3 rs1 rs2 funct7 immI)

/-- The words of `srai` and of `ext`. -/
def Shortened (w : BitVec 32) : Prop :=
  (opcode w = 0b0010011 ∧ funct3 w = 0b101 ∧ funct7 w ≠ 0) ∨ (opcode w = 0b0001011 ∧ rs2 w = 1)

/-! ## The members the decoder leaves -/

/-- The members of an instruction with an I-type mnemonic that the decoder makes of `w`. -/
def KeptBy (w : BitVec 32) : Instruction → Prop
  | .IInstruction IT Rd Rs1 Imm =>
    match IT with
    | .srli => Imm.extractLsb' 5 7 = 0
    | .srai => Imm.extractLsb' 5 7 = 0 ∧ Shortened w
    | .ecall => Imm = 0
    | .ebreak => Imm = 1
    | .uret => Imm = 2
    | .sret => Imm = 0b100000010
    | .mret => Imm = 0b1100000010
    | .ext => (Rd = 0 ∧ Rs1 = 0 ∧ Imm = 0) ∧ Shortened w
    | .extx => Rd = 0 ∧ Rs1 = 0 ∧ Imm = 0
    | _ => True
  | _ => True

namespace Decoder

theorem forall_mem_dite {α : Type*} {p : α → Prop} {c : Prop} [Decidable c] {a b : Option α}
    (ha : c → ∀ x ∈ a, p x) (hb : ¬c → ∀ x ∈ b, p x) : ∀ x ∈ (if c then a else b), p x := by
  split
  · exact ha ‹_›
  · exact hb ‹_›

/-- Five bits widened to twelve have nothing above. -/
theorem extractLsb'_shamt (s : BitVec 5) : (s.setWidth 12).extractLsb' 5 7 = 0 := by
  revert s
  decide

variable (w : BitVec 32)

theorem decodeSystem_kept :
    ∀ I ∈ decodeSystem w (rd w) (rs1 w) (rs2 w) ((funct3 w).setWidth 32) ((funct7 w).setWidth 32),
      KeptBy w I := by
  unfold decodeSystem
  rw [funct12_eq, immI_eq]
  dsimp only
  refine forall_mem_ite ?_ ?_
  · refine forall_mem_dite (fun h => forall_mem_some (eq_of_setWidth (by decide) h)) fun _ => ?_
    refine forall_mem_dite (fun h => forall_mem_some (eq_of_setWidth (by decide) h)) fun _ => ?_
    refine forall_mem_dite (fun h => forall_mem_some (eq_of_setWidth (by decide) h)) fun _ => ?_
    refine forall_mem_dite (fun h => forall_mem_some (eq_of_setWidth (by decide) h)) fun _ => ?_
    refine forall_mem_dite (fun h => forall_mem_some (eq_of_setWidth (by decide) h)) fun _ => ?_
    exact fun _ h => nomatch h
  · repeat' apply forall_mem_ite
    all_goals first
      | exact forall_mem_some trivial
      | exact fun _ h => nomatch h

theorem decodeOpImm_kept (hop : opcode w = 0b0010011) :
    ∀ I ∈ decodeOpImm w (rd w) (rs1 w) ((funct3 w).setWidth 32) ((funct7 w).setWidth 32),
      KeptBy w I := by
  unfold decodeOpImm
  rw [shamt_eq]
  dsimp only
  iterate 7 refine forall_mem_ite (forall_mem_some trivial) ?_
  refine forall_mem_dite (fun h5 => ?_) fun _ => fun _ h => nomatch h
  refine forall_mem_dite (fun _ => ?_) fun h7 => ?_
  · exact forall_mem_some (extractLsb'_shamt _)
  · refine forall_mem_some ⟨extractLsb'_shamt _, .inl ⟨hop, eq_of_setWidth (by decide) h5, ?_⟩⟩
    rintro h
    rw [h] at h7
    exact h7 rfl

/-- The other opcodes with several rows keep every member. -/
theorem rows_kept (Rd Rs1 Rs2 : BitVec 5) (f f7 : BitVec 32) :
    (∀ I ∈ decodeLoad w Rd Rs1 f, KeptBy w I) ∧ (∀ I ∈ decodeOp Rd Rs1 Rs2 f f7, KeptBy w I) ∧
      (∀ I ∈ decodeStore w Rs1 Rs2 f, KeptBy w I) ∧ ∀ I ∈ decodeBranch w Rs1 Rs2 f, KeptBy w I := by
  unfold decodeLoad decodeOp decodeStore decodeBranch
  dsimp only
  refine ⟨?_, ?_, ?_, ?_⟩ <;> repeat' apply forall_mem_ite
  all_goals first
    | exact forall_mem_some trivial
    | exact fun _ h => nomatch h

/-- The members the decoder leaves. -/
theorem decode_kept : ∀ I ∈ decode w, KeptBy w I := by
  rw [decode_eq_fields]
  obtain ⟨hload, hreg, hstore, hbranch⟩ :=
    rows_kept w (rd w) (rs1 w) (rs2 w) ((funct3 w).setWidth 32) ((funct7 w).setWidth 32)
  refine forall_mem_ite hload ?_
  refine forall_mem_dite (fun hop => ?_) fun _ => ?_
  · refine forall_mem_ite (forall_mem_some ⟨rfl, rfl, rfl⟩) ?_
    refine forall_mem_dite (fun h1 => ?_) fun _ => fun _ h => nomatch h
    exact forall_mem_some ⟨⟨rfl, rfl, rfl⟩, .inr ⟨hop, h1⟩⟩
  refine forall_mem_ite ?_ ?_
  · refine forall_mem_ite (forall_mem_some trivial) ?_
    exact forall_mem_ite (forall_mem_some trivial) fun _ h => nomatch h
  refine forall_mem_ite (forall_mem_some trivial) ?_
  refine forall_mem_ite hreg ?_
  refine forall_mem_dite (decodeOpImm_kept w) fun _ => ?_
  refine forall_mem_ite (forall_mem_some trivial) ?_
  refine forall_mem_ite (forall_mem_some trivial) ?_
  refine forall_mem_ite hstore ?_
  refine forall_mem_ite hbranch ?_
  refine forall_mem_ite (forall_mem_some trivial) ?_
  exact forall_mem_ite (decodeSystem_kept w) fun _ h => nomatch h

variable {w}

/-- A shortened word is one of the two. -/
theorem decode_shortened (h : Shortened w) :
    decode w = some (.IInstruction .srai (rd w) (rs1 w) ((rs2 w).setWidth 12)) ∨
      decode w = some (.IInstruction .ext 0 0 0) := by
  rw [decode_eq_fields]
  rcases h with ⟨hop, h5, h7⟩ | ⟨hop, h1⟩
  · refine .inl ?_
    have hne : (funct7 w).setWidth 32 ≠ 0#32 := fun h => h7 (eq_of_setWidth (by decide) h)
    rw [hop, h5]
    unfold decodeOpImm
    rw [shamt_eq]
    exact if_neg hne
  · refine .inr ?_
    rw [hop, h1]
    rfl

end Decoder

/-! ## Decoding the word again -/

namespace Instruction

section Classes

variable (IT : ITypeKinds) (Rd Rs1 : BitVec 5)

theorem decode_csr (hIT : IT.isCSR = true) (Imm : BitVec 12) :
    Decoder.decode (IInstruction IT Rd Rs1 Imm).getVal = some (.IInstruction IT Rd Rs1 Imm) := by
  obtain ⟨hf3, himm, -, -⟩ := fields_I IT Rd Rs1 Imm
  rw [Decoder.decode_eq_fields, opcode_getVal, rd_getVal rfl, rs1_getVal rfl, hf3]
  unfold Decoder.decodeSystem
  rw [Decoder.immI_eq, himm]
  cases IT with
  | csrrw | csrrs | csrrc | csrrwi | csrrsi | csrrci => rfl
  | _ => exact nomatch hIT

/-- The system rows, with the immediate that is their code. -/
theorem decode_system (op : SystemOp) :
    Decoder.decode (IInstruction op.kind Rd Rs1 op.funct12).getVal =
      some (.IInstruction op.kind Rd Rs1 op.funct12) := by
  obtain ⟨hf3, himm, -, -⟩ := fields_I op.kind Rd Rs1 op.funct12
  rw [Decoder.decode_eq_fields, opcode_getVal, rd_getVal rfl, rs1_getVal rfl, hf3]
  unfold Decoder.decodeSystem
  rw [Decoder.funct12_eq, Decoder.immI_eq, himm]
  cases op <;> rfl

end Classes

/-- A number and its low bit masked out are the same only if the bit is zero. -/
theorem bit_zero_of_even {n : ℕ} (hn : 0 < n) {Imm : BitVec n} (h : Imm &&& ~~~1#n = Imm) :
    Imm[0] = false := by
  have h0 := congrArg (·.getLsbD 0) h
  simp only [BitVec.getLsbD_and, BitVec.getLsbD_not, BitVec.getLsbD_one] at h0
  rw [← BitVec.getLsbD_eq_getElem hn, ← h0]
  simp

/-- A shift amount is its low five bits. -/
theorem setWidth_shamt {Imm : BitVec 12} (h : Imm.extractLsb' 5 7 = 0) :
    (Imm.extractLsb' 0 5).setWidth 12 = Imm := by
  apply BitVec.eq_of_getLsbD_eq
  intro i hi
  rw [BitVec.getLsbD_setWidth, BitVec.getLsbD_extractLsb', decide_eq_true hi, Bool.true_and,
    Nat.zero_add]
  by_cases h5 : i < 5
  · rw [decide_eq_true h5, Bool.true_and]
  · have hz : (Imm.extractLsb' 5 7).getLsbD (i - 5) = false := by
      rw [h]
      exact BitVec.getLsbD_zero
    rw [BitVec.getLsbD_extractLsb', Nat.add_sub_cancel' (by omega), decide_eq_true (by omega),
      Bool.true_and] at hz
    rw [decide_eq_false h5, Bool.false_and, hz]

theorem decode_srli (Rd Rs1 : BitVec 5) {Imm : BitVec 12} (h : Imm.extractLsb' 5 7 = 0) :
    Decoder.decode (IInstruction .srli Rd Rs1 Imm).getVal =
      some (.IInstruction .srli Rd Rs1 Imm) := by
  have hd := decode_shift .srli Rd Rs1 (by decide) Imm _ rfl (iff_of_true h rfl)
  rwa [setWidth_shamt h] at hd

/-- What is not shortened is decoded again as it was. -/
theorem decode_rebuilt {w : BitVec 32} {I : Instruction} (hkept : KeptBy w I) (heven : I.EvenImm)
    (hs : ¬Shortened w) : Decoder.decode I.getVal = some I := by
  cases I with
  | RInstruction RT Rd Rs1 Rs2 => exact decode_R RT Rd Rs1 Rs2
  | UInstruction UT Rd Imm => exact decode_U UT Rd Imm
  | JInstruction JT Rd Imm => exact decode_J JT Rd (bit_zero_of_even (by decide) heven)
  | SInstruction ST Rs1 Rs2 Imm => exact decode_S ST Rs1 Rs2 Imm
  | BInstruction BT Rs1 Rs2 Imm => exact decode_B BT Rs1 Rs2 (bit_zero_of_even (by decide) heven)
  | IInstruction IT Rd Rs1 Imm =>
    cases IT with
    | addi | slti | sltiu | xori | ori | andi | jalr | lb | lh | lw | lbu | lhu | slli =>
      exact decode_I _ Rd Rs1 (by decide) Imm
    | csrrw | csrrs | csrrc | csrrwi | csrrsi | csrrci => exact decode_csr _ Rd Rs1 rfl Imm
    | srli => exact decode_srli Rd Rs1 hkept
    | ecall =>
      obtain rfl : Imm = 0 := hkept
      exact decode_system Rd Rs1 .ecall
    | ebreak =>
      obtain rfl : Imm = 1 := hkept
      exact decode_system Rd Rs1 .ebreak
    | uret =>
      obtain rfl : Imm = 2 := hkept
      exact decode_system Rd Rs1 .uret
    | sret =>
      obtain rfl : Imm = 0b100000010 := hkept
      exact decode_system Rd Rs1 .sret
    | mret =>
      obtain rfl : Imm = 0b1100000010 := hkept
      exact decode_system Rd Rs1 .mret
    | extx =>
      obtain ⟨rfl, rfl, rfl⟩ := hkept
      rfl
    | srai => exact absurd hkept.2 hs
    | ext => exact absurd hkept.2 hs

end Instruction

/-- **When the word kept in an instruction is faithful**: for every word but those of `srai`
and of `ext`. -/
theorem decode_getVal_iff {w : BitVec 32} {I : Instruction} (h : Decoder.decode w = some I) :
    Decoder.decode I.getVal = some I ↔ ¬Shortened w := by
  constructor
  · intro hI hs
    rcases Decoder.decode_shortened hs with hw | hw <;>
      obtain rfl := Option.some.inj (h.symm.trans hw)
    · -- the word of `srai` is the one of `srli`
      have hsrli := Instruction.decode_srli (rd w) (rs1 w) (Decoder.extractLsb'_shamt (rs2 w))
      exact absurd (Option.some.inj (hsrli.symm.trans hI)) (by simp)
    · exact absurd hI (by decide)
  · exact Instruction.decode_rebuilt (Decoder.decode_kept w I h) (Decoder.decode_even w I h)

/-- `srai x1, x1, 1` is kept as the word of `srli x1, x1, 1`. -/
theorem srai_kept_as_srli :
    Decoder.decode 0x4010d093 = some (.IInstruction .srai 1 1 1) ∧
      Decoder.decode (Instruction.IInstruction .srai 1 1 1).getVal =
        some (.IInstruction .srli 1 1 1) := by
  constructor <;> decide

/-- `mret` -/
theorem decode_getVal_iff_mret :
    Decoder.decode 0x30200073 = some (.IInstruction .mret 0 0 0x302) ∧
      (Decoder.decode (Instruction.IInstruction .mret 0 0 0x302).getVal =
        some (.IInstruction .mret 0 0 0x302) ↔ ¬Shortened 0x30200073) :=
  ⟨by decide, decode_getVal_iff (by decide)⟩

end RipSim
