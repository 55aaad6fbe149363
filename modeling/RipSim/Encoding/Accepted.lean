import RipSim.Encoding.Legal
import RipSim.Model.InstructionExec

/-!
# The words the decoder accepts

The instruction set of the simulators is RV32IM with the fences, the csr instructions, five
system instructions and two words of the custom-0 space.  `encoded` is its table, and
`DecodesRight` what a decoder for it is to do with a word.  `Misread` is where
`Decoder::decode` does something else: it leaves fields unread that the table fixes, and it
takes a fence for an `addi` that may move a register.
-/

namespace RipSim

open RV32IM (opcode rd funct3 rs1 rs2 funct7 immI)

/-! ## The instruction set -/

/-- The system instructions without operands. -/
inductive SystemOp where
  | ecall | ebreak | uret | sret | mret
  deriving DecidableEq, Repr

namespace SystemOp

def funct12 : SystemOp → BitVec 12
  | ecall => 0 | ebreak => 1 | uret => 2 | sret => 0b000100000010 | mret => 0b001100000010

/-- The instruction with this code. -/
def ofFunct12 (f : BitVec 12) : Option SystemOp :=
  [ecall, ebreak, uret, sret, mret].find? (·.funct12 == f)

/-- The mnemonic. -/
def kind : SystemOp → ITypeKinds
  | ecall => .ecall | ebreak => .ebreak | uret => .uret | sret => .sret | mret => .mret

end SystemOp

/-- The csr instructions. -/
inductive CSROp where
  | rw | rs | rc | rwi | rsi | rci
  deriving DecidableEq, Repr

namespace CSROp

def funct3 : CSROp → BitVec 3
  | rw => 0b001 | rs => 0b010 | rc => 0b011 | rwi => 0b101 | rsi => 0b110 | rci => 0b111

/-- The instruction with this code. -/
def ofFunct3 (f : BitVec 3) : Option CSROp := [rw, rs, rc, rwi, rsi, rci].find? (·.funct3 == f)

/-- The mnemonic. -/
def kind : CSROp → ITypeKinds
  | rw => .csrrw | rs => .csrrs | rc => .csrrc | rwi => .csrrwi | rsi => .csrrsi | rci => .csrrci

end CSROp

/-- An instruction of the simulators. -/
inductive Encoded where
  | base (i : RV32IM.Instr)
  | fence
  | csr (op : CSROp) (rd rs1 : BitVec 5) (csr : BitVec 12)
  | system (op : SystemOp)
  | extx
  | ext
  deriving DecidableEq, Repr

/-- The instruction a word encodes.  The fields of a fence other than the two that name it are
free, and so are those of the custom-0 words other than rs2. -/
def encoded (w : BitVec 32) : Option Encoded :=
  if opcode w = 0b0001111 then
    if funct3 w = 0b000 ∨ funct3 w = 0b001 then some .fence else none
  else if opcode w = 0b1110011 then
    if funct3 w = 0b000 then
      if rd w = 0 ∧ rs1 w = 0 then (SystemOp.ofFunct12 (immI w)).map .system else none
    else (CSROp.ofFunct3 (funct3 w)).map fun op => .csr op (rd w) (rs1 w) (immI w)
  else if opcode w = 0b0001011 then
    if rs2 w = 0 then some .extx else if rs2 w = 1 then some .ext else none
  else (RV32IM.decode w).map .base

/-- The instruction object for an instruction of the set.  A fence has none of its own: the
table does not say which. -/
def ofEncoded : Encoded → Option Instruction
  | .base i => some (ofInstr i)
  | .fence => none
  | .csr op rd rs1 csr => some (.IInstruction op.kind rd rs1 csr)
  | .system op => some (.IInstruction op.kind 0 0 op.funct12)
  | .extx => some (.IInstruction .extx 0 0 0)
  | .ext => some (.IInstruction .ext 0 0 0)

/-- The instruction leaves every register as it is. -/
def Instruction.ChangesNoRegister (I : Instruction) : Prop :=
  ∀ h h' E, I.exec h = .ok (E, h') → h'.GPRegs = h.GPRegs

/-- What the decoder is to make of the word `w`. -/
structure DecodesRight (w : BitVec 32) : Prop where
  /-- A word is accepted if and only if it is in the table. -/
  accepts : (Decoder.decode w).isSome = (encoded w).isSome
  /-- The mnemonic, the registers and the immediate are those of the table. -/
  fields : ∀ i I, encoded w = some i → ofEncoded i = some I → Decoder.decode w = some I
  fence : ∀ I, encoded w = some .fence → Decoder.decode w = some I → I.ChangesNoRegister
  /-- No shift amount is 32 or more. -/
  shamt : ∀ IT Rd Rs1 Imm, Decoder.decode w = some (.IInstruction IT Rd Rs1 Imm) →
    IT ∈ [.slli, .srli, .srai] → Imm.toNat < 32

/-- Where the decoder goes wrong. -/
inductive Misread (w : BitVec 32) : Prop where
  /-- It does not look at funct7 of an `slli`. -/
  | slli (op : opcode w = 0b0010011) (f3 : funct3 w = 0b001) (f7 : funct7 w ≠ 0)
  /-- It takes any funct7 but zero for that of an `srai`. -/
  | srai (op : opcode w = 0b0010011) (f3 : funct3 w = 0b101) (f7 : funct7 w ≠ 0)
      (f7' : funct7 w ≠ 0b0100000)
  /-- It does not look at funct3 of a `jalr`. -/
  | jalr (op : opcode w = 0b1100111) (f3 : funct3 w ≠ 0)
  /-- It does not look at the register fields of a system instruction. -/
  | system (op : opcode w = 0b1110011) (f3 : funct3 w = 0)
      (f12 : (SystemOp.ofFunct12 (immI w)).isSome) (r : ¬(rd w = 0 ∧ rs1 w = 0))
  /-- It decodes a fence as `addi rd, rs1, 0`. -/
  | fence (op : opcode w = 0b0001111) (f3 : funct3 w = 0b000 ∨ funct3 w = 0b001)
      (rd0 : rd w ≠ 0) (r : rd w ≠ rs1 w)

/-! ## The decoder against the table -/

namespace Decoder

section Rows

variable {w : BitVec 32} {Rd Rs1 Rs2 : BitVec 5} {f : BitVec 3} {f7 : BitVec 7}

/-- A field is what its masked word is compared with. -/
theorem eq_of_setWidth {n : ℕ} {x : BitVec n} {c : BitVec 32} (hn : n ≤ 32)
    (h : x.setWidth 32 = c) : x = c.setWidth n := by
  rw [← h, BitVec.setWidth_setWidth_of_le x hn, BitVec.setWidth_eq]

theorem decodeLoad_none (h : RV32IM.LoadOp.ofFunct3 f = none) :
    decodeLoad w Rd Rs1 (f.setWidth 32) = none := by
  have hf : ∀ f : BitVec 3, RV32IM.LoadOp.ofFunct3 f = none → f = 3 ∨ f = 6 ∨ f = 7 := by decide
  rcases hf f h with rfl | rfl | rfl <;> rfl

theorem decodeStore_none (h : RV32IM.StoreOp.ofFunct3 f = none) :
    decodeStore w Rs1 Rs2 (f.setWidth 32) = none := by
  have hf : ∀ f : BitVec 3, RV32IM.StoreOp.ofFunct3 f = none →
      f = 3 ∨ f = 4 ∨ f = 5 ∨ f = 6 ∨ f = 7 := by decide
  rcases hf f h with rfl | rfl | rfl | rfl | rfl <;> rfl

theorem decodeBranch_none (h : RV32IM.BranchOp.ofFunct3 f = none) :
    decodeBranch w Rs1 Rs2 (f.setWidth 32) = none := by
  have hf : ∀ f : BitVec 3, RV32IM.BranchOp.ofFunct3 f = none → f = 2 ∨ f = 3 := by decide
  rcases hf f h with rfl | rfl <;> rfl

/-- A row of `decodeOp` that is taken is one of the table. -/
theorem not_row {c d : BitVec 32} {op : RV32IM.RegOp} (h : RV32IM.RegOp.ofFunct f f7 = none)
    (hop : RV32IM.RegOp.ofFunct (c.setWidth 3) (d.setWidth 7) = some op) :
    ¬(f.setWidth 32 = c ∧ f7.setWidth 32 = d) := by
  rintro ⟨hc, hd⟩
  rw [eq_of_setWidth (by decide) hc, eq_of_setWidth (by decide) hd, hop] at h
  exact nomatch h

theorem decodeOp_none (h : RV32IM.RegOp.ofFunct f f7 = none) :
    decodeOp Rd Rs1 Rs2 (f.setWidth 32) (f7.setWidth 32) = none := by
  unfold decodeOp
  iterate 18 rw [if_neg (not_row h rfl)]

theorem immOp_none (h : RV32IM.ImmOp.ofFunct3 f = none) : f = 1 ∨ f = 5 := by
  have hf : ∀ f : BitVec 3, RV32IM.ImmOp.ofFunct3 f = none → f = 1 ∨ f = 5 := by decide
  exact hf f h

theorem csrOp_none (h : CSROp.ofFunct3 f = none) (h0 : f ≠ 0) : f = 4 := by
  have hf : ∀ f : BitVec 3, CSROp.ofFunct3 f = none → f = 0 ∨ f = 4 := by decide
  exact (hf f h).resolve_left h0

theorem funct12_eq (w : BitVec 32) :
    (funct7 w).setWidth 32 <<< 5 ||| (rs2 w).setWidth 32 = (immI w).setWidth 32 := by
  apply BitVec.eq_of_getLsbD_eq
  intro i hi
  simp only [immI, funct7, rs2, BitVec.getLsbD_setWidth, BitVec.getLsbD_or,
    BitVec.getLsbD_shiftLeft, BitVec.getLsbD_extractLsb']
  interval_cases i <;> simp

theorem not_code {c : BitVec 32} {op : SystemOp} {x : BitVec 12}
    (h : SystemOp.ofFunct12 x = none) (hop : SystemOp.ofFunct12 (c.setWidth 12) = some op) :
    ¬x.setWidth 32 = c := by
  intro hc
  rw [eq_of_setWidth (by decide) hc, hop] at h
  exact nomatch h

theorem decodeSystem_none (h : SystemOp.ofFunct12 (immI w) = none) :
    decodeSystem w Rd Rs1 (rs2 w) (BitVec.setWidth 32 0#3) ((funct7 w).setWidth 32) = none := by
  unfold decodeSystem
  dsimp only
  rw [if_pos (show BitVec.setWidth 32 0#3 = 0#32 from rfl), funct12_eq]
  iterate 5 rw [if_neg (not_code h rfl)]

end Rows

/-- The tests of `decode` as tests of fields. -/
theorem decode_eq_fields (w : BitVec 32) : decode w =
    if opcode w = 0b0000011 then decodeLoad w (rd w) (rs1 w) ((funct3 w).setWidth 32)
    else if opcode w = 0b0001011 then
      if rs2 w = 0 then some (.IInstruction .extx 0 0 0)
      else if rs2 w = 1 then some (.IInstruction .ext 0 0 0)
      else none
    else if opcode w = 0b0001111 then
      if funct3 w = 0 then some (.IInstruction .addi (rd w) (rs1 w) 0)
      else if funct3 w = 1 then some (.IInstruction .addi (rd w) (rs1 w) 0)
      else none
    else if opcode w = 0b0010111 then some (.UInstruction .auipc (rd w) (RV32IM.immU w))
    else if opcode w = 0b0110011 then
      decodeOp (rd w) (rs1 w) (rs2 w) ((funct3 w).setWidth 32) ((funct7 w).setWidth 32)
    else if opcode w = 0b0010011 then
      decodeOpImm w (rd w) (rs1 w) ((funct3 w).setWidth 32) ((funct7 w).setWidth 32)
    else if opcode w = 0b0110111 then some (.UInstruction .lui (rd w) (RV32IM.immU w))
    else if opcode w = 0b1100111 then some (.IInstruction .jalr (rd w) (rs1 w) (immI w))
    else if opcode w = 0b0100011 then decodeStore w (rs1 w) (rs2 w) ((funct3 w).setWidth 32)
    else if opcode w = 0b1100011 then decodeBranch w (rs1 w) (rs2 w) ((funct3 w).setWidth 32)
    else if opcode w = 0b1101111 then some (.JInstruction .jal (rd w) (RV32IM.immJ w))
    else if opcode w = 0b1110011 then
      decodeSystem w (rd w) (rs1 w) (rs2 w) ((funct3 w).setWidth 32) ((funct7 w).setWidth 32)
    else none := by
  have hiff : ∀ {n : ℕ} (x c : BitVec n), n ≤ 32 → (x.setWidth 32 = c.setWidth 32 ↔ x = c) := by
    intro n x c hn
    refine ⟨fun h => ?_, fun h => by rw [h]⟩
    rw [eq_of_setWidth hn h, BitVec.setWidth_setWidth_of_le c hn, BitVec.setWidth_eq]
  have hop := fun c => hiff (opcode w) c (by decide)
  have hf := fun c => hiff (funct3 w) c (by decide)
  unfold decode
  simp only [opcode_eq, rd_eq, rs1_eq, rs2_eq, funct3_eq, funct7_eq, immU_eq, immJ_eq, immI_eq]
  simp only [← hop, ← hf]
  rfl

/-- A word that is not in the table and not misread is not decoded. -/
theorem decode_none {w : BitVec 32} (h : encoded w = none) (hm : ¬Misread w) :
    decode w = none := by
  unfold encoded at h
  rw [decode_eq_fields]
  by_cases hfence : opcode w = 0b0001111
  · rw [if_pos hfence] at h
    have hf : ¬(funct3 w = 0 ∨ funct3 w = 1) := fun hf => nomatch (if_pos hf).symm.trans h
    rw [hfence]
    exact (if_neg (not_or.mp hf).1).trans (if_neg (not_or.mp hf).2)
  by_cases hsys : opcode w = 0b1110011
  · rw [if_neg hfence, if_pos hsys] at h
    rw [hsys]
    show decodeSystem w _ _ _ _ _ = none
    by_cases h0 : funct3 w = 0
    · rw [if_pos h0] at h
      rw [h0]
      have hnone : SystemOp.ofFunct12 (immI w) = none := by
        by_contra hs
        have hsome := Option.isSome_iff_ne_none.mpr hs
        by_cases hr : rd w = 0 ∧ rs1 w = 0
        · rw [if_pos hr] at h
          exact hs (Option.map_eq_none_iff.mp h)
        · exact hm (.system hsys h0 hsome hr)
      exact decodeSystem_none hnone
    · rw [if_neg h0] at h
      rw [csrOp_none (Option.map_eq_none_iff.mp h) h0]
      rfl
  by_cases hcus : opcode w = 0b0001011
  · rw [if_neg hfence, if_neg hsys, if_pos hcus] at h
    rw [hcus]
    show (if rs2 w = 0 then _ else if rs2 w = 1 then _ else none) = none
    split_ifs at h with h0 h1
    rw [if_neg h0, if_neg h1]
  rw [if_neg hfence, if_neg hsys, if_neg hcus, Option.map_eq_none_iff] at h
  unfold RV32IM.decode at h
  rw [if_neg hcus, if_neg hfence, if_neg hsys]
  by_cases hlui : opcode w = 0b0110111
  · exact nomatch (if_pos hlui).symm.trans h
  by_cases hauipc : opcode w = 0b0010111
  · rw [if_neg hlui] at h
    exact nomatch (if_pos hauipc).symm.trans h
  by_cases hjal : opcode w = 0b1101111
  · rw [if_neg hlui, if_neg hauipc] at h
    exact nomatch (if_pos hjal).symm.trans h
  rw [if_neg hlui, if_neg hauipc, if_neg hjal] at h
  rw [if_neg hauipc, if_neg hlui, if_neg hjal]
  by_cases hjalr : opcode w = 0b1100111
  · rw [if_pos hjalr] at h
    split_ifs at h with h0
    exact absurd (.jalr hjalr h0) hm
  rw [if_neg hjalr] at h ⊢
  by_cases hbr : opcode w = 0b1100011
  · rw [if_pos hbr] at h
    rw [hbr]
    exact decodeBranch_none (Option.map_eq_none_iff.mp h)
  rw [if_neg hbr] at h ⊢
  by_cases hld : opcode w = 0b0000011
  · rw [if_pos hld] at h ⊢
    exact decodeLoad_none (Option.map_eq_none_iff.mp h)
  rw [if_neg hld] at h ⊢
  by_cases hst : opcode w = 0b0100011
  · rw [if_pos hst] at h
    rw [hst]
    exact decodeStore_none (Option.map_eq_none_iff.mp h)
  rw [if_neg hst] at h ⊢
  by_cases himm : opcode w = 0b0010011
  · rw [if_pos himm] at h
    cases hop : RV32IM.ImmOp.ofFunct3 (funct3 w) with
    | some op => exact nomatch (hop ▸ h)
    | none =>
      rw [hop] at h
      have hsh := Option.map_eq_none_iff.mp h
      rcases immOp_none hop with h1 | h5
      · refine absurd (.slli himm h1 fun h7 => ?_) hm
        rw [h1, h7] at hsh
        exact nomatch hsh
      · refine absurd (.srai himm h5 (fun h7 => ?_) fun h7 => ?_) hm
        · rw [h5, h7] at hsh
          exact nomatch hsh
        · rw [h5, h7] at hsh
          exact nomatch hsh
  rw [if_neg himm] at h ⊢
  by_cases hreg : opcode w = 0b0110011
  · rw [if_pos hreg] at h ⊢
    exact decodeOp_none (Option.map_eq_none_iff.mp h)
  · rw [if_neg hreg]

/-- The instruction object for a word of the table: a fence becomes an `addi` of its fields. -/
def objectOf (w : BitVec 32) (i : Encoded) : Instruction :=
  (ofEncoded i).getD (.IInstruction .addi (rd w) (rs1 w) 0)

/-- A word of the table is decoded as what it encodes. -/
theorem decode_encoded {w : BitVec 32} {i : Encoded} (h : encoded w = some i) :
    decode w = some (objectOf w i) := by
  unfold encoded at h
  by_cases hfence : opcode w = 0b0001111
  · rw [if_pos hfence] at h
    split_ifs at h with hf
    injection h with h
    rw [decode_eq_fields, hfence, ← h]
    rcases hf with hf | hf <;> rw [hf] <;> rfl
  rw [if_neg hfence] at h
  by_cases hsys : opcode w = 0b1110011
  · rw [if_pos hsys] at h
    rw [decode_eq_fields, hsys]
    show decodeSystem w _ _ _ _ _ = _
    by_cases h0 : funct3 w = 0
    · rw [if_pos h0] at h
      split_ifs at h with hr
      obtain ⟨op, hop, rfl⟩ := Option.map_eq_some_iff.mp h
      have hf : op.funct12 = immI w := by simpa using List.find?_some hop
      rw [h0, hr.1, hr.2]
      unfold decodeSystem
      dsimp only
      rw [if_pos (show (0 : BitVec 3).setWidth 32 = 0#32 from rfl), funct12_eq, immI_eq, ← hf]
      cases op <;> rfl
    · rw [if_neg h0] at h
      obtain ⟨op, hop, rfl⟩ := Option.map_eq_some_iff.mp h
      have hf : op.funct3 = funct3 w := by simpa using List.find?_some hop
      unfold decodeSystem
      rw [← hf, immI_eq]
      cases op <;> rfl
  rw [if_neg hsys] at h
  by_cases hcus : opcode w = 0b0001011
  · rw [if_pos hcus] at h
    rw [decode_eq_fields, hcus]
    show (if rs2 w = 0 then _ else if rs2 w = 1 then _ else none) = _
    split_ifs at h with h0 h1
    · injection h with h
      rw [if_pos h0, ← h]
      rfl
    · injection h with h
      rw [if_neg h0, if_pos h1, ← h]
      rfl
  rw [if_neg hcus] at h
  obtain ⟨j, hj, rfl⟩ := Option.map_eq_some_iff.mp h
  exact decode_legal hj

end Decoder

/-! ## Fences -/

/-- An `addi` of zero moves a register, unless it goes to `x0` or stays where it is. -/
theorem changesNoRegister_addi_iff (Rd Rs1 : BitVec 5) :
    (Instruction.IInstruction .addi Rd Rs1 0).ChangesNoRegister ↔ Rd = 0 ∨ Rd = Rs1 := by
  have hval : ∀ v : RegVal, v + (0 : BitVec 12).signExtend 32 = v := fun v => BitVec.add_zero v
  constructor
  · intro h
    by_contra hne
    obtain ⟨h0, h1⟩ := not_or.mp hne
    -- a machine with 1 in rd and 0 elsewhere
    have hregs := h
      { PC := 0, GPRegs := ⟨fun r => if r = Rd then 1 else 0, if_neg (Ne.symm h0)⟩
        Mem := Memory.new 16 0, States := CSRs.new, Mode := .Machine, cerr := [] } _ none rfl
    have hrd := congrArg (fun G : GPRegisters => G Rd) hregs
    change (GPRegisters.write _ Rd ((if Rs1 = Rd then (1 : RegVal) else 0) +
      (0 : BitVec 12).signExtend 32)) Rd = if Rd = Rd then (1 : RegVal) else 0 at hrd
    rw [GPRegisters.write_apply_self _ h0, hval, if_neg (Ne.symm h1), if_pos rfl] at hrd
    exact absurd hrd (by decide)
  · rintro h g g' E hE
    injection hE with hE
    injection hE with _ hE
    rw [← hE]
    show g.GPRegs.write Rd (g.GPRegs Rs1 + (0 : BitVec 12).signExtend 32) = g.GPRegs
    rw [hval]
    refine GPRegisters.ext (funext fun r => ?_)
    by_cases hr : r = Rd
    · rw [hr]
      rcases h with rfl | rfl
      · exact congrArg (fun G : GPRegisters => G 0) (GPRegisters.write_zero _ _)
      · rw [GPRegisters.write_apply, ite_self]
    · exact GPRegisters.write_apply_of_ne _ hr _

/-! ## The decoder -/

theorem encoded_fence {w : BitVec 32} (h : encoded w = some .fence) :
    opcode w = 0b0001111 ∧ (funct3 w = 0b000 ∨ funct3 w = 0b001) := by
  unfold encoded at h
  split_ifs at h with hop hf h1 h2 h3
  · exact ⟨hop, hf⟩
  all_goals simp at h

/-- A shift of the table is one by five bits. -/
theorem shamt_objectOf {w : BitVec 32} {i : Encoded} {IT : ITypeKinds} {Rd Rs1 : BitVec 5}
    {Imm : BitVec 12} (h : Decoder.objectOf w i = .IInstruction IT Rd Rs1 Imm)
    (hIT : IT ∈ [.slli, .srli, .srai]) : Imm.toNat < 32 := by
  have hnot : ∀ {J : ITypeKinds}, J ∉ [.slli, .srli, .srai] → J = IT → False := by
    rintro J hJ rfl
    exact hJ hIT
  cases i with
  | base j =>
    cases j with
    | shift op rd rs1 shamt =>
      injection h with _ _ _ hImm
      rw [← hImm, BitVec.toNat_setWidth]
      omega
    | opImm op | load op =>
      injection h with hop
      exact (hnot (by cases op <;> decide) hop).elim
    | jalr =>
      injection h with hop
      exact (hnot (by decide) hop).elim
    | _ => exact nomatch h
  | csr op | system op =>
    injection h with hop
    exact (hnot (by cases op <;> decide) hop).elim
  | fence | extx | ext =>
    injection h with hop
    exact (hnot (by decide) hop).elim

theorem not_decodesRight_of_none {w : BitVec 32} (henc : encoded w = none)
    (hdec : (Decoder.decode w).isSome = true) : ¬DecodesRight w := by
  intro hD
  have hacc := hD.accepts
  rw [henc, hdec] at hacc
  exact nomatch hacc

/-- **When the decoder is right about a word**: always, but for the misread ones. -/
theorem decodesRight_iff (w : BitVec 32) : DecodesRight w ↔ ¬Misread w := by
  constructor
  · intro hD hm
    cases hm with
    | slli op f3 f7 =>
      have hnone : ∀ f : BitVec 7, f ≠ 0 → RV32IM.ShiftOp.ofFunct 1 f = none := by decide
      refine not_decodesRight_of_none ?_ ?_ hD
      · unfold encoded RV32IM.decode
        rw [op, f3]
        exact congrArg (Option.map Encoded.base) (Option.map_eq_none_iff.mpr (hnone _ f7))
      · rw [Decoder.decode_eq_fields, op, f3]
        rfl
    | srai op f3 f7 f7' =>
      have hnone : ∀ f : BitVec 7, f ≠ 0 → f ≠ 0b0100000 → RV32IM.ShiftOp.ofFunct 5 f = none := by
        decide
      refine not_decodesRight_of_none ?_ ?_ hD
      · unfold encoded RV32IM.decode
        rw [op, f3]
        exact congrArg (Option.map Encoded.base) (Option.map_eq_none_iff.mpr (hnone _ f7 f7'))
      · rw [Decoder.decode_eq_fields, op, f3]
        exact (congrArg Option.isSome (apply_ite some _ _ _)).symm
    | jalr op f3 =>
      refine not_decodesRight_of_none ?_ ?_ hD
      · unfold encoded RV32IM.decode
        rw [op]
        exact congrArg (Option.map Encoded.base) (if_neg f3)
      · rw [Decoder.decode_eq_fields, op]
        rfl
    | system op f3 f12 r =>
      obtain ⟨sop, hsop⟩ := Option.isSome_iff_exists.mp f12
      have hf : sop.funct12 = immI w := by simpa using List.find?_some hsop
      refine not_decodesRight_of_none ?_ ?_ hD
      · unfold encoded
        rw [op, f3]
        exact if_neg r
      · rw [Decoder.decode_eq_fields, op, f3]
        show (Decoder.decodeSystem w (rd w) (rs1 w) (rs2 w) ((0 : BitVec 3).setWidth 32)
          ((funct7 w).setWidth 32)).isSome = true
        unfold Decoder.decodeSystem
        dsimp only
        rw [if_pos (show (0 : BitVec 3).setWidth 32 = 0#32 from rfl), Decoder.funct12_eq, ← hf]
        cases sop <;> rfl
    | fence op f3 rd0 r =>
      have henc : encoded w = some .fence := (if_pos op).trans (if_pos f3)
      have hno := hD.fence _ henc (Decoder.decode_encoded henc)
      exact ((changesNoRegister_addi_iff (rd w) (rs1 w)).mp hno).elim rd0 r
  · intro hm
    cases henc : encoded w with
    | none =>
      have hdec := Decoder.decode_none henc hm
      exact ⟨by rw [hdec, henc]; rfl, fun _ _ h _ => (nomatch henc.symm.trans h),
        fun _ h _ => (nomatch henc.symm.trans h), fun _ _ _ _ h _ => (nomatch hdec.symm.trans h)⟩
    | some i =>
      have hdec := Decoder.decode_encoded henc
      refine ⟨by rw [hdec, henc]; rfl, fun j I hj hI => ?_, fun I hf hI => ?_,
        fun IT Rd Rs1 Imm hI hIT => ?_⟩
      · obtain rfl := Option.some.inj (henc.symm.trans hj)
        rw [hdec, Decoder.objectOf, hI]
        rfl
      · obtain rfl := Option.some.inj (henc.symm.trans hf)
        obtain rfl := Option.some.inj (hdec.symm.trans hI)
        obtain ⟨hop, hf3⟩ := encoded_fence henc
        refine (changesNoRegister_addi_iff (rd w) (rs1 w)).mpr ?_
        by_contra hne
        exact hm (.fence hop hf3 (not_or.mp hne).1 (not_or.mp hne).2)
      · exact shamt_objectOf (Option.some.inj (hdec.symm.trans hI)) hIT

/-- `0x02009093` has the opcode and the funct3 of `slli` and a funct7 that makes it none; it is
decoded as a shift by 32. -/
theorem slli_by_thirtyTwo :
    ¬DecodesRight 0x02009093 ∧
      Decoder.decode 0x02009093 = some (.IInstruction .slli 1 1 32) := by
  refine ⟨fun h => ?_, by decide⟩
  have hlt := h.shamt .slli 1 1 32 (by decide) (by decide)
  exact absurd hlt (by decide)

end RipSim
