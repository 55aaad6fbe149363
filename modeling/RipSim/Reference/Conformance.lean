import RipSim.Encoding.Arithmetic
import RipSim.Reference.Bytes

/-!
# The interpreter implements RV32IM

`Decoder::decode` followed by `Instruction::exec` does to the registers, the memory and
the program counter what the specification prescribes, for every legal word and every
machine: `exec_decode_conforms`.

The simulator has no instruction-address-misaligned exception.  Where the specification
raises it the interpreter jumps all the same (`jal_misaligned`), which is what the
specification prescribes for machines with instructions of two bytes.
-/

namespace RipSim

open RV32IM (Instr)

namespace Memory

/-- The memory with the bytes that a function of the address gives, where the address of
a byte has 32 bits. -/
def withBytes (M : Memory) (f : BitVec 32 → Byte) : Memory :=
  { M with DRAM := fun i =>
      if (i + M.DRAMBase).toNat < 2 ^ 32 then f ((i + M.DRAMBase).setWidth 32) else M.DRAM i }

end Memory

namespace Hart

variable (h : Hart)

/-- The architectural state of a machine. -/
def arch : RV32IM.State where
  x := h.GPRegs.Regs
  pc := h.PC.setWidth 32
  mem a := h.Mem.DRAM (a.setWidth 64 - h.Mem.DRAMBase)

/-- The data access of an instruction, if it has one, lies in the DRAM below `2 ^ 31` and
is not one to the console. -/
def Serves (i : Instr) : Prop :=
  ∀ a n, i.dataAccess h.arch = some (a, n) →
    a.toNat + n ≤ 2 ^ 31 ∧ a ≠ consoleAd ∧ h.Mem.Contains (a.setWidth 64) n

@[simp] theorem arch_get (r : BitVec 5) : h.arch.get r = h.GPRegs r := by
  unfold RV32IM.State.get
  split
  · rename_i hr
    rw [hr]
    exact h.GPRegs.Regs_zero.symm
  · rfl

/-- A byte of the DRAM by its address. -/
theorem arch_mem_setWidth {i : Address} (hi : (i + h.Mem.DRAMBase).toNat < 2 ^ 32) :
    h.arch.mem ((i + h.Mem.DRAMBase).setWidth 32) = h.Mem.DRAM i := by
  have haddr : ((i + h.Mem.DRAMBase).setWidth 32).setWidth 64 = i + h.Mem.DRAMBase := by
    apply BitVec.eq_of_toNat_eq
    rw [BitVec.toNat_setWidth, BitVec.toNat_setWidth]
    omega
  change h.Mem.DRAM (((i + h.Mem.DRAMBase).setWidth 32).setWidth 64 - h.Mem.DRAMBase) = _
  rw [haddr, add_sub_cancel_right]

@[simp] theorem withBytes_arch : h.Mem.withBytes h.arch.mem = h.Mem := by
  refine Memory.ext (funext fun i => ?_) rfl rfl
  change (if _ then h.arch.mem ((i + h.Mem.DRAMBase).setWidth 32) else h.Mem.DRAM i) = _
  split
  · rename_i hi
    exact h.arch_mem_setWidth hi
  · rfl

end Hart

/-- The machine `h'` is `h` with the registers, the program counter and the memory of `s`:
the control and status registers, the mode and the console are those of `h`. -/
structure Conforms (h : Hart) (s : RV32IM.State) (h' : Hart) : Prop where
  x : h'.GPRegs.Regs = s.x
  pc : h'.PC.setWidth 32 = s.pc
  mem : h'.Mem = h.Mem.withBytes s.mem
  States : h'.States = h.States
  Mode : h'.Mode = h.Mode
  cerr : h'.cerr = h.cerr

/-! ## Registers and the program counter -/

theorem setWidth_signExtend (v : BitVec 32) : (v.signExtend 64).setWidth 32 = v := by
  apply BitVec.eq_of_getLsbD_eq
  intro i hi
  rw [BitVec.getLsbD_setWidth, BitVec.getLsbD_signExtend, decide_eq_true hi,
    decide_eq_true (show i < 64 by omega), if_pos hi, Bool.true_and, Bool.true_and]

theorem setWidth_add_signExtend (PC : Address) (v : BitVec 32) :
    (PC + v.signExtend 64).setWidth 32 = PC.setWidth 32 + v := by
  rw [BitVec.setWidth_add _ _ (by omega), setWidth_signExtend]

theorem setWidth_add_four (PC : Address) : (PC + 4).setWidth 32 = PC.setWidth 32 + 4 :=
  BitVec.setWidth_add _ _ (by omega)

theorem shiftLeft_signExtend (imm : BitVec 20) : imm.signExtend 32 <<< 12 = imm ++ 0#12 := by
  apply BitVec.eq_of_getLsbD_eq
  intro i hi
  rw [BitVec.getLsbD_shiftLeft, BitVec.getLsbD_append, decide_eq_true hi, Bool.true_and]
  split
  · simp_all
  · rw [BitVec.getLsbD_signExtend, decide_eq_true (show i - 12 < 32 by omega),
      if_pos (show i - 12 < 20 by omega), Bool.true_and]
    simp_all

theorem Conforms.writeRd (h : Hart) (rd : BitVec 5) (v : BitVec 32) :
    Conforms h (h.arch.set rd v).advance (h.writeRd rd v) where
  x := rfl
  pc := setWidth_add_four h.PC
  mem := h.withBytes_arch.symm
  States := rfl
  Mode := rfl
  cerr := rfl

/-! ## Accesses -/

section Accesses

variable {h : Hart} {a : BitVec 32} {n : ℕ}

/-- The bytes of an access, by address and by index. -/
theorem arch_mem_add {k : ℕ} (hk : k < n) (ha : a.toNat + n ≤ 2 ^ 31) :
    h.arch.mem (a + BitVec.ofNat 32 k)
      = h.Mem.DRAM (a.setWidth 64 - h.Mem.DRAMBase + BitVec.ofNat 64 k) := by
  have haddr : (a + BitVec.ofNat 32 k).setWidth 64 = a.setWidth 64 + BitVec.ofNat 64 k := by
    apply BitVec.eq_of_toNat_eq
    rw [BitVec.toNat_setWidth, BitVec.toNat_add, BitVec.toNat_ofNat, BitVec.toNat_add,
      BitVec.toNat_setWidth, BitVec.toNat_ofNat]
    omega
  change h.Mem.DRAM ((a + BitVec.ofNat 32 k).setWidth 64 - h.Mem.DRAMBase) = _
  rw [haddr, add_sub_right_comm]

/-- A store by address and by index. -/
theorem store_eq_withBytes (hn : n ≤ 4) (ha : a.toNat + n ≤ 2 ^ 31) (v : BitVec 32) :
    h.Mem.store (a.setWidth 64 - h.Mem.DRAMBase) n v
      = h.Mem.withBytes (h.arch.write a n v).mem := by
  refine Memory.ext (funext fun i => ?_) rfl rfl
  have hdist : i - (a.setWidth 64 - h.Mem.DRAMBase) = i + h.Mem.DRAMBase - a.setWidth 64 := by
    rw [sub_sub_eq_add_sub]
  change (if (i - (a.setWidth 64 - h.Mem.DRAMBase)).toNat < n then _ else _)
    = if (i + h.Mem.DRAMBase).toNat < 2 ^ 32 then
        (if ((i + h.Mem.DRAMBase).setWidth 32 - a).toNat < n then _
          else h.arch.mem ((i + h.Mem.DRAMBase).setWidth 32))
      else _
  have h64 : (i + h.Mem.DRAMBase - a.setWidth 64).toNat
      = (2 ^ 64 - a.toNat + (i + h.Mem.DRAMBase).toNat) % 2 ^ 64 := by
    rw [BitVec.toNat_sub, BitVec.toNat_setWidth,
      Nat.mod_eq_of_lt (show a.toNat < 2 ^ 64 by omega)]
  have h32 : ((i + h.Mem.DRAMBase).setWidth 32 - a).toNat
      = (2 ^ 32 - a.toNat + (i + h.Mem.DRAMBase).toNat % 2 ^ 32) % 2 ^ 32 := by
    rw [BitVec.toNat_sub, BitVec.toNat_setWidth]
  rw [hdist, h64, h32]
  by_cases hi : (i + h.Mem.DRAMBase).toNat < 2 ^ 32
  · rw [if_pos hi, h.arch_mem_setWidth hi]
    by_cases hlt : (2 ^ 64 - a.toNat + (i + h.Mem.DRAMBase).toNat) % 2 ^ 64 < n
    · have heq : (2 ^ 64 - a.toNat + (i + h.Mem.DRAMBase).toNat) % 2 ^ 64
          = (2 ^ 32 - a.toNat + (i + h.Mem.DRAMBase).toNat % 2 ^ 32) % 2 ^ 32 := by omega
      rw [heq]
    · rw [if_neg hlt, if_neg (by omega)]
  · rw [if_neg hi, if_neg (by have := (i + h.Mem.DRAMBase).isLt; omega)]

theorem arch_mem_first (hn : 0 < n) (ha : a.toNat + n ≤ 2 ^ 31) :
    h.arch.mem a = h.Mem.DRAM (a.setWidth 64 - h.Mem.DRAMBase) := by
  have h0 := arch_mem_add (h := h) hn ha
  rwa [show a + BitVec.ofNat 32 0 = a from add_zero a,
    show _ + BitVec.ofNat 64 0 = a.setWidth 64 - h.Mem.DRAMBase from add_zero _] at h0

theorem readByte_arch (ha : a.toNat + 1 ≤ 2 ^ 31) (hC : h.Mem.Contains (a.setWidth 64) 1) :
    h.Mem.readByte (a.signExtend 64) = .ok (h.arch.mem a) := by
  rw [signExtend_eq_setWidth (by omega), hC.readByte, arch_mem_first Nat.zero_lt_one ha]

theorem readHalfWord_arch (ha : a.toNat + 2 ≤ 2 ^ 31) (hC : h.Mem.Contains (a.setWidth 64) 2) :
    h.Mem.readHalfWord (a.signExtend 64) = .ok (h.arch.mem (a + 1) ++ h.arch.mem a) := by
  have h1 : h.arch.mem (a + 1) = _ := arch_mem_add Nat.one_lt_two ha
  rw [signExtend_eq_setWidth (by omega), hC.readHalfWord, arch_mem_first Nat.two_pos ha, h1]
  rfl

theorem readWord_arch (ha : a.toNat + 4 ≤ 2 ^ 31) (hC : h.Mem.Contains (a.setWidth 64) 4) :
    h.Mem.readWord (a.signExtend 64) = .ok
      (h.arch.mem (a + 3) ++ h.arch.mem (a + 2) ++ h.arch.mem (a + 1) ++ h.arch.mem a) := by
  have h1 : h.arch.mem (a + 1) = _ := arch_mem_add (show 1 < 4 by omega) ha
  have h2 : h.arch.mem (a + 2) = _ := arch_mem_add (show 2 < 4 by omega) ha
  have h3 : h.arch.mem (a + 3) = _ := arch_mem_add (show 3 < 4 by omega) ha
  rw [signExtend_eq_setWidth (by omega), hC.readWord, arch_mem_first (by omega) ha, h1, h2, h3]
  rfl

end Accesses

/-! ## Instructions -/

namespace Hart

variable {h : Hart} {rd rs1 rs2 : BitVec 5}

theorem exec_load {op : RV32IM.LoadOp} {offset : BitVec 12}
    (hS : h.Serves (.load op rd rs1 offset)) :
    (ofInstr (.load op rd rs1 offset)).exec h
      = .ok (none, h.writeRd rd (h.arch.loadValue op (h.GPRegs rs1 + offset.signExtend 32))) := by
  obtain ⟨hlt, -, hC⟩ := hS _ _ rfl
  rw [h.arch_get] at hlt hC
  change h.execI (loadKind op) rd rs1 offset = _
  cases op <;> unfold Hart.execI <;> dsimp only [loadKind]
  case b => rw [readByte_arch hlt hC]; rfl
  case bu => rw [readByte_arch hlt hC]; rfl
  case h => rw [readHalfWord_arch hlt hC]; rfl
  case hu => rw [readHalfWord_arch hlt hC]; rfl
  case w => rw [readWord_arch hlt hC]; rfl

/-- A store writes the bytes of the specification, whatever its width. -/
theorem exec_store {op : RV32IM.StoreOp} {offset : BitVec 12} (hM : h.Mode ≠ .Epilogue)
    (hS : h.Serves (.store op rs1 rs2 offset)) :
    (ofInstr (.store op rs1 rs2 offset)).exec h = .ok (none, { h with
      Mem := h.Mem.withBytes
        (h.arch.write (h.GPRegs rs1 + offset.signExtend 32) op.width (h.GPRegs rs2)).mem
      PC := h.PC + 4 }) := by
  obtain ⟨hlt, hne, hC⟩ := hS _ _ rfl
  rw [h.arch_get] at hlt hne hC
  have hle : op.width ≤ 4 := by cases op <;> decide
  rw [← store_eq_withBytes hle hlt]
  have hpos : 0 < op.width := by cases op <;> decide
  have hAd := signExtend_eq_setWidth (v := h.GPRegs rs1 + offset.signExtend 32) (by omega)
  change h.execS (storeKind op) rs1 rs2 offset = _
  unfold Hart.execS
  dsimp only
  rw [if_neg (by rwa [setWidth_signExtend]), if_neg hM, hAd]
  cases op with
  | b =>
    dsimp only [storeKind]
    rw [hC.writeByte]
    rfl
  | h =>
    dsimp only [storeKind]
    rw [hC.writeHalfWord]
    rfl
  | w =>
    dsimp only [storeKind]
    rw [hC.writeWord]
    rfl

/-- An operation on two values, one of them an immediate. -/
theorem exec_opImm (op : RV32IM.ImmOp) (imm : BitVec 12) :
    (ofInstr (.opImm op rd rs1 imm)).exec h
      = .ok (none, h.writeRd rd (op.eval (h.GPRegs rs1) (imm.signExtend 32))) := by
  cases op with
  | add => exact congrArg (fun v => Except.ok (none, h.writeRd rd v)) (eval_reg .add _ _)
  | slt => exact congrArg (fun v => Except.ok (none, h.writeRd rd v)) (eval_reg .slt _ _)
  | sltu => exact congrArg (fun v => Except.ok (none, h.writeRd rd v)) (eval_reg .sltu _ _)
  | xor => rfl
  | or => rfl
  | and => rfl

theorem exec_shift (op : RV32IM.ShiftOp) (shamt : BitVec 5) :
    (ofInstr (.shift op rd rs1 shamt)).exec h
      = .ok (none, h.writeRd rd (op.eval (h.GPRegs rs1) shamt)) := by
  have hcount : (shamt.setWidth 12).toNat % 32 = (shamt.setWidth 32).toNat % 32 := by
    rw [BitVec.toNat_setWidth, BitVec.toNat_setWidth]
    omega
  cases op with
  | sll =>
    refine congrArg (fun v => Except.ok (none, h.writeRd rd v)) ?_
    exact (shiftLeft_eq_ofNat _ _).trans (by rw [hcount]; rfl)
  | srl =>
    refine congrArg (fun v => Except.ok (none, h.writeRd rd v)) ?_
    exact (ushiftRight_eq_ofNat _ _).trans (by rw [hcount]; rfl)
  | sra =>
    refine congrArg (fun v => Except.ok (none, h.writeRd rd v)) ?_
    exact (sshiftRight_eq_ofInt _ _).trans (by rw [hcount]; rfl)

end Hart

/-- **The interpreter implements RV32IM.**  Outside Epilogue mode, a legal word is decoded
and executed as the specification prescribes, if its data access is in the DRAM.  A
transfer of control is carried out whatever the alignment of its target. -/
theorem exec_decode_conforms (h : Hart) (hM : h.Mode ≠ .Epilogue) {w : BitVec 32} {i : Instr}
    (hw : RV32IM.decode w = some i) (hS : h.Serves i) :
    ∃ I h', Decoder.decode w = some I ∧ I.exec h = .ok (none, h') ∧
      Conforms h (i.exec h.arch) h' := by
  refine ⟨ofInstr i, ?_⟩
  suffices hexec : ∃ h', (ofInstr i).exec h = .ok (none, h') ∧ Conforms h (i.exec h.arch) h' by
    obtain ⟨h', hexec⟩ := hexec
    exact ⟨h', decode_legal hw, hexec⟩
  cases i with
  | lui rd imm =>
    refine ⟨h.writeRd rd (imm ++ 0#12), ?_, .writeRd h rd _⟩
    rw [← shiftLeft_signExtend]
    rfl
  | auipc rd imm =>
    refine ⟨h.writeRd rd (h.PC.setWidth 32 + (imm ++ 0#12)), ?_, .writeRd h rd _⟩
    rw [← setWidth_add_signExtend, ← shiftLeft_signExtend]
    rfl
  | jal rd offset =>
    refine ⟨_, rfl, ?_⟩
    constructor
    · change (h.GPRegs.write rd ((h.PC + 4).setWidth 32)).Regs = _
      rw [setWidth_add_four]
      rfl
    · exact setWidth_add_signExtend h.PC _
    · exact h.withBytes_arch.symm
    all_goals rfl
  | jalr rd rs1 offset =>
    refine ⟨_, rfl, ?_⟩
    constructor
    · change (h.GPRegs.write rd ((h.PC + 4).setWidth 32)).Regs = _
      rw [setWidth_add_four]
      rfl
    · change ((((h.GPRegs rs1 + offset.signExtend 32) &&& ~~~1#32).signExtend 64).setWidth 32) = _
      rw [setWidth_signExtend, ← h.arch_get]
      rfl
    · exact h.withBytes_arch.symm
    all_goals rfl
  | branch op rs1 rs2 offset =>
    refine ⟨_, rfl, ?_⟩
    have hcond := cond_branch op (h.GPRegs rs1) (h.GPRegs rs2)
    change Conforms h (if op.taken (h.arch.get rs1) (h.arch.get rs2) then _ else _) _
    rw [h.arch_get, h.arch_get]
    by_cases htaken : op.taken (h.GPRegs rs1) (h.GPRegs rs2)
    · rw [if_pos htaken, if_pos (hcond.mpr htaken)]
      exact ⟨rfl, setWidth_add_signExtend h.PC _, h.withBytes_arch.symm, rfl, rfl, rfl⟩
    · rw [if_neg htaken, if_neg (fun hc => htaken (hcond.mp hc))]
      exact ⟨rfl, setWidth_add_four h.PC, h.withBytes_arch.symm, rfl, rfl, rfl⟩
  | load op rd rs1 offset =>
    refine ⟨_, Hart.exec_load hS, ?_⟩
    rw [← h.arch_get]
    exact .writeRd h rd _
  | store op rs1 rs2 offset =>
    refine ⟨_, Hart.exec_store hM hS, ?_⟩
    rw [← h.arch_get, ← h.arch_get]
    exact ⟨rfl, setWidth_add_four _, rfl, rfl, rfl, rfl⟩
  | opImm op rd rs1 imm =>
    refine ⟨_, Hart.exec_opImm op imm, ?_⟩
    rw [← h.arch_get]
    exact .writeRd h rd _
  | shift op rd rs1 shamt =>
    refine ⟨_, Hart.exec_shift op shamt, ?_⟩
    rw [← h.arch_get]
    exact .writeRd h rd _
  | reg op rd rs1 rs2 =>
    refine ⟨_, rfl, ?_⟩
    rw [eval_reg, ← h.arch_get, ← h.arch_get]
    exact .writeRd h rd _

/-- A machine of 64 bytes, newly started in Machine mode. -/
def bare : Hart where
  PC := 0
  GPRegs := .new 64 0 none
  Mem := .new 64 0
  States := .new
  Mode := .Machine
  cerr := []

/-- `sw x2, -4(x2)` stores the last word of a machine of 64 bytes. -/
theorem exec_decode_conforms_sw :
    (bare.Mode ≠ .Epilogue ∧ RV32IM.decode 0xfe212e23#32 = some (.store .w 2 2 (-4)) ∧
      bare.Serves (.store .w 2 2 (-4))) ∧
    ∃ I h', Decoder.decode 0xfe212e23#32 = some I ∧ I.exec bare = .ok (none, h') ∧
      Conforms bare ((Instr.store .w 2 2 (-4)).exec bare.arch) h' := by
  have hw : RV32IM.decode 0xfe212e23#32 = some (.store .w 2 2 (-4)) := by decide
  have hS : bare.Serves (.store .w 2 2 (-4)) := by
    intro a n ha
    have haccess : (Instr.store .w 2 2 (-4)).dataAccess bare.arch = some (60, 4) := by decide
    rw [haccess] at ha
    obtain ⟨rfl, rfl⟩ := Prod.mk.inj (Option.some.inj ha)
    exact ⟨by decide, by decide, by decide, by decide⟩
  exact ⟨⟨by decide, hw, hS⟩, exec_decode_conforms bare (by decide) hw hS⟩

/-- The interpreter jumps where the specification raises an exception: `jal x1, 2`. -/
theorem jal_misaligned :
    ¬∀ (h : Hart) (w : BitVec 32) (i : Instr), h.Mode ≠ .Epilogue → RV32IM.decode w = some i →
      h.Serves i → ∃ I h' s, Decoder.decode w = some I ∧ I.exec h = .ok (none, h') ∧
        i.step h.arch = some s ∧ Conforms h s h' := by
  intro hall
  have hw : RV32IM.decode 0x002000ef#32 = some (.jal 1 2) := by decide
  obtain ⟨_, _, s, -, -, hs, -⟩ := hall bare _ _ (by decide) hw (by intro a n ha; cases ha)
  have hnone : (Instr.jal 1 2).step bare.arch = none := rfl
  rw [hnone] at hs
  cases hs

end RipSim
