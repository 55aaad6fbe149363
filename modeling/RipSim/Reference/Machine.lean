import RipSim.Reference.Conformance
import RipSim.Reference.Interpreter
import RipSim.Pipeline.Reachable
import RipSim.Library.RV32IMRun

/-!
# Whole programs on the interpreter

The specification's machine and the interpreter run side by side.  `Fits` collects what a
program has to respect, all of it said about the specification's run alone: its words and its
data lie in a DRAM below `2 ^ 31`, nothing is exchanged with the console, and it ends, if it
does, at a word that the decoder refuses too.

The program counters have 32 and 64 bits.  They agree for as long as the run stays below
`2 ^ 31` (`setWidth_add_of_lt`), which is what `Follows` keeps.
-/

namespace RipSim

open RV32IM (Instr)

/-! ## Addresses -/

/-- A target below `2 ^ 31` is reached without a carry, backwards too. -/
theorem setWidth_add_of_lt {p o : BitVec 32} (hp : p.toNat < 2 ^ 31) (ht : (p + o).toNat < 2 ^ 31) :
    p.setWidth 64 + o.signExtend 64 = (p + o).setWidth 64 := by
  apply BitVec.eq_of_toNat_eq
  have ho := o.isLt
  rw [BitVec.toNat_add] at ht
  simp only [BitVec.toNat_add, BitVec.toNat_setWidth, BitVec.toNat_signExtend, BitVec.msb_eq_decide]
  by_cases hneg : 2 ^ 31 ≤ o.toNat
  · rw [decide_eq_true hneg, if_pos rfl]
    omega
  · rw [decide_eq_false hneg, if_neg Bool.false_ne_true]
    omega

theorem setWidth_add_ofNat {p : BitVec 32} {n : ℕ} (hp : p.toNat + n < 2 ^ 32) :
    p.setWidth 64 + BitVec.ofNat 64 n = (p + BitVec.ofNat 32 n).setWidth 64 := by
  apply BitVec.eq_of_toNat_eq
  simp only [BitVec.toNat_add, BitVec.toNat_setWidth, BitVec.toNat_ofNat]
  omega

/-- The bytes from an address of the specification on are in the DRAM. -/
def Hart.Has (h : Hart) (a : BitVec 32) (n : ℕ) : Prop := h.Mem.Contains (a.setWidth 64) n

instance (h : Hart) (a : BitVec 32) (n : ℕ) : Decidable (h.Has a n) := by
  unfold Hart.Has
  infer_instance

/-- The DRAM lies below `2 ^ 31`. -/
def Hart.Low (h : Hart) : Prop := h.Mem.DRAMBase.toNat + h.Mem.DRAMSize.toNat ≤ 2 ^ 31

instance (h : Hart) : Decidable h.Low := by
  unfold Hart.Low
  infer_instance

theorem Hart.Has.lt {h : Hart} {a : BitVec 32} {n : ℕ} (hl : h.Low) (ha : h.Has a n) :
    a.toNat + n ≤ 2 ^ 31 := by
  have hs := ha.size
  rw [BitVec.toNat_setWidth, Nat.mod_eq_of_lt (by have := a.isLt; omega)] at hs
  exact hs.trans hl

/-! ## One instruction -/

namespace Hart

variable (h : Hart)

theorem arch_writeRd (rd : BitVec 5) (v : BitVec 32) :
    (h.writeRd rd v).arch = (h.arch.set rd v).advance :=
  RV32IM.State.ext rfl (setWidth_add_four h.PC) rfl

theorem arch_withBytes (f : BitVec 32 → Byte) :
    ({ h with Mem := h.Mem.withBytes f, PC := h.PC + 4 } : Hart).arch
      = { h.arch with mem := f, pc := h.arch.pc + 4 } := by
  refine RV32IM.State.ext rfl (setWidth_add_four h.PC) (funext fun a => ?_)
  change (if (a.setWidth 64 - h.Mem.DRAMBase + h.Mem.DRAMBase).toNat < 2 ^ 32
    then f ((a.setWidth 64 - h.Mem.DRAMBase + h.Mem.DRAMBase).setWidth 32) else _) = f a
  have hlt : (a.setWidth 64).toNat < 2 ^ 32 := by
    rw [BitVec.toNat_setWidth]
    omega
  rw [sub_add_cancel, if_pos hlt, BitVec.setWidth_setWidth_of_le _ (by decide), BitVec.setWidth_eq]

/-- What an instruction of the specification leaves alone. -/
structure Frame (h h' : Hart) : Prop where
  DRAMBase : h'.Mem.DRAMBase = h.Mem.DRAMBase
  DRAMSize : h'.Mem.DRAMSize = h.Mem.DRAMSize
  States : h'.States = h.States
  Mode : h'.Mode = h.Mode
  cerr : h'.cerr = h.cerr

/-- The program counter of 64 bits is that of the specification. -/
def Narrow : Prop := h.PC = h.arch.pc.setWidth 64

instance : Decidable h.Narrow := by
  unfold Narrow
  infer_instance

end Hart

variable {h : Hart} {i : Instr}

/-- **One instruction**: the state of the specification, the frame, and a program counter of 64
bits that follows if the next word is below `2 ^ 31`. -/
theorem exec_ofInstr (hM : h.Mode ≠ .Epilogue) (hS : h.Serves i) (hpc : h.Narrow)
    (hlt : h.arch.pc.toNat + 4 ≤ 2 ^ 31) (hnext : (i.exec h.arch).pc.toNat < 2 ^ 31) :
    ∃ h', (ofInstr i).exec h = .ok (none, h') ∧ h'.arch = i.exec h.arch ∧ h.Frame h' ∧
      h'.Narrow := by
  have hfour : h.PC + 4 = (h.arch.pc + 4).setWidth 64 := by
    rw [show h.PC = _ from hpc]
    exact setWidth_add_ofNat (n := 4) (by omega)
  have hwrite : ∀ rd v, (ofInstr i).exec h = .ok (none, h.writeRd rd v) →
      (h.arch.set rd v).advance = i.exec h.arch → ∃ h', (ofInstr i).exec h = .ok (none, h') ∧
        h'.arch = i.exec h.arch ∧ h.Frame h' ∧ h'.Narrow := by
    intro rd v he ha
    refine ⟨_, he, (h.arch_writeRd rd v).trans ha, ⟨rfl, rfl, rfl, rfl, rfl⟩, ?_⟩
    unfold Hart.Narrow
    rw [h.arch_writeRd]
    exact hfour
  cases i with
  | lui rd imm =>
    refine hwrite rd (imm ++ 0#12) ?_ rfl
    rw [← shiftLeft_signExtend]
    rfl
  | auipc rd imm =>
    refine hwrite rd (h.PC.setWidth 32 + (imm ++ 0#12)) ?_ rfl
    rw [← setWidth_add_signExtend, ← shiftLeft_signExtend]
    rfl
  | jal rd offset =>
    have harch : ({ h with
        GPRegs := h.GPRegs.write rd ((h.PC + 4).setWidth 32)
        PC := h.PC + (offset.signExtend 32).signExtend 64 } : Hart).arch
          = (Instr.jal rd offset).exec h.arch := by
      refine RV32IM.State.ext ?_ (setWidth_add_signExtend h.PC _) rfl
      change (h.GPRegs.write rd ((h.PC + 4).setWidth 32)).Regs = _
      rw [setWidth_add_four]
      rfl
    refine ⟨_, rfl, harch, ⟨rfl, rfl, rfl, rfl, rfl⟩, ?_⟩
    unfold Hart.Narrow
    rw [harch]
    change h.PC + _ = _
    rw [show h.PC = _ from hpc]
    exact setWidth_add_of_lt (by omega) hnext
  | jalr rd rs1 offset =>
    have harch : ({ h with
        GPRegs := h.GPRegs.write rd ((h.PC + 4).setWidth 32)
        PC := ((h.GPRegs rs1 + offset.signExtend 32) &&& ~~~1#32).signExtend 64 } : Hart).arch
          = (Instr.jalr rd rs1 offset).exec h.arch := by
      refine RV32IM.State.ext ?_ ?_ rfl
      · change (h.GPRegs.write rd ((h.PC + 4).setWidth 32)).Regs = _
        rw [setWidth_add_four]
        rfl
      · change (((h.GPRegs rs1 + offset.signExtend 32) &&& ~~~1#32).signExtend 64).setWidth 32 = _
        rw [setWidth_signExtend, ← h.arch_get]
        rfl
    refine ⟨_, rfl, harch, ⟨rfl, rfl, rfl, rfl, rfl⟩, ?_⟩
    unfold Hart.Narrow
    rw [harch]
    change ((h.GPRegs rs1 + offset.signExtend 32) &&& ~~~1#32).signExtend 64 = _
    rw [← h.arch_get]
    exact signExtend_eq_setWidth hnext
  | branch op rs1 rs2 offset =>
    refine ⟨_, rfl, ?_⟩
    have hcond := cond_branch op (h.GPRegs rs1) (h.GPRegs rs2)
    revert hnext
    change ((if op.taken (h.arch.get rs1) (h.arch.get rs2) then _ else _) : RV32IM.State).pc.toNat
      < 2 ^ 31 → _ = (if op.taken (h.arch.get rs1) (h.arch.get rs2) then _ else _) ∧ _
    rw [h.arch_get, h.arch_get]
    by_cases htaken : op.taken (h.GPRegs rs1) (h.GPRegs rs2)
    · rw [if_pos htaken, if_pos (hcond.mpr htaken)]
      intro hnext
      have harch : ({ h with PC := h.PC + (offset.signExtend 32).signExtend 64 } : Hart).arch
          = { h.arch with pc := h.arch.pc + offset.signExtend 32 } :=
        RV32IM.State.ext rfl (setWidth_add_signExtend h.PC _) rfl
      refine ⟨harch, ⟨rfl, rfl, rfl, rfl, rfl⟩, ?_⟩
      unfold Hart.Narrow
      rw [harch]
      change h.PC + _ = _
      rw [show h.PC = _ from hpc]
      exact setWidth_add_of_lt (by omega) hnext
    · rw [if_neg htaken, if_neg (fun hc => htaken (hcond.mp hc))]
      intro _
      have harch : ({ h with PC := h.PC + 4 } : Hart).arch = h.arch.advance :=
        RV32IM.State.ext rfl (setWidth_add_four h.PC) rfl
      refine ⟨harch, ⟨rfl, rfl, rfl, rfl, rfl⟩, ?_⟩
      unfold Hart.Narrow
      rw [harch]
      exact hfour
  | load op rd rs1 offset =>
    refine hwrite rd _ (Hart.exec_load hS) ?_
    rw [← h.arch_get]
    rfl
  | store op rs1 rs2 offset =>
    refine ⟨_, Hart.exec_store hM hS, ?_, ⟨rfl, rfl, rfl, rfl, rfl⟩, ?_⟩
    · rw [h.arch_withBytes, ← h.arch_get, ← h.arch_get]
      rfl
    · unfold Hart.Narrow
      rw [h.arch_withBytes]
      exact hfour
  | opImm op rd rs1 imm =>
    refine hwrite rd _ (Hart.exec_opImm op imm) ?_
    rw [← h.arch_get]
    rfl
  | shift op rd rs1 shamt =>
    refine hwrite rd _ (Hart.exec_shift op shamt) ?_
    rw [← h.arch_get]
    rfl
  | reg op rd rs1 rs2 =>
    refine hwrite rd _ rfl ?_
    rw [eval_reg, ← h.arch_get, ← h.arch_get]
    rfl

/-! ## Programs -/

/-- The run that the specification prescribes from `h` on stays within the machine. -/
structure Fits (h : Hart) : Prop where
  machine : h.Mode = .Machine
  narrow : h.Narrow
  low : h.Low
  code : ∀ k, h.Has (h.arch.after k).pc 4
  data : ∀ k i a n, (h.arch.after k).fetch = some i → i.dataAccess (h.arch.after k) = some (a, n) →
    h.Has a n ∧ a ≠ consoleAd
  /-- The decoder has instructions that are not in RV32IM. -/
  ends : ∀ k, (h.arch.after k).fetch = none →
    Decoder.decode ((h.arch.after k).word (h.arch.after k).pc) = none

/-- The machine `h'` is in the state that the run from `h` prescribes after `k` instructions. -/
structure Follows (h : Hart) (k : ℕ) (h' : Hart) : Prop where
  arch : h'.arch = h.arch.after k
  narrow : h'.Narrow
  Mode : h'.Mode = .Machine
  DRAMBase : h'.Mem.DRAMBase = h.Mem.DRAMBase
  DRAMSize : h'.Mem.DRAMSize = h.Mem.DRAMSize
  cerr : h'.cerr = h.cerr

theorem Fits.follows (hf : Fits h) : Follows h 0 h := ⟨rfl, hf.narrow, hf.machine, rfl, rfl, rfl⟩

namespace Follows

variable {h' : Hart} {k : ℕ}

/-- The CSRs do not matter. -/
theorem congr (hk : Follows h k h') (X : CSRs) : Follows h k { h' with States := X } :=
  ⟨hk.arch, hk.narrow, hk.Mode, hk.DRAMBase, hk.DRAMSize, hk.cerr⟩

theorem PC (hk : Follows h k h') : h'.PC = (h.arch.after k).pc.setWidth 64 := by
  rw [← hk.arch]
  exact hk.narrow

theorem has (hk : Follows h k h') {a : BitVec 32} {n : ℕ} (ha : h.Has a n) : h'.Has a n := by
  refine ⟨?_, ?_⟩
  · rw [hk.DRAMBase]
    exact ha.base
  · rw [hk.DRAMBase, hk.DRAMSize]
    exact ha.size

/-- The words of the DRAM are those of the specification. -/
theorem readWord (hk : Follows h k h') (hl : h.Low) {a : BitVec 32} (ha : h.Has a 4) :
    h'.Mem.readWord (a.setWidth 64) = .ok ((h.arch.after k).word a) := by
  have hlt := ha.lt hl
  rw [← signExtend_eq_setWidth (by omega), readWord_arch hlt (hk.has ha), hk.arch]
  rfl

/-- The word at the program counter. -/
theorem fetch (hk : Follows h k h') (hf : Fits h) :
    h'.fetch = .ok (Decoder.decode ((h.arch.after k).word (h.arch.after k).pc)) := by
  refine Hart.fetch_of_word ?_
  rw [hk.PC]
  exact hk.readWord hf.low (hf.code k)

theorem fetch_some (hk : Follows h k h') (hf : Fits h) (hi : (h.arch.after k).fetch = some i) :
    h'.fetch = .ok (some (ofInstr i)) := by
  rw [hk.fetch hf, decode_legal hi]

theorem fetch_none (hk : Follows h k h') (hf : Fits h) (hi : (h.arch.after k).fetch = none) :
    h'.fetch = .ok none := by
  rw [hk.fetch hf, hf.ends k hi]

/-- Where there is an instruction, the decoder finds it. -/
theorem fetch_eq (hk : Follows h k h') (hf : Fits h) :
    h'.fetch = .ok ((h.arch.after k).fetch.map ofInstr) := by
  cases hi : (h.arch.after k).fetch with
  | none => exact hk.fetch_none hf hi
  | some i => exact hk.fetch_some hf hi

theorem serves (hk : Follows h k h') (hf : Fits h) (hi : (h.arch.after k).fetch = some i) :
    h'.Serves i := by
  intro a n ha
  rw [hk.arch] at ha
  obtain ⟨hhas, hne⟩ := hf.data k i a n hi ha
  exact ⟨hhas.lt hf.low, hne, hk.has hhas⟩

/-- One instruction more. -/
theorem exec (hk : Follows h k h') (hf : Fits h) (hi : (h.arch.after k).fetch = some i) :
    ∃ h'', (ofInstr i).exec h' = .ok (none, h'') ∧ Follows h (k + 1) h'' ∧
      h''.States = h'.States := by
  have hsucc : h.arch.after (k + 1) = i.exec (h.arch.after k) := RV32IM.State.next_of_fetch hi
  have hlt := (hf.code k).lt hf.low
  have hnext := (hf.code (k + 1)).lt hf.low
  rw [hsucc, ← hk.arch] at hnext
  rw [← hk.arch] at hlt
  obtain ⟨h'', he, harch, hfr, hnarrow⟩ := exec_ofInstr (by rw [hk.Mode]; decide)
    (hk.serves hf hi) hk.narrow hlt (by omega)
  refine ⟨h'', he, ⟨?_, hnarrow, hfr.Mode.trans hk.Mode, hfr.DRAMBase.trans hk.DRAMBase,
    hfr.DRAMSize.trans hk.DRAMSize, hfr.cerr.trans hk.cerr⟩, hfr.States⟩
  rw [harch, hk.arch, hsucc]

end Follows

/-! ## The interpreter -/

namespace Simulator

variable {s : Simulator} {k : ℕ}

/-- The loop of `run` executes what the specification prescribes and counts its cycles. -/
theorem follows (hf : Fits s.hart) (hlive : ∀ j < k, (s.hart.arch.after j).fetch ≠ none) :
    ∃ a, s.after k = some a ∧ Follows s.hart k a.hart ∧
      a.hart.States = CSRs.incCYCLE^[k] s.hart.States := by
  induction k with
  | zero => exact ⟨s, rfl, hf.follows, rfl⟩
  | succ k ih =>
    obtain ⟨a, ha, hk, hst⟩ := ih fun j hj => hlive j (by omega)
    obtain ⟨i, hi⟩ := Option.ne_none_iff_exists'.mp (hlive k (Nat.lt_succ_self k))
    obtain ⟨h', he, hk', hst'⟩ := hk.exec hf hi
    refine ⟨a.afterInst (ofInstr i) h', ?_, hk'.congr _, ?_⟩
    · rw [after_succ ha, iterate_eq (hk.fetch_some hf hi) he (.inl rfl)]
      rfl
    · rw [Function.iterate_succ_apply', ← hst, ← hst']
      rfl

end Simulator

/-- **The interpreter runs RV32IM programs.**  As long as the run that the specification
prescribes goes on, so does the loop of `run`, in the same states; its CSRs only count cycles.
Where the specification finds no instruction the loop is left, without a failed assertion. -/
theorem interpreter_runs {s : Simulator} (hf : Fits s.hart) {k : ℕ}
    (hlive : ∀ j < k, (s.hart.arch.after j).fetch ≠ none) :
    ∃ a, s.after k = some a ∧ a.hart.arch = s.hart.arch.after k ∧
      a.hart.PC = (s.hart.arch.after k).pc.setWidth 64 ∧ a.hart.Mode = .Machine ∧
      a.hart.cerr = s.hart.cerr ∧ a.hart.States = CSRs.incCYCLE^[k] s.hart.States ∧
      ((s.hart.arch.after k).fetch = none → a.iterate none = .ok none) := by
  obtain ⟨a, ha, hk, hst⟩ := Simulator.follows hf hlive
  exact ⟨a, ha, hk.arch, hk.PC, hk.Mode, hk.cerr, hst,
    fun hend => Simulator.iterate_none (hk.fetch_none hf hend)⟩

/-! ## A program that fits -/

/-- `addi x1, x0, 2`, and then `addi x1, x1, -1; sw x1, 60(x0)` until `x1` is zero. -/
def countdown : List Word := [0x00200093, 0xfff08093, 0x02102e23, 0xfe009ce3]

/-- A machine of 128 bytes that has just been loaded. -/
def loaded (ws : List Word) : Hart where
  PC := 0
  GPRegs := .new 128 0 none
  Mem := RIPSimulator.imageOf ws
  States := .new
  Mode := .Machine
  cerr := []

theorem countdown_end : ((loaded countdown).arch.after 7).fetch = none := by
  decide +kernel

theorem countdown_fits : Fits (loaded countdown) where
  machine := rfl
  narrow := by decide
  low := by decide
  code := RV32IM.State.forall_after (p := fun s => (loaded countdown).Has s.pc 4) countdown_end
    (by decide)
  data k i a n hi ha := by
    have hk := RV32IM.State.forall_after (p := fun s => (s.fetch.bind (·.dataAccess s)).all
      fun p => decide ((loaded countdown).Has p.1 p.2 ∧ p.1 ≠ consoleAd)) countdown_end
      (by decide) k
    rw [hi, Option.bind_some, ha, Option.all_some] at hk
    exact of_decide_eq_true hk
  ends := RV32IM.State.forall_after
    (p := fun s => s.fetch = none → Decoder.decode (s.word s.pc) = none) countdown_end (by decide)

/-- The interpreter leaves its loop after the seven instructions of `countdown`. -/
theorem interpreter_runs_countdown :
    Fits (Simulator.mk (loaded countdown) .new).hart ∧
    ∃ a, (Simulator.mk (loaded countdown) .new).after 7 = some a ∧
      a.hart.arch = (loaded countdown).arch.after 7 ∧ a.iterate none = .ok none := by
  obtain ⟨a, ha, harch, -, -, -, -, hend⟩ :=
    interpreter_runs (s := ⟨loaded countdown, .new⟩) (k := 7) countdown_fits (by decide)
  exact ⟨countdown_fits, a, ha, harch, hend countdown_end⟩

end RipSim
