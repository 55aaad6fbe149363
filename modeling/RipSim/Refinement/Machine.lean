import RipSim.Reference.Machine
import RipSim.Refinement.Settled

/-!
# Whole programs on the pipeline

The two refinements composed: the pipeline commits the sequential trace, and the instructions
of the trace do what the specification prescribes.  What is asked of a program is again said
about the specification's run alone (`Confined`): the pipeline fetches ahead, its jumps reach
less far, and it neither interlocks on `x0` nor sees a store to a word it has fetched.
-/

namespace RipSim

open RV32IM (Instr)

/-! ## The instruction objects of the specification -/

section Objects

variable (i : Instr) (h : Hart)

theorem ofInstr_isPlain : (ofInstr i).isPlain = true := by
  cases i with
  | load op => cases op <;> rfl
  | opImm op => cases op <;> rfl
  | shift op => cases op <;> rfl
  | _ => rfl

theorem ofInstr_isCSR : (ofInstr i).isCSR = false := by
  cases i with
  | load op => cases op <;> rfl
  | opImm op => cases op <;> rfl
  | shift op => cases op <;> rfl
  | _ => rfl

theorem ofInstr_isJump : (ofInstr i).isJump = i.links := by
  cases i with
  | load op => cases op <;> rfl
  | opImm op => cases op <;> rfl
  | shift op => cases op <;> rfl
  | _ => rfl

theorem ofInstr_dest (hRd : (ofInstr i).hasRd = true) : i.dest = some (ofInstr i).rd := by
  cases i with
  | branch => exact absurd hRd Bool.false_ne_true
  | store => exact absurd hRd Bool.false_ne_true
  | _ => rfl

theorem ofInstr_readsZero (hz : (ofInstr i).readsZero) : 0 ∈ i.sources := by
  have hone : ∀ {IT Rd Rs1 Imm}, (Instruction.IInstruction IT Rd Rs1 Imm).readsZero →
    0 ∈ [Rs1] := by
    rintro IT Rd Rs1 Imm (⟨-, -, hz⟩ | ⟨hz, -⟩)
    · exact List.mem_singleton.mpr hz.symm
    · exact absurd hz Bool.false_ne_true
  have htwo : ∀ {Rs1 Rs2 : BitVec 5}, Rs1 = 0 ∨ Rs2 = 0 → 0 ∈ [Rs1, Rs2] := by
    rintro Rs1 Rs2 (rfl | rfl) <;> simp
  cases i with
  | lui => rcases hz with ⟨hz, -⟩ | ⟨hz, -⟩ <;> exact absurd hz Bool.false_ne_true
  | auipc => rcases hz with ⟨hz, -⟩ | ⟨hz, -⟩ <;> exact absurd hz Bool.false_ne_true
  | jal => rcases hz with ⟨hz, -⟩ | ⟨hz, -⟩ <;> exact absurd hz Bool.false_ne_true
  | jalr => exact hone hz
  | load => exact hone hz
  | opImm => exact hone hz
  | shift => exact hone hz
  | branch => exact htwo (hz.imp (·.2.2) (·.2))
  | store => exact htwo (hz.imp (·.2.2) (·.2))
  | reg => exact htwo (hz.imp (·.2.2) (·.2))

variable {i h}

/-- The address of an access is the value of the execute stage. -/
theorem dataAccess_ofInstr (hI : (ofInstr i).isLoad = true ∨ (ofInstr i).isSType = true) :
    ∃ n, 0 < n ∧ i.dataAccess h.arch = some (h.value (ofInstr i), n) := by
  cases i with
  | load op rd rs1 offset =>
    refine ⟨op.width, by cases op <;> decide, ?_⟩
    change some (h.arch.get rs1 + _, _) = _
    rw [h.arch_get]
    cases op <;> rfl
  | store op rs1 rs2 offset =>
    refine ⟨op.width, by cases op <;> decide, ?_⟩
    change some (h.arch.get rs1 + _, _) = _
    rw [h.arch_get]
    cases op <;> rfl
  | opImm op => cases op <;> rcases hI with hI | hI <;> exact absurd hI Bool.false_ne_true
  | shift op => cases op <;> rcases hI with hI | hI <;> exact absurd hI Bool.false_ne_true
  | _ => rcases hI with hI | hI <;> exact absurd hI Bool.false_ne_true

/-- The access stage loads what the specification prescribes. -/
theorem access_load {op : RV32IM.LoadOp} {a r : RegVal} (rd rs1 : BitVec 5) (offset : BitVec 12)
    (hlt : a.toNat + op.width ≤ 2 ^ 31) (hC : h.Mem.Contains (a.setWidth 64) op.width) :
    RIPSimulator.access h.Mem (ofInstr (.load op rd rs1 offset)) a r
      = .ok (h.Mem, h.arch.loadValue op a) := by
  have hpos : 0 < op.width := by cases op <;> decide
  have haddr : a.setWidth 64 = a.signExtend 64 := (signExtend_eq_setWidth (by omega)).symm
  cases op with
  | b =>
    change (h.Mem.readByte (a.setWidth 64) >>= fun V => Except.ok (h.Mem, V.signExtend 32)) = _
    rw [haddr, readByte_arch hlt hC]
    rfl
  | bu =>
    change (h.Mem.readByte (a.setWidth 64) >>= fun V => Except.ok (h.Mem, V.setWidth 32)) = _
    rw [haddr, readByte_arch hlt hC]
    rfl
  | h =>
    change (h.Mem.readHalfWord (a.setWidth 64) >>= fun V => Except.ok (h.Mem, V.signExtend 32)) = _
    rw [haddr, readHalfWord_arch hlt hC]
    rfl
  | hu =>
    change (h.Mem.readHalfWord (a.setWidth 64) >>= fun V => Except.ok (h.Mem, V.setWidth 32)) = _
    rw [haddr, readHalfWord_arch hlt hC]
    rfl
  | w =>
    change (h.Mem.readWord (a.signExtend 64) >>= fun V => Except.ok (h.Mem, V)) = _
    rw [readWord_arch hlt hC]
    rfl

/-- The result of the memory stage is the value that the specification prescribes. -/
theorem result_ofInstr (hS : h.Serves i) (hRd : (ofInstr i).hasRd = true) :
    h.result (ofInstr i) = i.value h.arch := by
  cases i with
  | lui rd imm => exact shiftLeft_signExtend imm
  | auipc rd imm =>
    change (h.PC + (imm.signExtend 32 <<< 12).signExtend 64).setWidth 32 = _
    rw [setWidth_add_signExtend, shiftLeft_signExtend]
    rfl
  | jal => exact setWidth_add_four h.PC
  | jalr => exact setWidth_add_four h.PC
  | branch => exact absurd hRd Bool.false_ne_true
  | store => exact absurd hRd Bool.false_ne_true
  | load op rd rs1 offset =>
    have hvalue : h.value (ofInstr (.load op rd rs1 offset)) =
        h.arch.get rs1 + offset.signExtend 32 := by
      rw [h.arch_get]
      cases op <;> rfl
    obtain ⟨hlt, -, hC⟩ := hS _ _ rfl
    unfold Hart.result
    rw [hvalue, access_load rd rs1 offset hlt hC]
    rfl
  | opImm op rd rs1 imm =>
    change _ = op.eval (h.arch.get rs1) (imm.signExtend 32)
    rw [h.arch_get]
    cases op with
    | add => exact eval_reg .add _ _
    | slt => exact eval_reg .slt _ _
    | sltu => exact eval_reg .sltu _ _
    | xor => rfl
    | or => rfl
    | and => rfl
  | shift op rd rs1 shamt =>
    have hcount : ((shamt.setWidth 12).signExtend 32).toNat % 32 =
      (shamt.setWidth 32).toNat % 32 := by
      rw [signExtend_toNat_mod, BitVec.toNat_setWidth, BitVec.toNat_setWidth]
      omega
    change _ = op.eval (h.arch.get rs1) shamt
    rw [h.arch_get]
    cases op with
    | sll =>
      change h.GPRegs rs1 <<< (((shamt.setWidth 12).signExtend 32).toNat % 32) = _
      rw [hcount, shiftLeft_eq_ofNat]
      rfl
    | srl =>
      change h.GPRegs rs1 >>> (((shamt.setWidth 12).signExtend 32).toNat % 32) = _
      rw [hcount, ushiftRight_eq_ofNat]
      rfl
    | sra =>
      change (h.GPRegs rs1).sshiftRight (((shamt.setWidth 12).signExtend 32).toNat % 32) = _
      rw [hcount, sshiftRight_eq_ofInt]
      rfl
  | reg op rd rs1 rs2 =>
    change (regKind op).eval (h.GPRegs rs1) (h.GPRegs rs2) =
      op.eval (h.arch.get rs1) (h.arch.get rs2)
    rw [eval_reg, h.arch_get, h.arch_get]

end Objects

/-! ## Programs -/

/-- The run that the specification prescribes from `h` on stays within the pipeline. -/
structure Confined (h : Hart) : Prop extends Fits h where
  /-- Two words are fetched beyond the last one, and the target of every branch. -/
  ahead : ∀ k, h.Has ((h.arch.after k).pc + 4) 4 ∧ h.Has ((h.arch.after k).pc + 8) 4
  branch : ∀ k op rs1 rs2 offset, (h.arch.after k).fetch = some (.branch op rs1 rs2 offset) →
    h.Has ((h.arch.after k).pc + offset.signExtend 32) 4
  jal : ∀ k rd offset, (h.arch.after k).fetch = some (.jal rd offset) →
    -2 ^ 19 ≤ offset.toInt ∧ offset.toInt < 2 ^ 19
  jalr : ∀ k rd rs1 offset, (h.arch.after k).fetch = some (.jalr rd rs1 offset) →
    ((h.arch.after k).get rs1 + offset.signExtend 32).getLsbD 0 = false
  /-- Only a jump may leave a nonzero value for `x0` ahead of a reader of `x0`. -/
  quiet : ∀ k d i j, d = 1 ∨ d = 2 → (h.arch.after k).fetch = some i →
    (h.arch.after (k + d)).fetch = some j → i.dest = some 0 → i.links = false →
    i.value (h.arch.after k) ≠ 0 → 0 ∉ j.sources
  /-- No instruction changes a word that is executed. -/
  frozen : ∀ j k, (h.arch.after (k + 1)).word (h.arch.after j).pc
    = (h.arch.after k).word (h.arch.after j).pc

namespace Confined

variable {h : Hart} (hc : Confined h)

include hc

/-- The sequential reference follows the specification. -/
theorem follows (k : ℕ) : Follows h k (h.after k) := by
  induction k with
  | zero => exact hc.toFits.follows
  | succ k ih =>
    rw [Hart.after_succ]
    cases hi : (h.arch.after k).fetch with
    | none =>
      rw [Hart.next_of_none (ih.fetch_none hc.toFits hi)]
      have hsucc : h.arch.after (k + 1) = h.arch.after k := RV32IM.State.next_of_end hi
      exact ⟨ih.arch.trans hsucc.symm, ih.narrow, ih.Mode, ih.DRAMBase, ih.DRAMSize, ih.cerr⟩
    | some i =>
      obtain ⟨h', he, hk, -⟩ := ih.exec hc.toFits hi
      rw [← Instruction.execRef_of_not_isCSR (ofInstr_isCSR i)] at he
      rw [Hart.next_of_exec (ih.fetch_some hc.toFits hi) he]
      exact hk

/-- What the reference fetches is an instruction of the specification. -/
theorem fetch {k : ℕ} {I : Instruction} (hI : (h.after k).fetch = .ok (some I)) :
    ∃ i, (h.arch.after k).fetch = some i ∧ I = ofInstr i := by
  rw [(hc.follows k).fetch_eq hc.toFits] at hI
  obtain ⟨i, hi, rfl⟩ := Option.map_eq_some_iff.mp (Except.ok.inj hI)
  exact ⟨i, hi, rfl⟩

theorem supported {k : ℕ} {i : Instr} (hi : (h.arch.after k).fetch = some i) :
    Supported (ofInstr i) (h.after k) := by
  have hk := hc.follows k
  have hdata : (ofInstr i).isLoad = true ∨ (ofInstr i).isSType = true →
      ((h.after k).value (ofInstr i)).toNat < 2 ^ 31 ∧
      (h.after k).value (ofInstr i) ≠ consoleAd := by
    intro hI
    obtain ⟨n, hpos, hn⟩ := dataAccess_ofInstr (h := h.after k) hI
    obtain ⟨hlt, hne, -⟩ := hk.serves hc.toFits hi _ _ hn
    exact ⟨by omega, hne⟩
  obtain ⟨h', he, -⟩ := hk.exec hc.toFits hi
  constructor
  · exact ofInstr_isPlain i
  · exact fun hcsr => absurd ((ofInstr_isCSR i).symm.trans hcsr) Bool.false_ne_true
  · intro Rd Imm hI
    cases i <;> cases hI
    exact hc.jal k _ _ hi
  · intro Rd Rs1 Imm hI
    cases i with
    | jalr rd rs1 offset =>
      cases hI
      have := hc.jalr k _ _ _ hi
      rwa [← hk.arch, (h.after k).arch_get] at this
    | load op => cases op <;> cases hI
    | opImm op => cases op <;> cases hI
    | shift op => cases op <;> cases hI
    | _ => cases hI
  · exact hdata
  · exact ⟨_, (Instruction.execRef_of_not_isCSR (ofInstr_isCSR i) _).trans he⟩

/-- **A confined program is in the domain of the pipeline refinement.** -/
theorem domain (N : ℕ∞) : Domain h N where
  machine := hc.machine
  inDRAM k _ := ⟨_, (hc.follows k).fetch hc.toFits⟩
  supported k I _ hI := by
    obtain ⟨i, hi, rfl⟩ := hc.fetch hI
    exact hc.supported hi
  quiet k d I J hd _ hI hJ hRd hrd hjump hres hz := by
    obtain ⟨i, hi, rfl⟩ := hc.fetch hI
    obtain ⟨j, hj, rfl⟩ := hc.fetch hJ
    have hk := hc.follows k
    rw [result_ofInstr (hk.serves hc.toFits hi) hRd, hk.arch] at hres
    rw [ofInstr_isJump] at hjump
    exact hc.quiet k d i j hd hi hj (hrd ▸ ofInstr_dest i hRd) hjump hres (ofInstr_readsZero j hz)
  frozen j k _ _ := by
    rw [(hc.follows j).PC, (hc.follows k).readWord hc.low (hc.code j),
      (hc.follows (k + 1)).readWord hc.low (hc.code j), hc.frozen j k]

theorem regular : Regular h ⊤ := (hc.domain ⊤).regular

/-- Every word that is fetched, also on a wrong path, is in the DRAM. -/
theorem near {i k : ℕ} {y : Address} (hy : RIPSimulator.Near h k y) :
    ∃ w, (h.after i).Mem.readWord y = .ok w := by
  have hk := hc.follows k
  have hread : ∀ {a : BitVec 32}, h.Has a 4 →
      ∃ w, (h.after i).Mem.readWord (a.setWidth 64) = .ok w :=
    fun ha => ⟨_, (hc.follows i).readWord hc.low ha⟩
  have hlt := (hc.code k).lt hc.low
  unfold RIPSimulator.Near at hy
  rw [hk.PC] at hy
  rcases hy with rfl | rfl | rfl | ⟨I, hI, hb, rfl⟩
  · exact hread (hc.code k)
  · rw [show (4 : Address) = BitVec.ofNat 64 4 from rfl, setWidth_add_ofNat (by omega)]
    exact hread (hc.ahead k).1
  · rw [show (8 : Address) = BitVec.ofNat 64 8 from rfl, setWidth_add_ofNat (by omega)]
    exact hread (hc.ahead k).2
  · obtain ⟨j, hj, rfl⟩ := hc.fetch hI
    cases j with
    | branch op rs1 rs2 offset =>
      have htarget := hc.branch k op rs1 rs2 offset hj
      have heven : (ofInstr (.branch op rs1 rs2 offset)).immVal = offset.signExtend 32 := by
        change (offset &&& ~~~1#13).signExtend 32 = _
        rw [RV32IM.decode_branch hj, RV32IM.immB_even]
      rw [heven, setWidth_add_of_lt (by omega) (by have := htarget.lt hc.low; omega)]
      exact hread htarget
    | _ => exact absurd hb Bool.false_ne_true

end Confined

/-! ## The pipeline -/

namespace RIPSimulator

variable {σ : Type}

/-- The pipeline state `S`, with the instructions `log` written back, implements the run of the
specification from `s`.  A store is performed one cycle before it is written back. -/
structure Implements (s : RV32IM.State) (log : List (Address × Instruction)) (S : RIPSimulator σ) :
    Prop where
  trace : ∀ k p, log[k]? = some p →
    ∃ i, (s.after k).fetch = some i ∧ p = ((s.after k).pc.setWidth 64, ofInstr i)
  x : S.GPRegs.Regs = (s.after log.length).x
  mem : S.hart.arch.mem = (s.after (S.accessed log.length)).mem

theorem Refines.implements {h : Hart} (hc : Confined h) {log : List (Address × Instruction)}
    {S : RIPSimulator σ} (hr : Refines h log S) : Implements h.arch log S where
  trace k p hp := by
    obtain ⟨hPC, hI⟩ := hr.trace k p hp
    obtain ⟨i, hi, hp2⟩ := hc.fetch hI
    exact ⟨i, hi, Prod.ext (hPC.trans (hc.follows k).PC) hp2⟩
  x := by
    rw [hr.GPRegs, ← (hc.follows log.length).arch]
    rfl
  mem := by
    rw [← (hc.follows (S.accessed log.length)).arch]
    funext a
    change S.Mem.DRAM (a.setWidth 64 - S.Mem.DRAMBase) = _
    rw [hr.Mem]
    rfl

end RIPSimulator

open RIPSimulator

/-- **The pipeline runs RV32IM programs**, whatever is predicted: what is written back is the run
that the specification prescribes, nothing of it is left out for ever, and if it ends the
pipeline stops in its last state. -/
theorem pipeline_runs {σ : Type} [BranchPredictor σ] {S₀ : RIPSimulator σ} (h₀ : Started S₀)
    (hc : Confined S₀.hart) :
    (∀ n, ∃ log S, S₀.proceeds n = .ok (log, S) ∧ Implements S₀.hart.arch log S) ∧
    (∀ k i, (S₀.hart.arch.after k).fetch = some i →
      ∃ n log S, S₀.proceeds n = .ok (log, S) ∧ k < log.length) ∧
    ∀ m, (S₀.hart.arch.after m).fetch = none → ∃ fuel S, S₀.run none none fuel = .ok (some S) ∧
      S.GPRegs.Regs = (S₀.hart.arch.after m).x ∧ S.hart.arch.mem = (S₀.hart.arch.after m).mem := by
  have hd := hc.regular
  have hf : FetchesInDRAM S₀ := h₀.fetchesInDRAM hd fun _ _ _ => hc.near
  have hf' : ∀ n c log S, S₀.proceeds n = .ok (log, S) → Running S₀.hart n c S →
      S.PS.StalledStages.IF = false → ∃ w, S.Mem.readWord S.PC = .ok w :=
        fun n _ log S h _ => hf n log S h
  refine ⟨fun n => ?_, fun k i hi => ?_, fun m hm => ?_⟩
  · obtain ⟨log, S, hrun, _, href⟩ := h₀.run hd hf' n
    exact ⟨log, S, hrun, href.implements hc⟩
  · obtain ⟨log, S, hrun, hr, _⟩ := h₀.run hd hf' (3 * k + 12)
    exact ⟨_, log, S, hrun, hr.committed hd ((hc.follows k).fetch_some hc.toFits hi) le_rfl⟩
  · have hend := (hc.follows m).fetch_none hc.toFits hm
    obtain ⟨S, hrun, hset⟩ := h₀.settles hd hf hend
    have harch := (hc.follows m).arch
    refine ⟨_, S, hrun, ?_, ?_⟩
    · rw [hset.GPRegs, ← harch]
      rfl
    · rw [← harch]
      funext a
      change S.Mem.DRAM (a.setWidth 64 - S.Mem.DRAMBase) = _
      rw [hset.Mem]
      rfl

/-! ## A program that the pipeline runs -/

/-- The words of `countdown` that are executed stay as they are. -/
theorem countdown_word (j k : ℕ) :
    ((loaded countdown).arch.after k).word ((loaded countdown).arch.after j).pc
      = (loaded countdown).arch.word ((loaded countdown).arch.after j).pc := by
  have hword := RV32IM.State.forall_after (p := fun s => ∀ j < 8,
    s.word ((loaded countdown).arch.after j).pc
      = (loaded countdown).arch.word ((loaded countdown).arch.after j).pc) countdown_end
      (by decide) k
  exact RV32IM.State.forall_after (p := fun s => ((loaded countdown).arch.after k).word s.pc
    = (loaded countdown).arch.word s.pc) countdown_end hword j

theorem countdown_confined : Confined (loaded countdown) where
  toFits := countdown_fits
  ahead := RV32IM.State.forall_after
    (p := fun s => (loaded countdown).Has (s.pc + 4) 4 ∧ (loaded countdown).Has (s.pc + 8) 4)
    countdown_end (by decide)
  branch k op rs1 rs2 offset hi := by
    have hk := RV32IM.State.forall_after (p := fun s => s.fetch.all (fun
      | .branch _ _ _ offset => decide ((loaded countdown).Has (s.pc + offset.signExtend 32) 4)
      | _ => true)) countdown_end (by decide) k
    rw [hi] at hk
    exact of_decide_eq_true hk
  jal k rd offset hi := by
    have hk := RV32IM.State.forall_after (p := fun s => s.fetch.all (!·.links)) countdown_end
      (by decide) k
    rw [hi] at hk
    exact absurd hk Bool.false_ne_true
  jalr k rd rs1 offset hi := by
    have hk := RV32IM.State.forall_after (p := fun s => s.fetch.all (!·.links)) countdown_end
      (by decide) k
    rw [hi] at hk
    exact absurd hk Bool.false_ne_true
  quiet k d i j _ hi _ hdest _ _ := by
    have hk := RV32IM.State.forall_after
      (p := fun s => s.fetch.all (·.dest != some 0)) countdown_end
      (by decide) k
    rw [hi] at hk
    exact absurd hdest (bne_iff_ne.mp hk)
  frozen j k := (countdown_word j (k + 1)).trans (countdown_word j k).symm

theorem countdown_live : (loaded countdown).Live 7 := by
  intro k hk
  have hsome : ∀ k < 7, ((loaded countdown).arch.after k).fetch ≠ none := by decide
  obtain ⟨i, hi⟩ := Option.ne_none_iff_exists'.mp (hsome k hk)
  exact ⟨_, (countdown_confined.follows k).fetch_some countdown_fits hi⟩

/-- The pipeline stops after `countdown` with zero in `x1` and in the word at `60`. -/
theorem pipeline_runs_countdown :
    (Started (boot countdown (some OneBitBranchPredictor.new)) ∧
      Confined (boot countdown (some OneBitBranchPredictor.new)).hart) ∧
    ∃ fuel S, (boot countdown (some OneBitBranchPredictor.new)).run none none fuel = .ok (some S) ∧
      S.GPRegs 1 = 0 ∧ S.hart.arch.word 60 = 0 := by
  have hc : Confined (boot countdown (some OneBitBranchPredictor.new)).hart := countdown_confined
  obtain ⟨fuel, S, hrun, hx, hmem⟩ := (pipeline_runs (started_boot _ _) hc).2.2 7 countdown_end
  refine ⟨⟨started_boot _ _, hc⟩, fuel, S, hrun, ?_, ?_⟩
  · rw [hx]
    decide +kernel
  · unfold RV32IM.State.word
    rw [hmem]
    decide +kernel

end RipSim
