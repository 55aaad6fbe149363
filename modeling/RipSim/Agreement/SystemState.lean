import RipSim.Pipeline.Traps
import RipSim.Agreement.Passage
import RipSim.Reference.Interpreter

/-!
# Trap entry and `mret` in both simulators

What entering a trap and returning from one do to the CSRs, bit by bit for `mstatus`, and
whether the two simulators do it.  The pipeline's setters read the register before each
write, so its four updates add up.  The interpreter computes several new values from one
saved copy and writes them one after the other: of its updates the last one stays.
-/

namespace RipSim

open RIPSimulator

/-! ## What is asked -/

/-- What `mret` makes of the value `v` of `mstatus`. -/
structure Returned (v v' : RegVal) : Prop where
  MIE : v'.getLsbD 3 = v.getLsbD 7
  MPIE : v'.getLsbD 7 = true
  MPP : v'.getLsbD 11 = false ∧ v'.getLsbD 12 = false
  /-- Bit 17 is cleared exactly when the old MPP is not Machine. -/
  MPRV : v'.getLsbD 17 = (v.getLsbD 17 && decide (ModeKind.ofMPP v = .Machine))
  rest : ∀ i < 32, i ∉ [3, 7, 11, 12, 17] → v'.getLsbD i = v.getLsbD i

/-- What the entry of a trap in Machine mode makes of the CSRs, for the exception `E` of the
instruction `I` at `PC`. -/
structure Trapped (PC : Address) (I : Instruction) (E : Exception) (old new : CSRs) : Prop where
  mepc : new MEPC = (PC &&& ~~~1#64).setWidth 32
  mcause : new MCAUSE = E.cause
  mtval : trap_val E (PC.setWidth 32) I.getVal = .ok (new MTVAL)
  MPIE : (new MSTATUS).getLsbD 7 = (old MSTATUS).getLsbD 3
  MIE : (new MSTATUS).getLsbD 3 = false
  MPP : (new MSTATUS).getLsbD 11 = true ∧ (new MSTATUS).getLsbD 12 = true
  rest : ∀ i < 32, i ∉ [3, 7, 11, 12] → (new MSTATUS).getLsbD i = (old MSTATUS).getLsbD i
  others : ∀ a ∉ updatedCSRs, a ≠ CYCLE → new a = old a

/-! ## `mret` in the interpreter -/

/-- The last `ResVal` of the `mret` branch of `IInstruction::exec`. -/
def mretValue (v : RegVal) : RegVal :=
  ((v &&& 0xfffffff7#32) ||| ofBool (v.getLsbD 7) <<< 3 ||| 0b10000000#32) &&& 0xffffe7ff#32

/-- The `mstatus` that `IInstruction::exec` leaves for an `mret`, whatever mode it returns
to: the write that should clear MPRV is lost. -/
theorem mret_mstatus {h : Hart} (hm : ModeKind.ofMPP (h.States MSTATUS) ≠ .Hypervisor) :
    ∃ h', h.mret = (none, h') ∧ h'.PC = (h.States MEPC).signExtend 64 ∧
      h'.States MSTATUS = mretValue (h.States MSTATUS) := by
  have hlast : ∀ St : CSRs, St.write MSTATUS (mretValue (h.States MSTATUS)) MSTATUS =
      mretValue (h.States MSTATUS) := fun St => CSRs.write_self St _ _
  unfold Hart.mret
  dsimp only
  cases hv : ModeKind.ofMPP (h.States.read MSTATUS) with
  | Hypervisor => exact absurd hv hm
  | Epilogue => exact absurd hv (ofMPP_ne_epilogue _)
  | User => exact ⟨_, rfl, rfl, hlast (h.States.write MSTATUS (MSTATUS.setWidth 32 &&& 0xfffdffff))⟩
  | Supervisor =>
    exact ⟨_, rfl, rfl, hlast (h.States.write MSTATUS (MSTATUS.setWidth 32 &&& 0xfffdffff))⟩
  | Machine => exact ⟨_, rfl, rfl, hlast h.States⟩

theorem mretValue_bits (v : RegVal) (i : ℕ) (hi : i < 32) :
    (mretValue v).getLsbD i = if i = 11 ∨ i = 12 then false else if i = 7 then true
      else if i = 3 then v.getLsbD 7 else v.getLsbD i := by
  simp only [mretValue, BitVec.getLsbD_or, BitVec.getLsbD_and, BitVec.getLsbD_shiftLeft, ofBool]
  interval_cases i <;> simp

/-- These bits are right but for MPRV. -/
theorem returned_mretValue_iff (v : RegVal) :
    Returned v (mretValue v) ↔ ModeKind.ofMPP v = .Machine ∨ v.getLsbD 17 = false := by
  have hb := mretValue_bits v
  constructor
  · intro hR
    have h17 : v.getLsbD 17 = (v.getLsbD 17 && decide (ModeKind.ofMPP v = .Machine)) :=
      (hb 17 (by decide)).symm.trans hR.MPRV
    cases hv : v.getLsbD 17 with
    | false => exact .inr rfl
    | true =>
      rw [hv, Bool.true_and] at h17
      exact .inl (of_decide_eq_true h17.symm)
  · intro hR
    refine ⟨hb 3 (by decide), hb 7 (by decide), ⟨hb 11 (by decide), hb 12 (by decide)⟩, ?_, ?_⟩
    · refine (hb 17 (by decide)).trans ?_
      rcases hR with hR | hR
      · rw [hR, decide_eq_true rfl, Bool.and_true]
        rfl
      · rw [hR, Bool.false_and]
        rfl
    · intro i hi hn
      simp only [List.mem_cons, List.not_mem_nil, or_false, not_or] at hn
      rw [hb i hi, if_neg (by omega), if_neg hn.2.1, if_neg hn.1]

/-! ## The CSRs of the pipeline without csr instructions in flight -/

namespace RIPSimulator

variable {σ : Type}

/-- No csr instruction is in flight: none in EX, none in MA. -/
structure CSRFree (S : RIPSimulator σ) : Prop where
  EX : ∀ I, S.PS.Insts.EX = some I → I.isCSR = false
  MA : ∀ I, S.PS.Insts.MA = some I → I.isCSR = false

theorem csrWrite_of_not_isCSR {States : CSRs} {o : Option Instruction} {v : RegVal}
    (h : ∀ I, o = some I → I.isCSR = false) : csrWrite States o v = States := by
  cases o with
  | none => rfl
  | some I => exact if_neg (by rw [h I rfl]; exact Bool.false_ne_true)

theorem CSRFree.drainMA {S : RIPSimulator σ} (h : CSRFree S) : S.drainMA = S.States :=
  csrWrite_of_not_isCSR h.MA

theorem CSRFree.olderStates {S : RIPSimulator σ} (h : CSRFree S) : S.olderStates = S.States :=
  (csrWrite_of_not_isCSR h.EX).trans h.drainMA

variable [BranchPredictor σ] {S S' : RIPSimulator σ}

/-- The end of a cycle that executes a legal `mret`: the CSRs, and where the fetch goes on. -/
theorem Next.returned {I : Instruction} (hS : Reachable S) (hI : S.entering = some I)
    (hm : I.isMret = true) (hmode : ModeKind.ofMPP (S.States MSTATUS) ≠ .Hypervisor)
    (hf : CSRFree S) (hn : Next S S') :
    S'.States = (mretStates S.States (S.States MSTATUS)).incCYCLE ∧
      S'.PC = (S.States MEPC).signExtend 64 ∧ S'.PS.Insts.DE = none ∧ S'.PS.Insts.IF = none := by
  have hc := hS.clean
  have hl := hS.latched
  obtain ⟨A, B, M, E, D, ht, hD, hS'⟩ := hn.through
  obtain ⟨hst, hpc⟩ := ht.mret_reads hc hl
  rw [hf.olderStates] at hst hpc
  have hraise := ht.raising hc hl
  unfold RIPSimulator.raising at hraise
  rw [hI] at hraise
  dsimp only at hraise
  rw [if_pos hm, hf.olderStates, if_neg hmode] at hraise
  subst hraise
  have hM := ht.returned hc hI hm
  have hins := ht.filled (hc.advance ht.advance) hD
  cases hD
  have hkill : kills M none = true := by
    rw [hM]
    rfl
  refine ⟨?_, ?_, ?_, ?_⟩
  · obtain ⟨_, _, _, _, hdst, _⟩ := M.decoded_frame
    rw [hS', finish_States, hdst, hM]
    show (mretStates B.States B.mretStatus).incCYCLE = _
    rw [hst, ht.states hc hl, hf.drainMA]
  · obtain ⟨_, _, _, _, _, _, _, _, _, _, _, hbr, _⟩ := M.decoded_frame
    have hbr' : M.PS.BranchPC = some (B.mretPC.signExtend 64) := by
      rw [hM]
      rfl
    rw [hS', redirect_eq]
    show ((M.decoded.PS.BranchPC).or _).getD _ = _
    rw [hbr, hbr', hpc]
    rfl
  · rw [hS', hins, hkill]
    rfl
  · rw [hS', hins, hkill]
    rfl

/-- The end of a cycle that enters a trap. -/
theorem Next.trapped {I : Instruction} {E : Exception} (hS : Reachable S)
    (hI : S.entering = some I) (hE : S.raising = some E) (htrap : isTrap E = true)
    (hmode : S.Mode = .Machine) (hf : CSRFree S) (hn : Next S S') :
    S'.States = (trapStates S.States S.PS.PCs.DE E
      (if E = .IllegalInstruction then I.getVal else 0) .Machine).incCYCLE := by
  have hc := hS.clean
  have hl := hS.latched
  obtain ⟨A, B, M, E', D, ht, hD, rfl⟩ := hn.through
  obtain rfl : E' = some E := (ht.raising hc hl).trans hE
  rw [ht.trapped hc hl hI hD htrap, hf.drainMA, hmode]

end RIPSimulator

/-! ## `mret` -/

/-- The interpreter's `mret` continues at `mepc` with the `mstatus` asked for. -/
def InterpreterReturns (h : Hart) (Rd Rs1 : BitVec 5) (Imm : BitVec 12) : Prop :=
  ∃ h', (Instruction.IInstruction .mret Rd Rs1 Imm).exec h = .ok (none, h') ∧
    h'.PC = (h.States MEPC).setWidth 64 ∧ Returned (h.States MSTATUS) (h'.States MSTATUS)

/-- So does every `mret` that the pipeline executes with these values and no csr instruction
in flight. -/
def PipelineReturns (mstatus mepc : RegVal) : Prop :=
  ∀ {σ : Type} [BranchPredictor σ] {S S' : RIPSimulator σ} {I : Instruction}, Reachable S →
    S.entering = some I → I.isMret = true → CSRFree S → S.States MSTATUS = mstatus →
    S.States MEPC = mepc → Next S S' →
    S'.PC = mepc.setWidth 64 ∧ S'.PS.Insts.DE = none ∧ S'.PS.Insts.IF = none ∧
      Returned mstatus (S'.States MSTATUS)

theorem returned_mretStates (States : CSRs) :
    Returned (States MSTATUS) (mretStates States (States MSTATUS) MSTATUS) := by
  have hb := mretStates_mstatus_bits States
  refine ⟨hb 3 (by decide), hb 7 (by decide), ⟨hb 11 (by decide), hb 12 (by decide)⟩, ?_, ?_⟩
  · refine (hb 17 (by decide)).trans ?_
    by_cases hm : ModeKind.ofMPP (States MSTATUS) = .Machine <;> simp [hm]
  · intro i hi hn
    simp only [List.mem_cons, List.not_mem_nil, or_false, not_or] at hn
    rw [hb i hi, if_neg (by omega), if_neg hn.2.1, if_neg hn.1, if_neg fun h => hn.2.2.2.2 h.1]

theorem pipelineReturns {mstatus mepc : RegVal}
    (hm : ModeKind.ofMPP mstatus ≠ .Hypervisor) (hpc : mepc.toNat < 2 ^ 31) :
    PipelineReturns mstatus mepc := by
  intro σ _ S S' I hS hI hmret hf hst hme hn
  obtain ⟨hst', hPC, hDE, hIF⟩ := hn.returned hS hI hmret (hst ▸ hm) hf
  refine ⟨?_, hDE, hIF, ?_⟩
  · rw [hPC, hme, signExtend_eq_setWidth hpc]
  · have hR := returned_mretStates S.States
    rw [hst', CSRs.incCYCLE, CSRs.inc_of_ne _ (by decide)]
    rwa [hst] at hR ⊢

/-- **When `mret` is right in both simulators.**  The pipeline's is for every `mstatus`; the
interpreter's where there is no MPRV to clear, because its last write brings back the bit
that an earlier one has cleared.  Both take `mepc` for a signed number. -/
theorem mret_state_iff (h : Hart) (Rd Rs1 : BitVec 5) (Imm : BitVec 12)
    (hm : ModeKind.ofMPP (h.States MSTATUS) ∈ [.User, .Supervisor, .Machine]) :
    (InterpreterReturns h Rd Rs1 Imm ∧ PipelineReturns (h.States MSTATUS) (h.States MEPC)) ↔
      (ModeKind.ofMPP (h.States MSTATUS) = .Machine ∨ (h.States MSTATUS).getLsbD 17 = false) ∧
        (h.States MEPC).toNat < 2 ^ 31 := by
  have hm' : ModeKind.ofMPP (h.States MSTATUS) ≠ .Hypervisor := by
    intro hv
    rw [hv] at hm
    exact absurd hm (by decide)
  obtain ⟨h', hexec, hPC, hst⟩ := mret_mstatus hm'
  constructor
  · rintro ⟨⟨h'', hexec', hPC', hR⟩, -⟩
    obtain rfl : h' = h'' := (Prod.mk.inj (hexec.symm.trans (Except.ok.inj hexec'))).2
    rw [hst, returned_mretValue_iff] at hR
    exact ⟨hR, (signExtend_eq_setWidth_iff _).mp (hPC.symm.trans hPC')⟩
  · rintro ⟨hR, hlt⟩
    refine ⟨⟨h', congrArg Except.ok hexec, ?_, ?_⟩, pipelineReturns hm' hlt⟩
    · rw [hPC, signExtend_eq_setWidth hlt]
    · rw [hst]
      exact (returned_mretValue_iff _).mpr hR

/-- A machine with these values of two CSRs. -/
def statusHart (mstatus mepc : RegVal) : Hart where
  PC := 8
  GPRegs := GPRegisters.new 16 0 none
  Mem := Memory.new 16 0
  States := (CSRs.new.write MSTATUS mstatus).write MEPC mepc
  Mode := .Machine
  cerr := []

/-- A return to User mode with MPIE set and MPRV clear. -/
theorem mret_state_iff_user :
    (InterpreterReturns (statusHart 0x80 4) 0 0 0x302 ∧
        PipelineReturns ((statusHart 0x80 4).States MSTATUS) ((statusHart 0x80 4).States MEPC)) ↔
      (ModeKind.ofMPP ((statusHart 0x80 4).States MSTATUS) = .Machine ∨
          ((statusHart 0x80 4).States MSTATUS).getLsbD 17 = false) ∧
        ((statusHart 0x80 4).States MEPC).toNat < 2 ^ 31 :=
  mret_state_iff (statusHart 0x80 4) 0 0 0x302 (by decide)

/-- A return to User mode with MPRV set leaves it set in the interpreter. -/
theorem mret_keeps_mprv : ¬InterpreterReturns (statusHart 0x20000 4) 0 0 0x302 := by
  rintro ⟨h', hexec, -, hR⟩
  have h17 := hR.MPRV
  have hst : h'.States MSTATUS = 0x20080 := by
    obtain rfl := (Prod.mk.inj (Except.ok.inj hexec)).2
    decide
  rw [hst] at h17
  exact absurd h17 (by decide)

/-! ## Trap entry -/

/-- How `Instruction::exec` raises an exception that is neither a stop nor `extx`: an `ecall`
leaves the machine as it is, an `mret` to the reserved mode has already changed the PC. -/
theorem exec_raising {I : Instruction} {h h₁ : Hart} {E : Exception}
    (hE : E ∉ [.Breakpoint, .R0, .R1]) (he : I.exec h = .ok (some E, h₁)) :
    isTrap E = true ∧ ((I.isMret = false ∧ h₁ = h) ∨
      (I.isMret = true ∧ h₁ = { h with PC := (h.States MEPC).signExtend 64 })) := by
  cases hp : I.isPlain with
  | true =>
    -- a plain instruction returns no exception
    exfalso
    cases hc : I.isCSR with
    | true =>
      cases I with
      | IInstruction IT => cases IT <;> first | exact Bool.false_ne_true hc | cases he
      | _ => exact Bool.false_ne_true hc
    | false =>
      rw [← Instruction.execRef_of_not_isCSR hc] at he
      exact Option.some_ne_none E (Instruction.execRef_none hp he)
  | false =>
    cases I with
    | IInstruction IT Rd Rs1 Imm =>
      cases IT with
      | ecall =>
        injection he with he
        injection he with hE' hh
        injection hE' with hE'
        refine ⟨?_, .inl ⟨rfl, hh.symm⟩⟩
        rw [← hE']
        cases h.Mode <;> rfl
      | ebreak | ext | extx =>
        injection he with he
        injection he with hE' _
        injection hE' with hE'
        exact absurd (show E ∈ _ by rw [← hE']; decide) hE
      | uret | sret => cases he
      | mret =>
        injection he with he
        by_cases hm : ModeKind.ofMPP (h.States MSTATUS) = .Hypervisor
        · unfold Hart.mret at he
          dsimp only at he
          rw [show ModeKind.ofMPP (h.States.read MSTATUS) = .Hypervisor from hm] at he
          injection he with hE' hh
          injection hE' with hE'
          exact ⟨by rw [← hE']; rfl, .inr ⟨rfl, hh.symm⟩⟩
        · obtain ⟨h', hh, _⟩ := mret_mstatus hm
          cases hh.symm.trans he
      | _ => exact absurd hp.symm Bool.false_ne_true
    | _ => exact absurd hp.symm Bool.false_ne_true

theorem trap_val_eq {E : Exception} (hE : isTrap E = true) (PC v : BitVec 32) :
    trap_val E PC v = .ok (if E = .IllegalInstruction then v else 0) := by
  cases E <;> first | rfl | exact absurd hE Bool.false_ne_true

/-- The CSRs after the trap entry of `Simulator::run`: of the three writes of `mstatus` the
one that sets MPP stays. -/
theorem trap_States (h₁ : Hart) {I : Instruction} {E : Exception} (hE : isTrap E = true)
    (hm : h₁.Mode = .Machine) :
    ∃ h₂, Simulator.trap h₁ I E = .ok h₂ ∧
      h₂.States MEPC = (h₁.PC &&& ~~~1#64).setWidth 32 ∧ h₂.States MCAUSE = E.cause ∧
      h₂.States MTVAL = (if E = .IllegalInstruction then I.getVal else 0) ∧
      h₂.States MSTATUS = ((h₁.States MSTATUS &&& 0xffffe7ff#32) ||| 3#32 <<< 11) ∧
      ∀ a ∉ updatedCSRs, h₂.States a = h₁.States a := by
  have hrun : ∃ h₂, Simulator.trap h₁ I E = .ok h₂ ∧ h₂.States =
      (((((h₁.States.write MEPC ((h₁.PC &&& ~~~1#64).setWidth 32)).write MCAUSE E.cause).write
        MTVAL (if E = .IllegalInstruction then I.getVal else 0)).write MSTATUS
        ((h₁.States MSTATUS &&& 0xffffff7f#32) |||
          ofBool ((h₁.States MSTATUS).getLsbD 3) <<< 7)).write
        MSTATUS (h₁.States MSTATUS &&& 0xfffffff7#32)).write MSTATUS
        ((h₁.States MSTATUS &&& 0xffffe7ff#32) ||| 3#32 <<< 11) := by
    unfold Simulator.trap
    rw [if_pos hm, trap_val_eq hE, hm]
    exact ⟨_, rfl, rfl⟩
  obtain ⟨h₂, hok, hst⟩ := hrun
  refine ⟨h₂, hok, ?_, ?_, ?_, ?_, ?_⟩
  · rw [hst]
    simp [CSRs.write, MSTATUS, MEPC, MCAUSE, MTVAL]
  · rw [hst]
    simp [CSRs.write, MSTATUS, MCAUSE, MTVAL]
  · rw [hst]
    simp [CSRs.write, MSTATUS, MTVAL]
  · rw [hst, CSRs.write_self]
  · intro a ha
    simp only [updatedCSRs, List.mem_cons, List.not_mem_nil, or_false, not_or] at ha
    rw [hst, CSRs.write_of_ne _ ha.1, CSRs.write_of_ne _ ha.1, CSRs.write_of_ne _ ha.1,
      CSRs.write_of_ne _ ha.2.2.2, CSRs.write_of_ne _ ha.2.2.1, CSRs.write_of_ne _ ha.2.1]

theorem trapped_mpp_bits (v : RegVal) (i : ℕ) (hi : i < 32) :
    ((v &&& 0xffffe7ff#32) ||| 3#32 <<< 11).getLsbD i =
      if i = 11 ∨ i = 12 then true else v.getLsbD i := by
  simp only [BitVec.getLsbD_or, BitVec.getLsbD_and, BitVec.getLsbD_shiftLeft]
  interval_cases i <;> simp

/-- What the pipeline's trap entry makes of the CSRs is what is asked. -/
theorem trapped_trapStates {PC : Address} {I : Instruction} {E : Exception}
    (hE : isTrap E = true) (old : CSRs) :
    Trapped PC I E old (trapStates old PC E (if E = .IllegalInstruction then I.getVal else 0)
      .Machine).incCYCLE := by
  have hb := trapStates_mstatus old PC E (if E = .IllegalInstruction then I.getVal else 0)
  have hinc : ∀ (St : CSRs) a, a ≠ CYCLE → St.incCYCLE a = St a := fun St a ha =>
    CSRs.inc_of_ne _ ha
  constructor
  · rw [hinc _ _ (by decide)]
    simp [trapStates, CSRs.setMPP, CSRs.setMIE, CSRs.setMPIE, CSRs.write, MSTATUS, MEPC, MCAUSE,
      MTVAL]
  · rw [hinc _ _ (by decide)]
    simp [trapStates, CSRs.setMPP, CSRs.setMIE, CSRs.setMPIE, CSRs.write, MSTATUS, MCAUSE, MTVAL]
  · rw [hinc _ _ (by decide), trap_val_eq hE]
    simp [trapStates, CSRs.setMPP, CSRs.setMIE, CSRs.setMPIE, CSRs.write, MSTATUS, MTVAL]
  · rw [hinc _ _ (by decide)]
    exact hb 7 (by decide)
  · rw [hinc _ _ (by decide)]
    exact hb 3 (by decide)
  · rw [hinc _ _ (by decide)]
    exact ⟨hb 11 (by decide), hb 12 (by decide)⟩
  · intro i hi hn
    simp only [List.mem_cons, List.not_mem_nil, or_false, not_or] at hn
    rw [hinc _ _ (by decide), hb i hi, if_neg (by omega), if_neg hn.1, if_neg hn.2.1]
  · intro a ha hcyc
    simp only [updatedCSRs, List.mem_cons, List.not_mem_nil, or_false, not_or] at ha
    rw [hinc _ _ hcyc]
    unfold trapStates CSRs.setMPP CSRs.setMIE CSRs.setMPIE
    rw [CSRs.write_of_ne _ ha.1, CSRs.write_of_ne _ ha.1, CSRs.write_of_ne _ ha.1,
      CSRs.write_of_ne _ ha.2.2.2, CSRs.write_of_ne _ ha.2.2.1, CSRs.write_of_ne _ ha.2.1]

/-- The interpreter's entry of the trap that `I`, executed in `h`, has raised in `h₁`. -/
def InterpreterTraps (h h₁ : Hart) (I : Instruction) (E : Exception) : Prop :=
  ∃ h₂, Simulator.trap h₁ I E = .ok h₂ ∧ Trapped h.PC I E h.States h₂.States

/-- Every entry of this trap that the pipeline makes without a csr instruction in flight. -/
def PipelineTraps (I : Instruction) (E : Exception) : Prop :=
  ∀ {σ : Type} [BranchPredictor σ] {S S' : RIPSimulator σ}, Reachable S →
    S.entering = some I → S.raising = some E → S.Mode = .Machine → CSRFree S → Next S S' →
    Trapped S.PS.PCs.DE I E S.States S'.States

/-- Where the interpreter's trap entry is right: nothing is to be moved or cleared in
`mstatus`, and an `mret` to the reserved mode returns to its own address. -/
structure TrapsRight (h : Hart) (I : Instruction) : Prop where
  MIE : (h.States MSTATUS).getLsbD 3 = false
  MPIE : (h.States MSTATUS).getLsbD 7 = false
  mret : I.isMret = true →
    h.States MEPC &&& ~~~1#32 = (h.PC &&& ~~~1#64).setWidth 32

theorem setWidth_and_not_one (v : RegVal) :
    (v.signExtend 64 &&& ~~~1#64).setWidth 32 = v &&& ~~~1#32 := by
  apply BitVec.eq_of_getLsbD_eq
  intro i hi
  have hm : ∀ i < 32, (~~~1#64).getLsbD i = (~~~1#32).getLsbD i := by decide
  rw [BitVec.getLsbD_setWidth, BitVec.getLsbD_and, BitVec.getLsbD_and, BitVec.getLsbD_signExtend,
    if_pos hi, hm i hi, decide_eq_true hi, decide_eq_true (by omega : i < 64), Bool.true_and,
    Bool.true_and]

/-- **When trap entry is right in both simulators.**  The pipeline's always is, for every
exception after which the run goes on in Machine mode.  The interpreter's is where MIE and
MPIE are clear before, since of its three writes of `mstatus` only the last one stays, and
where an `mret` that raises has not moved the PC. -/
theorem trap_state_iff (h h₁ : Hart) {I : Instruction} {E : Exception} (hm : h.Mode = .Machine)
    (hE : E ∉ [.Breakpoint, .R0, .R1]) (he : I.exec h = .ok (some E, h₁)) :
    (InterpreterTraps h h₁ I E ∧ PipelineTraps I E) ↔ TrapsRight h I := by
  obtain ⟨htrap, hh⟩ := exec_raising hE he
  have hst : h₁.States = h.States ∧ h₁.Mode = h.Mode ∧
      ((h₁.PC &&& ~~~1#64).setWidth 32 = (h.PC &&& ~~~1#64).setWidth 32 ↔ (I.isMret = true →
        h.States MEPC &&& ~~~1#32 = (h.PC &&& ~~~1#64).setWidth 32)) := by
    rcases hh with ⟨hI, rfl⟩ | ⟨hI, rfl⟩
    · exact ⟨rfl, rfl, fun _ hI' => absurd (hI.symm.trans hI') Bool.false_ne_true, fun _ => rfl⟩
    · refine ⟨rfl, rfl, ?_⟩
      show ((h.States MEPC).signExtend 64 &&& ~~~1#64).setWidth 32 = _ ↔ _
      rw [setWidth_and_not_one]
      exact ⟨fun h' _ => h', fun h' => h' hI⟩
  obtain ⟨hst₁, hmode, hpc⟩ := hst
  obtain ⟨h₂, hok, hmepc, hmcause, hmtval, hms, hothers⟩ := trap_States h₁ htrap (hmode.trans hm)
  have hb := trapped_mpp_bits (h.States MSTATUS)
  rw [hst₁] at hms hothers
  constructor
  · rintro ⟨⟨h₂', hok', hT⟩, -⟩
    obtain rfl := Except.ok.inj (hok.symm.trans hok')
    have hMIE : (h.States MSTATUS).getLsbD 3 = false := by
      have hx := hT.MIE
      rw [hms] at hx
      exact (hb 3 (by decide)).symm.trans hx
    refine ⟨hMIE, ?_, hpc.mp (hmepc.symm.trans hT.mepc)⟩
    have hx := hT.MPIE
    rw [hms, hMIE] at hx
    exact (hb 7 (by decide)).symm.trans hx
  · intro hR
    refine ⟨⟨h₂, hok, ?_⟩, fun hS hI hE' hm' hf hn => ?_⟩
    · constructor
      · exact hmepc.trans (hpc.mpr hR.mret)
      · exact hmcause
      · rw [trap_val_eq htrap, hmtval]
      · rw [hms, hR.MIE]
        exact (hb 7 (by decide)).trans hR.MPIE
      · rw [hms]
        exact (hb 3 (by decide)).trans hR.MIE
      · rw [hms]
        exact ⟨hb 11 (by decide), hb 12 (by decide)⟩
      · intro i hi hn
        simp only [List.mem_cons, List.not_mem_nil, or_false, not_or] at hn
        rw [hms, hb i hi, if_neg (by omega)]
      · exact fun a ha _ => hothers a ha
    · rw [hn.trapped hS hI hE' htrap hm' hf]
      exact trapped_trapStates htrap _

/-- An `ecall` with every bit of `mstatus` set but MIE and MPIE: both simulators are right. -/
theorem trap_state_iff_ecall :
    InterpreterTraps (statusHart 0xffffff77 0) (statusHart 0xffffff77 0)
      (.IInstruction .ecall 0 0 0)
        .EnvironmentCallFromMMode ∧
      PipelineTraps (.IInstruction .ecall 0 0 0) .EnvironmentCallFromMMode :=
  (trap_state_iff (statusHart 0xffffff77 0) (statusHart 0xffffff77 0) rfl (by decide) rfl).mpr
    ⟨by decide, by decide, nofun⟩

/-- An `ecall` with MIE set: the interpreter leaves MIE set. -/
theorem trap_keeps_mie :
    ¬InterpreterTraps (statusHart 8 0) (statusHart 8 0) (.IInstruction .ecall 0 0 0)
      .EnvironmentCallFromMMode := by
  rintro ⟨h₂, hok, hT⟩
  obtain ⟨h₂', hok', -, -, -, hms, -⟩ := trap_States (statusHart 8 0)
    (I := .IInstruction .ecall 0 0 0) (E := .EnvironmentCallFromMMode) rfl rfl
  obtain rfl := Except.ok.inj (hok'.symm.trans hok)
  have hMIE := hT.MIE
  rw [hms] at hMIE
  exact absurd hMIE (by decide)

end RipSim
