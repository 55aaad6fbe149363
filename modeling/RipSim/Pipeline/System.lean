import RipSim.Pipeline.Stages

/-!
# System instructions, traps and the end of a cycle

What `exec` does to an instruction that is not plain, what `handleException` does
to the exception it returns, and how a cycle puts the stages together.

* `exec_ok`: the five ways in which `exec` returns.
* `handleException_ok`: the three ways in which `handleException` returns.
* `cycle_ok`: a cycle that returns has found the pipeline empty, or has gone
  through the states of `Through` and then either ended or handled an exception.

Later files take a cycle apart with these three and never unfold it.
-/

namespace RipSim

namespace Instruction

/-- The exception `exec` returns for an instruction that does nothing else. -/
def raises (Mode : ModeKind) : Instruction → Option Exception
  | IInstruction .ecall _ _ _ => some (Hart.ecallException Mode)
  | IInstruction .ebreak _ _ _ => some .Breakpoint
  | IInstruction .ext _ _ _ => some .R0
  | IInstruction .extx _ _ _ => some .R1
  | _ => none

/-- The instruction is `mret`. -/
def isMret : Instruction → Bool
  | IInstruction .mret _ _ _ => true
  | _ => false

theorem isPlain_of_isCSR {I : Instruction} (h : I.isCSR = true) : I.isPlain = true := by
  cases I with
  | IInstruction IT => cases IT <;> first | rfl | exact absurd h Bool.false_ne_true
  | _ => rfl

theorem isPlain_of_raises {I : Instruction} {m : ModeKind} {e : Exception}
    (h : I.raises m = some e) : I.isPlain = false := by
  cases I with
  | IInstruction IT => cases IT <;> first | rfl | simp [raises] at h
  | _ => simp [raises] at h

theorem isPlain_of_isMret {I : Instruction} (h : I.isMret = true) : I.isPlain = false := by
  cases I with
  | IInstruction IT => cases IT <;> first | rfl | exact absurd h Bool.false_ne_true
  | _ => exact absurd h Bool.false_ne_true

theorem isBType_of_not_isPlain {I : Instruction} (h : I.isPlain = false) : I.isBType = false := by
  cases I with
  | BInstruction => exact absurd h.symm Bool.false_ne_true
  | _ => rfl

end Instruction

namespace RIPSimulator

variable {σ : Type}

/-! ## `mret` -/

/-- The `mepc` that `mret` reads: the value a csr instruction in MA is about to
write, else the register. -/
def mretPC (S : RIPSimulator σ) : RegVal :=
  if csrIs S.PS.Insts.MA MEPC then S.PS.MACSRVal else S.States.read MEPC

/-- The `mstatus` that `mret` reads. -/
def mretStatus (S : RIPSimulator σ) : RegVal :=
  if csrIs S.PS.Insts.MA MSTATUS then S.PS.MACSRVal else S.States.read MSTATUS

/-- What an `mret` that is legal and reads `MSTATUSVal` makes of the CSRs: MPREV is
cleared on leaving Machine mode, MIE takes MPIE of the value read, MPIE is set and
MPP cleared. -/
def mretStates (States : CSRs) (MSTATUSVal : RegVal) : CSRs :=
  let States := if ModeKind.ofMPP MSTATUSVal = .Machine then States else States.setMPREV false
  ((States.setMIE (MSTATUSVal.getLsbD 7)).setMPIE true).setMPP .User

/-- The CSRs after an `mret` that is legal. -/
def returnedStates (S : RIPSimulator σ) : CSRs := mretStates S.States S.mretStatus

/-- The mode after an `mret` that is legal.  Returning to User mode keeps it. -/
def returnedMode (S : RIPSimulator σ) : ModeKind :=
  if ModeKind.ofMPP S.mretStatus = .User then S.Mode else ModeKind.ofMPP S.mretStatus

/-- The state after `exec` of an `mret` that is legal. -/
def returned (S : RIPSimulator σ) : RIPSimulator σ :=
  { S.branchTo (S.mretPC.signExtend 64) with
    States := S.returnedStates
    Mode := S.returnedMode }.latchEX 0 0

theorem ofMPP_ne_epilogue (v : RegVal) : ModeKind.ofMPP v ≠ .Epilogue := by
  unfold ModeKind.ofMPP
  dsimp only
  split_ifs <;> decide

/-- An `mret` to the reserved mode leaves its target behind and raises. -/
theorem execMret_eq (S : RIPSimulator σ) :
    S.execMret = .ok (if ModeKind.ofMPP S.mretStatus = .Hypervisor then
      (some .IllegalInstruction, S.branchTo (S.mretPC.signExtend 64)) else (none, S.returned)) := by
  have hpc : isCSRAt S.PS.Insts.MA (MEPC.setWidth 32) = .ok (csrIs S.PS.Insts.MA MEPC) :=
    isCSRAt_eq _ _
  have hst : isCSRAt S.PS.Insts.MA (MSTATUS.setWidth 32) = .ok (csrIs S.PS.Insts.MA MSTATUS) :=
    isCSRAt_eq _ _
  have hst' : isCSRAt (S.branchTo (S.mretPC.signExtend 64)).PS.Insts.MA (MSTATUS.setWidth 32) =
      .ok (csrIs S.PS.Insts.MA MSTATUS) := hst
  unfold execMret
  rw [hpc]
  change (isCSRAt (S.branchTo (S.mretPC.signExtend 64)).PS.Insts.MA (MSTATUS.setWidth 32) >>= _) = _
  rw [hst']
  have hstatus : (if csrIs S.PS.Insts.MA MSTATUS = true then
      (S.branchTo (S.mretPC.signExtend 64)).PS.MACSRVal
      else (S.branchTo (S.mretPC.signExtend 64)).States.read MSTATUS) = S.mretStatus := rfl
  rw [mretPC] at hstatus
  simp only [bind, Except.bind, hstatus]
  cases hm : ModeKind.ofMPP S.mretStatus with
  | Epilogue => exact absurd hm (ofMPP_ne_epilogue _)
  | _ =>
    simp only [returned, returnedStates, mretStates, returnedMode, hm]
    rfl

/-! ## The ways `exec` returns -/

/-- **How `exec` returns**: on a bubble; a plain instruction; an instruction that
only raises; a legal `mret`; an `mret` to the reserved mode. -/
theorem exec_ok [BranchPredictor σ] {S M : RIPSimulator σ} {E : Option Exception}
    (h : S.exec = .ok (E, M)) :
    (S.PS.Insts.EX = none ∧ E = none ∧ M = S) ∨
    (∃ I, S.PS.Insts.EX = some I ∧ I.isPlain = true ∧ E = none ∧ M = S.executed I) ∨
    (∃ I e, S.PS.Insts.EX = some I ∧ I.raises S.Mode = some e ∧ E = some e ∧ M = S) ∨
    (∃ I, S.PS.Insts.EX = some I ∧ I.isMret = true ∧ ModeKind.ofMPP S.mretStatus ≠ .Hypervisor ∧
      E = none ∧ M = S.returned) ∨
    (∃ I, S.PS.Insts.EX = some I ∧ I.isMret = true ∧ ModeKind.ofMPP S.mretStatus = .Hypervisor ∧
      E = some .IllegalInstruction ∧ M = S.branchTo (S.mretPC.signExtend 64)) := by
  cases hEX : S.PS.Insts.EX with
  | none =>
    rw [exec, hEX] at h
    injection h with h
    injection h with h1 h2
    exact .inl ⟨rfl, h1.symm, h2.symm⟩
  | some I =>
    right
    cases hp : I.isPlain with
    | true =>
      rw [exec_eq S hEX hp] at h
      injection h with h
      injection h with h1 h2
      exact .inl ⟨I, rfl, hp, h1.symm, h2.symm⟩
    | false =>
      right
      cases I with
      | IInstruction IT Rd Rs1 Imm =>
        rw [exec, hEX] at h
        change S.execI _ IT = _ at h
        cases IT with
        | ecall | ebreak | ext | extx =>
          injection h with h
          injection h with h1 h2
          exact .inl ⟨_, _, rfl, rfl, h1.symm, h2.symm⟩
        | uret | sret => exact nomatch h
        | mret =>
          right
          change S.execMret = _ at h
          rw [execMret_eq] at h
          injection h with h
          by_cases hm : ModeKind.ofMPP S.mretStatus = .Hypervisor
          · rw [if_pos hm] at h
            injection h with h1 h2
            exact .inr ⟨_, rfl, rfl, hm, h1.symm, h2.symm⟩
          · rw [if_neg hm] at h
            injection h with h1 h2
            exact .inl ⟨_, rfl, rfl, hm, h1.symm, h2.symm⟩
        | _ => exact absurd hp.symm Bool.false_ne_true
      | _ => exact absurd hp.symm Bool.false_ne_true

/-- How `exec` raises: it leaves the state as it is, or an `mret` has left its target. -/
theorem exec_raises [BranchPredictor σ] {S M : RIPSimulator σ} {e : Exception}
    (h : S.exec = .ok (some e, M)) :
    (∃ I, S.PS.Insts.EX = some I ∧ I.raises S.Mode = some e ∧ M = S) ∨
    (∃ I, S.PS.Insts.EX = some I ∧ I.isMret = true ∧ e = .IllegalInstruction ∧
      M = S.branchTo (S.mretPC.signExtend 64)) := by
  rcases exec_ok h with ⟨_, hE, _⟩ | ⟨_, _, _, hE, _⟩ | ⟨I, e', hI, hr, hE, hM⟩ |
    ⟨_, _, _, _, hE, _⟩ | ⟨I, hI, hm, _, hE, hM⟩
  · exact nomatch hE
  · exact nomatch hE
  · injection hE with hE
    exact .inl ⟨I, hI, hE ▸ hr, hM⟩
  · exact nomatch hE
  · injection hE with hE
    exact .inr ⟨I, hI, hm, hE, hM⟩

/-- What `exec` leaves alone. -/
structure ExecFrame (S M : RIPSimulator σ) : Prop where
  Mem : M.Mem = S.Mem
  GPRegs : M.GPRegs = S.GPRegs
  NumStages : M.NumStages = S.NumStages
  Stats : M.Stats = S.Stats
  cerr : M.cerr = S.cerr
  Insts : M.PS.Insts = S.PS.Insts
  PCs : M.PS.PCs = S.PS.PCs
  DERs1Val : M.PS.DERs1Val = S.PS.DERs1Val
  DERs2Val : M.PS.DERs2Val = S.PS.DERs2Val
  DECSRVal : M.PS.DECSRVal = S.PS.DECSRVal
  DEImmVal : M.PS.DEImmVal = S.PS.DEImmVal
  MARdVal : M.PS.MARdVal = S.PS.MARdVal
  MACSRVal : M.PS.MACSRVal = S.PS.MACSRVal
  MAImmVal : M.PS.MAImmVal = S.PS.MAImmVal
  WBImmVal : M.PS.WBImmVal = S.PS.WBImmVal

theorem exec_frame [BranchPredictor σ] {S M : RIPSimulator σ} {E : Option Exception}
    (h : S.exec = .ok (E, M)) : ExecFrame S M := by
  rcases exec_ok h with ⟨_, _, rfl⟩ | ⟨_, _, _, _, rfl⟩ | ⟨_, _, _, _, _, rfl⟩ |
    ⟨_, _, _, _, _, rfl⟩ | ⟨_, _, _, _, _, rfl⟩ <;>
  constructor <;> rfl

/-- The predictor after `exec`: only a branch trains it. -/
theorem exec_BP [BranchPredictor σ] {S M : RIPSimulator σ} {E : Option Exception}
    (h : S.exec = .ok (E, M)) :
    M.BP = match S.PS.Insts.EX with
      | none => S.BP
      | some I => S.learned I := by
  have hlearned : ∀ I : Instruction, I.isPlain = false → S.learned I = S.BP := by
    intro I hI
    cases I with
    | BInstruction => exact absurd hI.symm Bool.false_ne_true
    | _ => rfl
  rcases exec_ok h with ⟨hI, _, rfl⟩ | ⟨I, hI, _, _, rfl⟩ | ⟨I, _, hI, hr, _, rfl⟩ |
    ⟨I, hI, hm, _, _, rfl⟩ | ⟨I, hI, hm, _, _, rfl⟩ <;> rw [hI]
  · rfl
  · exact (hlearned I (Instruction.isPlain_of_raises hr)).symm
  · exact (hlearned I (Instruction.isPlain_of_isMret hm)).symm
  · exact (hlearned I (Instruction.isPlain_of_isMret hm)).symm

/-! ## Exceptions -/

/-- The `mtvec` that a trap entry reads. -/
def trapVec (S : RIPSimulator σ) : RegVal :=
  if csrIs S.PS.Insts.EX MTVEC then S.PS.EXCSRVal
  else if csrIs S.PS.Insts.MA MTVEC then S.PS.MACSRVal
  else S.States.read MTVEC

/-- The value a trap entry writes to `mtval`: the word of an illegal instruction,
else zero. -/
def trapValue (S : RIPSimulator σ) (E : Exception) : RegVal :=
  if E = .IllegalInstruction then (S.PS.Insts.EX.map Instruction.getVal).getD 0 else 0

/-- What a trap entry makes of the CSRs. -/
def trapStates (States : CSRs) (ExceptionPC : Address) (E : Exception) (tv : RegVal)
    (PrevMode : ModeKind) : CSRs :=
  let States := ((States.write MEPC ((ExceptionPC &&& ~~~1#64).setWidth 32)).write MCAUSE
    E.cause).write MTVAL tv
  ((States.setMPIE ((States.read MSTATUS).getLsbD 3)).setMIE false).setMPP PrevMode

/-- The CSRs after a trap entry. -/
def trappedStates (S : RIPSimulator σ) (E : Exception) : CSRs :=
  trapStates S.States S.PS.PCs.EX E (S.trapValue E) S.Mode

/-- The state after a trap entry. -/
def trapped (S : RIPSimulator σ) (E : Exception) : RIPSimulator σ :=
  { S with PC := (S.trapVec &&& ~~~1#32).signExtend 64, States := S.trappedStates E }

/-- The exceptions `exec` returns and `handleException` does not treat first. -/
def isTrap : Exception → Bool
  | .IllegalInstruction | .EnvironmentCallFromUMode | .EnvironmentCallFromSMode
  | .EnvironmentCallFromMMode => true
  | _ => false

theorem trapEntry_eq (S : RIPSimulator σ) {E : Exception} (hE : isTrap E = true) :
    S.trapEntry E = .ok (S.trapped E) := by
  have hEX : isCSRAt S.PS.Insts.EX (MTVEC.setWidth 32) = .ok (csrIs S.PS.Insts.EX MTVEC) :=
    isCSRAt_eq _ _
  have hMA : isCSRAt S.PS.Insts.MA (MTVEC.setWidth 32) = .ok (csrIs S.PS.Insts.MA MTVEC) :=
    isCSRAt_eq _ _
  have htv : trap_val E (S.PS.PCs.EX.setWidth 32) ((S.PS.Insts.EX.map Instruction.getVal).getD 0) =
      .ok (S.trapValue E) := by
    cases E <;> first | rfl | exact absurd hE Bool.false_ne_true
  simp only [trapEntry, hEX, hMA, htv, bind, Except.bind, pure, Except.pure]
  rfl

/-- The state with DE and IF marked for `fillBubble`. -/
def squashed (S : RIPSimulator σ) : RIPSimulator σ := { S with PS := S.PS.setInvalidDEIF }

/-- The exceptions `exec` returns: the end of the run, `extx`, or a trap. -/
theorem exec_exception [BranchPredictor σ] {S M : RIPSimulator σ} {E : Exception}
    (h : S.exec = .ok (some E, M)) :
    E = .Breakpoint ∨ E = .R0 ∨ E = .R1 ∨ isTrap E = true := by
  have hecall : ∀ m, isTrap (Hart.ecallException m) = true := by intro m; cases m <;> rfl
  rcases exec_raises h with ⟨I, _, hr, _⟩ | ⟨_, _, _, rfl, _⟩
  · cases I with
    | IInstruction IT =>
      cases IT with
      | ecall =>
        injection hr with hr
        exact .inr (.inr (.inr (hr ▸ hecall _)))
      | ebreak =>
        injection hr with hr
        exact .inl hr.symm
      | ext =>
        injection hr with hr
        exact .inr (.inl hr.symm)
      | extx =>
        injection hr with hr
        exact .inr (.inr (.inl hr.symm))
      | _ => exact nomatch hr
    | _ => exact nomatch hr
  · exact .inr (.inr (.inr rfl))

/-- **How `handleException` returns**: the end of the run, the epilogue, or a trap
entry. -/
theorem handleException_ok {S D : RIPSimulator σ} {E : Exception} {goesOn : Bool}
    (hE : E = .Breakpoint ∨ E = .R0 ∨ E = .R1 ∨ isTrap E = true)
    (h : S.handleException E = .ok (goesOn, D)) :
    ((E = .Breakpoint ∨ E = .R0) ∧ goesOn = false ∧ D = S.squashed) ∨
    (E = .R1 ∧ goesOn = true ∧ D = { S.squashed with Mode := .Epilogue }) ∨
    (isTrap E = true ∧ S.Mode = .Machine ∧ goesOn = true ∧ D = S.squashed.trapped E) := by
  rcases hE with rfl | rfl | rfl | hE
  · injection h with h
    injection h with h1 h2
    exact .inl ⟨.inl rfl, h1.symm, h2.symm⟩
  · injection h with h
    injection h with h1 h2
    exact .inl ⟨.inr rfl, h1.symm, h2.symm⟩
  · injection h with h
    injection h with h1 h2
    exact .inr (.inl ⟨rfl, h1.symm, h2.symm⟩)
  · have h1 : E ≠ .Breakpoint := by rintro rfl; exact Bool.false_ne_true hE
    have h2 : E ≠ .R0 := by rintro rfl; exact Bool.false_ne_true hE
    have h3 : E ≠ .R1 := by rintro rfl; exact Bool.false_ne_true hE
    unfold handleException at h
    rw [if_neg h1, if_neg h2, if_neg h3] at h
    by_cases hm : S.Mode = .Machine
    · rw [if_pos hm] at h
      change (S.squashed.trapEntry E >>= _) = _ at h
      rw [trapEntry_eq _ hE] at h
      injection h with h
      injection h with h4 h5
      exact .inr (.inr ⟨hE, hm, h4.symm, h5.symm⟩)
    · rw [if_neg hm] at h
      exact nomatch h

/-! ## A cycle -/

theorem isEmpty_insts {PS : PipelineStates} (h : PS.isEmpty = true) :
    PS.Insts = Staged.const none := by
  unfold PipelineStates.isEmpty at h
  simp only [Bool.and_eq_true, Option.isNone_iff_eq_none] at h
  ext1
  · exact h.1.1.1.1
  · exact h.1.1.1.2
  · exact h.1.1.2
  · exact h.1.2
  · exact h.2

/-- The states a cycle of a nonempty pipeline goes through: `A` after the fetch, `B`
after write back and memory access, `M` after `exec`, which returned `E`. -/
structure Through [BranchPredictor σ] (S A B M : RIPSimulator σ) (E : Option Exception) :
    Prop where
  advance : S.advance = .ok A
  nonempty : A.PS.isEmpty = false
  access : A.written.memoryaccess = .ok B
  exec : B.exec = .ok (E, M)

/-- A cycle goes through its states in one way. -/
theorem Through.unique [BranchPredictor σ] {S A B M A' B' M' : RIPSimulator σ}
    {E E' : Option Exception} (h' : Through S A' B' M' E') (h : Through S A B M E) :
    A' = A ∧ B' = B ∧ M' = M ∧ E' = E := by
  obtain rfl : A' = A := Except.ok.inj (h'.advance.symm.trans h.advance)
  obtain rfl : B' = B := Except.ok.inj (h'.access.symm.trans h.access)
  obtain ⟨hE, hM⟩ := Prod.mk.inj (Except.ok.inj (h'.exec.symm.trans h.exec))
  exact ⟨rfl, rfl, hM, hE⟩

/-- **A cycle, taken apart.** -/
theorem cycle_ok [BranchPredictor σ] {S S' : RIPSimulator σ} {x : Exit}
    (h : S.cycle = .ok (x, S')) :
    (x = .empty ∧ S.advance = .ok S' ∧ S'.PS.isEmpty = true) ∨
    ∃ A B M E, Through S A B M E ∧
      ((E = none ∧ x = .next ∧ S' = M.decoded.redirect.finish) ∨
       (∃ e D, E = some e ∧ M.decoded.handleException e = .ok (true, D) ∧
          x = .next ∧ S' = D.redirect.finish) ∨
       (∃ e, E = some e ∧ M.decoded.handleException e = .ok (false, S') ∧ x = .stop)) := by
  unfold cycle at h
  cases hA : S.advance with
  | error e => rw [hA] at h; exact nomatch h
  | ok A =>
    rw [hA] at h
    simp only [bind, Except.bind] at h
    cases hemp : A.PS.isEmpty with
    | true =>
      rw [hemp] at h
      injection h with h
      injection h with h1 h2
      exact .inl ⟨h1.symm, h2 ▸ rfl, h2 ▸ hemp⟩
    | false =>
      right
      rw [hemp, if_neg Bool.false_ne_true, stages, writeback_eq] at h
      simp only [bind, Except.bind] at h
      cases hB : A.written.memoryaccess with
      | error e => rw [hB] at h; exact nomatch h
      | ok B =>
        rw [hB] at h
        simp only at h
        cases hM : B.exec with
        | error e => rw [hM] at h; exact nomatch h
        | ok p =>
          obtain ⟨E, M⟩ := p
          rw [hM] at h
          simp only [decode_eq, pure, Except.pure] at h
          refine ⟨A, B, M, E, ⟨hA, hemp, hB, hM⟩, ?_⟩
          cases E with
          | none =>
            injection h with h
            injection h with h1 h2
            exact .inl ⟨rfl, h1.symm, h2.symm⟩
          | some e =>
            right
            simp only at h
            cases hD : M.decoded.handleException e with
            | error e' => rw [hD] at h; exact nomatch h
            | ok q =>
              obtain ⟨goesOn, D⟩ := q
              rw [hD] at h
              simp only at h
              cases goesOn with
              | true =>
                injection h with h
                injection h with h1 h2
                exact .inl ⟨e, D, rfl, hD, h1.symm, h2.symm⟩
              | false =>
                injection h with h
                injection h with h1 h2
                exact .inr ⟨e, rfl, h2 ▸ hD, h1.symm⟩

/-- A cycle that goes through these states without an exception. -/
theorem Through.cycle_none [BranchPredictor σ] {S A B M : RIPSimulator σ}
    (h : Through S A B M none) : S.cycle = .ok (.next, M.decoded.redirect.finish) := by
  unfold cycle stages
  simp only [h.advance, h.nonempty, writeback_eq, h.access, h.exec, decode_eq, bind, Except.bind,
    pure, Except.pure, Bool.false_eq_true, if_false]

end RIPSimulator

end RipSim
