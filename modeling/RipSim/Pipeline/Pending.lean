import RipSim.Pipeline.Reachable

/-!
# CSR writes in flight

A csr instruction computes its new value in EX and writes it two stages later.
`olderStates S` is what the CSRs will be once the instructions in EX and MA have
written theirs: what an instruction about to enter EX should see.

The file ties this to the code.  `Latched` is the invariant that the address and
the value travel with the instruction; `Through.states` says that the write back
of the next cycle performs the older of the two writes, and `Through.forwarded`
that looking at MA first, as `mret` and the trap entry do, finds the younger one.
-/

namespace RipSim

/-- A csr instruction's address is the low part of its immediate. -/
theorem Instruction.csrAddr_immVal {I : Instruction} (h : I.isCSR = true) :
    (I.immVal &&& 0xfff#32).setWidth 12 = I.csrAddr := by
  cases I with
  | IInstruction IT Rd Rs1 Imm =>
    change (Imm.signExtend 32 &&& 0xfff#32).setWidth 12 = Imm
    apply BitVec.eq_of_getLsbD_eq
    intro i hi
    rw [BitVec.getLsbD_setWidth, decide_eq_true hi, Bool.true_and, BitVec.getLsbD_and,
      BitVec.getLsbD_signExtend, if_pos hi, decide_eq_true (by omega), Bool.true_and]
    have hm : ∀ i < 12, (0xfff#32).getLsbD i = true := by decide
    rw [hm i hi, Bool.and_true]
  | _ => exact absurd h Bool.false_ne_true

namespace RIPSimulator

variable {σ : Type}

/-! ## What is pending -/

/-- The CSRs once the instruction `I` of a stage has written `v`, if it is a csr
instruction. -/
def csrWrite (States : CSRs) (I : Option Instruction) (v : RegVal) : CSRs :=
  match I with
  | none => States
  | some I => if I.isCSR then States.write I.csrAddr v else States

/-- The CSRs once the instruction in MA has written back. -/
def drainMA (S : RIPSimulator σ) : CSRs := csrWrite S.States S.PS.Insts.MA S.PS.MACSRVal

/-- The CSRs once the instructions in MA and EX have written back. -/
def olderStates (S : RIPSimulator σ) : CSRs := csrWrite S.drainMA S.PS.Insts.EX S.PS.EXCSRVal

theorem csrWrite_apply (States : CSRs) (I : Option Instruction) (v : RegVal) (a : CSRAddress) :
    csrWrite States I v a = if csrIs I a then v else States a := by
  cases I with
  | none => rfl
  | some I =>
    change (if I.isCSR then States.write I.csrAddr v else States) a = _
    by_cases hI : I.isCSR = true
    · by_cases ha : a = I.csrAddr
      · have hc : csrIs (some I) a = true := by simp [csrIs, hI, ha]
        rw [if_pos hI, hc, if_pos rfl, ha, CSRs.write_self]
      · have hc : csrIs (some I) a = false := by simp [csrIs, ha]
        rw [if_pos hI, hc, if_neg Bool.false_ne_true, CSRs.write_of_ne _ ha]
    · have hc : csrIs (some I) a = false := by simp [csrIs, hI]
      rw [if_neg hI, hc, if_neg Bool.false_ne_true]

/-! ## The latches travel with the instruction -/

/-- The immediate of a decoded instruction, which for a csr instruction is the
address of its write, goes down the pipeline with it. -/
structure Latched (S : RIPSimulator σ) : Prop where
  DE : S.PS.StalledStages.IF = false → ∀ I, S.PS.Insts.DE = some I → S.PS.DEImmVal = I.immVal
  EX : ∀ I, S.PS.Insts.EX = some I → I.isCSR = true → S.PS.EXImmVal = I.immVal
  MA : ∀ I, S.PS.Insts.MA = some I → I.isCSR = true → S.PS.MAImmVal = I.immVal

theorem Started.latched {S : RIPSimulator σ} (h : Started S) : Latched S := by
  obtain ⟨d, P, hPS⟩ := h.PS
  constructor <;> rw [hPS]
  · intro _ I hI
    exact nomatch hI
  · intro I hI
    exact nomatch hI
  · intro I hI
    exact nomatch hI

/-- The instructions after the fetch, and the latches they find. -/
theorem Clean.advance_insts {S A : RIPSimulator σ} (hc : Clean S) (h : S.advance = .ok A) :
    A.PS.Insts.WB = S.PS.Insts.MA ∧ A.PS.Insts.MA = S.PS.Insts.EX ∧
    A.PS.MAImmVal = S.PS.MAImmVal ∧ A.PS.MACSRVal = S.PS.MACSRVal ∧
    A.PS.MARdVal = S.PS.MARdVal := by
  rcases advance_ok h with ⟨hs, rfl⟩ | ⟨hs, w, _, rfl⟩
  · rw [(hc.shifted_insts hs).1]
    exact ⟨rfl, rfl, rfl, rfl, rfl⟩
  · rw [(hc.fetched_insts hs w).1]
    exact ⟨rfl, rfl, rfl, rfl, rfl⟩

theorem Clean.advance_PCs {S A : RIPSimulator σ} (hc : Clean S) (h : S.advance = .ok A) :
    A.PS.PCs.WB = S.PS.PCs.MA ∧ A.PS.PCs.MA = S.PS.PCs.EX := by
  rcases advance_ok h with ⟨hs, rfl⟩ | ⟨hs, w, _, rfl⟩
  · rw [(hc.shifted_insts hs).2]
    exact ⟨rfl, rfl⟩
  · rw [(hc.fetched_insts hs w).2]
    exact ⟨rfl, rfl⟩

theorem finish_States (S : RIPSimulator σ) : S.redirect.finish.States = S.States.incCYCLE := by
  rw [redirect_eq]
  rfl

variable [BranchPredictor σ]

/-- What `exec` latches for a plain instruction that entered EX. -/
theorem Through.executed {S A B M : RIPSimulator σ} {E : Option Exception}
    (h : Through S A B M E) {I : Instruction} (hI : A.PS.Insts.EX = some I)
    (hp : I.isPlain = true) : E = none ∧ M = B.executed I := by
  have hf := memoryaccess_frame h.access
  obtain ⟨_, _, _, _, _, _, _, hPS⟩ := A.written_frame
  have hEX : B.PS.Insts.EX = some I := by rw [hf.Insts, hPS, ← hI]
  have heq := (exec_eq B hEX hp).symm.trans h.exec
  injection heq with heq
  injection heq with h1 h2
  exact ⟨h1.symm, h2.symm⟩

theorem Latched.next {S S' : RIPSimulator σ} (hl : Latched S) (hc : Clean S) (h : Next S S') :
    Latched S' := by
  obtain ⟨A, B, M, E, D, ht, hD, rfl⟩ := h.through
  have hA := hc.advance ht.advance
  have hins := ht.filled hA hD
  obtain ⟨_, hMA, _⟩ := hc.advance_insts ht.advance
  obtain ⟨_, _, _, hDEImm, _, _, _, hEXImm⟩ := ht.latches
  refine ⟨?_, ?_, ?_⟩
  · intro hs I hI
    obtain ⟨-, -, hMD⟩ := ht.decoding hA hD hs hI
    rw [hD.end_PS, hMD]
    rfl
  · intro I hI hcsr
    rw [hins] at hI
    obtain ⟨rfl, rfl⟩ := ht.executed hI (Instruction.isPlain_of_isCSR hcsr)
    obtain ⟨hs, hDE, _⟩ := hc.advance_EX ht.advance hI
    rw [hD.end_PS]
    change B.PS.DEImmVal = _
    rw [hDEImm]
    exact hl.DE hs I hDE
  · intro I hI hcsr
    rw [hins] at hI
    have hMA' : A.written.PS.Insts.MA = some I := by
      obtain ⟨_, _, _, _, _, _, _, hwPS⟩ := A.written_frame
      rw [hwPS]
      exact hI
    rw [hD.end_PS]
    change M.PS.MAImmVal = _
    rw [(exec_frame ht.exec).MAImmVal, (memoryaccess_latch hMA' ht.access).2, hEXImm]
    exact hl.EX I (hMA ▸ hI) hcsr

theorem Reachable.latched {S : RIPSimulator σ} (h : Reachable S) : Latched S := by
  obtain ⟨S₀, h₀, hr⟩ := h
  exact (hr.invariant (p := fun S => Clean S ∧ Latched S) ⟨h₀.clean, h₀.latched⟩
    fun _ _ hc hn => ⟨hc.1.next hn, hc.2.next hc.1 hn⟩).2

/-! ## What the next cycle sees -/

/-- Write back performs the older write. -/
theorem Through.states {S A B M : RIPSimulator σ} {E : Option Exception} (h : Through S A B M E)
    (hc : Clean S) (hl : Latched S) : B.States = S.drainMA := by
  obtain ⟨_, hst, _⟩ := advance_frame h.advance
  obtain ⟨hWB, _, himm, hcsr, _⟩ := hc.advance_insts h.advance
  rw [(memoryaccess_frame h.access).States]
  unfold written drainMA csrWrite
  rw [hWB, hst]
  cases hI : S.PS.Insts.MA with
  | none => exact hst
  | some I =>
    dsimp only
    cases hI' : I.isCSR with
    | false => rfl
    | true => rw [himm, hcsr, hl.MA I hI hI', Instruction.csrAddr_immVal hI']

/-- The younger write is then in MA. -/
theorem Through.forwarded {S A B M : RIPSimulator σ} {E : Option Exception}
    (h : Through S A B M E) (hc : Clean S) (hl : Latched S) (a : CSRAddress) :
    (if csrIs B.PS.Insts.MA a then B.PS.MACSRVal else B.States.read a) = S.olderStates a := by
  obtain ⟨_, hMA, _⟩ := hc.advance_insts h.advance
  obtain ⟨_, _, _, _, _, _, _, hwPS⟩ := A.written_frame
  have hBMA : B.PS.Insts.MA = S.PS.Insts.EX := by
    rw [(memoryaccess_frame h.access).Insts, hwPS, ← hMA]
  unfold olderStates
  rw [csrWrite_apply, hBMA, CSRs.read, h.states hc hl]
  cases hI : S.PS.Insts.EX with
  | none => rfl
  | some I =>
    have hA' : A.written.PS.Insts.MA = some I := by
      rw [hwPS]
      exact hMA.trans hI
    obtain ⟨_, _, _, _, _, _, hEXCSR, _⟩ := h.latches
    rw [(memoryaccess_latch hA' h.access).1, hEXCSR]

theorem decoded_MACSRVal (S : RIPSimulator σ) : S.decoded.PS.MACSRVal = S.PS.MACSRVal := by
  rw [decoded_PS]

/-- The csr instruction in EX is in MA after the next cycle, with its value. -/
theorem Next.csr_moves {S S' : RIPSimulator σ} (hc : Clean S) (hn : Next S S') :
    S'.PS.Insts.MA = S.PS.Insts.EX ∧
      ∀ I, S.PS.Insts.EX = some I → S'.PS.MACSRVal = S.PS.EXCSRVal := by
  obtain ⟨A, B, M, E, D, ht, hD, rfl⟩ := hn.through
  obtain ⟨_, hMA, _⟩ := hc.advance_insts ht.advance
  refine ⟨by rw [ht.filled (hc.advance ht.advance) hD]; exact hMA, ?_⟩
  intro I hI
  obtain ⟨_, _, _, _, _, _, _, hwPS⟩ := A.written_frame
  obtain ⟨_, _, _, _, _, _, hEXCSR, _⟩ := ht.latches
  have hA' : A.written.PS.Insts.MA = some I := by
    rw [hwPS]
    exact hMA.trans hI
  rw [hD.end_PS]
  change M.PS.MACSRVal = _
  rw [(exec_frame ht.exec).MACSRVal, (memoryaccess_latch hA' ht.access).1, hEXCSR]

/-- A bubble executes nothing. -/
theorem Through.bubble {S A B M : RIPSimulator σ} {E : Option Exception}
    (ht : Through S A B M E) (hI : A.PS.Insts.EX = none) : E = none ∧ M = B := by
  obtain ⟨_, _, _, _, _, _, _, hPS⟩ := A.written_frame
  have hEX : B.PS.Insts.EX = none := by rw [(memoryaccess_frame ht.access).Insts, hPS, ← hI]
  have hx := ht.exec
  unfold RIPSimulator.exec at hx
  rw [hEX] at hx
  injection hx with hx
  injection hx with h1 h2
  exact ⟨h1.symm, h2.symm⟩

/-- In a cycle that executes nothing, write back alone changes the CSRs. -/
theorem Next.states_of_bubble {S S' : RIPSimulator σ} (hc : Clean S) (hl : Latched S)
    (he : S.entering = none) (hn : Next S S') : S'.States = S.drainMA.incCYCLE := by
  obtain ⟨A, B, M, E, D, ht, hD, rfl⟩ := hn.through
  obtain ⟨rfl, rfl⟩ := ht.bubble ((hc.advance_entering ht.advance).trans he)
  cases hD
  obtain ⟨_, _, _, _, hdst, _⟩ := M.decoded_frame
  rw [finish_States, hdst, ht.states hc hl]

end RIPSimulator

end RipSim
