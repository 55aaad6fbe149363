import RipSim.Pipeline.Issue
import RipSim.Refinement.BackEnd

/-!
# An instruction on its way through the pipeline

What becomes of an instruction in the three cycles after its decoding, whatever else is in
flight: the value `exec` latches for it, what memory access makes of that value, and what
is written to the registers.
-/

namespace RipSim

namespace RIPSimulator

variable {σ : Type} [BranchPredictor σ]

/-- What a cycle writes to the registers. -/
theorem Next.registers {S S' : RIPSimulator σ} (hc : Clean S) (hn : Next S S') :
    S'.GPRegs = match S.PS.Insts.MA with
      | none => S.GPRegs
      | some I => if I.hasRd then S.GPRegs.write I.rd S.PS.MARdVal else S.GPRegs := by
  obtain ⟨A, B, M, E, D, ht, hD, rfl⟩ := hn.through
  obtain ⟨_, _, _, _, hGA, _⟩ := advance_frame ht.advance
  obtain ⟨hWB, _, _, _, hRd⟩ := hc.advance_insts ht.advance
  have hD' : D.GPRegs = A.written.GPRegs := by
    have hB := (memoryaccess_frame ht.access).GPRegs
    rw [← hB, ← (exec_frame ht.exec).GPRegs]
    obtain ⟨_, _, _, _, _, hdG, _⟩ := M.decoded_frame
    rw [← hdG]
    cases hD <;> rfl
  rw [redirect_eq]
  show D.GPRegs = _
  rw [hD', written, hWB]
  cases S.PS.Insts.MA with
  | none => exact hGA
  | some I =>
    show (if I.hasRd then A.GPRegs.write I.rd A.PS.MARdVal else A.GPRegs) = _
    rw [hGA, hRd]

/-- What `exec` latches for a plain instruction, at the end of its cycle. -/
theorem Next.executed {S S₁ : RIPSimulator σ} {I : Instruction} (hc : Clean S) (hn : Next S S₁)
    (hI : S.entering = some I) (hp : I.isPlain = true) :
    S₁.PS.Insts.EX = some I ∧
      S₁.PS.EXRdVal =
        I.exRd S.PS.PCs.DE S.PS.DERs1Val S.PS.DERs2Val S.PS.DECSRVal S.PS.DEImmVal ∧
      S₁.PS.EXCSRVal = I.exCSR S.PS.DERs1Val S.PS.DECSRVal ∧
      (I.isSType = true → S₁.PS.EXRs2Val = S.PS.DERs2Val) := by
  obtain ⟨A, B, M, E, D, ht, hD, hS⟩ := hn.through
  have hAI : A.PS.Insts.EX = some I := (hc.advance_entering ht.advance).trans hI
  obtain ⟨rfl, hM⟩ := ht.executed hAI hp
  cases hD
  obtain ⟨h1, h2, h3, h4, _⟩ := ht.latches
  obtain ⟨_, _, hEX, hEXC, hRs2⟩ := cycle_latches M
  refine ⟨(Next.backEnd hc hn).2.2.2.2.trans hI, ?_, ?_, fun hs => ?_⟩
  · rw [hS, hEX, hM]
    show I.exRd B.PS.PCs.EX B.PS.DERs1Val B.PS.DERs2Val B.PS.DECSRVal B.PS.DEImmVal = _
    rw [ht.PC_EX hc hAI, h1, h2, h3, h4]
  · rw [hS, hEXC, hM]
    show I.exCSR B.PS.DERs1Val B.PS.DECSRVal = _
    rw [h1, h3]
  · rw [hS, hRs2, hM]
    exact (if_pos hs).trans h2

/-- What is neither a load nor a store takes its value through MA. -/
theorem Next.passes {S S' : RIPSimulator σ} {I : Instruction} (hc : Clean S) (hn : Next S S')
    (hI : S.PS.Insts.EX = some I) (hl : I.isLoad = false) (hs : I.isSType = false) :
    S'.PS.MARdVal = S.PS.EXRdVal := by
  obtain ⟨A, B, M, E, D, ht, hD, rfl⟩ := hn.through
  obtain ⟨_, hMA, _⟩ := hc.advance_insts ht.advance
  obtain ⟨_, _, _, _, hEX, _⟩ := ht.latches
  obtain ⟨_, _, _, _, _, _, _, hwPS⟩ := A.written_frame
  have hA : A.written.PS.Insts.MA = some I := by
    rw [hwPS]
    exact hMA.trans hI
  have hB : B.PS.MARdVal = A.written.PS.EXRdVal := by
    rw [memoryaccess_MARdVal hA ht.access, accessResult, access_of_other _ _ _ hl hs]
    simp
  rw [hD.end_PS, ← hEX, ← hB]
  exact (exec_frame ht.exec).MARdVal

end RIPSimulator

end RipSim
