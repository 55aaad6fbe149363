import RipSim.Pipeline.Trace

/-!
# What an instruction enters EX with

The instruction that the next cycle takes to EX has been decoded in the cycle just ended:
a stall would have held it back and a squash would have removed it.  So its operands are
those that `decode` has latched, and a branch that was predicted taken has sent the fetch
to its target.
-/

namespace RipSim

namespace RIPSimulator

variable {σ : Type}

/-- The value of register `r` for an instruction in DE: the youngest one in flight, else
the register.  Register 0 is no exception: a source `x0` takes the result that is forwarded
from an instruction with destination `x0`, as `forwardRs1OnDE` and `forwardRs2OnDE` do. -/
def newest (S : RIPSimulator σ) (r : BitVec 5) : RegVal := (fwd S.PS r).getD (S.GPRegs r)

variable [BranchPredictor σ] {S₀ S : RIPSimulator σ} {I : Instruction}

/-- **The cycle that decodes** the instruction about to enter EX. -/
theorem Next.decodes (hc : Clean S₀) (hn : Next S₀ S) (hI : S.entering = some I) :
    ∃ A B M, Through S₀ A B M none ∧ S = M.decoded.redirect.finish ∧
      M.PS.Insts.DE = some I ∧ S.PS.Insts = { M.PS.Insts with IF := S.PS.Insts.IF } ∧
      M.PS.InvalidStages.DE = false ∧
      M.decoded = { M with BP := M.predicted I, PS := M.decodedPS I } := by
  obtain ⟨A, B, M, E, D, ht, hD, hS, _, hins⟩ := Next.moved hc hn
  have hs := moving_of_entering hI
  rw [entering_of_moving hs] at hI
  rw [hS] at hs
  obtain ⟨hk, hMDE, hMD⟩ := ht.decoding (hc.advance ht.advance) hD hs (hS ▸ hI)
  rw [hk, if_neg Bool.false_ne_true] at hins
  -- no exception has been raised, so the state at the end of the cycle is what `decode` left
  unfold kills at hk
  rw [Bool.or_eq_false_iff, Option.isSome_eq_false_iff, Option.isNone_iff_eq_none] at hk
  obtain ⟨rfl, hinv⟩ := hk
  cases hD
  refine ⟨A, B, M, ht, hS, hMDE, ?_, hinv, hMD⟩
  rw [hins, ht.insts.1]

/-- The operands of the instruction about to enter EX: registers and CSRs as the older
instructions leave them, the CSRs without the increment that ends the cycle. -/
theorem Next.operands (hc : Clean S₀) (hn : Next S₀ S) (hI : S.entering = some I) :
    (I.hasRs1 = true → isCSRImm I = false → S.PS.DERs1Val = S.newest I.rs1) ∧
    (isCSRImm I = true → S.PS.DERs1Val = I.rs1.setWidth 32) ∧
    (I.hasRs2 = true → S.PS.DERs2Val = S.newest I.rs2) ∧
    S.PS.DEImmVal = I.immVal ∧
    ∃ States : CSRs, S.States = States.incCYCLE ∧
      (I.isCSR = true → S.PS.DECSRVal = { S with States := States }.olderStates I.csrAddr) := by
  obtain ⟨A, B, M, -, hS, -, hins, -, hdec⟩ := hn.decodes hc hI
  have hPS : S.PS.EXRdVal = M.PS.EXRdVal ∧ S.PS.MARdVal = M.PS.MARdVal ∧
      S.PS.EXCSRVal = M.PS.EXCSRVal ∧ S.PS.MACSRVal = M.PS.MACSRVal ∧ S.GPRegs = M.GPRegs ∧
      S.States = M.States.incCYCLE := by
    rw [hS, redirect_eq, hdec]
    exact ⟨rfl, rfl, rfl, rfl, rfl, rfl⟩
  obtain ⟨hEX, hMA, hEXC, hMAC, hGP, hSt⟩ := hPS
  have hnew : ∀ r, S.newest r = (fwd M.PS r).getD (M.GPRegs r) := by
    intro r
    unfold newest fwd
    rw [hins, hEX, hMA, hGP]
  have hop : S.PS.DERs1Val = M.operand1 I ∧ S.PS.DERs2Val = M.operand2 I ∧
      S.PS.DECSRVal = M.operandCSR I ∧ S.PS.DEImmVal = I.immVal := by
    rw [hS, redirect_eq, hdec]
    exact ⟨rfl, rfl, rfl, rfl⟩
  obtain ⟨h1, h2, h3, h4⟩ := hop
  refine ⟨fun hr hi => ?_, fun hi => ?_, fun hr => ?_, h4, M.States, hSt, fun hcsr => ?_⟩
  · rw [h1, hnew, operand1, hi, if_neg Bool.false_ne_true, if_pos hr]
  · rw [h1, operand1, if_pos hi]
  · rw [h2, hnew, operand2, if_pos hr]
  · rw [h3, operandCSR, if_pos hcsr, olderStates, csrWrite_apply, drainMA, csrWrite_apply]
    show (fwdCSR M.PS I.csrAddr).getD (M.States I.csrAddr) =
      if csrIs S.PS.Insts.EX I.csrAddr then S.PS.EXCSRVal
      else if csrIs S.PS.Insts.MA I.csrAddr then S.PS.MACSRVal else M.States I.csrAddr
    unfold fwdCSR
    rw [hins, hEXC, hMAC]
    dsimp only
    split_ifs <;> rfl

end RIPSimulator

end RipSim
