import RipSim.Refinement.BackEnd

/-!
# Forwarded operands

An instruction in DE reads its operands while two older ones are still in flight.
`BackEnd.reg` and `BackEnd.csr` say that looking at EX first, then at MA, then at the
register, finds the value after both.  Two things stand in the way of the first:
what EX holds for a load is an address, and a result for `x0` is not zero.  The
load-use stall takes care of the one, the domain of the comparison of the other.
-/

namespace RipSim

open RIPSimulator

/-- One instruction, seen by a reader of register `r` who prefers `v` over the register
if the instruction writes `r`. -/
theorem Effect.reg {I : Instruction} {h h' : Hart} (he : Effect I h h') {r : BitVec 5} {v : RegVal}
    (hv : rdIs (some I) r = true → v = h.result I)
    (hz : r = 0 → rdIs (some I) r = true → h.result I = 0) :
    h'.GPRegs r = if rdIs (some I) r then v else h.GPRegs r := by
  rw [he.GPRegs]
  cases hr : rdIs (some I) r with
  | false =>
    rw [if_neg Bool.false_ne_true]
    cases hrd : I.hasRd with
    | false => rw [if_neg Bool.false_ne_true]
    | true =>
      rw [if_pos rfl, GPRegisters.write_apply_of_ne]
      rintro rfl
      simp [rdIs, hrd] at hr
  | true =>
    have hrd : I.hasRd = true ∧ r = I.rd := by simpa [rdIs] using hr
    rw [if_pos rfl, hrd.1, if_pos rfl, hv hr, hrd.2]
    by_cases h0 : I.rd = 0
    · rw [hz (hrd.2.trans h0) hr, h0]
      exact (h.GPRegs.write 0 0).apply_zero
    · exact GPRegisters.write_apply_self _ h0 _

namespace RIPSimulator

variable {σ : Type} {h : Hart} {N : ℕ∞} {c : ℕ} {S : RIPSimulator σ}

/-- No result in flight for `x0` differs from zero. -/
structure ZeroQuiet (h : Hart) (c : ℕ) (S : RIPSimulator σ) : Prop where
  EX : ∀ I, S.PS.Insts.EX = some I → rdIs (some I) 0 = true →
    (h.after (S.accessed c)).result I = 0
  MA : ∀ I, S.PS.Insts.MA = some I → rdIs (some I) 0 = true → (h.after c).result I = 0

/-- **The register a reader in DE sees** is that of the state after EX. -/
theorem BackEnd.reg (hb : BackEnd h c S) (hN : (S.issued c : ℕ∞) ≤ N) (hd : Regular h N)
    {r : BitVec 5} (hl : ∀ I, S.PS.Insts.EX = some I → I.isLoad = true → I.rd ≠ r)
    (hz : r = 0 → ZeroQuiet h c S) :
    (fwd S.PS r).getD (S.GPRegs r) = (h.after (S.issued c)).GPRegs r := by
  have hMA : (h.after (S.accessed c)).GPRegs r =
      if rdIs S.PS.Insts.MA r then S.PS.MARdVal else S.GPRegs r := by
    unfold accessed
    rw [hb.GPRegs]
    cases hI : S.PS.Insts.MA with
    | none => rfl
    | some I =>
      refine (hb.effect_MA hN hd hI).reg (fun _ => (hb.MA I hI).result) ?_
      rintro rfl hr
      exact (hz rfl).MA I hI hr
  have hEX : (h.after (S.issued c)).GPRegs r =
      if rdIs S.PS.Insts.EX r then S.PS.EXRdVal else (h.after (S.accessed c)).GPRegs r := by
    rw [issued_eq]
    cases hI : S.PS.Insts.EX with
    | none => rfl
    | some I =>
      refine (hb.effect_EX hN hd hI).reg ?_ ?_
      · intro hr
        have hrd : I.hasRd = true ∧ r = I.rd := by simpa [rdIs] using hr
        have hnl : I.isLoad = false := by
          by_contra hload
          exact hl I hI (by simpa using hload) hrd.2.symm
        rw [(hb.EX I hI).value, Instruction.result_of_not_isLoad _ hnl hrd.1]
      · rintro rfl hr
        exact (hz rfl).EX I hI hr
  rw [hEX, hMA]
  unfold fwd
  cases rdIs S.PS.Insts.EX r <;> cases rdIs S.PS.Insts.MA r <;> rfl

/-- **The CSR a reader in DE sees** is that of the state after EX. -/
theorem BackEnd.csr (hb : BackEnd h c S) (hN : (S.issued c : ℕ∞) ≤ N) (hd : Regular h N)
    {a : CSRAddress} (ha : a ∉ counters) :
    (fwdCSR S.PS a).getD (S.States a) = (h.after (S.issued c)).States a := by
  have hMA : (h.after (S.accessed c)).States a =
      if csrIs S.PS.Insts.MA a then S.PS.MACSRVal else S.States a := by
    unfold accessed
    rw [hb.States a ha]
    cases hI : S.PS.Insts.MA with
    | none => rfl
    | some I =>
      rw [occ_some, (hb.effect_MA hN hd hI).States, csrWrite_apply, (hb.MA I hI).csr]
  have hEX : (h.after (S.issued c)).States a =
      if csrIs S.PS.Insts.EX a then S.PS.EXCSRVal else (h.after (S.accessed c)).States a := by
    rw [issued_eq]
    cases hI : S.PS.Insts.EX with
    | none => rfl
    | some I =>
      rw [occ_some, (hb.effect_EX hN hd hI).States, csrWrite_apply, (hb.EX I hI).csr]
  rw [hEX, hMA]
  unfold fwdCSR
  cases csrIs S.PS.Insts.EX a <;> cases csrIs S.PS.Insts.MA a <;> rfl

/-- What `decode` latches for the instruction `I` in DE, from the state `T` at the end
of the same cycle. -/
theorem decoded_operands [BranchPredictor σ] {M T : RIPSimulator σ} {I : Instruction}
    (hT : T = M.decoded.redirect.finish) (hins : T.PS.Insts.EX = M.PS.Insts.EX)
    (hins' : T.PS.Insts.MA = M.PS.Insts.MA) (hI : M.PS.Insts.DE = some I)
    (hs : M.PS.StalledStages.DE = false) (ha : I.isCSR = true → I.csrAddr ≠ CYCLE) :
    (I.hasRs1 = true → T.PS.DERs1Val = if isCSRImm I then I.rs1.setWidth 32
      else (fwd T.PS I.rs1).getD (T.GPRegs I.rs1)) ∧
    (I.hasRs2 = true → T.PS.DERs2Val = (fwd T.PS I.rs2).getD (T.GPRegs I.rs2)) ∧
    (I.isCSR = true → T.PS.DECSRVal = (fwdCSR T.PS I.csrAddr).getD (T.States I.csrAddr)) := by
  obtain ⟨hlMA, hlMAC, hlEX, hlEXC, _⟩ := cycle_latches M
  obtain ⟨hGP, _, _, _, _, hSt⟩ := cycle_frame M
  rw [← hT] at hlMA hlMAC hlEX hlEXC hGP hSt
  have hfwd : ∀ r, fwd T.PS r = fwd M.PS r := by
    intro r
    unfold fwd
    rw [hins, hins', hlMA, hlEX]
  have hfwdC : fwdCSR T.PS I.csrAddr = fwdCSR M.PS I.csrAddr := by
    unfold fwdCSR
    rw [hins, hins', hlMAC, hlEXC]
  have hdec : T.PS.DERs1Val = M.operand1 I ∧ T.PS.DERs2Val = M.operand2 I ∧
      T.PS.DECSRVal = M.operandCSR I := by
    rw [hT, redirect_eq]
    change M.decoded.PS.DERs1Val = _ ∧ M.decoded.PS.DERs2Val = _ ∧ M.decoded.PS.DECSRVal = _
    unfold decoded
    rw [hI]
    simp only [hs, Bool.false_eq_true, if_false]
    exact ⟨rfl, rfl, rfl⟩
  refine ⟨?_, ?_, ?_⟩
  · intro h1
    rw [hdec.1, hfwd, hGP, operand1, h1, if_pos rfl]
  · intro h2
    rw [hdec.2.1, hfwd, hGP, operand2, h2, if_pos rfl]
  · intro h3
    rw [hdec.2.2, hfwdC, hSt, operandCSR, h3, if_pos rfl, CSRs.incCYCLE,
      CSRs.inc_of_ne _ (ha h3)]
    rfl

end RIPSimulator

end RipSim
