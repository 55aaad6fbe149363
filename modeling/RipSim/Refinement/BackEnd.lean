import RipSim.Refinement.Invariant
import RipSim.Pipeline.Counters

/-!
# The back end keeps up

The stages behind DE perform the effects of the run in order.  Write back brings
the registers from state `c` to state `S.accessed c`, memory access brings the
memory from there to state `S.issued c`, and execution computes the value of the
instruction that has been waiting in DE.

`Inv.through` says that none of this can fail, and `Inv.backEnd` that the back end
of the next state is as it should be.
-/

namespace RipSim

namespace RIPSimulator

variable {σ : Type}

/-! ## The access stage -/

theorem access_congr {I : Instruction} {M : Memory} {a r r' : RegVal}
    (h : I.isSType = true → r = r') : access M I a r = access M I a r' := by
  cases I with
  | SInstruction =>
    obtain rfl := h rfl
    rfl
  | IInstruction IT => cases IT <;> rfl
  | _ => rfl

/-- The latches that neither `decode` nor the end of a cycle touches. -/
theorem cycle_latches [BranchPredictor σ] (M : RIPSimulator σ) :
    M.decoded.redirect.finish.PS.MARdVal = M.PS.MARdVal ∧
    M.decoded.redirect.finish.PS.MACSRVal = M.PS.MACSRVal ∧
    M.decoded.redirect.finish.PS.EXRdVal = M.PS.EXRdVal ∧
    M.decoded.redirect.finish.PS.EXCSRVal = M.PS.EXCSRVal ∧
    M.decoded.redirect.finish.PS.EXRs2Val = M.PS.EXRs2Val := by
  rw [(Handled.none (S := M.decoded)).end_PS]
  exact ⟨rfl, rfl, rfl, rfl, rfl⟩

/-- The rest of the state at the end of a cycle. -/
theorem cycle_frame [BranchPredictor σ] (M : RIPSimulator σ) :
    M.decoded.redirect.finish.GPRegs = M.GPRegs ∧ M.decoded.redirect.finish.Mem = M.Mem ∧
    M.decoded.redirect.finish.Mode = M.Mode ∧ M.decoded.redirect.finish.PS.PCs = M.PS.PCs ∧
    M.decoded.redirect.finish.PS.StalledStages = M.PS.StalledStages ∧
    M.decoded.redirect.finish.States = M.States.incCYCLE := by
  obtain ⟨_, hMem, hMode, _, hSt, hGP, _, _, _, hPC, hS, _⟩ := M.decoded_frame
  rw [redirect_eq]
  exact ⟨hGP, hMem, hMode, hPC, hS, congrArg CSRs.incCYCLE hSt⟩

/-! ## What the stages do to the run -/

variable {h : Hart} {N : ℕ∞} {c : ℕ} {S A B M : RIPSimulator σ}

/-- The instruction in MA has its effect. -/
theorem BackEnd.effect_MA (hb : BackEnd h c S) (hN : (S.issued c : ℕ∞) ≤ N) (hd : Regular h N)
    {I : Instruction} (hI : S.PS.Insts.MA = some I) : Effect I (h.after c) (h.after (c + 1)) := by
  refine hd.effect (lt_of_lt_of_le ?_ hN) (hb.MA I hI).fetch
  rw [issued, accessed, hI]
  exact_mod_cast (by rw [occ_some]; omega : c < c + occ (some I) + occ S.PS.Insts.EX)

/-- The instruction in EX is admitted. -/
theorem BackEnd.admitted_EX (hb : BackEnd h c S) (hN : (S.issued c : ℕ∞) ≤ N) (hd : Regular h N)
    {I : Instruction} (hI : S.PS.Insts.EX = some I) :
    (S.accessed c : ℕ∞) < N ∧ Admitted I (h.after (S.accessed c)) := by
  have hlt : (S.accessed c : ℕ∞) < N := by
    refine lt_of_lt_of_le ?_ hN
    rw [issued, hI]
    exact_mod_cast Nat.lt_succ_self _
  exact ⟨hlt, hd.admitted _ I hlt (hb.EX I hI).fetch⟩

/-- The instruction in EX has its effect. -/
theorem BackEnd.effect_EX (hb : BackEnd h c S) (hN : (S.issued c : ℕ∞) ≤ N) (hd : Regular h N)
    {I : Instruction} (hI : S.PS.Insts.EX = some I) :
    Effect I (h.after (S.accessed c)) (h.after (S.accessed c + 1)) :=
  hd.effect (hb.admitted_EX hN hd hI).1 (hb.EX I hI).fetch

/-- Write back brings the registers up to the instruction in EX. -/
theorem Inv.written (hi : Inv h N c S) (hd : Regular h N) (hA : S.advance = .ok A) :
    A.written.GPRegs = (h.after (S.accessed c)).GPRegs := by
  obtain ⟨_, _, _, _, hGP, _⟩ := advance_frame hA
  obtain ⟨hWB, _, _, _, hRd⟩ := hi.clean.advance_insts hA
  unfold RIPSimulator.written accessed
  rw [hWB]
  cases hI : S.PS.Insts.MA with
  | none =>
    rw [hGP, hi.back.GPRegs]
    rfl
  | some I =>
    rw [occ_some, (hi.back.effect_MA hi.bound hd hI).GPRegs]
    dsimp only
    rw [hGP, hi.back.GPRegs, hRd, (hi.back.MA I hI).result]

/-- The CSRs, but for the counters, come along. -/
theorem Inv.drained (hi : Inv h N c S) (hd : Regular h N) {a : CSRAddress} (ha : a ∉ counters) :
    S.drainMA a = (h.after (S.accessed c)).States a := by
  unfold drainMA accessed
  rw [csrWrite_apply]
  cases hI : S.PS.Insts.MA with
  | none => exact hi.back.States a ha
  | some I =>
    rw [occ_some, (hi.back.effect_MA hi.bound hd hI).States, csrWrite_apply, (hi.back.MA I hI).csr,
      hi.back.States a ha]

/-- **The access stage cannot fail**, and it brings the memory up to the instruction
that enters EX. -/
theorem Inv.access (hi : Inv h N c S) (hd : Regular h N) (hA : S.advance = .ok A) :
    ∃ B, A.written.memoryaccess = .ok B ∧ B.Mem = (h.after (S.issued c)).Mem ∧
      ∀ K, S.PS.Insts.EX = some K → B.PS.MARdVal = (h.after (S.accessed c)).result K := by
  obtain ⟨haM, _, haMode, _⟩ := advance_frame hA
  obtain ⟨_, hwMem, hwMode, _, _, _, _, hwPS⟩ := A.written_frame
  obtain ⟨_, hMA, _⟩ := hi.clean.advance_insts hA
  have hMA' : A.written.PS.Insts.MA = S.PS.Insts.EX := by rw [hwPS, ← hMA]
  have hMem : A.written.Mem = (h.after (S.accessed c)).Mem := by rw [hwMem, haM, hi.back.Mem]
  have hlatch : A.written.PS.EXRdVal = S.PS.EXRdVal ∧ A.written.PS.EXRs2Val = S.PS.EXRs2Val := by
    rw [hwPS, advance_PS hA]
    exact ⟨rfl, rfl⟩
  rw [issued_eq]
  cases hK : S.PS.Insts.EX with
  | none =>
    refine ⟨A.written, ?_, by rw [hMem]; rfl, fun K hK' => nomatch hK'⟩
    unfold memoryaccess
    rw [hMA', hK]
  | some K =>
    have hE := hi.back.EX K hK
    have hval : A.written.PS.EXRdVal = (h.after (S.accessed c)).value K :=
      hlatch.1.trans hE.value
    have hacc := (hi.back.effect_EX hi.bound hd hK).Mem
    unfold Hart.access at hacc
    unfold memoryaccess
    rw [hMA', hK]
    dsimp only
    by_cases hcon : A.written.PS.EXRdVal = consoleAd
    · rw [if_pos (hval ▸ hcon)] at hacc
      injection hacc with hacc
      injection hacc with h1 h2
      rw [if_pos hcon]
      refine ⟨_, rfl, hMem.trans h1, ?_⟩
      rintro K' ⟨⟩
      exact hval.trans h2
    · have hstage : RIPSimulator.access A.written.Mem K A.written.PS.EXRdVal
          A.written.PS.EXRs2Val = .ok ((h.after (S.accessed c + 1)).Mem,
            (h.after (S.accessed c)).result K) := by
        rw [hMem, hlatch.2, access_congr hE.rs2, hval]
        exact (if_neg (hval ▸ hcon)).symm.trans hacc
      rw [if_neg hcon, if_neg (by rw [hwMode, haMode, hi.back.Mode]; decide), hstage]
      refine ⟨_, rfl, rfl, ?_⟩
      rintro K' ⟨⟩
      rfl

/-- What enters EX is the next instruction of the run. -/
theorem Inv.entering (hi : Inv h N c S) {I : Instruction} (hI : S.entering = some I) :
    S.PS.StalledStages.IF = false ∧ S.PS.Insts.DE = some I ∧
      S.PS.PCs.DE = (h.after (S.issued c)).PC ∧
      (h.after (S.issued c)).fetch = .ok (some I) := by
  have hs := moving_of_entering hI
  have hDE := (entering_of_moving hs).symm.trans hI
  exact ⟨hs, hDE, hi.front.DE I hDE⟩

variable [BranchPredictor σ]

/-- **The stages of a cycle cannot fail.** -/
theorem Inv.through (hi : Inv h N c S) (hd : Regular h N) (hA : S.advance = .ok A)
    (hne : A.PS.isEmpty = false)
    (hN : ∀ I, S.entering = some I → (S.issued c : ℕ∞) < N) :
    ∃ B M, Through S A B M none ∧ B.Mem = (h.after (S.issued c)).Mem ∧
      ∀ K, S.PS.Insts.EX = some K → B.PS.MARdVal = (h.after (S.accessed c)).result K := by
  obtain ⟨B, hB, hMem, hRd⟩ := hi.access hd hA
  obtain ⟨_, _, _, _, _, _, _, hwPS⟩ := A.written_frame
  have hEX : B.PS.Insts.EX = S.entering := by
    rw [(memoryaccess_frame hB).Insts, hwPS, ← hi.clean.advance_entering hA]
  have hM : ∃ M, B.exec = .ok (none, M) := by
    cases hI : S.entering with
    | none =>
      refine ⟨B, ?_⟩
      unfold RIPSimulator.exec
      rw [hEX, hI]
    | some I =>
      have hp := (hd.admitted _ I (hN I hI) (hi.entering hI).2.2.2).plain
      exact ⟨_, exec_eq B (hEX.trans hI) hp⟩
  obtain ⟨M, hM⟩ := hM
  exact ⟨B, M, ⟨hA, hne, hB, hM⟩, hMem, hRd⟩

/-- What `exec` computes for the instruction that enters EX. -/
theorem Inv.executed (hi : Inv h N c S) (hd : Regular h N) (ht : Through S A B M none)
    {I : Instruction} (hI : S.entering = some I) (hN : (S.issued c : ℕ∞) < N) :
    M = B.executed I ∧ Operands (h.after (S.issued c)) B I ∧ B.PS.DEImmVal = I.immVal ∧
      B.PS.PCs.EX = (h.after (S.issued c)).PC := by
  obtain ⟨hs, hDE, hPC, hf⟩ := hi.entering hI
  have hEX : A.PS.Insts.EX = some I := (hi.clean.advance_entering ht.advance).trans hI
  have hp := (hd.admitted _ I hN hf).plain
  obtain ⟨h1, h2, h3, h4, _⟩ := ht.latches
  obtain ⟨o1, o2, o3⟩ := hi.front.operands hs I hDE hN
  refine ⟨(ht.executed hEX hp).2, ⟨?_, ?_, ?_⟩, ?_, ?_⟩
  · rw [h1]
    exact o1
  · rw [h2]
    exact o2
  · rw [h3]
    exact o3
  · rw [h4]
    exact hi.latched.DE hs I hDE
  · exact (ht.PC_EX hi.clean hEX).trans hPC

/-- `exec` counts branches, and does nothing else to the CSRs. -/
theorem Inv.executed_States (hi : Inv h N c S) (hd : Regular h N) (ht : Through S A B M none)
    (hN : ∀ I, S.entering = some I → (S.issued c : ℕ∞) < N) {a : CSRAddress}
    (ha : a ∉ counters) : M.States a = (h.after (S.accessed c)).States a := by
  have hB : B.States a = (h.after (S.accessed c)).States a := by
    rw [ht.states hi.clean hi.latched]
    exact hi.drained hd ha
  cases hI : S.entering with
  | none =>
    obtain ⟨_, rfl⟩ := ht.bubble ((hi.clean.advance_entering ht.advance).trans hI)
    exact hB
  | some I =>
    obtain ⟨rfl, _⟩ := hi.executed hd ht hI (hN I hI)
    change B.counted I a = _
    have hcount : ∀ Pred Cond, countBranch B.States Pred Cond a = B.States a := by
      intro Pred Cond
      rw [countBranch_eq, CSRs.inc_of_ne]
      rintro rfl
      exact ha (List.mem_cons_of_mem _ (bumped_mem Pred Cond))
    rw [← hB]
    cases I with
    | BInstruction =>
      unfold counted
      cases B.BP with
      | none => rfl
      | some P => exact hcount _ _
    | _ => rfl

/-! ## The back end of the next state -/

/-- What is in EX and enters it, in the next state. -/
theorem Inv.moved (hi : Inv h N c S) (ht : Through S A B M none) :
    M.decoded.redirect.finish.PS.Insts.MA = S.PS.Insts.EX ∧
      M.decoded.redirect.finish.PS.Insts.EX = S.entering := by
  obtain ⟨_, hMA, _⟩ := hi.clean.advance_insts ht.advance
  rw [ht.filled (hi.clean.advance ht.advance) .none]
  exact ⟨hMA, hi.clean.advance_entering ht.advance⟩

/-- The instruction in EX goes past MA. -/
theorem Inv.accessed_next (hi : Inv h N c S) (ht : Through S A B M none) :
    M.decoded.redirect.finish.accessed (S.accessed c) = S.issued c := by
  rw [issued_eq, RIPSimulator.accessed, (hi.moved ht).1]

/-- **The back end keeps up.** -/
theorem Inv.backEnd (hi : Inv h N c S) (hd : Regular h N) (ht : Through S A B M none)
    (hMem : B.Mem = (h.after (S.issued c)).Mem)
    (hRd : ∀ K, S.PS.Insts.EX = some K → B.PS.MARdVal = (h.after (S.accessed c)).result K)
    (hN : ∀ I, S.entering = some I → (S.issued c : ℕ∞) < N) :
    BackEnd h (S.accessed c) M.decoded.redirect.finish ∧
      M.decoded.redirect.finish.accessed (S.accessed c) = S.issued c := by
  have hM := exec_frame ht.exec
  have hB := memoryaccess_frame ht.access
  obtain ⟨_, _, hwMode, _, _, _, _, hwPS⟩ := A.written_frame
  obtain ⟨_, _, haMode, _⟩ := advance_frame ht.advance
  obtain ⟨_, hMA, _⟩ := hi.clean.advance_insts ht.advance
  obtain ⟨_, hPCMA⟩ := hi.clean.advance_PCs ht.advance
  obtain ⟨hfGP, hfMem, hfMode, hfPC, _, hfSt⟩ := cycle_frame M
  obtain ⟨hlMA, hlMAC, hlEX, hlEXC, hlRs2⟩ := cycle_latches M
  have hins' := hi.moved ht
  have hacc := hi.accessed_next ht
  refine ⟨⟨?_, ?_, ?_, ?_, ?_, ?_⟩, hacc⟩
  · rw [hfGP, hM.GPRegs, hB.GPRegs, hi.written hd ht.advance]
  · intro a ha
    have hne : a ≠ CYCLE := by
      rintro rfl
      exact ha List.mem_cons_self
    rw [hfSt, CSRs.incCYCLE, CSRs.inc_of_ne _ hne, hi.executed_States hd ht hN ha]
  · rw [hfMode]
    have hBMode : B.Mode = .Machine := by rw [hB.Mode, hwMode, haMode, hi.back.Mode]
    cases hI : S.entering with
    | none =>
      obtain ⟨_, rfl⟩ := ht.bubble ((hi.clean.advance_entering ht.advance).trans hI)
      exact hBMode
    | some I =>
      obtain ⟨rfl, _⟩ := hi.executed hd ht hI (hN I hI)
      exact hBMode
  · rw [hfMem, hM.Mem, hMem, hacc]
  · intro K hK
    rw [hins'.1] at hK
    have hE := hi.back.EX K hK
    have hMA' : A.written.PS.Insts.MA = some K := by
      rw [hwPS]
      exact hMA.trans hK
    obtain ⟨_, _, _, _, _, _, hEXCSR, _⟩ := ht.latches
    refine ⟨hE.fetch, ?_, ?_, ?_⟩
    · rw [hfPC, ht.insts.2, hPCMA, hE.PC]
    · rw [hlMA, hM.MARdVal, hRd K hK]
    · rw [hlMAC, hM.MACSRVal, (memoryaccess_latch hMA' ht.access).1, hEXCSR, hE.csr]
  · intro I hI
    rw [hins'.2] at hI
    rw [hacc]
    obtain ⟨rfl, hops, himm, hpc⟩ := hi.executed hd ht hI (hN I hI)
    have hEX : A.PS.Insts.EX = some I := (hi.clean.advance_entering ht.advance).trans hI
    obtain ⟨hs, _, hPC, hf⟩ := hi.entering hI
    refine ⟨hf, ?_, ?_, ?_, ?_⟩
    · rw [hfPC, ht.insts.2, (hi.clean.advance_EX ht.advance hEX).2.2, hPC]
    · rw [hlEX]
      change I.exRd B.PS.PCs.EX B.PS.DERs1Val B.PS.DERs2Val B.PS.DECSRVal B.PS.DEImmVal = _
      rw [hpc, himm]
      exact Instruction.exRd_congr hops.rs1 hops.rs2 hops.csr
    · rw [hlEXC]
      exact Instruction.exCSR_congr hops.rs1 hops.csr
    · intro hst
      rw [hlRs2]
      change (if I.isSType then B.PS.DERs2Val else _) = _
      rw [if_pos hst]
      refine hops.rs2 ?_
      cases I with
      | SInstruction => rfl
      | _ => exact absurd hst Bool.false_ne_true

end RIPSimulator

end RipSim
