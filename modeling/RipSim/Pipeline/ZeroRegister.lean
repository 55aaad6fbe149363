import RipSim.Pipeline.Reachable

/-!
# Reading `x0`

`GPRegisters` never stores anything in `x0`, but an operand need not come from it:
`forwardRs1OnDE` and `forwardRs2OnDE` compare register numbers only, and a result
with destination `x0` is in flight like any other.  So an instruction that reads
`x0` can be handed the result of one of the two instructions before it.

`QuietZero` says when it is not: of the two results a forward could take, the
younger one with destination `x0` is zero.  `zero_reads_zero_iff` shows that this
is the exact condition, along every run.
-/

namespace RipSim

/-- The instruction reads `x0` as a register operand.  The immediate forms of the
csr instructions use that field as a number. -/
def Instruction.readsZero (I : Instruction) : Prop :=
  (I.hasRs1 = true ∧ RIPSimulator.isCSRImm I = false ∧ I.rs1 = 0) ∨ (I.hasRs2 = true ∧ I.rs2 = 0)

namespace RIPSimulator

variable {σ : Type}

/-- Every operand that the instruction waiting in DE will take from `x0` is zero.
An instruction waits there, decoded, until EX takes it in the next cycle. -/
def ZeroOperands (S : RIPSimulator σ) : Prop :=
  S.PS.StalledStages.IF = false → ∀ I, S.PS.Insts.DE = some I →
    (I.hasRs1 = true → isCSRImm I = false → I.rs1 = 0 → S.PS.DERs1Val = 0) ∧
    (I.hasRs2 = true → I.rs2 = 0 → S.PS.DERs2Val = 0)

theorem Started.zeroOperands {S : RIPSimulator σ} (h : Started S) : ZeroOperands S := by
  intro _ I hI
  obtain ⟨d, P, hPS⟩ := h.PS
  rw [hPS] at hI
  exact nomatch hI

/-- The result that is in MA when the next cycle decodes, if its destination is `x0`. -/
def zeroInMA (S : RIPSimulator σ) : Option RegVal :=
  match S.PS.Insts.EX with
  | none => none
  | some K => if rdIs (some K) 0 then some (S.accessResult K) else none

/-- The youngest result with destination `x0` that is in flight when the next cycle
decodes: that of the instruction then in EX, else that of the one then in MA. -/
def zeroInFlight (S : RIPSimulator σ) : Option RegVal :=
  match S.entering with
  | none => S.zeroInMA
  | some J =>
    if rdIs (some J) 0 then
      some (J.exRd S.PS.PCs.DE S.PS.DERs1Val S.PS.DERs2Val S.PS.DECSRVal S.PS.DEImmVal)
    else S.zeroInMA

variable [BranchPredictor σ]

/-- Where the next cycle decodes an instruction that reads `x0` and neither squashes
nor stalls it, the youngest result in flight for `x0`, if there is one, is zero. -/
def QuietZero (S : RIPSimulator σ) : Prop :=
  ∀ A B M E, Through S A B M E → kills M E = false → M.PS.StalledStages.IF = false →
    ∀ I, A.PS.Insts.DE = some I → I.readsZero → ∀ v, S.zeroInFlight = some v → v = 0

/-! ## What is in flight -/

/-- The value `exec` latches for a plain instruction. -/
theorem Through.EXRdVal {S A B M : RIPSimulator σ} {E : Option Exception}
    (h : Through S A B M E) (hc : Clean S) {J : Instruction} (hJ : A.PS.Insts.EX = some J)
    (hk : kills M E = false) :
    M.PS.EXRdVal =
      J.exRd S.PS.PCs.DE S.PS.DERs1Val S.PS.DERs2Val S.PS.DECSRVal S.PS.DEImmVal := by
  have hf := memoryaccess_frame h.access
  obtain ⟨_, _, _, _, _, _, _, hPS⟩ := A.written_frame
  have hEX : B.PS.Insts.EX = some J := by rw [hf.Insts, hPS, ← hJ]
  obtain ⟨h1, h2, h3, h4, _⟩ := h.latches
  unfold kills at hk
  rw [Bool.or_eq_false_iff] at hk
  rcases exec_ok h.exec with ⟨hI, _, _⟩ | ⟨I, hI, _, _, rfl⟩ | ⟨_, _, _, _, hE, _⟩ |
    ⟨_, _, _, _, _, rfl⟩ | ⟨_, _, _, _, hE, _⟩
  · rw [hEX] at hI
    exact nomatch hI
  · rw [hEX] at hI
    injection hI with hI
    subst hI
    change J.exRd B.PS.PCs.EX B.PS.DERs1Val B.PS.DERs2Val B.PS.DECSRVal B.PS.DEImmVal = _
    rw [h.PC_EX hc hJ, h1, h2, h3, h4]
  · rw [hE] at hk
    exact absurd hk.1.symm Bool.false_ne_true
  · exact absurd hk.2.symm Bool.false_ne_true
  · rw [hE] at hk
    exact absurd hk.1.symm Bool.false_ne_true

/-- The value `memoryaccess` latches. -/
theorem Through.MARdVal {S A B M : RIPSimulator σ} {E : Option Exception}
    (h : Through S A B M E) {K : Instruction} (hK : A.PS.Insts.MA = some K) :
    M.PS.MARdVal = S.accessResult K := by
  obtain ⟨_, hMem, hMode, _, _, _, _, hPS⟩ := A.written_frame
  obtain ⟨haM, _, haMode, _⟩ := advance_frame h.advance
  have hMA : A.written.PS.Insts.MA = some K := by rw [hPS, ← hK]
  obtain ⟨_, _, _, _, h5, h6, _⟩ := h.latches
  rw [(exec_frame h.exec).MARdVal, memoryaccess_MARdVal hMA h.access]
  unfold accessResult
  rw [h5, h6, hMem, hMode, haM, haMode]

/-- The forward that `decode` finds for `x0` is the youngest result in flight. -/
theorem Through.fwd_zero {S A B M : RIPSimulator σ} {E : Option Exception}
    (h : Through S A B M E) (hc : Clean S) (hk : kills M E = false) :
    fwd M.PS 0 = S.zeroInFlight := by
  have hMA : A.PS.Insts.MA = S.PS.Insts.EX := by
    rcases advance_ok h.advance with ⟨hs, rfl⟩ | ⟨hs, w, _, rfl⟩
    · rw [(hc.shifted_insts hs).1]
    · rw [(hc.fetched_insts hs w).1]
  have hEX := hc.advance_entering h.advance
  have hma : (if rdIs M.PS.Insts.MA 0 then some M.PS.MARdVal else none) = S.zeroInMA := by
    unfold zeroInMA
    rw [h.insts.1, hMA]
    cases hK : S.PS.Insts.EX with
    | none => rfl
    | some K => rw [h.MARdVal (hMA.trans hK)]
  unfold fwd zeroInFlight
  rw [hma, h.insts.1, hEX]
  cases hJ : S.entering with
  | none => rfl
  | some J => rw [h.EXRdVal hc (hEX.trans hJ) hk]

/-! ## The exact condition -/

/-- One cycle: the operands it latches from `x0` are zero exactly if what is in
flight for `x0` is. -/
theorem zeroOperands_iff {S S' : RIPSimulator σ} (hc : Clean S) (hn : Next S S') :
    ZeroOperands S' ↔ QuietZero S := by
  obtain ⟨A, B, M, E, D, ht, hD, rfl⟩ := hn.through
  have hA := hc.advance ht.advance
  have hstalled := hD.stalled
  have hfinal : D.redirect.finish.PS.DERs1Val = M.decoded.PS.DERs1Val ∧
      D.redirect.finish.PS.DERs2Val = M.decoded.PS.DERs2Val := by
    rw [hD.end_PS]
    exact ⟨rfl, rfl⟩
  have hins := ht.filled hA hD
  -- what `decode` latches for an instruction that survives the cycle
  have hlatch : ∀ I, D.redirect.finish.PS.StalledStages.IF = false →
      D.redirect.finish.PS.Insts.DE = some I →
      D.redirect.finish.PS.DERs1Val = M.operand1 I ∧
        D.redirect.finish.PS.DERs2Val = M.operand2 I := by
    intro I hs hI
    obtain ⟨-, -, hMD⟩ := ht.decoding hA hD hs hI
    rw [hfinal.1, hfinal.2, hMD]
    exact ⟨rfl, rfl⟩
  have hread1 : ∀ I, kills M E = false → I.hasRs1 = true → isCSRImm I = false → I.rs1 = 0 →
      M.operand1 I = S.zeroInFlight.getD 0 := by
    intro I hk h1 hi hr
    unfold operand1
    rw [hi, if_neg Bool.false_ne_true, h1, if_pos rfl, hr, ht.fwd_zero hc hk]
    exact congrArg _ (M.GPRegs.apply_zero)
  have hread2 : ∀ I, kills M E = false → I.hasRs2 = true → I.rs2 = 0 →
      M.operand2 I = S.zeroInFlight.getD 0 := by
    intro I hk h2 hr
    unfold operand2
    rw [h2, if_pos rfl, hr, ht.fwd_zero hc hk]
    exact congrArg _ (M.GPRegs.apply_zero)
  constructor
  · intro hz A' B' M' E' h' hk hs I hI hr v hv
    obtain ⟨rfl, rfl, rfl, rfl⟩ := h'.unique ht
    have hDE : D.redirect.finish.PS.Insts.DE = some I := by
      rw [hins, hk]
      exact hI
    rw [← hstalled] at hs
    obtain ⟨hz1, hz2⟩ := hz hs I hDE
    obtain ⟨hl1, hl2⟩ := hlatch I hs hDE
    rcases hr with ⟨h1, hi, hr⟩ | ⟨h2, hr⟩
    · have := hz1 h1 hi hr
      rwa [hl1, hread1 I hk h1 hi hr, hv] at this
    · have := hz2 h2 hr
      rwa [hl2, hread2 I hk h2 hr, hv] at this
  · intro hq hs I hI
    obtain ⟨hl1, hl2⟩ := hlatch I hs hI
    obtain ⟨hk, hMI, -⟩ := ht.decoding hA hD hs hI
    have hquiet : I.readsZero → S.zeroInFlight.getD 0 = 0 := by
      intro hr
      cases hv : S.zeroInFlight with
      | none => rfl
      | some v =>
        exact hq A B M E ht hk (hstalled ▸ hs) I (ht.insts.1 ▸ hMI) hr v hv
    constructor
    · intro h1 hi hr
      rw [hl1, hread1 I hk h1 hi hr]
      exact hquiet (.inl ⟨h1, hi, hr⟩)
    · intro h2 hr
      rw [hl2, hread2 I hk h2 hr]
      exact hquiet (.inr ⟨h2, hr⟩)

end RIPSimulator

open RIPSimulator

/-- **`x0` reads as zero exactly while nothing else is in flight for it.**  In a run
whose cycles are all quiet every operand latched from `x0` is zero; a cycle that is
not quiet latches another value. -/
theorem zero_reads_zero_iff {σ : Type} [BranchPredictor σ] {S₀ : RIPSimulator σ}
    (h : Started S₀) :
    (∀ S, Runs.ReachesWhile Next QuietZero S₀ S → ZeroOperands S) ∧
      ∀ S S', Runs.Reaches Next S₀ S → Next S S' → ¬ QuietZero S → ¬ ZeroOperands S' :=
  Runs.exact_along_runs h.zeroOperands fun _ _ hr hn =>
    zeroOperands_iff (Reachable.clean ⟨S₀, h, hr⟩) hn

theorem quietZero_of_zeroInFlight {σ : Type} [BranchPredictor σ] {S : RIPSimulator σ}
    (h : (S.zeroInFlight.getD 0 == 0) = true) : QuietZero S := by
  intro _ _ _ _ _ _ _ _ _ _ v hv
  rw [hv] at h
  exact eq_of_beq h

/-- `addi x1, x0, 5; add x2, x1, x0`: the second operand of `add` is zero. -/
theorem zero_reads_zero_iff_add :
    ∃ S : RIPSimulator OneBitBranchPredictor,
      after 3 (boot [0x00500093, 0x00008133] none) = some S ∧
        S.PS.Insts.DE = some (.RInstruction .add 2 1 0) ∧ ZeroOperands S := by
  have h : ((afterWhile (fun S => S.zeroInFlight.getD 0 == 0) 3
      (boot [0x00500093, 0x00008133] none :
        RIPSimulator OneBitBranchPredictor)).map fun S => S.PS.Insts.DE) =
      some (some (.RInstruction .add 2 1 0)) := by
    decide +kernel
  obtain ⟨S, hS, heq⟩ := Option.map_eq_some_iff.mp h
  exact ⟨S, after_of_afterWhile hS, heq, (zero_reads_zero_iff (started_boot _ _)).1 S
    (reachesWhile_afterWhile (fun _ => quietZero_of_zeroInFlight) hS)⟩

/-- `addi x0, x0, 5; add x1, x0, x0` hands `add` the operand `5`. -/
theorem zero_read_forwarded :
    ¬ ∀ S : RIPSimulator OneBitBranchPredictor, Reachable S → ZeroOperands S := by
  have h : ((after 3 (boot [0x00500013, 0x000000b3] none :
      RIPSimulator OneBitBranchPredictor)).map fun S =>
        (S.PS.StalledStages.IF, S.PS.Insts.DE, S.PS.DERs1Val)) =
      some (false, some (.RInstruction .add 1 0 0), 5) := by
    decide +kernel
  obtain ⟨S, hS, heq⟩ := Option.map_eq_some_iff.mp h
  simp only [Prod.mk.injEq] at heq
  intro hall
  have := (hall S (reachable_after hS) heq.1 _ heq.2.1).1 rfl rfl rfl
  rw [heq.2.2] at this
  exact absurd this (by decide)

end RipSim
