import RipSim.Pipeline.Traps
import RipSim.Pipeline.Protocol

/-!
# Performance counters

`cycle` is incremented at the end of a cycle, the four branch counters in EX, and
all five are CSRs that a csr instruction writes back three cycles after reading
them, even when its source is zero.  A read therefore undoes every increment made
in between: always the three of `cycle`, and that of a branch counter if the
instruction right behind the read is a branch that increments it.

`Undisturbed` excludes just this.  `counters_exact` shows that along every run of
undisturbed cycles the counters are exact.
-/

namespace RipSim

/-- A csr instruction with a zero source: `csrrs` and `csrrc` with `x0`, `csrrsi` and
`csrrci` with `0`. -/
def Instruction.readsOnly : Instruction → Bool
  | IInstruction .csrrs _ Rs1 _ => Rs1 == 0
  | IInstruction .csrrc _ Rs1 _ => Rs1 == 0
  | IInstruction .csrrsi _ Rs1 _ => Rs1 == 0
  | IInstruction .csrrci _ Rs1 _ => Rs1 == 0
  | _ => false

/-- The counter that a branch increments. -/
def bumped (Pred Cond : Bool) : CSRAddress :=
  match Pred, Cond with
  | true, true => BPTP
  | true, false => BPFP
  | false, true => BPFN
  | false, false => BPTN

theorem countBranch_eq (States : CSRs) (Pred Cond : Bool) :
    RIPSimulator.countBranch States Pred Cond = States.inc (bumped Pred Cond) := by
  cases Pred <;> cases Cond <;> rfl

theorem bumped_mem (Pred Cond : Bool) : bumped Pred Cond ∈ branchCounters := by
  cases Pred <;> cases Cond <;> decide

theorem Instruction.exCSR_of_readsOnly {I : Instruction} (h : I.readsOnly = true) (v : RegVal) :
    I.exCSR 0 v = v := by
  cases I with
  | IInstruction IT =>
    cases IT with
    | csrrs | csrrsi => exact BitVec.or_zero
    | csrrc | csrrci => exact BitVec.and_allOnes
    | _ => exact absurd h Bool.false_ne_true
  | _ => exact absurd h Bool.false_ne_true

namespace RIPSimulator

variable {σ : Type}

/-- What the counters should say. -/
structure Counted (S : RIPSimulator σ) : Prop where
  cycle : S.States CYCLE = S.NumStages
  hits : ∀ P, S.BP = some P → S.States BPTP + S.States BPTN = P.HitNum
  misses : ∀ P, S.BP = some P → S.States BPFP + S.States BPFN = P.MissNum
  /-- Every branch executed has left one `Learn` in the log. -/
  total : ∀ P, S.BP = some P →
    S.States BPTP + S.States BPTN + (S.States BPFP + S.States BPFN) =
      BitVec.ofNat 32 (learns P.calls)

/-- The program touches the counters with a zero source only: the instruction that
enters EX does. -/
def ReadsOnly (S : RIPSimulator σ) : Prop :=
  ∀ I ∈ S.entering, I.isCSR = true → I.csrAddr ∈ counters → I.readsOnly = true

/-- The next cycle neither writes back a read of `cycle`, nor executes a branch on
the very counter that the instruction right ahead of it has read, nor executes a
read of a counter whose zero source has been forwarded as something else. -/
structure Undisturbed (S : RIPSimulator σ) : Prop where
  cycle : csrIs S.PS.Insts.MA CYCLE = false
  branch : ∀ I ∈ S.entering, I.isBType = true → ∀ P ∈ S.BP,
    csrIs S.PS.Insts.EX (bumped P.PrevPred (I.taken S.PS.DERs1Val S.PS.DERs2Val)) = false
  source : ∀ I ∈ S.entering, I.isCSR = true → I.csrAddr ∈ counters → S.PS.DERs1Val = 0

instance (S : RIPSimulator σ) : Decidable (ReadsOnly S) := by
  unfold ReadsOnly
  infer_instance

instance (S : RIPSimulator σ) : Decidable (Undisturbed S) :=
  decidable_of_iff
    (csrIs S.PS.Insts.MA CYCLE = false ∧
      (∀ I ∈ S.entering, I.isBType = true → ∀ P ∈ S.BP,
        csrIs S.PS.Insts.EX (bumped P.PrevPred (I.taken S.PS.DERs1Val S.PS.DERs2Val)) = false) ∧
      ∀ I ∈ S.entering, I.isCSR = true → I.csrAddr ∈ counters → S.PS.DERs1Val = 0)
    ⟨fun h => ⟨h.1, h.2.1, h.2.2⟩, fun h => ⟨h.cycle, h.branch, h.source⟩⟩

/-! ## The values in flight -/

/-- Every csr instruction in flight on a branch counter holds its present value. -/
structure Tracking (S : RIPSimulator σ) : Prop where
  DE : S.PS.StalledStages.IF = false → ∀ a ∈ branchCounters, csrIs S.PS.Insts.DE a = true →
    S.PS.DECSRVal = S.States a
  EX : ∀ a ∈ branchCounters, csrIs S.PS.Insts.EX a = true → S.PS.EXCSRVal = S.States a
  MA : ∀ a ∈ branchCounters, csrIs S.PS.Insts.MA a = true → S.PS.MACSRVal = S.States a

theorem Started.tracking {S : RIPSimulator σ} (h : Started S) : Tracking S := by
  obtain ⟨d, P, hPS⟩ := h.PS
  constructor <;> rw [hPS]
  · intro _ a _ hI
    exact absurd hI Bool.false_ne_true
  · intro a _ hI
    exact absurd hI Bool.false_ne_true
  · intro a _ hI
    exact absurd hI Bool.false_ne_true

theorem Started.counted {S : RIPSimulator σ} (h : Started S) : Counted S := by
  obtain ⟨self, hBP⟩ := h.BP
  have hP : ∀ P, S.BP = some P → P.HitNum = 0 ∧ P.MissNum = 0 ∧ P.calls = [] := by
    intro P hP
    rw [hBP] at hP
    obtain ⟨x, _, rfl⟩ := Option.map_eq_some_iff.mp hP
    exact ⟨rfl, rfl, rfl⟩
  have hz : ∀ a, S.States a = 0 := by
    intro a
    rw [h.States]
    rfl
  constructor
  · rw [hz, h.NumStages]
  · intro P hP'
    rw [hz, hz, (hP P hP').1]
    rfl
  · intro P hP'
    rw [hz, hz, (hP P hP').2.1]
    rfl
  · intro P hP'
    rw [hz, hz, hz, hz, (hP P hP').2.2]
    rfl

/-- What the next cycle adds to the counter `a`. -/
def bump (S : RIPSimulator σ) (a : CSRAddress) : RegVal :=
  match S.entering, S.BP with
  | some I, some P =>
    if I.isBType && a == bumped P.PrevPred (I.taken S.PS.DERs1Val S.PS.DERs2Val) then 1#32 else 0#32
  | _, _ => 0#32

theorem bump_of_not_branch {S : RIPSimulator σ} {I : Instruction} (h : S.entering = some I)
    (hI : I.isBType = false) (a : CSRAddress) : S.bump a = 0#32 := by
  unfold bump
  rw [h]
  cases S.BP with
  | none => rfl
  | some P =>
    dsimp only
    rw [hI, Bool.false_and, if_neg Bool.false_ne_true]

/-- A read right ahead of the branch is not disturbed by it. -/
theorem Undisturbed.bump_EX {S : RIPSimulator σ} (h : Undisturbed S) {a : CSRAddress}
    (ha : csrIs S.PS.Insts.EX a = true) : S.bump a = 0#32 := by
  unfold bump
  cases hI : S.entering with
  | none => rfl
  | some I =>
    cases hP : S.BP with
    | none => rfl
    | some P =>
      dsimp only
      cases hb : I.isBType with
      | false => rw [Bool.false_and, if_neg Bool.false_ne_true]
      | true =>
        rw [Bool.true_and]
        by_cases heq : a = bumped P.PrevPred (I.taken S.PS.DERs1Val S.PS.DERs2Val)
        · have := h.branch I hI hb P hP
          rw [← heq, ha] at this
          exact nomatch this
        · rw [beq_false_of_ne heq, if_neg Bool.false_ne_true]

/-- The write back of an undisturbed cycle changes no counter. -/
theorem Tracking.drainMA {S : RIPSimulator σ} (ht : Tracking S) (hu : Undisturbed S)
    {a : CSRAddress} (ha : a ∈ counters) : S.drainMA a = S.States a := by
  unfold RIPSimulator.drainMA
  rw [csrWrite_apply]
  by_cases hcsr : csrIs S.PS.Insts.MA a = true
  · rw [if_pos hcsr]
    rcases List.mem_cons.mp ha with rfl | ha
    · rw [hu.cycle] at hcsr
      exact absurd hcsr Bool.false_ne_true
    · exact ht.MA a ha hcsr
  · rw [if_neg hcsr]

theorem exists_of_csrIs {o : Option Instruction} {a : CSRAddress} (h : csrIs o a = true) :
    ∃ I, o = some I ∧ I.isCSR = true ∧ I.csrAddr = a ∧ I.isBType = false := by
  cases o with
  | none => exact absurd h Bool.false_ne_true
  | some I =>
    change (I.isCSR && a == I.csrAddr) = true at h
    rw [Bool.and_eq_true, beq_iff_eq] at h
    refine ⟨I, rfl, h.1, h.2.symm, ?_⟩
    cases I with
    | BInstruction => exact absurd h.1 Bool.false_ne_true
    | _ => rfl

theorem ne_of_branchCounters {a : CSRAddress} (h : a ∈ branchCounters) :
    a ≠ CYCLE ∧ a ≠ MSTATUS ∧ a ∉ updatedCSRs := by
  simp only [branchCounters, List.mem_cons, List.not_mem_nil, or_false] at h
  rcases h with rfl | rfl | rfl | rfl <;> decide

variable [BranchPredictor σ]

/-! ## One cycle -/

/-- Neither a trap nor an `mret` touches a counter: `exec` adds what a branch adds. -/
theorem Through.counter {S A B M D : RIPSimulator σ} {E : Option Exception}
    (h : Through S A B M E) (hc : Clean S) (hl : Latched S) (hD : Handled M.decoded E D)
    {a : CSRAddress} (ha : a ∉ updatedCSRs) :
    M.States a = S.drainMA a + S.bump a ∧ D.States a = M.States a := by
  obtain ⟨hEX, _, hBP, _⟩ := h.entering hc
  obtain ⟨h1, h2, _⟩ := h.latches
  have hms : a ≠ MSTATUS := by
    rintro rfl
    exact ha (by decide)
  constructor
  · rw [← h.states hc hl]
    rcases exec_ok h.exec with ⟨hI, _, rfl⟩ | ⟨I, hI, hp, _, rfl⟩ | ⟨I, e, hI, hr, _, rfl⟩ |
      ⟨I, hI, hm, _, _, rfl⟩ | ⟨I, hI, hm, _, _, rfl⟩ <;> rw [hI] at hEX
    · unfold bump
      rw [← hEX, BitVec.add_zero]
    · change B.counted I a = _
      unfold counted bump
      rw [← hEX, ← hBP]
      cases I with
      | BInstruction BT Rs1 Rs2 Imm =>
        cases hP : B.BP with
        | none => exact (BitVec.add_zero _).symm
        | some P =>
          dsimp only
          rw [countBranch_eq, ← h1, ← h2]
          change CSRs.inc _ (bumped P.PrevPred (BT.cond B.PS.DERs1Val B.PS.DERs2Val)) a = _ +
            if (true && a == bumped P.PrevPred (BT.cond B.PS.DERs1Val B.PS.DERs2Val)) = true
            then 1#32 else 0#32
          by_cases heq : a = bumped P.PrevPred (BT.cond B.PS.DERs1Val B.PS.DERs2Val)
          · rw [← heq, CSRs.inc_self, Bool.true_and, beq_self_eq_true, if_pos rfl]
            rfl
          · rw [CSRs.inc_of_ne _ heq, Bool.true_and, beq_false_of_ne heq,
              if_neg Bool.false_ne_true, BitVec.add_zero]
      | _ => cases B.BP <;> exact (BitVec.add_zero _).symm
    · have hb := Instruction.isBType_of_not_isPlain (Instruction.isPlain_of_raises hr)
      rw [bump_of_not_branch hEX.symm hb, BitVec.add_zero]
    · have hb := Instruction.isBType_of_not_isPlain (Instruction.isPlain_of_isMret hm)
      rw [bump_of_not_branch hEX.symm hb, BitVec.add_zero]
      exact mretStates_apply_of_ne _ _ hms
    · have hb := Instruction.isBType_of_not_isPlain (Instruction.isPlain_of_isMret hm)
      rw [bump_of_not_branch hEX.symm hb, BitVec.add_zero]
      rfl
  · obtain ⟨_, _, _, _, hdst, _⟩ := M.decoded_frame
    cases hD with
    | none => rw [hdst]
    | epilogue => exact congrFun hdst a
    | trap _ _ => exact (trapStates_of_not_mem _ _ _ _ _ ha).trans (congrFun hdst a)

/-- **What an undisturbed cycle does to the counters.** -/
theorem Next.counters {S S' : RIPSimulator σ} (hc : Clean S) (hl : Latched S) (ht : Tracking S)
    (hu : Undisturbed S) (hn : Next S S') :
    S'.States CYCLE = S.States CYCLE + 1 ∧
      ∀ a ∈ branchCounters, S'.States a = S.States a + S.bump a := by
  obtain ⟨A, B, M, E, D, hT, hD, rfl⟩ := hn.through
  rw [finish_States]
  constructor
  · have hcyc : CYCLE ∉ updatedCSRs := by decide
    have hb : S.bump CYCLE = 0#32 := by
      unfold bump
      cases S.entering with
      | none => rfl
      | some I =>
        cases S.BP with
        | none => rfl
        | some P =>
          dsimp only
          rw [beq_false_of_ne, Bool.and_false, if_neg Bool.false_ne_true]
          intro heq
          exact (ne_of_branchCounters (bumped_mem _ _)).1 heq.symm
    obtain ⟨hM, hDM⟩ := hT.counter hc hl hD hcyc
    change CSRs.inc _ _ _ = _
    rw [CSRs.inc_self, hDM, hM, hb, BitVec.add_zero, ht.drainMA hu (by decide)]
  · intro a ha
    obtain ⟨hne, _, hup⟩ := ne_of_branchCounters ha
    obtain ⟨hM, hDM⟩ := hT.counter hc hl hD hup
    change CSRs.inc _ _ _ = _
    rw [CSRs.inc_of_ne _ hne, hDM, hM, ht.drainMA hu (List.mem_cons_of_mem _ ha)]

/-- The values in flight stay those of the counters. -/
theorem Tracking.next {S S' : RIPSimulator σ} (ht : Tracking S) (hc : Clean S) (hl : Latched S)
    (hr : ReadsOnly S) (hu : Undisturbed S) (hn : Next S S') : Tracking S' := by
  obtain ⟨hMA', hMAval⟩ := hn.csr_moves hc
  have hcount := (hn.counters hc hl ht hu).2
  obtain ⟨A, B, M, E, D, hT, hD, rfl⟩ := hn.through
  have hins := hT.filled (hc.advance hT.advance) hD
  obtain ⟨hl1, _, hl3, _⟩ := hT.latches
  have hMA : ∀ a ∈ branchCounters, csrIs S.PS.Insts.EX a = true →
      D.redirect.finish.PS.MACSRVal = D.redirect.finish.States a := by
    intro a ha hcsr
    rw [hcount a ha, hu.bump_EX hcsr, BitVec.add_zero, ← ht.EX a ha hcsr]
    obtain ⟨I, hI, -⟩ := exists_of_csrIs hcsr
    exact hMAval I hI
  -- a csr instruction that enters EX computes the value it has read
  have hEX : ∀ a ∈ branchCounters, csrIs S.entering a = true →
      M.PS.EXCSRVal = D.redirect.finish.States a := by
    intro a ha hcsr
    obtain ⟨I, hI, hcs, rfl, hb⟩ := exists_of_csrIs hcsr
    have hAI := (hc.advance_entering hT.advance).trans hI
    obtain ⟨hs, hDE, _⟩ := hc.advance_EX hT.advance hAI
    have hmem : I.csrAddr ∈ RipSim.counters := List.mem_cons_of_mem _ ha
    obtain ⟨rfl, rfl⟩ := hT.executed hAI (Instruction.isPlain_of_isCSR hcs)
    rw [hcount _ ha, bump_of_not_branch hI hb, BitVec.add_zero]
    change I.exCSR B.PS.DERs1Val B.PS.DECSRVal = _
    rw [hl1, hl3, hu.source I hI hcs hmem, Instruction.exCSR_of_readsOnly (hr I hI hcs hmem)]
    rw [hI, ← hDE] at hcsr
    exact ht.DE hs _ ha hcsr
  have hentering : D.redirect.finish.PS.Insts.EX = S.entering := by
    rw [hins]
    exact hc.advance_entering hT.advance
  have hfinal : D.redirect.finish.PS.EXCSRVal = M.PS.EXCSRVal ∧
      D.redirect.finish.PS.MACSRVal = M.PS.MACSRVal ∧
      D.redirect.finish.PS.DECSRVal = M.decoded.PS.DECSRVal := by
    rw [hD.end_PS]
    exact ⟨rfl, rfl, rfl⟩
  refine ⟨?_, ?_, ?_⟩
  · intro hs a ha hcsr
    obtain ⟨I, hI, hcs, rfl, _⟩ := exists_of_csrIs hcsr
    have hop : M.decoded.PS.DECSRVal = M.operandCSR I := by
      rw [(hT.decoding (hc.advance hT.advance) hD hs hI).2.2]
      rfl
    rw [hfinal.2.2, hop]
    unfold operandCSR fwdCSR
    rw [if_pos hcs]
    have hMEX : M.PS.Insts.EX = S.entering := by
      rw [hT.insts.1]
      exact hc.advance_entering hT.advance
    have hMMA : M.PS.Insts.MA = S.PS.Insts.EX := by
      rw [hT.insts.1]
      exact (hc.advance_insts hT.advance).2.1
    rw [hMEX, hMMA]
    by_cases h1 : csrIs S.entering I.csrAddr = true
    · rw [if_pos h1]
      exact hEX _ ha h1
    · rw [if_neg h1]
      by_cases h2 : csrIs S.PS.Insts.EX I.csrAddr = true
      · rw [if_pos h2]
        exact hfinal.2.1 ▸ hMA _ ha h2
      · rw [if_neg h2]
        obtain ⟨hne, _, hup⟩ := ne_of_branchCounters ha
        rw [finish_States]
        change M.States _ = CSRs.inc _ _ _
        rw [CSRs.inc_of_ne _ hne, (hT.counter hc hl hD hup).2]
  · intro a ha hcsr
    rw [hentering] at hcsr
    rw [hfinal.1]
    exact hEX a ha hcsr
  · intro a ha hcsr
    rw [hMA'] at hcsr
    exact hMA a ha hcsr

/-! ## The predictor's own statistics -/

/-- `decode` changes no statistics and adds no `Learn`. -/
theorem decoded_stats {M : RIPSimulator σ} {P' : BPBase σ} (h : M.decoded.BP = some P') :
    ∃ P, M.BP = some P ∧ P'.HitNum = P.HitNum ∧ P'.MissNum = P.MissNum ∧
      learns P'.calls = learns P.calls := by
  unfold decoded at h
  cases hI : M.PS.Insts.DE with
  | none =>
    rw [hI] at h
    exact ⟨P', h, rfl, rfl, rfl⟩
  | some I =>
    rw [hI] at h
    dsimp only at h
    split_ifs at h
    · exact ⟨P', h, rfl, rfl, rfl⟩
    · change M.predicted I = some P' at h
      unfold predicted at h
      cases hb : I.isBType with
      | false =>
        rw [hb] at h
        exact ⟨P', h, rfl, rfl, rfl⟩
      | true =>
        rw [hb] at h
        cases hP : M.BP with
        | none =>
          rw [hP] at h
          exact nomatch h
        | some P =>
          rw [hP] at h
          injection h with h
          subst h
          refine ⟨P, rfl, ?_, ?_, ?_⟩ <;> split_ifs <;> rfl

/-- `exec` adds to the predictor's statistics what it adds to the counters. -/
theorem exec_stats {B M : RIPSimulator σ} {E : Option Exception} (h : B.exec = .ok (E, M))
    {P' : BPBase σ} (hP' : M.BP = some P') :
    ∃ P, B.BP = some P ∧
      ((∃ I, B.PS.Insts.EX = some I ∧ I.isBType = true ∧
          (let c := I.taken B.PS.DERs1Val B.PS.DERs2Val
           P'.HitNum = P.HitNum + (if P.PrevPred = c then 1#32 else 0#32) ∧
           P'.MissNum = P.MissNum + (if P.PrevPred = c then 0#32 else 1#32)) ∧
          learns P'.calls = learns P.calls + 1) ∨
       ((∀ I, B.PS.Insts.EX = some I → I.isBType = false) ∧ P' = P)) := by
  have hM := exec_BP h
  cases hI : B.PS.Insts.EX with
  | none =>
    rw [hI] at hM
    exact ⟨P', hM.symm.trans hP', .inr ⟨fun I hI => (nomatch hI), rfl⟩⟩
  | some I =>
    rw [hI] at hM
    cases I with
    | BInstruction BT Rs1 Rs2 Imm =>
      unfold learned at hM
      cases hP : B.BP with
      | none =>
        rw [hP] at hM
        rw [hM] at hP'
        exact nomatch hP'
      | some P =>
        rw [hP] at hM
        rw [hM] at hP'
        injection hP' with hP'
        subst hP'
        refine ⟨P, rfl, .inl ⟨_, rfl, rfl, ?_, ?_⟩⟩
        · unfold BPBase.Learn BPBase.StatsUpdate Instruction.taken
          dsimp only
          cases P.PrevPred <;> cases BT.cond B.PS.DERs1Val B.PS.DERs2Val <;>
            exact ⟨by simp, by simp⟩
        · unfold BPBase.Learn BPBase.StatsUpdate
          dsimp only
          split_ifs <;> exact learns_learn _ _ _
    | _ =>
      refine ⟨P', hM.symm.trans hP', .inr ⟨?_, rfl⟩⟩
      intro J hJ
      injection hJ with hJ
      subst hJ
      rfl

/-- **What a cycle does to the predictor's statistics.** -/
theorem Next.stats {S S' : RIPSimulator σ} (hc : Clean S) (hn : Next S S') {P' : BPBase σ}
    (hP' : S'.BP = some P') :
    ∃ P, S.BP = some P ∧ P'.HitNum = P.HitNum + (S.bump BPTP + S.bump BPTN) ∧
      P'.MissNum = P.MissNum + (S.bump BPFP + S.bump BPFN) ∧
      BitVec.ofNat 32 (learns P'.calls) = BitVec.ofNat 32 (learns P.calls) +
        (S.bump BPTP + S.bump BPTN + (S.bump BPFP + S.bump BPFN)) := by
  obtain ⟨A, B, M, E, D, hT, hD, rfl⟩ := hn.through
  obtain ⟨hEX, _, hBP, _⟩ := hT.entering hc
  obtain ⟨hl1, hl2, _⟩ := hT.latches
  rw [redirect_eq] at hP'
  obtain ⟨P₂, hP₂, rfl⟩ := Option.map_eq_some_iff.mp hP'
  obtain ⟨_, _, _, hDBP, _⟩ := hD.frame
  obtain ⟨P₁, hP₁, hh, hm, hl⟩ := decoded_stats (hDBP ▸ hP₂)
  obtain ⟨P, hP, hcase⟩ := exec_stats hT.exec hP₁
  refine ⟨P, hBP ▸ hP, ?_⟩
  dsimp only
  rw [hh, hm, hl]
  unfold bump
  rw [← hEX, ← hBP, hP]
  rcases hcase with ⟨I, hI, hb, hstat, hlearn⟩ | ⟨hno, rfl⟩
  · dsimp only at hstat
    rw [hI, hlearn, hstat.1, hstat.2, hl1, hl2, BitVec.ofNat_add]
    dsimp only
    rw [hb]
    cases P.PrevPred <;> cases I.taken S.PS.DERs1Val S.PS.DERs2Val <;>
      simp [bumped, BPTP, BPTN, BPFP, BPFN]
  · cases hI : B.PS.Insts.EX with
    | none => simp
    | some I => simp [hno I hI]

/-- An undisturbed cycle keeps the counters right. -/
theorem Counted.next {S S' : RIPSimulator σ} (h : Counted S) (hc : Clean S) (hl : Latched S)
    (ht : Tracking S) (hu : Undisturbed S) (hn : Next S S') : Counted S' := by
  obtain ⟨hcyc, hcount⟩ := hn.counters hc hl ht hu
  have hNum : S'.NumStages = S.NumStages + 1 := by
    obtain ⟨A, B, M, E, D, hT, hD, rfl⟩ := hn.through
    obtain ⟨_, hDN, _⟩ := hD.frame
    obtain ⟨_, _, _, hdN, _⟩ := M.decoded_frame
    obtain ⟨_, _, _, hwN, _⟩ := A.written_frame
    obtain ⟨_, _, _, haN, _⟩ := advance_frame hT.advance
    rw [redirect_eq]
    change D.NumStages + 1 = _
    rw [hDN, hdN, (exec_frame hT.exec).NumStages, (memoryaccess_frame hT.access).NumStages, hwN,
      haN]
  have hTP := hcount BPTP (by decide)
  have hTN := hcount BPTN (by decide)
  have hFP := hcount BPFP (by decide)
  have hFN := hcount BPFN (by decide)
  constructor
  · rw [hcyc, hNum, h.cycle]
  · intro P' hP'
    obtain ⟨P, hP, hhit, _, _⟩ := hn.stats hc hP'
    rw [hTP, hTN, hhit, ← h.hits P hP]
    ac_rfl
  · intro P' hP'
    obtain ⟨P, hP, _, hmiss, _⟩ := hn.stats hc hP'
    rw [hFP, hFN, hmiss, ← h.misses P hP]
    ac_rfl
  · intro P' hP'
    obtain ⟨P, hP, _, _, htot⟩ := hn.stats hc hP'
    rw [hTP, hTN, hFP, hFN, htot, ← h.total P hP]
    ac_rfl

end RIPSimulator

open RIPSimulator

/-- **The counters are exact along every undisturbed run** of a program that touches
them with a zero source only: `cycle` is `NumStages`, the branch counters sum to the
predictor's hits and misses, and all four to the number of branches executed. -/
theorem counters_exact {σ : Type} [BranchPredictor σ] {S₀ : RIPSimulator σ} (h : Started S₀) :
    ∀ S, Runs.ReachesWhile Next (fun S => ReadsOnly S ∧ Undisturbed S) S₀ S → Counted S := by
  intro S hS
  have hinv : Clean S ∧ Latched S ∧ Tracking S ∧ Counted S := by
    induction hS with
    | refl => exact ⟨h.clean, h.latched, h.tracking, h.counted⟩
    | tail _ hstep ih =>
      obtain ⟨⟨hr, hu⟩, hn⟩ := hstep
      obtain ⟨hc, hl, ht, hcnt⟩ := ih
      exact ⟨hc.next hn, hl.next hc hn, ht.next hc hl hr hu hn, hcnt.next hc hl ht hu hn⟩
  exact hinv.2.2.2

/-- `csrrs x1, bptn, x0; nop; beq x0, x1, 8` under a new one-bit predictor: after
seven cycles the read of `bptn` has been written back and the branch counted. -/
theorem counters_exact_read :
    ∃ S : RIPSimulator OneBitBranchPredictor,
      after 7 (boot [0xfc1020f3, 0x00000013, 0x00100463] (some ⟨fun _ => none⟩)) = some S ∧
        S.NumStages = 7 ∧ S.States BPFN = 1 ∧ Counted S := by
  have h : ((afterWhile (fun S => decide (ReadsOnly S ∧ Undisturbed S)) 7
      (boot [0xfc1020f3, 0x00000013, 0x00100463] (some ⟨fun _ => none⟩) :
        RIPSimulator OneBitBranchPredictor)).map fun S => (S.NumStages, S.States BPFN)) =
      some (7, 1) := by
    decide +kernel
  obtain ⟨S, hS, heq⟩ := Option.map_eq_some_iff.mp h
  simp only [Prod.mk.injEq] at heq
  exact ⟨S, after_of_afterWhile hS, heq.1, heq.2, counters_exact (started_boot _ _) S
    (reachesWhile_afterWhile (fun _ h => of_decide_eq_true h) hS)⟩

/-- `csrrs x1, cycle, x0`: after its write back, in the fifth cycle, `cycle` is two
where it should be five. -/
theorem cycle_disturbed :
    ¬ ∀ S₀ S : RIPSimulator OneBitBranchPredictor, Started S₀ →
      Runs.ReachesWhile Next ReadsOnly S₀ S → Counted S := by
  have h : ((afterWhile (fun S => decide (ReadsOnly S)) 5 (boot [0xc00020f3] none :
      RIPSimulator OneBitBranchPredictor)).map fun S => (S.States CYCLE, S.NumStages)) =
      some (2, 5) := by
    decide +kernel
  obtain ⟨S, hS, heq⟩ := Option.map_eq_some_iff.mp h
  simp only [Prod.mk.injEq] at heq
  intro hall
  have := (hall _ S (started_boot _ _)
    (reachesWhile_afterWhile (fun _ h => of_decide_eq_true h) hS)).cycle
  rw [heq.1, heq.2] at this
  exact absurd this (by decide)

end RipSim
