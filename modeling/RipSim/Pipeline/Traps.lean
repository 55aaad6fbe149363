import RipSim.Pipeline.Pending
import RipSim.Reference.Bytes

/-!
# Traps and `mret` in the pipeline

An `ecall` or `mret` acts in EX, and `decode` may predict a branch behind it in the
very same cycle.  `trap_redirect_iff` says when this goes wrong: the next fetch is at
the trap vector unless the faulting instruction itself has recorded a target, which
only an `mret` to the reserved mode does, or a branch in DE is predicted taken.  The
order in which `redirect` reads its three sources is the whole reason, up to the sign
that `handleException` sees in a vector from `2 ^ 31` on.

The last section is about the CSRs that a trap entry or an `mret` updates, and what it
puts there.
-/

namespace RipSim

namespace RIPSimulator

variable {σ : Type}

/-! ## What the next cycle raises and where it would go -/

/-- The exception that `exec` returns in the next cycle. -/
def raising (S : RIPSimulator σ) : Option Exception :=
  match S.entering with
  | none => none
  | some I =>
    if I.isMret then
      if ModeKind.ofMPP (S.olderStates MSTATUS) = .Hypervisor then some .IllegalInstruction
      else none
    else I.raises S.Mode

/-- The trap vector, with the older csr writes taken into account: the address that
is `mtvec` with bit 0 cleared. -/
def trapVector (S : RIPSimulator σ) : Address :=
  (S.olderStates MTVEC &&& ~~~1#32).setWidth 64

/-- The target that the instruction entering EX records before it raises. -/
def recordedTarget (S : RIPSimulator σ) : Option Address :=
  match S.entering with
  | none => none
  | some I => if I.isMret then some ((S.olderStates MEPC).signExtend 64) else none

/-- The target of the branch entering DE, if the predictor says it is taken. -/
def predictedTarget [BranchPredictor σ] (S : RIPSimulator σ) : Option Address :=
  match S.PS.Insts.IF, S.BP with
  | some J, some P =>
    if J.isBType && (BranchPredictor.Predict P.self S.PS.PCs.IF).1 then
      some (S.PS.PCs.IF + J.immVal.signExtend 64)
    else none
  | _, _ => none

/-- Taken for a signed number the vector is itself below `2 ^ 31` only. -/
theorem signExtend_eq_trapVector_iff (S : RIPSimulator σ) :
    (S.olderStates MTVEC &&& ~~~1#32).signExtend 64 = S.trapVector ↔
      (S.olderStates MTVEC).toNat < 2 ^ 31 := by
  have hmsb : (S.olderStates MTVEC &&& ~~~1#32).msb = (S.olderStates MTVEC).msb := by
    rw [BitVec.msb_and]
    exact Bool.and_true _
  rw [BitVec.msb_eq_decide, BitVec.msb_eq_decide, decide_eq_decide] at hmsb
  refine (signExtend_eq_setWidth_iff _).trans ?_
  omega

theorem isMret_of_isPlain {I : Instruction} (h : I.isPlain = true) : I.isMret = false := by
  cases hm : I.isMret with
  | false => rfl
  | true => exact absurd ((Instruction.isPlain_of_isMret hm).symm.trans h) Bool.false_ne_true

theorem isMret_of_raises {I : Instruction} {m : ModeKind} {e : Exception}
    (h : I.raises m = some e) : I.isMret = false := by
  cases I with
  | IInstruction IT => cases IT <;> first | rfl | exact nomatch h
  | _ => rfl

theorem raises_of_isPlain {I : Instruction} (m : ModeKind) (h : I.isPlain = true) :
    I.raises m = none := by
  cases hr : I.raises m with
  | none => rfl
  | some e => exact absurd ((Instruction.isPlain_of_raises hr).symm.trans h) Bool.false_ne_true

variable [BranchPredictor σ]

/-- What is in EX, and in which mode, when `exec` runs. -/
theorem Through.entering {S A B M : RIPSimulator σ} {E : Option Exception}
    (h : Through S A B M E) (hc : Clean S) :
    B.PS.Insts.EX = S.entering ∧ B.Mode = S.Mode ∧ B.BP = S.BP ∧ B.PC = A.PC := by
  have hf := memoryaccess_frame h.access
  obtain ⟨hPC, _, hMode, _, hBP, _, _, hPS⟩ := A.written_frame
  obtain ⟨_, _, hMode', _, _, hBP', _⟩ := advance_frame h.advance
  refine ⟨?_, by rw [hf.Mode, hMode, hMode'], by rw [hf.BP, hBP, hBP'], by rw [hf.PC, hPC]⟩
  rw [hf.Insts, hPS]
  exact hc.advance_entering h.advance

/-- The CSRs `mret` reads are those of the older instructions. -/
theorem Through.mret_reads {S A B M : RIPSimulator σ} {E : Option Exception}
    (h : Through S A B M E) (hc : Clean S) (hl : Latched S) :
    B.mretStatus = S.olderStates MSTATUS ∧ B.mretPC = S.olderStates MEPC :=
  ⟨h.forwarded hc hl MSTATUS, h.forwarded hc hl MEPC⟩

theorem Through.raising {S A B M : RIPSimulator σ} {E : Option Exception}
    (h : Through S A B M E) (hc : Clean S) (hl : Latched S) : E = S.raising := by
  obtain ⟨hEX, hMode, _⟩ := h.entering hc
  obtain ⟨hst, _⟩ := h.mret_reads hc hl
  unfold RIPSimulator.raising
  rw [← hEX]
  rcases exec_ok h.exec with ⟨hI, rfl, _⟩ | ⟨I, hI, hp, rfl, _⟩ | ⟨I, e, hI, hr, rfl, _⟩ |
    ⟨I, hI, hm, hleg, rfl, _⟩ | ⟨I, hI, hm, hres, rfl, _⟩ <;> rw [hI]
  · dsimp only
    rw [isMret_of_isPlain hp, if_neg Bool.false_ne_true, raises_of_isPlain _ hp]
  · dsimp only
    rw [isMret_of_raises hr, if_neg Bool.false_ne_true, ← hMode, hr]
  · dsimp only
    rw [if_pos hm, ← hst, if_neg hleg]
  · dsimp only
    rw [if_pos hm, ← hst, if_pos hres]

/-- A cycle that raises goes through `exec`. -/
theorem through_of_raising {S S' : RIPSimulator σ} {e : Exception} (hS : Reachable S)
    (hn : Next S S') (hr : S.raising = some e) : ∃ A B M, Through S A B M (some e) := by
  obtain ⟨A, B, M, E, D, ht, _, _⟩ := hn.through
  obtain rfl : E = some e := (ht.raising hS.clean hS.latched).trans hr
  exact ⟨A, B, M, ht⟩

/-! ## The redirect of a trap -/

/-- An instruction that raises is not a csr instruction, so the trap vector is
looked up in MA. -/
theorem Through.trapVec {S A B M : RIPSimulator σ} {e : Exception}
    (h : Through S A B M (some e)) (hc : Clean S) (hl : Latched S) :
    M.decoded.squashed.trapVec = S.olderStates MTVEC := by
  have hkeep : M.PS.Insts = B.PS.Insts ∧ M.PS.MACSRVal = B.PS.MACSRVal ∧ M.States = B.States ∧
      csrIs B.PS.Insts.EX MTVEC = false := by
    have hcsr : ∀ I : Instruction, I.isPlain = false → csrIs (some I) MTVEC = false := by
      intro I hI
      cases hi : I.isCSR with
      | false =>
        change (I.isCSR && _) = false
        rw [hi, Bool.false_and]
      | true =>
        exact absurd (hI.symm.trans (Instruction.isPlain_of_isCSR hi)) Bool.false_ne_true
    rcases exec_raises h.exec with ⟨I, hI, hr, rfl⟩ | ⟨I, hI, hm, _, rfl⟩
    · exact ⟨rfl, rfl, rfl, by rw [hI]; exact hcsr I (Instruction.isPlain_of_raises hr)⟩
    · exact ⟨rfl, rfl, rfl, by rw [hI]; exact hcsr I (Instruction.isPlain_of_isMret hm)⟩
  obtain ⟨_, _, _, _, hdst, _, _, _, hdI, _⟩ := M.decoded_frame
  have hdCSR := M.decoded_MACSRVal
  rw [← h.forwarded hc hl MTVEC]
  change (if csrIs M.decoded.PS.Insts.EX MTVEC then _
    else if csrIs M.decoded.PS.Insts.MA MTVEC then M.decoded.PS.MACSRVal
    else M.decoded.States.read MTVEC) = _
  rw [hdI, hkeep.1, hkeep.2.2.2, if_neg Bool.false_ne_true, hdCSR, hkeep.2.1, hdst, hkeep.2.2.1]

/-- The target left in the pipeline registers by an instruction that raises. -/
theorem Through.branchPC {S A B M : RIPSimulator σ} {e : Exception}
    (h : Through S A B M (some e)) (hc : Clean S) (hl : Latched S) :
    M.decoded.PS.BranchPC = S.recordedTarget := by
  obtain ⟨_, _, _, _, _, _, _, _, _, _, _, hb, _⟩ := M.decoded_frame
  obtain ⟨hEX, _⟩ := h.entering hc
  have hB := (h.atRest (hc.advance h.advance)).branchPC
  unfold recordedTarget
  rw [hb, ← hEX]
  rcases exec_raises h.exec with ⟨I, hI, hr, rfl⟩ | ⟨I, hI, hm, _, rfl⟩
  · rw [hB, hI]
    dsimp only
    rw [isMret_of_raises hr, if_neg Bool.false_ne_true]
  · rw [hI]
    dsimp only
    rw [if_pos hm, ← (h.mret_reads hc hl).2]
    rfl

/-- The target left with the predictor in a cycle in which `exec` raises. -/
theorem Through.predPC {S A B M : RIPSimulator σ} {e : Exception}
    (h : Through S A B M (some e)) (hc : Clean S) :
    M.decoded.BP.bind BPBase.BranchPredPC = S.predictedTarget := by
  have hA := hc.advance h.advance
  obtain ⟨hEX, _, hBP, _⟩ := h.entering hc
  -- `exec` raises, so EX is not a bubble, S is not stalled and no branch is trained
  have hMBP : M.BP = S.BP ∧ S.entering ≠ none := by
    rw [← hEX, ← hBP]
    rcases exec_raises h.exec with ⟨I, hI, _, rfl⟩ | ⟨I, hI, _, _, rfl⟩
    · exact ⟨rfl, by rw [hI]; exact Option.some_ne_none _⟩
    · exact ⟨rfl, by rw [hI]; exact Option.some_ne_none _⟩
  have hs : S.PS.StalledStages.IF = false := by
    by_contra hs
    exact hMBP.2 (entering_of_stalled (Bool.not_eq_false _ ▸ hs))
  have hDE : M.PS.Insts.DE = S.PS.Insts.IF ∧ M.PS.PCs.DE = S.PS.PCs.IF := by
    rw [h.insts.1, h.insts.2]
    rcases advance_ok h.advance with ⟨hs', _⟩ | ⟨_, w, _, rfl⟩
    · exact absurd (hs.symm.trans hs') Bool.false_ne_true
    · rw [(hc.fetched_insts hs w).1, (hc.fetched_insts hs w).2]
      exact ⟨rfl, rfl⟩
  have hst : M.PS.StalledStages.DE = false := by
    obtain ⟨h1, h2⟩ := exec_stall h.exec (h.atRest hA)
    rw [h1]
    cases hs' : M.PS.StalledStages.IF with
    | false => rfl
    | true => exact nomatch (h2 hs').1
  rw [decoded_predPC (hMBP.1 ▸ hc.predPC)]
  unfold predictsIF predictedTarget predictsTaken
  rw [hDE.1, hDE.2, hst, hMBP.1]
  cases S.PS.Insts.IF with
  | none => rfl
  | some J =>
    cases S.BP with
    | none => cases hb : J.isBType <;> simp [hb]
    | some P => cases hb : J.isBType <;> simp [hb, BPBase.Predict]

/-- Where a trap leads: to what `handleException` makes of `mtvec`, a signed number,
unless another target is pending. -/
theorem trap_redirect {S S' A B M : RIPSimulator σ} {e : Exception} (hc : Clean S)
    (hl : Latched S) (ht : Through S A B M (some e)) (he : isTrap e = true) (hn : Next S S') :
    S'.PC = (S.recordedTarget.or S.predictedTarget).getD
      ((S.olderStates MTVEC &&& ~~~1#32).signExtend 64) := by
  obtain ⟨A', B', M', E', D, ht', hD, rfl⟩ := hn.through
  obtain ⟨rfl, rfl, rfl, rfl⟩ := ht'.unique ht
  cases hD with
  | epilogue => exact absurd he Bool.false_ne_true
  | trap _ hm =>
    rw [redirect_eq]
    change (M'.decoded.PS.BranchPC.or (M'.decoded.BP.bind BPBase.BranchPredPC)).getD
      ((M'.decoded.squashed.trapVec &&& ~~~1#32).signExtend 64) = _
    rw [ht.branchPC hc hl, ht.predPC hc, ht.trapVec hc hl]

end RIPSimulator

open RIPSimulator

/-- **When a trap redirect is kept.**  After a cycle in which `exec` raises and
`handleException` enters a trap, the next fetch is at the trap vector exactly if
no other target is pending and the vector is below `2 ^ 31`, or the pending target is
the vector too. -/
theorem trap_redirect_iff {σ : Type} [BranchPredictor σ] {S S' A B M : RIPSimulator σ}
    {e : Exception} (hS : Reachable S) (ht : Through S A B M (some e)) (he : isTrap e = true)
    (hn : Next S S') :
    S'.PC = S.trapVector ↔
      (S.recordedTarget.or S.predictedTarget = none → (S.olderStates MTVEC).toNat < 2 ^ 31) ∧
      ∀ a, S.recordedTarget.or S.predictedTarget = some a → a = S.trapVector := by
  rw [trap_redirect hS.clean hS.latched ht he hn]
  cases S.recordedTarget.or S.predictedTarget with
  | none =>
    rw [Option.getD_none, signExtend_eq_trapVector_iff]
    exact ⟨fun h => ⟨fun _ => h, fun _ ha => (nomatch ha)⟩, fun h => h.1 rfl⟩
  | some a =>
    constructor
    · intro h
      refine ⟨fun hno => (nomatch hno), fun b hb => ?_⟩
      injection hb with hb
      exact hb ▸ h
    · intro h
      exact h.2 a rfl

/-- `csrrwi x0, mtvec, 24; ecall` without predictor: the vector is forwarded from the
csr instruction, and the next fetch is there. -/
theorem trap_redirect_ecall :
    ∃ S S' : RIPSimulator OneBitBranchPredictor,
      after 3 (boot [0x305c5073, 0x00000073] none) = some S ∧ Next S S' ∧ S.trapVector = 24 ∧
        S'.PC = S.trapVector := by
  have h : ((after 3 (boot [0x305c5073, 0x00000073] none :
      RIPSimulator OneBitBranchPredictor)).map fun S => (S.raising, S.trapVector,
        S.recordedTarget.or S.predictedTarget, S.olderStates MTVEC, (after 1 S).isSome)) =
      some (some .EnvironmentCallFromMMode, 24, none, 24, true) := by
    decide +kernel
  obtain ⟨S, hS, heq⟩ := Option.map_eq_some_iff.mp h
  simp only [Prod.mk.injEq] at heq
  obtain ⟨hr, hv, hno, hlt, hs⟩ := heq
  obtain ⟨S', hS'⟩ := Option.isSome_iff_exists.mp hs
  have hn := next_of_after_one hS'
  obtain ⟨A, B, M, ht⟩ := through_of_raising (reachable_after hS) hn hr
  refine ⟨S, S', hS, hn, hv, ?_⟩
  rw [trap_redirect_iff (reachable_after hS) ht rfl hn, hno]
  refine ⟨fun _ => ?_, fun a ha => (nomatch ha)⟩
  rw [hlt]
  decide

/-- `csrrwi x0, mtvec, 24; ecall; beq x0, x0, 8` under a new perceptron, which
predicts every branch taken: the fetch after the trap is at `16`. -/
theorem trap_redirect_lost :
    ¬ ∀ (S S' A B M : RIPSimulator PerceptronBranchPredictor) (e : Exception), Reachable S →
      Through S A B M (some e) → isTrap e = true → Next S S' → S'.PC = S.trapVector := by
  have h : ((after 3 (boot [0x305c5073, 0x00000073, 0x00000463] (some ⟨0, fun _ _ => 0, 0⟩) :
      RIPSimulator PerceptronBranchPredictor)).map fun S => (S.raising, S.trapVector,
        (after 1 S).map fun S' => S'.PC)) =
      some (some .EnvironmentCallFromMMode, 24, some 16) := by
    decide +kernel
  obtain ⟨S, hS, heq⟩ := Option.map_eq_some_iff.mp h
  simp only [Prod.mk.injEq] at heq
  obtain ⟨hr, hv, hs⟩ := heq
  obtain ⟨S', hS', hpc⟩ := Option.map_eq_some_iff.mp hs
  have hn := next_of_after_one hS'
  obtain ⟨A, B, M, ht⟩ := through_of_raising (reachable_after hS) hn hr
  intro hall
  have := hall S S' A B M _ (reachable_after hS) ht rfl hn
  rw [hpc, hv] at this
  exact absurd this (by decide)

/-- `lui x1, 0x80000; csrrw x0, mtvec, x1; ecall`: the fetch after the trap is far from
the vector. -/
example : ((after 4 (boot [0x800000b7, 0x30509073, 0x00000073] none :
    RIPSimulator OneBitBranchPredictor)).map fun S => (S.raising, S.trapVector,
      (after 1 S).map fun S' => S'.PC)) =
    some (some .EnvironmentCallFromMMode, 0x80000000, some 0xffffffff80000000) := by
  decide +kernel

/-! ## The updates of the CSRs -/

namespace RIPSimulator

variable {σ : Type}

/-- The CSRs that a trap entry or an `mret` updates. -/
def updatedCSRs : List CSRAddress := [MSTATUS, MEPC, MCAUSE, MTVAL]

/-- A trap entry leaves the other CSRs alone. -/
theorem trapStates_of_not_mem (States : CSRs) (PC : Address) (e : Exception) (tv : RegVal)
    (m : ModeKind) {a : CSRAddress} (h : a ∉ updatedCSRs) :
    trapStates States PC e tv m a = States a := by
  simp only [updatedCSRs, List.mem_cons, List.not_mem_nil, or_false, not_or] at h
  obtain ⟨h1, h2, h3, h4⟩ := h
  unfold trapStates CSRs.setMPP CSRs.setMIE CSRs.setMPIE
  rw [CSRs.write_of_ne _ h1, CSRs.write_of_ne _ h1, CSRs.write_of_ne _ h1, CSRs.write_of_ne _ h4,
    CSRs.write_of_ne _ h3, CSRs.write_of_ne _ h2]

/-- What a trap entry puts in `mstatus`: MPIE takes MIE, MIE is cleared, MPP is the
mode, and nothing else changes. -/
theorem trapStates_mstatus (States : CSRs) (PC : Address) (e : Exception) (tv : RegVal) (i : ℕ)
    (hi : i < 32) :
    (trapStates States PC e tv .Machine MSTATUS).getLsbD i =
      if i = 11 ∨ i = 12 then true else if i = 3 then false
      else if i = 7 then (States MSTATUS).getLsbD 3 else (States MSTATUS).getLsbD i := by
  have h : trapStates States PC e tv .Machine MSTATUS =
      ((((States MSTATUS &&& 0xffffff7f#32) |||
        (BitVec.ofBool ((States MSTATUS).getLsbD 3)).setWidth 32 <<< 7) &&& 0xfffffff7#32) |||
        (BitVec.ofBool false).setWidth 32 <<< 3) &&& 0xffffe7ff#32 ||| 3#32 <<< 11 := by
    simp [trapStates, CSRs.setMPP, CSRs.setMIE, CSRs.setMPIE, CSRs.write, CSRs.read, MSTATUS,
      MEPC, MCAUSE, MTVAL, ModeKind.val]
  rw [h]
  simp only [BitVec.getLsbD_or, BitVec.getLsbD_and, BitVec.getLsbD_shiftLeft]
  interval_cases i <;> simp

theorem mretStates_apply_of_ne (States : CSRs) (v : RegVal) {a : CSRAddress} (ha : a ≠ MSTATUS) :
    mretStates States v a = States a := by
  unfold mretStates CSRs.setMPP CSRs.setMPIE CSRs.setMIE CSRs.setMPREV
  rw [CSRs.write_of_ne _ ha, CSRs.write_of_ne _ ha, CSRs.write_of_ne _ ha]
  split_ifs
  · rfl
  · rw [CSRs.write_of_ne _ ha]

/-- What an `mret` puts in `mstatus` when it has read that register: MIE takes MPIE,
MPIE is set, MPP is cleared, and so is MPREV on leaving Machine mode. -/
theorem mretStates_mstatus_bits (States : CSRs) (i : ℕ) (hi : i < 32) :
    (mretStates States (States MSTATUS) MSTATUS).getLsbD i =
      if i = 11 ∨ i = 12 then false else if i = 7 then true
      else if i = 3 then (States MSTATUS).getLsbD 7
      else if i = 17 ∧ ModeKind.ofMPP (States MSTATUS) ≠ .Machine then false
      else (States MSTATUS).getLsbD i := by
  have h : ∀ St : CSRs, (((St.setMIE ((States MSTATUS).getLsbD 7)).setMPIE true).setMPP .User)
      MSTATUS =
      ((((St MSTATUS &&& 0xfffffff7#32) |||
        (BitVec.ofBool ((States MSTATUS).getLsbD 7)).setWidth 32 <<< 3) &&& 0xffffff7f#32) |||
        (BitVec.ofBool true).setWidth 32 <<< 7) &&& 0xffffe7ff#32 ||| 0#32 <<< 11 := by
    intro St
    simp [CSRs.setMPP, CSRs.setMIE, CSRs.setMPIE, CSRs.write, CSRs.read, ModeKind.val]
  unfold mretStates
  rw [h]
  by_cases hm : ModeKind.ofMPP (States MSTATUS) = .Machine
  · rw [if_pos hm]
    simp only [BitVec.getLsbD_or, BitVec.getLsbD_and, BitVec.getLsbD_shiftLeft, hm]
    interval_cases i <;> simp
  · have hv : (States.setMPREV false) MSTATUS =
        (States MSTATUS &&& 0xfffdffff#32) ||| (BitVec.ofBool false).setWidth 32 <<< 17 := by
      simp [CSRs.setMPREV, CSRs.write, CSRs.read]
    rw [if_neg hm, hv]
    simp only [BitVec.getLsbD_or, BitVec.getLsbD_and, BitVec.getLsbD_shiftLeft]
    interval_cases i <;> simp [hm]

theorem mretStates_mstatus (States States' : CSRs) (v : RegVal)
    (h : States MSTATUS = States' MSTATUS) :
    mretStates States v MSTATUS = mretStates States' v MSTATUS := by
  unfold mretStates CSRs.setMPP CSRs.setMPIE CSRs.setMIE CSRs.setMPREV CSRs.read
  simp only [CSRs.write_self]
  split_ifs
  · rw [h]
  · simp only [CSRs.write_self, h]

variable [BranchPredictor σ]

/-- An `mret` that raises nothing returns. -/
theorem Through.returned {S A B M : RIPSimulator σ} {I : Instruction} (ht : Through S A B M none)
    (hc : Clean S) (hI : S.entering = some I) (hm : I.isMret = true) : M = B.returned := by
  have hEX := (ht.entering hc).1.trans hI
  rcases exec_ok ht.exec with ⟨hx, _⟩ | ⟨J, hx, hp, _⟩ | ⟨_, _, _, _, h, _⟩ |
    ⟨_, _, _, _, _, hM⟩ | ⟨_, _, _, _, h, _⟩
  · exact nomatch hx.symm.trans hEX
  · obtain rfl := Option.some.inj (hx.symm.trans hEX)
    exact absurd ((isMret_of_isPlain hp).symm.trans hm) Bool.false_ne_true
  · exact nomatch h
  · exact hM
  · exact nomatch h

/-- The CSRs at the end of a cycle that enters a trap. -/
theorem Through.trapped {S A B M D : RIPSimulator σ} {e : Exception} {I : Instruction}
    (ht : Through S A B M (some e)) (hc : Clean S) (hl : Latched S) (hI : S.entering = some I)
    (hD : Handled M.decoded (some e) D) (htrap : isTrap e = true) :
    D.redirect.finish.States = (trapStates S.drainMA S.PS.PCs.DE e
      (if e = .IllegalInstruction then I.getVal else 0) S.Mode).incCYCLE := by
  obtain ⟨hEX, hMode, _⟩ := ht.entering hc
  have hM : M.PS.Insts = B.PS.Insts ∧ M.PS.PCs = B.PS.PCs ∧ M.States = B.States ∧
      M.Mode = B.Mode := by
    rcases exec_raises ht.exec with ⟨_, _, _, rfl⟩ | ⟨_, _, _, _, rfl⟩ <;>
    exact ⟨rfl, rfl, rfl, rfl⟩
  obtain ⟨_, _, hdMode, _, hdst, _, _, _, hdI, hdP, _⟩ := M.decoded_frame
  rw [finish_States]
  cases hD with
  | epilogue => exact absurd htrap Bool.false_ne_true
  | trap _ _ =>
    change (trapStates M.decoded.States M.decoded.PS.PCs.EX e
      (if e = .IllegalInstruction then (M.decoded.PS.Insts.EX.map Instruction.getVal).getD 0 else 0)
      M.decoded.Mode).incCYCLE = _
    rw [hdP, hM.2.1, ht.PC_EX hc ((hc.advance_entering ht.advance).trans hI), hdI, hM.1, hEX, hI,
      hdMode, hM.2.2.2, hMode, hdst, hM.2.2.1, ht.states hc hl]
    rfl

end RIPSimulator

end RipSim
