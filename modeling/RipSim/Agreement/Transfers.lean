import RipSim.Pipeline.Issue
import RipSim.Refinement.Step
import RipSim.Reference.Conformance

/-!
# Where a transfer of control leads

The pipeline sends the fetch to the target of a taken transfer in one of two cycles: in the
one that decodes a branch, if it is predicted taken, and else in the one that executes the
transfer.  `redirectAddress` reads the target off either; `transfer_target_iff` compares it
with the next PC of `Instruction::exec`.
-/

namespace RipSim

open RIPSimulator

namespace RIPSimulator

variable {σ : Type} [BranchPredictor σ] {S₀ S S' : RIPSimulator σ} {I : Instruction}

/-! ## The two redirects -/

/-- The address to which the pipeline is sent for the instruction `I` that enters EX in the
cycle from `S` to `S'`: a branch that was predicted taken has sent it there already. -/
def redirectAddress (S S' : RIPSimulator σ) (I : Instruction) : Address :=
  if S.foretold I then S.PC else S'.PC

/-- A branch that was predicted taken has been followed in the cycle that decoded it. -/
theorem Next.foretold_PC (hc : Clean S₀) (hn : Next S₀ S) (hI : S.entering = some I)
    (hfor : S.foretold I = true) : S.PC = S.PS.PCs.DE + I.immVal.signExtend 64 := by
  obtain ⟨A, B, M, ht, hS, hDE, -, hinv, -⟩ := hn.decodes hc hI
  have hA := hc.advance ht.advance
  have hB := ht.atRest hA
  have hpred : M.predictsIF = true := by
    rw [← decoded_foretold hDE (exec_stall ht.exec hB).1, ← hS]
    exact hfor
  -- nothing older has redirected: that would have emptied DE
  have hbr : M.PS.BranchPC = none := by
    rcases exec_ok ht.exec with ⟨_, _, rfl⟩ | ⟨J, _, _, _, rfl⟩ | ⟨_, _, _, _, h, _⟩ |
      ⟨_, _, _, _, _, rfl⟩ | ⟨_, _, _, _, h, _⟩
    · exact hB.branchPC
    · have htg : B.target J = none := by
        cases htg : B.target J with
        | none => rfl
        | some t =>
          change (if (B.target J).isSome then _ else _ : Staged Bool).DE = false at hinv
          rw [htg] at hinv
          exact absurd hinv.symm Bool.false_ne_true
      show (if B.setsPC J then B.PS.BranchPC else (B.target J).or B.PS.BranchPC) = none
      rw [htg, hB.branchPC]
      split_ifs <;> rfl
    · exact nomatch h
    · exact absurd hinv.symm Bool.false_ne_true
    · exact nomatch h
  have hPCs : S.PS.PCs = M.PS.PCs := by rw [hS, (cycle_frame M).2.2.2.1]
  rw [hS, cycle_PC, hbr, decoded_predPC (exec_predPC ht.exec hB.predPC), hpred, if_pos rfl, hDE,
    ← hS, hPCs]
  rfl

/-- A redirect of EX leads to its target. -/
theorem Next.target_PC (hc : Clean S) (hn : Next S S') (hI : S.entering = some I)
    (hp : I.isPlain = true) :
    ∃ B : RIPSimulator σ, B.PS.PCs.EX = S.PS.PCs.DE ∧ B.PS.DERs1Val = S.PS.DERs1Val ∧
      B.PS.DERs2Val = S.PS.DERs2Val ∧ B.PS.DEImmVal = S.PS.DEImmVal ∧ B.BP = S.BP ∧
      ∀ t, B.target I = some t → S'.PC = t := by
  obtain ⟨A, B, M, E, D, ht, hD, hS'⟩ := hn.through
  have hAI : A.PS.Insts.EX = some I := (hc.advance_entering ht.advance).trans hI
  obtain ⟨rfl, rfl⟩ := ht.executed hAI hp
  cases hD
  obtain ⟨h1, h2, _, h4, _⟩ := ht.latches
  obtain ⟨_, _, hBP, _⟩ := ht.entering hc
  refine ⟨B, ?_, h1, h2, h4, hBP, fun t htg => ?_⟩
  · exact ht.PC_EX hc hAI
  · rw [hS']
    exact (redirected ht (hc.advance ht.advance) htg).2.2

end RIPSimulator

/-! ## Both simulators -/

/-- Where the two simulators agree on the target of a transfer with first operand `rs1`. -/
def Instruction.TransfersRight (I : Instruction) (rs1 : RegVal) : Prop :=
  match I with
  | IInstruction .jalr _ _ Imm => (rs1 + Imm.signExtend 32).getLsbD 0 = false
  | JInstruction _ _ Imm => -2 ^ 19 ≤ Imm.toInt ∧ Imm.toInt < 2 ^ 19
  | _ => True

theorem signExtend_inj (a b : RegVal) : a.signExtend 64 = b.signExtend 64 ↔ a = b := by
  constructor
  · intro h
    rw [← setWidth_signExtend a, h, setWidth_signExtend]
  · rintro rfl
    rfl

theorem and_not_one_eq_self_iff (v : RegVal) : v = v &&& ~~~1#32 ↔ v.getLsbD 0 = false := by
  refine ⟨fun h => ?_, fun h => (and_not_one_of_even h).symm⟩
  rw [h, BitVec.getLsbD_and]
  exact Bool.and_false _

/-- **When a transfer of control leads where `exec` says.**  A branch always does, a `jal`
with an offset in `[-2^19, 2^19)`, since the pipeline extends the 21-bit offset from bit
19, and a `jalr` with an even sum, since the pipeline keeps bit 0. -/
theorem transfer_target_iff {σ : Type} [BranchPredictor σ] {S₀ S S' : RIPSimulator σ} {w : Word}
    {I : Instruction} {h h' : Hart} (hS₀ : Reachable S₀) (h₀ : Next S₀ S) (hn : Next S S')
    (hI : S.entering = some I) (hw : Decoder.decode w = some I)
    (htaken : I.isJump = true ∨ I.taken S.PS.DERs1Val S.PS.DERs2Val = true)
    (hPC : h.PC = S.PS.PCs.DE) (hrs1 : I.hasRs1 = true → h.GPRegs I.rs1 = S.PS.DERs1Val)
    (hrs2 : I.hasRs2 = true → h.GPRegs I.rs2 = S.PS.DERs2Val)
    (he : I.exec h = .ok (none, h')) :
    redirectAddress S S' I = h'.PC ↔ I.TransfersRight S.PS.DERs1Val := by
  have hc := hS₀.clean.next h₀
  have heven := Decoder.decode_even w I hw
  obtain ⟨-, -, -, himm, -⟩ := h₀.operands hS₀.clean hI
  have hp : I.isPlain = true := by
    cases I with
    | IInstruction IT =>
      cases IT <;> first | rfl | exact (htaken.elim Bool.false_ne_true Bool.false_ne_true).elim
    | _ => rfl
  obtain ⟨B, hBPC, hB1, hB2, hBimm, hBP, hredirect⟩ := hn.target_PC hc hI hp
  have hjump : I.isBType = false → redirectAddress S S' I = S'.PC := by
    intro hb
    unfold redirectAddress foretold
    rw [hb, Bool.and_false, Bool.false_and, if_neg Bool.false_ne_true]
  cases I with
  | IInstruction IT Rd Rs1 Imm =>
    cases IT with
    | jalr =>
      injection he with he
      injection he with _ he
      have ht := hredirect _ rfl
      have hr : h.GPRegs Rs1 = S.PS.DERs1Val := hrs1 rfl
      rw [hjump rfl, ht, ← he, hB1, hBimm, himm]
      show (_ + signExtend (Imm.signExtend 32) 12).signExtend 64 =
        ((h.GPRegs Rs1 + Imm.signExtend 32) &&& ~~~1#32).signExtend 64 ↔ _
      rw [hr, signExtend_signExtend_twelve, signExtend_inj]
      exact and_not_one_eq_self_iff _
    | _ => exact (htaken.elim Bool.false_ne_true Bool.false_ne_true).elim
  | JInstruction JT Rd Imm =>
    cases JT
    injection he with he
    injection he with _ he
    have ht := hredirect _ rfl
    rw [hjump rfl, ht, ← he, hBPC, hBimm, himm]
    show _ + (signExtend (signExtend ((Imm &&& ~~~1#21).setWidth 32) 20) 20).signExtend 64 =
      h.PC + (Imm.signExtend 32).signExtend 64 ↔ _
    rw [hPC, add_right_inj, signExtend_inj]
    exact signExtend_jump_iff heven
  | BInstruction BT Rs1 Rs2 Imm =>
    have hcond : BT.cond S.PS.DERs1Val S.PS.DERs2Val = true :=
      htaken.resolve_left Bool.false_ne_true
    injection he with he
    injection he with _ he
    have himm' : (Instruction.BInstruction BT Rs1 Rs2 Imm).immVal = Imm.signExtend 32 := by
      show (Imm &&& ~~~1#13).signExtend 32 = _
      rw [show Imm &&& ~~~1#13 = Imm from heven]
    have hr1 : h.GPRegs Rs1 = S.PS.DERs1Val := hrs1 rfl
    have hr2 : h.GPRegs Rs2 = S.PS.DERs2Val := hrs2 rfl
    have hnext : h'.PC = S.PS.PCs.DE + (Imm.signExtend 32).signExtend 64 := by
      rw [← he, hr1, hr2, hcond, hPC]
      rfl
    refine ⟨fun _ => trivial, fun _ => ?_⟩
    rw [hnext, redirectAddress]
    cases hfor : S.foretold (.BInstruction BT Rs1 Rs2 Imm) with
    | true => rw [if_pos rfl, h₀.foretold_PC hS₀.clean hI hfor, himm']
    | false =>
      -- not followed when decoded, so it is a misprediction or there is no predictor
      rw [if_neg Bool.false_ne_true]
      have hmove := moving_of_entering hI
      rw [foretold_of_branch hmove rfl, ← hBP] at hfor
      refine hredirect _ ?_
      unfold target
      dsimp only
      rw [hB1, hB2, hcond, hBPC, hBimm, himm, himm']
      cases hP : B.BP with
      | none => rfl
      | some P =>
        rw [hP] at hfor
        have hpred : P.PrevPred = false := hfor
        simp [hpred]
  | _ => exact (htaken.elim Bool.false_ne_true Bool.false_ne_true).elim

/-- A machine at address `0` with the registers of a simulator that has just been booted. -/
def jumpHart : Hart where
  PC := 0
  GPRegs := GPRegisters.new 128 0 none
  Mem := imageOf []
  States := CSRs.new
  Mode := .Machine
  cerr := []

/-- `jal x1, 8` at address `0` leads to `8`. -/
theorem transfer_target_iff_jal :
    ∃ S₀ S S' : RIPSimulator OneBitBranchPredictor, Next S₀ S ∧ Next S S' ∧
      S.entering = some (.JInstruction .jal 1 8) ∧
      redirectAddress S S' (.JInstruction .jal 1 8) = 8 := by
  have h : ((after 1 (boot [0x008000ef] none : RIPSimulator OneBitBranchPredictor)).bind fun S₀ =>
      (after 1 S₀).map fun S => (S.entering, S.PS.PCs.DE, (after 1 S).isSome)) =
      some (some (.JInstruction .jal 1 8), 0, true) := by
    decide +kernel
  obtain ⟨S₀, hS₀, h⟩ := Option.bind_eq_some_iff.mp h
  obtain ⟨S, hS, heq⟩ := Option.map_eq_some_iff.mp h
  simp only [Prod.mk.injEq] at heq
  obtain ⟨hI, hPC, hs⟩ := heq
  obtain ⟨S', hS'⟩ := Option.isSome_iff_exists.mp hs
  have h₀ := next_of_after_one hS
  have hn := next_of_after_one hS'
  have hw : Decoder.decode 0x008000ef = some (.JInstruction .jal 1 8) := by decide
  have hright : -2 ^ 19 ≤ (8 : BitVec 21).toInt ∧ (8 : BitVec 21).toInt < 2 ^ 19 := by decide
  exact ⟨S₀, S, S', h₀, hn, hI,
    (transfer_target_iff (h := jumpHart) (reachable_after hS₀) h₀ hn hI hw (.inl rfl) hPC.symm nofun
      nofun rfl).mpr hright⟩

/-- `jal x1, 0x80000` at address `0` leads to `-0x80000`. -/
theorem jump_extended_from_bit_nineteen :
    ¬∀ (S₀ S S' : RIPSimulator OneBitBranchPredictor) (I : Instruction) (h h' : Hart),
      Reachable S₀ → Next S₀ S → Next S S' → S.entering = some I →
      Decoder.decode 0x000800ef = some I → I.isJump = true → h.PC = S.PS.PCs.DE →
      I.exec h = .ok (none, h') → redirectAddress S S' I = h'.PC := by
  have h : ((after 1 (boot [0x000800ef] none : RIPSimulator OneBitBranchPredictor)).bind fun S₀ =>
      (after 1 S₀).bind fun S => (after 1 S).map fun S' => (S.entering, S.PS.PCs.DE,
        redirectAddress S S' (.JInstruction .jal 1 0x80000))) =
      some (some (.JInstruction .jal 1 0x80000), 0, 0xfffffffffff80000) := by
    decide +kernel
  obtain ⟨S₀, hS₀, h⟩ := Option.bind_eq_some_iff.mp h
  obtain ⟨S, hS, h⟩ := Option.bind_eq_some_iff.mp h
  obtain ⟨S', hS', heq⟩ := Option.map_eq_some_iff.mp h
  simp only [Prod.mk.injEq] at heq
  obtain ⟨hI, hPC, hx⟩ := heq
  intro hall
  have hbad := hall S₀ S S' _ jumpHart _ (reachable_after hS₀) (next_of_after_one hS)
    (next_of_after_one hS') hI (by decide) rfl hPC.symm rfl
  rw [hx] at hbad
  exact absurd hbad (by decide)

end RipSim
