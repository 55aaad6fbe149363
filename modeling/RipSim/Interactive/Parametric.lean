import RipSim.Pipeline.System
import RipSim.Model.Interactive

/-!
# The pipeline does not look into its predictor

A map between two predictors that commutes with `Learn`, and that keeps the bit which `decode` is
about to read, commutes with the cycle: the pipeline sees of its predictor the bits of `Predict`
and nothing else.
-/

namespace RipSim

variable {σ τ : Type}

/-- A map that commutes with every step commutes with their sequence. -/
theorem map_bind_of {ε α β α' β' : Type} {x : Except ε α} {x' : Except ε α'} {g : α → α'}
    {h : β → β'}
    {k : α → Except ε β} {k' : α' → Except ε β'} (hx : x' = g <$> x)
    (hk : ∀ a, k' (g a) = h <$> k a) : x' >>= k' = h <$> (x >>= k) := by
  rw [hx]
  cases x with
  | error e => rfl
  | ok a => exact hk a

/-- The base class around another object. -/
def BPBase.mapSelf (f : σ → τ) (B : BPBase σ) : BPBase τ where
  HitNum := B.HitNum
  MissNum := B.MissNum
  PrevPred := B.PrevPred
  BranchPredPC := B.BranchPredPC
  self := f B.self
  calls := B.calls

theorem BPBase.mapSelf_learn [BranchPredictor σ] [BranchPredictor τ] {f : σ → τ}
    (hf : ∀ s cond PC, f (BranchPredictor.Learn s cond PC) = BranchPredictor.Learn (f s) cond PC)
    (B : BPBase σ) (cond pred : Bool) (PC : Address) :
    ((B.mapSelf f).StatsUpdate cond pred).Learn cond PC =
      ((B.StatsUpdate cond pred).Learn cond PC).mapSelf f := by
  unfold BPBase.StatsUpdate
  split_ifs
  · exact congrArg (fun s => BPBase.mk _ _ _ _ s _) (hf ..).symm
  · exact congrArg (fun s => BPBase.mk _ _ _ _ s _) (hf ..).symm

theorem BPBase.mapSelf_predict [BranchPredictor σ] [BranchPredictor τ] {f g : σ → τ} {B : BPBase σ}
    {PC : Address} (h : BranchPredictor.Predict (f B.self) PC =
      ((BranchPredictor.Predict B.self PC).1, g (BranchPredictor.Predict B.self PC).2)) :
    (B.mapSelf f).Predict PC = ((B.Predict PC).1, (B.Predict PC).2.mapSelf g) := by
  unfold BPBase.Predict
  rw [show (B.mapSelf f).self = f B.self from rfl, h]
  rfl

namespace RIPSimulator

/-- The simulator with another predictor object. -/
def mapSelf (f : σ → τ) (S : RIPSimulator σ) : RIPSimulator τ where
  Mem := S.Mem
  PC := S.PC
  States := S.States
  Mode := S.Mode
  NumStages := S.NumStages
  PS := S.PS
  GPRegs := S.GPRegs
  BP := S.BP.map (·.mapSelf f)
  Stats := S.Stats
  cerr := S.cerr

variable (f : σ → τ) (S : RIPSimulator σ)

theorem advance_mapSelf : (S.mapSelf f).advance = (·.mapSelf f) <$> S.advance := by
  unfold advance
  change (if S.PS.StalledStages.IF then _ else _) = _
  cases S.PS.StalledStages.IF with
  | true => rfl
  | false =>
    change (S.Mem.readWord S.PC >>= fun w => _) = _
    cases S.Mem.readWord S.PC <;> rfl

theorem written_mapSelf : (S.mapSelf f).written = S.written.mapSelf f := by
  unfold written
  rw [show (S.mapSelf f).PS = S.PS from rfl]
  cases S.PS.Insts.WB <;> rfl

theorem memoryaccess_mapSelf :
    (S.mapSelf f).memoryaccess = (·.mapSelf f) <$> S.memoryaccess := by
  unfold memoryaccess
  rw [show (S.mapSelf f).PS = S.PS from rfl]
  cases S.PS.Insts.MA with
  | none => rfl
  | some I =>
    dsimp only
    change (if S.PS.EXRdVal = consoleAd then _ else if S.Mode = .Epilogue then _ else _) = _
    split_ifs
    · rfl
    · rfl
    · change (access S.Mem I S.PS.EXRdVal S.PS.EXRs2Val >>= fun x => _) = _
      cases access S.Mem I S.PS.EXRdVal S.PS.EXRs2Val <;> rfl

/-- The map on what `exec` returns. -/
theorem execMret_mapSelf :
    (S.mapSelf f).execMret = (fun x => (x.1, x.2.mapSelf f)) <$> S.execMret := by
  rw [execMret_eq, execMret_eq]
  change Except.ok (if ModeKind.ofMPP S.mretStatus = .Hypervisor then _ else _) = _
  split_ifs <;> rfl

theorem trapEntry_mapSelf (E : Exception) :
    (S.mapSelf f).trapEntry E = (·.mapSelf f) <$> S.trapEntry E := by
  have hEX : isCSRAt S.PS.Insts.EX (MTVEC.setWidth 32) = .ok (csrIs S.PS.Insts.EX MTVEC) :=
    isCSRAt_eq _ _
  have hMA : isCSRAt S.PS.Insts.MA (MTVEC.setWidth 32) = .ok (csrIs S.PS.Insts.MA MTVEC) :=
    isCSRAt_eq _ _
  have hPS : (S.mapSelf f).PS = S.PS := rfl
  unfold trapEntry
  simp only [hPS, hEX, hMA, bind, Except.bind]
  cases trap_val E (S.PS.PCs.EX.setWidth 32) ((S.PS.Insts.EX.map Instruction.getVal).getD 0) <;> rfl

theorem handleException_mapSelf (E : Exception) :
    (S.mapSelf f).handleException E = (fun x => (x.1, x.2.mapSelf f)) <$> S.handleException E := by
  have htrap := trapEntry_mapSelf f S.squashed E
  unfold handleException
  by_cases h1 : E = .Breakpoint
  · rw [if_pos h1, if_pos h1]
    rfl
  by_cases h2 : E = .R0
  · rw [if_neg h1, if_neg h1, if_pos h2, if_pos h2]
    rfl
  by_cases h3 : E = .R1
  · rw [if_neg h1, if_neg h1, if_neg h2, if_neg h2, if_pos h3, if_pos h3]
    rfl
  rw [if_neg h1, if_neg h1, if_neg h2, if_neg h2, if_neg h3, if_neg h3]
  change (if S.Mode = .Machine then
      (S.squashed.mapSelf f).trapEntry E >>= fun S => Except.ok (true, S) else _) =
    (fun x : Bool × RIPSimulator σ => (x.1, x.2.mapSelf f)) <$> (if S.Mode = .Machine then
      S.squashed.trapEntry E >>= fun S => Except.ok (true, S) else _)
  rw [htrap]
  split_ifs
  · cases S.squashed.trapEntry E <;> rfl
  · rfl

theorem redirect_mapSelf : (S.mapSelf f).redirect = S.redirect.mapSelf f := by
  obtain ⟨_, _, _, _, _, _, _, BP, _, _⟩ := S
  cases BP <;> rfl

theorem finish_mapSelf : (S.mapSelf f).finish = S.finish.mapSelf f := rfl

variable [BranchPredictor σ] [BranchPredictor τ]

section Learn

variable {f}
  (hf : ∀ s cond PC, f (BranchPredictor.Learn s cond PC) = BranchPredictor.Learn (f s) cond PC)

omit [BranchPredictor σ] [BranchPredictor τ] in
theorem execI_mapSelf (I : Instruction) (IT : ITypeKinds) :
    (S.mapSelf f).execI I IT = (fun x => (x.1, x.2.mapSelf f)) <$> S.execI I IT := by
  have huse : (S.mapSelf f).loadUse I = S.loadUse I := rfl
  cases hl : IT.isLoad with
  | true =>
    cases IT with
    | lb | lh | lw | lbu | lhu =>
      unfold execI
      dsimp only
      rw [huse]
      cases S.loadUse I <;> rfl
    | _ => exact absurd hl Bool.false_ne_true
  | false =>
    cases IT with
    | lb | lh | lw | lbu | lhu => exact absurd hl.symm Bool.false_ne_true
    | mret => exact execMret_mapSelf f S
    | _ => rfl

include hf

theorem execB_mapSelf (BT : BTypeKinds) : (S.mapSelf f).execB BT = (S.execB BT).mapSelf f := by
  obtain ⟨_, _, _, _, _, PS, _, BP, _, _⟩ := S
  cases BP with
  | none =>
    unfold execB
    dsimp only [mapSelf, Option.map_none]
    split_ifs <;> rfl
  | some B =>
    have hlearn := B.mapSelf_learn hf (BT.cond PS.DERs1Val PS.DERs2Val) B.PrevPred PS.PCs.EX
    unfold execB
    dsimp only [mapSelf, Option.map_some]
    rw [show (B.mapSelf f).PrevPred = B.PrevPred from rfl, hlearn]
    cases B.PrevPred ^^ BT.cond PS.DERs1Val PS.DERs2Val <;> rfl

theorem exec_mapSelf : (S.mapSelf f).exec = (fun x => (x.1, x.2.mapSelf f)) <$> S.exec := by
  unfold exec
  rw [show (S.mapSelf f).PS = S.PS from rfl]
  cases S.PS.Insts.EX with
  | none => rfl
  | some I =>
    cases I with
    | IInstruction IT Rd Rs1 Imm => exact execI_mapSelf S _ IT
    | JInstruction JT =>
      cases JT
      rfl
    | BInstruction BT =>
      exact congrArg (fun M => Except.ok (none, M)) (execB_mapSelf S hf BT)
    | UInstruction UT => cases UT <;> rfl
    | _ => rfl

/-- The first half of a cycle. -/
theorem upToExec_mapSelf :
    (S.mapSelf f).upToExec = (fun x => (x.1, x.2.mapSelf f)) <$> S.upToExec := by
  unfold upToExec
  refine map_bind_of (advance_mapSelf f S) fun A => ?_
  change (if A.PS.isEmpty then _ else _) = _
  cases A.PS.isEmpty with
  | true => rfl
  | false =>
    refine map_bind_of (g := (·.mapSelf f)) ?_ fun W => ?_
    · rw [writeback_eq, writeback_eq, written_mapSelf]
      rfl
    · exact map_bind_of (memoryaccess_mapSelf f W) fun B =>
        map_bind_of (exec_mapSelf B hf) fun x => rfl

end Learn

variable {S}

omit [BranchPredictor σ] in
theorem predictLine_isSome {I : Instruction} (hI : S.PS.Insts.DE = some I) {B : BPBase σ}
    (hB : S.BP = some B) :
    S.predictLine.isSome = (I.isBType && !S.PS.StalledStages.DE) := by
  unfold predictLine
  rw [hI, hB]
  dsimp only
  cases I.isBType && !S.PS.StalledStages.DE <;> rfl

/-- The objects before `decode` correspond by `f` and those after it by `g`: a `Predict` gives the
same bit, and no `Predict` leaves the object alone. -/
def SameBit (f g : σ → τ) (S : RIPSimulator σ) : Prop :=
  ∀ B, S.BP = some B →
    (S.predictLine.isSome = true → BranchPredictor.Predict (f B.self) S.PS.PCs.DE =
      ((BranchPredictor.Predict B.self S.PS.PCs.DE).1,
        g (BranchPredictor.Predict B.self S.PS.PCs.DE).2)) ∧
    (S.predictLine.isSome = false → f B.self = g B.self)

variable {f} {g : σ → τ}

omit [BranchPredictor σ] [BranchPredictor τ] in
theorem mapSelf_congr (h : ∀ B, S.BP = some B → f B.self = g B.self) :
    S.mapSelf f = S.mapSelf g := by
  obtain ⟨_, _, _, _, _, _, _, BP, _, _⟩ := S
  cases BP with
  | none => rfl
  | some B =>
    unfold mapSelf BPBase.mapSelf
    simp [h B rfl]

/-- What `decode` does to the base class. -/
theorem predicted_mapSelf {I : Instruction}
    (hp : ∀ B, S.BP = some B →
      (I.isBType = true → BranchPredictor.Predict (f B.self) S.PS.PCs.DE =
        ((BranchPredictor.Predict B.self S.PS.PCs.DE).1,
          g (BranchPredictor.Predict B.self S.PS.PCs.DE).2)) ∧
      (I.isBType = false → f B.self = g B.self)) :
    (S.mapSelf f).predicted I = (S.predicted I).map (·.mapSelf g) ∧
      (S.mapSelf f).predictsTaken I = S.predictsTaken I := by
  have hPS : (S.mapSelf f).PS = S.PS := rfl
  have hBP : (S.mapSelf f).BP = S.BP.map (·.mapSelf f) := rfl
  unfold predicted predictsTaken
  rw [hPS, hBP]
  cases hB : S.BP with
  | none => cases I.isBType <;> exact ⟨rfl, rfl⟩
  | some B =>
    obtain ⟨hask, hkeep⟩ := hp B hB
    cases hb : I.isBType with
    | false =>
      refine ⟨?_, rfl⟩
      change some (B.mapSelf f) = some (B.mapSelf g)
      rw [BPBase.mapSelf, BPBase.mapSelf, hkeep hb]
    | true =>
      dsimp only [Option.map_some]
      rw [BPBase.mapSelf_predict (hask hb)]
      refine ⟨?_, rfl⟩
      cases (B.Predict S.PS.PCs.DE).1 <;> rfl

theorem decoded_mapSelf (hp : SameBit f g S) : (S.mapSelf f).decoded = S.decoded.mapSelf g := by
  have hkeep : (∀ B, S.BP = some B → S.predictLine.isSome = false) → S.mapSelf f = S.mapSelf g :=
    fun h => mapSelf_congr fun B hB => (hp B hB).2 (h B hB)
  cases hI : S.PS.Insts.DE with
  | none =>
    have hsame := hkeep fun B hB => by unfold predictLine; rw [hI]; rfl
    unfold decoded
    rw [show (S.mapSelf f).PS = S.PS from rfl, hI]
    exact hsame
  | some I =>
    cases hs : S.PS.StalledStages.DE with
    | true =>
      have hsame := hkeep fun B hB => by
        rw [predictLine_isSome hI hB, hs, Bool.not_true, Bool.and_false]
      unfold decoded
      rw [show (S.mapSelf f).PS = S.PS from rfl, hI, hs]
      exact hsame
    | false =>
      obtain ⟨hpred, htaken⟩ : (S.mapSelf f).predicted I = (S.predicted I).map (·.mapSelf g) ∧
          (S.mapSelf f).predictsTaken I = S.predictsTaken I :=
        predicted_mapSelf fun B hB => by
          have hbit := hp B hB
          rwa [predictLine_isSome hI hB, hs, Bool.not_false, Bool.and_true] at hbit
      have hPS : (S.mapSelf f).decodedPS I = S.decodedPS I := by
        unfold decodedPS
        rw [htaken]
        rfl
      unfold decoded
      rw [show (S.mapSelf f).PS = S.PS from rfl, hI, hs]
      dsimp only
      rw [hpred, hPS]
      rfl

/-- The second half of a cycle. -/
theorem fromDecode_mapSelf (hp : SameBit f g S) (E : Option Exception) :
    (S.mapSelf f).fromDecode E = (fun x => (x.1, x.2.mapSelf g)) <$> S.fromDecode E := by
  have hnext : ∀ D : RIPSimulator σ, (D.mapSelf g).redirect.finish = D.redirect.finish.mapSelf g :=
    fun D => congrArg finish (redirect_mapSelf g D)
  unfold fromDecode
  refine map_bind_of (g := (·.mapSelf g)) ?_ fun D => ?_
  · rw [decode_eq, decode_eq, decoded_mapSelf hp]
    rfl
  · cases E with
    | none => exact congrArg (fun T => Except.ok (Exit.next, T)) (hnext D)
    | some E =>
      refine map_bind_of (handleException_mapSelf g D E) fun x => ?_
      obtain ⟨goesOn, T⟩ := x
      cases goesOn with
      | false => rfl
      | true => exact congrArg (fun T => Except.ok (Exit.next, T)) (hnext T)

/-- A cycle is its two halves. -/
theorem cycle_eq_halves (S : RIPSimulator σ) : S.cycle = S.upToExec >>= fun x =>
    match x.1 with
    | none => .ok (.empty, x.2)
    | some E => x.2.fromDecode E := by
  unfold cycle upToExec stages fromDecode
  cases S.advance with
  | error e => rfl
  | ok A =>
    change (if A.PS.isEmpty then _ else _) = (if A.PS.isEmpty then _ else _) >>= _
    cases A.PS.isEmpty with
    | true => rfl
    | false =>
      rw [if_neg Bool.false_ne_true, if_neg Bool.false_ne_true, writeback_eq]
      simp only [bind, Except.bind]
      cases A.written.memoryaccess with
      | error e => rfl
      | ok B =>
        dsimp only
        cases B.exec with
        | error e => rfl
        | ok x =>
          obtain ⟨E, M⟩ := x
          change ((M.decode >>= fun T => Except.ok (E, T)) >>= _) = (M.decode >>= _)
          cases M.decode with
          | error e => rfl
          | ok T => cases E <;> rfl

end RIPSimulator

end RipSim
