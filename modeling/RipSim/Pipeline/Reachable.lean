import RipSim.Pipeline.System
import RipSim.Library.Runs

/-!
# Reachable pipeline states

`Next` is one cycle that goes on, `Started` a simulator that has just been
constructed and given its start address, `Reachable` a state that some number of
cycles leads to.

Between two cycles most of the control state is at rest: no stage is invalid, no
branch target and no predicted target is pending, and the only stall there can be
is that of DE and IF together, behind a load in EX whose register DE reads.  This
is `Clean`, the invariant every other file starts from.
-/

namespace RipSim

namespace RIPSimulator

variable {σ : Type}

/-! ## Initial and reachable states -/

/-- What the constructor and the assignment of the start address leave. -/
structure Started (S : RIPSimulator σ) : Prop where
  PS : ∃ DERs1Val PCs, S.PS = PipelineStates.new DERs1Val PCs
  States : S.States = CSRs.new
  Mode : S.Mode = .Machine
  NumStages : S.NumStages = 0
  BP : ∃ self : Option σ, S.BP = self.map BPBase.new

theorem started_new {is : List Byte} {self : Option σ} {DRAMSize DRAMBase : Address}
    {Stats : Option Statistics} {SPIValue StartAddress : Option Address} {DERs1Val : RegVal}
    {PCs : Staged Address} {S : RIPSimulator σ}
    (h : new is (self.map BPBase.new) DRAMSize Stats DRAMBase SPIValue DERs1Val PCs = .ok S) :
    Started { S with PC := StartAddress.getD S.PC } := by
  unfold new at h
  cases hM : loadImage is (Memory.new DRAMSize DRAMBase) DRAMBase with
  | error e => rw [hM] at h; exact nomatch h
  | ok M =>
    rw [hM] at h
    injection h with h
    subst h
    exact ⟨⟨_, _, rfl⟩, rfl, rfl, rfl, ⟨_, rfl⟩⟩

/-- One cycle that goes on. -/
def Next [BranchPredictor σ] (S S' : RIPSimulator σ) : Prop := S.cycle = .ok (.next, S')

/-- Some number of cycles leads to `S`. -/
def Reachable [BranchPredictor σ] (S : RIPSimulator σ) : Prop :=
  ∃ S₀, Started S₀ ∧ Runs.Reaches Next S₀ S

/-- The state after `n` cycles that go on. -/
def after [BranchPredictor σ] : ℕ → RIPSimulator σ → Option (RIPSimulator σ)
  | 0, S => some S
  | n + 1, S =>
    match S.cycle with
    | .ok (.next, S') => after n S'
    | _ => none

theorem reaches_after [BranchPredictor σ] {n : ℕ} {S S' : RIPSimulator σ}
    (h : after n S = some S') : Runs.Reaches Next S S' := by
  induction n generalizing S with
  | zero =>
    injection h with h
    exact h ▸ Runs.Reaches.refl
  | succ n ih =>
    unfold after at h
    split at h
    · rename_i S₁ hS₁
      exact Relation.ReflTransGen.head hS₁ (ih h)
    · exact nomatch h

/-- The state after `n` cycles that go on, each from a state that passes the test `c`. -/
def afterWhile [BranchPredictor σ] (c : RIPSimulator σ → Bool) :
    ℕ → RIPSimulator σ → Option (RIPSimulator σ)
  | 0, S => some S
  | n + 1, S =>
    if c S then
      match S.cycle with
      | .ok (.next, S') => afterWhile c n S'
      | _ => none
    else none

theorem reachesWhile_afterWhile [BranchPredictor σ] {p : RIPSimulator σ → Prop}
    {c : RIPSimulator σ → Bool} (hc : ∀ S, c S = true → p S) {n : ℕ} {S S' : RIPSimulator σ}
    (h : afterWhile c n S = some S') : Runs.ReachesWhile Next p S S' := by
  induction n generalizing S with
  | zero =>
    injection h with h
    exact h ▸ Relation.ReflTransGen.refl
  | succ n ih =>
    unfold afterWhile at h
    split at h
    · rename_i hcS
      split at h
      · rename_i S₁ hS₁
        exact Relation.ReflTransGen.head ⟨hc S hcS, hS₁⟩ (ih h)
      · exact nomatch h
    · exact nomatch h

theorem after_of_afterWhile [BranchPredictor σ] {c : RIPSimulator σ → Bool} {n : ℕ}
    {S S' : RIPSimulator σ} (h : afterWhile c n S = some S') : after n S = some S' := by
  induction n generalizing S with
  | zero => exact h
  | succ n ih =>
    unfold afterWhile at h
    unfold after
    split at h
    · split at h
      · exact ih h
      · exact nomatch h
    · exact nomatch h

/-- The last of `n + 1` cycles. -/
theorem after_succ [BranchPredictor σ] {n : ℕ} {S S' : RIPSimulator σ}
    (h : after (n + 1) S = some S') : ∃ T, after n S = some T ∧ Next T S' := by
  induction n generalizing S with
  | zero =>
    refine ⟨S, rfl, ?_⟩
    unfold after at h
    split at h
    · rename_i S₁ hS₁
      injection h with h
      exact h ▸ hS₁
    · exact nomatch h
  | succ n ih =>
    unfold after at h
    split at h
    · rename_i S₁ hS₁
      obtain ⟨T, hT, hn⟩ := ih h
      refine ⟨T, ?_, hn⟩
      unfold after
      rw [hS₁]
      exact hT
    · exact nomatch h

theorem next_of_after_one [BranchPredictor σ] {S S' : RIPSimulator σ} (h : after 1 S = some S') :
    Next S S' := by
  obtain ⟨T, hT, hn⟩ := after_succ h
  injection hT with hT
  exact hT ▸ hn

/-- A memory of 128 bytes from address `0` on, that starts with the given words. -/
def imageOf (ws : List Word) : Memory where
  DRAM := fun a => (ws.getD (a.toNat / 4) 0 >>> (8 * (a.toNat % 4))).setWidth 8
  DRAMSize := 128
  DRAMBase := 0

/-- A simulator that has just been constructed with these words loaded. -/
def boot (ws : List Word) (self : Option σ) : RIPSimulator σ where
  Mem := imageOf ws
  PC := 0
  States := CSRs.new
  Mode := .Machine
  NumStages := 0
  PS := PipelineStates.new 0 (Staged.const 0)
  GPRegs := GPRegisters.new 128 0 none
  BP := self.map BPBase.new
  Stats := none
  cerr := []

theorem started_boot (ws : List Word) (self : Option σ) : Started (boot ws self) :=
  ⟨⟨_, _, rfl⟩, rfl, rfl, rfl, ⟨_, rfl⟩⟩

theorem reachable_after [BranchPredictor σ] {n : ℕ} {ws : List Word} {self : Option σ}
    {S : RIPSimulator σ} (h : after n (boot ws self) = some S) : Reachable S :=
  ⟨_, started_boot ws self, reaches_after h⟩

/-! ## The fetch -/

/-- The state after a fetch of the word `w`. -/
def fetched (S : RIPSimulator σ) (w : Word) : RIPSimulator σ :=
  { S with
    PC := if (Decoder.decode w).isSome then S.PC + 4 else S.PC
    PS := (S.PS.proceedPC S.PC).proceed (Decoder.decode w) }

/-- The state after the shift of a stalled pipeline. -/
def shifted (S : RIPSimulator σ) : RIPSimulator σ :=
  { S with PS := ((S.PS.proceedPC (-1)).proceed none).clearStall }

theorem advance_ok {S A : RIPSimulator σ} (h : S.advance = .ok A) :
    (S.PS.StalledStages.IF = true ∧ A = S.shifted) ∨
    (S.PS.StalledStages.IF = false ∧ ∃ w, S.Mem.readWord S.PC = .ok w ∧ A = S.fetched w) := by
  unfold advance at h
  cases hs : S.PS.StalledStages.IF with
  | true =>
    rw [hs] at h
    injection h with h
    exact .inl ⟨rfl, h.symm⟩
  | false =>
    rw [hs] at h
    cases hw : S.Mem.readWord S.PC with
    | error e => rw [hw] at h; exact nomatch h
    | ok w =>
      rw [hw] at h
      injection h with h
      exact .inr ⟨rfl, w, rfl, h.symm⟩

/-! ## Memory access -/

/-- The latches behind MA, for a value that the stage passes on. -/
def latchMA (S : RIPSimulator σ) (Res : RegVal) : RIPSimulator σ :=
  { S with PS :=
    { S.PS with MARdVal := Res, MACSRVal := S.PS.EXCSRVal, MAImmVal := S.PS.EXImmVal } }

/-- **How `memoryaccess` returns**: on a bubble; at the console address; in Epilogue mode; with
the result of the access. -/
theorem memoryaccess_ok {S B : RIPSimulator σ} (h : S.memoryaccess = .ok B) :
    (S.PS.Insts.MA = none ∧ B = S) ∨
    (∃ I, S.PS.Insts.MA = some I ∧ S.PS.EXRdVal = consoleAd ∧
      B = { S.latchMA S.PS.EXRdVal with cerr := S.cerr ++ [S.PS.EXRdVal.setWidth 8] }) ∨
    (∃ I, S.PS.Insts.MA = some I ∧ S.PS.EXRdVal ≠ consoleAd ∧ S.Mode = .Epilogue ∧
      B = S.latchMA S.PS.EXRdVal) ∨
    (∃ I M Res, S.PS.Insts.MA = some I ∧ S.PS.EXRdVal ≠ consoleAd ∧ S.Mode ≠ .Epilogue ∧
      access S.Mem I S.PS.EXRdVal S.PS.EXRs2Val = .ok (M, Res) ∧
      B = { S.latchMA Res with Mem := M }) := by
  unfold memoryaccess at h
  cases hI : S.PS.Insts.MA with
  | none =>
    rw [hI] at h
    injection h with h
    exact .inl ⟨rfl, h.symm⟩
  | some I =>
    right
    rw [hI] at h
    dsimp only at h
    split_ifs at h with hc hm
    · injection h with h
      exact .inl ⟨I, rfl, hc, h.symm⟩
    · injection h with h
      exact .inr (.inl ⟨I, rfl, hc, hm, h.symm⟩)
    · cases ha : access S.Mem I S.PS.EXRdVal S.PS.EXRs2Val with
      | error e =>
        rw [ha] at h
        cases h
      | ok p =>
        rw [ha] at h
        injection h with h
        exact .inr (.inr ⟨I, p.1, p.2, rfl, hc, hm, ha, h.symm⟩)

/-- What `memoryaccess` leaves alone. -/
structure AccessFrame (S B : RIPSimulator σ) : Prop where
  PC : B.PC = S.PC
  States : B.States = S.States
  Mode : B.Mode = S.Mode
  NumStages : B.NumStages = S.NumStages
  GPRegs : B.GPRegs = S.GPRegs
  BP : B.BP = S.BP
  Stats : B.Stats = S.Stats
  Insts : B.PS.Insts = S.PS.Insts
  PCs : B.PS.PCs = S.PS.PCs
  StalledStages : B.PS.StalledStages = S.PS.StalledStages
  InvalidStages : B.PS.InvalidStages = S.PS.InvalidStages
  BranchPC : B.PS.BranchPC = S.PS.BranchPC
  DERs1Val : B.PS.DERs1Val = S.PS.DERs1Val
  DERs2Val : B.PS.DERs2Val = S.PS.DERs2Val
  DECSRVal : B.PS.DECSRVal = S.PS.DECSRVal
  DEImmVal : B.PS.DEImmVal = S.PS.DEImmVal
  EXRdVal : B.PS.EXRdVal = S.PS.EXRdVal
  EXRs2Val : B.PS.EXRs2Val = S.PS.EXRs2Val
  EXCSRVal : B.PS.EXCSRVal = S.PS.EXCSRVal
  EXImmVal : B.PS.EXImmVal = S.PS.EXImmVal

theorem memoryaccess_frame {S B : RIPSimulator σ} (h : S.memoryaccess = .ok B) :
    AccessFrame S B := by
  rcases memoryaccess_ok h with ⟨_, rfl⟩ | ⟨_, _, _, rfl⟩ | ⟨_, _, _, _, rfl⟩ |
    ⟨_, _, _, _, _, _, _, rfl⟩ <;>
  constructor <;> rfl

/-- A csr instruction in MA passes its new value and its address on. -/
theorem memoryaccess_latch {S B : RIPSimulator σ} {I : Instruction}
    (hI : S.PS.Insts.MA = some I) (h : S.memoryaccess = .ok B) :
    B.PS.MACSRVal = S.PS.EXCSRVal ∧ B.PS.MAImmVal = S.PS.EXImmVal := by
  rcases memoryaccess_ok h with ⟨hnone, _⟩ | ⟨_, _, _, rfl⟩ | ⟨_, _, _, _, rfl⟩ |
    ⟨_, _, _, _, _, _, _, rfl⟩
  · exact absurd (hI.symm.trans hnone) (Option.some_ne_none I)
  · exact ⟨rfl, rfl⟩
  · exact ⟨rfl, rfl⟩
  · exact ⟨rfl, rfl⟩

/-- The value `memoryaccess` puts on `MARdVal` for the instruction `I`: a loaded value,
or what `exec` computed. -/
def accessResult (S : RIPSimulator σ) (I : Instruction) : RegVal :=
  if S.PS.EXRdVal = consoleAd ∨ S.Mode = .Epilogue then S.PS.EXRdVal
  else match access S.Mem I S.PS.EXRdVal S.PS.EXRs2Val with
    | .ok (_, Res) => Res
    | .error _ => 0

theorem memoryaccess_MARdVal {S B : RIPSimulator σ} {I : Instruction}
    (hI : S.PS.Insts.MA = some I) (h : S.memoryaccess = .ok B) :
    B.PS.MARdVal = S.accessResult I := by
  unfold accessResult
  rcases memoryaccess_ok h with ⟨hnone, _⟩ | ⟨_, _, hc, rfl⟩ | ⟨_, _, _, hm, rfl⟩ |
    ⟨J, M, Res, hJ, hc, hm, ha, rfl⟩
  · exact absurd (hI.symm.trans hnone) (Option.some_ne_none I)
  · rw [if_pos (.inl hc)]
    rfl
  · rw [if_pos (.inr hm)]
    rfl
  · obtain rfl : I = J := Option.some.inj (hI.symm.trans hJ)
    rw [if_neg (fun h => h.elim hc hm), ha]
    rfl

/-! ## The state at rest -/

/-- The stall flags: DE and IF or none. -/
def stalls (s : Bool) : Staged Bool := ⟨s, s, false, false, false⟩

/-- What holds between two cycles of every run. -/
structure Clean (S : RIPSimulator σ) : Prop where
  invalid : S.PS.InvalidStages = Staged.const false
  branchPC : S.PS.BranchPC = none
  predPC : ∀ B, S.BP = some B → B.BranchPredPC = none
  stall : S.PS.StalledStages = stalls S.PS.StalledStages.IF
  /-- A stall stands behind a load whose register DE reads. -/
  load : S.PS.StalledStages.IF = true →
    ∃ I, S.PS.Insts.EX = some I ∧ I.isLoad = true ∧ S.loadUses I = true

theorem Started.clean {S : RIPSimulator σ} (h : Started S) : Clean S := by
  obtain ⟨d, P, hPS⟩ := h.PS
  obtain ⟨self, hBP⟩ := h.BP
  constructor
  · rw [hPS]; rfl
  · rw [hPS]; rfl
  · intro B hB
    cases self with
    | none => rw [hB] at hBP; exact nomatch hBP
    | some x =>
      rw [hB] at hBP
      injection hBP with hBP
      subst hBP
      rfl
  · rw [hPS]; rfl
  · intro hs
    rw [hPS] at hs
    exact absurd hs Bool.false_ne_true

/-- Where a fetch finds the instructions. -/
theorem Clean.fetched_insts {S : RIPSimulator σ} (hc : Clean S)
    (hs : S.PS.StalledStages.IF = false) (w : Word) :
    (S.fetched w).PS.Insts =
      { IF := Decoder.decode w, DE := S.PS.Insts.IF, EX := S.PS.Insts.DE, MA := S.PS.Insts.EX,
        WB := S.PS.Insts.MA } ∧
    (S.fetched w).PS.PCs =
      { IF := S.PC, DE := S.PS.PCs.IF, EX := S.PS.PCs.DE, MA := S.PS.PCs.EX,
        WB := S.PS.PCs.MA } := by
  have hst := hc.stall
  rw [hs] at hst
  unfold fetched PipelineStates.proceed PipelineStates.proceedPC
  dsimp only
  rw [hst]
  exact ⟨rfl, rfl⟩

/-- Where the shift of a stalled pipeline finds the instructions: EX is a bubble. -/
theorem Clean.shifted_insts {S : RIPSimulator σ} (hc : Clean S)
    (hs : S.PS.StalledStages.IF = true) :
    S.shifted.PS.Insts =
      { IF := S.PS.Insts.IF, DE := S.PS.Insts.DE, EX := none, MA := S.PS.Insts.EX,
        WB := S.PS.Insts.MA } ∧
    S.shifted.PS.PCs =
      { IF := S.PS.PCs.IF, DE := S.PS.PCs.DE, EX := S.PS.PCs.EX, MA := S.PS.PCs.EX,
        WB := S.PS.PCs.MA } := by
  have hst := hc.stall
  rw [hs] at hst
  unfold shifted PipelineStates.clearStall PipelineStates.proceed PipelineStates.proceedPC
  dsimp only
  rw [hst]
  exact ⟨rfl, rfl⟩

/-- The instruction that the next cycle takes from DE to EX, if it takes one. -/
def entering (S : RIPSimulator σ) : Option Instruction :=
  if S.PS.StalledStages.IF then none else S.PS.Insts.DE

theorem entering_of_stalled {S : RIPSimulator σ} (hs : S.PS.StalledStages.IF = true) :
    S.entering = none := if_pos hs

theorem moving_of_entering {S : RIPSimulator σ} {I : Instruction} (hI : S.entering = some I) :
    S.PS.StalledStages.IF = false := by
  cases hs : S.PS.StalledStages.IF with
  | false => rfl
  | true => exact nomatch (entering_of_stalled hs).symm.trans hI

theorem entering_of_moving {S : RIPSimulator σ} (hs : S.PS.StalledStages.IF = false) :
    S.entering = S.PS.Insts.DE := if_neg (by rw [hs]; exact Bool.false_ne_true)

theorem Clean.advance_entering {S A : RIPSimulator σ} (hc : Clean S) (h : S.advance = .ok A) :
    A.PS.Insts.EX = S.entering := by
  rcases advance_ok h with ⟨hs, rfl⟩ | ⟨hs, w, _, rfl⟩
  · rw [(hc.shifted_insts hs).1, entering_of_stalled hs]
  · rw [(hc.fetched_insts hs w).1, entering_of_moving hs]

/-- Whatever enters EX was in DE, and decoded. -/
theorem Clean.advance_EX {S A : RIPSimulator σ} (hc : Clean S) (h : S.advance = .ok A)
    {I : Instruction} (hI : A.PS.Insts.EX = some I) :
    S.PS.StalledStages.IF = false ∧ S.PS.Insts.DE = some I ∧ A.PS.PCs.EX = S.PS.PCs.DE := by
  rcases advance_ok h with ⟨hs, rfl⟩ | ⟨hs, w, _, rfl⟩
  · rw [(hc.shifted_insts hs).1] at hI
    exact nomatch hI
  · rw [(hc.fetched_insts hs w).1] at hI
    exact ⟨hs, hI, by rw [(hc.fetched_insts hs w).2]⟩

theorem advance_frame {S A : RIPSimulator σ} (h : S.advance = .ok A) :
    A.Mem = S.Mem ∧ A.States = S.States ∧ A.Mode = S.Mode ∧ A.NumStages = S.NumStages ∧
    A.GPRegs = S.GPRegs ∧ A.BP = S.BP ∧ A.Stats = S.Stats ∧ A.cerr = S.cerr := by
  rcases advance_ok h with ⟨_, rfl⟩ | ⟨_, w, _, rfl⟩
  · unfold shifted
    exact ⟨rfl, rfl, rfl, rfl, rfl, rfl, rfl, rfl⟩
  · exact ⟨rfl, rfl, rfl, rfl, rfl, rfl, rfl, rfl⟩

/-- Of the pipeline, the shift moves instructions and PCs and lifts the stall. -/
theorem advance_PS {S A : RIPSimulator σ} (h : S.advance = .ok A) :
    A.PS = { S.PS with
      PCs := A.PS.PCs, Insts := A.PS.Insts, StalledStages := A.PS.StalledStages } := by
  rcases advance_ok h with ⟨_, rfl⟩ | ⟨_, w, _, rfl⟩
  · unfold shifted PipelineStates.clearStall PipelineStates.proceed PipelineStates.proceedPC
    rfl
  · unfold fetched PipelineStates.proceed PipelineStates.proceedPC
    rfl

/-- The flags a cycle starts its stages with. -/
structure AtRest (S : RIPSimulator σ) : Prop where
  stall : S.PS.StalledStages = stalls false
  invalid : S.PS.InvalidStages = Staged.const false
  branchPC : S.PS.BranchPC = none
  predPC : ∀ B, S.BP = some B → B.BranchPredPC = none

theorem Clean.advance {S A : RIPSimulator σ} (hc : Clean S) (h : S.advance = .ok A) :
    AtRest A := by
  rcases advance_ok h with ⟨_, rfl⟩ | ⟨hs, w, _, rfl⟩
  · unfold shifted
    exact ⟨rfl, hc.invalid, hc.branchPC, hc.predPC⟩
  · refine ⟨?_, hc.invalid, hc.branchPC, hc.predPC⟩
    have hst := hc.stall
    rw [hs] at hst
    exact hst

theorem written_frame (S : RIPSimulator σ) :
    S.written.PC = S.PC ∧ S.written.Mem = S.Mem ∧ S.written.Mode = S.Mode ∧
    S.written.NumStages = S.NumStages ∧ S.written.BP = S.BP ∧ S.written.Stats = S.Stats ∧
    S.written.cerr = S.cerr ∧
    S.written.PS = { S.PS with WBImmVal := S.written.PS.WBImmVal } := by
  unfold written
  cases S.PS.Insts.WB <;> exact ⟨rfl, rfl, rfl, rfl, rfl, rfl, rfl, rfl⟩

/-- The stages up to memory access leave the flags alone. -/
theorem Through.atRest [BranchPredictor σ] {S A B M : RIPSimulator σ} {E : Option Exception}
    (h : Through S A B M E) (hA : AtRest A) : AtRest B := by
  have hf := memoryaccess_frame h.access
  obtain ⟨_, _, _, _, hBP, _, _, hPS⟩ := A.written_frame
  have hs : A.written.PS.StalledStages = A.PS.StalledStages := by rw [hPS]
  have hi : A.written.PS.InvalidStages = A.PS.InvalidStages := by rw [hPS]
  have hb : A.written.PS.BranchPC = A.PS.BranchPC := by rw [hPS]
  exact ⟨by rw [hf.StalledStages, hs, hA.stall], by rw [hf.InvalidStages, hi, hA.invalid],
    by rw [hf.BranchPC, hb, hA.branchPC], by rw [hf.BP, hBP]; exact hA.predPC⟩

/-- From the fetch on, the instructions stay where they are until `fillBubble`. -/
theorem Through.insts [BranchPredictor σ] {S A B M : RIPSimulator σ} {E : Option Exception}
    (h : Through S A B M E) : M.PS.Insts = A.PS.Insts ∧ M.PS.PCs = A.PS.PCs := by
  have hf := memoryaccess_frame h.access
  obtain ⟨_, _, _, _, _, _, _, hPS⟩ := A.written_frame
  have hM := exec_frame h.exec
  constructor
  · rw [hM.Insts, hf.Insts, hPS]
  · rw [hM.PCs, hf.PCs, hPS]

/-- The PC of the instruction that enters EX comes along. -/
theorem Through.PC_EX [BranchPredictor σ] {S A B M : RIPSimulator σ} {E : Option Exception}
    {I : Instruction} (h : Through S A B M E) (hc : Clean S) (hI : A.PS.Insts.EX = some I) :
    B.PS.PCs.EX = S.PS.PCs.DE := by
  rw [← (exec_frame h.exec).PCs, h.insts.2]
  exact (hc.advance_EX h.advance hI).2.2

/-- The latches `exec` and `memoryaccess` find are those of the cycle before. -/
theorem Through.latches [BranchPredictor σ] {S A B M : RIPSimulator σ} {E : Option Exception}
    (h : Through S A B M E) :
    B.PS.DERs1Val = S.PS.DERs1Val ∧ B.PS.DERs2Val = S.PS.DERs2Val ∧
    B.PS.DECSRVal = S.PS.DECSRVal ∧ B.PS.DEImmVal = S.PS.DEImmVal ∧
    A.written.PS.EXRdVal = S.PS.EXRdVal ∧ A.written.PS.EXRs2Val = S.PS.EXRs2Val ∧
    A.written.PS.EXCSRVal = S.PS.EXCSRVal ∧ A.written.PS.EXImmVal = S.PS.EXImmVal := by
  have hf := memoryaccess_frame h.access
  obtain ⟨_, _, _, _, _, _, _, hPS⟩ := A.written_frame
  rw [hf.DERs1Val, hf.DERs2Val, hf.DECSRVal, hf.DEImmVal, hPS, advance_PS h.advance]
  exact ⟨rfl, rfl, rfl, rfl, rfl, rfl, rfl, rfl⟩

theorem decoded_frame [BranchPredictor σ] (S : RIPSimulator σ) :
    S.decoded.PC = S.PC ∧ S.decoded.Mem = S.Mem ∧ S.decoded.Mode = S.Mode ∧
    S.decoded.NumStages = S.NumStages ∧ S.decoded.States = S.States ∧
    S.decoded.GPRegs = S.GPRegs ∧ S.decoded.Stats = S.Stats ∧ S.decoded.cerr = S.cerr ∧
    S.decoded.PS.Insts = S.PS.Insts ∧ S.decoded.PS.PCs = S.PS.PCs ∧
    S.decoded.PS.StalledStages = S.PS.StalledStages ∧
    S.decoded.PS.BranchPC = S.PS.BranchPC ∧
    S.decoded.PS.InvalidStages.DE = S.PS.InvalidStages.DE ∧
    S.decoded.PS.InvalidStages.EX = S.PS.InvalidStages.EX := by
  unfold decoded
  cases S.PS.Insts.DE with
  | none => exact ⟨rfl, rfl, rfl, rfl, rfl, rfl, rfl, rfl, rfl, rfl, rfl, rfl, rfl, rfl⟩
  | some I =>
    dsimp only
    split_ifs
    · exact ⟨rfl, rfl, rfl, rfl, rfl, rfl, rfl, rfl, rfl, rfl, rfl, rfl, rfl, rfl⟩
    · refine ⟨rfl, rfl, rfl, rfl, rfl, rfl, rfl, rfl, rfl, rfl, rfl, rfl, ?_, ?_⟩ <;>
      · unfold decodedPS
        dsimp only
        split_ifs <;> rfl

/-- Of the pipeline, `decode` changes its own latches and the marks of the stages. -/
theorem decoded_PS [BranchPredictor σ] (S : RIPSimulator σ) :
    S.decoded.PS = { S.PS with
      DERs1Val := S.decoded.PS.DERs1Val
      DERs2Val := S.decoded.PS.DERs2Val
      DECSRVal := S.decoded.PS.DECSRVal
      DEImmVal := S.decoded.PS.DEImmVal
      InvalidStages := S.decoded.PS.InvalidStages } := by
  unfold decoded
  cases S.PS.Insts.DE with
  | none => rfl
  | some I =>
    dsimp only
    split_ifs <;> rfl

/-! ## The end of a cycle -/

theorem redirect_eq (S : RIPSimulator σ) :
    S.redirect = { S with
      PC := (S.PS.BranchPC.or (S.BP.bind BPBase.BranchPredPC)).getD S.PC
      PS := { S.PS with BranchPC := none }
      BP := S.BP.map fun B => { B with BranchPredPC := none } } := by
  unfold redirect
  cases hB : S.BP <;> rfl

/-- What an exception makes of the state that `decode` left, in a cycle that goes
on. -/
inductive Handled (S : RIPSimulator σ) : Option Exception → RIPSimulator σ → Prop
  | none : Handled S none S
  | epilogue : Handled S (some .R1) { S.squashed with Mode := .Epilogue }
  | trap {e : Exception} (he : isTrap e = true) (hm : S.Mode = .Machine) :
      Handled S (some e) (S.squashed.trapped e)

/-- An exception that does not end the run. -/
theorem Through.handled [BranchPredictor σ] {S A B M D : RIPSimulator σ} {e : Exception}
    (ht : Through S A B M (some e)) (hD : M.decoded.handleException e = .ok (true, D)) :
    Handled M.decoded (some e) D := by
  rcases handleException_ok (exec_exception ht.exec) hD with ⟨_, hf, _⟩ | ⟨rfl, _, rfl⟩ |
    ⟨he, hm, _, rfl⟩
  · exact nomatch hf
  · exact .epilogue
  · exact .trap he hm

/-- **A cycle that goes on**, by the states it goes through. -/
theorem Next.through [BranchPredictor σ] {S S' : RIPSimulator σ} (h : Next S S') :
    ∃ A B M E D, Through S A B M E ∧ Handled M.decoded E D ∧ S' = D.redirect.finish := by
  rcases cycle_ok h with ⟨hx, _⟩ | ⟨A, B, M, E, ht, ⟨rfl, _, rfl⟩ | ⟨e, D, rfl, hD, _, rfl⟩ |
    ⟨_, _, _, hx⟩⟩
  · exact nomatch hx
  · exact ⟨A, B, M, none, _, ht, .none, rfl⟩
  · exact ⟨A, B, M, some e, D, ht, ht.handled hD, rfl⟩
  · exact nomatch hx

/-- The invalid flags: nothing behind DE is ever marked. -/
def invalids (i d : Bool) : Staged Bool := ⟨i, d, false, false, false⟩

theorem exec_invalid [BranchPredictor σ] {S M : RIPSimulator σ} {E : Option Exception}
    (h : S.exec = .ok (E, M)) (hS : S.PS.InvalidStages = Staged.const false) :
    M.PS.InvalidStages = invalids M.PS.InvalidStages.DE M.PS.InvalidStages.DE := by
  rcases exec_ok h with ⟨_, _, rfl⟩ | ⟨I, _, _, _, rfl⟩ | ⟨_, _, _, _, _, rfl⟩ |
    ⟨_, _, _, _, _, rfl⟩ | ⟨_, _, _, _, _, rfl⟩
  · rw [hS]; rfl
  · change (if (S.target I).isSome then _ else _) = invalids (if (S.target I).isSome then _ else _ :
      Staged Bool).DE (if (S.target I).isSome then _ else _ : Staged Bool).DE
    rw [hS]
    cases (S.target I).isSome <;> rfl
  · rw [hS]; rfl
  · change { S.PS.InvalidStages with DE := true, IF := true } = _
    rw [hS]; rfl
  · change { S.PS.InvalidStages with DE := true, IF := true } = _
    rw [hS]; rfl

/-- A stall is requested by a load only, which requests no redirect. -/
theorem exec_stall [BranchPredictor σ] {S M : RIPSimulator σ} {E : Option Exception}
    (h : S.exec = .ok (E, M)) (hS : AtRest S) :
    M.PS.StalledStages = stalls M.PS.StalledStages.IF ∧
    (M.PS.StalledStages.IF = true → E = none ∧ M.PS.InvalidStages.DE = false ∧
      ∃ I, S.PS.Insts.EX = some I ∧ I.isLoad = true ∧ S.loadUses I = true) := by
  have hno : M.PS.StalledStages = S.PS.StalledStages →
      M.PS.StalledStages = stalls M.PS.StalledStages.IF ∧
      (M.PS.StalledStages.IF = true → E = none ∧ M.PS.InvalidStages.DE = false ∧
        ∃ I, S.PS.Insts.EX = some I ∧ I.isLoad = true ∧ S.loadUses I = true) := by
    intro hM
    rw [hM, hS.stall]
    exact ⟨rfl, fun h => absurd h Bool.false_ne_true⟩
  rcases exec_ok h with ⟨_, _, rfl⟩ | ⟨I, hI, _, rfl, rfl⟩ | ⟨_, _, _, _, _, rfl⟩ |
    ⟨_, _, _, _, _, rfl⟩ | ⟨_, _, _, _, _, rfl⟩
  · exact hno rfl
  · cases hl : I.isLoad && S.loadUses I with
    | false => exact hno (if_neg (by rw [hl]; exact Bool.false_ne_true))
    | true =>
      have hM : (S.executed I).PS.StalledStages =
          { S.PS.StalledStages with DE := true, IF := true } :=
        if_pos hl
      rw [Bool.and_eq_true] at hl
      have ht : S.target I = none := by
        cases I with
        | IInstruction IT => cases IT <;> first | rfl | exact absurd hl.1 Bool.false_ne_true
        | _ => exact absurd hl.1 Bool.false_ne_true
      have hi : (S.executed I).PS.InvalidStages = S.PS.InvalidStages :=
        if_neg (by rw [ht]; exact Bool.false_ne_true)
      rw [hM, hS.stall, hi, hS.invalid]
      exact ⟨rfl, fun _ => ⟨rfl, rfl, I, hI, hl.1, hl.2⟩⟩
  · exact hno rfl
  · exact hno rfl
  · exact hno rfl

/-- Whether a cycle turns the instruction in DE into a bubble. -/
def kills (M : RIPSimulator σ) (E : Option Exception) : Bool := E.isSome || M.PS.InvalidStages.DE

/-- Whether `decode` marks IF, for a branch it predicts taken. -/
def predictsIF [BranchPredictor σ] (M : RIPSimulator σ) : Bool :=
  match M.PS.Insts.DE with
  | none => false
  | some I => !M.PS.StalledStages.DE && M.predictsTaken I

/-- The target that `decode` leaves with the predictor. -/
theorem decoded_predPC [BranchPredictor σ] {M : RIPSimulator σ}
    (hP : ∀ P, M.BP = some P → P.BranchPredPC = none) :
    M.decoded.BP.bind BPBase.BranchPredPC =
      if M.predictsIF then
        M.PS.Insts.DE.map fun J => M.PS.PCs.DE + J.immVal.signExtend 64
      else none := by
  have hkeep : M.BP.bind BPBase.BranchPredPC = none := by
    cases hB : M.BP with
    | none => rfl
    | some P => exact hP P hB
  unfold decoded predictsIF
  cases hJ : M.PS.Insts.DE with
  | none => exact hkeep
  | some J =>
    cases hs : M.PS.StalledStages.DE with
    | true => exact hkeep
    | false =>
      simp only [Bool.false_eq_true, if_false, Bool.not_false, Bool.true_and]
      change (M.predicted J).bind _ = _
      unfold predicted predictsTaken
      cases hb : J.isBType with
      | false => exact hkeep
      | true =>
        cases hB : M.BP with
        | none => rfl
        | some P =>
          dsimp only
          by_cases hp : (P.Predict M.PS.PCs.DE).1 = true
          · rw [if_pos hp, if_pos hp]
            rfl
          · rw [if_neg hp, if_neg hp]
            exact hP P hB

theorem decoded_invalid [BranchPredictor σ] {M : RIPSimulator σ} {d : Bool}
    (h : M.PS.InvalidStages = invalids d d) :
    M.decoded.PS.InvalidStages = invalids (d || M.predictsIF) d := by
  unfold decoded predictsIF
  cases M.PS.Insts.DE with
  | none => rw [h, Bool.or_false]
  | some I =>
    dsimp only
    cases M.PS.StalledStages.DE with
    | true => rw [if_pos rfl, h, Bool.not_true, Bool.false_and, Bool.or_false]
    | false =>
      rw [if_neg Bool.false_ne_true]
      change (if M.predictsTaken I then _ else _) = _
      rw [h]
      cases M.predictsTaken I <;> cases d <;> rfl

theorem Handled.invalid {M D : RIPSimulator σ} {E : Option Exception} {i d : Bool}
    (h : Handled M E D) (hM : M.PS.InvalidStages = invalids i d) :
    D.PS.InvalidStages = invalids (E.isSome || i) (E.isSome || d) := by
  cases h with
  | none => rw [hM]; rfl
  | epilogue | trap =>
    change { M.PS.InvalidStages with DE := true, IF := true } = _
    rw [hM]; rfl

/-- What an exception leaves alone. -/
theorem Handled.frame {M D : RIPSimulator σ} {E : Option Exception} (h : Handled M E D) :
    D.Mem = M.Mem ∧ D.NumStages = M.NumStages ∧ D.GPRegs = M.GPRegs ∧ D.BP = M.BP ∧
    D.Stats = M.Stats ∧ D.cerr = M.cerr ∧
    D.PS = { M.PS with InvalidStages := D.PS.InvalidStages } := by
  cases h <;> exact ⟨rfl, rfl, rfl, rfl, rfl, rfl, rfl⟩

/-- **Where the instructions are after a cycle**: those in write back, memory access
and execution stay; DE and IF may have become bubbles. -/
theorem Through.filled [BranchPredictor σ] {S A B M D : RIPSimulator σ} {E : Option Exception}
    (h : Through S A B M E) (hA : AtRest A) (hD : Handled M.decoded E D) :
    D.redirect.finish.PS.Insts =
      { A.PS.Insts with
        DE := if kills M E then none else A.PS.Insts.DE
        IF := if kills M E || M.predictsIF then none else A.PS.Insts.IF } := by
  have hinv := hD.invalid (decoded_invalid (exec_invalid h.exec (h.atRest hA).invalid))
  obtain ⟨_, _, _, _, _, _, hPS⟩ := hD.frame
  have hins : D.PS.Insts = A.PS.Insts := by
    rw [hPS]
    change M.decoded.PS.Insts = _
    obtain ⟨_, _, _, _, _, _, _, _, hi, _⟩ := M.decoded_frame
    rw [hi, h.insts.1]
  rw [redirect_eq]
  change ({ D.PS with BranchPC := none } : PipelineStates).fillBubble.Insts = _
  unfold PipelineStates.fillBubble
  dsimp only
  rw [hinv, hins]
  unfold kills
  rw [Bool.or_assoc]
  rfl

/-- **The pipeline at the end of a cycle**: what `exec` left, but for the latches of `decode`, the
bubbles and the flags. -/
theorem Handled.end_PS [BranchPredictor σ] {M D : RIPSimulator σ} {E : Option Exception}
    (hD : Handled M.decoded E D) :
    D.redirect.finish.PS = { M.PS with
      DERs1Val := M.decoded.PS.DERs1Val
      DERs2Val := M.decoded.PS.DERs2Val
      DECSRVal := M.decoded.PS.DECSRVal
      DEImmVal := M.decoded.PS.DEImmVal
      Insts := D.redirect.finish.PS.Insts
      BranchPC := Option.none
      InvalidStages := Staged.const false } := by
  obtain ⟨_, _, _, _, _, _, hPS⟩ := hD.frame
  rw [redirect_eq]
  change ({ D.PS with BranchPC := Option.none } : PipelineStates).fillBubble =
    { M.PS with
      DERs1Val := M.decoded.PS.DERs1Val
      DERs2Val := M.decoded.PS.DERs2Val
      DECSRVal := M.decoded.PS.DECSRVal
      DEImmVal := M.decoded.PS.DEImmVal
      Insts := ({ D.PS with BranchPC := Option.none } : PipelineStates).fillBubble.Insts
      BranchPC := Option.none
      InvalidStages := Staged.const false }
  rw [hPS, decoded_PS]
  rfl

/-- The end of a cycle leaves the stall where it is. -/
theorem Handled.stalled [BranchPredictor σ] {M D : RIPSimulator σ} {E : Option Exception}
    (hD : Handled M.decoded E D) :
    D.redirect.finish.PS.StalledStages = M.PS.StalledStages := by
  rw [hD.end_PS]

/-- **What a cycle decodes**: if nothing is stalled at its end, the instruction then in DE has
survived the cycle and has been decoded in it. -/
theorem Through.decoding [BranchPredictor σ] {S A B M D : RIPSimulator σ} {E : Option Exception}
    {I : Instruction} (h : Through S A B M E) (hA : AtRest A) (hD : Handled M.decoded E D)
    (hs : D.redirect.finish.PS.StalledStages.IF = false)
    (hI : D.redirect.finish.PS.Insts.DE = some I) :
    kills M E = false ∧ M.PS.Insts.DE = some I ∧
      M.decoded = { M with BP := M.predicted I, PS := M.decodedPS I } := by
  rw [h.filled hA hD] at hI
  dsimp only at hI
  split_ifs at hI with hk
  rw [hD.stalled] at hs
  have hsDE : M.PS.StalledStages.DE = false := by
    rw [(exec_stall h.exec (h.atRest hA)).1]
    exact hs
  have hMI : M.PS.Insts.DE = some I := by rw [h.insts.1, hI]
  refine ⟨Bool.not_eq_true _ ▸ hk, hMI, ?_⟩
  unfold decoded
  rw [hMI]
  simp only [hsDE, Bool.false_eq_true, if_false]

/-- **The pipeline is at rest between two cycles of every run.** -/
theorem Clean.next [BranchPredictor σ] {S S' : RIPSimulator σ} (hc : Clean S) (h : Next S S') :
    Clean S' := by
  obtain ⟨A, B, M, E, D, ht, hD, rfl⟩ := h.through
  have hA := hc.advance ht.advance
  have hB := ht.atRest hA
  have hst := hD.stalled
  have hins := ht.filled hA hD
  obtain ⟨hs1, hs2⟩ := exec_stall ht.exec hB
  constructor
  · rw [redirect_eq]; rfl
  · rw [redirect_eq]; rfl
  · intro B' hB'
    rw [redirect_eq] at hB'
    obtain ⟨B'', _, rfl⟩ := Option.map_eq_some_iff.mp hB'
    rfl
  · rw [hst]; exact hs1
  · rw [hst]
    intro hs
    obtain ⟨rfl, hk, I, hI, hl, hu⟩ := hs2 hs
    have hBA : B.PS.Insts = A.PS.Insts := by rw [← (exec_frame ht.exec).Insts, ht.insts.1]
    refine ⟨I, ?_, hl, ?_⟩
    · rw [hins, ← hBA]
      exact hI
    · have hk' : kills M none = false := hk
      unfold loadUses at hu ⊢
      rw [hins, hk']
      rw [hBA] at hu
      exact hu

theorem Reachable.clean [BranchPredictor σ] {S : RIPSimulator σ} (h : Reachable S) : Clean S := by
  obtain ⟨S₀, h₀, hr⟩ := h
  exact hr.invariant h₀.clean fun _ _ hc hn => hc.next hn

end RIPSimulator

end RipSim
