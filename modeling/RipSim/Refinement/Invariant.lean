import RipSim.Reference.Run

/-!
# The refinement invariant

At the end of a cycle the pipeline holds a window of the sequential run.  If `c`
instructions have been written back, MA holds instruction `c` or a bubble, EX the
next one after that or a bubble, and DE the next one after that or a bubble.  The
registers are those of state `c`; the memory is that of the first instruction that
is not past MA; and IF holds the word at the address where the fetch believes the
run goes on.

`BackEnd` and `FrontEnd` say this stage by stage.  Only IF is speculative: a wrong
path never gets beyond DE within a cycle and is a bubble at its end.  So `FrontEnd`
can say outright that DE holds an instruction of the run, and it is `following`, the
address after it, that may be wrong until EX has resolved it.
-/

namespace RipSim

/-- How many instructions a stage holds. -/
def occ : Option Instruction → ℕ
  | none => 0
  | some _ => 1

@[simp] theorem occ_none : occ none = 0 := rfl

@[simp] theorem occ_some (I : Instruction) : occ (some I) = 1 := rfl

theorem occ_eq_zero {o : Option Instruction} : occ o = 0 ↔ o = none := by
  cases o <;> simp

namespace RIPSimulator

variable {σ : Type}

/-! ## Positions in the run -/

/-- With `c` instructions written back, the number of those past MA. -/
def accessed (S : RIPSimulator σ) (c : ℕ) : ℕ := c + occ S.PS.Insts.MA

/-- With `c` instructions written back, the number of those past EX. -/
def issued (S : RIPSimulator σ) (c : ℕ) : ℕ := S.accessed c + occ S.PS.Insts.EX

theorem issued_eq (S : RIPSimulator σ) (c : ℕ) :
    S.issued c = S.accessed c + occ S.PS.Insts.EX := rfl

theorem issued_add (S : RIPSimulator σ) (K c : ℕ) : S.issued (K + c) = K + S.issued c := by
  simp only [issued, accessed, Nat.add_assoc]

/-- An empty pipeline has written everything back. -/
theorem issued_of_empty {S : RIPSimulator σ} (h : S.PS.Insts = Staged.const none) (c : ℕ) :
    S.accessed c = c ∧ S.issued c = c := by
  simp [issued, accessed, h, Staged.const]

/-- The state the reference starts from. -/
def hart (S : RIPSimulator σ) : Hart where
  PC := S.PC
  GPRegs := S.GPRegs
  Mem := S.Mem
  States := S.States
  Mode := S.Mode
  cerr := S.cerr

/-! ## The back end -/

/-- MA holds the instruction `I` of the state `h`, with its result. -/
structure HeldByMA (h : Hart) (S : RIPSimulator σ) (I : Instruction) : Prop where
  fetch : h.fetch = .ok (some I)
  PC : S.PS.PCs.MA = h.PC
  result : S.PS.MARdVal = h.result I
  csr : S.PS.MACSRVal = h.csrValue I

/-- EX holds the instruction `I` of the state `h`, with its value. -/
structure HeldByEX (h : Hart) (S : RIPSimulator σ) (I : Instruction) : Prop where
  fetch : h.fetch = .ok (some I)
  PC : S.PS.PCs.EX = h.PC
  value : S.PS.EXRdVal = h.value I
  csr : S.PS.EXCSRVal = h.csrValue I
  rs2 : I.isSType = true → S.PS.EXRs2Val = h.op2 I

/-- The registers, the memory and the two stages behind DE. -/
structure BackEnd (h : Hart) (c : ℕ) (S : RIPSimulator σ) : Prop where
  GPRegs : S.GPRegs = (h.after c).GPRegs
  States : ∀ a, a ∉ counters → S.States a = (h.after c).States a
  Mode : S.Mode = .Machine
  Mem : S.Mem = (h.after (S.accessed c)).Mem
  MA : ∀ I, S.PS.Insts.MA = some I → HeldByMA (h.after c) S I
  EX : ∀ I, S.PS.Insts.EX = some I → HeldByEX (h.after (S.accessed c)) S I

/-! ## The front end -/

/-- DE holds a branch that has been predicted taken. -/
def foretold (S : RIPSimulator σ) (I : Instruction) : Bool :=
  !S.PS.StalledStages.IF && I.isBType && match S.BP with
    | none => false
    | some B => B.PrevPred

theorem foretold_of_not_branch {S : RIPSimulator σ} {I : Instruction} (h : I.isBType = false) :
    S.foretold I = false := by
  unfold foretold
  rw [h, Bool.and_false, Bool.false_and]

theorem isBType_of_foretold {S : RIPSimulator σ} {I : Instruction} (h : S.foretold I = true) :
    I.isBType = true := by
  by_contra hb
  rw [Bool.not_eq_true] at hb
  exact absurd ((foretold_of_not_branch hb).symm.trans h) Bool.false_ne_true

/-- A stalled branch has not been predicted yet. -/
theorem foretold_of_stalled {S : RIPSimulator σ} (h : S.PS.StalledStages.IF = true)
    (I : Instruction) : S.foretold I = false := by
  unfold foretold
  rw [h]
  rfl

theorem foretold_of_branch {S : RIPSimulator σ} {I : Instruction}
    (hs : S.PS.StalledStages.IF = false) (h : I.isBType = true) :
    S.foretold I = match S.BP with
      | none => false
      | some B => B.PrevPred := by
  unfold foretold
  rw [hs, h]
  rfl

/-- Where the fetch goes on after the instruction `I` in DE. -/
def following (S : RIPSimulator σ) (I : Instruction) : Address :=
  if S.foretold I then S.PS.PCs.DE + I.immVal.signExtend 64 else S.PS.PCs.DE + 4

/-- Where the fetch goes on after DE, if the run goes on after EX at `x`. -/
def expected (S : RIPSimulator σ) (x : Address) : Address :=
  match S.PS.Insts.DE with
  | none => x
  | some I => S.following I

theorem expected_of_none {S : RIPSimulator σ} (h : S.PS.Insts.DE = none) (x : Address) :
    S.expected x = x := by
  unfold expected
  rw [h]

theorem expected_of_some {S : RIPSimulator σ} {I : Instruction} (h : S.PS.Insts.DE = some I)
    (x : Address) : S.expected x = S.following I := by
  unfold expected
  rw [h]

/-- The latched operands of `I` are those of the state `h`. -/
structure Operands (h : Hart) (S : RIPSimulator σ) (I : Instruction) : Prop where
  rs1 : I.hasRs1 = true → S.PS.DERs1Val = h.op1 I
  rs2 : I.hasRs2 = true → S.PS.DERs2Val = h.op2 I
  csr : I.isCSR = true → S.PS.DECSRVal = h.opCSR I

/-- IF holds the word at `x`, or it is a bubble and `x` is fetched next. -/
structure Fetching (h : Hart) (N : ℕ∞) (x : Address) (S : RIPSimulator σ) : Prop where
  IF : ∀ J, S.PS.Insts.IF = some J →
    S.PS.PCs.IF = x ∧ S.PC = x + 4 ∧ h.Holds N x (some J)
  bubble : S.PS.Insts.IF = none → S.PC = x

/-- DE holds instruction `m` of the run, or it is a bubble and instruction `m` is
awaited. -/
structure FrontEnd (h : Hart) (N : ℕ∞) (m : ℕ) (S : RIPSimulator σ) : Prop where
  DE : ∀ I, S.PS.Insts.DE = some I →
    S.PS.PCs.DE = (h.after m).PC ∧ (h.after m).fetch = .ok (some I)
  operands : S.PS.StalledStages.IF = false → ∀ I, S.PS.Insts.DE = some I → m < N →
    Operands (h.after m) S I
  fetching : Fetching h N (S.expected (h.after m).PC) S

/-- The invariant: `c` instructions have been written back. -/
structure Inv (h : Hart) (N : ℕ∞) (c : ℕ) (S : RIPSimulator σ) : Prop where
  clean : Clean S
  latched : Latched S
  bound : (S.issued c : ℕ∞) ≤ N
  back : BackEnd h c S
  front : FrontEnd h N (S.issued c) S
  /-- A jump has emptied the stages before it. -/
  jump : ∀ I, S.PS.Insts.EX = some I → I.isJump = true →
    S.PS.Insts.DE = none ∧ S.PS.Insts.IF = none

/-- The numbers of the stages are in order, and within the bound. -/
theorem Inv.accessed_le {h : Hart} {N : ℕ∞} {c : ℕ} {S : RIPSimulator σ} (hi : Inv h N c S) :
    (S.accessed c : ℕ∞) ≤ N := by
  refine le_trans ?_ hi.bound
  exact_mod_cast Nat.le_add_right _ _

/-- A started pipeline is empty. -/
theorem Started.insts {S : RIPSimulator σ} (h : Started S) : S.PS.Insts = Staged.const none := by
  obtain ⟨_, _, hPS⟩ := h.PS
  rw [hPS]
  rfl

theorem Started.inv {S : RIPSimulator σ} (h : Started S) (N : ℕ∞) : Inv S.hart N 0 S := by
  have hins := h.insts
  have hIF : S.PS.Insts.IF = none := by rw [hins]; rfl
  have hDE : S.PS.Insts.DE = none := by rw [hins]; rfl
  have hEX : S.PS.Insts.EX = none := by rw [hins]; rfl
  have hMA : S.PS.Insts.MA = none := by rw [hins]; rfl
  obtain ⟨hacc, hiss⟩ := issued_of_empty hins 0
  refine ⟨h.clean, h.latched, ?_, ?_, ?_, ?_⟩
  · rw [hiss]
    exact bot_le
  · refine ⟨rfl, fun _ _ => rfl, h.Mode, ?_, ?_, ?_⟩
    · rw [hacc]
      rfl
    · intro I hI
      rw [hMA] at hI
      exact nomatch hI
    · intro I hI
      rw [hEX] at hI
      exact nomatch hI
  · rw [hiss]
    refine ⟨?_, ?_, ?_, ?_⟩
    · intro I hI
      rw [hDE] at hI
      exact nomatch hI
    · intro _ I hI
      rw [hDE] at hI
      exact nomatch hI
    · intro J hJ
      rw [hIF] at hJ
      exact nomatch hJ
    · intro _
      rw [expected_of_none hDE]
      rfl
  · intro I hI
    rw [hEX] at hI
    exact nomatch hI

end RIPSimulator

/-! ## What an instruction computes from right operands -/

namespace Instruction

theorem exRd_congr {I : Instruction} {PC : Address} {r1 r1' r2 r2' c c' Imm : RegVal}
    (h1 : I.hasRs1 = true → r1 = r1') (h2 : I.hasRs2 = true → r2 = r2')
    (hc : I.isCSR = true → c = c') : I.exRd PC r1 r2 c Imm = I.exRd PC r1' r2' c' Imm := by
  cases I with
  | IInstruction IT =>
    obtain rfl := h1 rfl
    cases IT with
    | csrrw | csrrs | csrrc | csrrwi | csrrsi | csrrci => exact hc rfl
    | _ => rfl
  | RInstruction | SInstruction =>
    obtain rfl := h1 rfl
    obtain rfl := h2 rfl
    rfl
  | UInstruction UT => cases UT <;> rfl
  | _ => rfl

theorem exCSR_congr {I : Instruction} {r1 r1' c c' : RegVal}
    (h1 : I.hasRs1 = true → r1 = r1') (hc : I.isCSR = true → c = c') :
    I.exCSR r1 c = I.exCSR r1' c' := by
  cases I with
  | IInstruction IT =>
    obtain rfl := h1 rfl
    cases IT with
    | csrrw | csrrs | csrrc | csrrwi | csrrsi | csrrci =>
      obtain rfl := hc rfl
      rfl
    | _ => rfl
  | _ => rfl

theorem taken_congr {I : Instruction} {r1 r1' r2 r2' : RegVal}
    (h1 : I.hasRs1 = true → r1 = r1') (h2 : I.hasRs2 = true → r2 = r2') :
    I.taken r1 r2 = I.taken r1' r2' := by
  cases I with
  | BInstruction =>
    obtain rfl := h1 rfl
    obtain rfl := h2 rfl
    rfl
  | _ => rfl

/-- What is not a load has its value as its result. -/
theorem result_of_not_isLoad {I : Instruction} (h : Hart) (hl : I.isLoad = false)
    (hrd : I.hasRd = true) : h.result I = h.value I := by
  cases I with
  | IInstruction IT => cases IT <;> first | rfl | exact absurd hl.symm Bool.false_ne_true
  | SInstruction => exact absurd hrd Bool.false_ne_true
  | _ => rfl

end Instruction

end RipSim
