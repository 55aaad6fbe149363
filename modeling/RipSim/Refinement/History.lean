import RipSim.Refinement.Run
import RipSim.Pipeline.Protocol
import RipSim.Predictors.Calls

/-!
# The history register

Gshare and the perceptron keep the outcomes of the last branches in a shift register, which
`Learn` feeds and `Predict` only reads.  `decode` calls `Predict` for branches on a wrong path
too, but `exec`, which calls `Learn`, sees instructions of the run only, each once.  So the
register holds the outcomes of the sequential run, in its order.
-/

namespace RipSim

open BranchPredictor

/-! ## The branches of a run -/

namespace Hart

/-- The outcome of instruction `k` of the run, if it is a conditional branch. -/
def branch (h : Hart) (k : ℕ) : Option Bool :=
  match (h.after k).fetch with
  | .ok (some I) =>
    if I.isBType then some (I.taken ((h.after k).op1 I) ((h.after k).op2 I)) else none
  | _ => none

/-- The outcomes of the branches among the first `k` instructions, the most recent first. -/
def branches (h : Hart) : ℕ → List Bool
  | 0 => []
  | k + 1 => (h.branch k).toList ++ h.branches k

variable {h : Hart} {k : ℕ} {I : Instruction}

theorem branches_of_branch (hf : (h.after k).fetch = .ok (some I)) (hI : I.isBType = true) :
    h.branches (k + 1) = I.taken ((h.after k).op1 I) ((h.after k).op2 I) :: h.branches k := by
  simp [branches, branch, hf, hI]

theorem branches_of_other (hf : (h.after k).fetch = .ok (some I)) (hI : I.isBType = false) :
    h.branches (k + 1) = h.branches k := by
  simp [branches, branch, hf, hI]

end Hart

/-! ## Predictors with a history -/

section Predictor

variable {σ : Type} [BranchPredictor σ]

/-- The predictor has a shift register of `n` bits, which `Learn` feeds. -/
structure KeepsHistory (n : ℕ) (hist : σ → Word) : Prop where
  predict : ∀ B PC, hist (Predict B PC).2 = hist B
  learn : ∀ B cond PC, hist (Learn B cond PC) = ShiftRegister.push n (hist B) cond

theorem keepsHistory_gshare :
    KeepsHistory GshareBranchPredictor.BHTIndexWidth GshareBranchPredictor.BranchHistory :=
  ⟨fun _ _ => rfl, fun _ _ _ => rfl⟩

theorem keepsHistory_perceptron :
    KeepsHistory PerceptronBranchPredictor.HistoryBitwidth
      PerceptronBranchPredictor.BranchHistory :=
  ⟨fun _ _ => rfl, fun _ _ _ => rfl⟩

/-- The index of Gshare stays in the table as long as the history does. -/
theorem getBHTIndex_lt {B : GshareBranchPredictor} (hB : B.BranchHistory.toNat < 1024)
    (PC : Address) :
    (B.getBHTIndex PC).toNat < 1024 := by
  rw [GshareBranchPredictor.getBHTIndex, BitVec.toNat_xor]
  exact Nat.xor_lt_two_pow (n := 10) (getLowerNBits_eq PC ▸ wordIndex_lt PC) hB

/-- The outcomes that a log has taught, the most recent first. -/
def taught (cs : List BPCall) : List Bool :=
  cs.filterMap fun
    | .Learn cond _ => some cond
    | .Predict _ _ => none

/-- What the predictor `P` remembers of the first `m` instructions of the run. -/
structure Remembers (n : ℕ) (hist : σ → Word) (h : Hart) (m : ℕ) (P : BPBase σ) : Prop where
  history : hist P.self = ShiftRegister.pushAll n 0 (h.branches m)
  taught : taught P.calls = h.branches m

end Predictor

/-! ## The pipeline -/

namespace RIPSimulator

variable {σ : Type} [BranchPredictor σ] {n : ℕ} {hist : σ → Word} {h : Hart} {N : ℕ∞} {c m : ℕ}
  {S A B M : RIPSimulator σ}

/-- The predictor is there and remembers the first `m` instructions. -/
def Remembering (n : ℕ) (hist : σ → Word) (h : Hart) (m : ℕ) (S : RIPSimulator σ) : Prop :=
  ∃ P, S.BP = some P ∧ Remembers n hist h m P

/-- `decode` forgets nothing. -/
theorem Remembering.decoded (hK : KeepsHistory n hist) (hM : Remembering n hist h m M) :
    Remembering n hist h m M.decoded := by
  obtain ⟨P, hP, hm⟩ := hM
  unfold RIPSimulator.decoded
  cases M.PS.Insts.DE with
  | none => exact ⟨P, hP, hm⟩
  | some I =>
    dsimp only
    split_ifs
    · exact ⟨P, hP, hm⟩
    · show ∃ P', M.predicted I = some P' ∧ _
      unfold predicted
      rw [hP]
      cases I.isBType with
      | false => exact ⟨P, rfl, hm⟩
      | true =>
        have hself := (hK.predict P.self M.PS.PCs.DE).trans hm.history
        refine ⟨_, rfl, ?_⟩
        split_ifs <;> exact ⟨hself, hm.taught⟩

omit [BranchPredictor σ] in
theorem Remembering.finish (hM : Remembering n hist h m M) :
    Remembering n hist h m M.redirect.finish := by
  obtain ⟨P, hP, hm⟩ := hM
  refine ⟨{ P with BranchPredPC := none }, ?_, hm.history, hm.taught⟩
  rw [redirect_eq]
  show M.BP.map _ = _
  rw [hP]
  rfl

/-- **`exec` adds the outcome of a branch**, and nothing for anything else. -/
theorem Inv.remembering_exec (hi : Inv h N c S) (hd : Regular h N) (hK : KeepsHistory n hist)
    (ht : Through S A B M none) (hN : ∀ I, S.entering = some I → (S.issued c : ℕ∞) < N)
    (hS : Remembering n hist h (S.issued c) S) :
    Remembering n hist h (S.issued c + occ S.entering) M := by
  obtain ⟨P, hP, hm⟩ := hS
  obtain ⟨hEX, _, hBP, _⟩ := ht.entering hi.clean
  have hB : B.BP = some P := hBP.trans hP
  cases hI : S.entering with
  | none =>
    obtain ⟨_, rfl⟩ := ht.bubble ((hi.clean.advance_entering ht.advance).trans hI)
    exact ⟨P, hB, hm⟩
  | some I =>
    have hf := (hi.entering hI).2.2.2
    rw [hI] at hEX
    rw [occ_some]
    cases hb : I.isBType with
    | false =>
      have hbr : B.branchInEX = false := by simp only [branchInEX, hEX, hb]
      refine ⟨P, ((exec_calls ht.exec).2 hbr).trans hB, ?_, ?_⟩
      · rw [Hart.branches_of_other hf hb, hm.history]
      · rw [Hart.branches_of_other hf hb, hm.taught]
    | true =>
      obtain ⟨P', hP', hcalls, hself⟩ := (exec_calls ht.exec).1 I P hEX hb hB
      obtain ⟨_, hops, _, _⟩ := hi.executed hd ht hI (hN I hI)
      have htaken := Instruction.taken_congr (I := I) hops.rs1 hops.rs2
      refine ⟨P', hP', ?_, ?_⟩
      · rw [hself, hK.learn, hm.history, Hart.branches_of_branch hf hb, htaken]
        rfl
      · rw [hcalls, Hart.branches_of_branch hf hb, ← hm.taught, htaken]
        rfl

/-- One cycle. -/
theorem Inv.remembering (hi : Inv h N c S) (hd : Regular h N) (hK : KeepsHistory n hist)
    (ht : Through S A B M none) (hN : ∀ I, S.entering = some I → (S.issued c : ℕ∞) < N)
    (hS : Remembering n hist h (S.issued c) S) :
    Remembering n hist h (M.decoded.redirect.finish.issued (S.accessed c))
      M.decoded.redirect.finish := by
  rw [hi.issued_next ht]
  exact ((hi.remembering_exec hd hK ht hN hS).decoded hK).finish

omit [BranchPredictor σ] in
/-- A new predictor with an empty history remembers that nothing has been executed. -/
theorem Started.remembering (h₀ : Started S) {B : σ} (hBP : S.BP = some (BPBase.new B))
    (hB : hist B = 0) : Remembering n hist S.hart (S.issued 0) S := by
  refine ⟨BPBase.new B, hBP, ?_⟩
  rw [(issued_of_empty h₀.insts 0).2]
  exact ⟨hB, rfl⟩

/-- The whole run. -/
theorem Started.remembers {S₀ : RIPSimulator σ} (h₀ : Started S₀) (hd : Regular S₀.hart ⊤)
    (hf : FetchesInDRAM S₀) (hK : KeepsHistory n hist) {B : σ} (hBP : S₀.BP = some (BPBase.new B))
    (hB : hist B = 0) (t : ℕ) :
    ∃ log S, S₀.proceeds t = .ok (log, S) ∧
      Remembering n hist S₀.hart (S.issued log.length) S := by
  have hempty : ∀ c S A, Inv S₀.hart ⊤ c S → S.advance = .ok A → A.PS.isEmpty = true →
      Remembering n hist S₀.hart (S.issued c) S → Remembering n hist S₀.hart (A.issued c) A := by
    rintro c S A hi hA he ⟨P, hP, hm⟩
    obtain ⟨-, -, -, -, -, hABP, -⟩ := advance_frame hA
    refine ⟨P, hABP.trans hP, ?_⟩
    rw [(issued_of_empty (isEmpty_insts he) c).2, ← (hi.empty hd hA he).2.2]
    exact hm
  obtain ⟨log, S, hrun, -, hS⟩ := h₀.run_keeps hd hf (h₀.remembering hBP hB) hempty
    (fun c S A B M hi ht hS => hi.remembering hd hK ht (fun _ _ => ENat.natCast_lt_top _) hS) t
  exact ⟨log, S, hrun, hS⟩

end RIPSimulator

open RIPSimulator

/-- The history follows the run: after any number of calls of `proceedNStage(1)` its bits are
the outcomes of the last branches executed, the outcomes taught are those of all branches
executed, and every index into the table of 1024 entries is below its size. -/
def HistoryFollows {σ : Type} [BranchPredictor σ] (n : ℕ) (hist : σ → Word)
    (index : σ → Address → Word) (S₀ : RIPSimulator σ) : Prop :=
  ∀ t, ∃ log S P, S₀.proceeds t = .ok (log, S) ∧ S.BP = some P ∧
    (∀ i < n, (hist P.self).getLsbD i = (S₀.hart.branches (S.issued log.length)).getD i false) ∧
    taught P.calls = S₀.hart.branches (S.issued log.length) ∧
    ∀ PC, (index P.self PC).toNat < 1024

theorem historyFollows {σ : Type} [BranchPredictor σ] {n : ℕ} {hist : σ → Word}
    {index : σ → Address → Word} {S₀ : RIPSimulator σ} (h₀ : Started S₀) (hd : Domain S₀.hart ⊤)
    (hf : FetchesInDRAM S₀) (hn : n < 32) (hK : KeepsHistory n hist) {B : σ}
    (hBP : S₀.BP = some (BPBase.new B)) (hB : hist B = 0)
    (hindex : ∀ B, (hist B).toNat < 2 ^ n → ∀ PC, (index B PC).toNat < 1024) :
    HistoryFollows n hist index S₀ := by
  intro t
  obtain ⟨log, S, hrun, P, hP, hm⟩ := h₀.remembers hd.regular hf hK hBP hB t
  refine ⟨log, S, P, hrun, hP, ?_, hm.taught, hindex _ ?_⟩
  · intro i hi
    rw [hm.history, ShiftRegister.getLsbD_pushAll hn _ _ hi]
    exact congrArg _ BitVec.getLsbD_zero
  · rw [hm.history]
    exact ShiftRegister.toNat_pushAll_lt hn (h := 0) (Nat.two_pow_pos n) _

/-- **History registers record program order**, with Gshare and with the perceptron. -/
theorem history_follows_run :
    (∀ S₀ : RIPSimulator GshareBranchPredictor, Started S₀ → Domain S₀.hart ⊤ → FetchesInDRAM S₀ →
      S₀.BP = some (BPBase.new GshareBranchPredictor.new) →
      HistoryFollows GshareBranchPredictor.BHTIndexWidth GshareBranchPredictor.BranchHistory
        GshareBranchPredictor.getBHTIndex S₀) ∧
    ∀ (y : ℤ) (S₀ : RIPSimulator PerceptronBranchPredictor), Started S₀ → Domain S₀.hart ⊤ →
      FetchesInDRAM S₀ → S₀.BP = some (BPBase.new (PerceptronBranchPredictor.new y)) →
      HistoryFollows PerceptronBranchPredictor.HistoryBitwidth
        PerceptronBranchPredictor.BranchHistory
        (fun _ => PerceptronBranchPredictor.PerceptronIndex) S₀ := by
  constructor
  · intro S₀ h₀ hd hf hBP
    exact historyFollows h₀ hd hf (by decide) keepsHistory_gshare hBP rfl fun _ hB =>
      getBHTIndex_lt hB
  · intro y S₀ h₀ hd hf hBP
    refine historyFollows h₀ hd hf (by decide) keepsHistory_perceptron hBP rfl fun _ _ PC => ?_
    show (getLowerNBits _ 10).toNat < 1024
    rw [getLowerNBits_eq]
    exact wordIndex_lt PC

/-- The outcomes of the branch of `looper` are recorded, by either predictor. -/
theorem history_follows_run_looper :
    HistoryFollows GshareBranchPredictor.BHTIndexWidth GshareBranchPredictor.BranchHistory
      GshareBranchPredictor.getBHTIndex (looper (some GshareBranchPredictor.new)) ∧
    HistoryFollows PerceptronBranchPredictor.HistoryBitwidth PerceptronBranchPredictor.BranchHistory
      (fun _ => PerceptronBranchPredictor.PerceptronIndex)
      (looper (some (PerceptronBranchPredictor.new 0))) ∧
    Looper.hart.branches 5 = [false, true] := by
  refine ⟨?_, ?_, rfl⟩
  · exact history_follows_run.1 _ (Looper.started _) (Looper.domain ⊤) (Looper.fetchesInDRAM _) rfl
  · exact history_follows_run.2 0 _ (Looper.started _) (Looper.domain ⊤) (Looper.fetchesInDRAM _)
      rfl

end RipSim
