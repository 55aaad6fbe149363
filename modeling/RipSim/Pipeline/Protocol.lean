import RipSim.Pipeline.Reachable

/-!
# The predictor protocol

The predictor keeps one bit, `PrevPred`, and some predictors keep more between
`Predict` and `Learn`, although a branch in DE and a branch in EX use it in the
same cycle.  What makes this work is the order of the stages: `exec` trains on the
branch that DE predicted in the cycle before, and only then does DE predict the
next one; a stalled DE predicts nothing; a squashed branch is followed by no
`Learn`.

`Watching` states it as an invariant: while a decoded branch waits in DE, the last
call the predictor saw is its own prediction.  The main result is
`learn_follows_predict`.
-/

namespace RipSim

/-- In a log with the most recent call first: each `Learn` follows a `Predict` of
the same address immediately. -/
def Paired : List BPCall → Prop
  | [] => True
  | .Predict _ _ :: cs => Paired cs
  | .Learn _ PC :: .Predict PC' _ :: cs => PC' = PC ∧ Paired cs
  | .Learn _ _ :: _ => False

/-- The number of `Learn` calls in a log. -/
def learns (cs : List BPCall) : ℕ :=
  cs.countP fun
    | .Learn _ _ => true
    | .Predict _ _ => false

@[simp] theorem learns_learn (cond : Bool) (PC : Address) (cs : List BPCall) :
    learns (.Learn cond PC :: cs) = learns cs + 1 := List.countP_cons_of_pos rfl

@[simp] theorem learns_predict (PC : Address) (p : Bool) (cs : List BPCall) :
    learns (.Predict PC p :: cs) = learns cs := List.countP_cons_of_neg Bool.false_ne_true

/-- What the log of a predictor ends with when it has just predicted the branch at
`PC`: the prediction, whose result is `PrevPred` and whose effect on the derived
object is its present state. -/
def Predicted {σ : Type} [BranchPredictor σ] (B : BPBase σ) (PC : Address) (self : σ) : Prop :=
  (∃ cs, B.calls = .Predict PC B.PrevPred :: cs) ∧
    BranchPredictor.Predict self PC = (B.PrevPred, B.self)

namespace RIPSimulator

variable {σ : Type}

/-- The log of the predictor. -/
def calls (S : RIPSimulator σ) : List BPCall :=
  match S.BP with
  | none => []
  | some B => B.calls

/-- Whether EX holds a branch. -/
def branchInEX (S : RIPSimulator σ) : Bool :=
  match S.PS.Insts.EX with
  | none => false
  | some I => I.isBType

theorem redirect_calls (S : RIPSimulator σ) : S.redirect.finish.calls = S.calls := by
  rw [redirect_eq]
  unfold calls finish
  cases S.BP <;> rfl

/-- An exception calls the predictor for nothing. -/
theorem Handled.calls {M D : RIPSimulator σ} {E : Option Exception} (h : Handled M E D) :
    D.calls = M.calls := by
  obtain ⟨_, _, _, hBP, _⟩ := h.frame
  unfold RIPSimulator.calls
  rw [hBP]

variable [BranchPredictor σ]

/-! ## The invariant -/

/-- The log is paired, and while a decoded branch is in DE the log ends with its
prediction. -/
structure Watching (S : RIPSimulator σ) : Prop where
  paired : Paired S.calls
  waiting : S.PS.StalledStages.IF = false → ∀ I B, S.PS.Insts.DE = some I → I.isBType = true →
    S.BP = some B → ∃ self, Predicted B S.PS.PCs.DE self

theorem Started.watching {S : RIPSimulator σ} (h : Started S) : Watching S := by
  obtain ⟨d, P, hPS⟩ := h.PS
  obtain ⟨self, hBP⟩ := h.BP
  constructor
  · unfold calls
    rw [hBP]
    cases self <;> trivial
  · intro _ I B hI
    rw [hPS] at hI
    exact nomatch hI

/-- The branch that enters EX is the one the predictor saw last. -/
theorem Watching.entering {S A : RIPSimulator σ} (hw : Watching S) (hc : Clean S)
    (h : S.advance = .ok A) {I : Instruction} {B : BPBase σ} (hI : A.PS.Insts.EX = some I)
    (hb : I.isBType = true) (hB : A.BP = some B) :
    ∃ self, Predicted B A.PS.PCs.EX self := by
  obtain ⟨hs, hDE, hPC⟩ := hc.advance_EX h hI
  obtain ⟨_, _, _, _, _, hBP, _⟩ := advance_frame h
  rw [hPC]
  exact hw.waiting hs I B hDE hb (hBP ▸ hB)

/-! ## One cycle -/

/-- `exec` trains the predictor on a branch, and calls it for nothing else. -/
theorem exec_calls {B M : RIPSimulator σ} {E : Option Exception} (h : B.exec = .ok (E, M)) :
    (∀ I P, B.PS.Insts.EX = some I → I.isBType = true → B.BP = some P →
      ∃ P', M.BP = some P' ∧
        P'.calls = .Learn (I.taken B.PS.DERs1Val B.PS.DERs2Val) B.PS.PCs.EX :: P.calls ∧
        P'.self = BranchPredictor.Learn P.self (I.taken B.PS.DERs1Val B.PS.DERs2Val)
          B.PS.PCs.EX) ∧
    (B.branchInEX = false → M.BP = B.BP) := by
  have hM := exec_BP h
  constructor
  · intro I P hI hb hP
    rw [hI] at hM
    cases I with
    | BInstruction BT Rs1 Rs2 Imm =>
      unfold learned at hM
      rw [hP] at hM
      refine ⟨_, hM, ?_, ?_⟩ <;>
      · unfold BPBase.Learn BPBase.StatsUpdate
        dsimp only
        split_ifs <;> rfl
    | _ => exact absurd hb Bool.false_ne_true
  · intro hb
    unfold branchInEX at hb
    rw [hM]
    cases hI : B.PS.Insts.EX with
    | none => rfl
    | some I =>
      rw [hI] at hb
      cases I with
      | BInstruction => exact absurd hb.symm Bool.false_ne_true
      | _ => rfl

/-- `decode` predicts a branch that is not stalled, and calls the predictor for
nothing else. -/
theorem decoded_calls (M : RIPSimulator σ) :
    M.decoded.BP = M.BP ∨
    ∃ P P' p, M.BP = some P ∧ M.decoded.BP = some P' ∧
      P'.calls = .Predict M.PS.PCs.DE p :: P.calls := by
  unfold decoded
  cases M.PS.Insts.DE with
  | none => exact .inl rfl
  | some I =>
    dsimp only
    split_ifs
    · exact .inl rfl
    · change M.predicted I = M.BP ∨ ∃ P P' p, M.BP = some P ∧ M.predicted I = some P' ∧ _
      unfold predicted
      cases I.isBType with
      | false => exact .inl rfl
      | true =>
        cases hB : M.BP with
        | none => exact .inl rfl
        | some P =>
          refine .inr ⟨P, _, (P.Predict M.PS.PCs.DE).1, rfl, rfl, ?_⟩
          split_ifs <;> rfl

/-- After `decode`, a branch in DE that is not stalled is the one predicted last. -/
theorem decoded_waiting {M : RIPSimulator σ} {I : Instruction} {B : BPBase σ}
    (hs : M.PS.StalledStages.DE = false) (hI : M.PS.Insts.DE = some I) (hb : I.isBType = true)
    (hB : M.decoded.BP = some B) : ∃ self, Predicted B M.PS.PCs.DE self := by
  unfold decoded at hB
  rw [hI] at hB
  simp only [hs, Bool.false_eq_true, if_false] at hB
  change M.predicted I = some B at hB
  unfold predicted at hB
  rw [hb] at hB
  cases hP : M.BP with
  | none => rw [hP] at hB; exact nomatch hB
  | some P =>
    rw [hP] at hB
    injection hB with hB
    subst hB
    refine ⟨P.self, ⟨P.calls, ?_⟩, ?_⟩ <;> split_ifs <;> rfl

/-- The log after the stages: paired if it was, and with one `Learn` more exactly
if a branch was in EX. -/
theorem Watching.stages {S A B M : RIPSimulator σ} {E : Option Exception} (hw : Watching S)
    (hc : Clean S) (h : Through S A B M E) :
    Paired M.decoded.calls ∧
      learns M.decoded.calls = learns S.calls + if B.branchInEX ∧ B.BP.isSome then 1 else 0 := by
  have hf := memoryaccess_frame h.access
  obtain ⟨_, _, _, _, hwBP, _, _, hwPS⟩ := A.written_frame
  obtain ⟨_, _, _, _, _, haBP, _⟩ := advance_frame h.advance
  have hBP : B.BP = S.BP := by rw [hf.BP, hwBP, haBP]
  have hEX : B.PS.Insts.EX = A.PS.Insts.EX := by rw [hf.Insts, hwPS]
  have hPC : B.PS.PCs.EX = A.PS.PCs.EX := by rw [hf.PCs, hwPS]
  obtain ⟨hlearn, hkeep⟩ := exec_calls h.exec
  -- first the log `exec` leaves
  have hM : Paired M.calls ∧
      learns M.calls = learns S.calls + if B.branchInEX ∧ B.BP.isSome then 1 else 0 := by
    cases hb : B.branchInEX with
    | false =>
      have hcalls : M.calls = S.calls := by
        unfold calls
        rw [hkeep hb, hBP]
      rw [hcalls, if_neg (by simp)]
      exact ⟨hw.paired, rfl⟩
    | true =>
      cases hP : B.BP with
      | none =>
        have hcalls : M.calls = S.calls := by
          have hM := exec_BP h.exec
          unfold branchInEX at hb
          cases hI : B.PS.Insts.EX with
          | none => rw [hI] at hb; exact absurd hb Bool.false_ne_true
          | some I =>
            rw [hI] at hM
            unfold learned at hM
            rw [hP] at hM
            unfold calls
            rw [← hBP, hP]
            cases I <;> rw [hM]
        rw [hcalls, if_neg (by simp)]
        exact ⟨hw.paired, rfl⟩
      | some P =>
        unfold branchInEX at hb
        cases hI : B.PS.Insts.EX with
        | none => rw [hI] at hb; exact absurd hb Bool.false_ne_true
        | some I =>
          rw [hI] at hb
          obtain ⟨P', hP', hcalls, _⟩ := hlearn I P hI hb hP
          have hAP : A.BP = some P := by rw [haBP, ← hBP, hP]
          obtain ⟨self, ⟨cs, hcs⟩, _⟩ := hw.entering hc h.advance (hEX ▸ hI) hb hAP
          have hMc : M.calls = .Learn (I.taken B.PS.DERs1Val B.PS.DERs2Val) B.PS.PCs.EX ::
              .Predict A.PS.PCs.EX P.PrevPred :: cs := by
            unfold calls
            rw [hP']
            change P'.calls = _
            rw [hcalls, hcs]
          have hSc : S.calls = .Predict A.PS.PCs.EX P.PrevPred :: cs := by
            unfold calls
            rw [← hBP, hP]
            exact hcs
          have hpair := hw.paired
          rw [hSc] at hpair
          rw [hMc, hSc, if_pos ⟨rfl, rfl⟩]
          exact ⟨⟨hPC.symm, hpair⟩, by rw [learns_learn]⟩
  rcases decoded_calls M with hd | ⟨P, P', p, hP, hP', hcalls⟩
  · have hdc : M.decoded.calls = M.calls := by
      unfold calls
      rw [hd]
    rw [hdc]
    exact hM
  · have hdc : M.decoded.calls = .Predict M.PS.PCs.DE p :: M.calls := by
      unfold calls
      rw [hP', hP]
      exact hcalls
    rw [hdc, learns_predict]
    exact hM

theorem Watching.next {S S' : RIPSimulator σ} (hw : Watching S) (hc : Clean S) (h : Next S S') :
    Watching S' := by
  obtain ⟨A, B, M, E, D, ht, hD, rfl⟩ := h.through
  have hA := hc.advance ht.advance
  constructor
  · rw [redirect_calls, hD.calls]
    exact (hw.stages hc ht).1
  · intro hs I P hI hb hP
    have hst : M.PS.StalledStages.DE = false := by
      rw [(exec_stall ht.exec (ht.atRest hA)).1]
      rw [hD.stalled] at hs
      exact hs
    have hDE : M.PS.Insts.DE = some I := by
      rw [ht.filled hA hD] at hI
      rw [ht.insts.1]
      dsimp only at hI
      split_ifs at hI
      exact hI
    rw [redirect_eq] at hP
    obtain ⟨P', hP', rfl⟩ := Option.map_eq_some_iff.mp hP
    obtain ⟨_, _, _, hDBP, _⟩ := hD.frame
    have hpc : D.redirect.finish.PS.PCs = M.PS.PCs := by
      rw [hD.end_PS]
    rw [hpc]
    obtain ⟨self, hpred⟩ := decoded_waiting hst hDE hb (hDBP ▸ hP')
    exact ⟨self, hpred⟩

/-- Without a predictor at the beginning there is none later. -/
theorem Next.unpredicted {S T : RIPSimulator σ} (hn : Next S T) (hBP : S.BP = none) :
    T.BP = none := by
  obtain ⟨A, B, M, E, D, ht, hD, rfl⟩ := hn.through
  obtain ⟨_, _, _, _, hwBP, _⟩ := A.written_frame
  obtain ⟨_, _, _, _, _, haBP, _⟩ := advance_frame ht.advance
  obtain ⟨_, _, _, hDBP, _⟩ := hD.frame
  have hB : B.BP = none := by rw [(memoryaccess_frame ht.access).BP, hwBP, haBP, hBP]
  have hM : M.BP = none := by
    rw [exec_BP ht.exec]
    cases B.PS.Insts.EX with
    | none => exact hB
    | some I =>
      unfold learned
      rw [hB]
      cases I <;> rfl
  have hMd : M.decoded.BP = none := by
    rcases decoded_calls M with hd | ⟨P, _, _, hP, _⟩
    · rw [hd, hM]
    · exact nomatch hM.symm.trans hP
  rw [redirect_eq]
  change D.BP.map _ = none
  rw [hDBP, hMd]
  rfl

theorem Reachable.watching {S : RIPSimulator σ} (h : Reachable S) : Watching S := by
  obtain ⟨S₀, h₀, hr⟩ := h
  exact (hr.invariant (p := fun S => Clean S ∧ Watching S) ⟨h₀.clean, h₀.watching⟩
    fun _ _ hc hn => ⟨hc.1.next hn, hc.2.next hc.1 hn⟩).2

/-! ## The protocol -/

/-- The branch in EX is the one predicted last, with the bit that `exec` reads, and
`exec` adds one `Learn` for it. -/
theorem Watching.resolved {S A B M : RIPSimulator σ} {E : Option Exception} (hw : Watching S)
    (hc : Clean S) (h : Through S A B M E) {I : Instruction} {P : BPBase σ}
    (hI : B.PS.Insts.EX = some I) (hb : I.isBType = true) (hP : B.BP = some P) :
    ∃ self P', Predicted P B.PS.PCs.EX self ∧ M.BP = some P' ∧
      P'.calls = .Learn (I.taken B.PS.DERs1Val B.PS.DERs2Val) B.PS.PCs.EX :: P.calls ∧
      P'.self = BranchPredictor.Learn P.self (I.taken B.PS.DERs1Val B.PS.DERs2Val)
        B.PS.PCs.EX := by
  have hf := memoryaccess_frame h.access
  obtain ⟨_, _, _, _, hwBP, _, _, hwPS⟩ := A.written_frame
  have hAI : A.PS.Insts.EX = some I := by rw [← hI, hf.Insts, hwPS]
  have hAP : A.BP = some P := by rw [← hP, hf.BP, hwBP]
  have hPC : B.PS.PCs.EX = A.PS.PCs.EX := by rw [hf.PCs, hwPS]
  obtain ⟨self, hself⟩ := hw.entering hc h.advance hAI hb hAP
  obtain ⟨P', hP', hcalls, hL⟩ := (exec_calls h.exec).1 I P hI hb hP
  exact ⟨self, P', hPC ▸ hself, hP', hcalls, hL⟩

/-- However a cycle ends, the log is paired. -/
theorem Watching.cycle {S S' : RIPSimulator σ} {x : Exit} (hw : Watching S) (hc : Clean S)
    (h : S.cycle = .ok (x, S')) : Paired S'.calls := by
  rcases cycle_ok h with ⟨_, hA, _⟩ | ⟨A, B, M, E, ht, ⟨rfl, rfl, rfl⟩ | ⟨e, D, rfl, hD, rfl, rfl⟩ |
    ⟨e, rfl, hD, _⟩⟩
  · obtain ⟨_, _, _, _, _, hBP, _⟩ := advance_frame hA
    unfold calls
    rw [hBP]
    exact hw.paired
  · exact (hw.next hc h).paired
  · exact (hw.next hc h).paired
  · have hM := (hw.stages hc ht).1
    rcases handleException_ok (exec_exception ht.exec) hD with ⟨_, _, rfl⟩ | ⟨_, hg, _⟩ |
      ⟨_, _, hg, _⟩
    · exact hM
    · exact nomatch hg
    · exact nomatch hg

end RIPSimulator

open RIPSimulator

/-- **The predictor protocol.**  In every cycle of every run, with any predictor:

* the log stays paired, however the cycle ends;
* a branch in EX is the one predicted last, at its own address, and the bit `exec`
  reads is the result of that prediction;
* `exec` answers it with one `Learn`, and there is no other.

So a Gshare predictor trains the entry it predicted from, and a perceptron trains
with the output it computed for this branch from the weights and the history it
still has. -/
theorem learn_follows_predict :
    (∀ (σ : Type) [BranchPredictor σ] (S : RIPSimulator σ), Reachable S →
      (∀ x S', S.cycle = .ok (x, S') → Paired S'.calls) ∧
      ∀ A B M E, Through S A B M E →
        (∀ I P, B.PS.Insts.EX = some I → I.isBType = true → B.BP = some P →
          (∃ self, Predicted P B.PS.PCs.EX self) ∧
          M.calls = .Learn (I.taken B.PS.DERs1Val B.PS.DERs2Val) B.PS.PCs.EX :: P.calls) ∧
        learns M.decoded.calls =
          learns S.calls + if B.branchInEX ∧ B.BP.isSome then 1 else 0) ∧
    (∀ S : RIPSimulator GshareBranchPredictor, Reachable S → ∀ A B M E, Through S A B M E →
      ∀ I P, B.PS.Insts.EX = some I → I.isBType = true → B.BP = some P →
        ∃ self P', Predicted P B.PS.PCs.EX self ∧ M.BP = some P' ∧
          P'.self.BranchHistoryTable = Function.update self.BranchHistoryTable
            (self.getBHTIndex B.PS.PCs.EX)
            (some (learnCounter (self.BranchHistoryTable (self.getBHTIndex B.PS.PCs.EX))
              (I.taken B.PS.DERs1Val B.PS.DERs2Val)))) ∧
    (∀ S : RIPSimulator PerceptronBranchPredictor, Reachable S → ∀ A B M E, Through S A B M E →
      ∀ I P, B.PS.Insts.EX = some I → I.isBType = true → B.BP = some P →
        ∃ self, Predicted P B.PS.PCs.EX self ∧
          P.self.BranchHistory = self.BranchHistory ∧ P.self.WeightArray = self.WeightArray ∧
          P.self.y = PerceptronBranchPredictor.output self.BranchHistory
            (self.WeightArray (PerceptronBranchPredictor.PerceptronIndex B.PS.PCs.EX))) := by
  refine ⟨?_, ?_, ?_⟩
  · intro σ _ S hS
    refine ⟨fun x S' h => hS.watching.cycle hS.clean h, ?_⟩
    intro A B M E ht
    refine ⟨?_, (hS.watching.stages hS.clean ht).2⟩
    intro I P hI hb hP
    obtain ⟨self, P', hself, hP', hcalls, _⟩ := hS.watching.resolved hS.clean ht hI hb hP
    refine ⟨⟨self, hself⟩, ?_⟩
    unfold calls
    rw [hP']
    exact hcalls
  · intro S hS A B M E ht I P hI hb hP
    obtain ⟨self, P', hself, hP', _, hL⟩ := hS.watching.resolved hS.clean ht hI hb hP
    refine ⟨self, P', hself, hP', ?_⟩
    -- `Predict` leaves a Gshare predictor as it is
    have hkeep : self = P.self := congrArg Prod.snd hself.2
    rw [hL, hkeep]
    rfl
  · intro S hS A B M E ht I P hI hb hP
    obtain ⟨self, P', hself, _, _, _⟩ := hS.watching.resolved hS.clean ht hI hb hP
    have hy : _ = P.self := congrArg Prod.snd hself.2
    exact ⟨self, hself, by rw [← hy]; rfl, by rw [← hy]; rfl, by rw [← hy]; rfl⟩

/-- A taken `beq` under a one-bit predictor: its `Learn` follows its `Predict`. -/
theorem learn_follows_predict_beq :
    ∃ S S' : RIPSimulator OneBitBranchPredictor,
      after 2 (boot [0x00000463] (some ⟨fun _ => none⟩)) = some S ∧ Next S S' ∧
        S'.calls = [.Learn true 0, .Predict 0 false] ∧ Paired S'.calls := by
  have h : ((after 3 (boot [0x00000463] (some ⟨fun _ => none⟩) :
      RIPSimulator OneBitBranchPredictor)).map RIPSimulator.calls) =
        some [.Learn true 0, .Predict 0 false] := by
    decide +kernel
  obtain ⟨S', hS', hcalls⟩ := Option.map_eq_some_iff.mp h
  obtain ⟨S, hS, hn⟩ := after_succ hS'
  exact ⟨S, S', hS, hn, hcalls, (learn_follows_predict.1 _ S (reachable_after hS)).1 _ _ hn⟩

end RipSim
