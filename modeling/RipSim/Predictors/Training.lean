import RipSim.Library.Perceptron
import RipSim.Predictors.Calls

/-!
# Training the perceptron predictor

`Predict` and `Learn` read the history bits in the same order, so that a row and a history are a
perceptron of the library (`output_eq`, `trainRow_succ`), with the weights of columns `1` to `10`
clamped (`Clamped`, kept by every call).  A pair of a `Predict` and a `Learn` then trains the
row or leaves it alone, and a trained row answers better than before (`lt_output_trainRow`).
-/

namespace RipSim

namespace PerceptronBranchPredictor

open BranchPredictor

/-! ## A row -/

/-- The target of an outcome. -/
def target (cond : Bool) : ℤ := if cond then 1 else -1

theorem isSign_target (cond : Bool) : Perceptron.IsSign (target cond) := by
  cases cond
  · exact .inr rfl
  · exact .inl rfl

theorem isSign_sign (h : Word) (i : ℕ) : Perceptron.IsSign (sign h i) := by
  unfold sign
  split
  · exact .inl rfl
  · exact .inr rfl

/-- The value of `y` after `n` iterations of the loop of `Predict`. -/
def partialOutput (h : Word) (row : ℕ → ℤ) (n : ℕ) : ℤ :=
  (List.range n).foldl (fun y k => y + row (k + 1) * sign h (k + 1)) (row 0)

/-- The sums of `Predict` are outputs of a perceptron. -/
theorem partialOutput_eq (h : Word) (row : ℕ → ℤ) (n : ℕ) :
    partialOutput h row n = Perceptron.output (Finset.range n) (row 0)
      (fun k => row (k + 1)) (fun k => sign h (k + 1)) := by
  unfold partialOutput Perceptron.output
  induction n with
  | zero => simp
  | succ n ih =>
    rw [List.range_succ, List.foldl_append, ih, Finset.sum_range_succ, ← add_assoc]
    rfl

/-- The output of `Predict` is the one of a perceptron. -/
theorem output_eq (h : Word) (row : ℕ → ℤ) :
    output h row = Perceptron.output (Finset.range HistoryBitwidth) (row 0)
      (fun k => row (k + 1)) (fun k => sign h (k + 1)) :=
  partialOutput_eq h row HistoryBitwidth

/-- The columns after the first are clamped. -/
def ClampedRow (row : ℕ → ℤ) : Prop :=
  ∀ k < HistoryBitwidth, -2 ^ (WeightBitwidth - 1) ≤ row (k + 1) ∧
    row (k + 1) ≤ 2 ^ (WeightBitwidth - 1) - 1

theorem trainRow_zero (h : Word) (t : ℤ) (row : ℕ → ℤ) : trainRow h t row 0 = row 0 + t := rfl

/-- A column after the first is trained as a weight of a perceptron. -/
theorem trainRow_succ (h : Word) (t : ℤ) (row : ℕ → ℤ) {k : ℕ} (hk : k < HistoryBitwidth) :
    trainRow h t row (k + 1) =
      Perceptron.trained (-2 ^ (WeightBitwidth - 1)) (2 ^ (WeightBitwidth - 1) - 1) t
        (fun k => row (k + 1)) (fun k => sign h (k + 1)) k :=
  (if_neg (Nat.succ_ne_zero k)).trans (if_pos (by omega))

theorem clampedRow_trainRow (h : Word) (t : ℤ) (row : ℕ → ℤ) : ClampedRow (trainRow h t row) := by
  intro k hk
  rw [trainRow_succ h t row hk]
  exact Perceptron.trained_mem (by decide) k

/-- A trained row answers better. -/
theorem lt_output_trainRow (h : Word) (cond : Bool) {row : ℕ → ℤ} (hrow : ClampedRow row) :
    target cond * output h row + 1 ≤
      target cond * output h (trainRow h (target cond) row) := by
  have hlt := Perceptron.lt_output_train (s := Finset.range HistoryBitwidth) (b := row 0)
    (isSign_target cond) (fun k _ => isSign_sign h (k + 1)) fun k hk =>
      hrow k (Finset.mem_range.mp hk)
  rw [output_eq, output_eq, trainRow_zero]
  have hsame : ∀ k ∈ Finset.range HistoryBitwidth,
      trainRow h (target cond) row (k + 1) * sign h (k + 1) =
        Perceptron.trained (-2 ^ (WeightBitwidth - 1)) (2 ^ (WeightBitwidth - 1) - 1) (target cond)
          (fun k => row (k + 1)) (fun k => sign h (k + 1)) k * sign h (k + 1) := fun k hk => by
    rw [trainRow_succ h _ row (Finset.mem_range.mp hk)]
  rw [show Perceptron.output (Finset.range HistoryBitwidth) (row 0 + target cond)
      (fun k => trainRow h (target cond) row (k + 1)) (fun k => sign h (k + 1)) = _ from
    congrArg (row 0 + target cond + ·) (Finset.sum_congr rfl hsame)]
  exact hlt

/-! ## A pair of calls -/

/-- A `Predict` and the `Learn` that follows it. -/
def pair (B : PerceptronBranchPredictor) (PC : Address) (cond : Bool) : PerceptronBranchPredictor :=
  Learn (Predict B PC).2 cond PC

/-- The calls of a sequence of pairs. -/
def pairCalls (ps : List (Address × Bool)) : List Call :=
  ps.flatMap fun p => [.Predict p.1, .Learn p.2 p.1]

/-- The output for an address. -/
def answer (B : PerceptronBranchPredictor) (PC : Address) : ℤ :=
  output B.BranchHistory (B.WeightArray (PerceptronIndex PC))

/-- The test with which `Learn` decides whether to train, on the output and the outcome. -/
def trains (y : ℤ) (cond : Bool) : Bool := (decide (0 < y) ^^ cond) || decide (y.natAbs ≤ Theta)

variable (B : PerceptronBranchPredictor) (PC : Address) (cond : Bool)

theorem calls_pairCalls_concat (p : Address × Bool) (ps : List (Address × Bool)) :
    calls B (pairCalls (ps ++ [p])) = pair (calls B (pairCalls ps)) p.1 p.2 := by
  rw [pairCalls, List.flatMap_append, calls_append]
  rfl

/-- A row that is not the one of the address stays. -/
theorem pair_row_of_ne {i : Word} (hi : i ≠ PerceptronIndex PC) :
    (pair B PC cond).WeightArray i = B.WeightArray i := by
  show (if trains (answer B PC) cond then Function.update B.WeightArray _ _
      else B.WeightArray) i = _
  split
  · exact Function.update_of_ne hi _ _
  · rfl

/-- The row of the address is trained or left alone. -/
theorem pair_row_self : (pair B PC cond).WeightArray (PerceptronIndex PC) =
    if trains (answer B PC) cond then
      trainRow B.BranchHistory (target cond) (B.WeightArray (PerceptronIndex PC))
    else B.WeightArray (PerceptronIndex PC) := by
  show (if trains (answer B PC) cond then Function.update B.WeightArray _ _
      else B.WeightArray) _ = _
  split
  · exact Function.update_self _ _ _
  · rfl

/-- `Learn` does not train when the sign was right and the output is above the threshold. -/
theorem trains_eq_false_iff {y : ℤ} :
    trains y cond = false ↔ (!decide (y < 0)) = cond ∧ (Theta : ℤ) < |y| := by
  have habs : (y.natAbs : ℤ) = |y| := Int.natCast_natAbs y
  unfold trains Theta
  rw [Bool.or_eq_false_iff, decide_eq_false_iff_not]
  cases cond <;> simp <;> omega

/-! ## Reachable states -/

/-- Every row is clamped. -/
def Clamped : Prop := ∀ i, ClampedRow (B.WeightArray i)

theorem clamped_new (y : ℤ) : Clamped (new y) := fun _ _ _ =>
  show -2 ^ (WeightBitwidth - 1) ≤ (0 : ℤ) ∧ (0 : ℤ) ≤ 2 ^ (WeightBitwidth - 1) - 1 by decide

variable {B}

theorem clamped_call (c : Call) (h : Clamped B) : Clamped (call B c) := by
  cases c with
  | Predict PC => exact h
  | Learn cond PC =>
    intro i
    show ClampedRow ((if _ then Function.update B.WeightArray _ _ else B.WeightArray) i)
    split
    · by_cases hi : i = PerceptronIndex PC
      · rw [hi, Function.update_self]
        exact clampedRow_trainRow _ _ _
      · rw [Function.update_of_ne hi]
        exact h i
    · exact h i

/-- The weights after the first column are clamped in every reachable state. -/
theorem clamped_calls (y : ℤ) (cs : List Call) : Clamped (calls (new y) cs) :=
  calls_induction (fun _ c h => clamped_call c h) (clamped_new y) cs

/-! ## Progress -/

/-- An output on the side of the target predicts the outcome. -/
theorem predicted_of_pos {y : ℤ} (h : 0 < target cond * y) : (!decide (y < 0)) = cond := by
  unfold target at h
  cases cond <;> simp at h ⊢ <;> omega

/-- What is not trained is above the threshold on the side of the target. -/
theorem lt_of_not_trains {y : ℤ} (h : trains y cond = false) : (Theta : ℤ) < target cond * y := by
  obtain ⟨hsign, hbig⟩ := (trains_eq_false_iff cond).mp h
  unfold target
  cases cond with
  | true =>
    have hy : 0 ≤ y := by simpa using hsign
    rw [abs_of_nonneg hy] at hbig
    rwa [if_pos rfl, one_mul]
  | false =>
    have hy : y < 0 := by simpa using hsign
    rw [abs_of_neg hy] at hbig
    rwa [if_neg Bool.false_ne_true, neg_one_mul]

/-- A `Predict` and a `Learn` move the output of the row towards the target, until it is above the
threshold on that side. -/
theorem progress_step (h : Word) {row : ℕ → ℤ} (hrow : ClampedRow row) :
    min (target cond * output h row + 1) (Theta + 1) ≤ target cond * output h
      (if trains (output h row) cond then trainRow h (target cond) row else row) := by
  cases ht : trains (output h row) cond with
  | true =>
    rw [if_pos rfl]
    exact (min_le_left _ _).trans (lt_output_trainRow h cond hrow)
  | false =>
    rw [if_neg Bool.false_ne_true]
    exact (min_le_right _ _).trans (Int.add_one_le_iff.mpr (lt_of_not_trains cond ht))

/-- In the sequence of pairs every training of the row of `PC` is with the outcome `cond` and the
history of `B`.  Pairs for other rows may stand in between. -/
def SameTraining (B : PerceptronBranchPredictor) (PC : Address) (cond : Bool)
    (ps : List (Address × Bool)) : Prop :=
  ∀ qs q, qs ++ [q] <+: ps → PerceptronIndex q.1 = PerceptronIndex PC →
    q.2 = cond ∧ (calls B (pairCalls qs)).BranchHistory = B.BranchHistory

/-- How often the row of `PC` is trained in the sequence of pairs. -/
def trainings (PC : Address) (ps : List (Address × Bool)) : ℕ :=
  ps.countP fun q => decide (PerceptronIndex q.1 = PerceptronIndex PC)

/-- After `n` trainings of the row the output has moved by `n`, or is above the threshold. -/
theorem progress_run (hB : Clamped B) {ps : List (Address × Bool)}
    (hps : SameTraining B PC cond ps) :
    min (target cond * answer B PC + trainings PC ps) (Theta + 1) ≤ target cond *
      output B.BranchHistory ((calls B (pairCalls ps)).WeightArray (PerceptronIndex PC)) := by
  induction ps using List.reverseRecOn with
  | nil =>
    show min (target cond * answer B PC + (0 : ℕ)) _ ≤ _
    rw [Nat.cast_zero, add_zero]
    exact min_le_left _ _
  | append_singleton ps q ih =>
    have hprefix := ih fun qs p hqs => hps qs p (hqs.trans (List.prefix_append ps [q]))
    rw [calls_pairCalls_concat, trainings, List.countP_append, ← trainings]
    by_cases hq : PerceptronIndex q.1 = PerceptronIndex PC
    · obtain ⟨hcond, hhist⟩ := hps ps q (List.prefix_refl _) hq
      have hcount : [q].countP (fun q => decide (PerceptronIndex q.1 = PerceptronIndex PC)) = 1 :=
        List.countP_singleton.trans (if_pos (decide_eq_true hq))
      have hclamped : Clamped (calls B (pairCalls ps)) :=
        calls_induction (fun _ c h => clamped_call c h) hB _
      have hstep := progress_step cond B.BranchHistory (hclamped (PerceptronIndex PC))
      have hrow : (pair (calls B (pairCalls ps)) q.1 q.2).WeightArray (PerceptronIndex PC) = _ :=
        hq ▸ pair_row_self _ q.1 q.2
      have hans : answer (calls B (pairCalls ps)) q.1 = output B.BranchHistory
          ((calls B (pairCalls ps)).WeightArray (PerceptronIndex PC)) := by rw [answer, hhist, hq]
      rw [hcount, hrow, hans, hhist, hcond]
      omega
    · have hcount : [q].countP (fun q => decide (PerceptronIndex q.1 = PerceptronIndex PC)) = 0 :=
        List.countP_singleton.trans (if_neg (by simpa using hq))
      rw [hcount, pair_row_of_ne _ _ _ (Ne.symm hq), Nat.add_zero]
      exact hprefix

/-- What a `Predict` and the `Learn` after it do to an object. -/
structure Progress (B : PerceptronBranchPredictor) (PC : Address) (cond : Bool) : Prop where
  /-- Only the row of the address changes. -/
  row_only : ∀ i, i ≠ PerceptronIndex PC → (pair B PC cond).WeightArray i = B.WeightArray i
  /-- Nothing changes when the prediction was right and the output above the threshold. -/
  keeps : (Predict B PC).1 = cond → (Theta : ℤ) < |answer B PC| →
    (pair B PC cond).WeightArray = B.WeightArray
  /-- Otherwise the output for the same history moves towards the target. -/
  moves : ¬((Predict B PC).1 = cond ∧ (Theta : ℤ) < |answer B PC|) →
    target cond * answer B PC < target cond *
      output B.BranchHistory ((pair B PC cond).WeightArray (PerceptronIndex PC))
  /-- After `|y| + 1` trainings of the row the prediction for that history is the outcome. -/
  converges : ∀ ps, SameTraining B PC cond ps → |answer B PC| + 1 ≤ trainings PC ps →
    (Predict { calls B (pairCalls ps) with BranchHistory := B.BranchHistory } PC).1 = cond

/-- **Training makes progress.** -/
theorem training_progress (y : ℤ) (cs : List Call) (PC : Address) (cond : Bool) :
    Progress (calls (new y) cs) PC cond := by
  have hB := clamped_calls y cs
  generalize calls (new y) cs = B at hB
  refine ⟨fun i hi => pair_row_of_ne B PC cond hi, fun hsign hbig => funext fun i => ?_,
    fun hno => ?_,
    fun ps hps hn => ?_⟩
  · by_cases hi : i = PerceptronIndex PC
    · have ht : trains (answer B PC) cond = false := (trains_eq_false_iff cond).mpr ⟨hsign, hbig⟩
      rw [hi, pair_row_self, ht, if_neg Bool.false_ne_true]
    · exact pair_row_of_ne B PC cond hi
  · have ht : trains (answer B PC) cond = true := by
      by_contra hf
      exact hno ((trains_eq_false_iff cond).mp (Bool.not_eq_true _ ▸ hf))
    rw [pair_row_self, ht, if_pos rfl]
    exact lt_output_trainRow B.BranchHistory cond (hB _)
  · have hrun := progress_run PC cond hB hps
    refine predicted_of_pos cond (lt_of_lt_of_le ?_ hrun)
    have hneg : -|answer B PC| ≤ target cond * answer B PC := by
      rcases isSign_target cond with ht | ht <;> rw [ht]
      · rw [one_mul]
        exact neg_abs_le _
      · rw [neg_one_mul]
        exact neg_le_neg (le_abs_self _)
    have hpos : (0 : ℤ) ≤ Theta := by decide
    omega

end PerceptronBranchPredictor

end RipSim
