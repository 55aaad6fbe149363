import RipSim.Library.SignedInt
import RipSim.Predictors.Training

/-!
# The arithmetic of the perceptron predictor

`y` and the weights are `signed int`s, and a sum that 32 bits do not represent is undefined.
`callChecked` is a call with that arithmetic.  After pairs of a `Predict` and a `Learn` no sum is
ever out of range, although the bias is not clamped: it is trained only when the output is not
above the threshold on the side of the target, and the ten clamped weights then keep it within
`biasBound` (`no_overflow`).
-/

namespace RipSim

namespace PerceptronBranchPredictor

open BranchPredictor

/-! ## The methods with 32 bits -/

/-- The loop of `Predict`. -/
def outputChecked (h : Word) (row : ℕ → ℤ) : Option ℤ :=
  (List.range HistoryBitwidth).foldlM (fun y k => do
    let p ← SignedInt.mul 32 (row (k + 1)) (sign h (k + 1))
    SignedInt.add 32 y p) (row 0)

/-- The test of `Learn`.  `abs(y)` is evaluated only when the sign was right. -/
def trainsChecked (y : ℤ) (cond : Bool) : Option Bool :=
  if decide (0 < y) ^^ cond then some true
  else do
    let a ← SignedInt.abs 32 y
    some (decide (a ≤ Theta))

/-- An iteration of the loop of `Learn`. -/
def trainColumnChecked (h : Word) (t : ℤ) (row : ℕ → ℤ) (k : ℕ) : Option (ℕ → ℤ) := do
  let p ← SignedInt.mul 32 t (sign h (k + 1))
  let w ← SignedInt.add 32 (row (k + 1)) p
  some (Function.update row (k + 1)
    (max (-2 ^ (WeightBitwidth - 1)) (min w (2 ^ (WeightBitwidth - 1) - 1))))

/-- The training of a row: the bias, then the loop. -/
def trainRowChecked (h : Word) (t : ℤ) (row : ℕ → ℤ) : Option (ℕ → ℤ) := do
  let b ← SignedInt.add 32 (row 0) t
  (List.range HistoryBitwidth).foldlM (trainColumnChecked h t) (Function.update row 0 b)

/-- A call. -/
def callChecked (B : PerceptronBranchPredictor) : Call → Option PerceptronBranchPredictor
  | .Predict PC => do
    let y ← outputChecked B.BranchHistory (B.WeightArray (PerceptronIndex PC))
    some { B with y := y }
  | .Learn cond PC => do
    let i := PerceptronIndex PC
    let train ← trainsChecked B.y cond
    let W ← if train then do
        let row ← trainRowChecked B.BranchHistory (if cond then 1 else -1) (B.WeightArray i)
        some (Function.update B.WeightArray i row)
      else some B.WeightArray
    some
      { B with
        WeightArray := W
        BranchHistory :=
          (B.BranchHistory <<< 1 + (BitVec.ofBool cond).setWidth 32) % (1#32 <<< HistoryBitwidth) }

/-- A sequence of calls. -/
def callsChecked (B : PerceptronBranchPredictor) (cs : List Call) :
    Option PerceptronBranchPredictor :=
  cs.foldlM callChecked B

/-! ## Bounds -/

/-- The largest magnitude of a clamped weight. -/
def weightBound : ℤ := 2 ^ (WeightBitwidth - 1)

/-- The largest magnitude of a bias. -/
def biasBound : ℤ := Theta + HistoryBitwidth * weightBound + 1

/-- The largest magnitude of a sum of `Predict`. -/
def sumBound : ℤ := biasBound + HistoryBitwidth * weightBound

/-- A row that is clamped and has a bias in its range. -/
structure BoundedRow (row : ℕ → ℤ) : Prop where
  clamped : ClampedRow row
  bias : |row 0| ≤ biasBound

theorem abs_weight_le {row : ℕ → ℤ} (hrow : ClampedRow row) {k : ℕ} (hk : k < HistoryBitwidth) :
    |row (k + 1)| ≤ weightBound := by
  obtain ⟨hlo, hhi⟩ := hrow k hk
  exact abs_le.mpr ⟨hlo, hhi.trans (by decide)⟩

/-- The sums of `Predict`. -/
theorem BoundedRow.abs_partialOutput_le {row : ℕ → ℤ} (hrow : BoundedRow row) (h : Word) {n : ℕ}
    (hn : n ≤ HistoryBitwidth) : |partialOutput h row n| ≤ sumBound := by
  have hnear : |partialOutput h row n - row 0| ≤ n * weightBound := by
    have hle := Perceptron.abs_output_sub_bias_le (s := Finset.range n) (b := row 0)
      (fun k _ => isSign_sign h (k + 1))
      fun k hk => abs_weight_le hrow.clamped ((Finset.mem_range.mp hk).trans_le hn)
    rwa [← partialOutput_eq, Finset.card_range] at hle
  have hcount : (n : ℤ) * weightBound ≤ HistoryBitwidth * weightBound :=
    mul_le_mul_of_nonneg_right (Int.ofNat_le.mpr hn) (by decide)
  calc |partialOutput h row n| = |partialOutput h row n - row 0 + row 0| := by rw [sub_add_cancel]
    _ ≤ |partialOutput h row n - row 0| + |row 0| := abs_add_le _ _
    _ ≤ HistoryBitwidth * weightBound + biasBound := add_le_add (hnear.trans hcount) hrow.bias
    _ = sumBound := add_comm _ _

/-- What is trained is not above the threshold on the side of the target. -/
theorem target_mul_le_of_trains {y : ℤ} {cond : Bool} (h : trains y cond = true) :
    target cond * y ≤ Theta := by
  unfold trains at h
  unfold target
  unfold Theta at *
  cases cond <;> simp at h ⊢ <;> omega

/-! ## Defined operations -/

/-- Every sum of `Predict` is defined. -/
theorem outputChecked_eq (h : Word) {row : ℕ → ℤ} (hrow : BoundedRow row) :
    outputChecked h row = some (output h row) := by
  refine SignedInt.foldlM_range_eq fun k hk => ?_
  have hterm : |row (k + 1) * sign h (k + 1)| ≤ weightBound := by
    rw [Perceptron.abs_mul_sign (isSign_sign h (k + 1))]
    exact abs_weight_le hrow.clamped hk
  have hsum : |partialOutput h row k + row (k + 1) * sign h (k + 1)| ≤ sumBound := by
    have hnext := hrow.abs_partialOutput_le h (Nat.succ_le_of_lt hk)
    rwa [partialOutput, List.range_succ, List.foldl_append] at hnext
  rw [SignedInt.mul_of_abs_lt (hterm.trans_lt (by decide))]
  exact SignedInt.add_of_abs_lt (hsum.trans_lt (by decide))

/-- The test of `Learn` is defined. -/
theorem trainsChecked_eq {y : ℤ} (hy : |y| ≤ sumBound) (cond : Bool) :
    trainsChecked y cond = some (trains y cond) := by
  have habs : SignedInt.abs 32 y = some |y| := SignedInt.abs_of_abs_lt (hy.trans_lt (by decide))
  have hnat : (|y| ≤ (Theta : ℤ)) ↔ y.natAbs ≤ Theta := by
    rw [Int.abs_eq_natAbs]
    exact Int.ofNat_le
  unfold trainsChecked trains
  cases hsign : decide (0 < y) ^^ cond with
  | true => rfl
  | false => simp [habs, hnat]

theorem abs_target (cond : Bool) : |target cond| = 1 := by
  cases cond <;> rfl

/-- An iteration of the loop of `Learn` is defined. -/
theorem trainColumnChecked_eq (h : Word) (cond : Bool) {row : ℕ → ℤ} {k : ℕ}
    (hrow : |row (k + 1)| ≤ weightBound) : trainColumnChecked h (target cond) row k =
      some (Function.update row (k + 1) (trained h (target cond) (row (k + 1)) (k + 1))) := by
  have hstep : |target cond * sign h (k + 1)| = 1 := by
    rw [Perceptron.abs_mul_sign (isSign_sign h (k + 1)), abs_target]
  have hsum : |row (k + 1) + target cond * sign h (k + 1)| ≤ weightBound + 1 :=
    (abs_add_le _ _).trans (add_le_add hrow hstep.le)
  rw [trainColumnChecked, SignedInt.mul_of_abs_lt (hstep.trans_lt (by decide))]
  simp only [Option.bind_eq_bind, Option.bind_some]
  rw [SignedInt.add_of_abs_lt (hsum.trans_lt (by decide))]
  rfl

/-- The columns after `n` iterations of the loop of `Learn`. -/
def trainedColumns (h : Word) (t : ℤ) (row : ℕ → ℤ) (n : ℕ) : ℕ → ℤ :=
  (List.range n).foldl
    (fun row k => Function.update row (k + 1) (trained h t (row (k + 1)) (k + 1))) row

/-- They are the trained ones up to column `n`. -/
theorem trainedColumns_apply (h : Word) (t : ℤ) (row : ℕ → ℤ) (n j : ℕ) :
    trainedColumns h t row n j =
      if j ≠ 0 ∧ j < n + 1 then trained h t (row j) j else row j := by
  induction n generalizing j with
  | zero =>
    have hj : ¬(j ≠ 0 ∧ j < 0 + 1) := by omega
    exact (if_neg hj).symm
  | succ n ih =>
    have hstep : trainedColumns h t row (n + 1) = Function.update (trainedColumns h t row n) (n + 1)
        (trained h t (trainedColumns h t row n (n + 1)) (n + 1)) := by
      rw [trainedColumns, List.range_succ, List.foldl_append]
      rfl
    rw [hstep]
    by_cases hj : j = n + 1
    · rw [hj, Function.update_self, ih, if_neg (by omega), if_pos (by omega)]
    · rw [Function.update_of_ne hj, ih]
      exact if_congr (by omega) rfl rfl

/-- The training of a row is defined. -/
theorem trainRowChecked_eq (h : Word) (cond : Bool) {row : ℕ → ℤ} (hrow : BoundedRow row) :
    trainRowChecked h (target cond) row = some (trainRow h (target cond) row) := by
  have hbias : |row 0 + target cond| ≤ biasBound + 1 :=
    (abs_add_le _ _).trans (add_le_add hrow.bias (abs_target cond).le)
  have hloop : (List.range HistoryBitwidth).foldlM (trainColumnChecked h (target cond))
      (Function.update row 0 (row 0 + target cond)) = some (trainedColumns h (target cond)
        (Function.update row 0 (row 0 + target cond)) HistoryBitwidth) := by
    refine SignedInt.foldlM_range_eq fun k hk => trainColumnChecked_eq h cond ?_
    -- the iterations before this one did not write column `k + 1`
    have hcol := trainedColumns_apply h (target cond)
      (Function.update row 0 (row 0 + target cond)) k (k + 1)
    rw [if_neg (by omega), Function.update_of_ne (Nat.succ_ne_zero k)] at hcol
    exact (congrArg abs hcol).trans_le (abs_weight_le hrow.clamped hk)
  rw [trainRowChecked, SignedInt.add_of_abs_lt (hbias.trans_lt (by decide))]
  refine hloop.trans (congrArg some (funext fun j => ?_))
  rw [trainedColumns_apply, trainRow]
  by_cases hj : j = 0
  · rw [hj, if_neg (by omega), Function.update_self, if_pos rfl]
  · rw [Function.update_of_ne hj, if_neg hj]
    exact if_congr (and_iff_right hj) rfl rfl

/-! ## Runs -/

/-- Every row is clamped and has a bias in its range. -/
def Bounded (B : PerceptronBranchPredictor) : Prop := ∀ i, BoundedRow (B.WeightArray i)

theorem bounded_new (y : ℤ) : Bounded (new y) := fun i =>
  ⟨clamped_new y i, show |(0 : ℤ)| ≤ biasBound by decide⟩

/-- A `Predict` is defined. -/
theorem callChecked_Predict {B : PerceptronBranchPredictor} (hB : Bounded B) (PC : Address) :
    callChecked B (.Predict PC) = some (call B (.Predict PC)) := by
  rw [callChecked, outputChecked_eq B.BranchHistory (hB _)]
  rfl

/-- A `Learn` is defined when `y` is in its range. -/
theorem callChecked_Learn {B : PerceptronBranchPredictor} (hB : Bounded B) (hy : |B.y| ≤ sumBound)
    (cond : Bool) (PC : Address) :
    callChecked B (.Learn cond PC) = some (call B (.Learn cond PC)) := by
  have hrow := trainRowChecked_eq B.BranchHistory cond (hB (PerceptronIndex PC))
  have hcall : call B (.Learn cond PC) = { B with
      WeightArray :=
        if trains B.y cond then
          Function.update B.WeightArray (PerceptronIndex PC)
            (trainRow B.BranchHistory (target cond) (B.WeightArray (PerceptronIndex PC)))
        else B.WeightArray
      BranchHistory :=
        (B.BranchHistory <<< 1 + (BitVec.ofBool cond).setWidth 32) % (1#32 <<< HistoryBitwidth) } :=
    rfl
  rw [target] at hrow hcall
  rw [callChecked, trainsChecked_eq hy, hcall]
  cases trains B.y cond with
  | true => simp [hrow]
  | false => simp

/-- A training keeps the bias in its range. -/
theorem boundedRow_trainRow {row : ℕ → ℤ} (hrow : BoundedRow row) (h : Word) {cond : Bool}
    (htrains : trains (output h row) cond = true) : BoundedRow (trainRow h (target cond) row) := by
  refine ⟨clampedRow_trainRow h (target cond) row, ?_⟩
  have hbias := Perceptron.abs_bias_train_le (s := Finset.range HistoryBitwidth) (b := row 0)
    (isSign_target cond) (fun k _ => isSign_sign h (k + 1))
    (fun k hk => abs_weight_le hrow.clamped (Finset.mem_range.mp hk))
    (output_eq h row ▸ target_mul_le_of_trains htrains)
  rw [Finset.card_range] at hbias
  exact hbias hrow.bias

/-- A pair keeps every bias in its range. -/
theorem bounded_pair {B : PerceptronBranchPredictor} (hB : Bounded B) (PC : Address) (cond : Bool) :
    Bounded (pair B PC cond) := by
  intro i
  by_cases hi : i = PerceptronIndex PC
  · rw [hi, pair_row_self]
    split
    · rename_i htrains
      exact boundedRow_trainRow (hB _) B.BranchHistory htrains
    · exact hB _
  · rw [pair_row_of_ne B PC cond hi]
    exact hB i

/-- A pair is defined. -/
theorem callsChecked_pair {B : PerceptronBranchPredictor} (hB : Bounded B) (PC : Address)
    (cond : Bool) : callsChecked B [.Predict PC, .Learn cond PC] = some (pair B PC cond) := by
  have hy : |(Predict B PC).2.y| ≤ sumBound :=
    (hB (PerceptronIndex PC)).abs_partialOutput_le B.BranchHistory le_rfl
  have hB' : Bounded (Predict B PC).2 := hB
  rw [callsChecked, List.foldlM_cons, callChecked_Predict hB, Option.bind_eq_bind, Option.bind_some,
    List.foldlM_cons]
  show callChecked (Predict B PC).2 (.Learn cond PC) >>= _ = _
  rw [callChecked_Learn hB' hy]
  rfl

/-- After any pairs every bias is in its range. -/
theorem bounded_pairs (y : ℤ) (ps : List (Address × Bool)) :
    Bounded (calls (new y) (pairCalls ps)) := by
  induction ps using List.reverseRecOn with
  | nil => exact bounded_new y
  | append_singleton ps p ih =>
    rw [calls_pairCalls_concat]
    exact bounded_pair ih p.1 p.2

/-- Any pairs are defined. -/
theorem callsChecked_pairs (y : ℤ) (ps : List (Address × Bool)) :
    callsChecked (new y) (pairCalls ps) = some (calls (new y) (pairCalls ps)) := by
  induction ps using List.reverseRecOn with
  | nil => rfl
  | append_singleton ps p ih =>
    have hlast : pairCalls (ps ++ [p]) = pairCalls ps ++ [.Predict p.1, .Learn p.2 p.1] := by
      rw [pairCalls, List.flatMap_append]
      rfl
    rw [callsChecked] at ih
    rw [calls_pairCalls_concat, hlast, callsChecked, List.foldlM_append, ih, Option.bind_eq_bind,
      Option.bind_some]
    exact callsChecked_pair (bounded_pairs y ps) p.1 p.2

/-- The arithmetic of the methods after a sequence of pairs. -/
structure NoOverflow (y : ℤ) (ps : List (Address × Bool)) : Prop where
  /-- No operation of the run was out of range, and the objects are those of exact arithmetic. -/
  defined : callsChecked (new y) (pairCalls ps) = some (calls (new y) (pairCalls ps))
  /-- The biases. -/
  bias : ∀ i, |(calls (new y) (pairCalls ps)).WeightArray i 0| ≤ biasBound
  /-- The values that `y` takes in the next `Predict`. -/
  sums : ∀ PC, ∀ n ≤ HistoryBitwidth,
    |partialOutput (calls (new y) (pairCalls ps)).BranchHistory
      ((calls (new y) (pairCalls ps)).WeightArray (PerceptronIndex PC)) n| ≤ sumBound
  /-- The next `Learn` moves a bias only when `y` was not above the threshold or the prediction
  was wrong. -/
  moved : ∀ PC cond i, (pair (calls (new y) (pairCalls ps)) PC cond).WeightArray i 0 ≠
      (calls (new y) (pairCalls ps)).WeightArray i 0 →
    |answer (calls (new y) (pairCalls ps)) PC| ≤ Theta ∨
      (Predict (calls (new y) (pairCalls ps)) PC).1 ≠ cond
  /-- These are far from what 32 bits represent. -/
  small : biasBound ≤ sumBound ∧ sumBound < 2 ^ 31

/-- **No sum overflows**, after any pairs. -/
theorem no_overflow (y : ℤ) (ps : List (Address × Bool)) : NoOverflow y ps := by
  have hB := bounded_pairs y ps
  refine ⟨callsChecked_pairs y ps, fun i => (hB i).bias,
    fun PC n hn => (hB (PerceptronIndex PC)).abs_partialOutput_le _ hn, fun PC cond i hne => ?_,
    by decide, by decide⟩
  by_contra hno
  rw [not_or, not_le, not_ne_iff] at hno
  have htrains : trains (answer (calls (new y) (pairCalls ps)) PC) cond = false :=
    (trains_eq_false_iff cond).mpr hno.symm
  refine hne (congrFun ?_ 0)
  by_cases hi : i = PerceptronIndex PC
  · rw [hi, pair_row_self, if_neg (by rw [htrains]; exact Bool.false_ne_true)]
  · exact pair_row_of_ne _ PC cond hi

end PerceptronBranchPredictor

end RipSim
