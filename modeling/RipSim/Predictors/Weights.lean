import RipSim.Predictors.Training

/-!
# The range of the weights

`Learn` clamps the weights of columns `1` to `10` and not the bias.  The bias leaves the range
of six bits exactly when a row is trained whose bias is at the end already
(`weights_fit_iff`), and that happens: with histories that cancel the other columns the output
stays below the threshold while the bias goes up (`bias_overflows`).
-/

namespace RipSim

namespace PerceptronBranchPredictor

open BranchPredictor

/-- A weight fits its bits. -/
def FitsBits (w : ℤ) : Prop := -2 ^ (WeightBitwidth - 1) ≤ w ∧ w ≤ 2 ^ (WeightBitwidth - 1) - 1

/-- Every entry of the weight array fits. -/
def Fits (B : PerceptronBranchPredictor) : Prop :=
  ∀ i, ∀ j < HistoryBitwidth + 1, FitsBits (B.WeightArray i j)

/-- The pair trains a row whose bias is at the end towards which it moves. -/
def Overshoots (B : PerceptronBranchPredictor) (PC : Address) (cond : Bool) : Prop :=
  trains (answer B PC) cond = true ∧ B.WeightArray (PerceptronIndex PC) 0 =
    if cond then 2 ^ (WeightBitwidth - 1) - 1 else -2 ^ (WeightBitwidth - 1)

/-- With the other columns clamped only the biases count. -/
theorem fits_iff_bias {B : PerceptronBranchPredictor} (hB : Clamped B) :
    Fits B ↔ ∀ i, FitsBits (B.WeightArray i 0) := by
  constructor
  · exact fun h i => h i 0 (by decide)
  · intro h i j hj
    cases j with
    | zero => exact h i
    | succ k => exact hB i k (by omega)

/-- One pair. -/
theorem fits_pair_iff {B : PerceptronBranchPredictor} (hB : Clamped B) (hfits : Fits B)
    (PC : Address)
    (cond : Bool) : Fits (pair B PC cond) ↔ ¬Overshoots B PC cond := by
  have hpair : Clamped (pair B PC cond) :=
    clamped_call (.Learn cond PC) (clamped_call (.Predict PC) hB)
  have hbias := (fits_iff_bias hB).mp hfits
  obtain ⟨hlo, hhi⟩ := hbias (PerceptronIndex PC)
  rw [fits_iff_bias hpair]
  constructor
  · rintro h ⟨ht, hend⟩
    have hself := h (PerceptronIndex PC)
    rw [pair_row_self, if_pos ht, trainRow_zero, hend] at hself
    cases cond with
    | true => exact absurd hself.2 (by decide)
    | false => exact absurd hself.1 (by decide)
  · intro hno i
    by_cases hi : i = PerceptronIndex PC
    · rw [hi, pair_row_self]
      split
      · rename_i ht
        have hend : ¬B.WeightArray (PerceptronIndex PC) 0 =
            if cond then 2 ^ (WeightBitwidth - 1) - 1 else -2 ^ (WeightBitwidth - 1) :=
          fun h => hno ⟨ht, h⟩
        rw [trainRow_zero]
        unfold FitsBits target WeightBitwidth at *
        cases cond <;> simp at hend hlo hhi ⊢ <;> omega
      · exact ⟨hlo, hhi⟩
    · rw [pair_row_of_ne B PC cond hi]
      exact hbias i

/-- **When the weights fit their bits**: in every run whose pairs do not train a bias past the
end, and in no other. -/
theorem weights_fit_iff (y : ℤ) (ps : List (Address × Bool)) :
    (∀ qs, qs <+: ps → Fits (calls (new y) (pairCalls qs))) ↔
      ∀ qs q, qs ++ [q] <+: ps → ¬Overshoots (calls (new y) (pairCalls qs)) q.1 q.2 := by
  constructor
  · intro h qs q hq
    have hnext := h _ hq
    rw [calls_pairCalls_concat] at hnext
    exact (fits_pair_iff (clamped_calls y _) (h qs ((List.prefix_append qs [q]).trans hq)) _ _).mp
      hnext
  · intro h qs
    induction qs using List.reverseRecOn with
    | nil =>
      rintro -
      exact (fits_iff_bias (clamped_new y)).mpr fun _ =>
        show FitsBits 0 by unfold FitsBits; decide
    | append_singleton qs q ih =>
      intro hq
      rw [calls_pairCalls_concat]
      exact (fits_pair_iff (clamped_calls y _) (ih ((List.prefix_append qs [q]).trans hq)) _ _).mpr
        (h qs q hq)

/-! ## A bias that leaves the range -/

/-- A row with bias `b` and weight `c` in every other column. -/
def flatRow (b c : ℤ) : ℕ → ℤ :=
  fun j => if j = 0 then b else if j < HistoryBitwidth + 1 then c else 0

/-- Ten equal outcomes for another row, then a taken outcome for the first. -/
def spell (bit : Bool) : List (Address × Bool) := List.replicate 10 (4, bit) ++ [(0, true)]

theorem calls_pairCalls_append (B : PerceptronBranchPredictor) (ps qs : List (Address × Bool)) :
    calls B (pairCalls (ps ++ qs)) = calls (calls B (pairCalls ps)) (pairCalls qs) := by
  rw [pairCalls, List.flatMap_append, calls_append]
  rfl

theorem pair_history (B : PerceptronBranchPredictor) (PC : Address) (cond : Bool) :
    (pair B PC cond).BranchHistory = ShiftRegister.push HistoryBitwidth B.BranchHistory cond := rfl

/-- The other row's pairs fill the history and leave the first row. -/
theorem calls_replicate (bit : Bool) (n : ℕ) (B : PerceptronBranchPredictor) :
    (calls B (pairCalls (List.replicate n (4, bit)))).WeightArray 0 = B.WeightArray 0 ∧
      (calls B (pairCalls (List.replicate n (4, bit)))).BranchHistory =
        ShiftRegister.pushAll HistoryBitwidth B.BranchHistory (List.replicate n bit) := by
  induction n with
  | zero => exact ⟨rfl, rfl⟩
  | succ n ih =>
    obtain ⟨hrow, hhist⟩ := ih
    rw [List.replicate_succ', calls_pairCalls_concat, List.replicate_succ]
    exact ⟨(pair_row_of_ne _ 4 bit (by decide)).trans hrow, by rw [pair_history, hhist]; rfl⟩

/-- The history after them is constant. -/
theorem sign_replicate (h : Word) (bit : Bool) {k : ℕ} (hk : k < HistoryBitwidth) :
    sign (ShiftRegister.pushAll HistoryBitwidth h (List.replicate 10 bit)) (k + 1) =
      target bit := by
  have hget := ShiftRegister.getLsbD_pushAll (by decide : HistoryBitwidth < 32) h
    (List.replicate 10 bit) hk
  have hbit :
      (List.replicate 10 bit).getD k (h.getLsbD (k - (List.replicate 10 bit).length)) = bit := by
    rw [List.getD_eq_getElem?_getD, List.getElem?_replicate,
      if_pos (show k < 10 from hk)]
    rfl
  rw [sign, Nat.add_sub_cancel, hget, hbit]
  rfl

/-- With a constant history a flat row has ten equal terms, and stays flat. -/
theorem flatRow_trained {h : Word} {s : ℤ} (hs : ∀ k < HistoryBitwidth, sign h (k + 1) = s)
    (b c : ℤ) :
    output h (flatRow b c) = b + 10 * (c * s) ∧
      trainRow h 1 (flatRow b c) =
        flatRow (b + 1) (max (-2 ^ (WeightBitwidth - 1))
          (min (c + s) (2 ^ (WeightBitwidth - 1) - 1))) := by
  constructor
  · rw [output_eq]
    have hterm : ∀ k ∈ Finset.range HistoryBitwidth,
        flatRow b c (k + 1) * sign h (k + 1) = c * s := fun k hk => by
      have hk10 := Finset.mem_range.mp hk
      rw [hs k hk10, flatRow, if_neg (Nat.succ_ne_zero k), if_pos (by omega)]
    show b + ∑ k ∈ Finset.range HistoryBitwidth, flatRow b c (k + 1) * sign h (k + 1) = _
    rw [Finset.sum_congr rfl hterm, Finset.sum_const, Finset.card_range, nsmul_eq_mul]
    rfl
  · funext j
    cases j with
    | zero => rfl
    | succ k =>
      by_cases hk : k < HistoryBitwidth
      · rw [trainRow_succ h 1 _ hk, Perceptron.trained, hs k hk, one_mul, flatRow, flatRow,
          if_neg (Nat.succ_ne_zero k), if_pos (by omega), if_neg (Nat.succ_ne_zero k),
          if_pos (by omega)]
      · have hcol : ¬k + 1 < HistoryBitwidth + 1 := by omega
        simp [trainRow, flatRow, hcol]

/-- One spell trains the first row while its output is not above the threshold. -/
theorem row_spell {B : PerceptronBranchPredictor} {b c : ℤ} (hrow : B.WeightArray 0 = flatRow b c)
    (bit : Bool) (hy : (b + 10 * (c * target bit)).natAbs ≤ Theta) :
    (calls B (pairCalls (spell bit))).WeightArray 0 = flatRow (b + 1)
      (max (-2 ^ (WeightBitwidth - 1)) (min (c + target bit) (2 ^ (WeightBitwidth - 1) - 1))) := by
  obtain ⟨hrow', hhist⟩ := calls_replicate bit 10 B
  obtain ⟨hout, htrain⟩ := flatRow_trained (fun k hk => sign_replicate B.BranchHistory bit hk) b c
  have hans : answer (calls B (pairCalls (List.replicate 10 (4, bit)))) 0 =
      b + 10 * (c * target bit) := by
    rw [← hout, ← hhist, ← hrow, ← hrow']
    rfl
  have htrains : trains (b + 10 * (c * target bit)) true = true := by
    rw [trains, decide_eq_true hy, Bool.or_true]
  rw [spell, calls_pairCalls_append]
  show (pair _ 0 true).WeightArray (PerceptronIndex 0) = _
  rw [pair_row_self, hans, if_pos htrains, ← htrain, ← hhist, ← hrow, ← hrow']
  rfl

/-- Two spells with opposite histories move the bias by two and leave the other columns. -/
theorem row_two_spells {B : PerceptronBranchPredictor} {b : ℤ}
    (hrow : B.WeightArray 0 = flatRow b 0)
    (hb : 0 ≤ b ∧ b ≤ 33) :
    (calls B (pairCalls (spell true ++ spell false))).WeightArray 0 = flatRow (b + 2) 0 := by
  rw [calls_pairCalls_append]
  have h1 := row_spell hrow true (by rw [zero_mul, mul_zero, add_zero, Theta]; omega)
  have h2 := row_spell h1 false (by
    show (b + 1 + 10 * (1 * -1)).natAbs ≤ 33
    omega)
  rw [h2, add_assoc]
  rfl

theorem row_spells (n : ℕ) (hn : n ≤ 17) :
    (calls (new 0)
      (pairCalls (List.replicate n (spell true ++ spell false)).flatten)).WeightArray 0 =
      flatRow (2 * n) 0 := by
  induction n with
  | zero =>
    funext j
    show (0 : ℤ) = flatRow 0 0 j
    unfold flatRow
    split_ifs <;> rfl
  | succ n ih =>
    rw [List.replicate_succ', List.flatten_append, calls_pairCalls_append, List.flatten_singleton,
      row_two_spells (ih (by omega)) (by omega)]
    push_cast
    ring_nf

/-- After sixteen rounds the bias of the first row is 32. -/
theorem bias_overflows : ¬ ∀ qs, qs <+: (List.replicate 16 (spell true ++ spell false)).flatten →
    Fits (calls (new 0) (pairCalls qs)) := by
  intro h
  have hfits := (h _ (List.prefix_refl _) 0 0 (by decide)).2
  rw [row_spells 16 (by decide)] at hfits
  exact absurd hfits (by decide)

end PerceptronBranchPredictor

end RipSim
