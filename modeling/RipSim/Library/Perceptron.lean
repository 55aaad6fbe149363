import Mathlib.Algebra.BigOperators.Ring.Finset
import Mathlib.Algebra.Order.BigOperators.Group.Finset
import Mathlib.Algebra.Order.Group.Abs
import Mathlib.Algebra.Order.Ring.Int
import Mathlib.Tactic.GCongr
import Mathlib.Tactic.Ring

/-!
# Perceptrons with clamped weights

A perceptron has a bias and a weight for each input, the inputs are signs, and training moves
the bias by the target `t` and each weight by `t` times its input, the weights being clamped to
an interval.  Whatever is clamped, training moves the output towards the target, by one at
least (`lt_output_train`).  The bias is not clamped, and stays bounded nevertheless when only
outputs that are not above a threshold on the side of the target are trained
(`abs_bias_train_le`).
-/

namespace Perceptron

/-- A number is a sign. -/
def IsSign (x : ℤ) : Prop := x = 1 ∨ x = -1

variable {ι : Type*} (s : Finset ι)

/-- The output. -/
def output (b : ℤ) (w x : ι → ℤ) : ℤ := b + ∑ i ∈ s, w i * x i

/-- A weight after training. -/
def trained (lo hi t : ℤ) (w x : ι → ℤ) (i : ι) : ℤ := max lo (min (w i + t * x i) hi)

variable {s} {lo hi t b : ℤ} {w x : ι → ℤ}

theorem trained_mem (h : lo ≤ hi) (i : ι) :
    lo ≤ trained lo hi t w x i ∧ trained lo hi t w x i ≤ hi := by
  unfold trained
  omega

/-- Training moves no term away from the target. -/
theorem term_le_trained (ht : IsSign t) {i : ι} (hx : IsSign (x i)) (hw : lo ≤ w i ∧ w i ≤ hi) :
    t * (w i * x i) ≤ t * (trained lo hi t w x i * x i) := by
  unfold trained
  rcases ht with rfl | rfl <;> rcases hx with hx | hx <;> rw [hx] <;> omega

/-- **Training makes progress.** -/
theorem lt_output_train (ht : IsSign t) (hx : ∀ i ∈ s, IsSign (x i))
    (hw : ∀ i ∈ s, lo ≤ w i ∧ w i ≤ hi) :
    t * output s b w x + 1 ≤ t * output s (b + t) (trained lo hi t w x) x := by
  have hsum : t * ∑ i ∈ s, w i * x i ≤ t * ∑ i ∈ s, trained lo hi t w x i * x i := by
    rw [Finset.mul_sum, Finset.mul_sum]
    exact Finset.sum_le_sum fun i hi' => term_le_trained ht (hx i hi') (hw i hi')
  have htt : t * t = 1 := by rcases ht with rfl | rfl <;> rfl
  calc t * output s b w x + 1 = t * b + t * t + t * ∑ i ∈ s, w i * x i := by
        rw [htt, output]
        ring
    _ ≤ t * b + t * t + t * ∑ i ∈ s, trained lo hi t w x i * x i := by gcongr
    _ = t * output s (b + t) (trained lo hi t w x) x := by
        rw [output]
        ring

/-! ## The range of the bias -/

variable {m θ : ℤ}

/-- The product of a weight and a sign is as large as the weight. -/
theorem abs_mul_sign {v : ℤ} (hv : IsSign v) (u : ℤ) : |u * v| = |u| := by
  rcases hv with rfl | rfl
  · rw [mul_one]
  · rw [mul_neg_one, abs_neg]

/-- The output is near the bias. -/
theorem abs_output_sub_bias_le (hx : ∀ i ∈ s, IsSign (x i)) (hw : ∀ i ∈ s, |w i| ≤ m) :
    |output s b w x - b| ≤ s.card * m := by
  rw [output, add_sub_cancel_left]
  calc |∑ i ∈ s, w i * x i| ≤ ∑ i ∈ s, |w i * x i| := Finset.abs_sum_le_sum_abs _ _
    _ = ∑ i ∈ s, |w i| := Finset.sum_congr rfl fun i hi => abs_mul_sign (hx i hi) (w i)
    _ ≤ ∑ _i ∈ s, m := Finset.sum_le_sum hw
    _ = s.card * m := by rw [Finset.sum_const, nsmul_eq_mul]

/-- **The bias stays in its range** when the output was not above the threshold on the side of
the target. -/
theorem abs_bias_train_le (ht : IsSign t) (hx : ∀ i ∈ s, IsSign (x i)) (hw : ∀ i ∈ s, |w i| ≤ m)
    (hθ : t * output s b w x ≤ θ) (hb : |b| ≤ θ + s.card * m + 1) :
    |b + t| ≤ θ + s.card * m + 1 := by
  have hnear := abs_le.mp (abs_output_sub_bias_le (b := b) hx hw)
  rw [abs_le] at hb ⊢
  rcases ht with rfl | rfl
  · rw [one_mul] at hθ
    omega
  · rw [neg_one_mul] at hθ
    omega

end Perceptron
