import Mathlib.Algebra.Order.Group.Unbundled.Int
import Mathlib.Data.List.Basic

/-!
# Signed integers of `w` bits

The arithmetic of signed machine integers is the exact one as long as the result is representable,
and undefined (`none`) otherwise.  A loop whose every step is defined, at the state the exact loop
has there, is the exact loop (`foldlM_range_eq`).
-/

namespace SignedInt

/-- A number that `w` bits represent. -/
def InRange (w : ℕ) (x : ℤ) : Prop := -2 ^ (w - 1) ≤ x ∧ x < 2 ^ (w - 1)

instance (w : ℕ) (x : ℤ) : Decidable (InRange w x) :=
  inferInstanceAs (Decidable (_ ∧ _))

theorem inRange_of_abs_lt {w : ℕ} {x : ℤ} (h : |x| < 2 ^ (w - 1)) : InRange w x :=
  ⟨(abs_lt.mp h).1.le, (abs_lt.mp h).2⟩

/-! ## Operations -/

/-- The operation whose exact result is `x`. -/
def checked (w : ℕ) (x : ℤ) : Option ℤ := if InRange w x then some x else none

/-- `x + y`. -/
def add (w : ℕ) (x y : ℤ) : Option ℤ := checked w (x + y)

/-- `x * y`. -/
def mul (w : ℕ) (x y : ℤ) : Option ℤ := checked w (x * y)

/-- The absolute value. -/
def abs (w : ℕ) (x : ℤ) : Option ℤ := checked w |x|

variable {w : ℕ} {x y : ℤ}

theorem checked_of_inRange (h : InRange w x) : checked w x = some x := if_pos h

theorem add_of_abs_lt (h : |x + y| < 2 ^ (w - 1)) : add w x y = some (x + y) :=
  checked_of_inRange (inRange_of_abs_lt h)

theorem mul_of_abs_lt (h : |x * y| < 2 ^ (w - 1)) : mul w x y = some (x * y) :=
  checked_of_inRange (inRange_of_abs_lt h)

theorem abs_of_abs_lt (h : |x| < 2 ^ (w - 1)) : abs w x = some |x| :=
  checked_of_inRange (inRange_of_abs_lt (by rwa [abs_abs]))

/-! ## Loops -/

/-- A loop of which every step is defined. -/
theorem foldlM_range_eq {β : Type*} {step? : β → ℕ → Option β} {step : β → ℕ → β} {a : β} {n : ℕ}
    (hstep : ∀ k < n, step? ((List.range k).foldl step a) k =
      some (step ((List.range k).foldl step a) k)) :
    (List.range n).foldlM step? a = some ((List.range n).foldl step a) := by
  induction n with
  | zero => rfl
  | succ n ih =>
    rw [List.range_succ, List.foldlM_append, ih fun k hk => hstep k (by omega), List.foldl_append]
    simp [hstep n (Nat.lt_succ_self n)]

end SignedInt
