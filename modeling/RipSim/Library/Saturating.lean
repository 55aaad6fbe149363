import Mathlib.Data.List.Induction

/-!
# Saturating counters

A counter with the values `0` to `m` that goes one up or one down and stays where it is at
either end.
-/

namespace Saturating

variable (m : ℕ)

/-- One up or one down. -/
def step (v : ℕ) (up : Bool) : ℕ := if up then min (v + 1) m else v - 1

/-- The counter after a sequence of steps, the first of the list first. -/
def run (v : ℕ) (l : List Bool) : ℕ := l.foldl (step m) v

@[simp] theorem run_nil (v : ℕ) : run m v [] = v := rfl

@[simp] theorem run_append (v : ℕ) (l l' : List Bool) : run m v (l ++ l') = run m (run m v l) l' :=
  List.foldl_append ..

theorem run_concat (v : ℕ) (l : List Bool) (up : Bool) :
    run m v (l ++ [up]) = step m (run m v l) up := run_append m v l [up]

variable {m} {v : ℕ}

theorem step_le (hv : v ≤ m) (up : Bool) : step m v up ≤ m := by
  unfold step
  split <;> omega

/-- The counter stays in range. -/
theorem run_le (hv : v ≤ m) (l : List Bool) : run m v l ≤ m := by
  induction l using List.reverseRecOn with
  | nil => exact hv
  | append_singleton l up ih =>
    rw [run_concat]
    exact step_le ih up

/-- Steps up are counted until the counter is full. -/
theorem run_ups (hv : v ≤ m) (k : ℕ) : run m v (List.replicate k true) = min (v + k) m := by
  induction k with
  | zero =>
    exact (Nat.min_eq_left hv).symm
  | succ k ih =>
    rw [List.replicate_succ', run_concat, ih, step, if_pos rfl]
    omega

/-- Steps down are counted until the counter is empty. -/
theorem run_downs (k : ℕ) : run m v (List.replicate k false) = v - k := by
  induction k with
  | zero => rfl
  | succ k ih =>
    rw [List.replicate_succ', run_concat, ih, step, if_neg Bool.false_ne_true]
    omega

end Saturating
