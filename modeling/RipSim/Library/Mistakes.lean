import Mathlib.Algebra.Order.BigOperators.Group.Finset

/-!
# Mistake bounds

A cell guesses a bit, sees the bit, and learns from it; a table has a cell for each key.  A
potential pays for the mistakes of a cell (`Pays`): a step that agrees with a fixed bit uses up
as much potential as it makes mistakes, and a step that deviates from it may borrow.  Summed over
the keys, a table makes few mistakes more than the best assignment of a fixed bit to each key
(`mistakes_le`).

Sequences of events stand with the most recent event first.
-/

namespace Mistakes

/-- One for a true proposition, zero for a false one. -/
def tick (p : Bool) : ℕ := if p then 1 else 0

/-- A cell: its guess, and what it becomes when it sees a bit. -/
structure Learner (α : Type*) where
  guess : α → Bool
  learn : α → Bool → α

variable {α κ : Type*}

/-- The potential `φ b` pays for the mistakes of a cell that should learn `b`; one deviation from
`b` costs at most `r`. -/
def Pays (L : Learner α) (φ : Bool → α → ℕ) (r : ℕ) : Prop :=
  ∀ b a c, tick (L.guess a != c) + φ b (L.learn a c) ≤ φ b a + r * tick (c != b)

/-- The events whose bit is not the one fixed for their key. -/
def deviations (b : κ → Bool) (es : List (κ × Bool)) : ℕ := es.countP fun e => e.2 != b e.1

theorem deviations_cons (b : κ → Bool) (e : κ × Bool) (es : List (κ × Bool)) :
    deviations b (e :: es) = deviations b es + tick (e.2 != b e.1) := List.countP_cons ..

theorem deviations_reverse (b : κ → Bool) (es : List (κ × Bool)) :
    deviations b es.reverse = deviations b es := List.countP_reverse

variable [DecidableEq κ] (L : Learner α) (t₀ : κ → α)

/-- The table after the events. -/
def table : List (κ × Bool) → κ → α
  | [] => t₀
  | e :: es => Function.update (table es) e.1 (L.learn (table es e.1) e.2)

/-- The events whose bit was not the one that the table guessed. -/
def mistakes : List (κ × Bool) → ℕ
  | [] => 0
  | e :: es => mistakes es + tick (L.guess (table L t₀ es e.1) != e.2)

/-- The keys of the events. -/
def keys (es : List (κ × Bool)) : Finset κ := (es.map Prod.fst).toFinset

theorem keys_reverse (es : List (κ × Bool)) : keys es.reverse = keys es := by
  rw [keys, List.map_reverse, List.toFinset_reverse, keys]

theorem mem_keys {e : κ × Bool} {es : List (κ × Bool)} (he : e ∈ es) : e.1 ∈ keys es :=
  List.mem_toFinset.mpr (List.mem_map_of_mem he)

variable {L t₀} {φ : Bool → α → ℕ} {r : ℕ}

/-- **The potential of the table pays for its mistakes.** -/
theorem mistakes_add_potential_le (hL : Pays L φ r) (b : κ → Bool) {K : Finset κ}
    {es : List (κ × Bool)} (hK : ∀ e ∈ es, e.1 ∈ K) :
    mistakes L t₀ es + ∑ k ∈ K, φ (b k) (table L t₀ es k) ≤
      ∑ k ∈ K, φ (b k) (t₀ k) + r * deviations b es := by
  induction es with
  | nil => exact Nat.le_of_eq (Nat.zero_add _)
  | cons e es ih =>
    have hrest := ih fun x hx => hK x (List.mem_cons_of_mem _ hx)
    have he : e.1 ∈ K := hK e List.mem_cons_self
    have hstep := hL (b e.1) (table L t₀ es e.1) e.2
    -- the cell of the event moves, and the others do not
    have hothers : ∑ k ∈ K.erase e.1, φ (b k) (table L t₀ (e :: es) k) =
        ∑ k ∈ K.erase e.1, φ (b k) (table L t₀ es k) := by
      refine Finset.sum_congr rfl fun k hk => ?_
      rw [table, Function.update_of_ne (Finset.ne_of_mem_erase hk)]
    have hcell : table L t₀ (e :: es) e.1 = L.learn (table L t₀ es e.1) e.2 := by
      rw [table, Function.update_self]
    rw [← Finset.add_sum_erase K _ he, hothers, hcell, mistakes, deviations_cons, Nat.mul_add]
    rw [← Finset.add_sum_erase K _ he] at hrest
    omega

/-- **The mistakes of a table**: a constant for each key that is used, and a constant for each
deviation from a fixed bit per key. -/
theorem mistakes_le (hL : Pays L φ r) {m : ℕ} (hm : ∀ b k, φ b (t₀ k) ≤ m) (b : κ → Bool)
    (es : List (κ × Bool)) :
    mistakes L t₀ es ≤ m * (keys es).card + r * deviations b es := by
  have hsum : ∑ k ∈ keys es, φ (b k) (t₀ k) ≤ m * (keys es).card := by
    rw [Nat.mul_comm]
    exact Finset.sum_le_card_nsmul _ _ _ fun k _ => hm (b k) k
  have hle := (mistakes_add_potential_le hL b fun _ => mem_keys :
    mistakes L t₀ es + ∑ k ∈ keys es, φ (b k) (table L t₀ es k) ≤ _)
  omega

end Mistakes
