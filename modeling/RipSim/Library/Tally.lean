import Mathlib.Algebra.BigOperators.Finprod
import Mathlib.Algebra.Order.BigOperators.Group.Finset
import Mathlib.Data.BitVec

/-!
# Tallies

A tally has a counter of `w` bits for each key that it has met.  Its counters are the
multiplicities of the keys modulo `2 ^ w` (`tally_apply`), so a sum over its entries is the sum
over the sequence modulo `2 ^ w` (`total_modEq`), and the sum itself if no counter has wrapped
around (`total_eq`); the counters alone add up to the length exactly then (`total_one_iff`).
-/

namespace Tally

variable {κ : Type*} [DecidableEq κ] {w : ℕ}

/-- One more at key `k`. -/
def bump (m : κ → Option (BitVec w)) (k : κ) : κ → Option (BitVec w) :=
  Function.update m k (some (match m k with
    | some n => n + 1
    | none => 1))

/-- The tally of a sequence. -/
def tally (w : ℕ) (l : List κ) : κ → Option (BitVec w) := l.foldl bump fun _ => none

@[simp] theorem tally_nil : tally w ([] : List κ) = fun _ => none := rfl

theorem tally_concat (l : List κ) (k : κ) : tally w (l ++ [k]) = bump (tally w l) k := by
  rw [tally, List.foldl_append]
  rfl

/-- A counter is the multiplicity of its key. -/
theorem tally_apply (l : List κ) (k : κ) :
    tally w l k = if k ∈ l then some (BitVec.ofNat w (l.count k)) else none := by
  induction l using List.reverseRecOn with
  | nil => rfl
  | append_singleton l a ih =>
    rw [tally_concat, bump]
    by_cases hk : k = a
    · subst hk
      rw [Function.update_self, ih, if_pos (List.mem_append_right l (List.mem_singleton.mpr rfl)),
        List.count_append, List.count_singleton_self]
      by_cases hl : k ∈ l
      · rw [if_pos hl, BitVec.ofNat_add]
        rfl
      · rw [if_neg hl, List.count_eq_zero_of_not_mem hl]
        rfl
    · have hmem : k ∈ l ++ [a] ↔ k ∈ l := by simp [hk]
      have hcount : (l ++ [a]).count k = l.count k := by
        rw [List.count_append, List.count_eq_zero_of_not_mem (l := [a]) (by simp [hk]),
          Nat.add_zero]
      rw [Function.update_of_ne hk, ih, hcount]
      simp only [hmem]

/-! ## Sums over the entries -/

/-- The sum of the counters, each times `f` of its key. -/
noncomputable def total (m : κ → Option (BitVec w)) (f : κ → ℕ) : ℕ :=
  ∑ᶠ k, f k * (m k).elim 0 BitVec.toNat

theorem total_tally (l : List κ) (f : κ → ℕ) :
    total (tally w l) f = ∑ k ∈ l.toFinset, f k * (l.count k % 2 ^ w) := by
  have hentry : ∀ k, (tally w l k).elim 0 BitVec.toNat = l.count k % 2 ^ w := by
    intro k
    rw [tally_apply]
    by_cases hk : k ∈ l
    · rw [if_pos hk, Option.elim_some, BitVec.toNat_ofNat]
    · rw [if_neg hk, Option.elim_none, List.count_eq_zero_of_not_mem hk, Nat.zero_mod]
  rw [total, finsum_eq_sum_of_support_subset (s := l.toFinset)]
  · exact Finset.sum_congr rfl fun k _ => by rw [hentry]
  · intro k hk
    by_contra hl
    rw [Finset.mem_coe, List.mem_toFinset] at hl
    apply hk
    show f k * _ = 0
    rw [hentry, List.count_eq_zero_of_not_mem hl, Nat.zero_mod, Nat.mul_zero]

/-- The sum over a sequence, key by key. -/
theorem sum_map_eq (l : List κ) (f : κ → ℕ) :
    (l.map f).sum = ∑ k ∈ l.toFinset, f k * l.count k := by
  rw [Finset.sum_list_map_count]
  exact Finset.sum_congr rfl fun k _ => by rw [smul_eq_mul, Nat.mul_comm]

/-- A sum over the entries is the sum over the sequence, modulo `2 ^ w`. -/
theorem total_modEq (l : List κ) (f : κ → ℕ) : total (tally w l) f ≡ (l.map f).sum [MOD 2 ^ w] := by
  rw [total_tally, sum_map_eq, Nat.ModEq, Finset.sum_nat_mod]
  conv_rhs => rw [Finset.sum_nat_mod]
  exact congrArg (· % 2 ^ w) (Finset.sum_congr rfl fun k _ => (Nat.mod_modEq _ _).mul_left _)

/-- No counter wraps around. -/
def Fits (w : ℕ) (l : List κ) : Prop := ∀ k, l.count k < 2 ^ w

theorem total_eq {l : List κ} (hl : Fits w l) (f : κ → ℕ) :
    total (tally w l) f = (l.map f).sum := by
  rw [total_tally, sum_map_eq]
  exact Finset.sum_congr rfl fun k _ => by rw [Nat.mod_eq_of_lt (hl k)]

/-- The counters add up to the length exactly if none wraps around. -/
theorem total_one_iff (l : List κ) : total (tally w l) (fun _ => 1) = l.length ↔ Fits w l := by
  constructor
  · intro h
    rw [total_tally, ← List.sum_toFinset_count_eq_length] at h
    simp only [Nat.one_mul] at h
    rw [Finset.sum_eq_sum_iff_of_le fun k _ => Nat.mod_le _ _] at h
    intro k
    by_cases hk : k ∈ l
    · rw [← h k (List.mem_toFinset.mpr hk)]
      exact Nat.mod_lt _ (Nat.two_pow_pos w)
    · rw [List.count_eq_zero_of_not_mem hk]
      exact Nat.two_pow_pos w
  · intro h
    rw [total_eq h, List.map_const', List.sum_replicate, smul_eq_mul, Nat.mul_one]

end Tally
