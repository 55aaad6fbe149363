import Mathlib.Data.BitVec

/-!
# Fields of a machine word

An instruction word is a disjunction of fields, each shifted to its place, and a
field is read back by a mask and a shift.  The lemmas here say both in terms of
`BitVec.extractLsb'`, so that a round trip is a computation with field bounds:

* `setWidth_and_ushiftRight`, `and_ushiftRight`: a mask and a shift read a field;
* `extractLsb'_place_self`: a placed field reads back as itself;
* `extractLsb'_place_of_disjoint`: a field reads as zero where another was placed;
* `toNat_append_eq`: the value of a word put together from two.
-/

namespace BitField

variable {N : ℕ}

/-- A shift and a truncation read a field. -/
theorem setWidth_ushiftRight (v : BitVec N) (lo len : ℕ) :
    (v >>> lo).setWidth len = v.extractLsb' lo len := by
  ext i hi
  simp

/-- A mask with ones over the field, a shift and a truncation read the field. -/
theorem setWidth_and_ushiftRight (v m : BitVec N) (lo len : ℕ)
    (hm : ∀ i < len, m.getLsbD (lo + i) = true) :
    ((v &&& m) >>> lo).setWidth len = v.extractLsb' lo len := by
  ext i hi
  simp [hm i hi]

/-- A mask with ones over the field and nowhere else, then a shift, read the field
into a word of the same width. -/
theorem and_ushiftRight (v m : BitVec N) (lo len : ℕ)
    (hm : ∀ i < N, m.getLsbD i = decide (lo ≤ i ∧ i < lo + len)) :
    (v &&& m) >>> lo = (v.extractLsb' lo len).setWidth N := by
  apply BitVec.eq_of_getLsbD_eq
  intro i hi
  rw [BitVec.getLsbD_ushiftRight, BitVec.getLsbD_and, BitVec.getLsbD_setWidth,
    BitVec.getLsbD_extractLsb', decide_eq_true hi, Bool.true_and]
  by_cases hN : lo + i < N
  · rw [hm _ hN]
    by_cases h : i < len
    · rw [decide_eq_true h, decide_eq_true (by omega), Bool.and_true, Bool.true_and]
    · rw [decide_eq_false h, decide_eq_false (by omega), Bool.and_false, Bool.false_and]
  · rw [BitVec.getLsbD_of_ge v _ (by omega), Bool.false_and, Bool.and_false]

/-- A mask of the low bits reads the low field in place. -/
theorem and_low (v m : BitVec N) (len : ℕ) (hm : ∀ i < N, m.getLsbD i = decide (i < len)) :
    v &&& m = (v.extractLsb' 0 len).setWidth N := by
  have h := and_ushiftRight v m 0 len (by
    intro i hi
    rw [hm i hi, decide_eq_decide]
    omega)
  rwa [BitVec.ushiftRight_zero] at h

/-- A shifted word reads as zero below the shift. -/
@[simp] theorem extractLsb'_shiftLeft_of_le (v : BitVec N) {off lo len : ℕ} (h : lo + len ≤ off) :
    (v <<< off).extractLsb' lo len = BitVec.ofNat len 0 := by
  apply BitVec.eq_of_getLsbD_eq
  intro i hi
  rw [BitVec.getLsbD_extractLsb', BitVec.getLsbD_shiftLeft]
  simp [show lo + i < off by omega]

/-- A field placed at `off` reads back as itself. -/
@[simp] theorem extractLsb'_place_self {w : ℕ} (x : BitVec w) {off : ℕ} (h : off + w ≤ N) :
    (x.setWidth N <<< off).extractLsb' off w = x := by
  apply BitVec.eq_of_getLsbD_eq
  intro i hi
  rw [BitVec.getLsbD_extractLsb', BitVec.getLsbD_shiftLeft, BitVec.getLsbD_setWidth]
  have h1 : off + i < N := by omega
  have h2 : ¬ off + i < off := by omega
  simp [hi, h1, h2, show i < N by omega]

/-- A field placed at `off` reads as zero over a disjoint field. -/
@[simp] theorem extractLsb'_place_of_disjoint {w : ℕ} (x : BitVec w) {off lo len : ℕ}
    (h : lo + len ≤ off ∨ off + w ≤ lo) :
    (x.setWidth N <<< off).extractLsb' lo len = BitVec.ofNat len 0 := by
  apply BitVec.eq_of_getLsbD_eq
  intro i hi
  rw [BitVec.getLsbD_extractLsb', BitVec.getLsbD_shiftLeft, BitVec.getLsbD_setWidth]
  rcases h with h | h
  · have h1 : lo + i < off := by omega
    simp [h1]
  · have h1 : x.getLsbD (lo + i - off) = false := BitVec.getLsbD_of_ge x _ (by omega)
    simp [h1]

/-- An unshifted field reads back as itself at zero. -/
@[simp] theorem extractLsb'_low_self {w : ℕ} (x : BitVec w) (h : w ≤ N) :
    (x.setWidth N).extractLsb' 0 w = x := by
  have h0 : (x.setWidth N <<< 0).extractLsb' 0 w = x := extractLsb'_place_self x (by omega)
  rwa [BitVec.shiftLeft_zero] at h0

/-- An unshifted field reads as zero above itself. -/
@[simp] theorem extractLsb'_low_of_le {w : ℕ} (x : BitVec w) {lo len : ℕ} (h : w ≤ lo) :
    (x.setWidth N).extractLsb' lo len = BitVec.ofNat len 0 := by
  have h0 : (x.setWidth N <<< 0).extractLsb' lo len = BitVec.ofNat len 0 :=
    extractLsb'_place_of_disjoint x (Or.inr (by omega))
  rwa [BitVec.shiftLeft_zero] at h0

/-- The value of a word put together from two. -/
theorem toNat_append_eq {m n : ℕ} (x : BitVec m) (y : BitVec n) :
    (x ++ y).toNat = x.toNat * 2 ^ n + y.toNat := by
  rw [BitVec.toNat_append, ← Nat.shiftLeft_add_eq_or_of_lt y.isLt, Nat.shiftLeft_eq]

end BitField
