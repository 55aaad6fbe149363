import RipSim.Library.BitField

/-!
# Lenses

A part of a state that can be read and replaced.  `Lens.Lawful` has the three laws, and
`BitField.field` is the lens of a field of a machine word:

* `field_lawful`: reading and replacing a field obey the laws;
* `getLsbD_set`, `ushiftRight_set`: the other bits of the word with a field replaced, and what
  is above the field.
-/

/-- A part of a state of type `σ`, read as a value of type `α`. -/
structure Lens (σ α : Type*) where
  /-- The part. -/
  get : σ → α
  /-- The state with the part replaced. -/
  set : σ → α → σ

namespace Lens

variable {σ α : Type*}

/-- The laws of a part that can be replaced. -/
structure Lawful (L : Lens σ α) : Prop where
  get_set : ∀ s a, L.get (L.set s a) = a
  set_get : ∀ s, L.set s (L.get s) = s
  set_set : ∀ s a b, L.set (L.set s a) b = L.set s b

/-- Replacing the part leaves the state alone exactly when it holds the value already. -/
theorem Lawful.set_eq_iff {L : Lens σ α} (h : L.Lawful) {s : σ} {a : α} :
    L.set s a = s ↔ L.get s = a := by
  constructor
  · intro hs
    rw [← hs, h.get_set]
  · rintro rfl
    exact h.set_get s

end Lens

namespace BitField

variable {N : ℕ}

/-- The field of `len` bits from bit `lo` on. -/
def field (lo len : ℕ) : Lens (BitVec N) (BitVec len) where
  get v := v.extractLsb' lo len
  set v x := (v &&& ~~~((BitVec.allOnes len).setWidth N <<< lo)) ||| x.setWidth N <<< lo

section

variable {lo len : ℕ}

/-- The bits of a word with a field replaced. -/
theorem getLsbD_set (v : BitVec N) (x : BitVec len) {i : ℕ} (hi : i < N) :
    ((field lo len).set v x).getLsbD i =
      if lo ≤ i ∧ i < lo + len then x.getLsbD (i - lo) else v.getLsbD i := by
  simp only [field, BitVec.getLsbD_or, BitVec.getLsbD_and, BitVec.getLsbD_not,
    BitVec.getLsbD_shiftLeft, BitVec.getLsbD_setWidth, BitVec.getLsbD_allOnes]
  have hlo : i - lo < N := by omega
  by_cases h : lo ≤ i ∧ i < lo + len
  · have h1 : ¬ i < lo := by omega
    have h2 : i - lo < len := by omega
    simp [h, h1, h2, hlo, hi]
  · by_cases h1 : i < lo
    · simp [h1, hi, h]
    · have h2 : ¬ i - lo < len := by omega
      have h3 : x.getLsbD (i - lo) = false := BitVec.getLsbD_of_ge x _ (by omega)
      simp [h1, h2, h3, hi, h]

/-- What is above a field does not see it. -/
theorem ushiftRight_set (v : BitVec N) (x : BitVec len) {k : ℕ} (hk : lo + len ≤ k) :
    (field lo len).set v x >>> k = v >>> k := by
  apply BitVec.eq_of_getLsbD_eq
  intro i hi
  simp only [BitVec.getLsbD_ushiftRight]
  by_cases h : k + i < N
  · rw [getLsbD_set v x h, if_neg (by omega)]
  · rw [BitVec.getLsbD_of_ge _ _ (by omega), BitVec.getLsbD_of_ge _ _ (by omega)]

/-- Reading and replacing a field of a word obey the laws. -/
theorem field_lawful (h : lo + len ≤ N) : (field (N := N) lo len).Lawful where
  get_set v x := by
    apply BitVec.eq_of_getLsbD_eq
    intro i hi
    show (((field lo len).set v x).extractLsb' lo len).getLsbD i = _
    rw [BitVec.getLsbD_extractLsb', decide_eq_true hi, Bool.true_and,
      getLsbD_set v x (by omega), if_pos (by omega), Nat.add_sub_cancel_left]
  set_get v := by
    apply BitVec.eq_of_getLsbD_eq
    intro i hi
    rw [getLsbD_set v _ hi]
    split
    · rename_i hf
      show (v.extractLsb' lo len).getLsbD (i - lo) = _
      rw [BitVec.getLsbD_extractLsb', decide_eq_true (by omega), Bool.true_and,
        Nat.add_sub_cancel' hf.1]
    · rfl
  set_set v x y := by
    apply BitVec.eq_of_getLsbD_eq
    intro i hi
    rw [getLsbD_set _ y hi, getLsbD_set v y hi]
    split
    · rfl
    · rename_i hf
      rw [getLsbD_set v x hi, if_neg hf]

end

end BitField
