import RipSim.Model.RIPSimulator
import RipSim.Reference.Bytes

/-!
# Loading an image

Both constructors read the image four bytes at a time and write each word at its address.
`loadImage_eq` is the invariant of the loop: the words written so far are in the DRAM, byte
for byte, and the other bytes are untouched.  What the loop never gets to see is a last read
of fewer than four bytes; and the address it counts up is a 64-bit number.
-/

namespace RipSim

/-- The bytes of the image are in the DRAM from its base on, and zeros after them. -/
structure Loaded (is : List Byte) (DRAMSize DRAMBase : Address) (M : Memory) : Prop where
  size : M.DRAMSize = DRAMSize
  base : M.DRAMBase = DRAMBase
  image : ∀ i, (h : i < is.length) → M.DRAM (BitVec.ofNat 64 i) = is.get ⟨i, h⟩
  rest : ∀ i, is.length ≤ i → i < DRAMSize.toNat → M.DRAM (BitVec.ofNat 64 i) = 0

/-- The bytes after the last multiple of four are zeros, and no word of the image has an
address past the last one there is. -/
structure Whole (is : List Byte) (DRAMBase : Address) : Prop where
  tail : ∀ b ∈ is.drop (4 * (is.length / 4)), b = 0
  no_wrap : DRAMBase.toNat + 4 * (is.length / 4) < 2 ^ 64 + 4

/-! ## The loop -/

/-- The byte of a word read from four bytes of the image. -/
theorem extractLsb'_word (b0 b1 b2 b3 : Byte) {k : ℕ} (hk : k < 4) (rest : List Byte) :
    (b3 ++ b2 ++ b1 ++ b0).extractLsb' (8 * k) 8 = (b0 :: b1 :: b2 :: b3 :: rest).getD k 0 := by
  have h0 := b0.isLt
  have h1 := b1.isLt
  have h2 := b2.isLt
  have h3 := b3.isLt
  have hcases : k = 0 ∨ k = 1 ∨ k = 2 ∨ k = 3 := by omega
  apply BitVec.eq_of_toNat_eq
  simp only [BitVec.extractLsb'_toNat, BitField.toNat_append_eq, Nat.shiftRight_eq_div_pow]
  rcases hcases with rfl | rfl | rfl | rfl <;>
    · simp only [List.getD_cons_zero, List.getD_cons_succ]
      omega

/-- The DRAM after one word of the image has been written at index `o`. -/
theorem DRAM_store_word (M : Memory) (b0 b1 b2 b3 : Byte) (rest : List Byte) {o : ℕ}
    (ho : o + 4 ≤ 2 ^ 64) (i : Address) :
    (M.store (BitVec.ofNat 64 o) 4 (b3 ++ b2 ++ b1 ++ b0)).DRAM i =
      if o ≤ i.toNat ∧ i.toNat < o + 4 then (b0 :: b1 :: b2 :: b3 :: rest).getD (i.toNat - o) 0
      else M.DRAM i := by
  have hi := i.isLt
  show (if (i - BitVec.ofNat 64 o).toNat < 4 then
    (b3 ++ b2 ++ b1 ++ b0).extractLsb' (8 * (i - BitVec.ofNat 64 o).toNat) 8
    else M.DRAM i) = _
  have hoff : (i - BitVec.ofNat 64 o).toNat < 4 ↔ o ≤ i.toNat ∧ i.toNat < o + 4 := by
    rw [BitVec.toNat_sub, BitVec.toNat_ofNat]
    omega
  by_cases hw : o ≤ i.toNat ∧ i.toNat < o + 4
  · have hk : (i - BitVec.ofNat 64 o).toNat = i.toNat - o := by
      rw [BitVec.toNat_sub, BitVec.toNat_ofNat]
      omega
    rw [if_pos (hoff.mpr hw), if_pos hw, hk, extractLsb'_word b0 b1 b2 b3 (by omega) rest]
  · rw [if_neg (mt hoff.mp hw), if_neg hw]

/-- A list that is not four bytes and a rest has no whole word. -/
theorem length_div_four_of_short {is : List Byte}
    (h : ∀ b0 b1 b2 b3 rest, is = b0 :: b1 :: b2 :: b3 :: rest → False) : is.length / 4 = 0 := by
  apply Nat.div_eq_of_lt
  match is, h with
  | [], _ | [_], _ | [_, _], _ | [_, _, _], _ => simp
  | b0 :: b1 :: b2 :: b3 :: rest, h => exact (h b0 b1 b2 b3 rest rfl).elim

/-- The DRAM after the loop: the whole words of the image from index `o` on, and elsewhere what
was there before. -/
theorem loadImage_eq (is : List Byte) (M : Memory) (P : Address) : ∀ o : ℕ,
    P = M.DRAMBase + BitVec.ofNat 64 o → o + is.length ≤ M.DRAMSize.toNat →
    M.DRAMBase.toNat + o + 4 * (is.length / 4) < 2 ^ 64 + 4 →
    ∃ M', loadImage is M P = .ok M' ∧ M'.DRAMSize = M.DRAMSize ∧ M'.DRAMBase = M.DRAMBase ∧
      ∀ i : Address, M'.DRAM i =
        if o ≤ i.toNat ∧ i.toNat < o + 4 * (is.length / 4) then is.getD (i.toNat - o) 0
        else M.DRAM i := by
  induction is, M, P using loadImage.induct with
  | case1 b0 b1 b2 b3 rest M P ih =>
    intro o hP hsize hwrap
    have hlen : (b0 :: b1 :: b2 :: b3 :: rest).length = rest.length + 4 := rfl
    have hdiv : (rest.length + 4) / 4 = rest.length / 4 + 1 := by omega
    rw [hlen] at hsize hwrap ⊢
    rw [hdiv] at hwrap ⊢
    have hPn : P.toNat = M.DRAMBase.toNat + o := by
      rw [hP, BitVec.toNat_add, BitVec.toNat_ofNat]
      omega
    have hC : M.Contains P 4 := ⟨by omega, by omega⟩
    have hsub : P - M.DRAMBase = BitVec.ofNat 64 o := by rw [hP, add_sub_cancel_left]
    have hP4 : P + 4 = M.DRAMBase + BitVec.ofNat 64 (o + 4) := by
      rw [hP, add_assoc, BitVec.ofNat_add]
      rfl
    obtain ⟨M', hM', hs, hb, hD⟩ := ih (M.store (P - M.DRAMBase) 4 (b3 ++ b2 ++ b1 ++ b0)) (o + 4)
      hP4 (by show o + 4 + rest.length ≤ M.DRAMSize.toNat; omega)
      (by show M.DRAMBase.toNat + (o + 4) + 4 * (rest.length / 4) < 2 ^ 64 + 4; omega)
    refine ⟨M', ?_, hs, hb, fun i => ?_⟩
    · rw [loadImage, hC.writeWord]
      exact hM'
    · rw [hD i]
      by_cases hin : o + 4 ≤ i.toNat ∧ i.toNat < o + 4 + 4 * (rest.length / 4)
      · -- a byte of a later word
        rw [if_pos hin, if_pos (by omega), show i.toNat - o = i.toNat - (o + 4) + 4 by omega]
        rfl
      · rw [if_neg hin, hsub, DRAM_store_word M b0 b1 b2 b3 rest (by omega) i]
        by_cases hw : o ≤ i.toNat ∧ i.toNat < o + 4
        · -- a byte of this word
          rw [if_pos hw, if_pos (by omega)]
        · rw [if_neg hw, if_neg (by omega)]
  | case2 is M P hshort =>
    intro o _ _ _
    have hdiv := length_div_four_of_short hshort
    refine ⟨M, ?_, rfl, rfl, fun i => ?_⟩
    · rw [loadImage]
      exact hshort
    · rw [hdiv, if_neg (by omega)]

/-- A word whose address does not fit in 64 bits has one below the base. -/
theorem loadImage_wraps (is : List Byte) (M : Memory) (P : Address) : ∀ o : ℕ,
    P = M.DRAMBase + BitVec.ofNat 64 o → o + is.length ≤ M.DRAMSize.toNat →
    M.DRAMBase.toNat + o < 2 ^ 64 + 4 →
    2 ^ 64 + 4 ≤ M.DRAMBase.toNat + o + 4 * (is.length / 4) →
    loadImage is M P = .error .smallerThanDRAMBase := by
  induction is, M, P using loadImage.induct with
  | case1 b0 b1 b2 b3 rest M P ih =>
    intro o hP hsize hstart hwrap
    have hlen : (b0 :: b1 :: b2 :: b3 :: rest).length = rest.length + 4 := rfl
    have hdiv : (rest.length + 4) / 4 = rest.length / 4 + 1 := by omega
    rw [hlen] at hsize hwrap
    rw [hdiv] at hwrap
    have hDRAM := M.DRAMSize.isLt
    have hPn : P.toNat = (M.DRAMBase.toNat + o) % 2 ^ 64 := by
      rw [hP, BitVec.toNat_add, BitVec.toNat_ofNat]
      omega
    by_cases hfit : M.DRAMBase.toNat + o < 2 ^ 64
    · have hC : M.Contains P 4 := ⟨by omega, by omega⟩
      rw [loadImage, hC.writeWord]
      refine ih _ (o + 4) ?_ ?_ ?_ ?_
      · rw [hP, add_assoc, BitVec.ofNat_add]
        rfl
      · show o + 4 + rest.length ≤ M.DRAMSize.toNat
        omega
      · show M.DRAMBase.toNat + (o + 4) < 2 ^ 64 + 4
        omega
      · show 2 ^ 64 + 4 ≤ M.DRAMBase.toNat + (o + 4) + 4 * (rest.length / 4)
        omega
    · have hlt : P < M.DRAMBase := by
        rw [BitVec.lt_def, hPn]
        have hb := M.DRAMBase.isLt
        omega
      rw [loadImage, Memory.writeWord, Memory.dramAd, if_pos hlt]
      rfl
  | case2 is M P hshort =>
    intro o _ _ hstart hwrap
    have hdiv := length_div_four_of_short hshort
    omega

/-! ## The constructors -/

theorem loadImage_loaded_iff {is : List Byte} {DRAMSize DRAMBase : Address}
    (h : is.length ≤ DRAMSize.toNat) :
    (∃ M, loadImage is (Memory.new DRAMSize DRAMBase) DRAMBase = .ok M ∧
      Loaded is DRAMSize DRAMBase M) ↔ Whole is DRAMBase := by
  have hP : DRAMBase = (Memory.new DRAMSize DRAMBase).DRAMBase + BitVec.ofNat 64 0 :=
    (BitVec.add_zero DRAMBase).symm
  have hsize : 0 + is.length ≤ (Memory.new DRAMSize DRAMBase).DRAMSize.toNat := by
    rw [Nat.zero_add]
    exact h
  have hDRAM := DRAMSize.isLt
  by_cases hwrap : DRAMBase.toNat + 4 * (is.length / 4) < 2 ^ 64 + 4
  · obtain ⟨M, hM, hs, hb, hD⟩ := loadImage_eq is _ DRAMBase 0 hP hsize hwrap
    have hbyte : ∀ i < 2 ^ 64, M.DRAM (BitVec.ofNat 64 i) =
        if i < 4 * (is.length / 4) then is.getD i 0 else 0 := by
      intro i hi
      rw [hD, BitVec.toNat_ofNat, Nat.mod_eq_of_lt hi]
      simp only [Nat.zero_le, true_and, Nat.zero_add, Nat.sub_zero]
      rfl
    have hget : ∀ i, (hi : i < is.length) → is.getD i 0 = is.get ⟨i, hi⟩ := by
      intro i hi
      simp [hi]
    constructor
    · rintro ⟨M', hM', hL⟩
      obtain rfl := Except.ok.inj (hM.symm.trans hM')
      refine ⟨fun b hmem => ?_, hwrap⟩
      obtain ⟨k, hk, rfl⟩ := List.mem_iff_getElem.mp hmem
      rw [List.length_drop] at hk
      have hi : 4 * (is.length / 4) + k < is.length := by omega
      have himage := hL.image _ hi
      rw [hbyte _ (by omega), if_neg (by omega)] at himage
      rw [List.getElem_drop]
      exact himage.symm
    · intro hW
      refine ⟨M, hM, hs, hb, fun i hi => ?_, fun i hi hlt => ?_⟩
      · rw [hbyte i (by omega)]
        split
        · exact hget i hi
        · -- a byte the loop has not read
          refine (hW.tail _ (List.mem_iff_getElem.mpr
            ⟨i - 4 * (is.length / 4), by rw [List.length_drop]; omega, ?_⟩)).symm
          rw [List.getElem_drop]
          show is[_] = is[i]
          congr 1
          omega
      · rw [hbyte i (by omega), if_neg (by omega)]
  · have herr := loadImage_wraps is _ DRAMBase 0 hP hsize
      (by have hb := DRAMBase.isLt; show DRAMBase.toNat + 0 < 2 ^ 64 + 4; omega)
      (by show 2 ^ 64 + 4 ≤ DRAMBase.toNat + 0 + 4 * (is.length / 4); omega)
    constructor
    · rintro ⟨M, hM, -⟩
      rw [herr] at hM
      exact nomatch hM
    · exact fun hW => absurd hW.no_wrap hwrap

/-- **Loading.**  Either constructor returns with the image in the DRAM exactly when the
bytes past the last whole word are zeros and the words have addresses. -/
theorem loading_iff {σ : Type} (is : List Byte) (DRAMSize DRAMBase : Address)
    (SPIValue : Option Address) (BP : Option (BPBase σ)) (Stats : Option Statistics)
    (DERs1Val : RegVal) (PCs : Staged Address) (h : is.length ≤ DRAMSize.toNat) :
    ((∃ S, Simulator.new is DRAMSize DRAMBase SPIValue = .ok S ∧
        Loaded is DRAMSize DRAMBase S.hart.Mem) ↔ Whole is DRAMBase) ∧
      ((∃ R, RIPSimulator.new is BP DRAMSize Stats DRAMBase SPIValue DERs1Val PCs = .ok R ∧
        Loaded is DRAMSize DRAMBase R.Mem) ↔ Whole is DRAMBase) := by
  rw [← loadImage_loaded_iff h]
  unfold Simulator.new RIPSimulator.new
  cases loadImage is (Memory.new DRAMSize DRAMBase) DRAMBase with
  | error f => exact ⟨by simp [bind, Except.bind], by simp [bind, Except.bind]⟩
  | ok M => exact ⟨by simp [bind, Except.bind, pure, Except.pure],
      by simp [bind, Except.bind, pure, Except.pure]⟩

/-- Five bytes: the fifth is not loaded. -/
theorem loses_the_fifth_byte :
    (([1, 2, 3, 4, 5] : List Byte).length ≤ (8#64).toNat) ∧
      ¬ ∃ S, Simulator.new [1, 2, 3, 4, 5] 8 0 none = .ok S ∧
        Loaded [1, 2, 3, 4, 5] 8 0 S.hart.Mem := by
  refine ⟨by decide, ?_⟩
  rintro ⟨S, hS, hL⟩
  have h4 : ((Simulator.new [1, 2, 3, 4, 5] 8 0 none).toOption.map fun S =>
      S.hart.Mem.DRAM 4) = some 0 := by decide +kernel
  rw [hS] at h4
  exact absurd ((hL.image 4 (by decide)).symm.trans (Option.some.inj h4)) (by decide)

/-- Four bytes at the base of the tests. -/
theorem loading_iff_word :
    (([1, 2, 3, 4] : List Byte).length ≤ (8#64).toNat) ∧
      ((∃ S, Simulator.new [1, 2, 3, 4] 8 0x80000000 none = .ok S ∧
        Loaded [1, 2, 3, 4] 8 0x80000000 S.hart.Mem) ↔ Whole [1, 2, 3, 4] 0x80000000) ∧
      ((∃ R, RIPSimulator.new [1, 2, 3, 4] (none : Option (BPBase OneBitBranchPredictor)) 8 none
          0x80000000 none 0 ⟨0, 0, 0, 0, 0⟩ = .ok R ∧
        Loaded [1, 2, 3, 4] 8 0x80000000 R.Mem) ↔ Whole [1, 2, 3, 4] 0x80000000) :=
  ⟨by decide, loading_iff _ _ _ _ _ _ _ _ (by decide)⟩

end RipSim
