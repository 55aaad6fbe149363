import RipSim.Model.Memory
import RipSim.Library.BitField

/-!
# Accesses inside the DRAM

An access that lies in the DRAM passes every guard of `Memory`.  What it then does is
said for all widths at once: a write puts the low bytes of a word one after the other
(`store`), and a read composes them with the low byte first.
-/

namespace RipSim

/-- What returns has returned at every step. -/
theorem bind_eq_ok {α β : Type} {x : Except Fault α} {g : α → Except Fault β} {b : β}
    (h : x >>= g = .ok b) : ∃ a, x = .ok a ∧ g a = .ok b := by
  cases x with
  | error e => exact nomatch h
  | ok a => exact ⟨a, rfl, h⟩

/-- An address below `2 ^ 31` keeps its value when it is widened. -/
theorem signExtend_eq_setWidth {v : RegVal} (h : v.toNat < 2 ^ 31) :
    v.signExtend 64 = v.setWidth 64 := by
  apply BitVec.signExtend_eq_setWidth_of_msb_false
  rw [BitVec.msb_eq_decide]
  exact decide_eq_false (by omega)

/-- Only such an address does. -/
theorem signExtend_eq_setWidth_iff (v : RegVal) :
    v.signExtend 64 = v.setWidth 64 ↔ v.toNat < 2 ^ 31 := by
  refine ⟨fun h => ?_, signExtend_eq_setWidth⟩
  have h63 : (v.signExtend 64).getLsbD 63 = (v.setWidth 64).getLsbD 63 := by rw [h]
  rw [BitVec.getLsbD_signExtend, BitVec.getLsbD_setWidth, BitVec.getLsbD_of_ge v 63 (by decide),
    if_neg (by decide), BitVec.msb_eq_decide] at h63
  by_contra hlt
  rw [decide_eq_true (by omega : 2 ^ (32 - 1) ≤ v.toNat)] at h63
  exact absurd h63 (by decide)

namespace Memory

variable {M : Memory} {Ad : Address} {n : ℕ}

/-- The `n` bytes from `Ad` on are in the DRAM. -/
structure Contains (M : Memory) (Ad : Address) (n : ℕ) : Prop where
  base : M.DRAMBase.toNat ≤ Ad.toNat
  size : Ad.toNat + n ≤ M.DRAMBase.toNat + M.DRAMSize.toNat

instance : Decidable (M.Contains Ad n) :=
  decidable_of_iff (M.DRAMBase.toNat ≤ Ad.toNat ∧
    Ad.toNat + n ≤ M.DRAMBase.toNat + M.DRAMSize.toNat)
    ⟨fun h => ⟨h.1, h.2⟩, fun h => ⟨h.base, h.size⟩⟩

/-- The low `n` bytes of `v` from index `d` on, low bytes first. -/
def store (M : Memory) (d : Address) (n : ℕ) (v : Word) : Memory :=
  { M with DRAM := fun i =>
      if (i - d).toNat < n then v.extractLsb' (8 * (i - d).toNat) 8 else M.DRAM i }

theorem store_zero (d : Address) (v : Word) : M.store d 0 v = M := rfl

/-- One more byte. -/
theorem store_succ (d : Address) (v : Word) (hn : n < 2 ^ 64) :
    M.store d (n + 1) v = { M.store d n v with
      DRAM := Function.update (M.store d n v).DRAM (d + BitVec.ofNat 64 n)
        (v.extractLsb' (8 * n) 8) } := by
  have hadd : ∀ i : Address, i = d + BitVec.ofNat 64 n ↔ (i - d).toNat = n := by
    intro i
    constructor
    · rintro rfl
      rw [add_sub_cancel_left, BitVec.toNat_ofNat, Nat.mod_eq_of_lt hn]
    · intro h
      rw [← h, BitVec.ofNat_toNat, BitVec.setWidth_eq, add_sub_cancel]
  refine Memory.ext (funext fun i => ?_) rfl rfl
  change (if (i - d).toNat < n + 1 then v.extractLsb' (8 * (i - d).toNat) 8 else M.DRAM i)
    = Function.update (M.store d n v).DRAM (d + BitVec.ofNat 64 n) (v.extractLsb' (8 * n) 8) i
  rw [Function.update_apply]
  by_cases hi : (i - d).toNat = n
  · rw [if_pos (by omega), if_pos ((hadd i).mpr hi), hi]
  · rw [if_neg (fun h => hi ((hadd i).mp h))]
    change _ = if (i - d).toNat < n then v.extractLsb' (8 * (i - d).toNat) 8 else M.DRAM i
    by_cases hlt : (i - d).toNat < n
    · rw [if_pos hlt, if_pos (by omega)]
    · rw [if_neg hlt, if_neg (by omega)]

/-! ## Bytes of a word -/

/-- The source adds the bytes of a half word, each shifted to its place. -/
theorem compose_half (b0 b1 : Byte) : b0.setWidth 16 + b1.setWidth 16 <<< 8 = b1 ++ b0 := by
  apply BitVec.eq_of_toNat_eq
  have h0 := b0.isLt
  have h1 := b1.isLt
  rw [BitField.toNat_append_eq, BitVec.toNat_add, BitVec.toNat_shiftLeft, Nat.shiftLeft_eq,
    BitVec.toNat_setWidth, BitVec.toNat_setWidth]
  omega

theorem compose_word (b0 b1 b2 b3 : Byte) :
    b0.setWidth 32 + b1.setWidth 32 <<< 8 + b2.setWidth 32 <<< 16 + b3.setWidth 32 <<< 24
      = b3 ++ b2 ++ b1 ++ b0 := by
  apply BitVec.eq_of_toNat_eq
  have h0 := b0.isLt
  have h1 := b1.isLt
  have h2 := b2.isLt
  have h3 := b3.isLt
  simp only [BitField.toNat_append_eq, BitVec.toNat_add, BitVec.toNat_shiftLeft, Nat.shiftLeft_eq,
    BitVec.toNat_setWidth]
  omega

/-! ## Accesses -/

namespace Contains

/-- The index of the first byte. -/
theorem toNat_sub (hC : M.Contains Ad n) :
    (Ad - M.DRAMBase).toNat = Ad.toNat - M.DRAMBase.toNat :=
  BitVec.toNat_sub_of_le hC.base

/-- The two range checks. -/
theorem dramAd (hC : M.Contains Ad n) : M.dramAd Ad = .ok (Ad - M.DRAMBase) := by
  have hs := hC.size
  have hb := hC.base
  unfold Memory.dramAd
  rw [if_neg (show ¬Ad < M.DRAMBase from Nat.not_lt.mpr hb), if_neg]
  rw [BitVec.lt_def, hC.toNat_sub]
  omega

/-- Every byte of the access has its index. -/
theorem lt (hC : M.Contains Ad n) {k : ℕ} (hk : k < n) :
    Ad - M.DRAMBase + BitVec.ofNat 64 k < M.DRAMSize := by
  have hs := hC.size
  have hb := hC.base
  have h2 := M.DRAMSize.isLt
  rw [BitVec.lt_def, BitVec.toNat_add, BitVec.toNat_ofNat, hC.toNat_sub]
  omega

theorem get (hC : M.Contains Ad n) {k : ℕ} (hk : k < n) :
    M.get (Ad - M.DRAMBase + BitVec.ofNat 64 k)
      = .ok (M.DRAM (Ad - M.DRAMBase + BitVec.ofNat 64 k)) :=
  if_pos (hC.lt hk)

/-- Each assignment of a write stores one more byte. -/
theorem set_store (hC : M.Contains Ad n) {k : ℕ} (hk : k < n) (v : Word) (hn : n ≤ 4) :
    (M.store (Ad - M.DRAMBase) k v).set (Ad - M.DRAMBase + BitVec.ofNat 64 k)
      (v.extractLsb' (8 * k) 8) = .ok (M.store (Ad - M.DRAMBase) (k + 1) v) := by
  rw [store_succ _ _ (by omega)]
  exact if_pos (hC.lt hk)

/-! ### Writes -/

section Writes

variable (v : Word)

/-- The first assignment has the low byte as a conversion. -/
theorem set_first (hC : M.Contains Ad n) (h0 : 0 < n) (hn : n ≤ 4) :
    M.set (Ad - M.DRAMBase) (v.setWidth 8) = .ok (M.store (Ad - M.DRAMBase) 1 v) := by
  have h := hC.set_store h0 v hn
  have hindex : Ad - M.DRAMBase + BitVec.ofNat 64 0 = Ad - M.DRAMBase := add_zero _
  have hbyte : v.extractLsb' (8 * 0) 8 = v.setWidth 8 := by
    rw [← BitField.setWidth_ushiftRight, Nat.mul_zero, BitVec.ushiftRight_zero]
  rwa [store_zero, hindex, hbyte] at h

theorem writeByte (hC : M.Contains Ad 1) :
    M.writeByte Ad (v.setWidth 8) = .ok (M.store (Ad - M.DRAMBase) 1 v) := by
  unfold Memory.writeByte
  rw [hC.dramAd]
  exact hC.set_first v Nat.zero_lt_one (by omega)

theorem writeHalfWord (hC : M.Contains Ad 2) :
    M.writeHalfWord Ad (v.setWidth 16) = .ok (M.store (Ad - M.DRAMBase) 2 v) := by
  have hlow : (v.setWidth 16).setWidth 8 = v.setWidth 8 :=
    BitVec.setWidth_setWidth_of_le v (by omega)
  have hhigh : (v.setWidth 16 >>> 8).setWidth 8 = v.extractLsb' 8 8 := by
    rw [BitField.setWidth_ushiftRight]
    ext i hi
    simp only [BitVec.getElem_extractLsb', BitVec.getLsbD_setWidth,
      decide_eq_true (show 8 + i < 16 by omega), Bool.true_and]
  unfold Memory.writeHalfWord
  rw [hC.dramAd, hlow, hhigh]
  change (M.set (Ad - M.DRAMBase) (v.setWidth 8) >>= fun M' =>
    M'.set (Ad - M.DRAMBase + 1) (v.extractLsb' 8 8)) = _
  rw [hC.set_first v Nat.two_pos (by omega)]
  exact hC.set_store Nat.one_lt_two v (by omega)

theorem writeWord (hC : M.Contains Ad 4) :
    M.writeWord Ad v = .ok (M.store (Ad - M.DRAMBase) 4 v) := by
  have h1 := hC.set_store (show 1 < 4 by omega) v (by omega)
  have h2 := hC.set_store (show 2 < 4 by omega) v (by omega)
  have h3 := hC.set_store (show 3 < 4 by omega) v (by omega)
  unfold Memory.writeWord
  rw [hC.dramAd, BitField.setWidth_ushiftRight, BitField.setWidth_ushiftRight,
    BitField.setWidth_ushiftRight]
  simp only [bind, Except.bind, hC.set_first v (show 0 < 4 by omega) (by omega)]
  rw [show (M.store _ 1 v).set (Ad - M.DRAMBase + 1) (v.extractLsb' 8 8) = _ from h1]
  dsimp only
  rw [show (M.store _ 2 v).set (Ad - M.DRAMBase + 2) (v.extractLsb' 16 8) = _ from h2]
  exact h3

end Writes

/-! ### Reads -/

/-- The first byte is read at the index itself. -/
theorem get_first (hC : M.Contains Ad n) (h0 : 0 < n) :
    M.get (Ad - M.DRAMBase) = .ok (M.DRAM (Ad - M.DRAMBase)) := by
  have h := hC.get h0
  rwa [show Ad - M.DRAMBase + BitVec.ofNat 64 0 = Ad - M.DRAMBase from add_zero _] at h

theorem readByte (hC : M.Contains Ad 1) :
    M.readByte Ad = .ok (M.DRAM (Ad - M.DRAMBase)) := by
  unfold Memory.readByte
  rw [hC.dramAd]
  exact hC.get_first Nat.zero_lt_one

theorem readHalfWord (hC : M.Contains Ad 2) :
    M.readHalfWord Ad
      = .ok (M.DRAM (Ad - M.DRAMBase + 1) ++ M.DRAM (Ad - M.DRAMBase)) := by
  have h1 := hC.get Nat.one_lt_two
  unfold Memory.readHalfWord
  simp only [bind, Except.bind, pure, Except.pure, hC.dramAd, hC.get_first Nat.two_pos,
    show M.get (Ad - M.DRAMBase + 1) = _ from h1]
  exact congrArg Except.ok (compose_half _ _)

theorem readWord (hC : M.Contains Ad 4) :
    M.readWord Ad
      = .ok (M.DRAM (Ad - M.DRAMBase + 3) ++ M.DRAM (Ad - M.DRAMBase + 2) ++
          M.DRAM (Ad - M.DRAMBase + 1) ++ M.DRAM (Ad - M.DRAMBase)) := by
  have h1 := hC.get (show 1 < 4 by omega)
  have h2 := hC.get (show 2 < 4 by omega)
  have h3 := hC.get (show 3 < 4 by omega)
  unfold Memory.readWord
  simp only [bind, Except.bind, pure, Except.pure, hC.dramAd, hC.get_first (show 0 < 4 by omega),
    show M.get (Ad - M.DRAMBase + 1) = _ from h1, show M.get (Ad - M.DRAMBase + 2) = _ from h2,
    show M.get (Ad - M.DRAMBase + 3) = _ from h3]
  exact congrArg Except.ok (compose_word _ _ _ _)

end Contains

end Memory

end RipSim
