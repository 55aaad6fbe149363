import RipSim.Encoding.Fields

/-!
# What the decoder produces

Two facts about decoded words that the accessors rely on: the immediates of
branches and jumps have bit `0` clear, so reading them back from `Val` loses
nothing.  With the offset of a `jal` in `[-2^19, 2^19)` its second sign extension,
from bit 19, is the identity too.
-/

namespace RipSim

/-- What holds of both branches of a conditional holds of the conditional. -/
theorem forall_mem_ite {α : Type*} {p : α → Prop} {c : Prop} [Decidable c] {a b : Option α}
    (ha : ∀ x ∈ a, p x) (hb : ∀ x ∈ b, p x) : ∀ x ∈ (if c then a else b), p x := by
  split
  · exact ha
  · exact hb

theorem forall_mem_some {α : Type*} {p : α → Prop} {a : α} (ha : p a) : ∀ x ∈ some a, p x := by
  rintro x ⟨⟩
  exact ha

/-- The member `Imm` of a branch or jump has bit `0` clear. -/
def Instruction.EvenImm : Instruction → Prop
  | BInstruction _ _ _ Imm => Imm &&& ~~~1#13 = Imm
  | JInstruction _ _ Imm => Imm &&& ~~~1#21 = Imm
  | _ => True

namespace Decoder

variable (w : BitVec 32)

/-- The decoder leaves bit `0` of a branch offset clear. -/
theorem branch_even :
    ((w &&& 0x80000000#32) >>> 19 ||| (w &&& 0x80#32) <<< 4 ||| (w >>> 20 &&& 0x7e0#32) |||
      (w >>> 7 &&& 0x1e#32)).setWidth 13 &&& ~~~1#13 =
    ((w &&& 0x80000000#32) >>> 19 ||| (w &&& 0x80#32) <<< 4 ||| (w >>> 20 &&& 0x7e0#32) |||
      (w >>> 7 &&& 0x1e#32)).setWidth 13 := by
  apply BitVec.eq_of_getLsbD_eq
  intro i hi
  simp only [BitVec.getLsbD_and, BitVec.getLsbD_setWidth, BitVec.getLsbD_or,
    BitVec.getLsbD_ushiftRight, BitVec.getLsbD_shiftLeft]
  interval_cases i <;> simp

/-- The decoder leaves bit `0` of a jump offset clear. -/
theorem jump_even :
    ((w &&& 0x80000000#32) >>> 11 ||| (w &&& 0xff000#32) ||| (w >>> 9 &&& 0x800#32) |||
      (w >>> 20 &&& 0x7fe#32)).setWidth 21 &&& ~~~1#21 =
    ((w &&& 0x80000000#32) >>> 11 ||| (w &&& 0xff000#32) ||| (w >>> 9 &&& 0x800#32) |||
      (w >>> 20 &&& 0x7fe#32)).setWidth 21 := by
  apply BitVec.eq_of_getLsbD_eq
  intro i hi
  simp only [BitVec.getLsbD_and, BitVec.getLsbD_setWidth, BitVec.getLsbD_or,
    BitVec.getLsbD_ushiftRight]
  interval_cases i <;> simp

/-- **Bit `0` of a decoded offset is clear.** -/
theorem decode_even : ∀ I ∈ decode w, I.EvenImm := by
  unfold decode decodeLoad decodeOp decodeOpImm decodeStore decodeBranch decodeSystem
  dsimp only
  repeat' apply forall_mem_ite
  all_goals first
    | exact forall_mem_some trivial
    | exact forall_mem_some (branch_even w)
    | exact forall_mem_some (jump_even w)
    | exact fun _ h => nomatch h

end Decoder

/-- Bits 19 and 20 of an offset agree exactly in `[-2^19, 2^19)`. -/
theorem getLsbD_iff_range (Imm : BitVec 21) :
    Imm.getLsbD 19 = Imm.getLsbD 20 ↔ -2 ^ 19 ≤ Imm.toInt ∧ Imm.toInt < 2 ^ 19 := by
  have hlt := Imm.isLt
  have hi : Imm.toInt = if 2 * Imm.toNat < 2 ^ 21 then (Imm.toNat : ℤ) else Imm.toNat - 2 ^ 21 :=
    BitVec.toInt_eq_toNat_cond Imm
  have h19 : Imm.getLsbD 19 = decide (2 ^ 19 ≤ Imm.toNat % 2 ^ 20) := by
    rw [BitVec.getLsbD, Nat.testBit_eq_decide_div_mod_eq, decide_eq_decide]
    omega
  have h20 : Imm.getLsbD 20 = decide (2 ^ 20 ≤ Imm.toNat) := by
    rw [BitVec.getLsbD, Nat.testBit_eq_decide_div_mod_eq, decide_eq_decide]
    omega
  rw [h19, h20, decide_eq_decide]
  split_ifs at hi <;> omega

/-- The bits of an extension from bit 19. -/
theorem getLsbD_signExtend_twenty (v : RegVal) {i : ℕ} (hi : i < 32) :
    (signExtend v 20).getLsbD i = (v.getLsbD 19 && decide (20 ≤ i) || v.getLsbD i) := by
  have hmask : ∀ i < 32, (-1#32 ^^^ (1#32 <<< 20 - 1)).getLsbD i = decide (20 ≤ i) := by decide
  unfold signExtend
  by_cases hv : v.getLsbD 19 = true
  · rw [if_pos hv, BitVec.getLsbD_or, hmask i hi, hv, Bool.true_and]
  · rw [if_neg hv, Bool.not_eq_true _ |>.mp hv, Bool.false_and, Bool.false_or]

/-- Extending twice from bit 19 does no more than extending once. -/
theorem getLsbD_signExtend_jump (Imm : BitVec 21) {i : ℕ} (hi : i < 32) :
    (signExtend (signExtend (Imm.setWidth 32) 20) 20).getLsbD i =
      (Imm.getLsbD 19 && decide (20 ≤ i) || Imm.getLsbD i) := by
  rw [getLsbD_signExtend_twenty _ hi, getLsbD_signExtend_twenty _ hi,
    getLsbD_signExtend_twenty _ (by decide), BitVec.getLsbD_setWidth, BitVec.getLsbD_setWidth,
    decide_eq_true hi, decide_eq_true (by decide : 19 < 32)]
  simp

/-- **The offset the pipeline adds for a jump** is the offset itself exactly in the range
where bits 19 and 20 agree. -/
theorem signExtend_jump_iff {Imm : BitVec 21} (he : Imm &&& ~~~1#21 = Imm) :
    signExtend (signExtend ((Imm &&& ~~~1#21).setWidth 32) 20) 20 = Imm.signExtend 32 ↔
      -2 ^ 19 ≤ Imm.toInt ∧ Imm.toInt < 2 ^ 19 := by
  have hmsb : Imm.msb = Imm.getLsbD 20 := BitVec.msb_eq_getLsbD_last Imm
  rw [he, ← getLsbD_iff_range]
  constructor
  · intro h
    have h21 := getLsbD_signExtend_jump Imm (by decide : 21 < 32)
    rw [h, BitVec.getLsbD_signExtend, if_neg (by decide), decide_eq_true (by decide : 21 < 32),
      decide_eq_true (by decide : 20 ≤ 21), hmsb, BitVec.getLsbD_of_ge Imm 21 le_rfl,
      Bool.true_and, Bool.and_true, Bool.or_false] at h21
    exact h21.symm
  · intro h
    apply BitVec.eq_of_getLsbD_eq
    intro i hi
    rw [getLsbD_signExtend_jump Imm hi, BitVec.getLsbD_signExtend, decide_eq_true hi, hmsb, ← h]
    by_cases h21 : i < 21
    · rw [if_pos h21]
      by_cases h20 : 20 ≤ i
      · obtain rfl : i = 20 := by omega
        rw [h, decide_eq_true h20, Bool.and_true, Bool.or_self, Bool.true_and]
      · simp [h20]
    · rw [if_neg h21, BitVec.getLsbD_of_ge Imm i (by omega), decide_eq_true (by omega : 20 ≤ i)]
      simp

theorem signExtend_jump {Imm : BitVec 21} (he : Imm &&& ~~~1#21 = Imm)
    (h : -2 ^ 19 ≤ Imm.toInt ∧ Imm.toInt < 2 ^ 19) :
    signExtend (signExtend ((Imm &&& ~~~1#21).setWidth 32) 20) 20 = Imm.signExtend 32 :=
  (signExtend_jump_iff he).mpr h

end RipSim
