import Mathlib.Data.BitVec

/-!
# Shift registers

A register of `n` bits in a machine word of `w`: a bit comes in at the low end, the others move
up and the highest is dropped.  After any number of bits the register shows the last `n` of
them, the most recent in bit `0` (`getLsbD_pushAll`).
-/

namespace ShiftRegister

variable {w : ℕ} (n : ℕ)

/-- One bit comes in. -/
def push (h : BitVec w) (b : Bool) : BitVec w :=
  (h <<< 1 + (BitVec.ofBool b).setWidth w) % (1#w <<< n)

/-- The bits of `bs` come in, the last of the list first. -/
def pushAll (h : BitVec w) (bs : List Bool) : BitVec w := bs.foldr (fun b h => push n h b) h

@[simp] theorem pushAll_nil (h : BitVec w) : pushAll n h [] = h := rfl

@[simp] theorem pushAll_cons (h : BitVec w) (b : Bool) (bs : List Bool) :
    pushAll n h (b :: bs) = push n (pushAll n h bs) b := rfl

variable {n}

theorem toNat_push (hn : n < w) (h : BitVec w) (b : Bool) :
    (push n h b).toNat = (2 * h.toNat + b.toNat) % 2 ^ n := by
  have hpow : 2 ^ n < 2 ^ w := Nat.pow_lt_pow_right (by omega) hn
  have hdvd : 2 ^ n ∣ 2 ^ w := Nat.pow_dvd_pow 2 (by omega)
  have h1 : (1#w <<< n).toNat = 2 ^ n := by
    rw [BitVec.toNat_shiftLeft, BitVec.toNat_ofNat, Nat.mod_eq_of_lt (a := 1) (by omega),
      Nat.one_shiftLeft, Nat.mod_eq_of_lt hpow]
  have hb : ((BitVec.ofBool b).setWidth w).toNat = b.toNat := by
    rw [BitVec.toNat_setWidth, BitVec.toNat_ofBool, Nat.mod_eq_of_lt]
    have := b.toNat_lt
    have : 2 ^ 1 ≤ 2 ^ w := Nat.pow_le_pow_right (by omega) (by omega)
    omega
  rw [push, BitVec.toNat_umod, h1, BitVec.toNat_add, hb, BitVec.toNat_shiftLeft, Nat.shiftLeft_eq,
    Nat.mod_mod_of_dvd _ hdvd, Nat.add_mod, Nat.mod_mod_of_dvd _ hdvd, ← Nat.add_mod, Nat.pow_one,
    Nat.mul_comm]

/-- A register of `n` bits is below `2 ^ n`. -/
theorem toNat_push_lt (hn : n < w) (h : BitVec w) (b : Bool) : (push n h b).toNat < 2 ^ n := by
  rw [toNat_push hn]
  exact Nat.mod_lt _ (Nat.two_pow_pos n)

theorem toNat_pushAll_lt (hn : n < w) {h : BitVec w} (hh : h.toNat < 2 ^ n) (bs : List Bool) :
    (pushAll n h bs).toNat < 2 ^ n := by
  cases bs with
  | nil => exact hh
  | cons b bs => exact toNat_push_lt hn _ b

/-- Bit `0` is the one that came in last, the others have moved up. -/
theorem getLsbD_push (hn : n < w) (h : BitVec w) (b : Bool) (i : ℕ) :
    (push n h b).getLsbD i =
      (decide (i < n) && match i with
        | 0 => b
        | i + 1 => h.getLsbD i) := by
  rw [BitVec.getLsbD, toNat_push hn, Nat.testBit_mod_two_pow]
  congr 1
  cases i with
  | zero =>
    rw [Nat.testBit_zero]
    cases b <;> simp [Nat.add_mod]
  | succ i =>
    have hb := b.toNat_lt
    have hdiv : (2 * h.toNat + b.toNat) / 2 = h.toNat := by omega
    rw [Nat.testBit_succ, hdiv]
    rfl

/-- **The register shows the last bits that came in**, and above them what it held before. -/
theorem getLsbD_pushAll (hn : n < w) (h : BitVec w) (bs : List Bool) {i : ℕ} (hi : i < n) :
    (pushAll n h bs).getLsbD i = bs.getD i (h.getLsbD (i - bs.length)) := by
  induction bs generalizing i with
  | nil => simp
  | cons b bs ih =>
    rw [pushAll_cons, getLsbD_push hn, decide_eq_true hi, Bool.true_and]
    cases i with
    | zero => rfl
    | succ i =>
      rw [List.getD_cons_succ, List.length_cons, Nat.add_sub_add_right]
      exact ih (by omega)

end ShiftRegister
