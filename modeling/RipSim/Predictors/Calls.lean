import RipSim.Library.BitField
import RipSim.Library.ShiftRegister
import RipSim.Model.BranchPredictor

/-!
# Sequences of calls

A derived class of `BranchPredictor` is used through its two methods, so its reachable states
are those after a sequence of calls on a new object.
-/

namespace RipSim

/-- A call of one of the two methods. -/
inductive Call where
  | Predict (PC : Address)
  | Learn (cond : Bool) (PC : Address)
  deriving DecidableEq, Repr

namespace BranchPredictor

variable {σ : Type} [BranchPredictor σ]

/-- The object after a call. -/
def call (B : σ) : Call → σ
  | .Predict PC => (Predict B PC).2
  | .Learn cond PC => Learn B cond PC

/-- The object after a sequence of calls, the first of the list first. -/
def calls (B : σ) (cs : List Call) : σ := cs.foldl call B

@[simp] theorem calls_nil (B : σ) : calls B [] = B := rfl

@[simp] theorem calls_cons (B : σ) (c : Call) (cs : List Call) :
    calls B (c :: cs) = calls (call B c) cs := rfl

theorem calls_append (B : σ) (cs cs' : List Call) :
    calls B (cs ++ cs') = calls (calls B cs) cs' := List.foldl_append ..

/-- What every call preserves holds after any sequence of calls. -/
theorem calls_induction {p : σ → Prop} (hcall : ∀ B c, p B → p (call B c)) {B : σ} (hB : p B)
    (cs : List Call) : p (calls B cs) := by
  induction cs generalizing B with
  | nil => exact hB
  | cons c cs ih => exact ih (hcall B c hB)

end BranchPredictor

/-! ## Indices -/

/-- The word address modulo `2 ^ 10`, the index of the tables of 1024 entries. -/
def wordIndex (PC : Address) : Word := BitVec.ofNat 32 (PC.toNat / 4 % 1024)

theorem wordIndex_lt (PC : Address) : (wordIndex PC).toNat < 1024 := by
  rw [wordIndex, BitVec.toNat_ofNat]
  omega

/-- The index the source computes. -/
theorem getLowerNBits_eq (PC : Address) :
    getLowerNBits ((PC >>> 2).setWidth 32) 10 = wordIndex PC := by
  have hlow : getLowerNBits ((PC >>> 2).setWidth 32) 10 =
      (((PC >>> 2).setWidth 32).extractLsb' 0 10).setWidth 32 :=
    BitField.and_low _ _ 10 (by decide)
  apply BitVec.eq_of_toNat_eq
  rw [hlow, wordIndex, BitVec.toNat_setWidth, BitVec.extractLsb'_toNat, BitVec.toNat_setWidth,
    BitVec.toNat_ushiftRight, BitVec.toNat_ofNat, Nat.shiftRight_zero, Nat.shiftRight_eq_div_pow]
  omega

end RipSim
