import RipSim.Library.Lens
import RipSim.Model.Registers

/-!
# The fields of `mstatus`

The setters of `CSR.h` replace a field of `mstatus` (`set_read`).  The getters keep the
setters' masks, which have zeros over the field and ones everywhere else, so that what they
return is not the field but what lies above it (`get_eq`): some bit is set there, or, for the
two bits of `getMPP`, nothing at all.
-/

namespace RipSim

/-- The fields of `mstatus` with accessors. -/
inductive StatusField where
  | MPREV
  | MIE
  | MPIE
  | MPP
  deriving DecidableEq, Repr

namespace StatusField

open BitField (field)

/-- The values of a field: a bit, or a mode in `0..3`. -/
def Val : StatusField → Type
  | MPP => {M : ModeKind // M ≠ .Epilogue}
  | _ => Bool

/-- The lowest bit of the field. -/
def lo : StatusField → ℕ
  | MPREV => 17
  | MIE => 3
  | MPIE => 7
  | MPP => 11

/-- The number of bits of the field. -/
def len : StatusField → ℕ
  | MPP => 2
  | _ => 1

theorem ofVal_ne_epilogue (v : BitVec 32) : ModeKind.ofVal v ≠ .Epilogue := by
  unfold ModeKind.ofVal
  split_ifs <;> exact fun h => ModeKind.noConfusion h

/-- The getter of the field. -/
def get (S : CSRs) : (F : StatusField) → F.Val
  | MPREV => S.getMPREV
  | MIE => S.getMIE
  | MPIE => S.getMPIE
  | MPP => ⟨S.getMPP, ofVal_ne_epilogue _⟩

/-- The setter of the field. -/
def set (S : CSRs) : (F : StatusField) → F.Val → CSRs
  | MPREV, v => S.setMPREV v
  | MIE, v => S.setMIE v
  | MPIE, v => S.setMPIE v
  | MPP, v => S.setMPP v.1

theorem ofBool_getLsbD_zero : ∀ x : BitVec 1, BitVec.ofBool (x.getLsbD 0) = x := by decide

theorem ofVal_val : ∀ x : BitVec 2, (ModeKind.ofVal (x.setWidth 32)).val.setWidth 2 = x := by
  decide

/-- The bits of a value. -/
def bits : (F : StatusField) → F.Val ≃ BitVec F.len
  | MPREV | MIE | MPIE => {
    toFun := BitVec.ofBool
    invFun := fun x => x.getLsbD 0
    left_inv := fun v => by cases v <;> rfl
    right_inv := ofBool_getLsbD_zero }
  | MPP => {
    toFun := fun v => v.1.val.setWidth 2
    invFun := fun x => ⟨.ofVal (x.setWidth 32), ofVal_ne_epilogue _⟩
    left_inv := fun ⟨v, hv⟩ => Subtype.ext (by cases v <;> first | rfl | exact absurd rfl hv)
    right_inv := ofVal_val }

/-- The value in the field of an `mstatus` value. -/
def stored (m : RegVal) (F : StatusField) : F.Val := F.bits.symm ((field F.lo F.len).get m)

/-- What the getters see of an `mstatus` value. -/
def above (m : RegVal) : (F : StatusField) → F.Val
  | MPREV => m >>> 18 != 0
  | MIE => m >>> 4 != 0
  | MPIE => m >>> 8 != 0
  | MPP => ⟨.User, fun h => ModeKind.noConfusion h⟩

/-- The laws of the accessors of `F`, for one state and one value. -/
structure LensLaws (S : CSRs) (F : StatusField) (v : F.Val) : Prop where
  get_set : F.get (F.set S v) = v
  set_get : (F.set S (F.get S)).read MSTATUS = S.read MSTATUS
  set_set : ∀ w, (F.set (F.set S w) v).read MSTATUS = (F.set S v).read MSTATUS
  other_fields : ∀ G, G ≠ F → G.get (F.set S v) = G.get S
  other_bits : ∀ i, ¬ (F.lo ≤ i ∧ i < F.lo + F.len) →
    ((F.set S v).read MSTATUS).getLsbD i = (S.read MSTATUS).getLsbD i

/-! ## The setters replace the field -/

variable {S : CSRs} {F : StatusField}

theorem field_lawful (F : StatusField) : (field (N := 32) F.lo F.len).Lawful :=
  BitField.field_lawful (by cases F <;> decide)

theorem setMPREV_read (v : Bool) :
    (S.setMPREV v).read MSTATUS = (field 17 1).set (S.read MSTATUS) (BitVec.ofBool v) :=
  CSRs.write_self S MSTATUS _

theorem setMIE_read (v : Bool) :
    (S.setMIE v).read MSTATUS = (field 3 1).set (S.read MSTATUS) (BitVec.ofBool v) :=
  CSRs.write_self S MSTATUS _

theorem setMPIE_read (v : Bool) :
    (S.setMPIE v).read MSTATUS = (field 7 1).set (S.read MSTATUS) (BitVec.ofBool v) :=
  CSRs.write_self S MSTATUS _

theorem setMPP_read {v : ModeKind} (hv : v ≠ .Epilogue) :
    (S.setMPP v).read MSTATUS = (field 11 2).set (S.read MSTATUS) (v.val.setWidth 2) := by
  have hval : v.val = (v.val.setWidth 2).setWidth 32 := by
    cases v <;> first | rfl | exact absurd rfl hv
  rw [CSRs.setMPP, CSRs.read, CSRs.write_self, hval]
  simp [field, CSRs.read]

/-- The setters replace the field. -/
theorem set_read (v : F.Val) :
    (F.set S v).read MSTATUS = (field F.lo F.len).set (S.read MSTATUS) (F.bits v) := by
  cases F with
  | MPREV => exact setMPREV_read v
  | MIE => exact setMIE_read v
  | MPIE => exact setMPIE_read v
  | MPP => exact setMPP_read v.2

/-! ## The getters read what is above it -/

/-- A word masked by everything but bit `k`, and shifted by `k`, is zero exactly when nothing is
above bit `k`. -/
theorem cleared_ushiftRight {m mask : BitVec 32} {k : ℕ}
    (hm : ∀ i < 32, mask.getLsbD i = decide (i ≠ k)) :
    (m &&& mask) >>> k = 0 ↔ m >>> (k + 1) = 0 := by
  have hz {v : BitVec 32} {j : ℕ} : v >>> j = 0 ↔ ∀ i, v.getLsbD (j + i) = false := by
    constructor
    · intro h i
      rw [← BitVec.getLsbD_ushiftRight, h]
      exact BitVec.getLsbD_zero
    · intro h
      apply BitVec.eq_of_getLsbD_eq
      intro i _
      rw [BitVec.getLsbD_ushiftRight, h i]
      exact BitVec.getLsbD_zero.symm
  rw [hz, hz]
  constructor
  · intro h i
    have hi := h (i + 1)
    rw [BitVec.getLsbD_and] at hi
    by_cases h32 : k + (i + 1) < 32
    · rw [hm _ h32, decide_eq_true (by omega), Bool.and_true] at hi
      rw [← hi]
      congr 1
      omega
    · exact BitVec.getLsbD_of_ge _ _ (by omega)
  · intro h i
    rw [BitVec.getLsbD_and]
    by_cases h32 : k + i < 32
    · rw [hm _ h32]
      cases i with
      | zero => simp
      | succ i =>
        rw [show k + (i + 1) = k + 1 + i by omega, h i, Bool.false_and]
    · rw [BitVec.getLsbD_of_ge m _ (by omega), Bool.false_and]

theorem getter_eq {m mask : BitVec 32} {k : ℕ} (hm : ∀ i < 32, mask.getLsbD i = decide (i ≠ k)) :
    ((m &&& mask) >>> k != 0) = (m >>> (k + 1) != 0) := by
  have h := cleared_ushiftRight (m := m) hm
  by_cases h0 : m >>> (k + 1) = 0
  · rw [h0, h.mpr h0]
  · rw [bne_iff_ne.mpr h0, bne_iff_ne.mpr (mt h.mp h0)]

/-- The two bits `getMPP` keeps are those its mask has cleared. -/
theorem getMPP_eq (S : CSRs) : S.getMPP = .User := by
  have h : (S.read MSTATUS &&& 0xffffe7ff#32) >>> 11 &&& 0b11#32 = 0 := by
    apply BitVec.eq_of_getLsbD_eq
    intro i hi
    rw [BitVec.getLsbD_and, BitVec.getLsbD_ushiftRight, BitVec.getLsbD_and]
    rcases Nat.lt_or_ge i 2 with h2 | h2
    · have hz : ∀ i < 2, (0xffffe7ff#32).getLsbD (11 + i) = false := by decide
      rw [hz i h2, Bool.and_false, Bool.false_and]
      exact BitVec.getLsbD_zero.symm
    · have hz : ∀ i < 32, 2 ≤ i → (0b11#32).getLsbD i = false := by decide
      rw [hz i hi h2, Bool.and_false]
      exact BitVec.getLsbD_zero.symm
  rw [CSRs.getMPP, h]
  rfl

/-- The getters return what is above the field. -/
theorem get_eq (S : CSRs) (F : StatusField) : F.get S = F.above (S.read MSTATUS) := by
  cases F with
  | MPREV => exact getter_eq (by decide)
  | MIE => exact getter_eq (by decide)
  | MPIE => exact getter_eq (by decide)
  | MPP => exact Subtype.ext (getMPP_eq S)

/-- What is above the field does not change with it. -/
theorem above_set (m : RegVal) (x : BitVec F.len) :
    F.above ((field F.lo F.len).set m x) = F.above m := by
  cases F with
  | MPP => rfl
  | MPREV => exact congrArg (· != 0) (BitField.ushiftRight_set m x (by decide))
  | MIE => exact congrArg (· != 0) (BitField.ushiftRight_set m x (by decide))
  | MPIE => exact congrArg (· != 0) (BitField.ushiftRight_set m x (by decide))

/-! ## The laws -/

/-- Setting a field to the value it holds leaves `mstatus` alone, and only that does. -/
theorem set_read_eq_iff {v : F.Val} :
    (F.set S v).read MSTATUS = S.read MSTATUS ↔ F.stored (S.read MSTATUS) = v := by
  rw [set_read, (field_lawful F).set_eq_iff, stored, Equiv.symm_apply_eq]

theorem set_set_read (v w : F.Val) :
    (F.set (F.set S w) v).read MSTATUS = (F.set S v).read MSTATUS := by
  rw [set_read, set_read, set_read, (field_lawful F).set_set]

theorem set_read_getLsbD (v : F.Val) {i : ℕ} (hi : ¬ (F.lo ≤ i ∧ i < F.lo + F.len)) :
    ((F.set S v).read MSTATUS).getLsbD i = (S.read MSTATUS).getLsbD i := by
  rw [set_read]
  by_cases h : i < 32
  · rw [BitField.getLsbD_set _ _ h, if_neg hi]
  · rw [BitVec.getLsbD_of_ge _ _ (by omega), BitVec.getLsbD_of_ge _ _ (by omega)]

/-- The laws hold exactly when the field already has the value, and the value is what the bits
above the field say. -/
theorem lens_laws_iff (S : CSRs) (F : StatusField) (v : F.Val) :
    LensLaws S F v ↔ F.stored (S.read MSTATUS) = v ∧ F.above (S.read MSTATUS) = v := by
  constructor
  · intro h
    have habove : F.above (S.read MSTATUS) = v := by
      have hv := h.get_set
      rwa [get_eq, set_read, above_set] at hv
    have hstored := set_read_eq_iff.mp h.set_get
    rw [get_eq] at hstored
    exact ⟨hstored.trans habove, habove⟩
  · rintro ⟨hstored, habove⟩
    have hsame : (F.set S v).read MSTATUS = S.read MSTATUS := set_read_eq_iff.mpr hstored
    refine ⟨?_, ?_, set_set_read v, fun G _ => ?_, fun i hi => set_read_getLsbD v hi⟩
    · rw [get_eq, hsame, habove]
    · rw [get_eq, habove, hsame]
    · rw [get_eq, get_eq, hsame]

/-- Interrupts are enabled, and the getter says they are not. -/
theorem getMIE_after_setMIE : ¬ LensLaws CSRs.new MIE true := fun h =>
  Bool.false_ne_true h.get_set

end StatusField

end RipSim
