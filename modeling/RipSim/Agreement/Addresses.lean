import RipSim.Agreement.Passage
import RipSim.Pipeline.Trace
import RipSim.Reference.Accesses
import RipSim.Reference.Conformance

/-!
# The addresses of loads and stores in both simulators

`dataAccess` is a load or a store at a given 64-bit address.  Each simulator makes that
address of the 32-bit sum of a register and an offset in its own way: `Instruction::exec`
by a conversion from a signed number, `memoryaccess` by one from an unsigned number, but
for `lw`.  With the DRAM in the 32-bit space an address that is extended with ones is past
it, so the two ways differ on every address from `2 ^ 31` on, unless that is past the DRAM
as well.
-/

namespace RipSim

open RIPSimulator

/-! ## An access at an address -/

/-- The load or store `I` at address `Ad`: the memory it leaves and the value it loads. -/
def dataAccess (I : Instruction) (M : Memory) (Ad : Address) (v : RegVal) :
    Except Fault (Memory × Option RegVal) :=
  match I.getMnemo with
  | .I .lb => (fun V => (M, some (V.signExtend 32))) <$> M.readByte Ad
  | .I .lh => (fun V => (M, some (V.signExtend 32))) <$> M.readHalfWord Ad
  | .I .lw => (fun V => (M, some V)) <$> M.readWord Ad
  | .I .lbu => (fun V => (M, some (V.setWidth 32))) <$> M.readByte Ad
  | .I .lhu => (fun V => (M, some (V.setWidth 32))) <$> M.readHalfWord Ad
  | .S .sb => (fun M => (M, none)) <$> M.writeByte Ad (v.setWidth 8)
  | .S .sh => (fun M => (M, none)) <$> M.writeHalfWord Ad (v.setWidth 16)
  | .S .sw => (fun M => (M, none)) <$> M.writeWord Ad v
  | _ => .ok (M, none)

/-- `I` is a load or a store. -/
def Instruction.isData (I : Instruction) : Bool := I.isLoad || I.isSType

/-- The number of bytes of a load or a store. -/
def Instruction.width (I : Instruction) : ℕ :=
  match I.getMnemo with
  | .I .lw | .S .sw => 4
  | .I .lh | .I .lhu | .S .sh => 2
  | _ => 1

/-- What a load makes of the low bytes of `v`. -/
def Instruction.extended (I : Instruction) (v : RegVal) : RegVal :=
  match I.getMnemo with
  | .I .lb => (v.setWidth 8).signExtend 32
  | .I .lh => (v.setWidth 16).signExtend 32
  | .I .lbu => (v.setWidth 8).setWidth 32
  | .I .lhu => (v.setWidth 16).setWidth 32
  | _ => v

/-- The offset of a load or a store. -/
def Instruction.offset : Instruction → RegVal
  | IInstruction _ _ _ Imm | SInstruction _ _ _ Imm => Imm.signExtend 32
  | _ => 0

theorem Instruction.isPlain_of_isData {I : Instruction} (hI : I.isData = true) :
    I.isPlain = true := by
  cases I with
  | IInstruction IT => exact isPlain_of_isLoad ((Bool.or_false _).symm.trans hI)
  | SInstruction => rfl
  | _ => exact absurd hI Bool.false_ne_true

/-- The faults of an access other than an index past the vector are those of the range
checks. -/
structure FromGuard {α : Type} (M : Memory) (Ad : Address) (x : Except Fault α) : Prop where
  fails : ∀ f, M.dramAd Ad = .error f → x = .error f
  guard : ∀ f, x = .error f → f ≠ .outOfBounds → M.dramAd Ad = .error f

/-- Nothing but an index past the vector goes wrong. -/
def OnlyIndex {α : Type} (x : Except Fault α) : Prop := ∀ f, x = .error f → f = .outOfBounds

section Faults

variable {α β : Type} {M : Memory} {Ad : Address}

theorem OnlyIndex.bind {x : Except Fault α} {g : α → Except Fault β} (hx : OnlyIndex x)
    (hg : ∀ a, OnlyIndex (g a)) : OnlyIndex (x >>= g) := by
  cases x with
  | error e =>
    intro f hf
    injection hf with hf
    exact hf ▸ hx e rfl
  | ok a => exact hg a

theorem onlyIndex_ok (a : α) : OnlyIndex (.ok a : Except Fault α) := fun _ h => nomatch h

theorem onlyIndex_get (i : Address) : OnlyIndex (M.get i) := by
  intro f hf
  unfold Memory.get at hf
  split_ifs at hf
  injection hf with hf
  exact hf.symm

theorem onlyIndex_set (i : Address) (v : Byte) : OnlyIndex (M.set i v) := by
  intro f hf
  unfold Memory.set at hf
  split_ifs at hf
  injection hf with hf
  exact hf.symm

theorem FromGuard.of_bind {g : Address → Except Fault β} (hg : ∀ d, OnlyIndex (g d)) :
    FromGuard M Ad (M.dramAd Ad >>= g) := by
  refine ⟨fun f hf => by rw [hf]; rfl, fun f hf hne => ?_⟩
  cases h : M.dramAd Ad with
  | error e =>
    rw [h] at hf
    injection hf with hf
    rw [hf]
  | ok d =>
    rw [h] at hf
    exact absurd (hg d f hf) hne

theorem FromGuard.map {x : Except Fault α} (g : α → β) (hx : FromGuard M Ad x) :
    FromGuard M Ad (g <$> x) := by
  refine ⟨fun f hf => by rw [hx.fails f hf]; rfl, fun f hf hne => hx.guard f ?_ hne⟩
  cases x with
  | error e =>
    injection hf with hf
    rw [hf]
  | ok a => exact nomatch hf

theorem fromGuard_readByte : FromGuard M Ad (M.readByte Ad) :=
  .of_bind fun d => onlyIndex_get d

theorem fromGuard_writeByte (v : Byte) : FromGuard M Ad (M.writeByte Ad v) :=
  .of_bind fun d => onlyIndex_set d v

theorem fromGuard_readHalfWord : FromGuard M Ad (M.readHalfWord Ad) :=
  .of_bind fun _ => (onlyIndex_get _).bind fun _ => (onlyIndex_get _).bind fun _ => onlyIndex_ok _

theorem fromGuard_writeHalfWord (v : HalfWord) : FromGuard M Ad (M.writeHalfWord Ad v) :=
  .of_bind fun _ => (onlyIndex_set _ _).bind fun _ => onlyIndex_set _ _

theorem fromGuard_readWord : FromGuard M Ad (M.readWord Ad) :=
  .of_bind fun _ => (onlyIndex_get _).bind fun _ => (onlyIndex_get _).bind fun _ =>
    (onlyIndex_get _).bind fun _ => (onlyIndex_get _).bind fun _ => onlyIndex_ok _

theorem fromGuard_writeWord (v : Word) : FromGuard M Ad (M.writeWord Ad v) :=
  .of_bind fun _ => (onlyIndex_set _ _).bind fun _ => (onlyIndex_set _ _).bind fun _ =>
    (onlyIndex_set _ _).bind fun _ => onlyIndex_set _ _

/-- Every load and every store starts with the range checks. -/
theorem fromGuard_dataAccess {I : Instruction} (hI : I.isData = true) (v : RegVal) :
    FromGuard M Ad (dataAccess I M Ad v) := by
  cases I with
  | IInstruction IT =>
    cases IT with
    | lb | lbu => exact fromGuard_readByte.map _
    | lh | lhu => exact fromGuard_readHalfWord.map _
    | lw => exact fromGuard_readWord.map _
    | _ => exact absurd hI Bool.false_ne_true
  | SInstruction ST =>
    cases ST with
    | sb => exact (fromGuard_writeByte _).map _
    | sh => exact (fromGuard_writeHalfWord _).map _
    | sw => exact (fromGuard_writeWord _).map _
  | _ => exact absurd hI Bool.false_ne_true

end Faults

/-! ## The two extensions of an address -/

/-- The DRAM lies in the 32-bit space. -/
def Memory.In32 (M : Memory) : Prop := M.DRAMBase.toNat + M.DRAMSize.toNat ≤ 2 ^ 32

instance (M : Memory) : Decidable M.In32 := inferInstanceAs (Decidable (_ ≤ _))

/-- The address `ea` is below `2 ^ 31`, or else past the DRAM. -/
def Memory.Signless (M : Memory) (ea : RegVal) : Prop :=
  ea.toNat < 2 ^ 31 ∨ M.DRAMBase.toNat + M.DRAMSize.toNat < ea.toNat

theorem toNat_setWidth_sixtyFour (ea : RegVal) : (ea.setWidth 64).toNat = ea.toNat := by
  rw [BitVec.toNat_setWidth, Nat.mod_eq_of_lt (by omega)]

/-- An extension with ones is past every DRAM in the 32-bit space. -/
theorem dramAd_signExtend {M : Memory} (hM : M.In32) {ea : RegVal} (hea : 2 ^ 31 ≤ ea.toNat) :
    M.dramAd (ea.signExtend 64) = .error .biggerThanDRAMSize := by
  have hmsb : ea.msb = true := by
    rw [BitVec.msb_eq_decide]
    exact decide_eq_true hea
  have hv : (ea.signExtend 64).toNat = 2 ^ 64 - 2 ^ 32 + ea.toNat := by
    rw [BitVec.toNat_signExtend, toNat_setWidth_sixtyFour, hmsb, if_pos rfl]
    omega
  unfold Memory.In32 at hM
  exact Access.dramAd_of_gt (by omega) (by omega)

/-- The two extensions of an address reach the same bytes, or both fail, whatever is made of
the result. -/
theorem dataAccess_signExtend_iff {β : Type} {I : Instruction} (hI : I.isData = true) {M : Memory}
    (hM : M.In32) (ea v : RegVal) (g : Memory × Option RegVal → β) :
    g <$> dataAccess I M (ea.signExtend 64) v = g <$> dataAccess I M (ea.setWidth 64) v ↔
      M.Signless ea := by
  have hG : ∀ Ad, FromGuard M Ad (g <$> dataAccess I M Ad v) := fun _ =>
    (fromGuard_dataAccess hI v).map g
  constructor
  · intro h
    by_cases hea : ea.toNat < 2 ^ 31
    · exact .inl hea
    · have hbig := dramAd_signExtend hM (Nat.not_lt.mp hea)
      rw [(hG _).fails _ hbig] at h
      have hz := (hG _).guard _ h.symm (by decide)
      right
      by_contra hle
      by_cases hb : M.DRAMBase.toNat ≤ ea.toNat
      · rw [Access.dramAd_of_le (by rwa [toNat_setWidth_sixtyFour])
          (by rw [toNat_setWidth_sixtyFour]; omega)] at hz
        exact nomatch hz
      · rw [Access.dramAd_of_lt (by rw [toNat_setWidth_sixtyFour]; omega)] at hz
        exact absurd hz (by decide)
  · rintro (hea | hpast)
    · rw [signExtend_eq_setWidth hea]
    · by_cases hea : ea.toNat < 2 ^ 31
      · rw [signExtend_eq_setWidth hea]
      · have hbig := dramAd_signExtend hM (Nat.not_lt.mp hea)
        have hz : M.dramAd (ea.setWidth 64) = .error .biggerThanDRAMSize :=
          Access.dramAd_of_gt (by rw [toNat_setWidth_sixtyFour]; omega)
            (by rwa [toNat_setWidth_sixtyFour])
        rw [(hG _).fails _ hbig, (hG _).fails _ hz]

/-- What lies in the DRAM is not past it. -/
theorem Memory.Signless.lt {M : Memory} {ea : RegVal} (hs : M.Signless ea) {n : ℕ}
    (hC : M.Contains (ea.setWidth 64) n) : ea.toNat < 2 ^ 31 := by
  have hsize := hC.size
  rw [toNat_setWidth_sixtyFour] at hsize
  exact hs.resolve_right (by omega)

/-! ## A value stored and loaded again -/

section RoundTrip

variable {M : Memory} {Ad : Address} {I : Instruction}

theorem dataAccess_store (hI : I.isSType = true) (hC : M.Contains Ad I.width) (v : RegVal) :
    dataAccess I M Ad v = .ok (M.store (Ad - M.DRAMBase) I.width v, none) := by
  cases I with
  | SInstruction ST =>
    cases ST with
    | sb => exact congrArg (_ <$> ·) (hC.writeByte v)
    | sh => exact congrArg (_ <$> ·) (hC.writeHalfWord v)
    | sw => exact congrArg (_ <$> ·) (hC.writeWord v)
  | _ => exact absurd hI Bool.false_ne_true

/-- A byte that has just been stored. -/
theorem store_DRAM (n : ℕ) (v : Word) {k : ℕ} (hk : k < n) (hn : n ≤ 4) (d : Address) :
    (M.store d n v).DRAM (d + BitVec.ofNat 64 k) = v.extractLsb' (8 * k) 8 := by
  have hidx : (d + BitVec.ofNat 64 k - d).toNat = k := by
    rw [add_sub_cancel_left, BitVec.toNat_ofNat, Nat.mod_eq_of_lt (by omega)]
  show (if (d + BitVec.ofNat 64 k - d).toNat < n then _ else _) = _
  rw [hidx, if_pos hk]

theorem readByte_store (hC : M.Contains Ad 1) (v : Word) :
    (M.store (Ad - M.DRAMBase) 1 v).readByte Ad = .ok (v.setWidth 8) := by
  have hC' : (M.store (Ad - M.DRAMBase) 1 v).Contains Ad 1 := ⟨hC.base, hC.size⟩
  have h0 := store_DRAM (M := M) 1 v Nat.one_pos (by omega) (Ad - M.DRAMBase)
  rw [show Ad - M.DRAMBase + BitVec.ofNat 64 0 = Ad - M.DRAMBase from add_zero _] at h0
  rw [hC'.readByte]
  refine congrArg Except.ok (h0.trans ?_)
  exact (BitVec.setWidth_eq_extractLsb' (by omega)).symm

theorem readHalfWord_store (hC : M.Contains Ad 2) (v : Word) :
    (M.store (Ad - M.DRAMBase) 2 v).readHalfWord Ad = .ok (v.setWidth 16) := by
  have hC' : (M.store (Ad - M.DRAMBase) 2 v).Contains Ad 2 := ⟨hC.base, hC.size⟩
  have h0 := store_DRAM (M := M) 2 v Nat.two_pos (by omega) (Ad - M.DRAMBase)
  have h1 := store_DRAM (M := M) 2 v Nat.one_lt_two (by omega) (Ad - M.DRAMBase)
  rw [show Ad - M.DRAMBase + BitVec.ofNat 64 0 = Ad - M.DRAMBase from add_zero _] at h0
  rw [hC'.readHalfWord]
  refine congrArg Except.ok ((congrArg₂ (· ++ ·) h1 h0).trans ?_)
  exact (BitVec.extractLsb'_append_extractLsb'_eq_extractLsb' rfl).trans
    (BitVec.setWidth_eq_extractLsb' (by omega)).symm

theorem readWord_store (hC : M.Contains Ad 4) (v : Word) :
    (M.store (Ad - M.DRAMBase) 4 v).readWord Ad = .ok v := by
  have hC' : (M.store (Ad - M.DRAMBase) 4 v).Contains Ad 4 := ⟨hC.base, hC.size⟩
  have hk := fun k (hk : k < 4) => store_DRAM (M := M) 4 v hk (by omega) (Ad - M.DRAMBase)
  have h0 := hk 0 (by omega)
  rw [show Ad - M.DRAMBase + BitVec.ofNat 64 0 = Ad - M.DRAMBase from add_zero _] at h0
  rw [hC'.readWord]
  refine congrArg Except.ok ((congrArg₂ (· ++ ·) (congrArg₂ (· ++ ·) (congrArg₂ (· ++ ·)
    (hk 3 (by omega)) (hk 2 (by omega))) (hk 1 (by omega))) h0).trans ?_)
  rw [BitVec.extractLsb'_append_extractLsb'_eq_extractLsb' (show 8 * 3 = 8 * 2 + 8 from rfl),
    BitVec.extractLsb'_append_extractLsb'_eq_extractLsb' (show 8 * 2 = 8 * 1 + 8 from rfl)]
  exact (BitVec.extractLsb'_append_extractLsb'_eq_extractLsb'
    (show 8 * 1 = 8 * 0 + 8 from rfl)).trans
    BitVec.extractLsb'_eq_self

/-- **Store, then load.** -/
theorem dataAccess_stored (hI : I.isLoad = true) (hC : M.Contains Ad I.width) (v v' : RegVal) :
    dataAccess I (M.store (Ad - M.DRAMBase) I.width v) Ad v' =
      .ok (M.store (Ad - M.DRAMBase) I.width v, some (I.extended v)) := by
  cases I with
  | IInstruction IT =>
    cases IT with
    | lb | lbu => exact congrArg (_ <$> ·) (readByte_store hC v)
    | lh | lhu => exact congrArg (_ <$> ·) (readHalfWord_store hC v)
    | lw => exact congrArg (_ <$> ·) (readWord_store hC v)
    | _ => exact absurd hI Bool.false_ne_true
  | _ => exact absurd hI Bool.false_ne_true

end RoundTrip

/-! ## What a store that succeeds has written -/

theorem set_ok {M M' : Memory} {i : Address} {v : Byte} (h : M.set i v = .ok M') :
    M' = { M with DRAM := Function.update M.DRAM i v } := by
  unfold Memory.set at h
  split_ifs at h
  exact (Except.ok.inj h).symm

theorem dramAd_ok {M : Memory} {Ad d : Address} (h : M.dramAd Ad = .ok d) :
    d = Ad - M.DRAMBase := by
  unfold Memory.dramAd at h
  split_ifs at h
  exact (Except.ok.inj h).symm

theorem map_eq_ok {α β : Type} {x : Except Fault α} {g : α → β} {b : β}
    (h : g <$> x = .ok b) : ∃ a, x = .ok a ∧ g a = b := by
  cases x with
  | error e => exact nomatch h
  | ok a => exact ⟨a, rfl, Except.ok.inj h⟩

/-- A later assignment of a write leaves the first byte alone. -/
theorem set_ok_first {M M' : Memory} {d k : Address} {v : Byte} (hk : k ≠ 0)
    (h : M.set (d + k) v = .ok M') : M'.DRAM d = M.DRAM d := by
  rw [set_ok h]
  exact Function.update_of_ne (fun he => hk (left_eq_add.mp he)) ..

/-- A store that succeeds leaves its low byte at its address. -/
theorem first_of_dataAccess {I : Instruction} (hI : I.isSType = true) {M : Memory} {Ad : Address}
    {v : RegVal} {r : Memory × Option RegVal} (h : dataAccess I M Ad v = .ok r) :
    r.1.DRAM (Ad - M.DRAMBase) = v.setWidth 8 := by
  have hfirst : ∀ {d : Address} {M₁ : Memory}, M.dramAd Ad = .ok d →
      M.set d (v.setWidth 8) = .ok M₁ → M₁.DRAM (Ad - M.DRAMBase) = v.setWidth 8 := by
    intro d M₁ hd hM₁
    rw [set_ok hM₁, ← dramAd_ok hd]
    exact Function.update_self ..
  cases I with
  | SInstruction ST =>
    cases ST with
    | sb =>
      obtain ⟨M', hw, rfl⟩ := map_eq_ok h
      obtain ⟨d, hd, h0⟩ := bind_eq_ok hw
      exact hfirst hd h0
    | sh =>
      obtain ⟨M', hw, rfl⟩ := map_eq_ok h
      obtain ⟨d, hd, hw⟩ := bind_eq_ok hw
      obtain ⟨M₁, h0, h1⟩ := bind_eq_ok hw
      have hlow : (v.setWidth 16).setWidth 8 = v.setWidth 8 :=
        BitVec.setWidth_setWidth_of_le v (by omega)
      rw [hlow] at h0
      rw [← hfirst hd h0, ← dramAd_ok hd]
      exact set_ok_first (by decide) h1
    | sw =>
      obtain ⟨M', hw, rfl⟩ := map_eq_ok h
      obtain ⟨d, hd, hw⟩ := bind_eq_ok hw
      obtain ⟨M₁, h0, hw⟩ := bind_eq_ok hw
      obtain ⟨M₂, h1, hw⟩ := bind_eq_ok hw
      obtain ⟨M₃, h2, h3⟩ := bind_eq_ok hw
      rw [← hfirst hd h0, ← dramAd_ok hd]
      exact (set_ok_first (by decide) h3).trans
        ((set_ok_first (by decide) h2).trans (set_ok_first (by decide) h1))
  | _ => exact absurd hI Bool.false_ne_true

theorem get_ok {M : Memory} {i : Address} {b : Byte} (h : M.get i = .ok b) : b = M.DRAM i := by
  unfold Memory.get at h
  split_ifs at h
  exact (Except.ok.inj h).symm

/-- A load that succeeds on a DRAM of equal bytes. -/
theorem dataAccess_const {I : Instruction} (hI : I.isLoad = true) {M : Memory} {b : Byte}
    (hb : M.DRAM = fun _ => b) {Ad : Address} {v : RegVal} {r : Memory × Option RegVal}
    (h : dataAccess I M Ad v = .ok r) : r.2 = some (I.extended (b ++ b ++ b ++ b)) := by
  have hget : ∀ {i : Address} {x : Byte}, M.get i = .ok x → x = b := by
    intro i x hx
    rw [get_ok hx, hb]
  have hbyte : ∀ {V : Byte}, M.readByte Ad = .ok V → V = b := by
    intro V hV
    obtain ⟨d, -, h0⟩ := bind_eq_ok hV
    exact hget h0
  have hhalf : ∀ {V : HalfWord}, M.readHalfWord Ad = .ok V → V = b ++ b := by
    intro V hV
    obtain ⟨d, -, hV⟩ := bind_eq_ok hV
    obtain ⟨b0, h0, hV⟩ := bind_eq_ok hV
    obtain ⟨b1, h1, hV⟩ := bind_eq_ok hV
    rw [← Except.ok.inj hV, hget h0, hget h1]
    exact Memory.compose_half b b
  have hword : ∀ {V : Word}, M.readWord Ad = .ok V → V = b ++ b ++ b ++ b := by
    intro V hV
    obtain ⟨d, -, hV⟩ := bind_eq_ok hV
    obtain ⟨b0, h0, hV⟩ := bind_eq_ok hV
    obtain ⟨b1, h1, hV⟩ := bind_eq_ok hV
    obtain ⟨b2, h2, hV⟩ := bind_eq_ok hV
    obtain ⟨b3, h3, hV⟩ := bind_eq_ok hV
    rw [← Except.ok.inj hV, hget h0, hget h1, hget h2, hget h3]
    exact Memory.compose_word b b b b
  have hlow : (b ++ b ++ b ++ b).setWidth 8 = b := BitVec.setWidth_append_eq_right
  have hmid : (b ++ b ++ b ++ b).setWidth 16 = b ++ b := by
    apply BitVec.eq_of_toNat_eq
    have hlt := b.isLt
    simp only [BitVec.toNat_setWidth, BitField.toNat_append_eq]
    omega
  cases I with
  | IInstruction IT =>
    cases IT with
    | lb | lbu =>
      obtain ⟨V, hV, rfl⟩ := map_eq_ok h
      rw [hbyte hV]
      exact congrArg some (congrArg _ hlow.symm)
    | lh | lhu =>
      obtain ⟨V, hV, rfl⟩ := map_eq_ok h
      rw [hhalf hV]
      exact congrArg some (congrArg _ hmid.symm)
    | lw =>
      obtain ⟨V, hV, rfl⟩ := map_eq_ok h
      rw [hword hV]
      rfl
    | _ => exact absurd hI Bool.false_ne_true
  | _ => exact absurd hI Bool.false_ne_true

/-! ## The interpreter -/

/-- The effective address of `I`. -/
def Hart.dataAd (h : Hart) (I : Instruction) : RegVal := h.GPRegs I.rs1 + I.offset

/-- The end of a load or a store in `Instruction::exec`. -/
def Hart.complete (h : Hart) (I : Instruction) (r : Memory × Option RegVal) :
    Option Exception × Hart :=
  (none, { h with
    Mem := r.1
    GPRegs := r.2.elim h.GPRegs (h.GPRegs.write I.rd)
    PC := h.PC + 4 })

theorem map_map_eq_bind {α β γ : Type} (x : Except Fault α) (f : α → β) (g : β → γ) :
    g <$> f <$> x = x >>= fun a => .ok (g (f a)) := by
  cases x <;> rfl

/-- `Instruction::exec` of a load. -/
theorem exec_of_isLoad {I : Instruction} (hI : I.isLoad = true) (h : Hart) :
    I.exec h = h.complete I <$>
      dataAccess I h.Mem ((h.dataAd I).signExtend 64) (h.GPRegs I.rs2) := by
  cases I with
  | IInstruction IT =>
    cases IT with
    | lb | lh | lw | lbu | lhu =>
      show _ = _ <$> _ <$> _
      rw [map_map_eq_bind]
      rfl
    | _ => exact absurd hI Bool.false_ne_true
  | _ => exact absurd hI Bool.false_ne_true

/-- `Instruction::exec` of a store. -/
theorem exec_of_isSType {I : Instruction} (hI : I.isSType = true) (h : Hart) :
    I.exec h =
      if h.dataAd I = consoleAd then
        .ok (none, { h with cerr := h.cerr ++ [(h.GPRegs I.rs2).setWidth 8], PC := h.PC + 4 })
      else if h.Mode = .Epilogue then .ok (none, { h with PC := h.PC + 4 })
      else h.complete I <$>
        dataAccess I h.Mem ((h.dataAd I).signExtend 64) (h.GPRegs I.rs2) := by
  cases I with
  | SInstruction ST Rs1 Rs2 Imm =>
    show h.execS ST Rs1 Rs2 Imm = _
    unfold Hart.execS
    dsimp only
    rw [setWidth_signExtend]
    show (if h.GPRegs Rs1 + Imm.signExtend 32 = consoleAd then _ else _) =
      if h.GPRegs Rs1 + Imm.signExtend 32 = consoleAd then _ else _
    split_ifs
    · rfl
    · rfl
    · cases ST with
      | sb | sh | sw =>
        show _ = _ <$> _ <$> _
        rw [map_map_eq_bind]
        rfl
  | _ => exact absurd hI Bool.false_ne_true

/-- The memory with the bytes `D`. -/
def Memory.holding (M : Memory) (D : Address → Byte) : Memory := { M with DRAM := D }

/-- The machine with these bytes. -/
def Hart.holding (h : Hart) (D : Address → Byte) : Hart := { h with Mem := h.Mem.holding D }

section Holding

variable (h : Hart) (D : Address → Byte) (I : Instruction)

@[simp] theorem Memory.holding_self (M : Memory) : M.holding M.DRAM = M := rfl
@[simp] theorem Hart.holding_self : h.holding h.Mem.DRAM = h := rfl
@[simp] theorem Hart.holding_Mode : (h.holding D).Mode = h.Mode := rfl
@[simp] theorem Hart.holding_dataAd : (h.holding D).dataAd I = h.dataAd I := rfl

end Holding

/-- `Instruction::exec` carries out `I` at the effective address, extended with zeros,
whatever the DRAM holds; and a load of the width of a store reads back, at the same address,
what the store has left. -/
structure InterpreterAddresses (h : Hart) (I : Instruction) : Prop where
  access : ∀ D, I.exec (h.holding D) = h.complete I <$>
    dataAccess I (h.Mem.holding D) ((h.dataAd I).setWidth 64) (h.GPRegs I.rs2)
  loadBack : I.isSType = true → h.Mem.Contains ((h.dataAd I).setWidth 64) I.width →
    ∃ h', I.exec h = .ok (none, h') ∧ ∀ (g : Hart) (L : Instruction), L.isLoad = true →
      L.width = I.width → g.Mem = h'.Mem → g.dataAd L = h.dataAd I →
      L.exec g = .ok (g.complete L (g.Mem, some (L.extended (h.GPRegs I.rs2))))

/-- Where it does: the sign of the address does not matter, and a store goes to the
memory. -/
structure InterpreterReaches (h : Hart) (I : Instruction) : Prop where
  signless : h.Mem.Signless (h.dataAd I)
  store : I.isSType = true → h.dataAd I ≠ consoleAd ∧ h.Mode ≠ .Epilogue

/-- A store that is suppressed is not carried out, for some content of the DRAM. -/
theorem suppressed_ne {I : Instruction} (hI : I.isSType = true) (M : Memory) (Ad : Address)
    (v : RegVal) :
    ¬∀ D, ∃ r, dataAccess I (M.holding D) Ad v = .ok r ∧ r.1 = M.holding D := by
  intro h
  have hbyte : ∀ b : Byte, b = v.setWidth 8 := by
    intro b
    obtain ⟨r, hr, hM⟩ := h fun _ => b
    have hb := first_of_dataAccess hI hr
    rwa [hM] at hb
  exact absurd ((hbyte 0).trans (hbyte 1).symm) (by decide)

/-- **When the interpreter's loads and stores are at the effective address.** -/
theorem interpreter_addresses_iff {I : Instruction} (hI : I.isData = true) {h : Hart}
    (hM : h.Mem.In32) : InterpreterAddresses h I ↔ InterpreterReaches h I := by
  have hload : I.isSType = false → I.isLoad = true := by
    intro hs
    rwa [Instruction.isData, hs, Bool.or_false] at hI
  constructor
  · intro hA
    have hself := hA.access h.Mem.DRAM
    rw [Hart.holding_self, Memory.holding_self] at hself
    have hstore : I.isSType = true → h.dataAd I ≠ consoleAd ∧ h.Mode ≠ .Epilogue := by
      intro hs
      have hne : h.dataAd I ≠ consoleAd := by
        intro hcon
        rw [exec_of_isSType hs, if_pos hcon] at hself
        obtain ⟨r, -, hr⟩ := map_eq_ok hself.symm
        have hcerr := congrArg (fun p : Option Exception × Hart => p.2.cerr.length) hr
        change h.cerr.length = (h.cerr ++ [_]).length at hcerr
        rw [List.length_append, List.length_singleton] at hcerr
        omega
      refine ⟨hne, fun hm => suppressed_ne hs h.Mem ((h.dataAd I).setWidth 64)
        (h.GPRegs I.rs2) fun D => ?_⟩
      have hD := hA.access D
      rw [exec_of_isSType hs, Hart.holding_dataAd, Hart.holding_Mode, if_neg hne, if_pos hm] at hD
      obtain ⟨r, hr, hc⟩ := map_eq_ok hD.symm
      exact ⟨r, hr, congrArg (fun p : Option Exception × Hart => p.2.Mem) hc⟩
    refine ⟨?_, hstore⟩
    cases hs : I.isSType with
    | true =>
      rw [exec_of_isSType hs, if_neg (hstore hs).1, if_neg (hstore hs).2] at hself
      exact (dataAccess_signExtend_iff hI hM _ _ _).mp hself
    | false =>
      rw [exec_of_isLoad (hload hs)] at hself
      exact (dataAccess_signExtend_iff hI hM _ _ _).mp hself
  · intro hR
    have haccess : ∀ D, I.exec (h.holding D) = h.complete I <$>
        dataAccess I (h.Mem.holding D) ((h.dataAd I).setWidth 64) (h.GPRegs I.rs2) := by
      intro D
      refine Eq.trans ?_ ((dataAccess_signExtend_iff hI (M := h.Mem.holding D) hM _ _ _).mpr
        hR.signless)
      cases hs : I.isSType with
      | true =>
        rw [exec_of_isSType hs, Hart.holding_dataAd, Hart.holding_Mode, if_neg (hR.store hs).1,
          if_neg (hR.store hs).2]
        rfl
      | false =>
        rw [exec_of_isLoad (hload hs)]
        rfl
    refine ⟨haccess, fun hs hC => ?_⟩
    have hlt := hR.signless.lt hC
    have hst := haccess h.Mem.DRAM
    rw [Hart.holding_self, Memory.holding_self, dataAccess_store hs hC] at hst
    refine ⟨_, hst, fun g L hL hw hg hea => ?_⟩
    change g.Mem = h.Mem.store _ _ _ at hg
    rw [exec_of_isLoad hL, hea, signExtend_eq_setWidth hlt, hg, ← hw,
      dataAccess_stored hL (hw ▸ hC)]
    rfl

/-! ## The pipeline -/

namespace RIPSimulator

variable {σ : Type}

/-- The effective address of `I`, with the operand it was decoded with. -/
def dataAd (S : RIPSimulator σ) (I : Instruction) : RegVal := S.PS.DERs1Val + I.offset

/-- The simulator with these bytes in its DRAM. -/
def holding (A : RIPSimulator σ) (D : Address → Byte) : RIPSimulator σ :=
  { A with Mem := A.Mem.holding D }

/-- The end of `memoryaccess`. -/
def complete (A : RIPSimulator σ) (ea : RegVal) (r : Memory × Option RegVal) : RIPSimulator σ :=
  { A with
    Mem := r.1
    PS := { A.PS with
      MARdVal := r.2.getD ea, MACSRVal := A.PS.EXCSRVal, MAImmVal := A.PS.EXImmVal } }

theorem access_eq {I : Instruction} (hI : I.isData = true) (M : Memory) (ea v : RegVal) :
    access M I ea v = (fun r => (r.1, r.2.getD ea)) <$>
      dataAccess I M (if I.getMnemo = .I .lw then ea.signExtend 64 else ea.setWidth 64) v := by
  cases I with
  | IInstruction IT =>
    cases IT with
    | lb | lh | lw | lbu | lhu =>
      show _ = _ <$> _ <$> _
      rw [map_map_eq_bind]
      rfl
    | _ => exact absurd hI Bool.false_ne_true
  | SInstruction ST =>
    cases ST with
    | sb | sh | sw =>
      show _ = _ <$> _ <$> _
      rw [map_map_eq_bind]
      rfl
  | _ => exact absurd hI Bool.false_ne_true

theorem dataAccess_load_congr {I : Instruction} (hI : I.isLoad = true) (M : Memory) (Ad : Address)
    (v v' : RegVal) : dataAccess I M Ad v = dataAccess I M Ad v' := by
  cases I with
  | IInstruction IT => cases IT <;> rfl
  | _ => exact absurd hI Bool.false_ne_true

variable [BranchPredictor σ] {S A : RIPSimulator σ} {I : Instruction}

/-- The instruction `I` enters EX in the cycle from `S`, and `A` is what `memoryaccess` finds in
the cycle after. -/
structure Accessing (S A : RIPSimulator σ) (I : Instruction) : Prop where
  reachable : Reachable S
  entering : S.entering = some I
  next : ∃ S₁ A₁, Next S S₁ ∧ S₁.advance = .ok A₁ ∧ A = A₁.written

theorem Accessing.latches (h : Accessing S A I) (hI : I.isData = true) :
    A.PS.Insts.MA = some I ∧ A.PS.EXRdVal = S.dataAd I ∧
      (I.isSType = true → A.PS.EXRs2Val = S.PS.DERs2Val) := by
  obtain ⟨S₁, A₁, hn, hadv, rfl⟩ := h.next
  have hc := h.reachable.clean
  obtain ⟨hEX, hv, -, hs2⟩ := hn.executed hc h.entering (Instruction.isPlain_of_isData hI)
  obtain ⟨_, hMA, _⟩ := (hc.next hn).advance_insts hadv
  obtain ⟨_, _, _, _, _, _, _, hPS⟩ := A₁.written_frame
  have hlatch : A₁.PS.EXRdVal = S₁.PS.EXRdVal ∧ A₁.PS.EXRs2Val = S₁.PS.EXRs2Val := by
    rw [advance_PS hadv]
    exact ⟨rfl, rfl⟩
  have himm : S.PS.DEImmVal = I.offset := by
    have hs := moving_of_entering h.entering
    rw [h.reachable.latched.DE hs I ((entering_of_moving hs).symm.trans h.entering)]
    cases I with
    | IInstruction | SInstruction => rfl
    | _ => exact absurd hI Bool.false_ne_true
  rw [hPS]
  refine ⟨hMA.trans hEX, ?_, fun hs => hlatch.2.trans (hs2 hs)⟩
  rw [show A₁.PS.EXRdVal = _ from hlatch.1, hv, himm]
  cases I with
  | IInstruction IT => cases IT <;> first | rfl | exact absurd hI Bool.false_ne_true
  | SInstruction => rfl
  | _ => exact absurd hI Bool.false_ne_true

/-- `memoryaccess` of a load or a store. -/
theorem Accessing.memoryaccess_eq (h : Accessing S A I) (hI : I.isData = true)
    (D : Address → Byte) :
    (A.holding D).memoryaccess =
      if S.dataAd I = consoleAd then
        .ok { A.complete (S.dataAd I) (A.Mem.holding D, none) with
          cerr := A.cerr ++ [(S.dataAd I).setWidth 8] }
      else if A.Mode = .Epilogue then .ok (A.complete (S.dataAd I) (A.Mem.holding D, none))
      else A.complete (S.dataAd I) <$> dataAccess I (A.Mem.holding D)
        (if I.getMnemo = .I .lw then (S.dataAd I).signExtend 64 else (S.dataAd I).setWidth 64)
        S.PS.DERs2Val := by
  obtain ⟨hMA, hv, hs2⟩ := h.latches hI
  rw [← hv]
  have hacc : access (A.Mem.holding D) I A.PS.EXRdVal A.PS.EXRs2Val =
      (fun r => (r.1, r.2.getD A.PS.EXRdVal)) <$> dataAccess I (A.Mem.holding D)
        (if I.getMnemo = .I .lw then A.PS.EXRdVal.signExtend 64 else A.PS.EXRdVal.setWidth 64)
        S.PS.DERs2Val := by
    rw [access_eq hI]
    cases hs : I.isSType with
    | true => rw [hs2 hs]
    | false =>
      rw [Instruction.isData, hs, Bool.or_false] at hI
      rw [dataAccess_load_congr hI]
  unfold memoryaccess
  rw [show (A.holding D).PS.Insts.MA = some I from hMA]
  show (if A.PS.EXRdVal = consoleAd then _ else if A.Mode = .Epilogue then _ else
    access (A.Mem.holding D) I A.PS.EXRdVal A.PS.EXRs2Val >>= _) = _
  rw [hacc]
  split_ifs
  · rfl
  · rfl
  · generalize dataAccess I (A.Mem.holding D) (A.PS.EXRdVal.signExtend 64) S.PS.DERs2Val = x
    cases x <;> rfl
  · generalize dataAccess I (A.Mem.holding D) (A.PS.EXRdVal.setWidth 64) S.PS.DERs2Val = x
    cases x <;> rfl

/-- Where memory access is at the effective address: not at the console, not in Epilogue mode,
and an `lw` not at an address whose sign matters. -/
structure PipelineReaches (S A : RIPSimulator σ) (I : Instruction) : Prop where
  console : S.dataAd I ≠ consoleAd
  mode : A.Mode ≠ .Epilogue
  word : I.getMnemo = .I .lw → A.Mem.Signless (S.dataAd I)

/-- `memoryaccess` carries out `I` at the effective address, extended with zeros, whatever the
DRAM holds; and a load of the width of a store reads back, at the same address, what the
store has left. -/
structure PipelineAddresses (S A : RIPSimulator σ) (I : Instruction) : Prop where
  access : ∀ D, (A.holding D).memoryaccess = A.complete (S.dataAd I) <$>
    dataAccess I (A.Mem.holding D) ((S.dataAd I).setWidth 64) S.PS.DERs2Val
  loadBack : I.isSType = true → A.Mem.Contains ((S.dataAd I).setWidth 64) I.width →
    ∃ B, A.memoryaccess = .ok B ∧ ∀ (T A' : RIPSimulator σ) (L : Instruction), Accessing T A' L →
      L.isLoad = true → L.width = I.width → A'.Mem = B.Mem → T.dataAd L = S.dataAd I →
      PipelineReaches T A' L → A'.memoryaccess =
        .ok (A'.complete (T.dataAd L) (A'.Mem, some (L.extended S.PS.DERs2Val)))

/-- Zeros and ones load as different values. -/
theorem extended_ne {I : Instruction} (hI : I.isLoad = true) :
    I.extended 0 ≠ I.extended 0x01010101 := by
  cases I with
  | IInstruction IT =>
    cases IT with
    | lb | lh | lw | lbu | lhu => simp [Instruction.extended, Instruction.getMnemo]
    | _ => exact absurd hI Bool.false_ne_true
  | _ => exact absurd hI Bool.false_ne_true

/-- What does not look at the DRAM is not a load or a store, for some content of it. -/
theorem untouched_ne {I : Instruction} (hI : I.isData = true) (M : Memory) (Ad : Address)
    (ea v : RegVal) :
    ¬∀ D, ∃ r, dataAccess I (M.holding D) Ad v = .ok r ∧ r.1 = M.holding D ∧ r.2.getD ea = ea := by
  intro h
  cases hs : I.isSType with
  | true => exact suppressed_ne hs M Ad v fun D => (h D).imp fun _ hr => ⟨hr.1, hr.2.1⟩
  | false =>
    rw [Instruction.isData, hs, Bool.or_false] at hI
    have hb : ∀ b : Byte, I.extended (b ++ b ++ b ++ b) = ea := by
      intro b
      obtain ⟨r, hr, -, hea⟩ := h fun _ => b
      rwa [dataAccess_const hI rfl hr, Option.getD_some] at hea
    exact extended_ne hI ((hb 0).trans (hb 1).symm)

/-- **When the pipeline's loads and stores are at the effective address.** -/
theorem pipeline_addresses_iff (hI : I.isData = true) (h : Accessing S A I) (hM : A.Mem.In32) :
    PipelineAddresses S A I ↔ PipelineReaches S A I := by
  constructor
  · intro hA
    have hself := hA.access A.Mem.DRAM
    rw [h.memoryaccess_eq hI, Memory.holding_self] at hself
    have hne : S.dataAd I ≠ consoleAd := by
      intro hcon
      rw [if_pos hcon] at hself
      obtain ⟨r, -, hr⟩ := map_eq_ok hself.symm
      have hcerr := congrArg (fun B : RIPSimulator σ => B.cerr.length) hr
      change A.cerr.length = (A.cerr ++ [_]).length at hcerr
      rw [List.length_append, List.length_singleton] at hcerr
      omega
    have hmode : A.Mode ≠ .Epilogue := by
      intro hm
      refine untouched_ne hI A.Mem ((S.dataAd I).setWidth 64) (S.dataAd I) S.PS.DERs2Val
        fun D => ?_
      have hD := hA.access D
      rw [h.memoryaccess_eq hI, if_neg hne, if_pos hm] at hD
      obtain ⟨r, hr, hc⟩ := map_eq_ok hD.symm
      exact ⟨r, hr, congrArg (·.Mem) hc, congrArg (fun B : RIPSimulator σ => B.PS.MARdVal) hc⟩
    refine ⟨hne, hmode, fun hlw => ?_⟩
    rw [if_neg hne, if_neg hmode, if_pos hlw] at hself
    exact (dataAccess_signExtend_iff hI hM _ _ _).mp hself
  · intro hR
    have haccess : ∀ D, (A.holding D).memoryaccess = A.complete (S.dataAd I) <$>
        dataAccess I (A.Mem.holding D) ((S.dataAd I).setWidth 64) S.PS.DERs2Val := by
      intro D
      rw [h.memoryaccess_eq hI, if_neg hR.console, if_neg hR.mode]
      by_cases hlw : I.getMnemo = .I .lw
      · rw [if_pos hlw]
        exact (dataAccess_signExtend_iff hI (M := A.Mem.holding D) hM _ _ _).mpr (hR.word hlw)
      · rw [if_neg hlw]
    refine ⟨haccess, fun hs hC => ?_⟩
    have hst := haccess A.Mem.DRAM
    rw [Memory.holding_self, dataAccess_store hs hC] at hst
    refine ⟨_, hst, fun T A' L hT hL hw hg hea hRL => ?_⟩
    change A'.Mem = A.Mem.store _ _ _ at hg
    have hLC : A'.Mem.Contains ((T.dataAd L).setWidth 64) L.width := by
      rw [hg, hea, hw]
      exact ⟨hC.base, hC.size⟩
    have hLdata : L.isData = true := by
      rw [Instruction.isData, hL, Bool.true_or]
    -- the address of an `lw` has no sign here
    have had : (if L.getMnemo = .I .lw then (T.dataAd L).signExtend 64
        else (T.dataAd L).setWidth 64) = (T.dataAd L).setWidth 64 := by
      split_ifs with hlw
      · exact signExtend_eq_setWidth ((hRL.word hlw).lt hLC)
      · rfl
    have hload := hT.memoryaccess_eq hLdata A'.Mem.DRAM
    rw [Memory.holding_self, if_neg hRL.console, if_neg hRL.mode, had] at hload
    refine hload.trans ?_
    rw [hea, hg, ← hw, dataAccess_stored hL (hw ▸ hC)]
    rfl

end RIPSimulator

/-! ## Both simulators -/

/-- **When loads and stores are at the effective address.**  In the interpreter, where the
address is below `2 ^ 31` or past the DRAM, and a store not at the console and not in
Epilogue mode.  In the pipeline, where the address is not that of the console and the mode
not Epilogue, and an `lw` at an address below `2 ^ 31` or past the DRAM. -/
theorem data_addresses_iff {I : Instruction} (hI : I.isData = true) :
    (∀ h : Hart, h.Mem.In32 → (InterpreterAddresses h I ↔ InterpreterReaches h I)) ∧
      ∀ {σ : Type} [BranchPredictor σ] {S A : RIPSimulator σ}, Accessing S A I → A.Mem.In32 →
        (PipelineAddresses S A I ↔ PipelineReaches S A I) :=
  ⟨fun _ hM => interpreter_addresses_iff hI hM, fun hA hM => pipeline_addresses_iff hI hA hM⟩

/-- A machine with 128 bytes of DRAM at `base` and this value in `x1`. -/
def dataHart (base : Address) (x1 : RegVal) : Hart where
  PC := 0
  GPRegs := (GPRegisters.new 128 base none).write 1 x1
  Mem := Memory.new 128 base
  States := CSRs.new
  Mode := .Machine
  cerr := []

/-- `sw x1, 64(x0)` in both simulators, behind `addi x1, x0, 7` in the pipeline. -/
theorem data_addresses_iff_sw :
    InterpreterAddresses (dataHart 0 7) (.SInstruction .sw 0 1 64) ∧
      ∃ S A : RIPSimulator OneBitBranchPredictor, Accessing S A (.SInstruction .sw 0 1 64) ∧
        PipelineAddresses S A (.SInstruction .sw 0 1 64) := by
  have h : ((after 3 (boot [0x00700093, 0x04102023] none :
      RIPSimulator OneBitBranchPredictor)).bind fun S =>
      (after 1 S).bind fun S₁ => S₁.advance.toOption.map fun A =>
        (S.entering, S.dataAd (.SInstruction .sw 0 1 64), A.Mode, A.Mem.DRAMBase, A.Mem.DRAMSize)) =
      some (some (.SInstruction .sw 0 1 64), 64, .Machine, 0, 128) := by
    decide +kernel
  obtain ⟨S, hS, h⟩ := Option.bind_eq_some_iff.mp h
  obtain ⟨S₁, hS₁, h⟩ := Option.bind_eq_some_iff.mp h
  obtain ⟨A, hA, heq⟩ := Option.map_eq_some_iff.mp h
  simp only [Prod.mk.injEq] at heq
  obtain ⟨hI, had, hmode, hbase, hsize⟩ := heq
  obtain ⟨_, hMem, hMode, _⟩ := A.written_frame
  have hright := data_addresses_iff (I := .SInstruction .sw 0 1 64) rfl
  have hacc : Accessing S A.written (.SInstruction .sw 0 1 64) :=
    ⟨reachable_after hS, hI, S₁, A, next_of_after_one hS₁, ok_of_toOption hA, rfl⟩
  refine ⟨(hright.1 (dataHart 0 7) (by decide)).mpr ⟨.inl (by decide), by decide⟩, S, A.written,
    hacc, (hright.2 hacc ?_).mpr ⟨?_, ?_, nofun⟩⟩
  · rw [Memory.In32, hMem, hbase, hsize]
    decide
  · rw [had]
    decide
  · rw [hMode, hmode]
    decide

/-- `lw x2, 0(x1)` with `x1` at the first byte of a DRAM at `2 ^ 31` is not carried out there:
the address is extended with ones, and the access is rejected. -/
theorem lw_from_upper_half :
    ¬InterpreterAddresses (dataHart 0x80000000 0x80000000) (.IInstruction .lw 2 1 0) ∧
      (Instruction.IInstruction .lw 2 1 0).exec (dataHart 0x80000000 0x80000000) =
        .error .biggerThanDRAMSize := by
  constructor
  · intro h
    rcases ((interpreter_addresses_iff rfl (by decide)).mp h).signless with hs | hs
    · exact absurd hs (by decide)
    · exact absurd hs (by decide)
  · rfl

end RipSim
