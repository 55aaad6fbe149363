import RipSim.Pipeline.Pending
import RipSim.Reference.Bytes

/-!
# The sequential reference

What the pipeline is compared with: instructions executed one at a time by
`Instruction::exec`, each to its end before the next is fetched.  The six csr
instructions are given their old/set/clear meaning, which `exec` misses for two of
them.

`Supported` collects what the comparison asks of one instruction, and `Admitted` what its
proofs need, which leaves room for stores to the console.  The main result is
`execRef_effect`: it says in the pipeline's own terms, the value of the execute stage and
the result of the memory stage, what one instruction does.
-/

namespace RipSim

open RIPSimulator

/-! ## One instruction -/

/-- The value a csr instruction writes, from its source and the old value. -/
def ITypeKinds.csrUpdate (IT : ITypeKinds) (src old : RegVal) : RegVal :=
  match IT with
  | .csrrw | .csrrwi => src
  | .csrrs | .csrrsi => old ||| src
  | .csrrc | .csrrci => old &&& ~~~src
  | _ => old

/-- The source of a csr instruction: the field itself in the immediate forms. -/
def Hart.csrSource (h : Hart) (IT : ITypeKinds) (Rs1 : BitVec 5) : RegVal :=
  match IT with
  | .csrrwi | .csrrsi | .csrrci => Rs1.setWidth 32
  | _ => h.GPRegs Rs1

/-- `Instruction::exec`, with old/set/clear semantics for the csr instructions. -/
def Instruction.execRef (I : Instruction) (h : Hart) : Except Fault (Option Exception × Hart) :=
  match I with
  | IInstruction IT Rd Rs1 Imm =>
    if IT.isCSR then
      .ok (none, h.writeCSRRd Imm (IT.csrUpdate (h.csrSource IT Rs1) (h.States.read Imm)) Rd
        (h.States.read Imm))
    else I.exec h
  | _ => I.exec h

namespace Hart

/-- The instruction at the PC, `none` for an undecodable word. -/
def fetch (h : Hart) : Except Fault (Option Instruction) := Decoder.decode <$> h.Mem.readWord h.PC

variable (h : Hart) (I : Instruction)

/-- The first operand. -/
def op1 : RegVal := if isCSRImm I then I.rs1.setWidth 32 else h.GPRegs I.rs1

/-- The second operand. -/
def op2 : RegVal := h.GPRegs I.rs2

/-- The old value of the CSR. -/
def opCSR : RegVal := h.States.read I.csrAddr

/-- The value of the execute stage: the result, or the address of an access. -/
def value : RegVal := I.exRd h.PC (h.op1 I) (h.op2 I) (h.opCSR I) I.immVal

/-- The new value of the CSR. -/
def csrValue : RegVal := I.exCSR (h.op1 I) (h.opCSR I)

/-- The result: the loaded value of a load, else the value of the execute stage. -/
def result : RegVal :=
  match RIPSimulator.access h.Mem I (h.value I) (h.op2 I) with
  | .ok (_, r) => r
  | .error _ => h.value I

/-- The memory and the result of the access stage, which does nothing at the console address. -/
def access : Except Fault (Memory × RegVal) :=
  if h.value I = consoleAd then .ok (h.Mem, h.value I)
  else RIPSimulator.access h.Mem I (h.value I) (h.op2 I)

/-- The character of a store to the console. -/
def stored : List Byte :=
  if I.isSType = true ∧ h.value I = consoleAd then [(h.op2 I).setWidth 8] else []

/-- The address of the next instruction. -/
def nextPC : Address :=
  match I with
  | .IInstruction .jalr _ _ _ => (h.op1 I + I.immVal).signExtend 64
  | .JInstruction .jal _ Imm => h.PC + (Imm.signExtend 32).signExtend 64
  | .BInstruction _ _ _ Imm =>
    if I.taken (h.op1 I) (h.op2 I) then h.PC + (Imm.signExtend 32).signExtend 64 else h.PC + 4
  | _ => h.PC + 4

end Hart

/-! ## What the comparison asks of an instruction -/

/-- The instruction is in the domain of the comparison, in the machine state `h`. -/
structure Supported (I : Instruction) (h : Hart) : Prop where
  /-- Neither a system nor a custom instruction. -/
  plain : I.isPlain = true
  /-- A csr instruction is not on a counter. -/
  csr : I.isCSR = true → I.csrAddr ∉ counters
  /-- The offset of a `jal` is in `[-2^19, 2^19)`. -/
  jal : ∀ Rd Imm, I = .JInstruction .jal Rd Imm → -2 ^ 19 ≤ Imm.toInt ∧ Imm.toInt < 2 ^ 19
  /-- The sum of a `jalr` is even. -/
  jalr : ∀ Rd Rs1 Imm, I = .IInstruction .jalr Rd Rs1 Imm →
    (h.GPRegs Rs1 + Imm.signExtend 32).getLsbD 0 = false
  /-- A data access is below `2^31` and not at the console address. -/
  data : I.isLoad = true ∨ I.isSType = true →
    (h.value I).toNat < 2 ^ 31 ∧ h.value I ≠ consoleAd
  /-- A data access lies in the DRAM: no assertion of the memory fails. -/
  access : ∃ p, I.execRef h = .ok p

/-- What the proofs ask of an instruction: a store may also be to the console. -/
structure Admitted (I : Instruction) (h : Hart) : Prop where
  plain : I.isPlain = true
  csr : I.isCSR = true → I.csrAddr ∉ counters
  jal : ∀ Rd Imm, I = .JInstruction .jal Rd Imm → -2 ^ 19 ≤ Imm.toInt ∧ Imm.toInt < 2 ^ 19
  jalr : ∀ Rd Rs1 Imm, I = .IInstruction .jalr Rd Rs1 Imm →
    (h.GPRegs Rs1 + Imm.signExtend 32).getLsbD 0 = false
  low : I.isLoad = true ∨ I.isSType = true → (h.value I).toNat < 2 ^ 31
  load : I.isLoad = true → h.value I ≠ consoleAd
  access : ∃ p, I.execRef h = .ok p

theorem Supported.admitted {I : Instruction} {h : Hart} (hs : Supported I h) : Admitted I h where
  plain := hs.plain
  csr := hs.csr
  jal := hs.jal
  jalr := hs.jalr
  low hI := (hs.data hI).1
  load hl := (hs.data (.inl hl)).2
  access := hs.access

/-- An instruction that only computes: no jump, no csr, no data access. -/
theorem Supported.of_computes {I : Instruction} {h : Hart} (hplain : I.isPlain = true)
    (hcsr : I.isCSR = false) (hjump : I.isJump = false) (hdata : (I.isLoad || I.isSType) = false)
    (haccess : ∃ p, I.execRef h = .ok p) : Supported I h where
  plain := hplain
  csr hI := absurd (hcsr.symm.trans hI) Bool.false_ne_true
  jal Rd Imm hI := by
    subst hI
    exact absurd hjump.symm Bool.false_ne_true
  jalr Rd Rs1 Imm hI := by
    subst hI
    exact absurd hjump.symm Bool.false_ne_true
  data hI := by
    rw [← Bool.or_eq_true, hdata] at hI
    exact absurd hI Bool.false_ne_true
  access := haccess

/-- A csr instruction on a CSR that does not count. -/
theorem Admitted.of_isCSR {I : Instruction} (h : Hart) (hc : I.isCSR = true)
    (ha : I.csrAddr ∉ counters) : Admitted I h := by
  cases I with
  | IInstruction IT Rd Rs1 Imm =>
    cases IT with
    | csrrw | csrrs | csrrc | csrrwi | csrrsi | csrrci =>
      exact ⟨rfl, fun _ => ha, nofun, nofun,
        fun hm => hm.elim (absurd · Bool.false_ne_true) (absurd · Bool.false_ne_true), nofun,
        ⟨_, rfl⟩⟩
    | _ => exact absurd hc Bool.false_ne_true
  | _ => exact absurd hc Bool.false_ne_true

/-- A shift count is read off the low five bits, which sign extension keeps. -/
theorem signExtend_toNat_mod (x : BitVec 12) : (x.signExtend 32).toNat % 32 = x.toNat % 32 := by
  have h : (x.signExtend 32).setWidth 5 = x.setWidth 5 := by
    apply BitVec.eq_of_getLsbD_eq
    intro i hi
    rw [BitVec.getLsbD_setWidth, BitVec.getLsbD_setWidth, BitVec.getLsbD_signExtend,
      if_pos (by omega), decide_eq_true (by omega : i < 32), Bool.true_and]
  have h' := congrArg BitVec.toNat h
  rwa [BitVec.toNat_setWidth, BitVec.toNat_setWidth] at h'

theorem and_not_one_of_even {v : RegVal} (h : v.getLsbD 0 = false) : v &&& ~~~1#32 = v := by
  apply BitVec.eq_of_getLsbD_eq
  intro i hi
  rw [BitVec.getLsbD_and]
  cases i with
  | zero => rw [h, Bool.false_and]
  | succ i =>
    have hm : ∀ j, j + 1 < 32 → (~~~1#32).getLsbD (j + 1) = true := by
      intro j hj
      have : ∀ k < 32, k ≠ 0 → (~~~1#32).getLsbD k = true := by decide
      exact this (j + 1) hj (by omega)
    rw [hm i hi, Bool.and_true]

/-! ## The effect of one instruction -/

/-- What an instruction does, in the pipeline's terms. -/
structure Effect (I : Instruction) (h h' : Hart) : Prop where
  PC : h'.PC = h.nextPC I
  GPRegs : h'.GPRegs = if I.hasRd then h.GPRegs.write I.rd (h.result I) else h.GPRegs
  States : h'.States = csrWrite h.States (some I) (h.csrValue I)
  Mode : h'.Mode = h.Mode
  Mem : h.access I = .ok (h'.Mem, h.result I)
  cerr : h'.cerr = h.cerr ++ h.stored I

/-- What is neither a load nor a store leaves the memory alone. -/
theorem access_of_other {I : Instruction} (M : Memory) (a r : RegVal) (hl : I.isLoad = false)
    (hs : I.isSType = false) : RIPSimulator.access M I a r = .ok (M, a) := by
  cases I with
  | SInstruction => exact absurd hs.symm Bool.false_ne_true
  | IInstruction IT => cases IT <;> first | rfl | exact absurd hl.symm Bool.false_ne_true
  | _ => rfl

theorem Hart.access_of_other {I : Instruction} (h : Hart) (hl : I.isLoad = false)
    (hs : I.isSType = false) : h.access I = .ok (h.Mem, h.result I) := by
  unfold Hart.access Hart.result
  rw [RipSim.access_of_other _ _ _ hl hs, ite_self]

/-- The result of a store is its address. -/
theorem Hart.result_of_isSType {I : Instruction} (h : Hart) (hs : I.isSType = true) :
    h.result I = h.value I := by
  have hmap : ∀ r : Except Fault Memory, (match (r >>= fun M => Except.ok (M, h.value I) :
      Except Fault (Memory × RegVal)) with
      | .ok (_, v) => v
      | .error _ => h.value I) = h.value I := by
    intro r
    cases r <;> rfl
  cases I with
  | SInstruction ST => cases ST <;> exact hmap _
  | _ => exact absurd hs Bool.false_ne_true

/-- Only a store is written to the console. -/
theorem Hart.stored_of_other {I : Instruction} (h : Hart) (hs : I.isSType = false) :
    h.stored I = [] :=
  if_neg fun hI => absurd (hs.symm.trans hI.1) Bool.false_ne_true

theorem Hart.cerr_of_other {I : Instruction} (h : Hart) (hs : I.isSType = false) :
    h.cerr = h.cerr ++ h.stored I := by
  rw [h.stored_of_other hs, List.append_nil]

/-- What is neither a load nor a store: its effect is in the registers and the PC. -/
theorem effect_other {I : Instruction} {h h' : Hart} (hl : I.isLoad = false)
    (hs : I.isSType = false) (hPC : h'.PC = h.nextPC I)
    (hGP : h'.GPRegs = if I.hasRd then h.GPRegs.write I.rd (h.value I) else h.GPRegs)
    (hSt : h'.States = csrWrite h.States (some I) (h.csrValue I))
    (hrest : h'.Mode = h.Mode ∧ h'.Mem = h.Mem ∧ h'.cerr = h.cerr) : Effect I h h' where
  PC := hPC
  GPRegs := by
    rw [hGP, Hart.result, RipSim.access_of_other _ _ _ hl hs]
  States := hSt
  Mode := hrest.1
  Mem := hrest.2.1 ▸ h.access_of_other hl hs
  cerr := hrest.2.2.trans (h.cerr_of_other hs)

/-- A load: what is read is the result. -/
theorem effect_load {IT : ITypeKinds} {Rd Rs1 : BitVec 5} {Imm : BitVec 12} {h h' : Hart} {w : ℕ}
    {r : Except Fault (BitVec w)} {f : BitVec w → RegVal} (hIT : IT.isLoad = true)
    (hc : h.value (.IInstruction IT Rd Rs1 Imm) ≠ consoleAd)
    (ha : RIPSimulator.access h.Mem (.IInstruction IT Rd Rs1 Imm)
      (h.value (.IInstruction IT Rd Rs1 Imm)) (h.op2 (.IInstruction IT Rd Rs1 Imm)) =
        r >>= fun V => .ok (h.Mem, f V))
    (he : (r >>= fun V => .ok (none, h.writeRd Rd (f V)) :
      Except Fault (Option Exception × Hart)) = .ok (none, h')) :
    Effect (.IInstruction IT Rd Rs1 Imm) h h' := by
  obtain ⟨V, rfl, he⟩ := bind_eq_ok he
  injection he with he
  injection he with _ he
  subst he
  have hr : h.result (.IInstruction IT Rd Rs1 Imm) = f V := by
    rw [Hart.result, ha]
    rfl
  constructor
  · cases IT <;> first | rfl | exact absurd hIT Bool.false_ne_true
  · rw [hr]
    rfl
  · cases IT <;> first | rfl | exact absurd hIT Bool.false_ne_true
  · rfl
  · rw [hr, Hart.access, if_neg hc, ha]
    rfl
  · exact h.cerr_of_other rfl

/-- A store that is not to the console. -/
theorem effect_store {ST : STypeKinds} {Rs1 Rs2 : BitVec 5} {Imm : BitVec 12} {h h' : Hart}
    {r : Except Fault Memory} (hc : h.value (.SInstruction ST Rs1 Rs2 Imm) ≠ consoleAd)
    (ha : RIPSimulator.access h.Mem (.SInstruction ST Rs1 Rs2 Imm)
      (h.value (.SInstruction ST Rs1 Rs2 Imm)) (h.op2 (.SInstruction ST Rs1 Rs2 Imm)) =
        r >>= fun M => .ok (M, h.value (.SInstruction ST Rs1 Rs2 Imm)))
    (he : (r >>= fun M => .ok (none, { h with Mem := M, PC := h.PC + 4 }) :
      Except Fault (Option Exception × Hart)) = .ok (none, h')) :
    Effect (.SInstruction ST Rs1 Rs2 Imm) h h' := by
  obtain ⟨M, rfl, he⟩ := bind_eq_ok he
  injection he with he
  injection he with _ he
  subst he
  refine ⟨rfl, rfl, rfl, rfl, ?_, ?_⟩
  · rw [h.result_of_isSType rfl, Hart.access, if_neg hc, ha]
    rfl
  · rw [Hart.stored, if_neg fun hI => hc hI.2, List.append_nil]

/-- A store to the console. -/
theorem effect_stored {ST : STypeKinds} {Rs1 Rs2 : BitVec 5} {Imm : BitVec 12} {h : Hart}
    (hc : h.value (.SInstruction ST Rs1 Rs2 Imm) = consoleAd) :
    Effect (.SInstruction ST Rs1 Rs2 Imm) h
      { h with cerr := h.cerr ++ [(h.GPRegs Rs2).setWidth 8], PC := h.PC + 4 } := by
  refine ⟨rfl, rfl, rfl, rfl, ?_, ?_⟩
  · rw [h.result_of_isSType rfl, Hart.access, if_pos hc]
  · rw [Hart.stored, if_pos ⟨rfl, hc⟩]
    rfl

/-- **The effect of an admitted instruction.** -/
theorem execRef_effect {I : Instruction} {h h' : Hart} (hs : Admitted I h)
    (hm : h.Mode ≠ .Epilogue) (he : I.execRef h = .ok (none, h')) : Effect I h h' := by
  cases I with
  | IInstruction IT Rd Rs1 Imm =>
    -- the value of a load is its address
    have haddr : IT.isLoad = true → (h.GPRegs Rs1 + Imm.signExtend 32).toNat < 2 ^ 31 := by
      intro hl
      have := hs.low (.inl hl)
      cases IT <;> first | exact this | exact absurd hl Bool.false_ne_true
    cases IT with
    | lb =>
      change (h.Mem.readByte _ >>= _) = _ at he
      rw [signExtend_eq_setWidth (haddr rfl)] at he
      exact effect_load rfl (hs.load rfl) rfl he
    | lh =>
      change (h.Mem.readHalfWord _ >>= _) = _ at he
      rw [signExtend_eq_setWidth (haddr rfl)] at he
      exact effect_load rfl (hs.load rfl) rfl he
    | lw => exact effect_load (f := id) rfl (hs.load rfl) rfl he
    | lbu =>
      change (h.Mem.readByte _ >>= _) = _ at he
      rw [signExtend_eq_setWidth (haddr rfl)] at he
      exact effect_load rfl (hs.load rfl) rfl he
    | lhu =>
      change (h.Mem.readHalfWord _ >>= _) = _ at he
      rw [signExtend_eq_setWidth (haddr rfl)] at he
      exact effect_load rfl (hs.load rfl) rfl he
    | jalr =>
      injection he with he
      injection he with _ he
      subst he
      refine effect_other rfl rfl ?_ rfl rfl ⟨rfl, rfl, rfl⟩
      change ((h.GPRegs Rs1 + Imm.signExtend 32) &&& ~~~1#32).signExtend 64 = _
      rw [and_not_one_of_even (hs.jalr _ _ _ rfl)]
      rfl
    | slli =>
      injection he with he
      injection he with _ he
      subst he
      refine effect_other rfl rfl rfl ?_ rfl ⟨rfl, rfl, rfl⟩
      change _ = h.GPRegs.write Rd (h.GPRegs Rs1 <<< ((Imm.signExtend 32).toNat % 32))
      rw [signExtend_toNat_mod]
      rfl
    | srli =>
      injection he with he
      injection he with _ he
      subst he
      refine effect_other rfl rfl rfl ?_ rfl ⟨rfl, rfl, rfl⟩
      change _ = h.GPRegs.write Rd (h.GPRegs Rs1 >>> ((Imm.signExtend 32).toNat % 32))
      rw [signExtend_toNat_mod]
      rfl
    | srai =>
      injection he with he
      injection he with _ he
      subst he
      refine effect_other rfl rfl rfl ?_ rfl ⟨rfl, rfl, rfl⟩
      change _ = h.GPRegs.write Rd ((h.GPRegs Rs1).sshiftRight ((Imm.signExtend 32).toNat % 32))
      rw [signExtend_toNat_mod]
      rfl
    | ecall | ebreak | uret | sret | mret | ext | extx =>
      exact absurd hs.plain Bool.false_ne_true
    | _ =>
      injection he with he
      injection he with _ he
      subst he
      exact effect_other rfl rfl rfl rfl rfl ⟨rfl, rfl, rfl⟩
  | RInstruction RT Rd Rs1 Rs2 =>
    injection he with he
    injection he with _ he
    subst he
    exact effect_other rfl rfl rfl rfl rfl ⟨rfl, rfl, rfl⟩
  | UInstruction UT Rd Imm =>
    cases UT <;>
    · injection he with he
      injection he with _ he
      subst he
      exact effect_other rfl rfl rfl rfl rfl ⟨rfl, rfl, rfl⟩
  | JInstruction JT Rd Imm =>
    cases JT
    injection he with he
    injection he with _ he
    subst he
    exact effect_other rfl rfl rfl rfl rfl ⟨rfl, rfl, rfl⟩
  | SInstruction ST Rs1 Rs2 Imm =>
    have ha := hs.low (.inr rfl)
    change (h.GPRegs Rs1 + Imm.signExtend 32).toNat < 2 ^ 31 at ha
    change h.execS ST Rs1 Rs2 Imm = _ at he
    unfold Hart.execS at he
    dsimp only at he
    rw [signExtend_eq_setWidth ha, BitVec.setWidth_setWidth_of_le _ (by decide),
      BitVec.setWidth_eq] at he
    by_cases hc : h.GPRegs Rs1 + Imm.signExtend 32 = consoleAd
    · rw [if_pos hc] at he
      injection he with he
      injection he with _ he
      exact he ▸ effect_stored hc
    · rw [if_neg hc, if_neg hm] at he
      cases ST with
      | sb => exact effect_store hc rfl he
      | sh => exact effect_store hc rfl he
      | sw => exact effect_store hc rfl he
  | BInstruction BT Rs1 Rs2 Imm =>
    injection he with he
    injection he with _ he
    subst he
    exact effect_other rfl rfl rfl rfl rfl ⟨rfl, rfl, rfl⟩

end RipSim
