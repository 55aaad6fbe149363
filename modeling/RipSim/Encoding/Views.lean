import RipSim.Encoding.Decoded
import RipSim.Pipeline.System

/-!
# The two views of an instruction

The instruction-level simulator executes the members of an object, and the pipeline reads the
fields back out of the word that the decoder's constructor rebuilt from them.  For a decoded word
the two agree on every field (`views_agree`): the register fields where there are any, and the
immediate, for which exactly one accessor applies unless the instruction is of R type.  No
assertion of an accessor fires in the stages that call them (`writeback_asserts`, `exec_asserts`,
`decode_asserts`).
-/

namespace RipSim

open BitField

/-! ## The accessors of the immediate -/

/-- The accessors `getIImm`, `getSImm`, `getBImm`, `getJImm` and `getUImm`. -/
inductive ImmKind where
  | I | S | B | J | U
  deriving DecidableEq, Repr

namespace Instruction

/-- The accessor of a kind. -/
def getImm (Inst : Instruction) : ImmKind → Except Fault (BitVec 32)
  | .I => Inst.getIImm
  | .S => Inst.getSImm
  | .B => Inst.getBImm
  | .J => Inst.getJImm
  | .U => Inst.getUImm

/-- The member `Imm` as an unsigned number, or zero where there is none. -/
def imm : Instruction → BitVec 32
  | IInstruction _ _ _ Imm => Imm.setWidth 32
  | SInstruction _ _ _ Imm => Imm.setWidth 32
  | BInstruction _ _ _ Imm => Imm.setWidth 32
  | JInstruction _ _ Imm => Imm.setWidth 32
  | UInstruction _ _ Imm => Imm.setWidth 32
  | RInstruction .. => 0

/-- The instruction is of R type. -/
def isRType (Inst : Instruction) : Bool := match Inst.getMnemo with | .R _ => true | _ => false

/-- The kind of the immediate. -/
def immKind : Instruction → Option ImmKind
  | IInstruction .. => some .I
  | SInstruction .. => some .S
  | BInstruction .. => some .B
  | JInstruction .. => some .J
  | UInstruction .. => some .U
  | RInstruction .. => none

/-- The accessors of the other kinds fail their assertion. -/
theorem getImm_of_ne {Inst : Instruction} {k : ImmKind} (h : Inst.immKind ≠ some k) :
    Inst.getImm k = .error .noSuchField := by
  cases Inst <;> cases k <;> first | rfl | exact absurd rfl h

/-- The accessor of the kind reads the member, unless the constructor dropped its bit `0`. -/
theorem getImm_of_immKind {Inst : Instruction} {k : ImmKind} (heven : Inst.EvenImm)
    (h : Inst.immKind = some k) : Inst.getImm k = .ok Inst.imm := by
  cases Inst with
  | IInstruction IT Rd Rs1 Imm =>
    cases h
    exact getIImm_eq IT Rd Rs1 Imm
  | SInstruction ST Rs1 Rs2 Imm =>
    cases h
    exact getSImm_eq ST Rs1 Rs2 Imm
  | BInstruction BT Rs1 Rs2 Imm =>
    cases h
    have hImm : Imm &&& ~~~1#13 = Imm := heven
    exact (getBImm_eq BT Rs1 Rs2 Imm).trans (by rw [hImm]; rfl)
  | JInstruction JT Rd Imm =>
    cases h
    have hImm : Imm &&& ~~~1#21 = Imm := heven
    exact (getJImm_eq JT Rd Imm).trans (by rw [hImm]; rfl)
  | UInstruction UT Rd Imm =>
    cases h
    exact getUImm_eq UT Rd Imm
  | RInstruction => simp [immKind] at h

/-! ## The register fields as the source returns them -/

/-- A field of the word, unsigned, from its low bits. -/
theorem field_raw {n : ℕ} (v m : BitVec 32) (lo : ℕ) {x : BitVec n}
    (hm : ∀ i < 32, m.getLsbD i = decide (lo ≤ i ∧ i < lo + n)) (hn : lo + n ≤ 32)
    (h : ((v &&& m) >>> lo).setWidth n = x) : (v &&& m) >>> lo = x.setWidth 32 := by
  have hones : ∀ i < n, m.getLsbD (lo + i) = true := fun i hi => by
    rw [hm (lo + i) (by omega), decide_eq_true (by omega)]
  rw [and_ushiftRight v m lo n hm, ← setWidth_and_ushiftRight v m lo n hones, h]

/-- The members of an instruction and what the accessors read back from its word. -/
structure ViewsAgree (I : Instruction) : Prop where
  rd : I.hasRd = true → I.getRd = .ok I.rd
  rs1 : I.hasRs1 = true → I.getRs1 = .ok I.rs1
  rs2 : I.hasRs2 = true → I.getRs2 = .ok I.rs2
  /-- `getRd` returns an `unsigned`, which is the member too. -/
  rd_raw : I.hasRd = true → (I.getVal &&& 0x00000f80#32) >>> 7 = I.rd.setWidth 32
  rs1_raw : I.hasRs1 = true → (I.getVal &&& 0x000f8000#32) >>> 15 = I.rs1.setWidth 32
  rs2_raw : I.hasRs2 = true → (I.getVal &&& 0x01f00000#32) >>> 20 = I.rs2.setWidth 32
  /-- One accessor reads the immediate, and the others do not apply. -/
  imm : I.isRType = false → ∃ k, I.immKind = some k ∧ I.getImm k = .ok I.imm ∧
    ∀ l, l ≠ k → I.getImm l = .error .noSuchField
  /-- None applies to an instruction of R type. -/
  no_imm : I.isRType = true → ∀ k, I.getImm k = .error .noSuchField

theorem immKind_of_not_isRType {Inst : Instruction} (h : Inst.isRType = false) :
    ∃ k, Inst.immKind = some k := by
  cases Inst with
  | RInstruction => exact absurd h.symm Bool.false_ne_true
  | _ => exact ⟨_, rfl⟩

theorem immKind_of_isRType {Inst : Instruction} (h : Inst.isRType = true) :
    Inst.immKind = none := by
  cases Inst with
  | RInstruction => rfl
  | _ => exact absurd h Bool.false_ne_true

/-- The views of an object agree when its immediate has no bit that the word drops. -/
theorem viewsAgree_of_evenImm {I : Instruction} (heven : I.EvenImm) : ViewsAgree I where
  rd := getRd_eq
  rs1 := getRs1_eq
  rs2 := getRs2_eq
  rd_raw h := field_raw _ _ 7 (by decide) (by decide) (rd_field h)
  rs1_raw h := field_raw _ _ 15 (by decide) (by decide) (rs1_field h)
  rs2_raw h := field_raw _ _ 20 (by decide) (by decide) (rs2_field h)
  imm h := by
    obtain ⟨k, hk⟩ := immKind_of_not_isRType h
    refine ⟨k, hk, getImm_of_immKind heven hk, fun l hl => getImm_of_ne ?_⟩
    rw [hk]
    exact fun hkl => hl (Option.some.inj hkl).symm
  no_imm h k := getImm_of_ne (by simp [immKind_of_isRType h])

end Instruction

/-! ## The assertions in the stages -/

namespace RIPSimulator

variable {σ : Type}

theorem writeback_asserts (S : RIPSimulator σ) : S.writeback ≠ .error .noSuchField := by
  simp [writeback_eq]

theorem decode_asserts [BranchPredictor σ] (S : RIPSimulator σ) :
    S.decode ≠ .error .noSuchField := by
  simp [decode_eq]

/-- `exec` asks an instruction only for the fields that it has. -/
theorem exec_asserts [BranchPredictor σ] (S : RIPSimulator σ) : S.exec ≠ .error .noSuchField := by
  cases hEX : S.PS.Insts.EX with
  | none => simp [exec, hEX]
  | some I =>
    cases hp : I.isPlain with
    | true => simp [exec_eq S hEX hp]
    | false =>
      cases I with
      | IInstruction IT Rd Rs1 Imm =>
        have hexec : S.exec = S.execI (.IInstruction IT Rd Rs1 Imm) IT := by
          rw [exec, hEX]
          rfl
        rw [hexec]
        cases IT with
        | ecall | ebreak | ext | extx | uret | sret => simp [execI]
        | mret => simp [execI, execMret_eq]
        | _ => exact absurd hp.symm Bool.false_ne_true
      | _ => exact absurd hp.symm Bool.false_ne_true

/-- No assertion of an accessor fires in the stages that call them. -/
structure NoAssertion [BranchPredictor σ] (S : RIPSimulator σ) : Prop where
  decode : S.decode ≠ .error .noSuchField
  exec : S.exec ≠ .error .noSuchField
  writeback : S.writeback ≠ .error .noSuchField

end RIPSimulator

/-- **The two views of a decoded word agree**, and whatever instructions are in the pipeline, no
assertion of an accessor fires. -/
theorem views_agree {w : BitVec 32} {I : Instruction} (h : Decoder.decode w = some I) :
    I.ViewsAgree ∧ ∀ (σ : Type) [BranchPredictor σ] (S : RIPSimulator σ), S.NoAssertion :=
  ⟨Instruction.viewsAgree_of_evenImm (Decoder.decode_even w I h),
    fun _ _ S => ⟨S.decode_asserts, S.exec_asserts, S.writeback_asserts⟩⟩

/-- `beq x1, x2, -4`, whose immediate is in four pieces of the word. -/
theorem views_agree_beq : Decoder.decode 0xfe208ee3 = some (.BInstruction .beq 1 2 (-4)) ∧
    (Instruction.BInstruction .beq 1 2 (-4)).ViewsAgree ∧
    ∀ (σ : Type) [BranchPredictor σ] (S : RIPSimulator σ), S.NoAssertion :=
  ⟨by decide, views_agree (w := 0xfe208ee3) (by decide)⟩

end RipSim
