import RipSim.Agreement.Passage

/-!
# The csr instructions in both simulators

A csr instruction leaves the old value of the CSR in `rd` and the source, the union with
the source or the difference with the source in the CSR.  The pipeline does this over four
cycles and does it for all six.  `Instruction::exec` does it at once, and uses a logical
where it needs a bitwise negation, so that two of the six come out right only where the
two negations agree.
-/

namespace RipSim

open RIPSimulator

/-- The negation of the source does in `exec` what the bitwise one would do. -/
def ITypeKinds.ClearsRight (IT : ITypeKinds) (src old : RegVal) : Prop :=
  match IT with
  -- `src & !old`, where `!old` is 1 for zero and else 0
  | .csrrc => old &&& ~~~src = 0 ∧ (old = 0 → src.getLsbD 0 = false)
  -- `old & !src`
  | .csrrci => if src = 0 then old = 0 ∨ old = 1 else old &&& ~~~src = 0
  | _ => True

theorem lnot_zero : lnot 0 = 1 := rfl

theorem lnot_of_ne {v : RegVal} (h : v ≠ 0) : lnot v = 0 := by
  rw [lnot, beq_eq_false_iff_ne.mpr h]
  rfl

theorem and_one_eq_zero (v : RegVal) : v &&& 1#32 = 0 ↔ v.getLsbD 0 = false := by
  constructor
  · intro h
    have h0 := congrArg (BitVec.getLsbD · 0) h
    simpa using h0
  · intro h
    apply BitVec.eq_of_getLsbD_eq
    intro i hi
    cases i with
    | zero => simpa using h
    | succ i => simp

theorem and_one_eq_self (v : RegVal) : v &&& 1#32 = v ↔ v = 0 ∨ v = 1 := by
  constructor
  · intro h
    cases hb : v.getLsbD 0 with
    | false => exact .inl (h.symm.trans ((and_one_eq_zero v).mpr hb))
    | true =>
      right
      rw [← h]
      apply BitVec.eq_of_getLsbD_eq
      intro i hi
      cases i with
      | zero => simpa using hb
      | succ i => simp
  · rintro (rfl | rfl) <;> rfl

/-- `rs1 & !CV` of `csrrc`. -/
theorem csrrc_clears (src old : RegVal) :
    src &&& lnot old = old &&& ~~~src ↔ ITypeKinds.csrrc.ClearsRight src old := by
  show _ ↔ old &&& ~~~src = 0 ∧ (old = 0 → src.getLsbD 0 = false)
  by_cases h : old = 0
  · subst h
    have hz : (0 : RegVal) &&& ~~~src = 0 := BitVec.zero_and
    rw [lnot_zero, hz]
    exact (and_one_eq_zero src).trans ⟨fun h => ⟨rfl, fun _ => h⟩, fun h => h.2 rfl⟩
  · have hz : src &&& (0 : RegVal) = 0 := BitVec.and_zero
    rw [lnot_of_ne h, hz]
    exact ⟨fun h' => ⟨h'.symm, fun h0 => absurd h0 h⟩, fun h' => h'.1.symm⟩

/-- `CV & !ZImm` of `csrrci`. -/
theorem csrrci_clears (src old : RegVal) :
    old &&& lnot src = old &&& ~~~src ↔ ITypeKinds.csrrci.ClearsRight src old := by
  show _ ↔ if src = 0 then old = 0 ∨ old = 1 else old &&& ~~~src = 0
  by_cases h : src = 0
  · subst h
    have hones : old &&& ~~~(0 : RegVal) = old := BitVec.and_allOnes
    rw [lnot_zero, if_pos rfl, hones]
    exact and_one_eq_self old
  · have hz : old &&& (0 : RegVal) = 0 := BitVec.and_zero
    rw [lnot_of_ne h, if_neg h, hz]
    exact eq_comm

/-! ## One instruction of the interpreter -/

/-- The write of a csr instruction determines the value written. -/
theorem writeCSRRd_inj (h : Hart) (CA : CSRAddress) (Rd : BitVec 5) (a b v : RegVal) :
    h.writeCSRRd CA a Rd v = h.writeCSRRd CA b Rd v ↔ a = b := by
  constructor
  · intro hab
    have hst := congrFun (congrArg Hart.States hab) CA
    change h.States.write CA a CA = h.States.write CA b CA at hst
    rwa [CSRs.write_self, CSRs.write_self] at hst
  · rintro rfl
    rfl

/-- What `exec` of a csr instruction does, against the old value and the source. -/
theorem exec_csr_iff {IT : ITypeKinds} (hIT : IT.isCSR = true) (Rd Rs1 : BitVec 5)
    (Imm : BitVec 12) (h : Hart) :
    (Instruction.IInstruction IT Rd Rs1 Imm).exec h = .ok (none, h.writeCSRRd Imm
        (IT.csrUpdate (h.csrSource IT Rs1) (h.States.read Imm)) Rd (h.States.read Imm)) ↔
      IT.ClearsRight (h.csrSource IT Rs1) (h.States.read Imm) := by
  have hinj : ∀ a b : RegVal, (Except.ok (none, h.writeCSRRd Imm a Rd (h.States.read Imm)) :
      Except Fault (Option Exception × Hart)) =
        .ok (none, h.writeCSRRd Imm b Rd (h.States.read Imm)) ↔ a = b := by
    intro a b
    rw [Except.ok.injEq, Prod.mk.injEq, writeCSRRd_inj]
    simp
  cases IT with
  | csrrw | csrrwi => exact (hinj _ _).trans ⟨fun _ => trivial, fun _ => rfl⟩
  | csrrs => exact (hinj _ _).trans ⟨fun _ => trivial, fun _ => BitVec.or_comm _ _⟩
  | csrrsi => exact (hinj _ _).trans ⟨fun _ => trivial, fun _ => rfl⟩
  | csrrc => exact (hinj _ _).trans (csrrc_clears _ _)
  | csrrci => exact (hinj _ _).trans (csrrci_clears _ _)
  | _ => exact absurd hIT Bool.false_ne_true

/-! ## The passage through the pipeline -/

namespace RIPSimulator

variable {σ : Type} [BranchPredictor σ]

/-- The cycle from `S` to `S'` writes back the csr instruction `I`: `v` to its register and
`cv` to its CSR, and nothing else is written to the registers in the whole cycle nor to the
CSRs before `exec`. -/
structure WritesBack (S S' : RIPSimulator σ) (I : Instruction) (v cv : RegVal) : Prop where
  inst : S.PS.Insts.MA = some I
  GPRegs : S'.GPRegs = S.GPRegs.write I.rd v
  States : ∀ A B M E, Through S A B M E → B.States = S.States.write I.csrAddr cv

/-- **A csr instruction in the pipeline.**  Whatever is in flight around it, it writes back
the old value it was decoded with and the update of that value with its source. -/
theorem Next.csr_writesBack {S S₁ S₂ S₃ : RIPSimulator σ} {IT : ITypeKinds} {Rd Rs1 : BitVec 5}
    {Imm : BitVec 12} (hS : Reachable S) (hIT : IT.isCSR = true)
    (hI : S.entering = some (.IInstruction IT Rd Rs1 Imm)) (h₁ : Next S S₁) (h₂ : Next S₁ S₂)
    (h₃ : Next S₂ S₃) :
    WritesBack S₂ S₃ (.IInstruction IT Rd Rs1 Imm) S.PS.DECSRVal
      (IT.csrUpdate S.PS.DERs1Val S.PS.DECSRVal) := by
  have hc := hS.clean
  have hc₁ := hc.next h₁
  have hc₂ := hc₁.next h₂
  have hl₂ := (hS.latched.next hc h₁).next hc₁ h₂
  have hp : (Instruction.IInstruction IT Rd Rs1 Imm).isPlain = true :=
    Instruction.isPlain_of_isCSR hIT
  have hload : (Instruction.IInstruction IT Rd Rs1 Imm).isLoad = false := by
    cases IT <;> first | rfl | exact absurd hIT Bool.false_ne_true
  obtain ⟨hEX, hv, hcv, -⟩ := h₁.executed hc hI hp
  obtain ⟨hMA, hcsr⟩ := h₂.csr_moves hc₁
  have hMA' : S₂.PS.Insts.MA = some (.IInstruction IT Rd Rs1 Imm) := hMA.trans hEX
  have hrd : S₂.PS.MARdVal = S.PS.DECSRVal := by
    rw [h₂.passes hc₁ hEX hload rfl, hv]
    cases IT <;> first | rfl | exact absurd hIT Bool.false_ne_true
  have hcv' : S₂.PS.MACSRVal = IT.csrUpdate S.PS.DERs1Val S.PS.DECSRVal := by
    rw [hcsr _ hEX, hcv]
    cases IT <;> first | rfl | exact absurd hIT Bool.false_ne_true
  refine ⟨hMA', ?_, ?_⟩
  · rw [h₃.registers hc₂, hMA', ← hrd]
    rfl
  · intro A B M E ht
    rw [ht.states hc₂ hl₂, drainMA, hMA', ← hcv']
    exact if_pos hIT

/-- The pipeline carries out the csr instruction `IT`, wherever it is executed in a run:
the source is the immediate field or the newest value of the register, the old value is
the CSR with the older writes performed. -/
def CarriesOut (IT : ITypeKinds) (Rd Rs1 : BitVec 5) (Imm : BitVec 12) : Prop :=
  ∀ {σ : Type} [BranchPredictor σ] {S₀ S S₁ S₂ S₃ : RIPSimulator σ}, Reachable S₀ →
    Next S₀ S → Next S S₁ → Next S₁ S₂ → Next S₂ S₃ →
    S.entering = some (.IInstruction IT Rd Rs1 Imm) →
    ∃ States : CSRs, S.States = States.incCYCLE ∧
      let src := if isCSRImm (.IInstruction IT Rd Rs1 Imm) then Rs1.setWidth 32 else S.newest Rs1
      let old := { S with States := States }.olderStates Imm
      WritesBack S₂ S₃ (.IInstruction IT Rd Rs1 Imm) old (IT.csrUpdate src old)

theorem carriesOut {IT : ITypeKinds} (hIT : IT.isCSR = true) (Rd Rs1 : BitVec 5)
    (Imm : BitVec 12) : CarriesOut IT Rd Rs1 Imm := by
  intro σ _ S₀ S S₁ S₂ S₃ hS₀ h₀ h₁ h₂ h₃ hI
  have hS : Reachable S := by
    obtain ⟨T, hT, hr⟩ := hS₀
    exact ⟨T, hT, hr.tail h₀⟩
  obtain ⟨hreg, himm, -, -, States, hSt, hcsr⟩ := h₀.operands hS₀.clean hI
  refine ⟨States, hSt, ?_⟩
  have hold : S.PS.DECSRVal = { S with States := States }.olderStates Imm := hcsr hIT
  dsimp only
  rw [← hold]
  have hsrc : S.PS.DERs1Val =
      if isCSRImm (.IInstruction IT Rd Rs1 Imm) then Rs1.setWidth 32 else S.newest Rs1 := by
    cases hi : isCSRImm (.IInstruction IT Rd Rs1 Imm) with
    | true => exact himm hi
    | false => exact hreg rfl hi
  rw [← hsrc]
  exact h₁.csr_writesBack hS hIT hI h₂ h₃

end RIPSimulator

/-! ## Both simulators -/

/-- **When a csr instruction is read-modify-write in both simulators.**  In the pipeline it
always is; in `exec` it is for the four instructions without a negation, for `csrrc` where
clearing leaves zero and an old zero meets an even source, and for `csrrci` where clearing
leaves zero or both values are as for a single bit. -/
theorem csr_rmw_iff {IT : ITypeKinds} (hIT : IT.isCSR = true) (Rd Rs1 : BitVec 5)
    (Imm : BitVec 12) (h : Hart) :
    ((Instruction.IInstruction IT Rd Rs1 Imm).exec h = .ok (none, h.writeCSRRd Imm
        (IT.csrUpdate (h.csrSource IT Rs1) (h.States.read Imm)) Rd (h.States.read Imm)) ∧
      CarriesOut IT Rd Rs1 Imm) ↔
    IT.ClearsRight (h.csrSource IT Rs1) (h.States.read Imm) :=
  ⟨fun hb => (exec_csr_iff hIT Rd Rs1 Imm h).mp hb.1,
    fun hb => ⟨(exec_csr_iff hIT Rd Rs1 Imm h).mpr hb, carriesOut hIT Rd Rs1 Imm⟩⟩

/-- A machine at the reset state, but for one register and one CSR. -/
def csrHart (x2 mscratch : RegVal) : Hart where
  PC := 0
  GPRegs := (GPRegisters.new 16 0 none).write 2 x2
  Mem := Memory.new 16 0
  States := CSRs.new.write 0x340 mscratch
  Mode := .Machine
  cerr := []

/-- `csrrc x1, mscratch, x2` that clears all that is set. -/
theorem csr_rmw_iff_clear_all :
    ((Instruction.IInstruction .csrrc 1 2 0x340).exec (csrHart 7 3) =
        .ok (none, (csrHart 7 3).writeCSRRd 0x340 (ITypeKinds.csrrc.csrUpdate
          ((csrHart 7 3).csrSource .csrrc 2) ((csrHart 7 3).States.read 0x340)) 1
          ((csrHart 7 3).States.read 0x340)) ∧
      CarriesOut .csrrc 1 2 0x340) ↔
    ITypeKinds.csrrc.ClearsRight ((csrHart 7 3).csrSource .csrrc 2)
      ((csrHart 7 3).States.read 0x340) :=
  csr_rmw_iff rfl 1 2 0x340 (csrHart 7 3)

/-- `csrrc x1, mscratch, x2` with 3 in the CSR and 1 in `x2` leaves 0 in the CSR and not
2. -/
theorem csrrc_clears_too_much :
    ¬(Instruction.IInstruction .csrrc 1 2 0x340).exec (csrHart 1 3) =
        .ok (none, (csrHart 1 3).writeCSRRd 0x340 (ITypeKinds.csrrc.csrUpdate
          ((csrHart 1 3).csrSource .csrrc 2) ((csrHart 1 3).States.read 0x340)) 1
          ((csrHart 1 3).States.read 0x340)) := by
  intro h
  have hv := (writeCSRRd_inj (csrHart 1 3) 0x340 1 0 2 3).mp
    (Prod.mk.inj (Except.ok.inj h)).2
  exact absurd hv (by decide)

end RipSim
