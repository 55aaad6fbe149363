import RipSim.Reference.Traps
import RipSim.Agreement.SystemState

/-!
# Traps in the instruction-level simulator

`Simulator::run` serves its traps as the reference does, but for MIE and MPIE: of its three
writes of `mstatus` at a trap entry only the last one stays.  So the run of the simulator is
`Hart.served` up to these two bits and the counters (`Simulator.after_served`), unless a csr
instruction reads `mstatus`, or clears bits, which the simulator does with the wrong mask.
-/

namespace RipSim

open RIPSimulator

/-- The two simulators execute this instruction in the same way: it is not a csr instruction
that clears bits, nor one on `mstatus`. -/
def Instruction.Shared (I : Instruction) : Prop :=
  I.isCSR = true →
    I.csrAddr ≠ MSTATUS ∧ I.getMnemo ≠ .I .csrrc ∧ I.getMnemo ≠ .I .csrrci

instance (I : Instruction) : Decidable I.Shared :=
  inferInstanceAs (Decidable (_ → _ ∧ _ ∧ _))

/-- These csr instructions are executed as in the reference. -/
theorem Instruction.execRef_of_shared {I : Instruction} (hs : I.Shared) (h : Hart) :
    I.execRef h = I.exec h := by
  cases hc : I.isCSR with
  | false => exact Instruction.execRef_of_not_isCSR hc h
  | true =>
    obtain ⟨-, hc1, hc2⟩ := hs hc
    cases I with
    | IInstruction IT Rd Rs1 Imm =>
      cases IT with
      | csrrw | csrrwi | csrrsi => rfl
      | csrrs =>
        change Except.ok (none, h.writeCSRRd Imm (h.States.read Imm ||| h.GPRegs Rs1) Rd _) =
          Except.ok (none, h.writeCSRRd Imm (h.GPRegs Rs1 ||| h.States.read Imm) Rd _)
        rw [BitVec.or_comm]
      | csrrc => exact absurd rfl hc1
      | csrrci => exact absurd rfl hc2
      | _ => exact absurd hc Bool.false_ne_true
    | _ => exact absurd hc Bool.false_ne_true

/-! ## CSRs up to the two bits -/

/-- The same CSRs, up to MIE, MPIE and the counters. -/
structure Alike (X Y : CSRs) : Prop where
  others : ∀ a, a ∉ counters → a ≠ MSTATUS → X a = Y a
  status : ∀ i < 32, i ≠ 3 → i ≠ 7 → (X MSTATUS).getLsbD i = (Y MSTATUS).getLsbD i

namespace Alike

variable {X Y : CSRs}

theorem refl (X : CSRs) : Alike X X := ⟨fun _ _ _ => rfl, fun _ _ _ _ => rfl⟩

theorem congr {Z : CSRs} (hX : Alike X Y) (hZ : ∀ a, a ∉ counters → Z a = Y a) : Alike X Z := by
  refine ⟨fun a ha hne => ?_, fun i hi h3 h7 => ?_⟩
  · rw [hX.others a ha hne, hZ a ha]
  · rw [hX.status i hi h3 h7, hZ MSTATUS (by decide)]

theorem incCYCLE (hX : Alike X Y) : Alike X.incCYCLE Y := by
  have hinc : ∀ a, a ∉ counters → X.incCYCLE a = X a := by
    intro a ha
    refine CSRs.inc_of_ne _ ?_
    rintro rfl
    exact ha List.mem_cons_self
  refine ⟨fun a ha hne => ?_, fun i hi h3 h7 => ?_⟩
  · rw [hinc a ha, hX.others a ha hne]
  · rw [hinc MSTATUS (by decide), hX.status i hi h3 h7]

theorem write (hX : Alike X Y) {a : CSRAddress} (ha : a ≠ MSTATUS) (v : RegVal) :
    Alike (X.write a v) (Y.write a v) := by
  refine ⟨fun b hb hne => ?_, fun i hi h3 h7 => ?_⟩
  · by_cases hab : b = a
    · rw [hab, CSRs.write_self, CSRs.write_self]
    · rw [CSRs.write_of_ne _ hab, CSRs.write_of_ne _ hab, hX.others b hb hne]
  · rw [CSRs.write_of_ne _ ha.symm, CSRs.write_of_ne _ ha.symm, hX.status i hi h3 h7]

theorem ofMPP (hX : Alike X Y) : ModeKind.ofMPP (X MSTATUS) = ModeKind.ofMPP (Y MSTATUS) := by
  have h11 := hX.status 11 (by decide) (by decide) (by decide)
  have h12 := hX.status 12 (by decide) (by decide) (by decide)
  have hlow : ∀ i, 2 ≤ i → (0b11#32).getLsbD i = false := by
    intro i hi
    exact BitVec.getLsbD_of_ge (0b11#2) i hi
  have hf : (X MSTATUS).sshiftRight 11 &&& 0b11#32 = (Y MSTATUS).sshiftRight 11 &&& 0b11#32 := by
    apply BitVec.eq_of_getLsbD_eq
    intro i hi
    rw [BitVec.getLsbD_and, BitVec.getLsbD_and]
    match i with
    | 0 => rw [BitVec.getLsbD_sshiftRight, BitVec.getLsbD_sshiftRight]; simpa using h11
    | 1 => rw [BitVec.getLsbD_sshiftRight, BitVec.getLsbD_sshiftRight]; simpa using h12
    | i + 2 => rw [hlow _ (by omega), Bool.and_false, Bool.and_false]
  unfold ModeKind.ofMPP
  rw [hf]

theorem returns (hX : Alike X Y) (hr : Returns (Y MSTATUS)) : Returns (X MSTATUS) := by
  have h17 := hX.status 17 (by decide) (by decide) (by decide)
  rw [Returns, hX.ofMPP, h17]
  exact hr

end Alike

/-! ## One instruction -/

section Step

variable {h : Hart} {X : CSRs} {I : Instruction}

/-- A csr instruction on other CSRs. -/
theorem execRef_csr_alike (hc : I.isCSR = true) (hne : I.csrAddr ≠ MSTATUS)
    (ha : I.csrAddr ∉ counters) (hX : Alike X h.States) :
    ∃ h' X', I.execRef h = .ok (none, h') ∧
      I.execRef { h with States := X } = .ok (none, { h' with States := X' }) ∧
      Alike X' h'.States := by
  cases I with
  | IInstruction IT Rd Rs1 Imm =>
    have hread : X.read Imm = h.States.read Imm := hX.others Imm ha hne
    have href : ∀ a : Hart, (Instruction.IInstruction IT Rd Rs1 Imm).execRef a = .ok (none,
        a.writeCSRRd Imm (IT.csrUpdate (a.csrSource IT Rs1) (a.States.read Imm)) Rd
          (a.States.read Imm)) := fun _ => if_pos hc
    refine ⟨_, X.write Imm (IT.csrUpdate (h.csrSource IT Rs1) (h.States.read Imm)), href h, ?_,
      hX.write hne _⟩
    rw [href]
    dsimp only
    rw [hread]
    rfl
  | _ => exact absurd hc Bool.false_ne_true

/-- An instruction that is no system instruction. -/
theorem exec_alike (hI : Admitted I h) (hs : I.Shared) (hX : Alike X h.States) :
    ∃ h' X', I.execRef h = .ok (none, h') ∧
      I.exec { h with States := X } = .ok (none, { h' with States := X' }) ∧
      Alike X' h'.States := by
  rw [← Instruction.execRef_of_shared hs]
  cases hc : I.isCSR with
  | true => exact execRef_csr_alike hc (hs hc).1 (hI.csr hc) hX
  | false =>
    obtain ⟨⟨E, h'⟩, he⟩ := hI.access
    obtain rfl : E = none := Instruction.execRef_none hI.plain he
    have hexec : ∀ Y, I.execRef { h with States := Y } = .ok (none, { h' with States := Y }) := by
      intro Y
      rw [Instruction.execRef_of_not_isCSR hc, Instruction.exec_States hI.plain hc,
        ← Instruction.execRef_of_not_isCSR hc, he]
      rfl
    have hSt : h'.States = h.States :=
      congrArg (·.States) (Prod.mk.inj (Except.ok.inj (he.symm.trans (hexec h.States)))).2
    exact ⟨h', X, he, hexec X, hSt ▸ hX⟩

/-- The trap of an `ecall`. -/
theorem trap_alike (hm : h.Mode = .Machine) (hX : Alike X h.States) (J : Instruction) :
    ∃ X', Simulator.trap { h with States := X } J .EnvironmentCallFromMMode =
      .ok { h.trap with States := X' } ∧ Alike X' h.trap.States := by
  obtain ⟨h₂, hok, hmepc, hmcause, hmtval, hmstatus, hothers⟩ :=
    trap_States { h with States := X } (I := J) (E := .EnvironmentCallFromMMode) rfl hm
  have hh₂ : h₂ = { h.trap with States := h₂.States } := by
    unfold Simulator.trap at hok
    rw [if_pos hm] at hok
    rw [← Except.ok.inj hok, Hart.trap, ← hX.others MTVEC (by decide) (by decide)]
    rfl
  refine ⟨h₂.States, hh₂ ▸ hok, fun a ha hne => ?_, fun i hi h3 h7 => ?_⟩
  · by_cases hup : a ∈ updatedCSRs
    · simp only [updatedCSRs, List.mem_cons, List.not_mem_nil, or_false] at hup
      rcases hup with rfl | rfl | rfl | rfl
      · exact absurd rfl hne
      · exact hmepc
      · exact hmcause
      · exact hmtval
    · rw [hothers a hup, Hart.trap_States_of_not_mem hup]
      exact hX.others a ha hne
  · rw [hmstatus, trapped_mpp_bits _ i hi]
    refine Eq.trans ?_ (trapStatus_bits (h.States MSTATUS) i hi).symm
    rw [if_neg h3, if_neg h7]
    by_cases hmpp : i = 11 ∨ i = 12
    · rw [if_pos hmpp, if_pos hmpp]
    · rw [if_neg hmpp, if_neg hmpp]
      exact hX.status i hi h3 h7

/-- The return of an `mret`. -/
theorem mret_alike (hm : h.Mode = .Machine) (hr : Returns (h.States MSTATUS))
    (hX : Alike X h.States) :
    ∃ X', ({ h with States := X } : Hart).mret = (none, { h.resume with States := X' }) ∧
      Alike X' h.resume.States := by
  have hres : ({ h with States := X } : Hart).resume =
      { h.resume with States := ({ h with States := X } : Hart).resume.States } := by
    rw [Hart.resume, Hart.resume, ← hX.others MEPC (by decide) (by decide)]
  refine ⟨_, (Hart.mret_resume (h := { h with States := X }) hm (hX.returns hr)).trans
    (congrArg _ hres), fun a ha hne => ?_, fun i hi h3 h7 => ?_⟩
  · change (if a = MSTATUS then _ else X a) = if a = MSTATUS then _ else h.States a
    rw [if_neg hne, if_neg hne]
    exact hX.others a ha hne
  · change (returnStatus (X MSTATUS)).getLsbD i = (returnStatus (h.States MSTATUS)).getLsbD i
    rw [returnStatus_bits _ i hi, returnStatus_bits _ i hi, if_neg h3, if_neg h3,
      hX.status i hi h3 h7]

/-- An iteration in which `exec` raises an exception that is trapped. -/
theorem Simulator.iterate_trap {s : Simulator} {h₁ h₂ : Hart} {E : Exception}
    (hf : s.hart.fetch = .ok (some I)) (he : I.exec s.hart = .ok (some E, h₁))
    (hE : isTrap E = true) (ht : Simulator.trap h₁ I E = .ok h₂) :
    s.iterate none = .ok (some (s.afterInst I h₂)) := by
  obtain ⟨w, hw, hI⟩ := Hart.word_of_fetch hf
  have h0 : E ≠ .R0 := by rintro rfl; exact Bool.false_ne_true hE
  have h1 : E ≠ .R1 := by rintro rfl; exact Bool.false_ne_true hE
  have hb : E ≠ .Breakpoint := by rintro rfl; exact Bool.false_ne_true hE
  unfold Simulator.iterate
  simp only [bind, Except.bind, pure, Except.pure, hw, hI, he, if_neg h0, if_neg h1, if_neg hb, ht]
  rfl

/-- **One iteration of the loop** serves the instruction at the PC. -/
theorem Simulator.iterate_served (hm : h.Mode = .Machine) (hf : h.fetch = .ok (some I))
    (hI : I.isSystem = false → Admitted I h)
    (hr : I.isMret = true → Returns (h.States MSTATUS)) (hs : I.Shared)
    (hX : Alike X h.States) {s : Simulator} (hh : s.hart = { h with States := X }) :
    ∃ b X', s.iterate none = .ok (some b) ∧ b.hart = { h.serve with States := X' } ∧
      Alike X' h.serve.States ∧ b.Stats = s.Stats.count I := by
  have hfs : s.hart.fetch = .ok (some I) := by
    rw [hh]
    exact hf
  have hexec : ∀ {h' X'}, I.exec s.hart = .ok (none, { h' with States := X' }) →
      h' = h.serve → Alike X' h'.States →
      ∃ b X', s.iterate none = .ok (some b) ∧ b.hart = { h.serve with States := X' } ∧
        Alike X' h.serve.States ∧ b.Stats = s.Stats.count I := by
    rintro h' X' he rfl hX'
    exact ⟨_, _, Simulator.iterate_eq hfs he (.inl rfl), rfl, hX'.incCYCLE, rfl⟩
  cases hsys : I.isSystem with
  | false =>
    obtain ⟨h', X', he, he', hX'⟩ := exec_alike (hI hsys) hs hX
    refine hexec (hh ▸ he') ?_ hX'
    rw [Hart.serve_eq_next fun J hJ => by
      rwa [← Option.some.inj (Except.ok.inj (hf.symm.trans hJ))], Hart.next_of_exec hf he]
  | true =>
    obtain ⟨Rd, Rs1, Imm, rfl⟩ | ⟨Rd, Rs1, Imm, rfl⟩ := Instruction.system_cases hsys
    · obtain ⟨X', ht, hX'⟩ := trap_alike hm hX (.IInstruction .ecall Rd Rs1 Imm)
      refine ⟨s.afterInst (.IInstruction .ecall Rd Rs1 Imm) { h.trap with States := X' },
        X'.incCYCLE, ?_, ?_, ?_, rfl⟩
      · refine Simulator.iterate_trap hfs ?_ rfl ht
        rw [hh]
        change Except.ok (some (Hart.ecallException h.Mode), _) = _
        rw [hm]
        rfl
      · rw [Hart.serve_ecall hf]
        rfl
      · rw [Hart.serve_ecall hf]
        exact hX'.incCYCLE
    · obtain ⟨X', he, hX'⟩ := mret_alike hm (hr rfl) hX
      have he' : (Instruction.IInstruction .mret Rd Rs1 Imm).exec s.hart =
          .ok (none, { h.resume with States := X' }) := by
        rw [hh]
        exact congrArg Except.ok he
      exact hexec he' (Hart.serve_mret hf).symm hX'

end Step

/-! ## Whole runs -/

/-- The statistics of the first `k` instructions of the run, system instructions included. -/
def Hart.servedStats (h : Hart) : ℕ → Statistics
  | 0 => Statistics.new
  | k + 1 =>
    match (h.served k).fetch with
    | .ok (some I) => (h.servedStats k).count I
    | _ => h.servedStats k

theorem Hart.servedStats_succ {h : Hart} {k : ℕ} {I : Instruction}
    (hf : (h.served k).fetch = .ok (some I)) :
    h.servedStats (k + 1) = (h.servedStats k).count I := by
  conv_lhs => unfold Hart.servedStats
  rw [hf]

/-- **The simulator runs the reference**, up to MIE, MPIE and the counters. -/
theorem Simulator.after_served {h : Hart} (hd : TrapDomain h)
    (hs : ∀ k I, (h.served k).fetch = .ok (some I) → I.Shared) {s : Simulator} (hh : s.hart = h)
    (hstats : s.Stats = Statistics.new) {n : ℕ}
    (hlive : ∀ k < n, ∃ I, (h.served k).fetch = .ok (some I)) :
    ∃ a X, s.after n = some a ∧ a.hart = { h.served n with States := X } ∧
      Alike X (h.served n).States ∧ a.Stats = h.servedStats n := by
  induction n with
  | zero => exact ⟨s, h.States, rfl, hh, .refl _, hstats⟩
  | succ n ih =>
    obtain ⟨a, X, ha, hX, halike, hcount⟩ := ih fun k hk => hlive k (Nat.lt_succ_of_lt hk)
    obtain ⟨I, hf⟩ := hlive n (Nat.lt_succ_self n)
    obtain ⟨b, X', hb, hbX, hX', hbS⟩ := Simulator.iterate_served (hd.mode le_top) hf
      (hd.admitted n I (ENat.natCast_lt_top n) hf)
      (hd.returns n I (ENat.natCast_lt_top n) hf) (hs n I hf) halike hX
    refine ⟨b, X', ?_, hbX, hX', ?_⟩
    · rw [Simulator.after_succ ha, hb]
      rfl
    · rw [hbS, hcount, Hart.servedStats_succ hf]

end RipSim
