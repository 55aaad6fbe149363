import RipSim.Reference.Traps
import RipSim.Refinement.Run
import RipSim.Agreement.Passage

/-!
# A system instruction goes through the pipeline

Between two spans of a run the window of `Inv` closes and opens again.  When the system
instruction that ends a span enters EX, `exec` or `handleException` updates the CSRs and the
fetch address at once and squashes what is behind it, while the instruction ahead of it is
still in MA: this is `Raised`.  One cycle later everything ahead has been written back, and
the first word of the next span is in IF: this is `Leaving`.  One cycle later still, the
system instruction is in write back, where it does nothing, and the window of the next span
is there.

`Inv.raised`, `Raised.leaves` and `Leaving.resumes` are the three cycles.
-/

namespace RipSim

namespace RIPSimulator

variable {σ : Type}

/-! ## Cycles in general -/

section Cycles

variable {S A B M D : RIPSimulator σ} {E : Option Exception}

theorem handleException_trap (S : RIPSimulator σ) {e : Exception} (he : isTrap e = true)
    (hm : S.Mode = .Machine) : S.handleException e = .ok (true, S.squashed.trapped e) := by
  have h1 : e ≠ .Breakpoint := by rintro rfl; exact Bool.false_ne_true he
  have h2 : e ≠ .R0 := by rintro rfl; exact Bool.false_ne_true he
  have h3 : e ≠ .R1 := by rintro rfl; exact Bool.false_ne_true he
  unfold handleException
  rw [if_neg h1, if_neg h2, if_neg h3, if_pos hm]
  change (S.squashed.trapEntry e >>= _) = _
  rw [trapEntry_eq _ he]
  rfl

theorem advance_exists (hw : ∃ w, S.Mem.readWord S.PC = .ok w) : ∃ A, S.advance = .ok A := by
  obtain ⟨w, hw⟩ := hw
  unfold RIPSimulator.advance
  rw [hw]
  split_ifs <;> exact ⟨_, rfl⟩

/-- The fetch of a pipeline that is not stalled. -/
theorem Clean.advance_fetched (hc : Clean S) (hDE : S.PS.Insts.DE = none)
    (hA : S.advance = .ok A) :
    S.PS.StalledStages.IF = false ∧ ∃ w, S.Mem.readWord S.PC = .ok w ∧ A = S.fetched w := by
  rcases advance_ok hA with ⟨hs, _⟩ | ⟨hs, w, hw, rfl⟩
  · obtain ⟨_, J, _, hJ⟩ := hc.stalled hs
    exact nomatch hDE.symm.trans hJ
  · exact ⟨hs, w, hw, rfl⟩

variable [BranchPredictor σ]

/-- A cycle that goes through these states and enters a trap. -/
theorem Through.cycle_trap {e : Exception} (h : Through S A B M (some e)) (he : isTrap e = true)
    (hm : M.decoded.Mode = .Machine) :
    S.cycle = .ok (.next, (M.decoded.squashed.trapped e).redirect.finish) := by
  unfold cycle stages
  simp only [h.advance, h.nonempty, writeback_eq, h.access, h.exec, decode_eq,
    handleException_trap _ he hm, bind, Except.bind, pure, Except.pure, Bool.false_eq_true,
    if_false, if_true]

/-- What a cycle that goes on leaves where memory access has left it. -/
theorem Through.end_frame (ht : Through S A B M E) (hD : Handled M.decoded E D) :
    D.redirect.finish.GPRegs = A.written.GPRegs ∧ D.redirect.finish.Mem = B.Mem ∧
    D.redirect.finish.PS.PCs = A.PS.PCs ∧
    D.redirect.finish.PS.MARdVal = B.PS.MARdVal ∧
    D.redirect.finish.PS.MACSRVal = B.PS.MACSRVal := by
  obtain ⟨hMem, _, hGP, _⟩ := hD.frame
  obtain ⟨_, hdMem, _, _, _, hdGP, _⟩ := M.decoded_frame
  have hM := exec_frame ht.exec
  refine ⟨?_, ?_, ?_, ?_, ?_⟩
  · rw [redirect_eq]
    change D.GPRegs = _
    rw [hGP, hdGP, hM.GPRegs, (memoryaccess_frame ht.access).GPRegs]
  · rw [redirect_eq]
    change D.Mem = _
    rw [hMem, hdMem, hM.Mem]
  · rw [hD.end_PS]
    exact ht.insts.2
  · rw [hD.end_PS]
    exact hM.MARdVal
  · rw [hD.end_PS]
    exact hM.MACSRVal

/-- A cycle that executes nothing disturbs nothing. -/
theorem Through.undisturbed (ht : Through S A B M none) (hA : AtRest A)
    (hEX : A.PS.Insts.EX = none) :
    M.PC = A.PC ∧ M.PS.BranchPC = none ∧ kills M none = false := by
  have hB := ht.atRest hA
  obtain ⟨_, rfl⟩ := ht.bubble hEX
  refine ⟨?_, hB.branchPC, ?_⟩
  · rw [(memoryaccess_frame ht.access).PC, A.written_frame.1]
  · unfold kills
    rw [hB.invalid]
    rfl

end Cycles

/-! ## The two states in between -/

/-- The system instruction `I`, number `n` of the run, is in EX and has been obeyed, with `k`
instructions written back. -/
structure Raised (h : Hart) (n k : ℕ) (I : Instruction) (S : RIPSimulator σ) : Prop where
  clean : Clean S
  latched : Latched S
  fetch : (h.served n).fetch = .ok (some I)
  isSystem : I.isSystem = true
  EX : S.PS.Insts.EX = some I
  PC_EX : S.PS.PCs.EX = (h.served n).PC
  DE : S.PS.Insts.DE = none
  IF : S.PS.Insts.IF = none
  PC : S.PC = (h.served (n + 1)).PC
  /-- The instruction ahead is in MA, or has gone. -/
  ahead : n = k + occ S.PS.Insts.MA
  MA : ∀ J, S.PS.Insts.MA = some J →
    HeldByMA (h.served k) S J ∧ Effect J (h.served k) (h.served n)
  GPRegs : S.GPRegs = (h.served k).GPRegs
  Mode : S.Mode = .Machine
  Mem : S.Mem = (h.served n).Mem
  updated : ∀ a ∈ I.updates, a ∉ counters → csrIs S.PS.Insts.MA a = false →
    S.States a = (h.served (n + 1)).States a
  States : ∀ a, a ∉ I.updates → a ∉ counters → S.States a = (h.served k).States a

/-- The system instruction `I`, number `n` of the run, is in MA.  Everything ahead of it has
been written back, and the fetch has begun with the next span. -/
structure Leaving (h : Hart) (n : ℕ) (I : Instruction) (S : RIPSimulator σ) : Prop where
  clean : Clean S
  latched : Latched S
  fetch : (h.served n).fetch = .ok (some I)
  isSystem : I.isSystem = true
  MA : S.PS.Insts.MA = some I
  PC_MA : S.PS.PCs.MA = (h.served n).PC
  EX : S.PS.Insts.EX = none
  DE : S.PS.Insts.DE = none
  fetching : Fetching (h.served (n + 1)) 0 (h.served (n + 1)).PC S
  /-- IF is a bubble only for want of an instruction. -/
  dry : S.PS.Insts.IF = none → (h.served (n + 1)).fetch = .ok none
  GPRegs : S.GPRegs = (h.served (n + 1)).GPRegs
  Mode : S.Mode = .Machine
  Mem : S.Mem = (h.served (n + 1)).Mem
  States : ∀ a, a ∉ counters → S.States a = (h.served (n + 1)).States a

/-! ## Into EX -/

variable {h g : Hart} {N L : ℕ∞} {c K n k : ℕ} {S A B M : RIPSimulator σ} {I : Instruction}

/-- The CSRs once everything past EX has been written back. -/
theorem Inv.older (hi : Inv g N c S) (hd : Regular g N) {a : CSRAddress} (ha : a ∉ counters) :
    S.olderStates a = (g.after (S.issued c)).States a := by
  unfold olderStates
  rw [csrWrite_apply, hi.drained hd ha, issued_eq]
  cases hK : S.PS.Insts.EX with
  | none => rfl
  | some K =>
    rw [occ_some, (hi.back.effect_EX hi.bound hd hK).States, csrWrite_apply,
      (hi.back.EX K hK).csr]

/-- With no csr instruction on it in EX, a CSR has been written by the time `exec` runs. -/
theorem Inv.drained_issued (hi : Inv g N c S) (hd : Regular g N) {a : CSRAddress}
    (ha : a ∉ counters) (hcsr : csrIs S.PS.Insts.EX a = false) :
    S.drainMA a = (g.after (S.issued c)).States a := by
  rw [← hi.older hd ha]
  unfold olderStates
  rw [csrWrite_apply, hcsr, if_neg Bool.false_ne_true]

variable [BranchPredictor σ]

/-- `exec` returns for a system instruction. -/
theorem exec_system (hEX : B.PS.Insts.EX = some I) (hI : I.isSystem = true) :
    ∃ E M, B.exec = .ok (E, M) := by
  unfold RIPSimulator.exec
  rw [hEX]
  obtain ⟨_, _, _, rfl⟩ | ⟨_, _, _, rfl⟩ := Instruction.system_cases hI
  · exact ⟨_, _, rfl⟩
  · change ∃ E M, B.execMret = _
    rw [execMret_eq]
    exact ⟨_, _, rfl⟩

omit [BranchPredictor σ] in
/-- The window of a span, by the numbers of the whole run. -/
theorem Inv.numbers (hs : Span h N K L) (hi : Inv (h.served K) L c S) :
    (h.served K).after (S.issued c) = h.served (K + S.issued c) ∧
      (h.served K).after (S.accessed c) = h.served (K + S.accessed c) :=
  ⟨hs.after_add hi.bound, hs.after_add hi.accessed_le⟩

/-- The cycle that obeys a system instruction, but for what it does. -/
theorem Inv.raised_of {D : RIPSimulator σ} {E : Option Exception} (hd : ServedDomain h N)
    (hs : Span h N K L) (hi : Inv (h.served K) L c S) (hI : S.entering = some I)
    (hsys : I.isSystem = true) (ht : Through S A B M E) (hD : Handled M.decoded E D)
    (hn : Next S D.redirect.finish) (hkill : kills M E = true)
    (hPC : D.redirect.finish.PC = (h.served (K + S.issued c + 1)).PC)
    (hMode : D.redirect.finish.Mode = .Machine)
    (hup : ∀ a ∈ I.updates, a ∉ counters → csrIs S.PS.Insts.EX a = false →
      D.redirect.finish.States a = (h.served (K + S.issued c + 1)).States a)
    (hSt : ∀ a, a ∉ I.updates → a ∉ counters → D.redirect.finish.States a = S.drainMA a) :
    Raised h (K + S.issued c) (K + S.accessed c) I D.redirect.finish := by
  have hreg := hd.regular hs
  obtain ⟨hni, hna⟩ := hi.numbers hs
  obtain ⟨_, _, hDE, hf⟩ := hi.entering hI
  obtain ⟨B', hB', hMem, hRd⟩ := hi.access hreg ht.advance
  obtain rfl : B' = B := Except.ok.inj (hB'.symm.trans ht.access)
  obtain ⟨hGP, hM, hPCs, hlMA, -⟩ := ht.end_frame hD
  obtain ⟨-, -, hMA, hPCMA, hEX⟩ := Next.backEnd hi.clean hn
  have hAEX : A.PS.Insts.EX = some I := (hi.clean.advance_entering ht.advance).trans hI
  have hins := ht.filled (hi.clean.advance ht.advance) hD
  rw [hkill] at hins
  rw [hni] at hDE hf hMem
  refine ⟨hi.clean.next hn, hi.latched.next hi.clean hn, hf, hsys, hEX.trans hI, ?_,
    by rw [hins]; rfl, by rw [hins]; rfl, hPC, ?_, ?_, ?_, hMode, hM.trans hMem, ?_, ?_⟩
  · rw [hPCs, (hi.clean.advance_EX ht.advance hAEX).2.2, hDE]
  · rw [hMA, issued_eq, Nat.add_assoc]
  · intro J hJ
    rw [hMA] at hJ
    have hE := hi.back.EX J hJ
    have heff := hi.back.effect_EX hi.bound hreg hJ
    have hacc : S.issued c = S.accessed c + 1 := by rw [issued_eq, hJ, occ_some]
    rw [← hacc, hni, hna] at heff
    rw [hna] at hE hRd
    refine ⟨⟨hE.fetch, hPCMA.trans hE.PC, hlMA.trans (hRd J hJ), ?_⟩, heff⟩
    rw [(Next.csr_moves hi.clean hn).2 J hJ]
    exact hE.csr
  · rw [hGP, hi.written hreg ht.advance, hna]
  · intro a ha hc hcsr
    rw [hMA] at hcsr
    exact hup a ha hc hcsr
  · intro a ha hc
    rw [hSt a ha hc, hi.drained hreg hc, hna]

/-- The cycle of an `ecall`. -/
theorem Inv.raised_ecall {E : Option Exception} {Rd Rs1 : BitVec 5} {Imm : BitVec 12}
    (hd : ServedDomain h N) (hs : Span h N K L) (hi : Inv (h.served K) L c S)
    (hI : S.entering = some (.IInstruction .ecall Rd Rs1 Imm)) (hp : S.predictedTarget = none)
    (ht : Through S A B M E) :
    ∃ T, Next S T ∧
      Raised h (K + S.issued c) (K + S.accessed c) (.IInstruction .ecall Rd Rs1 Imm) T := by
  have hreg := hd.regular hs
  obtain ⟨hni, -⟩ := hi.numbers hs
  obtain ⟨-, -, hPC, hf⟩ := hi.entering hI
  have holder : ∀ a, a ∉ counters → S.olderStates a = (h.served (K + S.issued c)).States a :=
    fun a ha => (hi.older hreg ha).trans (congrArg (·.States a) hni)
  rw [hni] at hPC hf
  obtain rfl : E = some .EnvironmentCallFromMMode := by
    rw [ht.raising hi.clean hi.latched, raising, hI, hi.back.Mode]
    rfl
  have hmode : M.decoded.Mode = .Machine := by
    obtain ⟨-, -, hdMode, -⟩ := M.decoded_frame
    rw [hdMode]
    rcases exec_raises ht.exec with ⟨_, _, _, rfl⟩ | ⟨_, _, _, _, rfl⟩ <;>
    exact (ht.entering hi.clean).2.1.trans hi.back.Mode
  have hD : Handled M.decoded (some .EnvironmentCallFromMMode) _ := .trap rfl hmode
  have hn : Next S _ := ht.cycle_trap rfl hmode
  have hserve := Hart.serve_ecall hf
  have hne : ∀ a, a ∉ counters → a ≠ CYCLE := fun a ha => by
    rintro rfl
    exact ha List.mem_cons_self
  have hSt : ∀ a, a ∉ counters → (M.decoded.squashed.trapped
      .EnvironmentCallFromMMode).redirect.finish.States a =
        trapStates S.drainMA (h.served (K + S.issued c)).PC
          .EnvironmentCallFromMMode 0 .Machine a := by
    intro a ha
    rw [ht.trapped hi.clean hi.latched hI hD rfl, CSRs.incCYCLE, CSRs.inc_of_ne _ (hne a ha), hPC,
      hi.back.Mode]
    rfl
  refine ⟨_, hn, hi.raised_of hd hs hI rfl ht hD hn rfl ?_ ?_ ?_ ?_⟩
  · rw [trap_redirect hi.clean hi.latched ht rfl hn, hp, Hart.served_succ, hserve, recordedTarget,
      hI, holder MTVEC (by decide)]
    rfl
  · rw [redirect_eq]
    exact hmode
  · intro a ha hc hcsr
    rw [hSt a hc, Hart.served_succ, hserve]
    refine Hart.trapStates_trap ha ?_
    rintro rfl
    rw [hi.drained_issued hreg hc hcsr, hni]
  · intro a ha hc
    rw [hSt a hc]
    exact trapStates_of_not_mem _ _ _ _ _ ha

/-- The cycle of an `mret`. -/
theorem Inv.raised_mret {E : Option Exception} {Rd Rs1 : BitVec 5} {Imm : BitVec 12}
    (hd : ServedDomain h N) (hs : Span h N K L) (hi : Inv (h.served K) L c S)
    (hlt : ((K + S.issued c : ℕ) : ℕ∞) < N)
    (hI : S.entering = some (.IInstruction .mret Rd Rs1 Imm)) (ht : Through S A B M E) :
    ∃ T, Next S T ∧
      Raised h (K + S.issued c) (K + S.accessed c) (.IInstruction .mret Rd Rs1 Imm) T := by
  have hreg := hd.regular hs
  obtain ⟨hni, -⟩ := hi.numbers hs
  obtain ⟨-, -, -, hf⟩ := hi.entering hI
  have holder : ∀ a, a ∉ counters → S.olderStates a = (h.served (K + S.issued c)).States a :=
    fun a ha => (hi.older hreg ha).trans (congrArg (·.States a) hni)
  rw [hni] at hf
  have hret := hd.returns _ _ hlt hf rfl
  have hst := holder MSTATUS (by decide)
  obtain rfl : E = none := by
    rw [ht.raising hi.clean hi.latched, raising, hI]
    change (if ModeKind.ofMPP (S.olderStates MSTATUS) = .Hypervisor then _ else _) = _
    rw [hst]
    rcases hret with h' | ⟨h', -⟩ <;> rw [h'] <;> rfl
  have hM := ht.returned hi.clean hI rfl
  obtain ⟨hBst, hBpc⟩ := ht.mret_reads hi.clean hi.latched
  have hn : Next S M.decoded.redirect.finish := ht.cycle_none
  have hserve := Hart.serve_mret hf
  obtain ⟨-, -, hfMode, -, -, hfSt⟩ := cycle_frame M
  have hSt : ∀ a, a ∉ counters → M.decoded.redirect.finish.States a =
      mretStates S.drainMA ((h.served (K + S.issued c)).States MSTATUS) a := by
    intro a ha
    have hne : a ≠ CYCLE := by
      rintro rfl
      exact ha List.mem_cons_self
    rw [hfSt, CSRs.incCYCLE, CSRs.inc_of_ne _ hne, hM]
    change mretStates B.States B.mretStatus a = _
    rw [hBst, hst, ht.states hi.clean hi.latched]
  refine ⟨_, hn, hi.raised_of hd hs hI rfl ht .none hn (by rw [hM]; rfl) ?_ ?_ ?_ ?_⟩
  · rw [cycle_PC, hM, Hart.served_succ, hserve]
    change (Option.some (B.mretPC.signExtend 64)).getD _ = _
    rw [hBpc, holder MEPC (by decide)]
    rfl
  · rw [hfMode, hM]
    change (if ModeKind.ofMPP B.mretStatus = .User then B.Mode else _) = _
    rw [hBst, hst]
    rcases hret with h' | ⟨h', -⟩ <;> rw [h']
    · rfl
    · exact (ht.entering hi.clean).2.1.trans hi.back.Mode
  · intro a ha hc hcsr
    obtain rfl := List.mem_singleton.mp ha
    rw [hSt _ hc, Hart.served_succ, hserve]
    refine Hart.mretStates_resume hret ?_
    rw [hi.drained_issued hreg hc hcsr, hni]
  · intro a ha hc
    rw [hSt a hc]
    exact mretStates_apply_of_ne _ _ fun h' => ha (List.mem_singleton.mpr h')

/-- **A system instruction enters EX**, and is obeyed. -/
theorem Inv.raised (hd : ServedDomain h N) (hs : Span h N K L) (hi : Inv (h.served K) L c S)
    (hlt : ((K + S.issued c : ℕ) : ℕ∞) < N) (hI : S.entering = some I) (hsys : I.isSystem = true)
    (hw : ∃ w, S.Mem.readWord S.PC = .ok w)
    (hp : I.isMret = false → S.predictedTarget = none) :
    ∃ T, Next S T ∧ Raised h (K + S.issued c) (K + S.accessed c) I T := by
  obtain ⟨A, hA⟩ := advance_exists hw
  obtain ⟨B, hB, -⟩ := hi.access (hd.regular hs) hA
  have hAEX : A.PS.Insts.EX = some I := (hi.clean.advance_entering hA).trans hI
  have hBEX : B.PS.Insts.EX = some I := by
    obtain ⟨_, _, _, _, _, _, _, hwPS⟩ := A.written_frame
    rw [(memoryaccess_frame hB).Insts, hwPS]
    exact hAEX
  obtain ⟨E, M, hM⟩ := exec_system hBEX hsys
  have hne : A.PS.isEmpty = false := by
    by_contra he
    rw [isEmpty_insts (Bool.not_eq_false _ ▸ he)] at hAEX
    exact nomatch hAEX
  have ht : Through S A B M E := ⟨hA, hne, hB, hM⟩
  obtain ⟨_, _, _, rfl⟩ | ⟨_, _, _, rfl⟩ := Instruction.system_cases hsys
  · exact hi.raised_ecall hd hs hI (hp rfl) ht
  · exact hi.raised_mret hd hs hlt hI ht

/-! ## On to MA -/

omit [BranchPredictor σ] in
/-- What is neither a load nor a store passes the access stage. -/
theorem memoryaccess_of_other (hMA : S.PS.Insts.MA = some I) (hl : I.isLoad = false)
    (hs : I.isSType = false) : ∃ B, S.memoryaccess = .ok B ∧ B.Mem = S.Mem := by
  unfold memoryaccess
  rw [hMA]
  dsimp only
  rw [access_of_other _ _ _ hl hs]
  split_ifs <;> exact ⟨_, rfl, rfl⟩

omit [BranchPredictor σ] in
/-- The fetch of a pipeline that awaits the first instruction of a run. -/
theorem Clean.lined (hc : Clean S) (hDE : S.PS.Insts.DE = none) (hx : Fetching g 0 g.PC S)
    (hw : ∀ w, S.Mem.readWord S.PC = .ok w → g.Holds L S.PC (Decoder.decode w))
    (hA : S.advance = .ok A) : Lined g L 0 A := by
  obtain ⟨hs, w, hread, rfl⟩ := hc.advance_fetched hDE hA
  obtain ⟨hIF, hbub⟩ := hx
  have hins := hc.fetched_insts hs w
  have hnext : (if S.PS.Insts.IF.isSome then S.PS.PCs.IF + 4 else g.PC) = S.PC := by
    cases hJ : S.PS.Insts.IF with
    | none => exact (hbub hJ).symm
    | some J =>
      obtain ⟨h1, h2, _⟩ := hIF J hJ
      rw [h2, h1]
      rfl
  constructor
  · rw [hins.1, hins.2]
    intro J hJ
    obtain ⟨h1, _, h3⟩ := hIF J hJ
    exact ⟨h1, h3 0 le_rfl rfl⟩
  · rw [hins.1, hins.2]
    change Fetching g L (if S.PS.Insts.IF.isSome then S.PS.PCs.IF + 4 else g.PC) _
    rw [hnext]
    constructor
    · rw [hins.1, hins.2]
      intro J hJ
      have hJ : Decoder.decode w = some J := hJ
      refine ⟨rfl, ?_, hJ ▸ hw w hread⟩
      change (if (Decoder.decode w).isSome then S.PC + 4 else S.PC) = _
      rw [hJ]
      rfl
    · rw [hins.1]
      intro hJ
      have hJ : Decoder.decode w = none := hJ
      change (if (Decoder.decode w).isSome then S.PC + 4 else S.PC) = _
      rw [hJ]
      rfl

omit [BranchPredictor σ] in
/-- A bubble in DE enters EX as one. -/
theorem entering_of_bubble (hDE : S.PS.Insts.DE = none) : S.entering = none := by
  unfold entering
  rw [hDE, ite_self]

/-- A cycle in which nothing enters EX: it goes through its stages if memory access does. -/
theorem Clean.through_bubble (hc : Clean S) (hDE : S.PS.Insts.DE = none)
    (hA : S.advance = .ok A) (hne : A.PS.isEmpty = false) (hB : A.written.memoryaccess = .ok B) :
    Through S A B B none := by
  obtain ⟨_, _, _, _, _, _, _, hwPS⟩ := A.written_frame
  have hEX : B.PS.Insts.EX = none := by
    rw [(memoryaccess_frame hB).Insts, hwPS]
    exact (hc.advance_entering hA).trans (entering_of_bubble hDE)
  refine ⟨hA, hne, hB, ?_⟩
  unfold RIPSimulator.exec
  rw [hEX]

omit [BranchPredictor σ] in
/-- The csr instruction ahead of a system instruction is the one before it in the run. -/
theorem Raised.inOrder (hr : Raised h n k I S) (hord : ∀ j, j + 1 = n → InOrder h j)
    {a : CSRAddress} (ha : a ∈ I.updates) (hcsr : csrIs S.PS.Insts.MA a = true) :
    (h.served n).States a = (h.served (n + 1)).States a := by
  have hn := hr.ahead
  have hf := hr.fetch
  cases hJ : S.PS.Insts.MA with
  | none =>
    rw [hJ] at hcsr
    exact absurd hcsr Bool.false_ne_true
  | some J =>
    rw [hJ] at hn hcsr
    rw [occ_some] at hn
    subst hn
    have hJa : J.isCSR = true ∧ a = J.csrAddr := by simpa [csrIs] using hcsr
    obtain ⟨hisCSR, rfl⟩ := hJa
    exact hord k rfl J I (hr.MA J hJ).1.fetch hf hisCSR ha

omit [BranchPredictor σ] in
/-- What MA writes to a CSR is what the sequential run has there in front of `I`. -/
theorem Raised.lands (hr : Raised h n k I S) {a : CSRAddress} (ha : a ∉ counters) :
    S.drainMA a = if csrIs S.PS.Insts.MA a then (h.served n).States a
      else (h.served (n + 1)).States a := by
  rw [drainMA, csrWrite_apply]
  cases hcsr : csrIs S.PS.Insts.MA a with
  | true =>
    rw [if_pos rfl, if_pos rfl]
    cases hJ : S.PS.Insts.MA with
    | none =>
      rw [hJ] at hcsr
      exact absurd hcsr Bool.false_ne_true
    | some J =>
      obtain ⟨hheld, heff⟩ := hr.MA J hJ
      rw [heff.States, csrWrite_apply, ← hJ, hcsr, if_pos rfl, hheld.csr]
  | false =>
    rw [if_neg Bool.false_ne_true, if_neg Bool.false_ne_true]
    by_cases hup : a ∈ I.updates
    · exact hr.updated a hup ha hcsr
    · rw [hr.States a hup ha, Hart.served_succ, Hart.serve_States hr.fetch hr.isSystem hup]
      cases hJ : S.PS.Insts.MA with
      | none =>
        have hn := hr.ahead
        rw [hJ, occ_none, Nat.add_zero] at hn
        rw [hn]
      | some J =>
        rw [((hr.MA J hJ).2).States, csrWrite_apply, ← hJ, hcsr, if_neg Bool.false_ne_true]

/-- **The system instruction moves on to MA**, and everything ahead of it is written back.  The
CSRs are those of the run if what has just been written back was in order. -/
theorem Raised.leaves (hd : ServedDomain h N) (hr : Raised h n k I S) (hn : (n : ℕ∞) < N)
    (hw : ∃ w, S.Mem.readWord S.PC = .ok w) : ∃ T, Next S T ∧
      (∀ a, a ∉ counters → T.States a = S.drainMA a) ∧
      ((∀ j, j + 1 = n → InOrder h j) → Leaving h n I T) := by
  obtain ⟨hsGP, hsMem, -⟩ := Hart.serve_frame hr.fetch hr.isSystem
  rw [← Hart.served_succ] at hsGP hsMem
  obtain ⟨A, hA⟩ := advance_exists hw
  obtain ⟨hs, w, hw, rfl⟩ := hr.clean.advance_fetched hr.DE hA
  have hins := hr.clean.fetched_insts hs w
  obtain ⟨_, hwMem, hwMode, _, _, _, _, hwPS⟩ := (S.fetched w).written_frame
  have hMA : (S.fetched w).PS.Insts.MA = some I := by
    rw [hins.1]
    exact hr.EX
  obtain ⟨B, hB, hBMem⟩ := memoryaccess_of_other (by rw [hwPS]; exact hMA)
    (Instruction.isLoad_of_isSystem hr.isSystem) (Instruction.isSType_of_isSystem hr.isSystem)
  have hne : (S.fetched w).PS.isEmpty = false := by
    by_contra he
    rw [isEmpty_insts (Bool.not_eq_false _ ▸ he)] at hMA
    exact nomatch hMA
  have ht := hr.clean.through_bubble hr.DE hA hne hB
  have hnext : Next S B.decoded.redirect.finish := ht.cycle_none
  have hrest := hr.clean.advance hA
  obtain ⟨hPC, hbr, hk⟩ := ht.undisturbed hrest
    ((hr.clean.advance_entering hA).trans (entering_of_bubble hr.DE))
  -- the word at the trap vector, or at `mepc`, is the first of the next span
  have hn1 : ((n + 1 : ℕ) : ℕ∞) ≤ N := by exact_mod_cast Order.add_one_le_of_lt hn
  have hfirst : (h.served (n + 1)).fetch = .ok (Decoder.decode w) := by
    refine hd.fetch_eq hn.le hn1 ?_
    rw [← hr.Mem, ← hr.PC, hw]
  have hlined : Lined (h.served (n + 1)) 0 0 (S.fetched w) := by
    refine hr.clean.lined hr.DE ⟨fun J hJ => (nomatch hr.IF.symm.trans hJ), fun _ => hr.PC⟩ ?_ hA
    intro w' hw' j hj _
    obtain rfl : w' = w := Except.ok.inj (hw'.symm.trans hw)
    obtain rfl : j = 0 := by exact_mod_cast nonpos_iff_eq_zero.mp hj
    exact hfirst
  obtain ⟨-, hfetch⟩ := hlined.decoded ht hrest hPC hbr hk
  obtain ⟨hDE, hIF⟩ := ht.kept hrest hk
  have hADE : (S.fetched w).PS.Insts.DE = none := by
    rw [hins.1]
    exact hr.IF
  rw [hADE] at hDE
  rw [expected_of_none hDE] at hfetch
  obtain ⟨-, -, hTMA, hTPC, hTEX⟩ := Next.backEnd hr.clean hnext
  have hdrain : ∀ a, a ∉ counters → B.decoded.redirect.finish.States a = S.drainMA a := by
    intro a ha
    have hne : a ≠ CYCLE := by
      rintro rfl
      exact ha List.mem_cons_self
    rw [hnext.states_of_bubble hr.clean hr.latched (entering_of_bubble hr.DE), CSRs.incCYCLE,
      CSRs.inc_of_ne _ hne]
  refine ⟨_, hnext, hdrain, fun hord => ⟨hr.clean.next hnext, hr.latched.next hr.clean hnext,
    hr.fetch,
    hr.isSystem, hTMA.trans hr.EX, hTPC.trans hr.PC_EX, hTEX.trans (entering_of_bubble hr.DE), hDE,
    hfetch, ?_, ?_, ?_, ?_, ?_⟩⟩
  · intro hdry
    rw [hIF, predictsIF_of_none (by rw [ht.insts.1]; exact hADE), if_neg Bool.false_ne_true,
      hins.1] at hdry
    have hdry : Decoder.decode w = none := hdry
    rw [← hdry]
    exact hfirst
  · rw [hsGP, Next.registers hr.clean hnext]
    cases hJ : S.PS.Insts.MA with
    | none =>
      have hn := hr.ahead
      rw [hJ, occ_none, Nat.add_zero] at hn
      rw [hn]
      exact hr.GPRegs
    | some J =>
      obtain ⟨hheld, heff⟩ := hr.MA J hJ
      rw [heff.GPRegs, ← hheld.result, ← hr.GPRegs]
  · rw [(cycle_frame B).2.2.1, (memoryaccess_frame hB).Mode, hwMode]
    exact hr.Mode
  · rw [hsMem, (cycle_frame B).2.1, hBMem, hwMem, ← hr.Mem]
    rfl
  · intro a ha
    rw [hdrain a ha, hr.lands ha]
    by_cases hup : a ∈ I.updates
    · split_ifs with hcsr
      · exact hr.inOrder hord hup hcsr
      · rfl
    · rw [Hart.served_succ, Hart.serve_States hr.fetch hr.isSystem hup, ite_self]

/-! ## The next span -/

/-- What `decode` latches for the first instruction of a span: nothing is in flight. -/
theorem decoded_settled {T : RIPSimulator σ} {J : Instruction} (hT : T = M.decoded.redirect.finish)
    (hEX : T.PS.Insts.EX = none) (hMA : T.PS.Insts.MA = none) (hins : M.PS.Insts.EX = none)
    (hins' : M.PS.Insts.MA = none) (hJ : M.PS.Insts.DE = some J)
    (hs : M.PS.StalledStages.DE = false) (hGP : T.GPRegs = g.GPRegs)
    (hSt : ∀ a, a ∉ counters → T.States a = g.States a)
    (hcsr : J.isCSR = true → J.csrAddr ∉ counters) : Operands g T J := by
  obtain ⟨h1, h2, h3⟩ := decoded_operands hT (hEX.trans hins.symm) (hMA.trans hins'.symm) hJ hs
    fun hJ hcyc => hcsr hJ (hcyc ▸ List.mem_cons_self)
  have hfwd : ∀ r, fwd T.PS r = none := by
    intro r
    unfold fwd
    rw [hEX, hMA]
    rfl
  have hfwdC : ∀ a, fwdCSR T.PS a = none := by
    intro a
    unfold fwdCSR
    rw [hEX, hMA]
    rfl
  refine ⟨fun hr1 => ?_, fun hr2 => ?_, fun hc => ?_⟩
  · rw [h1 hr1, hfwd, hGP]
    rfl
  · rw [h2 hr2, hfwd, hGP]
    rfl
  · rw [h3 hc, hfwdC]
    exact hSt _ (hcsr hc)

/-- **The system instruction is written back**, and the window of the next span is there. -/
theorem Leaving.resumes (hd : ServedDomain h N) (hl : Leaving h n I S) (hn : (n : ℕ∞) < N)
    (hs : Span h N (n + 1) L) (hw : ∃ w, S.Mem.readWord S.PC = .ok w) :
    ∃ T, Next S T ∧ Inv (h.served (n + 1)) L 0 T ∧ Paced (h.served (n + 1)) L T ∧
      T.issued 0 = 0 ∧ Abreast (h.served (n + 1)) 1 0 T := by
  have hreg := hd.regular hs
  obtain ⟨A, hA⟩ := advance_exists hw
  obtain ⟨hst, w, hw, rfl⟩ := hl.clean.advance_fetched hl.DE hA
  have hins := hl.clean.fetched_insts hst w
  obtain ⟨_, hwMem, hwMode, _, _, _, _, hwPS⟩ := (S.fetched w).written_frame
  have hent := entering_of_bubble hl.DE
  have hAMA : (S.fetched w).PS.Insts.MA = none := by
    rw [hins.1]
    exact hl.EX
  have hB : (S.fetched w).written.memoryaccess = .ok (S.fetched w).written := by
    unfold memoryaccess
    rw [hwPS, hAMA]
  have hne : (S.fetched w).PS.isEmpty = false := by
    have hWB : (S.fetched w).PS.Insts.WB = some I := by
      rw [hins.1]
      exact hl.MA
    by_contra he
    rw [isEmpty_insts (Bool.not_eq_false _ ▸ he)] at hWB
    cases hWB
  have ht := hl.clean.through_bubble hl.DE hA hne hB
  have hnext : Next S (S.fetched w).written.decoded.redirect.finish := ht.cycle_none
  have hrest := hl.clean.advance hA
  have hstall := (ht.atRest hrest).stall
  have hAEX := (hl.clean.advance_entering hA).trans hent
  obtain ⟨hPC, hbr, hk⟩ := ht.undisturbed hrest hAEX
  have hholds : ∀ x w', S.Mem.readWord x = .ok w' →
      (h.served (n + 1)).Holds L x (Decoder.decode w') := fun x w' hw' =>
    hreg.holds (i := 0) zero_le (hl.Mem ▸ hw')
  have hlined : Lined (h.served (n + 1)) L 0 (S.fetched w) :=
    hl.clean.lined hl.DE hl.fetching (fun w' hw' => hholds _ w' hw') hA
  obtain ⟨hfDE, hfetch⟩ := hlined.decoded ht hrest hPC hbr hk
  obtain ⟨hDE, hIF⟩ := ht.kept hrest hk
  obtain ⟨-, -, hMA, -, hEX⟩ := Next.backEnd hl.clean hnext
  obtain ⟨-, hfMem, hfMode, hfPC, hfst, -⟩ := cycle_frame (S.fetched w).written
  have hGP := Next.registers hl.clean hnext
  have hStates := hnext.states_of_bubble hl.clean hl.latched hent
  have hfor : ∀ J, (S.fetched w).PS.Insts.DE = some J →
      (S.fetched w).written.decoded.redirect.finish.foretold J =
        (S.fetched w).written.predictsIF := by
    intro J hJ
    refine decoded_foretold (by rw [ht.insts.1, hJ]) ?_
    rw [hstall]
    rfl
  obtain ⟨T, hT⟩ : ∃ T, T = (S.fetched w).written.decoded.redirect.finish := ⟨_, rfl⟩
  rw [← hT] at hnext hfDE hfetch hDE hIF hMA hEX hfMem hfMode hfPC hfst hGP hStates hfor
  rw [hl.EX] at hMA
  rw [hent] at hEX
  rw [hins.1] at hDE
  have hacc : T.accessed 0 = 0 := by
    rw [accessed, hMA]
    rfl
  have hiss : T.issued 0 = 0 := by
    rw [issued, hacc, hEX]
    rfl
  have hTst : T.PS.StalledStages.IF = false := by
    rw [hfst, hstall]
    rfl
  have hTGP : T.GPRegs = (h.served (n + 1)).GPRegs := by
    rw [hGP, hl.MA, ← hl.GPRegs]
    have hzero : S.GPRegs.write I.rd S.PS.MARdVal = S.GPRegs := by
      rw [hd.bare n I hn hl.fetch hl.isSystem]
      exact GPRegisters.write_zero _ _
    change (if I.hasRd then S.GPRegs.write I.rd S.PS.MARdVal else S.GPRegs) = _
    rw [hzero, ite_self]
  have hTSt : ∀ a, a ∉ counters → T.States a = (h.served (n + 1)).States a := by
    intro a ha
    have hne : a ≠ CYCLE := by
      rintro rfl
      exact ha List.mem_cons_self
    rw [hStates, CSRs.incCYCLE, CSRs.inc_of_ne _ hne, drainMA, hl.MA, ← hl.States a ha]
    change (if I.isCSR then _ else S.States : CSRs) a = _
    rw [Instruction.isCSR_of_isSystem hl.isSystem]
    rfl
  refine ⟨T, hnext, ⟨hl.clean.next hnext, hl.latched.next hl.clean hnext, ?_,
    ⟨hTGP, hTSt, ?_, ?_, ?_, ?_⟩,
    ?_, ?_⟩, ⟨?_, ?_⟩, hiss, ⟨?_, ?_⟩⟩
  · rw [hiss]
    exact bot_le
  · rw [hfMode, hwMode]
    exact hl.Mode
  · rw [hacc, hfMem, hwMem]
    exact hl.Mem
  · intro J hJ
    cases hMA.symm.trans hJ
  · intro J hJ
    cases hEX.symm.trans hJ
  · rw [hiss]
    refine ⟨hfDE, fun _ J hJ hN => ?_, hfetch⟩
    refine decoded_settled hT hEX hMA ?_ ?_ ?_ ?_ hTGP hTSt (hreg.admitted 0 J hN (hfDE J hJ).2).csr
    · rw [ht.insts.1]
      exact hAEX
    · rw [ht.insts.1]
      exact hAMA
    · rw [ht.insts.1, hins.1, ← hJ, hDE]
    · rw [hstall]
      rfl
  · intro J hJ
    cases hEX.symm.trans hJ
  · intro J hJ hpred
    rw [hfor J (by rw [hins.1, ← hJ, hDE])] at hpred
    rw [hIF, hpred, if_pos rfl]
  · intro J hJ hpred hdry
    have hJ' : S.PS.Insts.IF = some J := hDE.symm.trans hJ
    have hp := hpred
    rw [hfor J (by rw [hins.1, ← hJ, hDE])] at hp
    rw [hIF, hp, if_neg Bool.false_ne_true, hins.1] at hdry
    have hdry : Decoder.decode w = none := hdry
    obtain ⟨h1, h2, -⟩ := hl.fetching.IF J hJ'
    rw [following, hpred, if_neg Bool.false_ne_true, hfPC, ht.insts.2, hins.2, ← hdry]
    change (h.served (n + 1)).Holds L (S.PS.PCs.IF + 4) _
    rw [h1, ← h2]
    exact hholds _ w hw
  · intro K hK
    have hJ : ∃ J, T.PS.Insts.DE = some J := by
      cases hJ : S.PS.Insts.IF with
      | none => cases hK.symm.trans (hl.dry hJ)
      | some J => exact ⟨J, hDE.trans hJ⟩
    obtain ⟨J, hJ⟩ := hJ
    have hdist : T.dist = 1 := by
      unfold dist
      rw [hTst, if_neg Bool.false_ne_true, hJ]
    omega
  · intro _
    right
    unfold rest
    rw [hEX, hMA]

end RIPSimulator

end RipSim
