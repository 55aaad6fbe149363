import RipSim.Reference.Run
import RipSim.Pipeline.Traps

/-!
# Sequential runs with traps

`Hart.served h k` is the state after `k` instructions of a machine that also serves its
traps: `ecall` enters the handler and `mret` leaves it, with the fields of `mstatus` as the
privileged architecture has them.

`ServedDomain h N` is the domain of the comparison with the pipeline, said about this run alone;
`TrapDomain h` also keeps csr instructions away from the updates of a system instruction.  A run
with traps falls into spans without: `Span h N K L` says that from instruction `K` on the next
system instruction is the one after `L` others, and over a span the run is the one of
`Hart.after` (`Span.after_add`).  So each span is a regular run (`ServedDomain.regular`).
-/

namespace RipSim

open RIPSimulator

/-! ## System instructions -/

namespace Instruction

/-- `ecall` or `mret`. -/
def isSystem : Instruction → Bool
  | IInstruction .ecall _ _ _ | IInstruction .mret _ _ _ => true
  | _ => false

/-- The CSRs that a system instruction updates. -/
def updates : Instruction → List CSRAddress
  | IInstruction .ecall _ _ _ => updatedCSRs
  | IInstruction .mret _ _ _ => [MSTATUS]
  | _ => []

/-- There are two of them. -/
theorem system_cases {I : Instruction} (h : I.isSystem = true) :
    (∃ Rd Rs1 Imm, I = IInstruction .ecall Rd Rs1 Imm) ∨
      ∃ Rd Rs1 Imm, I = IInstruction .mret Rd Rs1 Imm := by
  cases I with
  | IInstruction IT Rd Rs1 Imm =>
    cases IT with
    | ecall => exact .inl ⟨Rd, Rs1, Imm, rfl⟩
    | mret => exact .inr ⟨Rd, Rs1, Imm, rfl⟩
    | _ => exact absurd h Bool.false_ne_true
  | _ => exact absurd h Bool.false_ne_true

theorem isPlain_of_isSystem {I : Instruction} (h : I.isSystem = true) : I.isPlain = false := by
  obtain ⟨_, _, _, rfl⟩ | ⟨_, _, _, rfl⟩ := system_cases h <;> rfl

theorem isCSR_of_isSystem {I : Instruction} (h : I.isSystem = true) : I.isCSR = false := by
  cases hc : I.isCSR with
  | false => rfl
  | true =>
    exact absurd ((isPlain_of_isSystem h).symm.trans (isPlain_of_isCSR hc)) Bool.false_ne_true

theorem isLoad_of_isSystem {I : Instruction} (h : I.isSystem = true) : I.isLoad = false := by
  obtain ⟨_, _, _, rfl⟩ | ⟨_, _, _, rfl⟩ := system_cases h <;> rfl

theorem isSType_of_isSystem {I : Instruction} (h : I.isSystem = true) : I.isSType = false := by
  obtain ⟨_, _, _, rfl⟩ | ⟨_, _, _, rfl⟩ := system_cases h <;> rfl

end Instruction

/-! ## The fields of `mstatus` -/

/-- `mstatus` in a handler entered from Machine mode: MPIE is what MIE was, MIE is clear, MPP
is Machine. -/
def trapStatus (v : RegVal) : RegVal := (v &&& 0xffffe777#32) ||| 0x1800#32 ||| (v &&& 8#32) <<< 4

/-- `mstatus` after a return: MIE is what MPIE was, MPIE is set, MPP is User. -/
def returnStatus (v : RegVal) : RegVal :=
  (v &&& 0xffffe777#32) ||| 0x80#32 ||| (v &&& 0x80#32) >>> 4

theorem trapStatus_bits (v : RegVal) (i : ℕ) (hi : i < 32) :
    (trapStatus v).getLsbD i = if i = 11 ∨ i = 12 then true else if i = 3 then false
      else if i = 7 then v.getLsbD 3 else v.getLsbD i := by
  simp only [trapStatus, BitVec.getLsbD_or, BitVec.getLsbD_and, BitVec.getLsbD_shiftLeft]
  interval_cases i <;> simp

theorem returnStatus_bits (v : RegVal) (i : ℕ) (hi : i < 32) :
    (returnStatus v).getLsbD i = if i = 11 ∨ i = 12 then false else if i = 7 then true
      else if i = 3 then v.getLsbD 7 else v.getLsbD i := by
  simp only [returnStatus, BitVec.getLsbD_or, BitVec.getLsbD_and, BitVec.getLsbD_ushiftRight]
  interval_cases i <;> simp

/-- The `mret`s that stay in Machine mode: to Machine mode, or to User mode, which neither
simulator has, with MPRV clear. -/
def Returns (v : RegVal) : Prop :=
  ModeKind.ofMPP v = .Machine ∨ ModeKind.ofMPP v = .User ∧ v.getLsbD 17 = false

instance (v : RegVal) : Decidable (Returns v) :=
  inferInstanceAs (Decidable (_ ∨ _ ∧ _))

/-! ## The run -/

namespace Hart

/-- The trap of an `ecall` in Machine mode. -/
def trap (h : Hart) : Hart :=
  { h with
    PC := (h.States MTVEC &&& ~~~1#32).signExtend 64
    States := fun a =>
      if a = MEPC then (h.PC &&& ~~~1#64).setWidth 32
      else if a = MCAUSE then 11
      else if a = MTVAL then 0
      else if a = MSTATUS then trapStatus (h.States MSTATUS)
      else h.States a }

/-- The return of an `mret`. -/
def resume (h : Hart) : Hart :=
  { h with
    PC := (h.States MEPC).signExtend 64
    States := fun a => if a = MSTATUS then returnStatus (h.States MSTATUS) else h.States a }

/-- One instruction, a trap or the return from one. -/
def serve (h : Hart) : Hart :=
  match h.fetch with
  | .ok (some (.IInstruction .ecall _ _ _)) => h.trap
  | .ok (some (.IInstruction .mret _ _ _)) => h.resume
  | _ => h.next

/-- The state after `k` of them. -/
def served (h : Hart) : ℕ → Hart
  | 0 => h
  | k + 1 => (h.served k).serve

variable {h : Hart}

@[simp] theorem served_zero : h.served 0 = h := rfl

theorem served_succ (k : ℕ) : h.served (k + 1) = (h.served k).serve := rfl

theorem serve_ecall {Rd Rs1 : BitVec 5} {Imm : BitVec 12}
    (hf : h.fetch = .ok (some (.IInstruction .ecall Rd Rs1 Imm))) : h.serve = h.trap := by
  unfold serve
  rw [hf]

theorem serve_mret {Rd Rs1 : BitVec 5} {Imm : BitVec 12}
    (hf : h.fetch = .ok (some (.IInstruction .mret Rd Rs1 Imm))) : h.serve = h.resume := by
  unfold serve
  rw [hf]

/-- What is not a system instruction is executed as before. -/
theorem serve_eq_next (hs : ∀ I, h.fetch = .ok (some I) → I.isSystem = false) :
    h.serve = h.next := by
  unfold serve
  split
  · next hf => exact absurd (hs _ hf) Bool.noConfusion
  · next hf => exact absurd (hs _ hf) Bool.noConfusion
  · rfl

/-- A run that has ended stays where it is. -/
theorem served_of_none {m k : ℕ} (hm : (h.served m).fetch = .ok none) (hk : m ≤ k) :
    h.served k = h.served m := by
  induction k, hk using Nat.le_induction with
  | base => rfl
  | succ k _ ih =>
    rw [served_succ, ih, serve_eq_next fun I hI => (nomatch hm.symm.trans hI), next_of_none hm]

/-- A system instruction leaves the registers, the memory and the mode alone. -/
theorem serve_frame {I : Instruction} (hf : h.fetch = .ok (some I)) (hI : I.isSystem = true) :
    h.serve.GPRegs = h.GPRegs ∧ h.serve.Mem = h.Mem ∧ h.serve.Mode = h.Mode := by
  obtain ⟨_, _, _, rfl⟩ | ⟨_, _, _, rfl⟩ := Instruction.system_cases hI
  · rw [serve_ecall hf]
    exact ⟨rfl, rfl, rfl⟩
  · rw [serve_mret hf]
    exact ⟨rfl, rfl, rfl⟩

theorem trap_States_of_not_mem {a : CSRAddress} (ha : a ∉ updatedCSRs) :
    h.trap.States a = h.States a := by
  simp only [updatedCSRs, List.mem_cons, List.not_mem_nil, or_false, not_or] at ha
  exact (if_neg ha.2.1).trans ((if_neg ha.2.2.1).trans ((if_neg ha.2.2.2).trans (if_neg ha.1)))

/-- A system instruction leaves the CSRs alone that it does not update. -/
theorem serve_States {I : Instruction} (hf : h.fetch = .ok (some I)) (hI : I.isSystem = true)
    {a : CSRAddress} (ha : a ∉ I.updates) : h.serve.States a = h.States a := by
  obtain ⟨_, _, _, rfl⟩ | ⟨_, _, _, rfl⟩ := Instruction.system_cases hI
  · rw [serve_ecall hf]
    exact trap_States_of_not_mem ha
  · rw [serve_mret hf]
    exact if_neg fun h' => ha (List.mem_singleton.mpr h')

/-- The reference executes these `mret`s as `Instruction::exec` does. -/
theorem mret_resume (hm : h.Mode = .Machine) (hr : Returns (h.States MSTATUS)) :
    h.mret = (none, h.resume) := by
  have hval : ((h.States MSTATUS &&& 0xfffffff7#32) |||
    ofBool ((h.States MSTATUS).getLsbD 7) <<< 3 |||
      0b10000000#32) &&& 0xffffe7ff#32 = returnStatus (h.States MSTATUS) := by
    apply BitVec.eq_of_getLsbD_eq
    intro i hi
    rw [returnStatus_bits _ i hi]
    simp only [BitVec.getLsbD_or, BitVec.getLsbD_and, BitVec.getLsbD_shiftLeft, ofBool]
    interval_cases i <;> simp
  have hSt : ∀ St : CSRs, (∀ a, a ≠ MSTATUS → St a = h.States a) →
      St.write MSTATUS (returnStatus (h.States MSTATUS)) = h.resume.States := by
    intro St hSt
    funext a
    by_cases ha : a = MSTATUS
    · rw [ha, CSRs.write_self]
      rfl
    · rw [CSRs.write_of_ne _ ha, hSt a ha]
      exact (if_neg ha).symm
  unfold Hart.mret CSRs.read
  dsimp only
  rw [hval]
  rcases hr with hr | ⟨hr, -⟩ <;> rw [hr] <;> dsimp only <;> rw [hSt]
  · rw [← hm]
    rfl
  · exact fun _ _ => rfl
  · rfl
  · exact fun a ha => CSRs.write_of_ne _ ha _

/-- The trap entry of the pipeline, on CSRs that have the same `mstatus`. -/
theorem trapStates_trap {St : CSRs} {a : CSRAddress} (ha : a ∈ updatedCSRs)
    (hst : a = MSTATUS → St MSTATUS = h.States MSTATUS) :
    trapStates St h.PC .EnvironmentCallFromMMode 0 .Machine a = h.trap.States a := by
  simp only [updatedCSRs, List.mem_cons, List.not_mem_nil, or_false] at ha
  rcases ha with rfl | rfl | rfl | rfl
  · apply BitVec.eq_of_getLsbD_eq
    intro i hi
    rw [trapStates_mstatus _ _ _ _ i hi, hst rfl]
    exact (trapStatus_bits _ i hi).symm
  · simp [trapStates, CSRs.setMPP, CSRs.setMIE, CSRs.setMPIE, CSRs.write, CSRs.read, MSTATUS,
      MEPC, MCAUSE, MTVAL, trap]
  · simp [trapStates, CSRs.setMPP, CSRs.setMIE, CSRs.setMPIE, CSRs.write, CSRs.read, MSTATUS,
      MEPC, MCAUSE, MTVAL, trap, Exception.cause]
  · simp [trapStates, CSRs.setMPP, CSRs.setMIE, CSRs.setMPIE, CSRs.write, CSRs.read, MSTATUS,
      MEPC, MCAUSE, MTVAL, trap]

/-- The return of the pipeline, on CSRs that have the same `mstatus`. -/
theorem mretStates_resume (hr : Returns (h.States MSTATUS)) {St : CSRs}
    (hst : St MSTATUS = h.States MSTATUS) :
    mretStates St (h.States MSTATUS) MSTATUS = h.resume.States MSTATUS := by
  rw [mretStates_mstatus St h.States _ hst]
  apply BitVec.eq_of_getLsbD_eq
  intro i hi
  rw [mretStates_mstatus_bits _ i hi]
  refine Eq.trans ?_ (returnStatus_bits _ i hi).symm
  by_cases h17 : i = 17
  · subst h17
    rcases hr with hr | ⟨hr, hv⟩ <;> simp [hr]
    exact hv
  · simp [h17]

end Hart

/-! ## Runs that end -/

/-- The run from `h` executes these instructions, and then there is none. -/
def Executes (h : Hart) (insts : List Instruction) : Prop :=
  ∀ k, (h.served k).fetch = .ok insts[k]?

namespace Executes

variable {h : Hart} {insts : List Instruction} {k : ℕ} {I : Instruction}

theorem ended (he : Executes h insts) : (h.served insts.length).fetch = .ok none := by
  rw [he, List.getElem?_eq_none le_rfl]

theorem live (he : Executes h insts) (hk : k < insts.length) :
    ∃ I, (h.served k).fetch = .ok (some I) :=
  ⟨_, (he k).trans (congrArg Except.ok (List.getElem?_eq_getElem hk))⟩

theorem getElem (he : Executes h insts) (hf : (h.served k).fetch = .ok (some I)) :
    insts[k]? = some I :=
  Except.ok.inj ((he k).symm.trans hf)

theorem lt (he : Executes h insts) (hf : (h.served k).fetch = .ok (some I)) : k < insts.length :=
  (List.getElem?_eq_some_iff.mp (he.getElem hf)).1

theorem mem (he : Executes h insts) (hf : (h.served k).fetch = .ok (some I)) : I ∈ insts :=
  List.mem_of_getElem? (he.getElem hf)

end Executes

/-! ## The domain of the comparison -/

/-- The first `N` instructions of the run from `h` on are in the domain of the comparison with
the pipeline, but for the order of the updates of a CSR. -/
structure ServedDomain (h : Hart) (N : ℕ∞) : Prop where
  machine : h.Mode = .Machine
  inDRAM : ∀ k : ℕ, k ≤ N → ∃ o, (h.served k).fetch = .ok o
  admitted : ∀ (k : ℕ) I, k < N → (h.served k).fetch = .ok (some I) → I.isSystem = false →
    Admitted I (h.served k)
  /-- The field of a system instruction for a register is zero. -/
  bare : ∀ (k : ℕ) I, k < N → (h.served k).fetch = .ok (some I) → I.isSystem = true → I.rd = 0
  returns : ∀ (k : ℕ) I, k < N → (h.served k).fetch = .ok (some I) → I.isMret = true →
    Returns ((h.served k).States MSTATUS)
  /-- Only a jump may leave a nonzero value for `x0` ahead of a reader of `x0`, as long as there
  is no system instruction between them. -/
  quiet : ∀ (k d : ℕ) I J, d = 1 ∨ d = 2 → (k + d : ℕ) < N →
    (h.served k).fetch = .ok (some I) → (h.served (k + d)).fetch = .ok (some J) →
    (∀ i ≤ d, ∀ K, (h.served (k + i)).fetch = .ok (some K) → K.isSystem = false) →
    I.hasRd = true → I.rd = 0 → I.isJump = false → (h.served k).result I ≠ 0 → ¬ J.readsZero
  /-- No instruction changes a word that is fetched. -/
  frozen : ∀ j k : ℕ, j ≤ N → k < N → (h.served (k + 1)).Mem.readWord (h.served j).PC =
    (h.served k).Mem.readWord (h.served j).PC

/-- The run from `h` on is in the domain of the comparison with the pipeline. -/
structure TrapDomain (h : Hart) : Prop extends ServedDomain h ⊤ where
  /-- No csr instruction on a CSR stands right in front of its update by a system instruction. -/
  apart : ∀ k I K, (h.served k).fetch = .ok (some I) → (h.served (k + 1)).fetch = .ok (some K) →
    I.isCSR = true → I.csrAddr ∉ K.updates

/-- If instruction `k` is a csr instruction on a CSR that the system instruction behind it
updates, it has put there what the update puts there. -/
def InOrder (h : Hart) (k : ℕ) : Prop :=
  ∀ I K, (h.served k).fetch = .ok (some I) → (h.served (k + 1)).fetch = .ok (some K) →
    I.isCSR = true → I.csrAddr ∈ K.updates →
    (h.served (k + 1)).States I.csrAddr = (h.served (k + 2)).States I.csrAddr

theorem TrapDomain.inOrder {h : Hart} (hd : TrapDomain h) (k : ℕ) : InOrder h k :=
  fun I K hI hK hcsr hup => absurd hup (hd.apart k I K hI hK hcsr)

/-! ## Spans -/

/-- From instruction `K` on the next system instruction among the first `N` comes after `L`
others, or all of them do. -/
structure Span (h : Hart) (N : ℕ∞) (K : ℕ) (L : ℕ∞) : Prop where
  within : K + L ≤ N
  plain : ∀ (k : ℕ) I, k < L → ((h.served K).after k).fetch = .ok (some I) → I.isSystem = false
  ends : ∀ l : ℕ, L = l → (K + l : ℕ) < N →
    ∃ I, ((h.served K).after l).fetch = .ok (some I) ∧ I.isSystem = true

theorem exists_span (h : Hart) {N : ℕ∞} {K : ℕ} (hK : K ≤ N) : ∃ L, Span h N K L := by
  classical
  by_cases hs : ∃ n, ((K + n : ℕ) : ℕ∞) < N ∧
      ∃ I, ((h.served K).after n).fetch = .ok (some I) ∧ I.isSystem = true
  · obtain ⟨hlt, hsys⟩ := Nat.find_spec hs
    refine ⟨(Nat.find hs : ℕ), ?_, ?_, ?_⟩
    · exact_mod_cast hlt.le
    · intro k I hk hf
      have hk : k < Nat.find hs := by exact_mod_cast hk
      by_contra hI
      refine Nat.find_min hs hk ⟨lt_trans ?_ hlt, I, hf, Bool.not_eq_false _ ▸ hI⟩
      exact_mod_cast Nat.add_lt_add_left hk K
    · intro l hl _
      obtain rfl : Nat.find hs = l := by exact_mod_cast hl
      exact hsys
  · have hplain : ∀ (k : ℕ) I, ((K + k : ℕ) : ℕ∞) < N →
        ((h.served K).after k).fetch = .ok (some I) → I.isSystem = false := by
      intro k I hk hf
      by_contra hI
      exact hs ⟨k, hk, I, hf, Bool.not_eq_false _ ▸ hI⟩
    obtain ⟨L, rfl⟩ : ∃ L, N = K + L := ⟨N - K, (add_tsub_cancel_of_le hK).symm⟩
    refine ⟨L, le_rfl, fun k I hk hf => hplain k I ?_ hf, ?_⟩
    · rw [Nat.cast_add]
      exact (ENat.add_lt_add_iff_left (ENat.natCast_ne_top K)).mpr hk
    · rintro l rfl hl
      exact absurd hl (by rw [Nat.cast_add]; exact lt_irrefl _)

namespace Span

variable {h : Hart} {N L : ℕ∞} {K k : ℕ}

/-- Over a span the run with traps is the one without. -/
theorem after_add (hs : Span h N K L) (hk : k ≤ L) :
    (h.served K).after k = h.served (K + k) := by
  induction k with
  | zero => rfl
  | succ k ih =>
    have hlt : (k : ℕ∞) < L := lt_of_lt_of_le (by exact_mod_cast Nat.lt_succ_self k) hk
    have ih := ih hlt.le
    rw [Hart.after_succ, ← Nat.add_assoc, Hart.served_succ, ih]
    refine (Hart.serve_eq_next fun I hI => hs.plain k I hlt ?_).symm
    rw [ih]
    exact hI

theorem add_le (hs : Span h N K L) (hk : k ≤ L) : ((K + k : ℕ) : ℕ∞) ≤ N := by
  rw [Nat.cast_add]
  exact (by gcongr : (K : ℕ∞) + k ≤ K + L).trans hs.within

theorem add_lt (hs : Span h N K L) (hk : k < L) : ((K + k : ℕ) : ℕ∞) < N := by
  have hle := hs.add_le (k := k + 1) (by exact_mod_cast Order.add_one_le_of_lt hk)
  exact lt_of_lt_of_le (by exact_mod_cast Nat.lt_succ_self (K + k)) hle

theorem start_le (hs : Span h N K L) : (K : ℕ∞) ≤ N :=
  le_self_add.trans hs.within

end Span

namespace ServedDomain

variable {h : Hart} {N L : ℕ∞} {K : ℕ}

theorem mode (hd : ServedDomain h N) {k : ℕ} (hk : k ≤ N) : (h.served k).Mode = .Machine := by
  induction k with
  | zero => exact hd.machine
  | succ k ih =>
    have hlt : (k : ℕ∞) < N := lt_of_lt_of_le (by exact_mod_cast Nat.lt_succ_self k) hk
    have ih := ih hlt.le
    rw [Hart.served_succ]
    obtain ⟨o, hf⟩ := hd.inDRAM k hlt.le
    cases o with
    | none =>
      rw [Hart.serve_eq_next fun I hI => (nomatch hf.symm.trans hI), Hart.next_of_none hf]
      exact ih
    | some I =>
      cases hI : I.isSystem with
      | true => exact (Hart.serve_frame hf hI).2.2.trans ih
      | false =>
        have hs := hd.admitted k I hlt hf hI
        obtain ⟨⟨e, h'⟩, he⟩ := hs.access
        obtain rfl : e = none := Instruction.execRef_none hs.plain he
        rw [Hart.serve_eq_next fun J hJ => by
          rwa [← Option.some.inj (Except.ok.inj (hf.symm.trans hJ))], Hart.next_of_exec hf he]
        exact (execRef_effect hs (by rw [ih]; decide) he).Mode.trans ih

/-- The words that are fetched stay the same over the whole run. -/
theorem readWord (hd : ServedDomain h N) {i j : ℕ} (hi : i ≤ N) (hj : j ≤ N) :
    (h.served i).Mem.readWord (h.served j).PC = h.Mem.readWord (h.served j).PC := by
  induction i with
  | zero => rfl
  | succ i ih =>
    have hlt : (i : ℕ∞) < N := lt_of_lt_of_le (by exact_mod_cast Nat.lt_succ_self i) hi
    rw [hd.frozen j i hj hlt, ih hlt.le]

/-- A word fetched from the memory of any state of the run is the one the run finds. -/
theorem fetch_eq (hd : ServedDomain h N) {i j : ℕ} (hi : i ≤ N) (hj : j ≤ N) {w : Word}
    (hw : (h.served i).Mem.readWord (h.served j).PC = .ok w) :
    (h.served j).fetch = .ok (Decoder.decode w) := by
  apply Hart.fetch_of_word
  rw [hd.readWord hj hj, ← hd.readWord hi hj, hw]

/-- **Each span is a regular run.** -/
theorem regular (hd : ServedDomain h N) (hs : Span h N K L) : Regular (h.served K) L := by
  refine ⟨hd.mode hs.start_le, ?_, ?_, ?_, ?_⟩
  · intro k hk
    rw [hs.after_add hk]
    exact hd.inDRAM _ (hs.add_le hk)
  · intro k I hk hf
    have hI := hs.plain k I hk hf
    rw [hs.after_add hk.le] at hf ⊢
    exact hd.admitted _ I (hs.add_lt hk) hf hI
  · intro k d I J hd' hk hf hf'
    have hlt : ((k : ℕ) : ℕ∞) ≤ L := le_trans (by exact_mod_cast Nat.le_add_right k d) hk.le
    rw [hs.after_add hlt] at hf ⊢
    rw [hs.after_add hk.le, ← Nat.add_assoc] at hf'
    refine hd.quiet _ d I J hd' (Nat.add_assoc K k d ▸ hs.add_lt hk) hf hf' fun i hi M hM => ?_
    have hlt : ((k + i : ℕ) : ℕ∞) < L := lt_of_le_of_lt (by exact_mod_cast (by omega)) hk
    refine hs.plain (k + i) M hlt ?_
    rw [hs.after_add hlt.le, ← Nat.add_assoc]
    exact hM
  · intro j k hj hk
    have hk' : ((k + 1 : ℕ) : ℕ∞) ≤ L := by exact_mod_cast Order.add_one_le_of_lt hk
    rw [hs.after_add hj, hs.after_add hk.le, hs.after_add hk', ← Nat.add_assoc]
    exact hd.frozen _ _ (hs.add_le hj) (hs.add_lt hk)

end ServedDomain

end RipSim
