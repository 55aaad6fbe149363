import RipSim.Refinement.CycleCount
import RipSim.Reference.Profile

/-!
# The statistics of the two simulators

`finish` counts what is in EX after the bubbles have been filled in, so a stalled or a squashed
instruction is not counted; and an instruction stays in EX for one cycle only.  So the pipeline
counts the instructions of the sequential run, each once, as the instruction-level simulator
does.  What the counters add up to is the number of instructions as long as none of them wraps
around, and a loop that runs `2 ^ 32` times makes two of them wrap.
-/

namespace RipSim

namespace RIPSimulator

variable {σ : Type} [BranchPredictor σ] {h : Hart} {N : ℕ∞} {c : ℕ} {S A B M : RIPSimulator σ}

/-- The pipeline has counted the first `m` instructions of the run. -/
def Counting (h : Hart) (m : ℕ) (S : RIPSimulator σ) : Prop :=
  S.Stats = some (Profile.of (h.insts m)).toStatistics

omit [BranchPredictor σ] in
theorem finish_stats_none (h : S.finish.PS.Insts.EX = none) : S.finish.Stats = S.Stats := by
  unfold finish at h ⊢
  dsimp only at h ⊢
  rw [h]

omit [BranchPredictor σ] in
theorem finish_stats_some {I : Instruction} (h : S.finish.PS.Insts.EX = some I) :
    S.finish.Stats = S.Stats.map (·.count I) := by
  unfold finish at h ⊢
  dsimp only at h ⊢
  rw [h]

/-- **A cycle counts what it has taken to EX.** -/
theorem Inv.counting (hi : Inv h N c S) (ht : Through S A B M none)
    (hS : Counting h (S.issued c) S) :
    Counting h (M.decoded.redirect.finish.issued (S.accessed c)) M.decoded.redirect.finish := by
  obtain ⟨_, _, _, _, _, hwStats, _⟩ := A.written_frame
  obtain ⟨_, _, _, _, _, _, haStats, _⟩ := advance_frame ht.advance
  obtain ⟨_, _, _, _, _, _, hdStats, _⟩ := M.decoded_frame
  have hStats : M.decoded.redirect.Stats = S.Stats := by
    rw [redirect_eq]
    show M.decoded.Stats = _
    rw [hdStats, (exec_frame ht.exec).Stats, (memoryaccess_frame ht.access).Stats, hwStats, haStats]
  have hEX := (hi.moved ht).2
  rw [Counting, hi.issued_next ht]
  cases hI : S.entering with
  | none =>
    have hfin : M.decoded.redirect.finish.Stats = S.Stats := by
      rw [finish_stats_none (hEX.trans hI), hStats]
    rw [hfin, hS]
    rfl
  | some I =>
    have hfin : M.decoded.redirect.finish.Stats = S.Stats.map (·.count I) := by
      rw [finish_stats_some (hEX.trans hI), hStats]
    rw [hfin, hS, occ_some, Hart.insts_of_some (hi.entering hI).2.2.2, Profile.of_concat,
      Profile.toStatistics_count]
    rfl

/-- While there is something in the pipeline the run is not far behind the cycles. -/
theorem Running.budget {t : ℕ} {log : List (Address × Instruction)} {n : ℕ}
    (hr : Running h t log.length S) (hd : Regular h ⊤)
    (htr : ∀ k p, log[k]? = some p → p.1 = (h.after k).PC ∧ (h.after k).fetch = .ok (some p.2))
    (hend : (h.after n).fetch = .ok none) (ht : Through S A B M none) : t < 3 * n + 3 := by
  have hle : S.issued log.length ≤ n := by
    by_contra hlt
    obtain ⟨I, hI⟩ := hr.inv.live htr (Nat.not_le.mp hlt)
    exact nomatch hend.symm.trans hI
  obtain ⟨o, ho⟩ := hd.inDRAM (S.issued log.length) le_top
  cases o with
  | none =>
    have hrest := (hr.inv.rest_dry hd ht ho).2
    rcases hr.abreast.dry ho with h1 | h1 <;> omega
  | some K =>
    have hlt : S.issued log.length ≠ n := by
      intro heq
      rw [heq] at ho
      exact nomatch hend.symm.trans ho
    have hlive := hr.abreast.live K ho
    omega

/-- The cycle that finds the pipeline empty ends the run. -/
theorem Running.stops_of_empty {S₀ : RIPSimulator σ} {t : ℕ} {log : List (Address × Instruction)}
    (hr : Running h t log.length S) (hd : Regular h ⊤) (hrun : S₀.proceeds t = .ok (log, S))
    (hc : S.cycle = .ok (.empty, A)) (hA : S.advance = .ok A) (he : A.PS.isEmpty = true)
    (fuel : ℕ) :
    ∃ T t' log', runLoop none (fuel + 1) S = .ok (some T) ∧ S₀.proceeds t' = .ok (log', T) ∧
      (h.after log'.length).fetch = .ok none ∧ T.issued log'.length = log'.length := by
  have hlog := Logs.runLog_succ hrun (proceed_of_empty hc)
  rw [RIPSimulator.retired, isEmpty_insts he] at hlog
  refine ⟨A, t + 1, log, runLoop_of_empty hc he fuel, ?_, (hr.inv.empty hd hA he).2.1,
    (issued_of_empty (isEmpty_insts he) _).2⟩
  rw [proceeds, hlog]
  exact congrArg (fun l => Except.ok (l, A)) (List.append_nil log)

/-- **A run that comes to an undecodable word stops**, with an empty pipeline. -/
theorem Started.stops {S₀ : RIPSimulator σ} (h₀ : Started S₀) (hd : Regular S₀.hart ⊤)
    (hf : FetchesInDRAM S₀) {n : ℕ} (hend : (S₀.hart.after n).fetch = .ok none) (fuel : ℕ) :
    ∀ {t log S}, S₀.proceeds t = .ok (log, S) → 3 * n + 3 ≤ t + fuel →
      ∃ T t' log', runLoop none (fuel + 1) S = .ok (some T) ∧ S₀.proceeds t' = .ok (log', T) ∧
        (S₀.hart.after log'.length).fetch = .ok none ∧ T.issued log'.length = log'.length := by
  have hN : ∀ {c : ℕ} {S : RIPSimulator σ} I, S.entering = some I → (S.issued c : ℕ∞) < ⊤ :=
    fun _ _ => ENat.natCast_lt_top _
  induction fuel with
  | zero =>
    intro t log S hrun hfuel
    obtain ⟨log', S', hrun', hr, href⟩ := h₀.run hd (fun n _ log S h _ => hf n log S h) t
    obtain ⟨rfl, rfl⟩ := Prod.mk.inj (Except.ok.inj (hrun.symm.trans hrun'))
    rcases hr.inv.cycle hd (hf t log S hrun) hN with ⟨A, hc, hA, he⟩ | ⟨A, B, M, ht, hc, -⟩
    · exact hr.stops_of_empty hd hrun hc hA he 0
    · have := hr.budget hd href.trace hend ht
      omega
  | succ fuel ih =>
    intro t log S hrun hfuel
    obtain ⟨log', S', hrun', hr, href⟩ := h₀.run hd (fun n _ log S h _ => hf n log S h) t
    obtain ⟨rfl, rfl⟩ := Prod.mk.inj (Except.ok.inj (hrun.symm.trans hrun'))
    rcases hr.inv.cycle hd (hf t log S hrun) hN with ⟨A, hc, hA, he⟩ | ⟨A, B, M, ht, hc, -⟩
    · exact hr.stops_of_empty hd hrun hc hA he (fuel + 1)
    · rw [runLoop_of_next hc (hr.inv.nonempty_next ht)]
      exact ih (Logs.runLog_succ hrun (proceed_of_next hc)) (by omega)

omit [BranchPredictor σ] in
theorem Started.counting (h₀ : Started S) (hS : S.Stats = some Statistics.new) :
    Counting S.hart (S.issued 0) S := by
  rw [(issued_of_empty h₀.insts 0).2]
  exact hS

/-- The statistics at the end of a run. -/
theorem Started.counts {S₀ : RIPSimulator σ} (h₀ : Started S₀) (hd : Regular S₀.hart ⊤)
    (hf : FetchesInDRAM S₀) (hS : S₀.Stats = some Statistics.new) {n : ℕ}
    (hend : (S₀.hart.after n).fetch = .ok none) :
    ∃ fuel T, S₀.run none none fuel = .ok (some T) ∧ Counting S₀.hart n T := by
  obtain ⟨T, t, log, hrun, hT, hdry, hiss⟩ :=
    h₀.stops hd hf hend (3 * n + 3) rfl (Nat.le_add_left _ 0)
  have hempty : ∀ (c : ℕ) (S A : RIPSimulator σ), Inv S₀.hart ⊤ c S → S.advance = .ok A →
    A.PS.isEmpty = true →
      Counting S₀.hart (S.issued c) S → Counting S₀.hart (A.issued c) A := by
    intro c S A hi hA he hS
    obtain ⟨-, -, -, -, -, -, haStats, -⟩ := advance_frame hA
    rw [(issued_of_empty (isEmpty_insts he) c).2, ← (hi.empty hd hA he).2.2]
    exact haStats.trans hS
  obtain ⟨log', T', hT', -, hcount⟩ := h₀.run_keeps hd hf (h₀.counting hS) hempty
    (fun _ _ _ _ _ hi ht hS => hi.counting ht hS) t
  obtain ⟨rfl, rfl⟩ := Prod.mk.inj (Except.ok.inj (hT.symm.trans hT'))
  refine ⟨_, T, hrun, ?_⟩
  have hsame : S₀.hart.insts log.length = S₀.hart.insts n := by
    rcases Nat.le_total log.length n with hle | hle
    · exact (Hart.insts_of_none hdry hle).symm
    · exact Hart.insts_of_none hend hle
  rwa [hiss, Counting, hsame] at hcount

/-- When the counts of the mnemonics add up. -/
theorem Started.counts_total {S₀ : RIPSimulator σ} (h₀ : Started S₀) (hd : Regular S₀.hart ⊤)
    (hf : FetchesInDRAM S₀) (hS : S₀.Stats = some Statistics.new) {n : ℕ} (hlive : S₀.hart.Live n)
    (hend : (S₀.hart.after n).fetch = .ok none) :
    ∃ fuel T Stats, S₀.run none none fuel = .ok (some T) ∧ T.Stats = some Stats ∧
      (Tally.total Stats.InstCounts (fun _ => 1) = n ↔
        Tally.Fits 32 ((S₀.hart.insts n).map Instruction.getMnemo)) := by
  obtain ⟨fuel, T, hrun, hT⟩ := h₀.counts hd hf hS hend
  refine ⟨fuel, T, _, hrun, hT, ?_⟩
  have hiff := Tally.total_one_iff (w := 32) ((S₀.hart.insts n).map Instruction.getMnemo)
  rw [List.length_map, Hart.length_insts hlive le_rfl, ← (Profile.of_sums _).1] at hiff
  rw [← (Profile.of_sums _).1]
  exact hiff

end RIPSimulator

open RIPSimulator

/-- **The statistics of the simulators agree.**  A run of `n` instructions ends in both with the
same statistics.  They are the profile of the sequential run as counters of 32 bits show it:
their sums are the numbers of instructions, branches and others modulo `2 ^ 32`, and these
numbers themselves exactly if no counter wraps around. -/
theorem statistics_agree {σ : Type} [BranchPredictor σ] {S₀ : RIPSimulator σ} (h₀ : Started S₀)
    (hS : S₀.Stats = some Statistics.new) {n : ℕ} (hd : Domain S₀.hart n)
    (hcsr : S₀.hart.CSRFree n) (hlive : S₀.hart.Live n)
    (hend : (S₀.hart.after n).fetch = .ok none) (hf : FetchesInDRAM S₀) {s₀ : Simulator}
    (hs : s₀.hart = S₀.hart) (hs' : s₀.Stats = Statistics.new) :
    ∃ fuel S s, S₀.run none none fuel = .ok (some S) ∧ s₀.after n = some s ∧
      s.iterate none = .ok none ∧ S.Stats = some s.Stats ∧
      s.Stats = (Profile.of (S₀.hart.insts n)).toStatistics ∧
      s.Stats.SumsMod n ((S₀.hart.insts n).countP Instruction.isBType)
        ((S₀.hart.insts n).countP fun I => !I.isBType) ∧
      (s.Stats.Sums n ((S₀.hart.insts n).countP Instruction.isBType)
        ((S₀.hart.insts n).countP fun I => !I.isBType) ↔
          (Profile.of (S₀.hart.insts n)).Fits) := by
  obtain ⟨fuel, T, hrun, hT⟩ := h₀.counts (hd.regular.extend hend) hf hS hend
  obtain ⟨s, X, ha, hX, hSt⟩ :=
    Simulator.after_Stats hd.regular hcsr hlive hs hs' (Nat.le_refl n)
  obtain ⟨h1, h2, h3⟩ := Profile.of_sums (S₀.hart.insts n)
  have h1' : (Profile.of (S₀.hart.insts n)).mnemos.length = n := by
    rw [h1, List.length_map, Hart.length_insts hlive (Nat.le_refl n)]
  have hmod := (Profile.of (S₀.hart.insts n)).sumsMod
  have hiff := (Profile.of (S₀.hart.insts n)).sums_iff
  rw [h1', h2, h3] at hmod hiff
  refine ⟨fuel, T, s, hrun, ha, Simulator.iterate_none ?_, ?_, hSt, hSt ▸ hmod, hSt ▸ hiff⟩
  · rw [hX]
    exact hend
  · rw [hT, hSt]

/-! ## A loop that makes two counters wrap around -/

/-- `addi x1, x1, 1; bne x1, x0, -4`, in front of an undecodable word. -/
def spinner : RIPSimulator OneBitBranchPredictor :=
  { boot [0x00108093, 0xfe009ee3] none with Stats := some Statistics.new }

namespace Spinner

/-- The two instructions. -/
def body : List Instruction := [.IInstruction .addi 1 1 1, .BInstruction .bne 1 0 (-4)]

/-- At address `p`, with the value `v` in `x1`. -/
def state (p : Address) (v : RegVal) : Hart :=
  { spinner.hart with PC := p, GPRegs := spinner.hart.GPRegs.write 1 v }

theorem fetch_state (p : Address) (v : RegVal) : (state p v).fetch = (state p 0).fetch := rfl

theorem fetch_addi (v : RegVal) : (state 0 v).fetch = .ok (some (.IInstruction .addi 1 1 1)) :=
  (fetch_state 0 v).trans rfl

theorem fetch_bne (v : RegVal) : (state 4 v).fetch = .ok (some (.BInstruction .bne 1 0 (-4))) :=
  (fetch_state 4 v).trans rfl

theorem fetch_end (v : RegVal) : (state 8 v).fetch = .ok none := (fetch_state 8 v).trans rfl

theorem read_one (p : Address) (v : RegVal) : (state p v).GPRegs 1 = v :=
  GPRegisters.write_apply_self _ (by decide) v

theorem next_addi (v : RegVal) : (state 0 v).next = state 4 (v + 1) := by
  have hwrite : ((state 0 v).GPRegs.write 1 (v + 1)) = (state 4 (v + 1)).GPRegs := by
    apply GPRegisters.ext
    exact Function.update_idem ..
  have hexec : Instruction.execRef (.IInstruction .addi 1 1 1) (state 0 v) =
      .ok (none, { state 0 v with
        PC := 4, GPRegs := (state 0 v).GPRegs.write 1 ((state 0 v).GPRegs 1 + 1) }) := rfl
  rw [Hart.next_of_exec (fetch_addi v) hexec, read_one, hwrite]
  rfl

theorem next_bne (v : RegVal) : (state 4 v).next = state (if v = 0 then 8 else 0) v := by
  have hcond : BTypeKinds.bne.cond ((state 4 v).GPRegs 1) ((state 4 v).GPRegs 0) = (v != 0) := by
    rw [read_one]
    exact congrArg (v != ·) (GPRegisters.apply_zero _)
  have htarget : (4 : Address) + ((-4 : BitVec 13).signExtend 32).signExtend 64 = 0 := by decide
  have hexec : (state 4 v).execB .bne 1 0 (-4) =
      .ok (none, { state 4 v with PC := if v != 0 then 0 else 8 }) := by
    rw [Hart.execB, hcond, ← htarget]
    rfl
  rw [Hart.next_of_exec (fetch_bne v) hexec]
  by_cases hv : v = 0
  · subst hv
    rfl
  · rw [if_neg hv, if_pos (bne_iff_ne.mpr hv)]
    rfl

theorem start : spinner.hart = state 0 0 := by
  have hregs : spinner.hart.GPRegs = spinner.hart.GPRegs.write 1 0 := by
    apply GPRegisters.ext
    exact (Function.update_eq_self (1 : BitVec 5) spinner.hart.GPRegs.Regs).symm
  rw [state, ← hregs]
  rfl

theorem ofNat_succ (k : ℕ) : BitVec.ofNat 32 k + 1 = BitVec.ofNat 32 (k + 1) := by
  rw [BitVec.ofNat_add]
  rfl

/-- After `k` rounds, and one instruction later. -/
theorem rounds (k : ℕ) (hk : k ≤ 2 ^ 32) :
    spinner.hart.after (2 * k) = state (if k = 2 ^ 32 then 8 else 0) (BitVec.ofNat 32 k) ∧
    (k < 2 ^ 32 → spinner.hart.after (2 * k + 1) = state 4 (BitVec.ofNat 32 (k + 1))) := by
  have hodd : ∀ k, k < 2 ^ 32 → spinner.hart.after (2 * k) =
      state (if k = 2 ^ 32 then 8 else 0) (BitVec.ofNat 32 k) →
      spinner.hart.after (2 * k + 1) = state 4 (BitVec.ofNat 32 (k + 1)) := by
    intro k hlt heven
    rw [Hart.after_succ, heven, if_neg hlt.ne, next_addi, ofNat_succ]
  induction k with
  | zero => exact ⟨start, fun hlt => hodd 0 hlt start⟩
  | succ k ih =>
    have heven : spinner.hart.after (2 * (k + 1)) =
        state (if k + 1 = 2 ^ 32 then 8 else 0) (BitVec.ofNat 32 (k + 1)) := by
      rw [show 2 * (k + 1) = 2 * k + 1 + 1 by omega, Hart.after_succ, (ih (by omega)).2 (by omega),
        next_bne]
      congr 1
      have hzero : BitVec.ofNat 32 (k + 1) = 0 ↔ k + 1 = 2 ^ 32 := by
        rw [← BitVec.toNat_inj, BitVec.toNat_ofNat]
        show (k + 1) % 2 ^ 32 = 0 ↔ _
        omega
      simp only [hzero]
    exact ⟨heven, fun hlt => hodd (k + 1) hlt heven⟩

theorem after_end : (spinner.hart.after (2 ^ 33)).fetch = .ok none := by
  have hr := (rounds (2 ^ 32) le_rfl).1
  rw [if_pos rfl] at hr
  rw [show 2 ^ 33 = 2 * 2 ^ 32 by norm_num, hr]
  exact fetch_end _

/-- Every state of the run is at one of the three addresses. -/
theorem after_cases (j : ℕ) :
    ∃ p v, spinner.hart.after j = state p v ∧ (p = 0 ∨ p = 4 ∨ p = 8) := by
  have hle : ∀ j ≤ 2 ^ 33, ∃ p v, spinner.hart.after j = state p v ∧ (p = 0 ∨ p = 4 ∨ p = 8) := by
    intro j hj
    rcases Nat.even_or_odd' j with ⟨k, rfl | rfl⟩
    · refine ⟨_, _, (rounds k (by omega)).1, ?_⟩
      split_ifs
      · exact .inr (.inr rfl)
      · exact .inl rfl
    · exact ⟨_, _, (rounds k (by omega)).2 (by omega), .inr (.inl rfl)⟩
  rcases Nat.le_total j (2 ^ 33) with hj | hj
  · exact hle j hj
  · rw [Hart.after_of_none after_end hj]
    exact hle _ le_rfl

theorem fetch_cases {j : ℕ} {I : Instruction} (hf : (spinner.hart.after j).fetch = .ok (some I)) :
    I = .IInstruction .addi 1 1 1 ∨
      ((spinner.hart.after j).PC = 4 ∧ I = .BInstruction .bne 1 0 (-4)) := by
  obtain ⟨p, v, hj, rfl | rfl | rfl⟩ := after_cases j <;> rw [hj] at hf ⊢
  · exact .inl (Option.some.inj (Except.ok.inj (hf.symm.trans (fetch_addi v))))
  · exact .inr ⟨rfl, Option.some.inj (Except.ok.inj (hf.symm.trans (fetch_bne v)))⟩
  · exact nomatch hf.symm.trans (fetch_end v)

theorem live : spinner.hart.Live (2 ^ 33) := by
  intro j hj
  rcases Nat.even_or_odd' j with ⟨k, rfl | rfl⟩
  · rw [(rounds k (by omega)).1, if_neg (by omega)]
    exact ⟨_, fetch_addi _⟩
  · rw [(rounds k (by omega)).2 (by omega)]
    exact ⟨_, fetch_bne _⟩

theorem csrFree (n : ℕ) : spinner.hart.CSRFree n := by
  intro j _ I hf
  rcases fetch_cases hf with rfl | ⟨_, rfl⟩ <;> rfl

theorem mem (j : ℕ) : (spinner.hart.after j).Mem = spinner.hart.Mem := by
  obtain ⟨p, v, hj, -⟩ := after_cases j
  rw [hj]
  rfl

theorem domain (N : ℕ∞) : Domain spinner.hart N := by
  refine ⟨rfl, ?_, ?_, ?_, ?_⟩
  · intro j _
    obtain ⟨p, v, hj, rfl | rfl | rfl⟩ := after_cases j <;> rw [hj]
    · exact ⟨_, fetch_addi v⟩
    · exact ⟨_, fetch_bne v⟩
    · exact ⟨_, fetch_end v⟩
  · intro j I _ hf
    rcases fetch_cases hf with rfl | ⟨_, rfl⟩ <;>
    exact .of_computes rfl rfl rfl rfl ⟨_, rfl⟩
  · intro j d I J _ _ hf _ hrd hzero
    rcases fetch_cases hf with rfl | ⟨_, rfl⟩
    · exact absurd hzero (by decide)
    · exact absurd hrd (by decide)
  · intro i j _ _
    rw [mem, mem]

theorem near (i j : ℕ) (y : Address) (hy : Near spinner.hart j y) :
    ∃ w, (spinner.hart.after i).Mem.readWord y = .ok w := by
  have hword : ∀ y ∈ [0#64, 4#64, 8#64, 12#64, 16#64],
      ∃ w, spinner.hart.Mem.readWord y = .ok w := by
    intro y hy
    simp only [List.mem_cons, List.not_mem_nil, or_false] at hy
    rcases hy with rfl | rfl | rfl | rfl | rfl <;> exact ⟨_, rfl⟩
  have hPC : ∀ d ∈ [0#64, 4#64, 8#64],
      (spinner.hart.after j).PC + d ∈ [0#64, 4#64, 8#64, 12#64, 16#64] := by
    obtain ⟨p, v, hj, hp⟩ := after_cases j
    rw [hj]
    show ∀ d ∈ [0#64, 4#64, 8#64], p + d ∈ _
    rcases hp with rfl | rfl | rfl <;> simp
  rw [mem]
  apply hword
  rcases hy with rfl | rfl | rfl | ⟨I, hf, hb, rfl⟩
  · exact BitVec.add_zero (spinner.hart.after j).PC ▸ hPC 0 (by decide)
  · exact hPC 4 (by decide)
  · exact hPC 8 (by decide)
  · rcases fetch_cases hf with rfl | ⟨hp, rfl⟩
    · exact absurd hb (by decide)
    · rw [hp]
      decide

theorem started : Started spinner := ⟨⟨_, _, rfl⟩, rfl, rfl, rfl, ⟨none, rfl⟩⟩

theorem fetchesInDRAM : FetchesInDRAM spinner :=
  started.fetchesInDRAM (domain ⊤).regular near

/-- Each round executes the two instructions. -/
theorem insts (k : ℕ) (hk : k ≤ 2 ^ 32) :
    spinner.hart.insts (2 * k) = (List.replicate k body).flatten := by
  induction k with
  | zero => rfl
  | succ k ih =>
    have heven := (rounds k (by omega)).1
    rw [if_neg (by omega)] at heven
    have hodd := (rounds k (by omega)).2 (by omega)
    have hf : (spinner.hart.after (2 * k)).fetch = .ok (some (.IInstruction .addi 1 1 1)) := by
      rw [heven]
      exact fetch_addi _
    have hf' : (spinner.hart.after (2 * k + 1)).fetch =
      .ok (some (.BInstruction .bne 1 0 (-4))) := by
      rw [hodd]
      exact fetch_bne _
    rw [show 2 * (k + 1) = 2 * k + 1 + 1 by omega, Hart.insts_of_some hf', Hart.insts_of_some hf,
      ih (by omega), List.replicate_succ', List.flatten_append, List.append_assoc]
    rfl

/-- How often `addi` is executed. -/
theorem count_addi (k : ℕ) :
    ((List.replicate k body).flatten.map Instruction.getMnemo).count (.I .addi) = k := by
  induction k with
  | zero => rfl
  | succ k ih =>
    rw [List.replicate_succ', List.flatten_append, List.map_append, List.count_append, ih]
    rfl

end Spinner

/-- `spinner` executes `2 ^ 33` instructions, with the same statistics in both simulators. -/
theorem statistics_agree_spinner :
    ∃ fuel S s, spinner.run none none fuel = .ok (some S) ∧
      ({ hart := spinner.hart, Stats := Statistics.new } : Simulator).after (2 ^ 33) = some s ∧
      S.Stats = some s.Stats := by
  obtain ⟨fuel, S, s, hrun, ha, -, hS, -⟩ :=
    statistics_agree Spinner.started rfl (Spinner.domain (2 ^ 33 : ℕ)) (Spinner.csrFree _)
      Spinner.live
      Spinner.after_end Spinner.fetchesInDRAM
      (show ({ hart := spinner.hart, Stats := Statistics.new } : Simulator).hart = _ from rfl) rfl
  exact ⟨fuel, S, s, hrun, ha, hS⟩

/-- `spinner` is in the domain, and its counts do not add up to the number of its
instructions. -/
theorem counts_wrap :
    (Started spinner ∧ Domain spinner.hart (2 ^ 33 : ℕ) ∧ spinner.hart.CSRFree (2 ^ 33) ∧
      FetchesInDRAM spinner ∧ spinner.hart.Live (2 ^ 33) ∧
      (spinner.hart.after (2 ^ 33)).fetch = .ok none) ∧
    ¬ ∀ fuel S Stats, spinner.run none none fuel = .ok (some S) → S.Stats = some Stats →
      Tally.total Stats.InstCounts (fun _ => 1) = 2 ^ 33 := by
  refine ⟨⟨Spinner.started, Spinner.domain _, Spinner.csrFree _, Spinner.fetchesInDRAM,
    Spinner.live,
    Spinner.after_end⟩, fun hall => ?_⟩
  obtain ⟨fuel, S, Stats, hrun, hS, htotal⟩ := Spinner.started.counts_total
    (Spinner.domain ⊤).regular Spinner.fetchesInDRAM rfl Spinner.live Spinner.after_end
  have hcount := htotal.mp (hall fuel S Stats hrun hS) (.I .addi)
  rw [show 2 ^ 33 = 2 * 2 ^ 32 by norm_num, Spinner.insts _ le_rfl, Spinner.count_addi] at hcount
  exact lt_irrefl _ hcount

end RipSim
