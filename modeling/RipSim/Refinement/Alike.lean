import RipSim.Refinement.Served
import RipSim.Reference.Serving

/-!
# The simulators agree on programs with traps

Both simulators run `Hart.served`, the pipeline exactly and the instruction-level simulator up
to MIE and MPIE.  Both count each instruction once, system instructions included: an `ecall`
squashes what is behind it but stays in EX itself, where `finish` counts it.
-/

namespace RipSim

namespace RIPSimulator

variable {σ : Type} [BranchPredictor σ] {h : Hart} {t k : ℕ} {S T A : RIPSimulator σ}

/-! ## What a cycle counts -/

/-- A cycle that goes on counts what it has taken to EX. -/
theorem Next.counts (hc : Clean S) (hn : Next S T) :
    T.Stats = S.entering.elim S.Stats fun I => S.Stats.map (·.count I) := by
  have hEX := (Next.backEnd hc hn).2.2.2.2
  obtain ⟨A, B, M, E, D, ht, hD, rfl⟩ := hn.through
  obtain ⟨_, _, _, _, _, hwStats, _⟩ := A.written_frame
  obtain ⟨_, _, _, _, _, _, haStats, _⟩ := advance_frame ht.advance
  obtain ⟨_, _, _, _, _, _, hdStats, _⟩ := M.decoded_frame
  obtain ⟨_, _, _, _, hDStats, _⟩ := hD.frame
  have hStats : D.redirect.Stats = S.Stats := by
    rw [redirect_eq]
    show D.Stats = _
    rw [hDStats, hdStats, (exec_frame ht.exec).Stats, (memoryaccess_frame ht.access).Stats,
      hwStats, haStats]
  cases hI : S.entering with
  | none => exact (finish_stats_none (hEX.trans hI)).trans hStats
  | some I => rw [finish_stats_some (hEX.trans hI), hStats]; rfl

/-- The pipeline has counted what is past EX. -/
def ServedCounting (h : Hart) (k : ℕ) (S : RIPSimulator σ) : Prop :=
  S.Stats = some (h.servedStats (S.issued k))

theorem ServedCounting.next (hst : Stage h ⊤ t k S) (hn : Next S T) (hS : ServedCounting h k S) :
    ServedCounting h (S.accessed k) T := by
  obtain ⟨-, -, hMA, -, hEX⟩ := Next.backEnd hst.clean hn
  have hiss : T.issued (S.accessed k) = S.issued k + occ S.entering := by
    rw [issued_eq, accessed, hMA, hEX]
    rfl
  rw [ServedCounting, Next.counts hst.clean hn, hiss, hS]
  cases hI : S.entering with
  | none => rfl
  | some I =>
    rw [occ_some, Hart.servedStats_succ (hst.entering hI)]
    rfl

omit [BranchPredictor σ] in
theorem ServedCounting.empty (hc : Clean S) (hA : S.advance = .ok A) (he : A.PS.isEmpty = true)
    (hS : ServedCounting h k S) : ServedCounting h k A := by
  obtain ⟨hWB, hMA, -⟩ := hc.advance_insts hA
  obtain ⟨-, -, -, -, -, -, haStats, -⟩ := advance_frame hA
  rw [isEmpty_insts he] at hWB hMA
  have hiss : S.issued k = k := by
    rw [issued, accessed, ← hWB, ← hMA]
    rfl
  rw [ServedCounting, haStats, (issued_of_empty (isEmpty_insts he) k).2, hS, hiss]

omit [BranchPredictor σ] in
theorem Started.servedCounting (h₀ : Started S) (hS : S.Stats = some Statistics.new) :
    ServedCounting S.hart 0 S := by
  rw [ServedCounting, (issued_of_empty h₀.insts 0).2]
  exact hS

/-- The statistics at the end of a run. -/
theorem Started.counts_served {S₀ : RIPSimulator σ} (h₀ : Started S₀) (hd : TrapDomain S₀.hart)
    (hf : FetchesInDRAM S₀) (hq : S₀.BP = none ∨ Unbranched S₀.hart)
    (hS : S₀.Stats = some Statistics.new) {n : ℕ} (hend : (S₀.hart.served n).fetch = .ok none)
    (hlive : ∀ k < n, ∃ I, (S₀.hart.served k).fetch = .ok (some I)) :
    ∃ T, S₀.run none none (4 * n + 3) = .ok (some T) ∧ Settled (S₀.hart.served n) 0 T ∧
      T.Stats = some (S₀.hart.servedStats n) := by
  obtain ⟨T, t, log, hrun, hT, he, hdry⟩ :=
    h₀.stops_served hd hf hq hend (4 * n + 2) rfl (Nat.le_add_left _ 0)
  obtain ⟨log', T', hT', hr, hcount⟩ := h₀.serves_keeps hd hf hq (h₀.servedCounting hS)
    (fun _ _ _ hc hA he hS => hS.empty hc hA he) (fun _ _ _ _ hst hn hS => hS.next hst hn) t
  obtain ⟨rfl, rfl⟩ := Prod.mk.inj (Except.ok.inj (hT.symm.trans hT'))
  refine ⟨T, hrun, hr.settled hd he hdry hend, ?_⟩
  have hlen : log.length = n := by
    obtain ⟨log', T', hT', -, hs⟩ := h₀.serves hd (fun n _ log S h _ => hf n log S h) hq t
    obtain ⟨rfl, rfl⟩ := Prod.mk.inj (Except.ok.inj (hT.symm.trans hT'))
    rcases Nat.lt_trichotomy log.length n with hlt | heq | hgt
    · obtain ⟨I, hI⟩ := hlive _ hlt
      cases hdry.symm.trans hI
    · exact heq
    · obtain ⟨I, hI⟩ := hs.live hgt
      cases hend.symm.trans hI
  rwa [ServedCounting, (issued_of_empty (isEmpty_insts he) _).2, hlen] at hcount

end RIPSimulator

open RIPSimulator

/-- **The simulators agree on programs with traps.** -/
theorem simulators_agree_traps {σ : Type} [BranchPredictor σ] {S₀ : RIPSimulator σ}
    (h₀ : Started S₀) (hd : TrapDomain S₀.hart) (hf : FetchesInDRAM S₀)
    (hq : S₀.BP = none ∨ Unbranched S₀.hart) (hS : S₀.Stats = some Statistics.new)
    (hshared : ∀ k I, (S₀.hart.served k).fetch = .ok (some I) → I.Shared) {n : ℕ}
    (hlive : ∀ k < n, ∃ I, (S₀.hart.served k).fetch = .ok (some I))
    (hend : (S₀.hart.served n).fetch = .ok none) {s₀ : Simulator} (hs : s₀.hart = S₀.hart)
    (hs' : s₀.Stats = Statistics.new) :
    ∃ S s, S₀.run none none (4 * n + 3) = .ok (some S) ∧ s₀.after n = some s ∧
      s.iterate none = .ok none ∧ S.GPRegs = s.hart.GPRegs ∧ S.Mem = s.hart.Mem ∧
      Alike s.hart.States S.States ∧ S.Stats = some s.Stats := by
  obtain ⟨S, hrun, hT, hcount⟩ := h₀.counts_served hd hf hq hS hend hlive
  obtain ⟨s, X, ha, hX, halike, hstats⟩ := Simulator.after_served hd hshared hs hs' hlive
  refine ⟨S, s, hrun, ha, Simulator.iterate_none ?_, ?_, ?_, ?_, ?_⟩
  · rw [hX]
    exact hend
  · rw [hX, hT.GPRegs]
    rfl
  · rw [hX, hT.Mem]
    rfl
  · rw [hX]
    exact halike.congr hT.States
  · rw [hcount, hstats]

/-- `caller` ends in both simulators with the same statistics. -/
theorem simulators_agree_traps_caller :
    ∃ S s, caller.run none none 35 = .ok (some S) ∧
      ({ hart := caller.hart, Stats := Statistics.new } : Simulator).after 8 = some s ∧
      S.GPRegs = s.hart.GPRegs ∧ S.Stats = some s.Stats := by
  have hshared : ∀ I ∈ Caller.insts, I.Shared := by decide
  obtain ⟨S, s, hrun, ha, -, hGP, -, -, hStats⟩ :=
    simulators_agree_traps Caller.started Caller.domain Caller.fetchesInDRAM (.inl rfl) rfl
      (fun k I hf => hshared I (Caller.executes.mem hf)) (fun _ hk => Caller.executes.live hk)
      Caller.ended
      (show ({ hart := caller.hart, Stats := Statistics.new } : Simulator).hart = _ from rfl) rfl
  exact ⟨S, s, hrun, ha, hGP, hStats⟩

end RipSim
