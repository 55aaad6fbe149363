import RipSim.Refinement.Clock
import RipSim.Library.Logs

/-!
# The pipeline refines the sequential execution

The invariant over whole runs.  `proceeds n` makes `n` calls of `proceedNStage(1)` and
logs the instruction that each leaves in write back.  `pipeline_refines` says that the log
is a prefix of the sequential trace, that the registers, the memory and the CSRs are
those of the sequential run after as many instructions, and that every instruction of
the trace is logged at some time.
-/

namespace RipSim

namespace RIPSimulator

variable {σ : Type}

/-- The instruction that has just been written back, with its address. -/
def retired (S : RIPSimulator σ) : Option (Address × Instruction) :=
  S.PS.Insts.WB.map fun I => (S.PS.PCs.WB, I)

variable {h : Hart} {N : ℕ∞} {c : ℕ} {S A B M : RIPSimulator σ}

/-! ## Progress -/

/-- After `t` calls the pipeline cannot be far behind: three cycles for each instruction
past EX, and three to start. -/
structure Abreast (h : Hart) (t m : ℕ) (S : RIPSimulator σ) : Prop where
  live : ∀ K, (h.after m).fetch = .ok (some K) → t + S.dist ≤ 3 * m + 3
  dry : (h.after m).fetch = .ok none → t + S.rest ≤ 3 * m + 2 ∨ S.rest = 0

/-- The invariant of a run: the window, the pace and the progress. -/
structure Running (h : Hart) (t c : ℕ) (S : RIPSimulator σ) : Prop where
  inv : Inv h ⊤ c S
  paced : Paced h ⊤ S
  abreast : Abreast h t (S.issued c) S

theorem Started.running (h₀ : Started S) : Running S.hart 0 0 S := by
  have hi := h₀.inv ⊤
  obtain ⟨d, P, hPS⟩ := h₀.PS
  have hins := h₀.insts
  have hst : S.PS.StalledStages.IF = false := by rw [hPS]; rfl
  obtain ⟨_, hiss⟩ := issued_of_empty hins 0
  refine ⟨hi, h₀.paced _ _, ?_, ?_⟩
  · intro K _
    unfold dist
    rw [hst, hins, hiss]
    exact Nat.le_refl 3
  · intro _
    refine .inr ?_
    unfold rest
    rw [hins]
    rfl

/-- After enough calls everything up to instruction `k` is written back. -/
theorem Running.committed {t k : ℕ} (hr : Running h t c S) (hd : Regular h ⊤) {I : Instruction}
    (hk : (h.after k).fetch = .ok (some I)) (ht : 3 * k + 12 ≤ t) : k < c := by
  have hle : S.issued c ≤ c + S.rest ∧ S.rest ≤ 2 := by
    unfold issued accessed rest
    cases S.PS.Insts.EX <;> cases S.PS.Insts.MA <;> simp
  obtain ⟨o, hm⟩ := hd.inDRAM (S.issued c) le_top
  cases o with
  | some K =>
    have := hr.abreast.live K hm
    omega
  | none =>
    have hlt : k < S.issued c := by
      by_contra hge
      rw [Hart.after_of_none hm (Nat.not_lt.mp hge)] at hk
      exact nomatch hm.symm.trans hk
    rcases hr.abreast.dry hm with h1 | h1 <;> omega

/-! ## Which words are fetched -/

/-- The addresses that may be fetched while the run is at instruction `k`. -/
def Near (h : Hart) (k : ℕ) (y : Address) : Prop :=
  y = (h.after k).PC ∨ y = (h.after k).PC + 4 ∨ y = (h.after k).PC + 8 ∨
    ∃ I, (h.after k).fetch = .ok (some I) ∧ I.isBType = true ∧
      y = (h.after k).PC + I.immVal.signExtend 64

/-- **How far the fetch strays**: two words beyond the awaited instruction, or to its
target if it is a branch. -/
theorem Inv.near (hi : Inv h N c S) (hp : Paced h N S) : Near h (S.issued c) S.PC := by
  obtain ⟨hDE, _, hIF, hbub⟩ := hi.front
  cases hI : S.PS.Insts.DE with
  | none =>
    rw [expected_of_none hI] at hIF hbub
    cases hJ : S.PS.Insts.IF with
    | none => exact .inl (hbub hJ)
    | some J => exact .inr (.inl (hIF J hJ).2.1)
  | some I =>
    obtain ⟨hPC, hf⟩ := hDE I hI
    rw [expected_of_some hI] at hIF hbub
    unfold following at hIF hbub
    rw [hPC] at hIF hbub
    cases hfor : S.foretold I with
    | true =>
      rw [hfor, if_pos rfl] at hbub
      exact .inr (.inr (.inr ⟨I, hf, isBType_of_foretold hfor, hbub (hp.foretold I hI hfor)⟩))
    | false =>
      rw [hfor, if_neg Bool.false_ne_true] at hIF hbub
      cases hJ : S.PS.Insts.IF with
      | none => exact .inr (.inl (hbub hJ))
      | some J =>
        refine .inr (.inr (.inl ?_))
        rw [(hIF J hJ).2.1, BitVec.add_assoc]
        rfl

theorem Running.near {t : ℕ} (hr : Running h t c S) : Near h (S.issued c) S.PC :=
  hr.inv.near hr.paced

/-! ## Calls of `proceedNStage` -/

/-- **An empty pipeline** stays as it is: the run is over, and everything is written
back. -/
theorem Inv.empty (hi : Inv h N c S) (hd : Regular h N) (hA : S.advance = .ok A)
    (he : A.PS.isEmpty = true) :
    Inv h N c A ∧ (h.after c).fetch = .ok none ∧ S.issued c = c := by
  have hins := isEmpty_insts he
  rcases advance_ok hA with ⟨hs, rfl⟩ | ⟨hs, w, hw, rfl⟩
  · obtain ⟨_, J, _, hJ⟩ := hi.clean.stalled hs
    rw [(hi.clean.shifted_insts hs).1] at hins
    have hDE : S.PS.Insts.DE = none := congrArg Staged.DE hins
    exact absurd (hJ.symm.trans hDE) (Option.some_ne_none J)
  · have hAins := hins
    rw [(hi.clean.fetched_insts hs w).1] at hins
    have hIF : Decoder.decode w = none := congrArg Staged.IF hins
    have hDE : S.PS.Insts.IF = none := congrArg Staged.DE hins
    have hEX : S.PS.Insts.DE = none := congrArg Staged.EX hins
    have hMA : S.PS.Insts.EX = none := congrArg Staged.MA hins
    have hWB : S.PS.Insts.MA = none := congrArg Staged.WB hins
    have hacc : S.accessed c = c := by rw [accessed, hWB]; rfl
    have hiss : S.issued c = c := by rw [issued, hacc, hMA]; rfl
    obtain ⟨hacc', hiss'⟩ := issued_of_empty hAins c
    have hPC : (S.fetched w).PC = S.PC := by
      change (if (Decoder.decode w).isSome then S.PC + 4 else S.PC) = _
      rw [hIF]
      rfl
    have hpc : S.PC = (h.after c).PC := by
      rw [hi.front.fetching.bubble hDE, hiss, expected_of_none hEX]
    have hb := hi.back
    have hrest := hi.clean.advance hA
    refine ⟨⟨⟨hrest.invalid, hrest.branchPC, hrest.predPC, ?_, ?_⟩, ⟨?_, ?_, ?_⟩, ?_,
      ⟨hb.GPRegs, hb.States, hb.Mode, ?_, ?_, ?_⟩, ⟨?_, ?_, ⟨?_, ?_⟩⟩, ?_⟩, ?_, hiss⟩
    · rw [hrest.stall]
      rfl
    · rw [hrest.stall]
      exact fun h => absurd h Bool.false_ne_true
    · simp [hAins, Staged.const]
    · simp [hAins, Staged.const]
    · simp [hAins, Staged.const]
    · rw [hiss', ← hiss]
      exact hi.bound
    · rw [hacc', ← hacc]
      exact hb.Mem
    · simp [hAins, Staged.const]
    · simp [hAins, Staged.const]
    · simp [hAins, Staged.const]
    · simp [hAins, Staged.const]
    · simp [hAins, Staged.const]
    · intro _
      rw [hPC, hpc, hiss', expected_of_none (by rw [hAins]; rfl)]
    · simp [hAins, Staged.const]
    · have hle := hi.bound
      rw [hiss] at hle
      rw [← hIF]
      exact hd.holds hi.accessed_le (hi.back.Mem ▸ hw) _ hle hpc.symm

variable [BranchPredictor σ]

/-- One call of `proceedNStage(1)`, and what it has written back. -/
def proceed (S : RIPSimulator σ) :
    Except Fault (Option (Address × Instruction) × RIPSimulator σ) := do
  let (_, S) ← S.proceedNStage 1
  return (S.retired, S)

/-- `n` calls of `proceedNStage(1)`, and what they have written back. -/
def proceeds (n : ℕ) (S : RIPSimulator σ) :
    Except Fault (List (Address × Instruction) × RIPSimulator σ) :=
  Logs.runLog proceed n S

/-- Every word that the pipeline fetches is in the DRAM, wrong paths included. -/
def FetchesInDRAM (S₀ : RIPSimulator σ) : Prop :=
  ∀ n log S, S₀.proceeds n = .ok (log, S) → S.PS.StalledStages.IF = false →
    ∃ w, S.Mem.readWord S.PC = .ok w

/-! ## One cycle -/

theorem cycle_empty (hA : S.advance = .ok A) (he : A.PS.isEmpty = true) :
    S.cycle = .ok (.empty, A) := by
  unfold cycle
  rw [hA]
  change (if A.PS.isEmpty then _ else _) = _
  rw [he]
  rfl

/-- **One cycle of the window.**  The pipeline is empty and the run over, or the
cycle goes through its stages without an exception and keeps the invariant. -/
theorem Inv.cycle (hi : Inv h N c S) (hd : Regular h N)
    (hf : S.PS.StalledStages.IF = false → ∃ w, S.Mem.readWord S.PC = .ok w)
    (hN : ∀ I, S.entering = some I → (S.issued c : ℕ∞) < N) :
    (∃ A, S.cycle = .ok (.empty, A) ∧ S.advance = .ok A ∧ A.PS.isEmpty = true) ∨
    ∃ A B M, Through S A B M none ∧ S.cycle = .ok (.next, M.decoded.redirect.finish) ∧
      Inv h N (S.accessed c) M.decoded.redirect.finish := by
  obtain ⟨A, hA⟩ : ∃ A, S.advance = .ok A := by
    unfold RIPSimulator.advance
    cases hs : S.PS.StalledStages.IF with
    | true => exact ⟨_, rfl⟩
    | false =>
      obtain ⟨w, hw⟩ := hf hs
      rw [hw]
      exact ⟨_, rfl⟩
  cases he : A.PS.isEmpty with
  | true => exact .inl ⟨A, cycle_empty hA he, hA, he⟩
  | false =>
    obtain ⟨B, M, ht, hMem, hRd⟩ := hi.through hd hA he hN
    exact .inr ⟨A, B, M, ht, ht.cycle_none, hi.next hd ht hMem hRd hN⟩

theorem proceed_of_next {T : RIPSimulator σ} (hc : S.cycle = .ok (.next, T)) :
    S.proceed = .ok (T.retired, T) := by
  unfold proceed proceedNStage
  rw [hc]
  rfl

theorem proceed_of_empty (hc : S.cycle = .ok (.empty, A)) : S.proceed = .ok (A.retired, A) := by
  unfold proceed proceedNStage
  rw [hc]
  rfl

/-- The loop of `run` is left when the pipeline is empty. -/
theorem runLoop_of_empty (hc : S.cycle = .ok (.empty, A)) (he : A.PS.isEmpty = true) (fuel : ℕ) :
    runLoop none (fuel + 1) S = .ok (some A) := by
  unfold runLoop proceedNStage
  rw [hc]
  change (if A.PS.isEmpty then _ else _) = _
  rw [he]
  rfl

/-- The loop of `run` goes on with a pipeline that is not. -/
theorem runLoop_of_next {T : RIPSimulator σ} (hc : S.cycle = .ok (.next, T))
    (he : T.PS.isEmpty = false) (fuel : ℕ) : runLoop none (fuel + 1) S = runLoop none fuel T := by
  conv_lhs => unfold runLoop proceedNStage
  rw [hc]
  change (if T.PS.isEmpty then _ else if none = some T.PC then _ else _) = _
  rw [he, if_neg Bool.false_ne_true, if_neg (by exact nofun)]

/-- What a cycle writes back is the next instruction of the run, or nothing. -/
theorem Inv.retired (hi : Inv h N c S) (ht : Through S A B M none) :
    (M.decoded.redirect.finish.retired = none ∧ S.accessed c = c) ∨
    ∃ I, M.decoded.redirect.finish.retired = some ((h.after c).PC, I) ∧
      (h.after c).fetch = .ok (some I) ∧ S.accessed c = c + 1 := by
  obtain ⟨hWB, _⟩ := hi.clean.advance_insts ht.advance
  obtain ⟨hPC, _⟩ := hi.clean.advance_PCs ht.advance
  have hWB' : M.decoded.redirect.finish.PS.Insts.WB = S.PS.Insts.MA := by
    rw [ht.filled (hi.clean.advance ht.advance) .none]
    exact hWB
  have hPC' : M.decoded.redirect.finish.PS.PCs.WB = S.PS.PCs.MA := by
    rw [(cycle_frame M).2.2.2.1, ht.insts.2, hPC]
  unfold RIPSimulator.retired accessed
  rw [hWB', hPC']
  cases hI : S.PS.Insts.MA with
  | none => exact .inl ⟨rfl, rfl⟩
  | some I =>
    have hm := hi.back.MA I hI
    refine .inr ⟨I, ?_, hm.fetch, rfl⟩
    rw [hm.PC]
    rfl

theorem Abreast.next {t : ℕ} (ha : Abreast h t (S.issued c) S) (hi : Inv h N c S)
    (hd : Regular h N) (hp : Paced h N S) (ht : Through S A B M none)
    (hN : ∀ I, S.entering = some I → (S.issued c : ℕ∞) < N) :
    Abreast h (t + 1) (S.issued c + occ S.entering) M.decoded.redirect.finish := by
  cases hI : S.entering with
  | none =>
    rw [occ_none, Nat.add_zero]
    constructor
    · intro K hK
      have := ha.live K hK
      have := hi.dist_bubble hd ht hI hK
      omega
    · intro hK
      have := (hi.rest_dry hd ht hK).2
      rcases ha.dry hK with h1 | h1 <;> omega
  | some I =>
    have hf := (hi.entering hI).2.2.2
    have hle := ha.live I hf
    rw [hi.dist_entering hI] at hle
    rw [occ_some]
    constructor
    · intro K hK
      have := hi.dist_executed hd hp ht hI (hN I hI) hK
      have := charge_le S B I K
      omega
    · intro _
      have := hi.rest_executed ht hI
      omega

/-- One call of `proceedNStage(1)`. -/
theorem Running.proceed {t : ℕ} (hr : Running h t c S) (hd : Regular h ⊤)
    (hf : S.PS.StalledStages.IF = false → ∃ w, S.Mem.readWord S.PC = .ok w) :
    ∃ e T, S.proceed = .ok (e, T) ∧
      Logs.Matches (Running h) (fun k p => p.1 = (h.after k).PC ∧
        (h.after k).fetch = .ok (some p.2)) t c T e := by
  have hN : ∀ I, S.entering = some I → (S.issued c : ℕ∞) < ⊤ := fun _ _ => ENat.natCast_lt_top _
  rcases hr.inv.cycle hd hf hN with ⟨A, hc, hA, he⟩ | ⟨A, B, M, ht, hc, hi⟩
  · obtain ⟨hi, hdry, hiss⟩ := hr.inv.empty hd hA he
    have hins := isEmpty_insts he
    refine ⟨none, A, ?_, hi, ?_, ?_⟩
    · rw [proceed_of_empty hc]
      unfold RIPSimulator.retired
      rw [hins]
      rfl
    · constructor <;>
      · rw [hins]
        exact fun I hI => nomatch hI
    · rw [(issued_of_empty hins c).2]
      refine ⟨fun K hK => (nomatch hdry.symm.trans hK), fun _ => .inr ?_⟩
      unfold rest
      rw [hins]
      rfl
  · have hrun : Running h (t + 1) (S.accessed c) M.decoded.redirect.finish := by
      refine ⟨hi, hr.paced.next hr.inv hd ht, ?_⟩
      rw [hr.inv.issued_next ht]
      exact hr.abreast.next hr.inv hd hr.paced ht hN
    refine ⟨_, _, proceed_of_next hc, ?_⟩
    rcases hr.inv.retired ht with ⟨hret, hacc⟩ | ⟨I, hret, hfetch, hacc⟩
    · rw [hret]
      rw [hacc] at hrun
      exact hrun
    · rw [hret]
      rw [hacc] at hrun
      exact ⟨⟨rfl, hfetch⟩, hrun⟩

/-- A call, by what its cycle does: the pipeline is empty, or it goes through the stages. -/
theorem Running.proceed_cases {t : ℕ} {e : Option (Address × Instruction)} {T : RIPSimulator σ}
    (hr : Running h t c S) (hd : Regular h ⊤)
    (hf : S.PS.StalledStages.IF = false → ∃ w, S.Mem.readWord S.PC = .ok w)
    (hp : S.proceed = .ok (e, T)) :
    (S.advance = .ok T ∧ T.PS.isEmpty = true ∧ e = none) ∨
    ∃ A B M, Through S A B M none ∧ T = M.decoded.redirect.finish ∧
      c + e.toList.length = S.accessed c := by
  have hN : ∀ I, S.entering = some I → (S.issued c : ℕ∞) < ⊤ := fun _ _ => ENat.natCast_lt_top _
  rcases hr.inv.cycle hd hf hN with ⟨A, hc, hA, he⟩ | ⟨A, B, M, ht, hc, -⟩
  · obtain ⟨h1, h2⟩ := Prod.mk.inj (Except.ok.inj ((proceed_of_empty hc).symm.trans hp))
    subst h2
    refine .inl ⟨hA, he, ?_⟩
    rw [← h1, RIPSimulator.retired, isEmpty_insts he]
    rfl
  · obtain ⟨h1, h2⟩ := Prod.mk.inj (Except.ok.inj ((proceed_of_next hc).symm.trans hp))
    refine .inr ⟨A, B, M, ht, h2.symm, ?_⟩
    rcases hr.inv.retired ht with ⟨hret, hacc⟩ | ⟨I, hret, -, hacc⟩
    · rw [← h1, hret, hacc]
      rfl
    · rw [← h1, hret, hacc]
      rfl

/-! ## Whole runs -/

/-- The pipeline state `S`, with the instructions `log` written back, is what the
sequential run from `h` has reached after them.  A store is performed one cycle before
it is written back. -/
structure Refines (h : Hart) (log : List (Address × Instruction)) (S : RIPSimulator σ) : Prop where
  trace : ∀ k p, log[k]? = some p →
    p.1 = (h.after k).PC ∧ (h.after k).fetch = .ok (some p.2)
  GPRegs : S.GPRegs = (h.after log.length).GPRegs
  States : ∀ a, a ∉ counters → S.States a = (h.after log.length).States a
  Mem : S.Mem = (h.after (S.accessed log.length)).Mem

theorem Started.run {S₀ : RIPSimulator σ} (h₀ : Started S₀) (hd : Regular S₀.hart ⊤)
    (hf : ∀ n c log S, S₀.proceeds n = .ok (log, S) → Running S₀.hart n c S →
      S.PS.StalledStages.IF = false → ∃ w, S.Mem.readWord S.PC = .ok w) (n : ℕ) :
    ∃ log S, S₀.proceeds n = .ok (log, S) ∧ Running S₀.hart n log.length S ∧
      Refines S₀.hart log S := by
  have hproceed : ∀ n c log S, S₀.proceeds n = .ok (log, S) → Running S₀.hart n c S →
      ∃ e T, S.proceed = .ok (e, T) ∧ Logs.Matches (Running S₀.hart)
        (fun k p => p.1 = (S₀.hart.after k).PC ∧ (S₀.hart.after k).fetch = .ok (some p.2))
        n c T e :=
    fun n c log S hrun hr => hr.proceed hd (hf n c log S hrun hr)
  obtain ⟨log, S, hrun, hr, htr⟩ := Logs.runLog_refines h₀.running hproceed n
  exact ⟨log, S, hrun, hr, htr, hr.inv.back.GPRegs, hr.inv.back.States, hr.inv.back.Mem⟩

/-- **What every cycle keeps, a run keeps.**  `P` speaks about the number of instructions
written back and the state. -/
theorem Started.run_keeps {S₀ : RIPSimulator σ} (h₀ : Started S₀) (hd : Regular S₀.hart ⊤)
    (hf : FetchesInDRAM S₀) {P : ℕ → RIPSimulator σ → Prop} (hP : P 0 S₀)
    (hempty : ∀ c S A, Inv S₀.hart ⊤ c S → S.advance = .ok A → A.PS.isEmpty = true →
      P c S → P c A)
    (hnext : ∀ c S A B M, Inv S₀.hart ⊤ c S → Through S A B M none →
      P c S → P (S.accessed c) M.decoded.redirect.finish) (n : ℕ) :
    ∃ log S, S₀.proceeds n = .ok (log, S) ∧ Running S₀.hart n log.length S ∧ P log.length S := by
  have hstep : ∀ n c log S, S₀.proceeds n = .ok (log, S) → (Running S₀.hart n c S ∧ P c S) →
      ∃ e T, S.proceed = .ok (e, T) ∧ Logs.Matches (fun n c S => Running S₀.hart n c S ∧ P c S)
        (fun k p => p.1 = (S₀.hart.after k).PC ∧ (S₀.hart.after k).fetch = .ok (some p.2))
        n c T e := by
    rintro n c log S hrun ⟨hr, hPS⟩
    obtain ⟨e, T, hp, hm⟩ := hr.proceed hd (hf n log S hrun)
    have hPT : P (c + e.toList.length) T := by
      rcases hr.proceed_cases hd (hf n log S hrun) hp with ⟨hA, he, rfl⟩ |
        ⟨A, B, M, ht, rfl, hcount⟩
      · exact hempty c S T hr.inv hA he hPS
      · rw [hcount]
        exact hnext c S A B M hr.inv ht hPS
    refine ⟨e, T, hp, ?_⟩
    cases e with
    | none => exact ⟨hm, hPT⟩
    | some p => exact ⟨hm.1, hm.2, hPT⟩
  obtain ⟨log, S, hrun, ⟨hr, hPS⟩, -⟩ := Logs.runLog_refines ⟨h₀.running, hP⟩ hstep n
  exact ⟨log, S, hrun, hr, hPS⟩

omit [BranchPredictor σ] in
/-- What is past EX is part of the run. -/
theorem Inv.live {log : List (Address × Instruction)} (hi : Inv h N log.length S)
    (htr : ∀ k p, log[k]? = some p → p.1 = (h.after k).PC ∧ (h.after k).fetch = .ok (some p.2))
    {k : ℕ} (hk : k < S.issued log.length) : ∃ I, (h.after k).fetch = .ok (some I) := by
  rcases Nat.lt_or_ge k log.length with hlog | hlog
  · exact ⟨_, (htr k _ (List.getElem?_eq_getElem hlog)).2⟩
  rcases Nat.lt_or_ge k (S.accessed log.length) with hacc | hacc
  · rw [RIPSimulator.accessed] at hacc
    cases hMA : S.PS.Insts.MA with
    | none =>
      rw [hMA, occ_none] at hacc
      omega
    | some I =>
      rw [hMA, occ_some] at hacc
      obtain rfl : k = log.length := by omega
      exact ⟨I, (hi.back.MA I hMA).fetch⟩
  · rw [issued_eq] at hk
    cases hEX : S.PS.Insts.EX with
    | none =>
      rw [hEX, occ_none] at hk
      omega
    | some I =>
      rw [hEX, occ_some] at hk
      obtain rfl : k = S.accessed log.length := by omega
      exact ⟨I, (hi.back.EX I hEX).fetch⟩

/-- A condition on the sequential run alone under which every fetch is in the DRAM. -/
theorem Started.fetchesInDRAM {S₀ : RIPSimulator σ} (h₀ : Started S₀) (hd : Regular S₀.hart ⊤)
    (hnear : ∀ i k y, Near S₀.hart k y → ∃ w, (S₀.hart.after i).Mem.readWord y = .ok w) :
    FetchesInDRAM S₀ := by
  have hf : ∀ n c log S, S₀.proceeds n = .ok (log, S) → Running S₀.hart n c S →
      S.PS.StalledStages.IF = false → ∃ w, S.Mem.readWord S.PC = .ok w := by
    intro n c log S _ hr _
    rw [hr.inv.back.Mem]
    exact hnear _ _ _ hr.near
  intro n log S hrun hs
  obtain ⟨log', S', hrun', hr, _⟩ := h₀.run hd hf n
  have heq := hrun.symm.trans hrun'
  injection heq with heq
  injection heq with h1 h2
  subst h1 h2
  exact hf n log.length log S hrun hr hs

/-- A program without branches that does not change the memory: only the two words behind each
instruction are fetched besides those of the run. -/
theorem Started.fetchesInDRAM_of_straight {S₀ : RIPSimulator σ} (h₀ : Started S₀)
    (hd : Regular S₀.hart ⊤) (hmem : ∀ k, (S₀.hart.after k).Mem = S₀.hart.Mem)
    (hbr : ∀ k I, (S₀.hart.after k).fetch = .ok (some I) → I.isBType = false)
    (hPC : ∀ k, (∃ w, S₀.hart.Mem.readWord (S₀.hart.after k).PC = .ok w) ∧
      (∃ w, S₀.hart.Mem.readWord ((S₀.hart.after k).PC + 4) = .ok w) ∧
      ∃ w, S₀.hart.Mem.readWord ((S₀.hart.after k).PC + 8) = .ok w) : FetchesInDRAM S₀ := by
  refine h₀.fetchesInDRAM hd ?_
  intro i k y hy
  obtain ⟨hx, hx4, hx8⟩ := hPC k
  rw [hmem]
  rcases hy with rfl | rfl | rfl | ⟨I, hf, hb, _⟩
  · exact hx
  · exact hx4
  · exact hx8
  · exact absurd ((hbr k I hf).symm.trans hb) Bool.false_ne_true

end RIPSimulator

open RIPSimulator

/-- **The pipeline refines the sequential execution**, whatever is predicted.  After any
number of calls of `proceedNStage(1)` the instructions written back are a prefix of the
sequential trace and the state is the one the trace has reached; and no instruction of
the trace is left out for ever. -/
theorem pipeline_refines {σ : Type} [BranchPredictor σ] {S₀ : RIPSimulator σ} (h₀ : Started S₀)
    (hd : Domain S₀.hart ⊤) (hf : FetchesInDRAM S₀) :
    (∀ n, ∃ log S, S₀.proceeds n = .ok (log, S) ∧ Refines S₀.hart log S) ∧
    ∀ k I, (S₀.hart.after k).fetch = .ok (some I) →
      ∃ n log S, S₀.proceeds n = .ok (log, S) ∧ k < log.length := by
  constructor
  · intro n
    obtain ⟨log, S, hrun, _, href⟩ := h₀.run hd.regular (fun n _ log S h _ => hf n log S h) n
    exact ⟨log, S, hrun, href⟩
  · intro k I hk
    obtain ⟨log, S, hrun, hr, _⟩ := h₀.run hd.regular (fun n _ log S h _ => hf n log S h)
      (3 * k + 12)
    exact ⟨_, log, S, hrun, hr.committed hd.regular hk (Nat.le_refl _)⟩

/-! ## A program with a loop -/

/-- `addi x1, x0, 2`, and then `addi x1, x1, -1` until `x1` is zero. -/
def looper {σ : Type} (BP : Option σ) : RIPSimulator σ :=
  boot [0x00200093, 0xfff08093, 0xfe009ee3] BP

namespace Looper

/-- The state `looper` starts from, with any predictor. -/
def hart : Hart := (looper (none : Option Unit)).hart

/-- The instructions of the run. -/
def insts : List Instruction :=
  [.IInstruction .addi 1 0 2, .IInstruction .addi 1 1 0xfff, .BInstruction .bne 1 0 0x1ffc,
    .IInstruction .addi 1 1 0xfff, .BInstruction .bne 1 0 0x1ffc]

theorem started {σ : Type} (BP : Option σ) : Started (looper BP) := started_boot _ _

theorem ended : (hart.after 5).fetch = .ok none := rfl

theorem after_of_le {k : ℕ} (hk : 5 ≤ k) : hart.after k = hart.after 5 :=
  Hart.after_of_none ended hk

theorem fetch (k : ℕ) : (hart.after k).fetch = .ok insts[k]? := by
  match k with
  | 0 => rfl
  | 1 => rfl
  | 2 => rfl
  | 3 => rfl
  | 4 => rfl
  | k + 5 =>
    rw [after_of_le (Nat.le_add_left 5 k)]
    rfl

theorem live {k : ℕ} (hk : k < 5) : ∃ I, (hart.after k).fetch = .ok (some I) :=
  ⟨_, (fetch k).trans (congrArg Except.ok (List.getElem?_eq_getElem hk))⟩

theorem state (k : ℕ) :
    (hart.after k).Mem = hart.Mem ∧ (hart.after k).PC ∈ [0#64, 4#64, 8#64, 12#64] := by
  match k with
  | 0 => exact ⟨rfl, by decide⟩
  | 1 => exact ⟨rfl, by decide⟩
  | 2 => exact ⟨rfl, by decide⟩
  | 3 => exact ⟨rfl, by decide⟩
  | 4 => exact ⟨rfl, by decide⟩
  | k + 5 =>
    rw [after_of_le (Nat.le_add_left 5 k)]
    exact ⟨rfl, by decide⟩

theorem mem_of_fetch {k : ℕ} {I : Instruction} (hf : (hart.after k).fetch = .ok (some I)) :
    I ∈ insts :=
  List.mem_of_getElem? (Except.ok.inj ((fetch k).symm.trans hf))

theorem domain (N : ℕ∞) : Domain hart N where
  machine := rfl
  inDRAM k _ := ⟨_, fetch k⟩
  supported k I _ hf := by
    have hI := mem_of_fetch hf
    simp only [insts, List.mem_cons, List.not_mem_nil, or_false] at hI
    rcases hI with rfl | rfl | rfl | rfl | rfl <;> exact .of_computes rfl rfl rfl rfl ⟨_, rfl⟩
  quiet k d I J _ _ hf _ hrd hzero := by
    have hall : ∀ I ∈ insts, I.hasRd = true → I.rd ≠ 0 := by decide
    exact absurd hzero (hall I (mem_of_fetch hf) hrd)
  frozen j k _ _ := by rw [(state _).1, (state _).1]

/-- The words that may be fetched are in the DRAM. -/
theorem near (i k : ℕ) (y : Address) (hy : Near hart k y) :
    ∃ w, (hart.after i).Mem.readWord y = .ok w := by
  have hword : ∀ y ∈ [0#64, 4#64, 8#64, 12#64, 16#64, 20#64], ∃ w, hart.Mem.readWord y = .ok w := by
    intro y hy
    simp only [List.mem_cons, List.not_mem_nil, or_false] at hy
    rcases hy with rfl | rfl | rfl | rfl | rfl | rfl <;> exact ⟨_, rfl⟩
  have hPC := (state k).2
  simp only [List.mem_cons, List.not_mem_nil, or_false] at hPC
  rw [(state i).1]
  refine hword y ?_
  rcases hy with rfl | rfl | rfl | ⟨I, hf, hb, rfl⟩
  · rcases hPC with h | h | h | h <;> rw [h] <;> decide
  · rcases hPC with h | h | h | h <;> rw [h] <;> decide
  · rcases hPC with h | h | h | h <;> rw [h] <;> decide
  · have hall : ∀ k < 5, ∀ I ∈ insts[k]?, I.isBType = true →
        (hart.after k).PC + I.immVal.signExtend 64 = 4 := by decide
    have hI : insts[k]? = some I := Except.ok.inj ((fetch k).symm.trans hf)
    rw [hall k (List.getElem?_eq_some_iff.mp hI).1 I hI hb]
    decide

theorem fetchesInDRAM {σ : Type} [BranchPredictor σ] (BP : Option σ) :
    FetchesInDRAM (looper BP) :=
  (started BP).fetchesInDRAM (domain ⊤).regular near

end Looper

/-- The five instructions of the run of `looper` are written back, in the right states. -/
theorem pipeline_refines_looper :
    (∀ n, ∃ log S, (looper (some OneBitBranchPredictor.new)).proceeds n = .ok (log, S) ∧
      Refines Looper.hart log S) ∧
    ∃ n log S, (looper (some OneBitBranchPredictor.new)).proceeds n = .ok (log, S) ∧
      4 < log.length :=
  have h := pipeline_refines (Looper.started (some OneBitBranchPredictor.new)) (Looper.domain ⊤)
    (Looper.fetchesInDRAM _)
  ⟨h.1, h.2 4 _ (Looper.fetch 4)⟩

end RipSim
