import RipSim.Refinement.Traps
import RipSim.Refinement.Settled
import RipSim.Pipeline.Stepping

/-!
# The pipeline refines the sequential execution, traps included

A run is a sequence of spans with a system instruction between each two.  `Serving` is the
invariant of the whole run: the window of a span, or one of the two states between.  Each
system instruction costs at most four cycles, like the others, so the run with traps keeps
its pace as well.

In the cycle that enters a trap a branch behind the `ecall` may still be predicted, and the
prediction then takes precedence over the trap vector.  `Unbranched` excludes that.
-/

namespace RipSim

namespace RIPSimulator

variable {σ : Type} {h : Hart} {N : ℕ∞} {t k m : ℕ} {S T A : RIPSimulator σ}

/-! ## What is behind an `ecall` -/

/-- Behind an `ecall` there is no branch. -/
def Unbranched (h : Hart) : Prop :=
  ∀ (n i : ℕ) I J w, (h.served n).fetch = .ok (some I) → I.isSystem = true → I.isMret = false →
    (h.served i).Mem.readWord ((h.served n).PC + 4) = .ok w → Decoder.decode w = some J →
    J.isBType = false

/-- The instruction in IF is the word at its address, in the memory of a state of the run. -/
def Sourced (h : Hart) (S : RIPSimulator σ) : Prop :=
  ∀ J, S.PS.Insts.IF = some J →
    ∃ (i : ℕ) (w : Word), (h.served i).Mem.readWord S.PS.PCs.IF = .ok w ∧ Decoder.decode w = some J

theorem Sourced.advance (hx : Sourced h S) (hc : Clean S) {i : ℕ} (hM : S.Mem = (h.served i).Mem)
    (hA : S.advance = .ok A) : Sourced h A := by
  rcases advance_ok hA with ⟨hs, rfl⟩ | ⟨hs, w, hw, rfl⟩
  · obtain ⟨hins, hPC⟩ := hc.shifted_insts hs
    intro J hJ
    rw [hins] at hJ
    rw [hPC]
    exact hx J hJ
  · obtain ⟨hins, hPC⟩ := hc.fetched_insts hs w
    intro J hJ
    rw [hins] at hJ
    rw [hPC]
    exact ⟨i, w, hM ▸ hw, hJ⟩

variable [BranchPredictor σ]

theorem Sourced.next (hx : Sourced h S) (hc : Clean S) {i : ℕ} (hM : S.Mem = (h.served i).Mem)
    (hn : Next S T) : Sourced h T := by
  obtain ⟨A, B, M, E, D, ht, -, -, hPC, hins⟩ := Next.moved hc hn
  intro J hJ
  rw [hins] at hJ
  rw [hPC]
  refine hx.advance hc hM ht.advance J ?_
  cases hk : kills M E || M.predictsIF with
  | true =>
    rw [hk] at hJ
    exact nomatch hJ
  | false =>
    rw [hk] at hJ
    exact hJ

/-- In front of a `ecall` that enters EX nothing is predicted. -/
theorem Sourced.predictedTarget (hx : Sourced h S) (hq : S.BP = none ∨ Unbranched h) {L : ℕ∞}
    {K c : ℕ} (hs : Span h N K L) (hi : Inv (h.served K) L c S) {I : Instruction}
    (hI : S.entering = some I) (hsys : I.isSystem = true) (hm : I.isMret = false) :
    S.predictedTarget = none := by
  obtain ⟨-, hDE, hPC, hf⟩ := hi.entering hI
  rw [(hi.numbers hs).1] at hPC hf
  unfold RIPSimulator.predictedTarget
  cases hJ : S.PS.Insts.IF with
  | none => rfl
  | some J =>
    cases hP : S.BP with
    | none => rfl
    | some P =>
      rcases hq with hq | hq
      · exact nomatch hq.symm.trans hP
      obtain ⟨hIF, -⟩ := hi.front.fetching.IF J hJ
      have hb : I.isBType = false := by
        obtain ⟨_, _, _, rfl⟩ | ⟨_, _, _, rfl⟩ := Instruction.system_cases hsys <;> rfl
      obtain ⟨i, w, hw, hdec⟩ := hx J hJ
      rw [hIF, expected_of_some hDE, following, foretold_of_not_branch hb,
        if_neg Bool.false_ne_true, hPC] at hw
      dsimp only
      rw [hq _ i I J w hf hsys hm hw hdec, Bool.false_and, if_neg Bool.false_ne_true]

/-! ## The invariant of a run with traps -/

/-- Where in the run with traps the pipeline is, after `t` cycles and with `k` instructions
written back. -/
inductive Stage (h : Hart) (N : ℕ∞) (t k : ℕ) (S : RIPSimulator σ) : Prop
  | span {K c r : ℕ} {L : ℕ∞} (hs : Span h N K L) (hi : Inv (h.served K) L c S)
      (hp : Paced (h.served K) L S) (htt : Tight (h.served K) (S.issued c) S)
      (ha : Abreast (h.served K) r (S.issued c) S) (hk : k = K + c) (ht : t ≤ r + 4 * K)
      (hb : ∀ j I, j + 1 = K → (h.served j).fetch = .ok (some I) → I.isCSR = false)
  | raised {n : ℕ} {I : Instruction} (hn : (n : ℕ∞) < N) (hr : Raised h n k I S)
      (ht : t ≤ 4 * n + 3)
  | leaving {I : Instruction} (hk : (k : ℕ∞) < N) (hl : Leaving h k I S) (ht : t ≤ 4 * k + 4)

/-- The invariant of a run with traps. -/
structure Serving (h : Hart) (N : ℕ∞) (t k : ℕ) (S : RIPSimulator σ) : Prop where
  stage : Stage h N t k S
  sourced : Sourced h S
  quiet : S.BP = none ∨ Unbranched h

omit [BranchPredictor σ] in
/-- The state that a span has written back, by the numbers of the whole run. -/
theorem Inv.number {L : ℕ∞} {K c : ℕ} (hs : Span h N K L) (hi : Inv (h.served K) L c S) :
    (h.served K).after c = h.served (K + c) := by
  have hle : c ≤ S.issued c := (Nat.le_add_right c _).trans (Nat.le_add_right _ _)
  exact hs.after_add (le_trans (by exact_mod_cast hle) hi.bound)

omit [BranchPredictor σ] in
theorem Stage.clean (hst : Stage h N t k S) : Clean S := by
  cases hst with
  | span _ hi => exact hi.clean
  | raised _ hr => exact hr.clean
  | leaving _ hl => exact hl.clean

omit [BranchPredictor σ] in
/-- MA holds instruction `k` of the run, or a bubble. -/
theorem Stage.MA (hst : Stage h N t k S) {J : Instruction} (hJ : S.PS.Insts.MA = some J) :
    S.PS.PCs.MA = (h.served k).PC ∧ (h.served k).fetch = .ok (some J) := by
  cases hst with
  | span hs hi _ _ _ hk =>
    have hm := hi.back.MA J hJ
    rw [hi.number hs, ← hk] at hm
    exact ⟨hm.PC, hm.fetch⟩
  | raised _ hr =>
    obtain ⟨hm, -⟩ := hr.MA J hJ
    exact ⟨hm.PC, hm.fetch⟩
  | leaving _ hl =>
    obtain rfl : J = _ := Option.some.inj (hJ.symm.trans hl.MA)
    exact ⟨hl.PC_MA, hl.fetch⟩

omit [BranchPredictor σ] in
/-- The instruction that enters EX is the next one of the run. -/
theorem Stage.entering (hst : Stage h N t k S) {I : Instruction} (hI : S.entering = some I) :
    (h.served (S.issued k)).fetch = .ok (some I) := by
  cases hst with
  | span hs hi _ _ _ hk =>
    subst hk
    have hf := (hi.entering hI).2.2.2
    rwa [(hi.numbers hs).1, ← issued_add] at hf
  | raised _ hr => cases (entering_of_bubble hr.DE).symm.trans hI
  | leaving _ hl => cases (entering_of_bubble hl.DE).symm.trans hI

omit [BranchPredictor σ] in
theorem Stage.GPRegs (hst : Stage h N t k S) : S.GPRegs = (h.served k).GPRegs := by
  cases hst with
  | span hs hi _ _ _ hk => rw [hi.back.GPRegs, hi.number hs, hk]
  | raised _ hr => exact hr.GPRegs
  | leaving _ hl => rw [hl.GPRegs, Hart.served_succ, (Hart.serve_frame hl.fetch hl.isSystem).1]

omit [BranchPredictor σ] in
theorem Stage.Mem (hst : Stage h N t k S) : S.Mem = (h.served (S.accessed k)).Mem := by
  cases hst with
  | span hs hi _ _ _ hk =>
    rw [hi.back.Mem, (hi.numbers hs).2, hk, accessed, accessed, Nat.add_assoc]
  | raised _ hr =>
    rw [hr.Mem, hr.ahead]
    rfl
  | leaving _ hl =>
    rw [hl.Mem, accessed, hl.MA]
    rfl

omit [BranchPredictor σ] in
/-- A system instruction has updated its CSRs while it is in EX or in MA. -/
theorem Stage.States (hd : TrapDomain h) (hst : Stage h N t k S) {a : CSRAddress}
    (ha : a ∉ counters) :
    S.States a = (h.served k).States a ∨
      ∃ d I, d < 2 ∧ (h.served (k + d)).fetch = .ok (some I) ∧ a ∈ I.updates ∧
        S.States a = (h.served (k + d + 1)).States a := by
  cases hst with
  | span hs hi _ _ _ hk =>
    left
    rw [hi.back.States a ha, hi.number hs, hk]
  | @raised n I _ hr =>
    by_cases hup : a ∈ I.updates
    · right
      have hcsr : csrIs S.PS.Insts.MA a = false := by
        cases hJ : S.PS.Insts.MA with
        | none => rfl
        | some J =>
          have hf := hr.fetch
          rw [hr.ahead, hJ] at hf
          by_contra hcsr
          have hcsr : J.isCSR = true ∧ a = J.csrAddr := by simpa [csrIs] using hcsr
          exact hd.apart _ J I (hr.MA J hJ).1.fetch hf hcsr.1 (hcsr.2 ▸ hup)
      rw [hr.updated a hup ha hcsr]
      refine ⟨occ S.PS.Insts.MA, I, ?_, hr.ahead ▸ hr.fetch, hup, hr.ahead ▸ rfl⟩
      cases S.PS.Insts.MA with
      | none => exact Nat.zero_lt_two
      | some _ => exact Nat.one_lt_two
    · exact .inl (hr.States a hup ha)
  | @leaving I _ hl =>
    rw [hl.States a ha]
    by_cases hup : a ∈ I.updates
    · exact .inr ⟨0, I, Nat.two_pos, hl.fetch, hup, rfl⟩
    · left
      rw [Hart.served_succ, Hart.serve_States hl.fetch hl.isSystem hup]

/-! ## One cycle -/

omit [BranchPredictor σ] in
/-- The word at the PC is there for a pipeline that has nothing in DE. -/
theorem Clean.fetches (hc : Clean S) (hDE : S.PS.Insts.DE = none)
    (hf : S.PS.StalledStages.IF = false → ∃ w, S.Mem.readWord S.PC = .ok w) :
    ∃ w, S.Mem.readWord S.PC = .ok w := by
  refine hf ?_
  by_contra hs
  rw [Bool.not_eq_false] at hs
  obtain ⟨_, J, _, hJ⟩ := hc.stalled hs
  exact nomatch hDE.symm.trans hJ

/-- A cycle in a span. -/
theorem Inv.serve {L : ℕ∞} {K c r : ℕ} (hd : ServedDomain h N) (hs : Span h N K L)
    (hi : Inv (h.served K) L c S) (hp : Paced (h.served K) L S)
    (htt : Tight (h.served K) (S.issued c) S) (ha : Abreast (h.served K) r (S.issued c) S)
    (ht : t ≤ r + 4 * K)
    (hb : ∀ j I, j + 1 = K → (h.served j).fetch = .ok (some I) → I.isCSR = false)
    (hlt : ∀ I, S.entering = some I → ((K + S.issued c : ℕ) : ℕ∞) < N)
    (hpred : ∀ I, S.entering = some I → I.isSystem = true → I.isMret = false →
      S.predictedTarget = none)
    (hf : S.PS.StalledStages.IF = false → ∃ w, S.Mem.readWord S.PC = .ok w) :
    (∃ A, S.cycle = .ok (.empty, A) ∧ S.advance = .ok A ∧ A.PS.isEmpty = true ∧
      Stage h N (t + 1) (K + c) A ∧ (h.served (K + c)).fetch = .ok none) ∨
    ∃ T, Next S T ∧ Stage h N (t + 1) (S.accessed (K + c)) T := by
  have hreg := hd.regular hs
  have hacc : S.accessed (K + c) = K + S.accessed c := Nat.add_assoc K c _
  by_cases hsys : ∃ I, S.entering = some I ∧ I.isSystem = true
  · right
    obtain ⟨I, hI, hsys⟩ := hsys
    have hst := (hi.entering hI).1
    obtain ⟨T, hn, hr⟩ := hi.raised hd hs (hlt I hI) hI hsys (hf hst) (hpred I hI hsys)
    refine ⟨T, hn, hacc ▸ .raised (hlt I hI) hr ?_⟩
    have hlive := ha.live I (hi.entering hI).2.2.2
    rw [hi.dist_entering hI] at hlive
    omega
  · have hN : ∀ I, S.entering = some I → (S.issued c : ℕ∞) < L := by
      intro I hI
      refine lt_of_le_of_ne hi.bound fun hL => hsys ?_
      obtain ⟨J, hJ, hsys⟩ := hs.ends _ hL.symm (hlt I hI)
      obtain rfl : I = J :=
        Option.some.inj (Except.ok.inj ((hi.entering hI).2.2.2.symm.trans hJ))
      exact ⟨I, hI, hsys⟩
    rcases hi.cycle hreg hf hN with ⟨A, hc, hA, he⟩ | ⟨A, B, M, hthr, hc, hi'⟩
    · left
      obtain ⟨hi', hdry, -⟩ := hi.empty hreg hA he
      have hins := isEmpty_insts he
      have hcA := (issued_of_empty hins c).2
      refine ⟨A, hc, hA, he, .span (r := r + 1) hs hi' ?_ ?_ ?_ rfl (by omega) hb, ?_⟩
      · constructor <;>
        · rw [hins]
          exact fun I hI => nomatch hI
      · intro k I J hk _ hJ
        rw [hcA] at hk hJ
        exact nomatch hdry.symm.trans hJ
      · rw [hcA]
        refine ⟨fun K hK => (nomatch hdry.symm.trans hK), fun _ => .inr ?_⟩
        unfold rest
        rw [hins]
        rfl
      · rw [← hi.number hs]
        exact hdry
    · right
      refine ⟨_, hc, .span (r := r + 1) hs hi' (hp.next hi hreg hthr) ?_ ?_ hacc (by omega) hb⟩
      · rw [hi.issued_next hthr]
        exact htt.next hi hreg hp hthr hN
      · rw [hi.issued_next hthr]
        exact ha.next hi hreg hp hthr hN

/-- **One cycle of a run with traps**, as long as it stays in the domain and the csr instructions
are in order with the updates.  The run is over and the pipeline empty, or the cycle keeps the
invariant. -/
theorem Serving.step (hr : Serving h N t k S) (hd : ServedDomain h N)
    (hlt : ∀ I, S.entering = some I → (S.issued k : ℕ∞) < N)
    (hord : ∀ j, j + 2 = S.issued k → InOrder h j)
    (hf : S.PS.StalledStages.IF = false → ∃ w, S.Mem.readWord S.PC = .ok w) :
    (∃ A, S.cycle = .ok (.empty, A) ∧ S.advance = .ok A ∧ A.PS.isEmpty = true ∧
      Serving h N (t + 1) k A ∧ (h.served k).fetch = .ok none) ∨
    ∃ T, Next S T ∧ Serving h N (t + 1) (S.accessed k) T := by
  obtain ⟨hst, hx, hq⟩ := hr
  have hclean := hst.clean
  have hMem := hst.Mem
  have hnext : ∀ {T}, Next S T → Stage h N (t + 1) (S.accessed k) T →
      ∃ T, Next S T ∧ Serving h N (t + 1) (S.accessed k) T := fun hn hT =>
    ⟨_, hn, hT, hx.next hclean hMem hn, hq.imp_left hn.unpredicted⟩
  cases hst with
  | @span K c r L hs hi hp htt ha hk ht hb =>
    subst hk
    rw [issued_add] at hlt
    have hpred : ∀ I, S.entering = some I → I.isSystem = true → I.isMret = false →
        S.predictedTarget = none := fun I hI => hx.predictedTarget hq hs hi hI
    rcases hi.serve hd hs hp htt ha ht hb hlt hpred hf with
      ⟨A, hc, hA, he, hT, hdry⟩ | ⟨T, hn, hT⟩
    · left
      obtain ⟨_, _, _, _, _, haBP, _⟩ := advance_frame hA
      refine ⟨A, hc, hA, he, ⟨hT, hx.advance hclean hMem hA, ?_⟩, hdry⟩
      rw [haBP]
      exact hq
    · exact .inr (hnext hn hT)
  | @raised n I hn hr ht =>
    right
    obtain ⟨T, hT, -, hl⟩ := hr.leaves hd hn (hclean.fetches hr.DE hf)
    have hacc : S.accessed k = n := hr.ahead.symm
    have hiss : S.issued k = n + 1 := by rw [issued_eq, hacc, hr.EX, occ_some]
    refine hnext hT ?_
    rw [hacc]
    exact .leaving hn (hl fun j hj => hord j (by omega)) (by omega)
  | leaving hk hl ht =>
    right
    have hk1 : ((k + 1 : ℕ) : ℕ∞) ≤ N := by exact_mod_cast Order.add_one_le_of_lt hk
    obtain ⟨L, hs⟩ := exists_span h hk1
    obtain ⟨T, hn, hi, hp, hiss, ha⟩ := hl.resumes hd hk hs (hclean.fetches hl.DE hf)
    have hacc : S.accessed k = k + 1 := by rw [accessed, hl.MA, occ_some]
    refine hnext hn ?_
    rw [hacc]
    refine .span hs hi hp ?_ (hiss.symm ▸ ha) rfl (by omega) ?_
    · intro j I J hj
      rw [hiss] at hj
      cases hj
    · intro j I hj hf
      obtain rfl : j = k := by omega
      obtain rfl : I = _ := Option.some.inj (Except.ok.inj (hf.symm.trans hl.fetch))
      exact Instruction.isCSR_of_isSystem hl.isSystem

/-- One cycle of a run that is in the domain for ever. -/
theorem Serving.cycle (hr : Serving h ⊤ t k S) (hd : TrapDomain h)
    (hf : S.PS.StalledStages.IF = false → ∃ w, S.Mem.readWord S.PC = .ok w) :
    (∃ A, S.cycle = .ok (.empty, A) ∧ S.advance = .ok A ∧ A.PS.isEmpty = true ∧
      Serving h ⊤ (t + 1) k A ∧ (h.served k).fetch = .ok none) ∨
    ∃ T, Next S T ∧ Serving h ⊤ (t + 1) (S.accessed k) T :=
  hr.step hd.toServedDomain (fun _ _ => ENat.natCast_lt_top _) (fun j _ => hd.inOrder j) hf

/-- What a call of `proceedNStage(1)` writes back is the next instruction of the run, or
nothing. -/
theorem Serving.proceed (hr : Serving h N t k S) (hd : ServedDomain h N)
    (hlt : ∀ I, S.entering = some I → (S.issued k : ℕ∞) < N)
    (hord : ∀ j, j + 2 = S.issued k → InOrder h j)
    (hf : S.PS.StalledStages.IF = false → ∃ w, S.Mem.readWord S.PC = .ok w) :
    ∃ e T, S.proceed = .ok (e, T) ∧
      Logs.Matches (Serving h N) (fun k p => p.1 = (h.served k).PC ∧
        (h.served k).fetch = .ok (some p.2)) t k T e := by
  rcases hr.step hd hlt hord hf with ⟨A, hc, -, he, hA, -⟩ | ⟨T, hn, hT⟩
  · refine ⟨none, A, ?_, hA⟩
    rw [proceed_of_empty hc, RIPSimulator.retired, isEmpty_insts he]
    rfl
  · obtain ⟨hWB, hPC, -⟩ := Next.backEnd hr.stage.clean hn
    refine ⟨_, T, proceed_of_next hn, ?_⟩
    rw [RIPSimulator.retired, hWB, hPC]
    rw [accessed] at hT
    cases hJ : S.PS.Insts.MA with
    | none =>
      rw [hJ] at hT
      exact hT
    | some J =>
      rw [hJ] at hT
      exact ⟨hr.stage.MA hJ, hT⟩

/-- A call, by what its cycle does: the pipeline is empty, or it goes through the stages. -/
theorem Serving.proceed_cases {e : Option (Address × Instruction)} (hr : Serving h ⊤ t k S)
    (hd : TrapDomain h)
    (hf : S.PS.StalledStages.IF = false → ∃ w, S.Mem.readWord S.PC = .ok w)
    (hp : S.proceed = .ok (e, T)) :
    (S.advance = .ok T ∧ T.PS.isEmpty = true ∧ e = none) ∨
      Next S T ∧ k + e.toList.length = S.accessed k := by
  rcases hr.cycle hd hf with ⟨A, hc, hA, he, -, -⟩ | ⟨U, hn, -⟩
  · obtain ⟨h1, rfl⟩ := Prod.mk.inj (Except.ok.inj ((proceed_of_empty hc).symm.trans hp))
    refine .inl ⟨hA, he, ?_⟩
    rw [← h1, RIPSimulator.retired, isEmpty_insts he]
    rfl
  · obtain ⟨h1, rfl⟩ := Prod.mk.inj (Except.ok.inj ((proceed_of_next hn).symm.trans hp))
    refine .inr ⟨hn, ?_⟩
    rw [← h1, RIPSimulator.retired, (Next.backEnd hr.stage.clean hn).1, accessed]
    cases S.PS.Insts.MA <;> rfl

/-! ## Whole runs -/

/-- The pipeline state `S`, with the instructions `log` written back, is what the run with
traps from `h` has reached after them.  A store is performed one cycle before it is written
back, and the CSRs that a system instruction updates up to two cycles before. -/
structure Serves (h : Hart) (log : List (Address × Instruction)) (S : RIPSimulator σ) : Prop where
  trace : ∀ k p, log[k]? = some p →
    p.1 = (h.served k).PC ∧ (h.served k).fetch = .ok (some p.2)
  GPRegs : S.GPRegs = (h.served log.length).GPRegs
  Mem : S.Mem = (h.served (S.accessed log.length)).Mem
  States : ∀ a, a ∉ counters → S.States a = (h.served log.length).States a ∨
    ∃ d I, d < 2 ∧ (h.served (log.length + d)).fetch = .ok (some I) ∧ a ∈ I.updates ∧
      S.States a = (h.served (log.length + d + 1)).States a

omit [BranchPredictor σ] in
/-- What has been written back are instructions of the run. -/
theorem Serves.live {log : List (Address × Instruction)} (hs : Serves h log S) {j : ℕ}
    (hj : j < log.length) : ∃ I, (h.served j).fetch = .ok (some I) :=
  ⟨_, (hs.trace j _ (List.getElem?_eq_getElem hj)).2⟩

omit [BranchPredictor σ] in
theorem Started.serving (h₀ : Started S) (hq : S.BP = none ∨ Unbranched S.hart) :
    Serving S.hart N 0 0 S := by
  obtain ⟨L, hs⟩ := exists_span S.hart (N := N) (K := 0) bot_le
  refine ⟨.span (K := 0) (c := 0) (r := 0) hs (h₀.inv L) (h₀.paced _ _) ?_ h₀.running.abreast rfl
    (Nat.zero_le _) fun _ _ hj => (nomatch hj), ?_, hq⟩
  · intro k I J hk
    rw [(issued_of_empty h₀.insts 0).2] at hk
    exact nomatch hk
  · intro J hJ
    rw [h₀.insts] at hJ
    exact nomatch hJ

theorem Started.serves {S₀ : RIPSimulator σ} (h₀ : Started S₀) (hd : TrapDomain S₀.hart)
    (hf : ∀ n c log S, S₀.proceeds n = .ok (log, S) → Serving S₀.hart ⊤ n c S →
      S.PS.StalledStages.IF = false → ∃ w, S.Mem.readWord S.PC = .ok w)
    (hq : S₀.BP = none ∨ Unbranched S₀.hart) (n : ℕ) :
    ∃ log S, S₀.proceeds n = .ok (log, S) ∧ Serving S₀.hart ⊤ n log.length S ∧
      Serves S₀.hart log S := by
  have hproceed : ∀ n c log S, S₀.proceeds n = .ok (log, S) → Serving S₀.hart ⊤ n c S →
      ∃ e T, S.proceed = .ok (e, T) ∧ Logs.Matches (Serving S₀.hart ⊤)
        (fun k p => p.1 = (S₀.hart.served k).PC ∧ (S₀.hart.served k).fetch = .ok (some p.2))
        n c T e :=
    fun n c log S hrun hr => hr.proceed hd.toServedDomain (fun _ _ => ENat.natCast_lt_top _)
      (fun j _ => hd.inOrder j) (hf n c log S hrun hr)
  obtain ⟨log, S, hrun, hr, htr⟩ := Logs.runLog_refines (h₀.serving hq) hproceed n
  exact ⟨log, S, hrun, hr, htr, hr.stage.GPRegs, hr.stage.Mem, fun a ha => hr.stage.States hd ha⟩

/-- **What every cycle keeps, a run with traps keeps.** -/
theorem Started.serves_keeps {S₀ : RIPSimulator σ} (h₀ : Started S₀) (hd : TrapDomain S₀.hart)
    (hf : FetchesInDRAM S₀) (hq : S₀.BP = none ∨ Unbranched S₀.hart)
    {P : ℕ → RIPSimulator σ → Prop} (hP : P 0 S₀)
    (hempty : ∀ c S A, Clean S → S.advance = .ok A → A.PS.isEmpty = true → P c S → P c A)
    (hnext : ∀ t c S T, Stage S₀.hart ⊤ t c S → Next S T → P c S → P (S.accessed c) T) (n : ℕ) :
    ∃ log S, S₀.proceeds n = .ok (log, S) ∧ Serving S₀.hart ⊤ n log.length S ∧ P log.length S := by
  have hstep : ∀ n c log S, S₀.proceeds n = .ok (log, S) → (Serving S₀.hart ⊤ n c S ∧ P c S) →
      ∃ e T, S.proceed = .ok (e, T) ∧ Logs.Matches (fun n c S => Serving S₀.hart ⊤ n c S ∧ P c S)
        (fun k p => p.1 = (S₀.hart.served k).PC ∧ (S₀.hart.served k).fetch = .ok (some p.2))
        n c T e := by
    rintro n c log S hrun ⟨hr, hPS⟩
    obtain ⟨e, T, hp, hm⟩ := hr.proceed hd.toServedDomain (fun _ _ => ENat.natCast_lt_top _)
      (fun j _ => hd.inOrder j) (hf n log S hrun)
    have hPT : P (c + e.toList.length) T := by
      rcases hr.proceed_cases hd (hf n log S hrun) hp with ⟨hA, he, rfl⟩ | ⟨hn, hcount⟩
      · exact hempty c S T hr.stage.clean hA he hPS
      · rw [hcount]
        exact hnext n c S T hr.stage hn hPS
    refine ⟨e, T, hp, ?_⟩
    cases e with
    | none => exact ⟨hm, hPT⟩
    | some p => exact ⟨hm.1, hm.2, hPT⟩
  obtain ⟨log, S, hrun, ⟨hr, hPS⟩, -⟩ := Logs.runLog_refines ⟨h₀.serving hq, hP⟩ hstep n
  exact ⟨log, S, hrun, hr, hPS⟩

omit [BranchPredictor σ] in
/-- **How far the fetch strays** in a run with traps. -/
theorem Serving.near (hr : Serving h N t k S) : ∃ j, Near (h.served j) 0 S.PC := by
  cases hr.stage with
  | @span K c _ _ hs hi hp =>
    refine ⟨K + S.issued c, ?_⟩
    have hn := hi.near hp
    unfold Near at hn
    rw [(hi.numbers hs).1] at hn
    exact hn
  | raised _ hra => exact ⟨_, .inl hra.PC⟩
  | leaving _ hl =>
    refine ⟨k + 1, ?_⟩
    cases hJ : S.PS.Insts.IF with
    | none => exact .inl (hl.fetching.bubble hJ)
    | some J => exact .inr (.inl (hl.fetching.IF J hJ).2.1)

/-- A condition on the sequential run alone under which every fetch is in the DRAM. -/
theorem Started.fetchesInDRAM_served {S₀ : RIPSimulator σ} (h₀ : Started S₀)
    (hd : TrapDomain S₀.hart) (hq : S₀.BP = none ∨ Unbranched S₀.hart)
    (hnear : ∀ i k y, Near (S₀.hart.served k) 0 y →
      ∃ w, (S₀.hart.served i).Mem.readWord y = .ok w) : FetchesInDRAM S₀ := by
  have hf : ∀ n c log S, S₀.proceeds n = .ok (log, S) → Serving S₀.hart ⊤ n c S →
      S.PS.StalledStages.IF = false → ∃ w, S.Mem.readWord S.PC = .ok w := by
    intro n c log S _ hr _
    obtain ⟨j, hj⟩ := hr.near
    rw [hr.stage.Mem]
    exact hnear _ j _ hj
  intro n log S hrun hs
  obtain ⟨log', S', hrun', hr, -⟩ := h₀.serves hd hf hq n
  obtain ⟨rfl, rfl⟩ := Prod.mk.inj (Except.ok.inj (hrun.symm.trans hrun'))
  exact hf n _ log S hrun hr hs

omit [BranchPredictor σ] in
/-- After enough calls everything up to instruction `k` is written back. -/
theorem Serving.committed {c : ℕ} (hr : Serving h ⊤ t c S) (hd : TrapDomain h) {I : Instruction}
    (hk : (h.served k).fetch = .ok (some I)) (ht : 4 * k + 10 ≤ t) : k < c := by
  cases hr.stage with
  | @span K c r L hs hi hp _ ha hc htr =>
    have hle : S.issued c ≤ c + S.rest ∧ S.rest ≤ 2 := by
      unfold issued accessed rest
      cases S.PS.Insts.EX <;> cases S.PS.Insts.MA <;> simp
    obtain ⟨o, hm⟩ := hd.inDRAM (K + S.issued c) le_top
    have hm' := hm
    rw [← (hi.numbers hs).1] at hm'
    cases o with
    | some J =>
      have := ha.live J hm'
      omega
    | none =>
      have hlt : k < K + S.issued c := by
        by_contra hge
        rw [Hart.served_of_none hm (Nat.not_lt.mp hge)] at hk
        exact nomatch hm.symm.trans hk
      rcases ha.dry hm' with h1 | h1 <;> omega
  | raised _ hra htr =>
    have hle : occ S.PS.Insts.MA ≤ 1 := by
      cases S.PS.Insts.MA with
      | none => exact Nat.zero_le 1
      | some _ => exact Nat.le_refl 1
    have := hra.ahead
    omega
  | leaving _ _ htr => omega

/-! ## How a run ends -/

/-- While there is something in the pipeline the run is not far behind the cycles. -/
theorem Serving.budget {c : ℕ} (hr : Serving h ⊤ t c S) (hd : TrapDomain h)
    (hlive : ∀ {j}, j < c → ∃ I, (h.served j).fetch = .ok (some I))
    (hend : (h.served m).fetch = .ok none) (hn : Next S T) : t ≤ 4 * m + 1 := by
  have hover : ∀ {j I}, (h.served j).fetch = .ok (some I) → j < m := by
    intro j I hj
    by_contra hge
    rw [Hart.served_of_none hend (Nat.not_lt.mp hge)] at hj
    exact nomatch hend.symm.trans hj
  cases hr.stage with
  | @span K c r L hs hi hp _ ha hc htr =>
    subst hc
    obtain ⟨hni, hna⟩ := hi.numbers hs
    have hle : K + S.issued c ≤ m := by
      rw [issued_eq]
      cases hEX : S.PS.Insts.EX with
      | some I =>
        have := hover (hna ▸ (hi.back.EX I hEX).fetch)
        rw [occ_some]
        omega
      | none =>
        rw [occ_none, accessed]
        cases hMA : S.PS.Insts.MA with
        | some I =>
          have := hover (hi.number hs ▸ (hi.back.MA I hMA).fetch)
          rw [occ_some]
          omega
        | none =>
          rw [occ_none]
          by_contra hlt
          have hlt' : m < K + c := by omega
          obtain ⟨I, hI⟩ := hlive hlt'
          exact nomatch hend.symm.trans hI
    obtain ⟨o, hm⟩ := hd.inDRAM (K + S.issued c) le_top
    have hm' := hm
    rw [← hni] at hm'
    cases o with
    | some J =>
      have := hover hm
      have := ha.live J hm'
      omega
    | none =>
      obtain ⟨A, B, M, E, D, hthr, -⟩ := hn.through
      have hent := entering_of_bubble (hi.front_dry hm').1
      obtain ⟨rfl, -⟩ := hthr.bubble ((hi.clean.advance_entering hthr.advance).trans hent)
      have := (hi.rest_dry (hd.toServedDomain.regular hs) hthr hm').2
      rcases ha.dry hm' with h1 | h1 <;> omega
  | raised _ hra htr =>
    have := hover hra.fetch
    omega
  | leaving _ hl htr =>
    have := hover hl.fetch
    omega

omit [BranchPredictor σ] in
/-- An empty pipeline is where the run has ended. -/
theorem Serving.settled {c : ℕ} (hr : Serving h ⊤ t c A) (hd : TrapDomain h)
    (he : A.PS.isEmpty = true)
    (hdry : (h.served c).fetch = .ok none) (hend : (h.served m).fetch = .ok none) :
    Settled (h.served m) 0 A := by
  have hsame : h.served c = h.served m := by
    rcases Nat.le_total c m with hle | hle
    · exact (Hart.served_of_none hdry hle).symm
    · exact Hart.served_of_none hend hle
  have hacc : A.accessed c = c := (issued_of_empty (isEmpty_insts he) c).1
  refine ⟨hsame ▸ hr.stage.GPRegs, ?_, fun a ha => ?_⟩
  · rw [hr.stage.Mem, hacc, hsame]
    rfl
  · rcases hr.stage.States hd ha with hSt | ⟨d, I, -, hf, -⟩
    · rw [hSt, hsame]
      rfl
    · rw [Hart.served_of_none hdry (Nat.le_add_right _ d)] at hf
      exact nomatch hdry.symm.trans hf

/-- **A run that comes to an undecodable word stops**, with an empty pipeline. -/
theorem Started.stops_served {S₀ : RIPSimulator σ} (h₀ : Started S₀) (hd : TrapDomain S₀.hart)
    (hf : FetchesInDRAM S₀) (hq : S₀.BP = none ∨ Unbranched S₀.hart)
    (hend : (S₀.hart.served m).fetch = .ok none) (fuel : ℕ) :
    ∀ {t log S}, S₀.proceeds t = .ok (log, S) → 4 * m + 2 ≤ t + fuel →
      ∃ T t' log', runLoop none (fuel + 1) S = .ok (some T) ∧ S₀.proceeds t' = .ok (log', T) ∧
        T.PS.isEmpty = true ∧ (S₀.hart.served log'.length).fetch = .ok none := by
  have hempty : ∀ {t log S A} (fuel : ℕ), S₀.proceeds t = .ok (log, S) →
      S.cycle = .ok (.empty, A) → A.PS.isEmpty = true →
      (S₀.hart.served log.length).fetch = .ok none →
      ∃ T t' log', runLoop none (fuel + 1) S = .ok (some T) ∧ S₀.proceeds t' = .ok (log', T) ∧
        T.PS.isEmpty = true ∧ (S₀.hart.served log'.length).fetch = .ok none := by
    intro t log S A fuel hrun hc he hdry
    have hlog := Logs.runLog_succ hrun (proceed_of_empty hc)
    rw [RIPSimulator.retired, isEmpty_insts he] at hlog
    refine ⟨A, t + 1, log, runLoop_of_empty hc he fuel, ?_, he, hdry⟩
    rw [proceeds, hlog]
    exact congrArg (fun l => Except.ok (l, A)) (List.append_nil log)
  induction fuel with
  | zero =>
    intro t log S hrun hfuel
    obtain ⟨log', S', hrun', hr, hs⟩ := h₀.serves hd (fun n _ log S h _ => hf n log S h) hq t
    obtain ⟨rfl, rfl⟩ := Prod.mk.inj (Except.ok.inj (hrun.symm.trans hrun'))
    rcases hr.cycle hd (hf t log S hrun) with ⟨A, hc, -, he, -, hdry⟩ | ⟨T, hn, -⟩
    · exact hempty 0 hrun hc he hdry
    · have := hr.budget hd hs.live hend hn
      omega
  | succ fuel ih =>
    intro t log S hrun hfuel
    obtain ⟨log', S', hrun', hr, -⟩ := h₀.serves hd (fun n _ log S h _ => hf n log S h) hq t
    obtain ⟨rfl, rfl⟩ := Prod.mk.inj (Except.ok.inj (hrun.symm.trans hrun'))
    rcases hr.cycle hd (hf t log S hrun) with ⟨A, hc, -, he, -, hdry⟩ | ⟨T, hn, -⟩
    · exact hempty (fuel + 1) hrun hc he hdry
    · rw [runLoop_of_next hn (hn.nonempty hr.stage.clean)]
      exact ih (Logs.runLog_succ hrun (proceed_of_next hn)) (by omega)

end RIPSimulator

open RIPSimulator

/-- **The pipeline refines the sequential execution with traps.** -/
theorem pipeline_traps {σ : Type} [BranchPredictor σ] {S₀ : RIPSimulator σ} (h₀ : Started S₀)
    (hd : TrapDomain S₀.hart) (hf : FetchesInDRAM S₀) (hq : S₀.BP = none ∨ Unbranched S₀.hart) :
    (∀ n, ∃ log S, S₀.proceeds n = .ok (log, S) ∧ Serves S₀.hart log S) ∧
    (∀ k I, (S₀.hart.served k).fetch = .ok (some I) →
      ∃ log S, S₀.proceeds (4 * k + 10) = .ok (log, S) ∧ k < log.length) ∧
    ∀ m, (S₀.hart.served m).fetch = .ok none →
      ∃ S, S₀.run none none (4 * m + 3) = .ok (some S) ∧ Settled (S₀.hart.served m) 0 S := by
  refine ⟨fun n => ?_, fun k I hk => ?_, fun m hm => ?_⟩
  · obtain ⟨log, S, hrun, -, hs⟩ := h₀.serves hd (fun n _ log S h _ => hf n log S h) hq n
    exact ⟨log, S, hrun, hs⟩
  · obtain ⟨log, S, hrun, hr, -⟩ := h₀.serves hd (fun n _ log S h _ => hf n log S h) hq (4 * k + 10)
    exact ⟨log, S, hrun, hr.committed hd hk le_rfl⟩
  · obtain ⟨S, t, log, hrun, hS, he, hdry⟩ :=
      h₀.stops_served hd hf hq hm (4 * m + 2) rfl (Nat.le_add_left _ 0)
    obtain ⟨log', S', hS', hr, -⟩ := h₀.serves hd (fun n _ log S h _ => hf n log S h) hq t
    obtain ⟨rfl, rfl⟩ := Prod.mk.inj (Except.ok.inj (hS.symm.trans hS'))
    exact ⟨S, hrun, hr.settled hd he hdry hm⟩

/-! ## A program with a trap handler -/

/-- A program that sets up a trap handler and calls it.  The handler at address 24 moves `mepc`
on by one instruction and returns. -/
def caller : RIPSimulator OneBitBranchPredictor :=
  { boot [0x305c5073, 0x00500093, 0x00000073, 0x00108113, 0, 0, 0x341021f3, 0x00418193, 0x34119073,
      0x30200073] none with Stats := some Statistics.new }

namespace Caller

theorem started : Started caller := ⟨⟨_, _, rfl⟩, rfl, rfl, rfl, ⟨none, rfl⟩⟩

/-- The instructions in the order of the run. -/
def insts : List Instruction :=
  [.IInstruction .csrrwi 0 24 MTVEC, .IInstruction .addi 1 0 5, .IInstruction .ecall 0 0 0,
    .IInstruction .csrrs 3 0 MEPC, .IInstruction .addi 3 3 4, .IInstruction .csrrw 0 3 MEPC,
    .IInstruction .mret 0 0 0x302, .IInstruction .addi 2 1 1]

/-- Their addresses, and the one at which the run ends. -/
def addresses : List Address := [0, 4, 8, 24, 28, 32, 36, 12, 16]

/-- The addresses of the words that may be fetched. -/
def words : List Address := [0, 4, 8, 12, 16, 20, 24, 28, 32, 36, 40, 44]

theorem ended : (caller.hart.served 8).fetch = .ok none := rfl

theorem served_of_le {k : ℕ} (hk : 8 ≤ k) : caller.hart.served k = caller.hart.served 8 :=
  Hart.served_of_none ended hk

theorem executes : Executes caller.hart insts := by
  intro k
  match k with
  | 0 => rfl
  | 1 => rfl
  | 2 => rfl
  | 3 => rfl
  | 4 => rfl
  | 5 => rfl
  | 6 => rfl
  | 7 => rfl
  | k + 8 =>
    rw [served_of_le (Nat.le_add_left 8 k)]
    rfl

theorem PC (k : ℕ) : (caller.hart.served k).PC ∈ addresses := by
  match k with
  | 0 | 1 | 2 | 3 | 4 | 5 | 6 | 7 => decide
  | k + 8 =>
    rw [served_of_le (Nat.le_add_left 8 k)]
    decide

theorem mem (k : ℕ) : (caller.hart.served k).Mem = caller.hart.Mem := by
  match k with
  | 0 => rfl
  | 1 => rfl
  | 2 => rfl
  | 3 => rfl
  | 4 => rfl
  | 5 => rfl
  | 6 => rfl
  | 7 => rfl
  | k + 8 =>
    rw [served_of_le (Nat.le_add_left 8 k)]
    rfl

theorem admitted {I : Instruction} (hI : I ∈ insts) (hsys : I.isSystem = false) (h : Hart) :
    Admitted I h := by
  simp only [insts, List.mem_cons, List.not_mem_nil, or_false] at hI
  rcases hI with rfl | rfl | rfl | rfl | rfl | rfl | rfl | rfl
  · exact .of_isCSR h rfl (by decide)
  · exact (Supported.of_computes rfl rfl rfl rfl ⟨_, rfl⟩).admitted
  · exact nomatch hsys
  · exact .of_isCSR h rfl (by decide)
  · exact (Supported.of_computes rfl rfl rfl rfl ⟨_, rfl⟩).admitted
  · exact .of_isCSR h rfl (by decide)
  · exact nomatch hsys
  · exact (Supported.of_computes rfl rfl rfl rfl ⟨_, rfl⟩).admitted

theorem domain : TrapDomain caller.hart where
  machine := rfl
  inDRAM k _ := ⟨_, executes k⟩
  admitted k I _ hf hsys := admitted (executes.mem hf) hsys _
  bare k I _ hf := by
    have hall : ∀ I ∈ insts, I.isSystem = true → I.rd = 0 := by decide
    exact hall I (executes.mem hf)
  returns k I _ hf hm := by
    have hall : ∀ k < 8, ∀ I ∈ insts[k]?, I.isMret = true →
        Returns ((caller.hart.served k).States MSTATUS) := by decide
    exact hall k (executes.lt hf) I (executes.getElem hf) hm
  apart k I K hf hf' := by
    have hall : ∀ k < 8, ∀ I ∈ insts[k]?, ∀ K ∈ insts[k + 1]?, I.isCSR = true →
        I.csrAddr ∉ K.updates := by decide
    exact hall k (executes.lt hf) I (executes.getElem hf) K (executes.getElem hf')
  quiet k d I J hd _ hf _ hs hrd hzero _ hres := by
    -- only `csrrwi` and `csrrw` write to `x0`, and the second is followed by `mret`
    have hall : ∀ k < 8, ∀ I ∈ insts[k]?, I.hasRd = true → I.rd = 0 → I.isSystem = false →
        k = 0 ∨ k = 5 := by decide
    have hsys : I.isSystem = false := hs 0 (Nat.zero_le d) I hf
    rcases hall k (executes.lt hf) I (executes.getElem hf) hrd hzero hsys with rfl | rfl
    · obtain rfl : .IInstruction .csrrwi 0 24 MTVEC = I := Option.some.inj (executes.getElem hf)
      exact absurd rfl hres
    · have hmret := hs 1 (by omega) _ (executes 6)
      exact nomatch hmret
  frozen j k _ _ := by rw [mem, mem]

theorem fetchesInDRAM : FetchesInDRAM caller := by
  have hword : ∀ y ∈ words, ∃ w, caller.hart.Mem.readWord y = .ok w := by
    intro y hy
    simp only [words, List.mem_cons, List.not_mem_nil, or_false] at hy
    rcases hy with rfl | rfl | rfl | rfl | rfl | rfl | rfl | rfl | rfl | rfl | rfl | rfl <;>
    exact ⟨_, rfl⟩
  have hnear : ∀ a ∈ addresses, a ∈ words ∧ a + 4 ∈ words ∧ a + 8 ∈ words := by
    simp [addresses, words]
  refine started.fetchesInDRAM_served domain (.inl rfl) ?_
  intro i k y hy
  obtain ⟨h0, h4, h8⟩ := hnear _ (PC k)
  rw [mem]
  rcases hy with rfl | rfl | rfl | ⟨I, hf, hb, -⟩
  · exact hword _ h0
  · exact hword _ h4
  · exact hword _ h8
  · have hall : ∀ I ∈ insts, I.isBType = false := by decide
    exact absurd ((hall I (executes.mem hf)).symm.trans hb) Bool.false_ne_true

end Caller

/-- `caller` returns from its trap, and ends with `x2 = x1 + 1`. -/
theorem pipeline_traps_caller :
    (∀ n, ∃ log S, caller.proceeds n = .ok (log, S) ∧ Serves caller.hart log S) ∧
    (∃ log S, caller.proceeds 38 = .ok (log, S) ∧ 7 < log.length) ∧
    ∃ S, caller.run none none 35 = .ok (some S) ∧ S.GPRegs 1 = 5 ∧ S.GPRegs 2 = 6 := by
  have h := pipeline_traps Caller.started Caller.domain Caller.fetchesInDRAM (.inl rfl)
  obtain ⟨S, hrun, hS⟩ := h.2.2 8 Caller.ended
  refine ⟨h.1, h.2.1 7 _ (Caller.executes 7), S, hrun, ?_, ?_⟩ <;>
  · rw [hS.GPRegs]
    rfl

end RipSim
