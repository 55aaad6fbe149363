import RipSim.Refinement.Served

/-!
# Trap entry and `mret` behind csr instructions

A csr instruction writes its register in write back; an `ecall` or an `mret` updates the CSRs as
soon as it is in EX.  So the write of a csr instruction right ahead, which is in MA by then, lands
after the update, and its value is what remains.  All others have landed before.

`csr_order_iff` compares the CSRs with those of the sequential run, once everything ahead of the
system instruction has drained: they are the same for every system instruction of the run exactly
if each csr instruction right ahead of one is in order with it (`InOrder`).  Up to the first that is
not, the pipeline runs in step with `Hart.served`.
-/

namespace RipSim

namespace Instruction

/-- A csr instruction does not keep the next one waiting. -/
theorem delays_of_isCSR {I : Instruction} (h : I.isCSR = true) (J : Instruction) :
    I.delays J = false ∧ I.isBType = false := by
  cases I with
  | IInstruction IT =>
    cases IT with
    | csrrw | csrrs | csrrc | csrrwi | csrrsi | csrrci => exact ⟨rfl, rfl⟩
    | _ => exact absurd h Bool.false_ne_true
  | _ => exact absurd h Bool.false_ne_true

theorem updates_of_not_isSystem {I : Instruction} (h : I.isSystem = false) : I.updates = [] := by
  cases I with
  | IInstruction IT =>
    cases IT with
    | ecall | mret => exact nomatch h
    | _ => rfl
  | _ => rfl

theorem mem_updatedCSRs {I : Instruction} {a : CSRAddress} (ha : a ∈ I.updates) :
    a ∈ RIPSimulator.updatedCSRs := by
  cases hI : I.isSystem with
  | false =>
    rw [updates_of_not_isSystem hI] at ha
    cases ha
  | true =>
    obtain ⟨_, _, _, rfl⟩ | ⟨_, _, _, rfl⟩ := system_cases hI
    · exact ha
    · have ha : a ∈ [MSTATUS] := ha
      rw [List.mem_singleton.mp ha]
      decide

end Instruction

namespace RIPSimulator

variable {σ : Type} [BranchPredictor σ] {h : Hart} {N : ℕ∞} {t k n : ℕ} {S S₀ T : RIPSimulator σ}
  {I : Instruction}

/-! ## What is compared -/

/-- In the state `S` of the run from `S₀` the instruction `I`, number `n` of those that the pipeline
executes, is about to enter EX. -/
structure Enters (S₀ : RIPSimulator σ) (n : ℕ) (I : Instruction) (S : RIPSimulator σ) : Prop where
  entering : S.entering = some I
  ran : ∃ t log, S₀.proceeds t = .ok (log, S) ∧ S.issued log.length = n ∧
    ∀ s < t, ∀ log' S', S₀.proceeds s = .ok (log', S') → S'.issued log'.length ≤ n

/-- Each system instruction among the first `N` instructions of the sequential run is executed by
the pipeline, and one cycle after it has been in EX, when everything ahead of it has drained, the
CSRs that a trap entry or an `mret` updates are those of the sequential run behind it. -/
def UpdatesInOrder (S₀ : RIPSimulator σ) (N : ℕ∞) : Prop :=
  ∀ (n : ℕ) I, n < N → (S₀.hart.served n).fetch = .ok (some I) → I.isSystem = true →
    ∃ S S' T, Enters S₀ n I S ∧ Next S S' ∧ Next S' T ∧
      ∀ a ∈ updatedCSRs, T.States a = (S₀.hart.served (n + 1)).States a

/-- Every word is in the DRAM that the pipeline fetches up to its `N`-th instruction, wrong paths
included. -/
def FetchesUpTo (S₀ : RIPSimulator σ) (N : ℕ∞) : Prop :=
  ∀ t log S, S₀.proceeds t = .ok (log, S) → S.issued log.length ≤ N →
    S.PS.StalledStages.IF = false → ∃ w, S.Mem.readWord S.PC = .ok w

theorem FetchesInDRAM.upTo (hf : FetchesInDRAM S₀) (N : ℕ∞) : FetchesUpTo S₀ N :=
  fun t log S hrun _ => hf t log S hrun

/-! ## One system instruction -/

/-- What a cycle that goes on adds to the log and to the instructions past EX. -/
theorem Next.proceeds (hc : Clean S) {log : List (Address × Instruction)}
    (hrun : S₀.proceeds t = .ok (log, S)) (hn : Next S T) :
    ∃ log', S₀.proceeds (t + 1) = .ok (log', T) ∧ log'.length = S.accessed log.length ∧
      T.issued log'.length = S.issued log.length + occ S.entering := by
  obtain ⟨hWB, -, hMA, -, hEX⟩ := Next.backEnd hc hn
  have hlen : (log ++ T.retired.toList).length = S.accessed log.length := by
    rw [RIPSimulator.retired, hWB, List.length_append, accessed]
    cases S.PS.Insts.MA <;> rfl
  refine ⟨_, Logs.runLog_succ hrun (proceed_of_next hn), hlen, ?_⟩
  rw [hlen, issued_eq, accessed, hMA, hEX]
  rfl

/-- **The two cycles of a system instruction.**  What is in EX when it enters is written back
last. -/
theorem Serving.obeys (hr : Serving h N t k S) (hd : ServedDomain h N) (hI : S.entering = some I)
    (hsys : I.isSystem = true) (hlt : (S.issued k : ℕ∞) < N)
    (hf : S.PS.StalledStages.IF = false → ∃ w, S.Mem.readWord S.PC = .ok w)
    (hf' : ∀ S', Next S S' → S'.PS.StalledStages.IF = false →
      ∃ w, S'.Mem.readWord S'.PC = .ok w) :
    ∃ S' T, Next S S' ∧ Next S' T ∧ ∀ a ∈ updatedCSRs, T.States a =
      if csrIs S.PS.Insts.EX a then (h.served (S.issued k)).States a
      else (h.served (S.issued k + 1)).States a := by
  obtain ⟨hst, hx, hq⟩ := hr
  cases hst with
  | @span K c r L hs hi _ _ _ hk =>
    subst hk
    rw [issued_add] at hlt ⊢
    obtain ⟨S', hn, hra⟩ := hi.raised hd hs hlt hI hsys (hf (hi.entering hI).1)
      fun hm => hx.predictedTarget hq hs hi hI hsys hm
    obtain ⟨T, hn', hT, -⟩ := hra.leaves hd hlt (hra.clean.fetches hra.DE (hf' S' hn))
    refine ⟨S', T, hn, hn', fun a ha => ?_⟩
    have hc : a ∉ counters := by
      simp only [updatedCSRs, List.mem_cons, List.not_mem_nil, or_false] at ha
      rcases ha with rfl | rfl | rfl | rfl <;> decide
    rw [hT a hc, hra.lands hc, (Next.backEnd hi.clean hn).2.2.1]
  | raised _ hra => cases (entering_of_bubble hra.DE).symm.trans hI
  | leaving _ hl => cases (entering_of_bubble hl.DE).symm.trans hI

omit [BranchPredictor σ] in
/-- What is in EX ahead of a system instruction is the instruction before it in the run. -/
theorem Serving.ahead (hr : Serving h N t k S) (hI : S.entering = some I) {X : Instruction}
    (hX : S.PS.Insts.EX = some X) :
    ∃ j, j + 1 = S.issued k ∧ (h.served j).fetch = .ok (some X) := by
  cases hr.stage with
  | @span K c r L hs hi _ _ _ hk =>
    subst hk
    have hfX := (hi.back.EX X hX).fetch
    rw [(hi.numbers hs).2] at hfX
    refine ⟨_, ?_, hfX⟩
    rw [issued_add, issued_eq, hX, occ_some, Nat.add_assoc]
  | raised _ hra => cases (entering_of_bubble hra.DE).symm.trans hI
  | leaving _ hl => cases (entering_of_bubble hl.DE).symm.trans hI

omit [BranchPredictor σ] in
/-- A csr instruction delays nothing, so it is in EX when the one behind it enters. -/
theorem Serving.right_ahead (hr : Serving h N t k S) (hI : S.entering = some I) {j : ℕ}
    {J : Instruction} (hj : j + 1 = S.issued k) (hf : (h.served j).fetch = .ok (some J))
    (hcsr : J.isCSR = true) : S.PS.Insts.EX = some J := by
  have hEX : S.PS.Insts.EX ≠ none := by
    cases hr.stage with
    | @span K c r L hs hi _ htt _ hk _ hb =>
      subst hk
      rw [issued_add] at hj
      cases hc : S.issued c with
      | zero =>
        rw [hc] at hj
        exact absurd ((hb j J hj hf).symm.trans hcsr) Bool.false_ne_true
      | succ i =>
        obtain rfl : j = K + i := by omega
        have hle : (i : ℕ∞) ≤ L := le_trans (by exact_mod_cast (by omega)) hi.bound
        rw [← hs.after_add hle] at hf
        obtain ⟨hdel, hb'⟩ := Instruction.delays_of_isCSR hcsr I
        exact ((htt i J I hc hf (hi.entering hI).2.2.2 hb').1 hdel).1
    | raised _ hra => cases (entering_of_bubble hra.DE).symm.trans hI
    | leaving _ hl => cases (entering_of_bubble hl.DE).symm.trans hI
  obtain ⟨X, hX⟩ := Option.ne_none_iff_exists'.mp hEX
  obtain ⟨j', hj', hfX⟩ := hr.ahead hI hX
  obtain rfl : j' = j := by omega
  rw [hX, Except.ok.inj (hfX.symm.trans hf)]

/-! ## Up to the first that is out of order -/

/-- The instruction that the pipeline is about to execute has been reached in step with the
sequential run, if the system instructions before it are in order. -/
theorem Enters.serving (he : Enters S₀ n I S) (h₀ : Started S₀) (hBP : S₀.BP = none)
    (hd : ServedDomain S₀.hart N) (hf : FetchesUpTo S₀ N) (hn : (n : ℕ∞) < N)
    (hord : ∀ j, j + 2 ≤ n → InOrder S₀.hart j) :
    ∃ t log, S₀.proceeds t = .ok (log, S) ∧ Serving S₀.hart N t log.length S ∧
      S.issued log.length = n := by
  obtain ⟨t, log, hrun, hiss, hfirst⟩ := he.ran
  -- by induction on the calls before
  have hall : ∀ s ≤ t, ∃ log' S', S₀.proceeds s = .ok (log', S') ∧
      Serving S₀.hart N s log'.length S' := by
    intro s
    induction s with
    | zero => exact fun _ => ⟨[], S₀, rfl, h₀.serving (.inl hBP)⟩
    | succ s ih =>
      intro hs
      obtain ⟨log', S', hrun', hr⟩ := ih (by omega)
      have hle := hfirst s (by omega) log' S' hrun'
      have hlt : (S'.issued log'.length : ℕ∞) < N := lt_of_le_of_lt (by exact_mod_cast hle) hn
      obtain ⟨e, T, hp, hm⟩ := hr.proceed hd (fun _ _ => hlt) (fun j hj => hord j (by omega))
        (hf s log' S' hrun' hlt.le)
      refine ⟨_, T, Logs.runLog_succ hrun' hp, ?_⟩
      cases e with
      | none =>
        rw [Option.toList_none, List.append_nil]
        exact hm
      | some p =>
        rw [Option.toList_some, List.length_append, List.length_singleton]
        exact hm.2
  obtain ⟨log', S', hrun', hr⟩ := hall t le_rfl
  obtain ⟨rfl, rfl⟩ := Prod.mk.inj (Except.ok.inj (hrun.symm.trans hrun'))
  exact ⟨t, log, hrun, hr, hiss⟩

/-- What such a system instruction makes of the CSRs. -/
theorem Enters.obeys (he : Enters S₀ n I S) (h₀ : Started S₀) (hBP : S₀.BP = none)
    (hd : ServedDomain S₀.hart N) (hf : FetchesUpTo S₀ N) (hn : (n : ℕ∞) < N)
    (hsys : I.isSystem = true) (hord : ∀ j, j + 2 ≤ n → InOrder S₀.hart j) :
    ∃ t k, Serving S₀.hart N t k S ∧ S.issued k = n ∧ ∃ S' T, Next S S' ∧ Next S' T ∧
      ∀ a ∈ updatedCSRs, T.States a = if csrIs S.PS.Insts.EX a then (S₀.hart.served n).States a
        else (S₀.hart.served (n + 1)).States a := by
  obtain ⟨t, log, hrun, hr, hiss⟩ := he.serving h₀ hBP hd hf hn hord
  refine ⟨t, log.length, hr, hiss, ?_⟩
  rw [← hiss] at hn ⊢
  refine hr.obeys hd he.entering hsys hn (hf t log S hrun hn.le) fun S' hn' => ?_
  obtain ⟨log', hrun', -, hiss'⟩ := hn'.proceeds hr.stage.clean hrun
  refine hf _ log' S' hrun' ?_
  rw [hiss', he.entering, occ_some]
  exact_mod_cast Order.add_one_le_of_lt hn

omit [BranchPredictor σ] in
/-- In step with the sequential run the pipeline is not far behind. -/
theorem Serving.pace (hr : Serving h N t k S)
    (hlive : ∀ j ≤ n, ∃ I, (h.served j).fetch = .ok (some I)) (hle : S.issued k ≤ n) :
    t ≤ 4 * n + 2 := by
  cases hr.stage with
  | @span K c r L hs hi _ _ ha hk ht =>
    subst hk
    rw [issued_add] at hle
    obtain ⟨I, hI⟩ := hlive _ hle
    rw [← (hi.numbers hs).1] at hI
    have := ha.live I hI
    have := dist_pos S
    omega
  | @raised m _ _ hra ht =>
    have hiss : S.issued k = m + 1 := by rw [issued_eq, hra.EX, occ_some, accessed, ← hra.ahead]
    omega
  | leaving _ hl ht =>
    have hiss : S.issued k = k + 1 := by
      rw [issued_eq, hl.EX, accessed, hl.MA, occ_some, occ_none]
    omega

/-- **The pipeline gets to every instruction** up to the first system instruction that is out of
order. -/
theorem Started.enters (h₀ : Started S₀) (hBP : S₀.BP = none) (hd : ServedDomain S₀.hart N)
    (hf : FetchesUpTo S₀ N) (hn : (n : ℕ∞) < N) (hI : (S₀.hart.served n).fetch = .ok (some I))
    (hord : ∀ j, j + 2 ≤ n → InOrder S₀.hart j) : ∃ S, Enters S₀ n I S := by
  have hlive : ∀ j ≤ n, ∃ I, (S₀.hart.served j).fetch = .ok (some I) := by
    intro j hj
    obtain ⟨o, ho⟩ := hd.inDRAM j ((by exact_mod_cast hj : (j : ℕ∞) ≤ n).trans hn.le)
    cases o with
    | some I => exact ⟨I, ho⟩
    | none =>
      rw [Hart.served_of_none ho hj] at hI
      cases ho.symm.trans hI
  have hgo : ∀ fuel t log S, S₀.proceeds t = .ok (log, S) → Serving S₀.hart N t log.length S →
      S.issued log.length ≤ n →
      (∀ s < t, ∀ log' S', S₀.proceeds s = .ok (log', S') → S'.issued log'.length ≤ n) →
      4 * n + 2 < t + fuel → ∃ S, Enters S₀ n I S := by
    intro fuel
    induction fuel with
    | zero =>
      intro t log S _ hr hle _ hfuel
      have := hr.pace hlive hle
      omega
    | succ fuel ih =>
      intro t log S hrun hr hle hfirst hfuel
      by_cases hhere : S.issued log.length = n ∧ S.entering ≠ none
      · obtain ⟨hiss, hent⟩ := hhere
        obtain ⟨J, hJ⟩ := Option.ne_none_iff_exists'.mp hent
        have hfJ := hr.stage.entering hJ
        rw [hiss] at hfJ
        obtain rfl : J = I := Option.some.inj (Except.ok.inj (hfJ.symm.trans hI))
        exact ⟨S, hJ, t, log, hrun, hiss, hfirst⟩
      · have hlt : (S.issued log.length : ℕ∞) < N := lt_of_le_of_lt (by exact_mod_cast hle) hn
        rcases hr.step hd (fun _ _ => hlt) (fun j hj => hord j (by omega))
          (hf t log S hrun hlt.le) with ⟨_, _, _, _, _, hdry⟩ | ⟨T, hnext, hT⟩
        · obtain ⟨J, hJ⟩ := hlive log.length (by unfold issued accessed at hle; omega)
          cases hdry.symm.trans hJ
        · obtain ⟨log', hrun', hlen, hiss⟩ := hnext.proceeds hr.stage.clean hrun
          rw [← hlen] at hT
          refine ih (t + 1) log' T hrun' hT ?_ ?_ (by omega)
          · rw [hiss]
            cases hent : S.entering with
            | none => exact hle
            | some J =>
              have hne : S.issued log.length ≠ n := fun hiss =>
                hhere ⟨hiss, by rw [hent]; exact Option.some_ne_none J⟩
              rw [occ_some]
              omega
          · intro s hs log₁ S₁ hrun₁
            rcases Nat.lt_succ_iff_lt_or_eq.mp hs with hlt | rfl
            · exact hfirst s hlt log₁ S₁ hrun₁
            · obtain ⟨rfl, rfl⟩ := Prod.mk.inj (Except.ok.inj (hrun.symm.trans hrun₁))
              exact hle
  refine hgo (4 * n + 3) 0 [] S₀ rfl (h₀.serving (.inl hBP)) ?_ (fun s hs => by omega) (by omega)
  rw [List.length_nil, (issued_of_empty h₀.insts 0).2]
  exact Nat.zero_le n

end RIPSimulator

open RIPSimulator

/-- **When a trap entry or an `mret` comes after the csr instructions ahead of it.**  Without a
predictor the CSRs are those of the sequential execution behind every system instruction, once
everything older has drained, exactly if each csr instruction right ahead of one that updates its
register writes there what the update leaves. -/
theorem csr_order_iff {σ : Type} [BranchPredictor σ] {S₀ : RIPSimulator σ} {N : ℕ∞}
    (h₀ : Started S₀) (hBP : S₀.BP = none) (hd : ServedDomain S₀.hart N) (hf : FetchesUpTo S₀ N) :
    UpdatesInOrder S₀ N ↔ ∀ n : ℕ, ((n + 1 : ℕ) : ℕ∞) < N → InOrder S₀.hart n := by
  constructor
  · intro hup n
    induction n using Nat.strong_induction_on with
    | _ n ih =>
      intro hn J K hJ hK hcsr ha
      have hsys : K.isSystem = true := by
        by_contra hsys
        rw [Instruction.updates_of_not_isSystem (Bool.not_eq_true _ ▸ hsys)] at ha
        cases ha
      obtain ⟨S, S', T, he, hn', hn'', hT⟩ := hup (n + 1) K hn hK hsys
      obtain ⟨t, k, hr, hiss, U', U, hU', hU, hval⟩ := he.obeys h₀ hBP hd hf hn hsys fun j hj =>
        ih j (by omega) (lt_of_le_of_lt (by exact_mod_cast (by omega)) hn)
      obtain rfl : U' = S' := (Prod.mk.inj (Except.ok.inj (hU'.symm.trans hn'))).2
      obtain rfl : U = T := (Prod.mk.inj (Except.ok.inj (hU.symm.trans hn''))).2
      have hmem : J.csrAddr ∈ updatedCSRs := Instruction.mem_updatedCSRs ha
      have hEX := hr.right_ahead he.entering hiss.symm hJ hcsr
      rw [← hT _ hmem, hval _ hmem, hEX, if_pos (by simp [csrIs, hcsr])]
  · intro hord n I hn hI hsys
    have hord' : ∀ j, j + 2 ≤ n → InOrder S₀.hart j := fun j hj =>
      hord j (lt_of_le_of_lt (by exact_mod_cast (by omega)) hn)
    obtain ⟨S, he⟩ := h₀.enters hBP hd hf hn hI hord'
    obtain ⟨t, k, hr, hiss, S', T, hn', hn'', hval⟩ :=
      he.obeys h₀ hBP hd hf hn hsys hord'
    refine ⟨S, S', T, he, hn', hn'', fun a ha => ?_⟩
    rw [hval a ha]
    split_ifs with hcsr
    · by_cases hup : a ∈ I.updates
      · obtain ⟨X, hX⟩ : ∃ X, S.PS.Insts.EX = some X := by
          cases hX : S.PS.Insts.EX with
          | none =>
            rw [hX] at hcsr
            exact absurd hcsr Bool.false_ne_true
          | some X => exact ⟨X, rfl⟩
        obtain ⟨j, hj, hfX⟩ := hr.ahead he.entering hX
        rw [hX] at hcsr
        have hXa : X.isCSR = true ∧ a = X.csrAddr := by simpa [csrIs] using hcsr
        obtain ⟨hisCSR, rfl⟩ := hXa
        obtain rfl : n = j + 1 := by omega
        exact hord j hn X I hfX hI hisCSR hup
      · rw [Hart.served_succ, Hart.serve_States hI hsys hup]
    · rfl

/-! ## A program that keeps its distance -/

/-- A program that sets MIE one instruction ahead of its `ecall`.  The handler at address 20 puts
16 in `mepc` and returns. -/
def enabler : RIPSimulator OneBitBranchPredictor :=
  boot [0x305a5073, 0x30045073, 0x00000013, 0x00000073, 0, 0x34185073, 0x30200073] none

namespace Enabler

theorem started : Started enabler := ⟨⟨_, _, rfl⟩, rfl, rfl, rfl, ⟨none, rfl⟩⟩

/-- The instructions in the order of the run. -/
def insts : List Instruction :=
  [.IInstruction .csrrwi 0 20 MTVEC, .IInstruction .csrrwi 0 8 MSTATUS, .IInstruction .addi 0 0 0,
    .IInstruction .ecall 0 0 0, .IInstruction .csrrwi 0 16 MEPC, .IInstruction .mret 0 0 0x302]

/-- Their addresses, and the one at which the run ends. -/
def addresses : List Address := [0, 4, 8, 12, 20, 24, 16]

theorem ended : (enabler.hart.served 6).fetch = .ok none := rfl

theorem served_of_le {k : ℕ} (hk : 6 ≤ k) : enabler.hart.served k = enabler.hart.served 6 :=
  Hart.served_of_none ended hk

theorem executes : Executes enabler.hart insts := by
  intro k
  match k with
  | 0 => rfl
  | 1 => rfl
  | 2 => rfl
  | 3 => rfl
  | 4 => rfl
  | 5 => rfl
  | k + 6 =>
    rw [served_of_le (Nat.le_add_left 6 k)]
    rfl

theorem PC (k : ℕ) : (enabler.hart.served k).PC ∈ addresses := by
  match k with
  | 0 | 1 | 2 | 3 | 4 | 5 => decide
  | k + 6 =>
    rw [served_of_le (Nat.le_add_left 6 k)]
    decide

theorem mem (k : ℕ) : (enabler.hart.served k).Mem = enabler.hart.Mem := by
  match k with
  | 0 => rfl
  | 1 => rfl
  | 2 => rfl
  | 3 => rfl
  | 4 => rfl
  | 5 => rfl
  | k + 6 =>
    rw [served_of_le (Nat.le_add_left 6 k)]
    rfl

theorem admitted {I : Instruction} (hI : I ∈ insts) (hsys : I.isSystem = false) (h : Hart) :
    Admitted I h := by
  simp only [insts, List.mem_cons, List.not_mem_nil, or_false] at hI
  rcases hI with rfl | rfl | rfl | rfl | rfl | rfl
  · exact .of_isCSR h rfl (by decide)
  · exact .of_isCSR h rfl (by decide)
  · exact (Supported.of_computes rfl rfl rfl rfl ⟨_, rfl⟩).admitted
  · exact nomatch hsys
  · exact .of_isCSR h rfl (by decide)
  · exact nomatch hsys

theorem domain : TrapDomain enabler.hart where
  machine := rfl
  inDRAM k _ := ⟨_, executes k⟩
  admitted k I _ hf hsys := admitted (executes.mem hf) hsys _
  bare k I _ hf := by
    have hall : ∀ I ∈ insts, I.isSystem = true → I.rd = 0 := by decide
    exact hall I (executes.mem hf)
  returns k I _ hf hm := by
    have hall : ∀ k < 6, ∀ I ∈ insts[k]?, I.isMret = true →
        Returns ((enabler.hart.served k).States MSTATUS) := by decide
    exact hall k (executes.lt hf) I (executes.getElem hf) hm
  apart k I K hf hf' := by
    have hall : ∀ k < 6, ∀ I ∈ insts[k]?, ∀ K ∈ insts[k + 1]?, I.isCSR = true →
        I.csrAddr ∉ K.updates := by decide
    exact hall k (executes.lt hf) I (executes.getElem hf) K (executes.getElem hf')
  quiet k d I J hd _ hf _ hs _ _ _ hres := by
    -- what `csrrwi` reads from `mepc` is not zero, but `mret` follows
    have hall : ∀ k < 6, ∀ I ∈ insts[k]?, I.isSystem = false →
        (enabler.hart.served k).result I = 0 ∨ k = 4 := by decide
    have hsys : I.isSystem = false := hs 0 (Nat.zero_le d) I hf
    rcases hall k (executes.lt hf) I (executes.getElem hf) hsys with h0 | rfl
    · exact absurd h0 hres
    · exact nomatch hs 1 (by omega) _ (executes 5)
  frozen j k _ _ := by rw [mem, mem]

theorem fetchesInDRAM : FetchesInDRAM enabler := by
  have hword : ∀ y ∈ [0, 4, 8, 12, 16, 20, 24, 28, (32 : Address)],
      ∃ w, enabler.hart.Mem.readWord y = .ok w := by
    intro y hy
    simp only [List.mem_cons, List.not_mem_nil, or_false] at hy
    rcases hy with rfl | rfl | rfl | rfl | rfl | rfl | rfl | rfl | rfl <;>
    exact ⟨_, rfl⟩
  have hnear : ∀ a ∈ addresses, a ∈ [0, 4, 8, 12, 16, 20, 24, 28, (32 : Address)] ∧
      a + 4 ∈ [0, 4, 8, 12, 16, 20, 24, 28, (32 : Address)] ∧
      a + 8 ∈ [0, 4, 8, 12, 16, 20, 24, 28, (32 : Address)] := by
    simp [addresses]
  refine started.fetchesInDRAM_served domain (.inl rfl) ?_
  intro i k y hy
  obtain ⟨h0, h4, h8⟩ := hnear _ (PC k)
  rw [mem]
  rcases hy with rfl | rfl | rfl | ⟨I, hf, hb, -⟩
  · exact hword _ h0
  · exact hword _ h4
  · exact hword _ h8
  · have hall : ∀ I ∈ insts, I.isBType = false := by decide
    exact absurd ((hall I (executes.mem hf)).symm.trans hb) Bool.false_ne_true

end Enabler

/-- `enabler` enters its trap with MIE moved to MPIE, and returns with MIE set again. -/
theorem csr_order_iff_enabler :
    UpdatesInOrder enabler ⊤ ∧ (enabler.hart.served 4).States MSTATUS = 0x1880 ∧
      (enabler.hart.served 6).States MSTATUS = 0x88 :=
  ⟨(csr_order_iff Enabler.started rfl Enabler.domain.toServedDomain
    (Enabler.fetchesInDRAM.upTo ⊤)).mpr fun n _ => Enabler.domain.inOrder n, by decide, by decide⟩

/-- A program that sets MIE right ahead of its `ecall`. -/
def hasty : RIPSimulator OneBitBranchPredictor := boot [0x30045073, 0x00000073] none

/-- The `ecall` of `hasty` enters EX in the fourth cycle. -/
theorem enters_hasty {S : RIPSimulator OneBitBranchPredictor} {I : Instruction}
    (he : Enters hasty 1 I S) : ∃ log, hasty.proceeds 3 = .ok (log, S) := by
  obtain ⟨hI, t, log, hrun, hiss, hfirst⟩ := he
  have hissued : ∀ {s m : ℕ}, (hasty.proceeds s).toOption.map (fun p => p.2.issued p.1.length)
      = some m → ∃ log S, hasty.proceeds s = .ok (log, S) ∧ S.issued log.length = m := by
    intro s m h
    obtain ⟨⟨log', S'⟩, hp, hm⟩ := Option.map_eq_some_iff.mp h
    exact ⟨log', S', ok_of_toOption hp, hm⟩
  have hunique : ∀ {m : ℕ}, (hasty.proceeds t).toOption.map (fun p => p.2.issued p.1.length)
      = some m → m = 1 := by
    intro m h
    obtain ⟨log', S', hrun', hm⟩ := hissued h
    obtain ⟨rfl, rfl⟩ := Prod.mk.inj (Except.ok.inj (hrun.symm.trans hrun'))
    exact hm.symm.trans hiss
  have hlt : t ≤ 4 := by
    by_contra hgt
    obtain ⟨log', S', hrun', hm⟩ := hissued (s := 4) (m := 2) (by decide +kernel)
    have := hfirst 4 (by omega) log' S' hrun'
    omega
  interval_cases t
  · cases hunique (m := 0) (by decide +kernel)
  · cases hunique (m := 0) (by decide +kernel)
  · cases hunique (m := 0) (by decide +kernel)
  · exact ⟨log, hrun⟩
  · cases hunique (m := 2) (by decide +kernel)

/-- In `hasty` the write lands after the trap entry: `mstatus` is 8, and not `0x1880`. -/
theorem csr_order_violated : Started hasty ∧ hasty.BP = none ∧ ¬ UpdatesInOrder hasty 2 := by
  refine ⟨⟨⟨_, _, rfl⟩, rfl, rfl, rfl, ⟨none, rfl⟩⟩, rfl, fun hup => ?_⟩
  obtain ⟨S, S', T, he, hn, hn', hT⟩ := hup 1 (.IInstruction .ecall 0 0 0) (by decide) rfl rfl
  obtain ⟨log, hrun⟩ := enters_hasty he
  have hval : (hasty.proceeds 3).toOption.bind (fun p => (after 2 p.2).map (·.States MSTATUS))
      = some 8 := by
    decide +kernel
  have h2 : after 2 S = some T := by
    unfold after
    rw [show S.cycle = _ from hn]
    dsimp only
    unfold after
    rw [show S'.cycle = _ from hn']
    rfl
  rw [hrun] at hval
  have hval : (after 2 S).map (·.States MSTATUS) = some 8 := hval
  rw [h2] at hval
  have h8 : T.States MSTATUS = 8 := Option.some.inj hval
  exact absurd (h8.symm.trans (hT MSTATUS (by decide))) (by decide)

end RipSim
