import RipSim.Refinement.Run
import RipSim.Reference.Interpreter

/-!
# What is printed on the console

`memoryaccess` looks for the console address before it looks at the instruction, and
prints the address it has found.  So the pipeline prints a NUL for every instruction whose
value is `0x10000000`, of whatever kind, where the instruction-level simulator prints the
low byte of the stored register for every store there.  Both outputs follow the sequential
run, and they are the same as long as all these instructions store a NUL.
-/

namespace RipSim

/-! ## The outputs of a run -/

namespace Hart

/-- What the access stage prints of an instruction. -/
def emitted (h : Hart) (I : Instruction) : List Byte :=
  if h.value I = consoleAd then [(h.value I).setWidth 8] else []

/-- What the first `k` instructions of the run print, by what each prints. -/
def printed (h : Hart) (f : Hart → Instruction → List Byte) : ℕ → List Byte
  | 0 => []
  | k + 1 => h.printed f k ++
    match (h.after k).fetch with
    | .ok (some I) => f (h.after k) I
    | _ => []

/-- If the value of instruction `k` is the console address, it stores a NUL there. -/
def NulOnly (h : Hart) (k : ℕ) : Prop :=
  ∀ I, (h.after k).fetch = .ok (some I) → (h.after k).value I = consoleAd →
    I.isSType = true ∧ ((h.after k).op2 I).setWidth 8 = 0#8

variable {h : Hart} {f g : Hart → Instruction → List Byte} {k : ℕ} {I : Instruction}

theorem printed_of_some (hf : (h.after k).fetch = .ok (some I)) :
    h.printed f (k + 1) = h.printed f k ++ f (h.after k) I := by
  simp only [printed, hf]

theorem printed_of_none (hf : (h.after k).fetch = .ok none) :
    h.printed f (k + 1) = h.printed f k := by
  simp only [printed, hf, List.append_nil]

theorem printed_of_error {e : Fault} (hf : (h.after k).fetch = .error e) :
    h.printed f (k + 1) = h.printed f k := by
  simp only [printed, hf, List.append_nil]

/-- Two outputs, one of which never prints less than the other, are the same only if each
instruction prints the same. -/
theorem printed_eq_iff (hlen : ∀ h I, (g h I).length ≤ (f h I).length) :
    h.printed f k = h.printed g k ↔
      ∀ j < k, ∀ I, (h.after j).fetch = .ok (some I) → f (h.after j) I = g (h.after j) I := by
  have hle : ∀ k, (h.printed g k).length ≤ (h.printed f k).length := by
    intro k
    induction k with
    | zero => exact le_rfl
    | succ k ih =>
      simp only [printed, List.length_append]
      refine Nat.add_le_add ih ?_
      split
      · exact hlen _ _
      · exact le_rfl
  induction k with
  | zero => exact iff_of_true rfl fun j hj => absurd hj (Nat.not_lt_zero j)
  | succ k ih =>
    refine Iff.trans ?_ ((and_congr_left' ih).trans Nat.forall_lt_succ_right.symm)
    cases hf : (h.after k).fetch with
    | error e =>
      rw [printed_of_error hf, printed_of_error hf]
      exact (and_iff_left fun I hI => nomatch hI).symm
    | ok o =>
      cases o with
      | none =>
        rw [printed_of_none hf, printed_of_none hf]
        exact (and_iff_left fun I hI => nomatch hI).symm
      | some I =>
        rw [printed_of_some hf, printed_of_some hf]
        constructor
        · intro heq
          have hlens := congrArg List.length heq
          rw [List.length_append, List.length_append] at hlens
          have h1 := hle k
          have h2 := hlen (h.after k) I
          obtain ⟨hpre, hlast⟩ := List.append_inj heq (by omega)
          refine ⟨hpre, ?_⟩
          rintro J hJ
          cases hJ
          exact hlast
        · rintro ⟨hpre, hlast⟩
          rw [hpre, hlast I rfl]

theorem length_stored_le (h : Hart) (I : Instruction) :
    (h.stored I).length ≤ (h.emitted I).length := by
  unfold stored emitted
  split_ifs with hs hc
  · exact le_rfl
  · exact absurd hs.2 hc
  · exact Nat.zero_le _
  · exact le_rfl

theorem emitted_eq_stored_iff (h : Hart) (I : Instruction) : h.emitted I = h.stored I ↔
    (h.value I = consoleAd → I.isSType = true ∧ (h.op2 I).setWidth 8 = 0#8) := by
  have hnul : consoleAd.setWidth 8 = 0#8 := by decide
  unfold emitted stored
  by_cases hc : h.value I = consoleAd
  · rw [if_pos hc, hc, hnul]
    by_cases hs : I.isSType = true
    · rw [if_pos ⟨hs, rfl⟩, List.singleton_inj]
      exact ⟨fun h0 _ => ⟨hs, h0.symm⟩, fun h0 => (h0 rfl).2.symm⟩
    · rw [if_neg fun h0 => hs h0.1]
      exact iff_of_false (List.cons_ne_nil _ _) fun h0 => hs (h0 rfl).1
  · rw [if_neg hc, if_neg fun h0 => hc h0.2]
    exact iff_of_true rfl fun h0 => absurd h0 hc

/-- The access stage prints what is stored exactly as long as only NULs are. -/
theorem printed_emitted_iff :
    h.printed emitted k = h.printed stored k ↔ ∀ j < k, h.NulOnly j := by
  rw [printed_eq_iff length_stored_le]
  exact forall₃_congr fun j _ I => imp_congr_right fun _ => emitted_eq_stored_iff _ I

end Hart

/-- The reference prints what is stored. -/
theorem Regular.cerr {h : Hart} {N : ℕ∞} (hd : Regular h N) {k : ℕ} (hk : k ≤ N) :
    (h.after k).cerr = h.cerr ++ h.printed Hart.stored k := by
  induction k with
  | zero => exact (List.append_nil _).symm
  | succ k ih =>
    have hlt : (k : ℕ∞) < N := lt_of_lt_of_le (by exact_mod_cast Nat.lt_succ_self k) hk
    have ih := ih hlt.le
    obtain ⟨o, hf⟩ := hd.inDRAM k hlt.le
    cases o with
    | none => rw [Hart.after_succ, Hart.next_of_none hf, Hart.printed_of_none hf, ih]
    | some I => rw [(hd.effect hlt hf).cerr, Hart.printed_of_some hf, ih, List.append_assoc]

/-! ## What the pipeline prints -/

namespace RIPSimulator

variable {σ : Type} {h : Hart} {N : ℕ∞} {c : ℕ} {S A B M T : RIPSimulator σ}

theorem memoryaccess_cerr (hm : S.memoryaccess = .ok B) :
    B.cerr = S.cerr ++ match S.PS.Insts.MA with
      | none => []
      | some _ => if S.PS.EXRdVal = consoleAd then [S.PS.EXRdVal.setWidth 8] else [] := by
  rcases memoryaccess_ok hm with ⟨hI, rfl⟩ | ⟨I, hI, hc, rfl⟩ | ⟨I, hI, hc, _, rfl⟩ |
    ⟨I, _, _, hI, hc, _, _, rfl⟩ <;> rw [hI]
  · exact (List.append_nil _).symm
  · dsimp only
    rw [if_pos hc]
  · dsimp only
    rw [if_neg hc, List.append_nil]
    rfl
  · dsimp only
    rw [if_neg hc, List.append_nil]
    rfl

variable [BranchPredictor σ]

/-- A cycle prints what the instruction in EX has to print, which goes to MA. -/
theorem Inv.cerr_next (hi : Inv h N c S) (ht : Through S A B M none)
    (hp : S.cerr = h.cerr ++ h.printed Hart.emitted (S.accessed c)) :
    M.decoded.redirect.finish.cerr = h.cerr ++ h.printed Hart.emitted (S.issued c) := by
  obtain ⟨_, _, _, _, _, _, _, hAcerr⟩ := advance_frame ht.advance
  obtain ⟨_, _, _, _, _, _, hwcerr, hwPS⟩ := A.written_frame
  obtain ⟨_, _, _, _, _, _, _, hDcerr, _⟩ := M.decoded_frame
  obtain ⟨_, hMA, _⟩ := hi.clean.advance_insts ht.advance
  have hMA' : A.written.PS.Insts.MA = S.PS.Insts.EX := by rw [hwPS, ← hMA]
  have hEX : A.written.PS.EXRdVal = S.PS.EXRdVal := by
    rw [hwPS, advance_PS ht.advance]
  have hfinish : M.decoded.redirect.finish.cerr = B.cerr := by
    rw [redirect_eq]
    exact hDcerr.trans (exec_frame ht.exec).cerr
  rw [hfinish, memoryaccess_cerr ht.access, hMA', hEX, hwcerr, hAcerr, hp, issued_eq]
  cases hK : S.PS.Insts.EX with
  | none => exact List.append_nil _
  | some K =>
    have hE := hi.back.EX K hK
    rw [occ_some, Hart.printed_of_some hE.fetch, hE.value, List.append_assoc]
    rfl

/-- The invariant of a run, with what has been printed. -/
structure Speaking (h : Hart) (t c : ℕ) (S : RIPSimulator σ) : Prop where
  running : Running h t c S
  cerr : S.cerr = h.cerr ++ h.printed Hart.emitted (S.accessed c)

omit [BranchPredictor σ] in
theorem Started.speaking (h₀ : Started S) : Speaking S.hart 0 0 S := by
  refine ⟨h₀.running, ?_⟩
  rw [(issued_of_empty h₀.insts 0).1]
  exact (List.append_nil _).symm

/-- What a call prints. -/
theorem Speaking.cerr_proceed {t : ℕ} {e : Option (Address × Instruction)} (hs : Speaking h t c S)
    (hd : Regular h ⊤) (hf : S.PS.StalledStages.IF = false → ∃ w, S.Mem.readWord S.PC = .ok w)
    (hp : S.proceed = .ok (e, T)) :
    T.cerr = h.cerr ++ h.printed Hart.emitted (T.accessed (c + e.toList.length)) := by
  have hi := hs.running.inv
  rcases hs.running.proceed_cases hd hf hp with ⟨hA, he, rfl⟩ | ⟨A, B, M, ht, rfl, hcount⟩
  · have hins := isEmpty_insts he
    have hacc : S.accessed c = c := by
      have hiss := (hi.empty hd hA he).2.2
      rw [issued_eq, RIPSimulator.accessed] at hiss
      rw [RIPSimulator.accessed]
      omega
    obtain ⟨-, -, -, -, -, -, -, hAcerr⟩ := advance_frame hA
    rw [hAcerr, hs.cerr, hacc]
    exact congrArg (h.cerr ++ h.printed Hart.emitted ·) (issued_of_empty hins c).1.symm
  · rw [hi.cerr_next ht hs.cerr, hcount, hi.accessed_next ht]

/-- One call of `proceedNStage(1)`. -/
theorem Speaking.proceed {t : ℕ} (hs : Speaking h t c S) (hd : Regular h ⊤)
    (hf : S.PS.StalledStages.IF = false → ∃ w, S.Mem.readWord S.PC = .ok w) :
    ∃ e T, S.proceed = .ok (e, T) ∧
      Logs.Matches (Speaking h) (fun k p => p.1 = (h.after k).PC ∧
        (h.after k).fetch = .ok (some p.2)) t c T e := by
  obtain ⟨e, T, hp, hm⟩ := hs.running.proceed hd hf
  have hcerr := hs.cerr_proceed hd hf hp
  refine ⟨e, T, hp, ?_⟩
  cases e with
  | none => exact ⟨hm, hcerr⟩
  | some p => exact ⟨hm.1, hm.2, hcerr⟩

end RIPSimulator

open RIPSimulator

/-- The consoles agree: what the pipeline has printed after any number of calls of
`proceedNStage(1)` is what the instruction-level simulator has printed after the
instructions past the access stage, and that is one character for each of their stores to
the console, the low byte of the stored register; and no instruction is left out for ever. -/
structure ConsoleAgrees {σ : Type} [BranchPredictor σ] (S₀ : RIPSimulator σ) (s₀ : Simulator) :
    Prop where
  same : ∀ n, ∃ log S s, S₀.proceeds n = .ok (log, S) ∧
    s₀.after (S.accessed log.length) = some s ∧
    s.hart.cerr = S₀.cerr ++ S₀.hart.printed Hart.stored (S.accessed log.length) ∧
    S.cerr = s.hart.cerr
  whole : ∀ k I, (S₀.hart.after k).fetch = .ok (some I) →
    ∃ n log S, S₀.proceeds n = .ok (log, S) ∧ k < S.accessed log.length

/-- Both simulators at the same point of the run: what each has printed. -/
theorem printed_both {σ : Type} [BranchPredictor σ] {S₀ : RIPSimulator σ} (h₀ : Started S₀)
    (hd : Regular S₀.hart ⊤) (hcsr : ∀ n, S₀.hart.CSRFree n) (hf : FetchesInDRAM S₀)
    {s₀ : Simulator} (hs : s₀.hart = S₀.hart) (n : ℕ) :
    ∃ log S s, S₀.proceeds n = .ok (log, S) ∧ Running S₀.hart n log.length S ∧
      s₀.after (S.accessed log.length) = some s ∧
      s.hart.cerr = S₀.cerr ++ S₀.hart.printed Hart.stored (S.accessed log.length) ∧
      S.cerr = S₀.cerr ++ S₀.hart.printed Hart.emitted (S.accessed log.length) := by
  have hstep : ∀ n c log S, S₀.proceeds n = .ok (log, S) → Speaking S₀.hart n c S →
      ∃ e T, S.proceed = .ok (e, T) ∧ Logs.Matches (Speaking S₀.hart)
        (fun k p => p.1 = (S₀.hart.after k).PC ∧ (S₀.hart.after k).fetch = .ok (some p.2))
        n c T e :=
    fun n _ log S hrun hsp => hsp.proceed hd (hf n log S hrun)
  obtain ⟨log, S, hrun, hsp, htr⟩ := Logs.runLog_refines h₀.speaking hstep n
  have hdk : Regular S₀.hart (S.accessed log.length : ℕ) := hd.mono le_top
  obtain ⟨s, X, ha, hX⟩ := Simulator.after_hart hdk (hcsr _)
      (fun k hk => hsp.running.inv.live htr (hk.trans_le (Nat.le_add_right _ _))) hs
    (Nat.le_refl (S.accessed log.length))
  refine ⟨log, S, s, hrun, hsp.running, ha, ?_, hsp.cerr⟩
  rw [hX]
  exact hd.cerr le_top

/-- **When the consoles agree.**  The pipeline prints what the instruction-level simulator
prints exactly if every instruction whose value is the console address is a store of a
NUL. -/
theorem console_agrees_iff {σ : Type} [BranchPredictor σ] {S₀ : RIPSimulator σ} (h₀ : Started S₀)
    (hd : Regular S₀.hart ⊤) (hcsr : ∀ n, S₀.hart.CSRFree n) (hf : FetchesInDRAM S₀)
    {s₀ : Simulator} (hs : s₀.hart = S₀.hart) :
    ConsoleAgrees S₀ s₀ ↔ ∀ k, S₀.hart.NulOnly k := by
  constructor
  · intro ha k I hI
    obtain ⟨n, log, S, hrun, hk⟩ := ha.whole k I hI
    obtain ⟨log', S', s, hrun', ht, hcerr, heq⟩ := ha.same n
    obtain ⟨log'', S'', s', hrun'', -, -, -, hcerr'⟩ := printed_both h₀ hd hcsr hf hs n
    obtain ⟨rfl, rfl⟩ := Prod.mk.inj (Except.ok.inj (hrun.symm.trans hrun'))
    obtain ⟨rfl, rfl⟩ := Prod.mk.inj (Except.ok.inj (hrun.symm.trans hrun''))
    have hprinted := List.append_cancel_left (hcerr'.symm.trans (heq.trans hcerr))
    exact Hart.printed_emitted_iff.mp hprinted k hk I hI
  · intro hnul
    constructor
    · intro n
      obtain ⟨log, S, s, hrun, -, ha, hcerr, hcerr'⟩ := printed_both h₀ hd hcsr hf hs n
      refine ⟨log, S, s, hrun, ha, hcerr, ?_⟩
      rw [hcerr', hcerr, Hart.printed_emitted_iff.mpr fun j _ => hnul j]
    · intro k I hk
      obtain ⟨log, S, s, hrun, hr, -⟩ := printed_both h₀ hd hcsr hf hs (3 * k + 12)
      refine ⟨_, log, S, hrun, ?_⟩
      exact (hr.committed hd hk le_rfl).trans_le (Nat.le_add_right _ _)

/-- `lui x1, 0x10000; addi x2, x0, 65; sb x2, 0(x1)`, in front of an undecodable word. -/
def hello : RIPSimulator OneBitBranchPredictor := boot [0x100000b7, 0x04100113, 0x00208023] none

theorem hello_started : Started hello := started_boot _ _

theorem hello_after {k : ℕ} (hk : 3 ≤ k) : hello.hart.after k = hello.hart.after 3 :=
  Hart.after_of_none rfl hk

theorem hello_mem (k : ℕ) : (hello.hart.after k).Mem = hello.hart.Mem := by
  match k with
  | 0 => rfl
  | 1 => rfl
  | 2 => rfl
  | k + 3 =>
    rw [hello_after (Nat.le_add_left 3 k)]
    rfl

theorem hello_fetch {k : ℕ} {I : Instruction} (hf : (hello.hart.after k).fetch = .ok (some I)) :
    (k = 0 ∧ I = .UInstruction .lui 1 0x10000) ∨ (k = 1 ∧ I = .IInstruction .addi 2 0 65) ∨
      (k = 2 ∧ I = .SInstruction .sb 1 2 0) := by
  match k with
  | 0 =>
    have h0 : (hello.hart.after 0).fetch = .ok (some (.UInstruction .lui 1 0x10000)) := rfl
    exact .inl ⟨rfl, Option.some.inj (Except.ok.inj (hf.symm.trans h0))⟩
  | 1 =>
    have h1 : (hello.hart.after 1).fetch = .ok (some (.IInstruction .addi 2 0 65)) := rfl
    exact .inr (.inl ⟨rfl, Option.some.inj (Except.ok.inj (hf.symm.trans h1))⟩)
  | 2 =>
    have h2 : (hello.hart.after 2).fetch = .ok (some (.SInstruction .sb 1 2 0)) := rfl
    exact .inr (.inr ⟨rfl, Option.some.inj (Except.ok.inj (hf.symm.trans h2))⟩)
  | k + 3 =>
    rw [hello_after (Nat.le_add_left 3 k)] at hf
    have h3 : (hello.hart.after 3).fetch = .ok none := rfl
    exact nomatch hf.symm.trans h3

theorem hello_regular : Regular hello.hart ⊤ := by
  refine ⟨rfl, ?_, ?_, ?_, ?_⟩
  · intro k _
    match k with
    | 0 => exact ⟨_, rfl⟩
    | 1 => exact ⟨_, rfl⟩
    | 2 => exact ⟨_, rfl⟩
    | k + 3 =>
      rw [hello_after (Nat.le_add_left 3 k)]
      exact ⟨none, rfl⟩
  · intro k I _ hf
    rcases hello_fetch hf with ⟨rfl, rfl⟩ | ⟨rfl, rfl⟩ | ⟨rfl, rfl⟩
    · exact (Supported.of_computes rfl rfl rfl rfl ⟨_, rfl⟩).admitted
    · exact (Supported.of_computes rfl rfl rfl rfl ⟨_, rfl⟩).admitted
    · exact ⟨rfl, nofun, nofun, nofun, by decide +kernel, by decide, ⟨_, rfl⟩⟩
  · intro k d I J _ _ hf _ hI hrd
    rcases hello_fetch hf with ⟨_, rfl⟩ | ⟨_, rfl⟩ | ⟨_, rfl⟩
    · exact absurd hrd (by decide)
    · exact absurd hrd (by decide)
    · exact absurd hI (by decide)
  · intro j k _ _
    rw [hello_mem, hello_mem]

theorem hello_fetchesInDRAM : FetchesInDRAM hello := by
  have hPC : ∀ k, (hello.hart.after k).PC = 0 ∨ (hello.hart.after k).PC = 4 ∨
      (hello.hart.after k).PC = 8 ∨ (hello.hart.after k).PC = 12 := by
    intro k
    match k with
    | 0 => exact .inl rfl
    | 1 => exact .inr (.inl rfl)
    | 2 => exact .inr (.inr (.inl rfl))
    | k + 3 =>
      rw [hello_after (Nat.le_add_left 3 k)]
      exact .inr (.inr (.inr rfl))
  refine hello_started.fetchesInDRAM_of_straight hello_regular hello_mem ?_ ?_
  · intro k I hf
    rcases hello_fetch hf with ⟨_, rfl⟩ | ⟨_, rfl⟩ | ⟨_, rfl⟩ <;> rfl
  · intro k
    rcases hPC k with h | h | h | h <;> rw [h] <;> exact ⟨⟨_, rfl⟩, ⟨_, rfl⟩, ⟨_, rfl⟩⟩

/-- The consoles of `hello` do not agree: the value of `lui` is the console address. -/
theorem console_agrees_iff_hello : ¬ ConsoleAgrees hello ⟨hello.hart, Statistics.new⟩ := by
  have hcsr : ∀ n, hello.hart.CSRFree n := by
    intro n k _ I hf
    rcases hello_fetch hf with ⟨_, rfl⟩ | ⟨_, rfl⟩ | ⟨_, rfl⟩ <;> rfl
  rw [console_agrees_iff hello_started hello_regular hcsr hello_fetchesInDRAM rfl]
  intro hnul
  exact absurd (hnul 0 (.UInstruction .lui 1 0x10000) rfl (by decide)).1 (by decide)

/-- The pipeline has printed two NULs for `hello`, the instruction-level simulator an `A`. -/
theorem nul_for_lui :
    (hello.proceeds 8).toOption.map (fun p => (p.1.length, p.2.cerr)) = some (3, [0, 0]) ∧
      ((⟨hello.hart, Statistics.new⟩ : Simulator).after 3).map (·.hart.cerr) = some [65] := by
  decide +kernel

end RipSim
