import RipSim.Refinement.PreciseStop
import RipSim.Reference.Interpreter

/-!
# Entering Epilogue mode

`handleException` treats `extx` like a trap: it turns the instructions in DE and IF into
bubbles.  But it leaves the PC where it is, so the instructions behind `extx` are not
fetched again.  The instruction-level simulator goes on with the first of them.

`front` is the address of the next instruction to be written back, `exFront` that of the
next one behind MA, and `fetchFront` that of the next one behind EX.  Each cycle makes
the second of a state the first of the next, and the third the second.  That is how the
address at which the fetch goes on after `extx` becomes the address of the instruction
that is committed after it.
-/

namespace RipSim

namespace RIPSimulator

variable {σ : Type}

/-! ## The next instruction -/

/-- The address of the next instruction to enter EX, if nothing redirects the fetch. -/
def fetchFront (S : RIPSimulator σ) : Address :=
  match S.PS.Insts.DE, S.PS.Insts.IF with
  | some _, _ => S.PS.PCs.DE
  | none, some _ => S.PS.PCs.IF
  | none, none => S.PC

/-- The address of the next instruction to reach MA. -/
def exFront (S : RIPSimulator σ) : Address :=
  match S.PS.Insts.EX with
  | some _ => S.PS.PCs.EX
  | none => S.fetchFront

/-- The address of the next instruction to be written back. -/
def front (S : RIPSimulator σ) : Address :=
  match S.PS.Insts.MA with
  | some _ => S.PS.PCs.MA
  | none => S.exFront

variable {h : Hart} {N : ℕ∞} {c n : ℕ} {S T U A B M : RIPSimulator σ}

/-- What is behind `extx` when it enters EX. -/
theorem Inv.behind (hi : Inv h N c S) (hent : S.entering = some extx) :
    Fetching h N ((h.after (S.issued c)).PC + 4) S := by
  obtain ⟨_, hDE, hPC, _⟩ := hi.entering hent
  have hexp : S.expected (h.after (S.issued c)).PC = (h.after (S.issued c)).PC + 4 := by
    rw [expected_of_some hDE, following_of_not_branch rfl, hPC]
  rw [← hexp]
  exact hi.front.fetching

/-- An instruction in IF fetched at `x` is that of the word `w`. -/
def ReadsAt (x : Address) (w : Word) (S : RIPSimulator σ) : Prop :=
  ∀ J, S.PS.Insts.IF = some J → S.PS.PCs.IF = x → Decoder.decode w = some J

theorem Started.readsAt (h₀ : Started S) (x : Address) (w : Word) : ReadsAt x w S := by
  obtain ⟨d, P, hPS⟩ := h₀.PS
  intro J hJ
  rw [hPS] at hJ
  exact nomatch hJ

variable [BranchPredictor σ]

/-- A bubble in EX leaves DE alone, and the fetch goes on where `decode` finds it. -/
theorem Next.bubble (hc : Clean S) (hn : Next S T) (hent : S.entering = none) :
    ∃ A B, Through S A B B none ∧ T = B.decoded.redirect.finish ∧ T.PS.PCs = A.PS.PCs ∧
      T.PS.Insts = { A.PS.Insts with
        IF := if B.predictsIF then none else A.PS.Insts.IF } := by
  obtain ⟨A, B, M, E, D, ht, hD, hT, hPC, hins⟩ := Next.moved hc hn
  obtain ⟨rfl, rfl⟩ := ht.bubble ((hc.advance_entering ht.advance).trans hent)
  have hk : kills M none = false := by
    change M.PS.InvalidStages.DE = false
    rw [(ht.atRest (hc.advance ht.advance)).invalid]
    rfl
  rw [hk] at hins
  cases hD
  exact ⟨A, M, ht, hT, hPC, hins⟩

/-- The next instruction to enter EX is the next one behind MA after the cycle. -/
theorem Next.exFront (hc : Clean S) (hn : Next S T) : T.exFront = S.fetchFront := by
  have hEX := (Next.backEnd hc hn).2.2.2.2
  unfold RIPSimulator.exFront
  rw [hEX]
  cases hent : S.entering with
  | some I =>
    have hA : ∃ A, S.advance = .ok A ∧ T.PS.PCs = A.PS.PCs := by
      obtain ⟨A, _, _, _, _, ht, _, _, hPC, _⟩ := Next.moved hc hn
      exact ⟨A, ht.advance, hPC⟩
    obtain ⟨A, hA, hPC⟩ := hA
    obtain ⟨_, hDE, hEX'⟩ := hc.advance_EX hA ((hc.advance_entering hA).trans hent)
    dsimp only
    rw [hPC, hEX']
    unfold RIPSimulator.fetchFront
    rw [hDE]
  | none =>
    obtain ⟨A, B, ht, rfl, hPC, hins⟩ := Next.bubble hc hn hent
    dsimp only
    unfold RIPSimulator.fetchFront
    rw [hPC, hins]
    rcases advance_ok ht.advance with ⟨hs, rfl⟩ | ⟨hs, w, _, rfl⟩
    · -- the load ahead is waited for, and DE stays
      obtain ⟨_, J, _, hJ⟩ := hc.stalled hs
      rw [(hc.shifted_insts hs).1, (hc.shifted_insts hs).2, hJ]
    · have hDE : S.PS.Insts.DE = none := by
        rwa [entering_of_moving hs] at hent
      rw [(hc.fetched_insts hs w).1, (hc.fetched_insts hs w).2, hDE]
      cases hIF : S.PS.Insts.IF with
      | some J => rfl
      | none =>
        have hBDE : B.PS.Insts.DE = none := by
          rw [ht.insts.1, (hc.fetched_insts hs w).1]
          exact hIF
        have hp : B.predictsIF = false := by
          unfold predictsIF
          rw [hBDE]
        rw [hp, if_neg Bool.false_ne_true]
        cases hw : Decoder.decode w with
        | some J => rfl
        | none =>
          have hB := ht.atRest (hc.advance ht.advance)
          change B.decoded.redirect.finish.PC = S.PC
          rw [cycle_PC, hB.branchPC, decoded_predPC hB.predPC, hp,
            (ht.entering hc).2.2.2]
          change (if (Decoder.decode w).isSome then S.PC + 4 else S.PC) = S.PC
          rw [hw]
          rfl

/-- The next instruction behind MA is the next one to be written back after the cycle. -/
theorem Next.front (hc : Clean S) (hn : Next S T) : T.front = S.exFront := by
  obtain ⟨_, _, hMA, hPC, _⟩ := Next.backEnd hc hn
  have hex := Next.exFront hc hn
  unfold RIPSimulator.front
  rw [hMA, hPC, hex]
  rfl

/-! ## The addresses in a trace -/

/-- A commit behind the one in MA is one of the run after the first cycle. -/
theorem runTrace_skip (hc : Clean S) {EndAddress : Option Address} {fuel : ℕ} {r : Option Halt}
    {log : List Commit} (hrun : S.runTrace EndAddress fuel = .ok (r, log, U)) {k : ℕ} {e : Commit}
    (he : log[occ S.PS.Insts.MA + k]? = some e) :
    ∃ T fuel' log', Next S T ∧ T.runTrace EndAddress fuel' = .ok (r, log', U) ∧
      log'[k]? = some e := by
  cases fuel with
  | zero =>
    obtain ⟨_, rfl, _⟩ := runTrace_zero hrun
    exact nomatch he
  | succ fuel =>
    obtain ⟨x, T, hx, ⟨_, _, _, hlog, _⟩ | ⟨hh, log', hlog, hrun'⟩⟩ := runTrace_succ hrun
    all_goals have hlen := hc.length_committed hx
    · rw [hlog, List.getElem?_eq_none (by omega)] at he
      exact nomatch he
    · obtain ⟨rfl, -⟩ := halting_none hh
      rw [hlog, List.getElem?_append_right (by omega), hlen, Nat.add_sub_cancel_left] at he
      exact ⟨T, fuel, log', hx, hrun', he⟩

/-- The first commit of a trace is at `front`. -/
theorem runTrace_front (hc : Clean S) {EndAddress : Option Address} {fuel : ℕ} {r : Option Halt}
    {log : List Commit} (hrun : S.runTrace EndAddress fuel = .ok (r, log, U)) {e : Commit}
    (he : log[0]? = some e) : e.PC = S.front := by
  induction fuel generalizing S log with
  | zero =>
    obtain ⟨_, rfl, _⟩ := runTrace_zero hrun
    exact nomatch he
  | succ fuel ih =>
    obtain ⟨x, T, hx, hcase⟩ := runTrace_succ hrun
    obtain ⟨hWB, hPC⟩ := hc.cycle_WB hx
    unfold RIPSimulator.front
    cases hMA : S.PS.Insts.MA with
    | some I =>
      have hcom : T.committed = some ⟨S.PS.PCs.MA, I, T.GPRegs⟩ := by
        unfold committed
        rw [hWB, hMA, hPC]
        rfl
      have hlog : ∃ log', log = ⟨S.PS.PCs.MA, I, T.GPRegs⟩ :: log' := by
        rcases hcase with ⟨_, _, _, hlog, _⟩ | ⟨_, log', hlog, _⟩
        · exact ⟨[], by rw [hlog, hcom]; rfl⟩
        · exact ⟨log', by rw [hlog, hcom]; rfl⟩
      obtain ⟨log', rfl⟩ := hlog
      exact congrArg Commit.PC (Option.some.inj he).symm
    | none =>
      have hcom : T.committed = none := by
        unfold committed
        rw [hWB, hMA]
        rfl
      rw [hcom] at hcase
      rcases hcase with ⟨_, _, _, hlog, _⟩ | ⟨hh, log', hlog, hrun'⟩
      · rw [hlog] at he
        exact nomatch he
      · obtain ⟨rfl, -⟩ := halting_none hh
        rw [hlog] at he
        rw [ih (hc.next hx) hrun' he]
        exact Next.front hc hx

/-- **The first commit behind EX** is at `fetchFront`, as long as the run gets there. -/
theorem runTrace_fetchFront (hc : Clean S) {EndAddress : Option Address} {fuel : ℕ}
    {r : Option Halt} {log : List Commit}
    (hrun : S.runTrace EndAddress fuel = .ok (r, log, U)) {e : Commit}
    (he : log[occ S.PS.Insts.MA + occ S.PS.Insts.EX]? = some e) : e.PC = S.fetchFront := by
  obtain ⟨T, fuel', log', hn, hrun', he'⟩ := runTrace_skip hc hrun he
  rw [← (Next.backEnd hc hn).2.2.1] at he'
  obtain ⟨V, fuel'', log'', hn', hrun'', he''⟩ := runTrace_skip (k := 0) (hc.next hn) hrun' he'
  rw [runTrace_front ((hc.next hn).next hn') hrun'' he'', Next.front (hc.next hn) hn',
    Next.exFront hc hn]

/-! ## Nothing behind `extx` -/

/-- In Epilogue mode the memory stays as it is. -/
theorem Through.epilogue_Mem {E : Option Exception} (ht : Through S A B M E)
    (hm : S.Mode = .Epilogue) : M.Mem = S.Mem ∧ B.Mode = .Epilogue := by
  obtain ⟨haM, _, haMode, _⟩ := advance_frame ht.advance
  obtain ⟨_, hwMem, hwMode, _⟩ := A.written_frame
  have hmode : A.written.Mode = .Epilogue := by rw [hwMode, haMode, hm]
  have hMem : B.Mem = A.written.Mem := by
    rcases memoryaccess_ok ht.access with ⟨_, rfl⟩ | ⟨_, _, _, rfl⟩ | ⟨_, _, _, _, rfl⟩ |
      ⟨_, _, _, _, _, hne, _⟩
    · rfl
    · rfl
    · rfl
    · exact absurd hmode hne
  refine ⟨?_, ?_⟩
  · rw [(exec_frame ht.exec).Mem, hMem, hwMem, haM]
  · rw [(memoryaccess_frame ht.access).Mode, hmode]

/-- In Epilogue mode, with bubbles in DE and IF, the fetch is at an undecodable word. -/
structure Dry (S : RIPSimulator σ) : Prop where
  Mode : S.Mode = .Epilogue
  DE : S.PS.Insts.DE = none
  IF : S.PS.Insts.IF = none
  word : ∃ w, S.Mem.readWord S.PC = .ok w ∧ Decoder.decode w = none

/-- The fetch stays there. -/
theorem Dry.next (hd : Dry S) (hc : Clean S) (hn : Next S T) :
    Dry T ∧ T.PS.Insts.EX = none := by
  obtain ⟨w, hw, hnone⟩ := hd.word
  have hs : S.PS.StalledStages.IF = false := by
    cases hs : S.PS.StalledStages.IF with
    | false => rfl
    | true =>
      obtain ⟨_, J, _, hJ⟩ := hc.stalled hs
      exact nomatch hd.DE.symm.trans hJ
  have hent : S.entering = none := (entering_of_moving hs).trans hd.DE
  have hEX := ((Next.backEnd hc hn).2.2.2.2).trans hent
  have hfront := Next.exFront hc hn
  obtain ⟨A, B, ht, rfl, _, hins⟩ := Next.bubble hc hn hent
  obtain ⟨hMem, hMode⟩ := ht.epilogue_Mem hd.Mode
  have hA : A = S.fetched w := by
    rcases advance_ok ht.advance with ⟨hs', _⟩ | ⟨_, w', hw', rfl⟩
    · exact absurd (hs.symm.trans hs') Bool.false_ne_true
    · rw [Except.ok.inj (hw.symm.trans hw')]
  have hDE : B.decoded.redirect.finish.PS.Insts.DE = none := by
    rw [hins, hA, (hc.fetched_insts hs w).1]
    exact hd.IF
  have hIF : B.decoded.redirect.finish.PS.Insts.IF = none := by
    rw [hins, hA, (hc.fetched_insts hs w).1]
    change (if B.predictsIF then none else Decoder.decode w) = none
    rw [hnone, ite_self]
  have hPC : B.decoded.redirect.finish.PC = S.PC := by
    unfold RIPSimulator.exFront RIPSimulator.fetchFront at hfront
    rwa [hEX, hDE, hIF, hd.DE, hd.IF] at hfront
  refine ⟨⟨?_, hDE, hIF, w, ?_, hnone⟩, hEX⟩
  · rw [(cycle_frame B).2.2.1, hMode]
  · rw [hPC, (cycle_frame B).2.1, hMem, hw]

/-- Only what is in MA and EX is still written back. -/
theorem Dry.runTrace (hd : Dry S) (hc : Clean S) {EndAddress : Option Address} {fuel : ℕ}
    {r : Option Halt} {log : List Commit} (hrun : S.runTrace EndAddress fuel = .ok (r, log, U)) :
    log.length ≤ occ S.PS.Insts.MA + occ S.PS.Insts.EX := by
  induction fuel generalizing S log with
  | zero =>
    obtain ⟨_, rfl, _⟩ := runTrace_zero hrun
    exact Nat.zero_le _
  | succ fuel ih =>
    obtain ⟨x, T, hx, ⟨_, _, _, hlog, _⟩ | ⟨hh, log', hlog, hrun'⟩⟩ := runTrace_succ hrun
    all_goals have hlen := hc.length_committed hx
    · rw [hlog, hlen]
      exact Nat.le_add_right _ _
    · obtain ⟨rfl, -⟩ := halting_none hh
      obtain ⟨hd', hEX⟩ := hd.next hc hx
      have := ih hd' (hc.next hx) hrun'
      rw [(Next.backEnd hc hx).2.2.1, hEX, occ_none] at this
      rw [hlog, List.length_append, hlen]
      omega

/-! ## The cycle of `extx` -/

theorem ReadsAt.next {x : Address} {w : Word} (hr : ReadsAt x w S)
    (hw : S.Mem.readWord x = .ok w) (hc : Clean S) (hn : Next S T) : ReadsAt x w T := by
  obtain ⟨A, B, M, E, D, ht, _, _, hPC, hins⟩ := Next.moved hc hn
  have hA : ReadsAt x w A := by
    rcases advance_ok ht.advance with ⟨hs, rfl⟩ | ⟨hs, w', hw', rfl⟩
    · intro J
      rw [(hc.shifted_insts hs).1, (hc.shifted_insts hs).2]
      exact hr J
    · intro J
      rw [(hc.fetched_insts hs w').1, (hc.fetched_insts hs w').2]
      rintro hJ rfl
      rw [Except.ok.inj (hw.symm.trans hw')]
      exact hJ
  intro J hJ hx
  rw [hPC] at hx
  rw [hins] at hJ
  change (if kills M E || M.predictsIF then none else A.PS.Insts.IF) = some J at hJ
  split_ifs at hJ
  exact hA J hJ hx

/-- The state `T` after the cycle in which `extx` enters EX, from `S`. -/
structure Entered (S T : RIPSimulator σ) : Prop where
  next : Next S T
  Mode : T.Mode = .Epilogue
  EX : T.PS.Insts.EX = some extx
  DE : T.PS.Insts.DE = none
  IF : T.PS.Insts.IF = none
  /-- The PC is left where `advance` and the predictor put it. -/
  PC : ∃ w, S.Mem.readWord S.PC = .ok w ∧
    T.PC = S.predictedTarget.getD (if (Decoder.decode w).isSome then S.PC + 4 else S.PC)

/-- **The cycle of `extx`**: DE and IF become bubbles, and the PC is not put back. -/
theorem Inv.entered (hi : Inv h N c S) (hd : Regular h N) (hent : S.entering = some extx) {x : Exit}
    (hx : S.cycle = .ok (x, T)) : Entered S T ∧ T.Mem = (h.after (S.issued c)).Mem := by
  have hc := hi.clean
  have hraise : S.raising = some .R1 := by
    unfold raising
    rw [hent]
    rfl
  have hrec : S.recordedTarget = none := by
    unfold recordedTarget
    rw [hent]
    rfl
  obtain rfl : x = .next := by
    rcases cycle_ok hx with ⟨_, hA, he⟩ | ⟨A, B, M, E, ht, ⟨rfl, _⟩ | ⟨_, _, _, _, hx, _⟩ |
      ⟨e, rfl, hT, _⟩⟩
    · have hEX := hc.advance_entering hA
      rw [isEmpty_insts he, hent] at hEX
      exact nomatch hEX
    · exact nomatch (ht.raising hc hi.latched).trans hraise
    · exact hx
    · obtain rfl := Option.some.inj ((ht.raising hc hi.latched).trans hraise)
      exact nomatch hT
  have hEX := (Next.backEnd hc hx).2.2.2.2
  obtain ⟨A, B, M, E, D, ht, hD, rfl, _, hins⟩ := Next.moved hc hx
  obtain rfl := (ht.raising hc hi.latched).trans hraise
  have hk : kills M (some Exception.R1) = true := rfl
  rw [hk] at hins
  have hMB : M = B := by
    rcases exec_raises ht.exec with ⟨_, _, _, hM⟩ | ⟨_, _, _, he, _⟩
    · exact hM
    · exact nomatch he
  obtain ⟨hdPC, hdMem, _⟩ := M.decoded_frame
  cases hD with
  | trap he => exact absurd he Bool.false_ne_true
  | epilogue =>
    refine ⟨⟨hx, ?_, hEX.trans hent, by rw [hins]; rfl, by rw [hins]; rfl, ?_⟩, ?_⟩
    · rw [redirect_eq]
      rfl
    · have hs := (hi.entering hent).1
      rcases advance_ok ht.advance with ⟨hs', _⟩ | ⟨_, w, hw, rfl⟩
      · exact absurd (hs.symm.trans hs') Bool.false_ne_true
      · refine ⟨w, hw, ?_⟩
        rw [redirect_eq]
        change (M.decoded.PS.BranchPC.or (M.decoded.BP.bind BPBase.BranchPredPC)).getD
          M.decoded.PC = _
        rw [ht.branchPC hc hi.latched, ht.predPC hc, hrec, hdPC, hMB, (ht.entering hc).2.2.2]
        rfl
    · obtain ⟨B', hB', hMem, _⟩ := hi.access hd ht.advance
      obtain rfl : B' = B := Except.ok.inj (hB'.symm.trans ht.access)
      rw [redirect_eq]
      change M.decoded.Mem = _
      rw [hdMem, hMB, hMem]

/-- Behind an undecodable word there is nothing. -/
theorem Inv.dry (hi : Inv h N c S) (hent : S.entering = some extx) {w : Word}
    (hr : ReadsAt ((h.after (S.issued c)).PC + 4) w S)
    (hw : ∀ k, (h.after k).Mem.readWord ((h.after (S.issued c)).PC + 4) = .ok w)
    (hnone : Decoder.decode w = none) (he : Entered S T)
    (hMem : T.Mem = (h.after (S.issued c)).Mem) : Dry T := by
  obtain ⟨hIF, hbub⟩ := hi.behind hent
  have hnoIF : S.PS.Insts.IF = none := by
    cases hJ : S.PS.Insts.IF with
    | none => rfl
    | some J => exact nomatch hnone.symm.trans (hr J hJ (hIF J hJ).1)
  obtain ⟨w', hw', hT⟩ := he.PC
  have hpred : S.predictedTarget = none := by
    unfold predictedTarget
    rw [hnoIF]
  rw [hbub hnoIF, hi.back.Mem, hw] at hw'
  obtain rfl := Except.ok.inj hw'
  rw [hpred, hnone, hbub hnoIF] at hT
  exact ⟨he.Mode, he.DE, he.IF, w, by rw [hMem, hT]; exact hw _, hnone⟩

/-- The fetch goes on right behind `extx` only if nothing decodable is there, or a branch
that is there is predicted to jump to itself. -/
theorem Inv.entered_PC (hi : Inv h N c S) (hent : S.entering = some extx) {w : Word}
    (hw : ∀ k, (h.after k).Mem.readWord ((h.after (S.issued c)).PC + 4) = .ok w)
    (he : Entered S T) (hT : T.PC = (h.after (S.issued c)).PC + 4) :
    Decoder.decode w = none ∨ S.predictedTarget = some ((h.after (S.issued c)).PC + 4) := by
  obtain ⟨hIF, hbub⟩ := hi.behind hent
  obtain ⟨w', hw', hT'⟩ := he.PC
  rw [hT] at hT'
  cases hp : S.predictedTarget with
  | some a =>
    rw [hp] at hT'
    exact .inr (congrArg some hT'.symm)
  | none =>
    rw [hp] at hT'
    change _ = if (Decoder.decode w').isSome then S.PC + 4 else S.PC at hT'
    left
    cases hJ : S.PS.Insts.IF with
    | some J =>
      rw [(hIF J hJ).2.1] at hT'
      split_ifs at hT' <;> bv_omega
    | none =>
      rw [hbub hJ] at hT' hw'
      rw [hi.back.Mem, hw] at hw'
      obtain rfl := Except.ok.inj hw'
      cases hdec : Decoder.decode w with
      | none => rfl
      | some J =>
        rw [hdec] at hT'
        change _ = (h.after (S.issued c)).PC + 4 + 4 at hT'
        bv_omega

/-! ## Runs through `extx` -/

/-- A state of a run from `S₀` in which `extx` is about to enter EX, as instruction `n`. -/
structure AtExtx (h : Hart) (n : ℕ) (w : Word) (S₀ : RIPSimulator σ) (c : ℕ)
    (S : RIPSimulator σ) : Prop where
  inv : Inv h n c S
  reads : ReadsAt ((h.after n).PC + 4) w S
  reaches : Runs.Reaches Next S₀ S
  entering : S.entering = some extx
  issued : S.issued c = n

/-- A run gets to `extx`, or commits no more than what is ahead of it. -/
theorem Inv.runTrace_extx {S₀ : RIPSimulator σ} (hi : Inv h n c S) (hd : Regular h n)
    (hK : (h.after n).fetch = .ok (some extx)) {w : Word}
    (hw : ∀ k, (h.after k).Mem.readWord ((h.after n).PC + 4) = .ok w)
    (hreads : ReadsAt ((h.after n).PC + 4) w S) (hreach : Runs.Reaches Next S₀ S) {fuel : ℕ}
    {r : Option Halt} {log : List Commit} (hrun : S.runTrace none fuel = .ok (r, log, U)) :
    c + log.length ≤ n ∨ ∃ c' S' T pre log' fuel', AtExtx h n w S₀ c' S' ∧ Entered S' T ∧
      T.Mem = (h.after n).Mem ∧ log = pre ++ log' ∧ c + pre.length = S'.accessed c' ∧
      T.runTrace none fuel' = .ok (r, log', U) := by
  have hacc : S.accessed c ≤ n := by
    have hb : S.issued c ≤ n := by exact_mod_cast hi.bound
    exact (Nat.le_add_right _ _).trans hb
  induction fuel generalizing c S log with
  | zero =>
    obtain ⟨_, rfl, _⟩ := runTrace_zero hrun
    exact .inl ((Nat.le_add_right _ _).trans hacc)
  | succ fuel ih =>
    obtain ⟨x, T, hx, hcase⟩ := runTrace_succ hrun
    have hlen : c + T.committed.toList.length = S.accessed c :=
      congrArg (c + ·) (hi.clean.length_committed hx)
    rcases hcase with ⟨_, _, _, hlog, _⟩ | ⟨hh, log', hlog, hrun'⟩
    · rw [hlog, hlen]
      exact .inl hacc
    obtain ⟨rfl, -⟩ := halting_none hh
    by_cases hex : ∃ I, S.entering = some I ∧ S.issued c = n
    · obtain ⟨I, hI, hn⟩ := hex
      obtain rfl : I = extx :=
        Option.some.inj (Except.ok.inj ((hn ▸ (hi.entering hI).2.2.2).symm.trans hK))
      obtain ⟨he, hMem⟩ := hi.entered hd hI hx
      rw [hn] at hMem
      exact .inr ⟨c, S, T, _, log', fuel, ⟨hi, hreads, hreach, hI, hn⟩, he, hMem, hlog, hlen, hrun'⟩
    · have hlt : ∀ I, S.entering = some I → (S.issued c : ℕ∞) < n := by
        intro I hI
        exact lt_of_le_of_ne hi.bound fun heq => hex ⟨I, hI, by exact_mod_cast heq⟩
      have hreads' := hreads.next (by rw [hi.back.Mem]; exact hw _) hi.clean hx
      rcases hi.cycle hd (fetched_of_cycle hx) hlt with ⟨_, hx', _⟩ | ⟨A, B, M, ht, hx', hi'⟩
      · exact nomatch hx.symm.trans hx'
      obtain ⟨_, rfl⟩ := Prod.mk.inj (Except.ok.inj (hx.symm.trans hx'))
      have hacc' : M.decoded.redirect.finish.accessed (S.accessed c) ≤ n := by
        have hb : M.decoded.redirect.finish.issued (S.accessed c) ≤ n := by
          exact_mod_cast hi'.bound
        exact (Nat.le_add_right _ _).trans hb
      rcases ih hi' hreads' (hreach.tail hx) hrun' hacc' with hle | h'
      · left
        rw [hlog, List.length_append]
        omega
      · obtain ⟨c', S', T', pre, log'', fuel', hat, he, hMem, hlog', hpre, hrun''⟩ := h'
        refine .inr ⟨c', S', T', M.decoded.redirect.finish.committed.toList ++ pre, log'', fuel',
          hat, he, hMem, ?_, ?_, hrun''⟩
        · rw [hlog, hlog', List.append_assoc]
        · rw [List.length_append]
          omega

end RIPSimulator

open RIPSimulator

/-! ## Agreement -/

/-- The instruction-level simulator behind `extx`. -/
theorem Simulator.after_extx {h : Hart} {s₀ : Simulator} {n : ℕ} {w : Word} (hd : Regular h n)
    (hcsr : h.CSRFree n)
    (hK : (h.after n).fetch = .ok (some extx))
    (hw : ∀ k, (h.after k).Mem.readWord ((h.after n).PC + 4) = .ok w)
    (hs : s₀.hart = h) : ∃ b, s₀.after (n + 1) = some b ∧
      b.hart.PC = (h.after n).PC + 4 ∧ b.hart.fetch = .ok (Decoder.decode w) := by
  obtain ⟨_, b, X, hb, hX⟩ := executed_extx hd hcsr hK hs
  refine ⟨b, hb, by rw [hX], ?_⟩
  apply Hart.fetch_of_word
  rw [hX]
  exact hw n

/-- Behind instruction `n` the pipeline commits what the instruction-level simulator
executes: nothing else, and all of it. -/
structure AgreesAfter {σ : Type} [BranchPredictor σ] (S₀ : RIPSimulator σ) (s₀ : Simulator)
    (n : ℕ) : Prop where
  sound : ∀ fuel r log S, S₀.runTrace none fuel = .ok (r, log, S) →
    ∀ j e, log[n + 1 + j]? = some e → s₀.executed (n + 1 + j) = some e
  complete : ∀ j e, s₀.executed (n + 1 + j) = some e →
    ∃ fuel r log S, S₀.runTrace none fuel = .ok (r, log, S) ∧ log[n + 1 + j]? = some e

section Agreement

variable {σ : Type} [BranchPredictor σ] {S₀ : RIPSimulator σ} {s₀ : Simulator} {n : ℕ} {w : Word}

/-- If nothing decodable is behind `extx`, neither simulator does anything more. -/
theorem agreesAfter_of_none (h₀ : Started S₀) (hd : Regular S₀.hart n) (hcsr : S₀.hart.CSRFree n)
    (hK : (S₀.hart.after n).fetch = .ok (some extx))
    (hw : ∀ k, (S₀.hart.after k).Mem.readWord ((S₀.hart.after n).PC + 4) = .ok w)
    (hs : s₀.hart = S₀.hart) (hnone : Decoder.decode w = none) : AgreesAfter S₀ s₀ n := by
  constructor
  · intro fuel r log S hrun j e he
    have hlen : log.length ≤ n + 1 := by
      rcases (h₀.inv n).runTrace_extx hd hK hw (h₀.readsAt _ _) .refl hrun with hle |
        ⟨c, S', T, pre, log', fuel', hat, hent, hMem, rfl, hpre, hrun'⟩
      · omega
      · have hdry : Dry T := by
          have hn := hat.issued
          subst hn
          exact hat.inv.dry hat.entering hat.reads hw hnone hent hMem
        have hle := hdry.runTrace (hat.inv.clean.next hent.next) hrun'
        rw [(Next.backEnd hat.inv.clean hent.next).2.2.1, hent.EX, occ_some] at hle
        have hn := hat.issued
        rw [issued_eq] at hn
        rw [List.length_append]
        omega
    rw [List.getElem?_eq_none (by omega)] at he
    exact nomatch he
  · intro j e he
    obtain ⟨b, hb, _, hf⟩ := Simulator.after_extx hd hcsr hK hw hs
    rw [hnone] at hf
    have hnext : s₀.after (n + 1 + 1) = none := by
      rw [Simulator.after_succ hb, Simulator.iterate_none hf]
      rfl
    exact nomatch (Simulator.executed_none hnext j).symm.trans he

/-- If they agree, the fetch has gone on right behind `extx`. -/
theorem AgreesAfter.fetch (ha : AgreesAfter S₀ s₀ n) (h₀ : Started S₀) (hd : Regular S₀.hart n)
    (hcsr : S₀.hart.CSRFree n) (hK : (S₀.hart.after n).fetch = .ok (some extx))
    (hw : ∀ k, (S₀.hart.after k).Mem.readWord ((S₀.hart.after n).PC + 4) = .ok w)
    (hs : s₀.hart = S₀.hart) {e : Commit} (he : s₀.executed (n + 1) = some e) :
    Decoder.decode w = none ∨ ∃ S, Runs.Reaches Next S₀ S ∧ S.entering = some extx ∧
      S.predictedTarget = some ((S₀.hart.after n).PC + 4) := by
  obtain ⟨b, hb, hPC, _⟩ := Simulator.after_extx hd hcsr hK hw hs
  have hePC := (Simulator.executed_PC hb he).trans hPC
  obtain ⟨fuel, r, log, S, hrun, hlog⟩ := ha.complete 0 e he
  rcases (h₀.inv n).runTrace_extx hd hK hw (h₀.readsAt _ _) .refl hrun with hle |
    ⟨c, S', T, pre, log', fuel', hat, hent, hMem, rfl, hpre, hrun'⟩
  · rw [List.getElem?_eq_none (by omega)] at hlog
    exact nomatch hlog
  · have hc := hat.inv.clean.next hent.next
    have hn := hat.issued
    have hlen : n + 1 + 0 - pre.length = occ T.PS.Insts.MA + occ T.PS.Insts.EX := by
      rw [(Next.backEnd hat.inv.clean hent.next).2.2.1, hent.EX, occ_some]
      rw [issued_eq] at hn
      omega
    rw [List.getElem?_append_right (by rw [issued_eq] at hn; omega), hlen] at hlog
    have hfront := runTrace_fetchFront hc hrun' hlog
    unfold fetchFront at hfront
    rw [hent.DE, hent.IF, hePC] at hfront
    subst hn
    rcases hat.inv.entered_PC hat.entering hw hent hfront.symm with h' | h'
    · exact .inl h'
    · exact .inr ⟨S', hat.reaches, hat.entering, h'⟩

end Agreement

/-- **When both simulators agree across `extx`.**  They do if the word behind `extx` is
undecodable, so that neither does anything more.  Otherwise the instructions that were in
DE and IF are lost, and they do not agree, unless a branch behind `extx` is predicted in
that very cycle to jump to itself: then the prediction fetches it again. -/
theorem agrees_across_extx {σ : Type} [BranchPredictor σ] {S₀ : RIPSimulator σ} {s₀ : Simulator}
    {n : ℕ} {w : Word} (h₀ : Started S₀) (hs : s₀.hart = S₀.hart) (hd : Domain S₀.hart n)
    (hcsr : S₀.hart.CSRFree n) (hK : (S₀.hart.after n).fetch = .ok (some extx))
    (hw : ∀ k, (S₀.hart.after k).Mem.readWord ((S₀.hart.after n).PC + 4) = .ok w)
    (htrap : Decoder.decode w ≠ none → s₀.executed (n + 1) ≠ none) :
    (Decoder.decode w = none → AgreesAfter S₀ s₀ n) ∧
    (AgreesAfter S₀ s₀ n → Decoder.decode w = none ∨ ∃ S, Runs.Reaches Next S₀ S ∧
      S.entering = some extx ∧ S.predictedTarget = some ((S₀.hart.after n).PC + 4)) := by
  refine ⟨agreesAfter_of_none h₀ hd.regular hcsr hK hw hs, fun ha => ?_⟩
  by_cases hnone : Decoder.decode w = none
  · exact .inl hnone
  · obtain ⟨e, he⟩ := Option.ne_none_iff_exists'.mp (htrap hnone)
    exact ha.fetch h₀ hd.regular hcsr hK hw hs he

/-- `addi x1, x0, 5; add x2, x1, x1; extx`, in front of an undecodable word. -/
def closing : RIPSimulator OneBitBranchPredictor := boot [0x00500093, 0x00108133, 0x0000000b] none

namespace Closing

/-- The instructions ahead of `extx`. -/
def insts : List Instruction := [.IInstruction .addi 1 0 5, .RInstruction .add 2 1 1]

theorem after_of_le {k : ℕ} (hk : 2 ≤ k) : closing.hart.after k = closing.hart.after 2 := by
  induction k, hk using Nat.le_induction with
  | base => rfl
  | succ k _ ih =>
    rw [Hart.after_succ, ih]
    rfl

theorem mem (k : ℕ) : (closing.hart.after k).Mem = closing.hart.Mem := by
  match k with
  | 0 => rfl
  | 1 => rfl
  | k + 2 =>
    rw [after_of_le (Nat.le_add_left 2 k)]
    rfl

theorem mem_of_fetch {k : ℕ} {I : Instruction} (hk : k < 2)
    (hf : (closing.hart.after k).fetch = .ok (some I)) : I ∈ insts := by
  have hfetch : ∀ k < 2, (closing.hart.after k).fetch = .ok insts[k]? := by
    intro k hk
    match k with
    | 0 => rfl
    | 1 => rfl
  exact List.mem_of_getElem? (Except.ok.inj ((hfetch k hk).symm.trans hf))

theorem domain : Domain closing.hart (2 : ℕ) where
  machine := rfl
  inDRAM k hk := by
    match k with
    | 0 => exact ⟨_, rfl⟩
    | 1 => exact ⟨_, rfl⟩
    | k + 2 =>
      rw [after_of_le (Nat.le_add_left 2 k)]
      exact ⟨some extx, rfl⟩
  supported k I hk hf := by
    have hI := mem_of_fetch (by exact_mod_cast hk) hf
    simp only [insts, List.mem_cons, List.not_mem_nil, or_false] at hI
    rcases hI with rfl | rfl <;> exact .of_computes rfl rfl rfl rfl ⟨_, rfl⟩
  quiet k d I J _ hk hf _ hrd hzero := by
    have hall : ∀ I ∈ insts, I.rd ≠ 0 := by decide
    have hk : k + d < 2 := by exact_mod_cast hk
    exact absurd hzero (hall I (mem_of_fetch (by omega) hf))
  frozen j k _ _ := by rw [mem, mem]

theorem csrFree : closing.hart.CSRFree 2 := by
  intro k hk I hf
  have hall : ∀ I ∈ insts, I.isCSR = false := by decide
  exact hall I (mem_of_fetch hk hf)

end Closing

/-- Both simulators end with `extx` if nothing is behind it. -/
theorem agrees_across_extx_closing : AgreesAfter closing ⟨closing.hart, Statistics.new⟩ 2 := by
  refine (agrees_across_extx (w := 0) (started_boot _ _) rfl Closing.domain Closing.csrFree rfl
    ?_ ?_).1 rfl
  · intro k
    change (closing.hart.after k).Mem.readWord _ = _
    rw [Closing.mem]
    rfl
  · exact fun h => absurd rfl h

/-- `extx; addi x0, x0, 0; addi x0, x0, 0; lw x1, 0(x0)`. -/
def losing : RIPSimulator OneBitBranchPredictor :=
  boot [0x0000000b, 0x00000013, 0x00000013, 0x00002083] none

/-- The two instructions behind `extx` are lost, and the load returns its address instead
of the word there. -/
theorem extx_loses :
    (∃ log S, losing.runTrace none 12 = .ok (some .empty, log, S) ∧
      log.map (fun e => (e.PC, e.GPRegs 1)) = [(0, 0), (12, 0)]) ∧
    (List.range 5).map (fun k => ((⟨losing.hart, Statistics.new⟩ : Simulator).executed k).map
      fun e => (e.PC, e.GPRegs 1)) =
        [some (0, 0), some (4, 0), some (8, 0), some (12, 11), none] ∧
    ¬AgreesAfter losing ⟨losing.hart, Statistics.new⟩ 0 := by
  have h : ((losing.runTrace none 12).toOption.map fun p =>
      (p.1, p.2.1.map fun e => (e.PC, e.GPRegs 1))) =
        some (some .empty, [(0, 0), (12, 0)]) := by
    decide +kernel
  have hs : (List.range 5).map (fun k =>
      ((⟨losing.hart, Statistics.new⟩ : Simulator).executed k).map
        fun e => (e.PC, e.GPRegs 1)) =
        [some (0, 0), some (4, 0), some (8, 0), some (12, 11), none] := by
    decide +kernel
  obtain ⟨⟨r, log, S⟩, hS, heq⟩ := Option.map_eq_some_iff.mp h
  obtain ⟨rfl, hlog⟩ := Prod.mk.inj heq
  have hrun := ok_of_toOption hS
  refine ⟨⟨log, S, hrun, hlog⟩, hs, fun ha => ?_⟩
  have h1 : log[1]?.map (fun e => (e.PC, e.GPRegs 1)) = some (12, 0) := by
    rw [← List.getElem?_map]
    exact congrArg (·[1]?) hlog
  obtain ⟨e, he, hPC⟩ := Option.map_eq_some_iff.mp h1
  have hex := ha.sound 12 _ log S hrun 0 e he
  have h1' := congrArg (·[1]?) hs
  change some (((⟨losing.hart, Statistics.new⟩ : Simulator).executed 1).map _) =
    some (some (4, 0)) at h1'
  rw [hex] at h1'
  have h2 := hPC.symm.trans (Option.some.inj (Option.some.inj h1'))
  exact absurd h2 (by decide)

end RipSim
