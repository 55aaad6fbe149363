import RipSim.Pipeline.Pending

/-!
# Traces of runs

`runTrace` is the loop of `run`, with what the cycles have written back and why the loop
is left.  It is cut off after a number of cycles, so a trace is a prefix of what the
simulator commits.
-/

namespace RipSim

theorem ok_of_toOption {ε α : Type} {x : Except ε α} {a : α} (h : x.toOption = some a) :
    x = .ok a := by
  cases x with
  | error e => exact nomatch h
  | ok b => exact congrArg Except.ok (Option.some.inj h)

/-- An instruction that is written back, and the registers after it. -/
structure Commit where
  PC : Address
  inst : Instruction
  GPRegs : GPRegisters

/-- Why the loop of `run` is left. -/
inductive Halt where
  /-- `ebreak` or `ext` has been executed. -/
  | exception
  /-- The pipeline is empty. -/
  | empty
  /-- The PC is `EndAddress`. -/
  | reached
  deriving DecidableEq, Repr

namespace RIPSimulator

variable {σ : Type}

/-! ## Where a cycle finds and leaves the instructions -/

section Cycle

variable [BranchPredictor σ] {S T : RIPSimulator σ}

/-- Where the instructions are after a cycle that goes on. -/
theorem Next.moved (hc : Clean S) (hn : Next S T) : ∃ A B M E D, Through S A B M E ∧
    Handled M.decoded E D ∧ T = D.redirect.finish ∧ T.PS.PCs = A.PS.PCs ∧
    T.PS.Insts = { A.PS.Insts with
      DE := if kills M E then none else A.PS.Insts.DE
      IF := if kills M E || M.predictsIF then none else A.PS.Insts.IF } := by
  obtain ⟨A, B, M, E, D, ht, hD, rfl⟩ := hn.through
  refine ⟨A, B, M, E, D, ht, hD, rfl, ?_, ht.filled (hc.advance ht.advance) hD⟩
  rw [hD.end_PS]
  exact ht.insts.2

/-- Write back and memory access take what was in MA and EX. -/
theorem Next.backEnd (hc : Clean S) (hn : Next S T) :
    T.PS.Insts.WB = S.PS.Insts.MA ∧ T.PS.PCs.WB = S.PS.PCs.MA ∧
    T.PS.Insts.MA = S.PS.Insts.EX ∧ T.PS.PCs.MA = S.PS.PCs.EX ∧
    T.PS.Insts.EX = S.entering := by
  obtain ⟨A, B, M, E, D, ht, _, _, hPC, hins⟩ := Next.moved hc hn
  obtain ⟨hWB, hMA, _⟩ := hc.advance_insts ht.advance
  obtain ⟨hWB', hMA'⟩ := hc.advance_PCs ht.advance
  rw [hPC, hins]
  exact ⟨hWB, hWB', hMA, hMA', hc.advance_entering ht.advance⟩

/-- What a cycle writes back was in MA, however the cycle ends. -/
theorem Clean.cycle_WB (hc : Clean S) {x : Exit} (hx : S.cycle = .ok (x, T)) :
    T.PS.Insts.WB = S.PS.Insts.MA ∧ T.PS.PCs.WB = S.PS.PCs.MA := by
  have hadv : ∀ {A}, S.advance = .ok A →
      A.PS.Insts.WB = S.PS.Insts.MA ∧ A.PS.PCs.WB = S.PS.PCs.MA := fun hA =>
    ⟨(hc.advance_insts hA).1, (hc.advance_PCs hA).1⟩
  cases x with
  | empty =>
    rcases cycle_ok hx with ⟨_, hA, _⟩ | ⟨_, _, _, _, _, ⟨_, h', _⟩ | ⟨_, _, _, _, h', _⟩ |
      ⟨_, _, _, h'⟩⟩
    · exact hadv hA
    all_goals exact nomatch h'
  | next =>
    obtain ⟨hWB, hPC, _⟩ := Next.backEnd hc hx
    exact ⟨hWB, hPC⟩
  | stop =>
    rcases cycle_ok hx with ⟨h', _⟩ | ⟨A, B, M, E, ht, ⟨_, h', _⟩ | ⟨_, _, _, _, h', _⟩ |
      ⟨e, rfl, hT, _⟩⟩
    · exact nomatch h'
    · exact nomatch h'
    · exact nomatch h'
    · obtain ⟨_, _, _, _, _, _, _, _, hI, hPC, _⟩ := M.decoded_frame
      rcases handleException_ok (exec_exception ht.exec) hT with ⟨_, _, rfl⟩ | ⟨_, hf, _⟩ |
        ⟨_, _, hf, _⟩
      · change M.decoded.PS.Insts.WB = _ ∧ M.decoded.PS.PCs.WB = _
        rw [hI, hPC, ht.insts.1, ht.insts.2]
        exact hadv ht.advance
      · exact nomatch hf
      · exact nomatch hf

end Cycle

/-! ## Traces -/

/-- What has just been written back. -/
def committed (S : RIPSimulator σ) : Option Commit :=
  S.PS.Insts.WB.map fun I => ⟨S.PS.PCs.WB, I, S.GPRegs⟩

/-- What the loop of `run` does after a cycle: it is left, or it goes on. -/
def halting (EndAddress : Option Address) (x : Exit) (S : RIPSimulator σ) : Option Halt :=
  match x with
  | .stop => some .exception
  | .empty => some .empty
  | .next =>
    if S.PS.isEmpty then some .empty
    else if EndAddress = some S.PC then some .reached
    else none

variable {EndAddress : Option Address} {x : Exit} {S T U : RIPSimulator σ}

theorem halting_exception (h : S.halting EndAddress x = some .exception) : x = .stop := by
  cases x with
  | stop => rfl
  | empty => exact nomatch h
  | next =>
    change (if S.PS.isEmpty then some Halt.empty
      else if EndAddress = some S.PC then some Halt.reached else none) = _ at h
    split_ifs at h <;> exact nomatch h

theorem halting_reached (h : S.halting EndAddress x = some .reached) :
    x = .next ∧ EndAddress = some S.PC := by
  cases x with
  | stop => exact nomatch h
  | empty => exact nomatch h
  | next =>
    change (if S.PS.isEmpty then some Halt.empty
      else if EndAddress = some S.PC then some Halt.reached else none) = _ at h
    split_ifs at h with _ hE
    · exact nomatch h
    · exact ⟨rfl, hE⟩

theorem halting_none (h : S.halting EndAddress x = none) :
    x = .next ∧ EndAddress ≠ some S.PC := by
  cases x with
  | stop => exact nomatch h
  | empty => exact nomatch h
  | next =>
    change (if S.PS.isEmpty then some Halt.empty
      else if EndAddress = some S.PC then some Halt.reached else none) = _ at h
    split_ifs at h with _ hE
    exact ⟨rfl, hE⟩

variable [BranchPredictor σ]

/-- The first cycles of the loop of `run`: why it has been left, if it has, what it has
written back, and the state. -/
def runTrace (EndAddress : Option Address) :
    ℕ → RIPSimulator σ → Except Fault (Option Halt × List Commit × RIPSimulator σ)
  | 0, S => .ok (none, [], S)
  | fuel + 1, S => do
    let (x, S) ← S.cycle
    match S.halting EndAddress x with
    | some r => return (some r, S.committed.toList, S)
    | none =>
      let (r, log, T) ← runTrace EndAddress fuel S
      return (r, S.committed.toList ++ log, T)

/-- `runTrace` is the loop of `run`. -/
theorem runLoop_eq_runTrace (EndAddress : Option Address) (fuel : ℕ) (S : RIPSimulator σ) :
    runLoop EndAddress fuel S =
      (fun p => p.1.map fun _ => p.2.2) <$> runTrace EndAddress fuel S := by
  induction fuel generalizing S with
  | zero => rfl
  | succ fuel ih =>
    unfold runLoop runTrace proceedNStage
    cases hc : S.cycle with
    | error e => rfl
    | ok p =>
      obtain ⟨x, T⟩ := p
      cases x with
      | stop => rfl
      | empty =>
        have he : T.PS.isEmpty = true := by
          rcases cycle_ok hc with ⟨_, _, he⟩ | ⟨_, _, _, _, _, ⟨_, hx, _⟩ | ⟨_, _, _, _, hx, _⟩ |
            ⟨_, _, _, hx⟩⟩
          · exact he
          · exact nomatch hx
          · exact nomatch hx
          · exact nomatch hx
        change (if T.PS.isEmpty then _ else _) = _
        rw [he]
        rfl
      | next =>
        simp only [bind, Except.bind, pure, Except.pure, proceedNStage, halting]
        cases T.PS.isEmpty with
        | true => rfl
        | false =>
          by_cases hE : EndAddress = some T.PC
          · rw [if_neg Bool.false_ne_true, if_neg Bool.false_ne_true, if_pos hE, if_pos hE]
            rfl
          · rw [if_neg Bool.false_ne_true, if_neg Bool.false_ne_true, if_neg hE, if_neg hE, ih]
            cases runTrace EndAddress fuel T with
            | error e => rfl
            | ok o => rfl

/-- The trace of `run` from its start address. -/
theorem run_eq_runTrace (StartAddress EndAddress : Option Address) (fuel : ℕ)
    (S : RIPSimulator σ) :
    S.run StartAddress EndAddress fuel = (fun p => p.1.map fun _ => p.2.2) <$>
      runTrace EndAddress fuel { S with PC := StartAddress.getD S.PC } :=
  runLoop_eq_runTrace _ _ _

theorem runTrace_zero {r : Option Halt} {log : List Commit}
    (h : runTrace EndAddress 0 S = .ok (r, log, U)) : r = none ∧ log = [] ∧ U = S := by
  injection h with h
  injection h with h1 h
  injection h with h2 h3
  exact ⟨h1.symm, h2.symm, h3.symm⟩

/-- A trace, by its first cycle. -/
theorem runTrace_succ {fuel : ℕ} {r : Option Halt} {log : List Commit}
    (h : runTrace EndAddress (fuel + 1) S = .ok (r, log, U)) :
    ∃ x T, S.cycle = .ok (x, T) ∧
      ((∃ r', T.halting EndAddress x = some r' ∧ r = some r' ∧ log = T.committed.toList ∧ U = T) ∨
       (T.halting EndAddress x = none ∧ ∃ log', log = T.committed.toList ++ log' ∧
          runTrace EndAddress fuel T = .ok (r, log', U))) := by
  unfold runTrace at h
  cases hc : S.cycle with
  | error e =>
    rw [hc] at h
    exact nomatch h
  | ok p =>
    obtain ⟨x, T⟩ := p
    refine ⟨x, T, rfl, ?_⟩
    rw [hc] at h
    simp only [bind, Except.bind, pure, Except.pure] at h
    cases hh : T.halting EndAddress x with
    | some r' =>
      rw [hh] at h
      injection h with h
      injection h with h1 h
      injection h with h2 h3
      exact .inl ⟨r', rfl, h1.symm, h2.symm, h3.symm⟩
    | none =>
      rw [hh] at h
      dsimp only at h
      cases hr : runTrace EndAddress fuel T with
      | error e =>
        rw [hr] at h
        exact nomatch h
      | ok q =>
        obtain ⟨r', log', U'⟩ := q
        rw [hr] at h
        injection h with h
        injection h with h1 h
        injection h with h2 h3
        dsimp only at h1 h2 h3
        exact .inr ⟨rfl, log', h2.symm, by rw [h1, h3]⟩

end RIPSimulator

end RipSim
