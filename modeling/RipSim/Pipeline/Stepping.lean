import RipSim.Pipeline.Trace

/-!
# Stepping in batches

`proceedNStage(N)` runs `N` cycles, and returns early when the pipeline is empty or a cycle ends
the run.  `run` calls it with `1`, the tests with more.  The two come to the same: a cycle that
goes on never leaves the pipeline empty (`Next.nonempty`), so that the test after the last cycle
of a batch does not see what the test after a single cycle would miss.
-/

namespace RipSim

namespace RIPSimulator

variable {σ : Type} [BranchPredictor σ] {S T A B M : RIPSimulator σ}

/-- Only an instruction in EX turns the one in DE into a bubble. -/
theorem Through.exists_of_kills {E : Option Exception} (ht : Through S A B M E) (hA : AtRest A)
    (hk : kills M E = true) : ∃ I, A.PS.Insts.EX = some I := by
  have hins : B.PS.Insts = A.PS.Insts := by rw [← (exec_frame ht.exec).Insts, ht.insts.1]
  cases hI : A.PS.Insts.EX with
  | some I => exact ⟨I, rfl⟩
  | none =>
    rw [← hins] at hI
    rcases exec_ok ht.exec with ⟨_, rfl, rfl⟩ | ⟨_, h, _⟩ | ⟨_, _, h, _⟩ | ⟨_, h, _⟩ | ⟨_, h, _⟩
    · rw [kills, (ht.atRest hA).invalid] at hk
      exact absurd hk Bool.false_ne_true
    all_goals
      rw [hI] at h
      cases h

/-- **A cycle that goes on leaves the pipeline nonempty.** -/
theorem Next.nonempty (hc : Clean S) (hn : Next S T) : T.PS.isEmpty = false := by
  obtain ⟨A, B, M, E, D, ht, _, _, _, hins⟩ := Next.moved hc hn
  have hne := ht.nonempty
  unfold PipelineStates.isEmpty at hne ⊢
  rw [hins]
  dsimp only
  cases hk : kills M E with
  | true =>
    obtain ⟨I, hI⟩ := ht.exists_of_kills (hc.advance ht.advance) hk
    simp [hI]
  | false =>
    cases hp : M.predictsIF with
    | true =>
      have hDE : A.PS.Insts.DE ≠ none := by
        intro hDE
        rw [predictsIF, ht.insts.1, hDE] at hp
        exact absurd hp Bool.false_ne_true
      obtain ⟨I, hI⟩ := Option.ne_none_iff_exists'.mp hDE
      simp [hI]
    | false => simpa using hne

/-! ## Batches -/

/-- The result of a batch whose first cycle is this one. -/
theorem proceedNStage_of_next (hn : Next S T) (n : ℕ) :
    S.proceedNStage (n + 1) = T.proceedNStage n := by
  conv_lhs => unfold proceedNStage
  rw [show S.cycle = _ from hn]
  rfl

theorem proceedNStage_zero_of_next (hc : Clean S) (hn : Next S T) :
    T.proceedNStage 0 = .ok (false, T) := by
  unfold proceedNStage
  rw [hn.nonempty hc]

/-- A cycle that does not go on ends every batch in the same way. -/
theorem proceedNStage_of_ne_next (hs : ∀ T, S.cycle ≠ .ok (.next, T)) (m n : ℕ) :
    S.proceedNStage (m + 1) = S.proceedNStage (n + 1) ∧
    ∀ p, S.proceedNStage (n + 1) = .ok p → p.1 = true := by
  unfold proceedNStage
  cases hx : S.cycle with
  | error e =>
    refine ⟨rfl, fun p hp => ?_⟩
    cases hp
  | ok p =>
    obtain ⟨x, T⟩ := p
    cases x with
    | next => exact absurd hx (hs T)
    | stop =>
      refine ⟨rfl, fun p hp => ?_⟩
      cases hp
      rfl
    | empty =>
      refine ⟨rfl, fun p hp => ?_⟩
      cases hp
      rcases cycle_ok hx with ⟨-, -, he⟩ | ⟨_, _, _, _, _, ⟨_, h, _⟩ | ⟨_, _, _, _, h, _⟩ |
        ⟨_, _, _, h⟩⟩
      · exact he
      all_goals cases h

/-- **Two batches are one.** -/
theorem Clean.proceedNStage_add (hc : Clean S) (m n : ℕ) :
    S.proceedNStage (m + 1 + n)
      = S.proceedNStage (m + 1) >>= fun p => if p.1 then .ok p else p.2.proceedNStage n := by
  induction m generalizing S with
  | zero =>
    by_cases hs : ∃ T, Next S T
    · obtain ⟨T, hn⟩ := hs
      rw [Nat.zero_add, Nat.add_comm, proceedNStage_of_next hn, proceedNStage_of_next hn,
        proceedNStage_zero_of_next hc hn]
      rfl
    · obtain ⟨heq, hstop⟩ := proceedNStage_of_ne_next (fun T hT => hs ⟨T, hT⟩) n 0
      rw [Nat.zero_add, Nat.add_comm, heq, Nat.zero_add]
      cases hp : S.proceedNStage 1 with
      | error e => rfl
      | ok p =>
        change _ = if p.1 then _ else _
        rw [if_pos (hstop p hp)]
  | succ m ih =>
    by_cases hs : ∃ T, Next S T
    · obtain ⟨T, hn⟩ := hs
      rw [show m + 1 + 1 + n = m + 1 + n + 1 by omega, proceedNStage_of_next hn,
        proceedNStage_of_next hn]
      exact ih (hc.next hn)
    · obtain ⟨heq, hstop⟩ := proceedNStage_of_ne_next (fun T hT => hs ⟨T, hT⟩) (m + 1 + n) (m + 1)
      rw [show m + 1 + 1 + n = m + 1 + n + 1 by omega, heq]
      cases hp : S.proceedNStage (m + 1 + 1) with
      | error e => rfl
      | ok p =>
        change _ = if p.1 then _ else _
        rw [if_pos (hstop p hp)]

/-- The loop of `run` is one batch. -/
theorem Clean.runLoop_eq (hc : Clean S) (n : ℕ) :
    runLoop none (n + 1) S
      = (fun p => if p.1 then some p.2 else none) <$> S.proceedNStage (n + 1) := by
  induction n generalizing S with
  | zero =>
    unfold runLoop
    cases hp : S.proceedNStage 1 with
    | error e => rfl
    | ok p =>
      obtain ⟨stopped, T⟩ := p
      cases stopped <;> rfl
  | succ n ih =>
    conv_lhs => unfold runLoop
    by_cases hs : ∃ T, Next S T
    · obtain ⟨T, hn⟩ := hs
      rw [proceedNStage_of_next hn, proceedNStage_zero_of_next hc hn, proceedNStage_of_next hn]
      exact ih (hc.next hn)
    · obtain ⟨heq, hstop⟩ := proceedNStage_of_ne_next (fun T hT => hs ⟨T, hT⟩) (n + 1) 0
      rw [heq, Nat.zero_add]
      cases hp : S.proceedNStage 1 with
      | error e => rfl
      | ok p =>
        obtain ⟨stopped, T⟩ := p
        obtain rfl : stopped = true := hstop _ hp
        rfl

end RIPSimulator

open RIPSimulator

/-- **Stepping does not depend on the batches.**  From every state of every run, traps included,
a call of `proceedNStage` followed by another, unless the first has ended the run, is one call;
and the loop of `run` without an end address is a single call too. -/
theorem batches_agree {σ : Type} [BranchPredictor σ] {S : RIPSimulator σ} (hr : Reachable S)
    (m n : ℕ) :
    S.proceedNStage (m + 1 + n)
      = (S.proceedNStage (m + 1) >>= fun p => if p.1 then .ok p else p.2.proceedNStage n) ∧
    runLoop none (m + 1) S
      = (fun p => if p.1 then some p.2 else none) <$> S.proceedNStage (m + 1) :=
  ⟨hr.clean.proceedNStage_add m n, hr.clean.runLoop_eq m⟩

/-- `ecall` in front of an undecodable word: a trap to address `0`, over and over. -/
theorem batches_agree_ecall :
    Reachable (boot [0x00000073] none : RIPSimulator OneBitBranchPredictor) ∧
    (boot [0x00000073] none : RIPSimulator OneBitBranchPredictor).proceedNStage 9
      = ((boot [0x00000073] none : RIPSimulator OneBitBranchPredictor).proceedNStage 5 >>= fun p =>
          if p.1 then .ok p else p.2.proceedNStage 4) := by
  have hr : Reachable (boot [0x00000073] none : RIPSimulator OneBitBranchPredictor) :=
    ⟨_, started_boot _ _, .refl⟩
  exact ⟨hr, (batches_agree hr 4 4).1⟩

end RipSim
