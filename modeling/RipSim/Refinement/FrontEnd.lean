import RipSim.Refinement.BackEnd

/-!
# The front end finds the run

Three things move the fetch: it goes on by itself, `decode` sends it to a predicted
target, and `exec` sends it to where the run really goes on.

`Lined` is what holds in the middle of a cycle, between the fetch and `decode`: DE
and IF hold successive words, the first of them on the run.  `Inv.lined` says that
the fetch leads there when EX agrees with the address the front end has followed;
`Lined.decoded` that a cycle without a redirect ends with the address `decode`
chooses; `redirected` that a redirect ends with the address EX chooses.
-/

namespace RipSim

namespace RIPSimulator

variable {σ : Type} {h : Hart} {N : ℕ∞} {c m : ℕ} {S A B M : RIPSimulator σ}

/-- DE holds instruction `m` of the run, IF the word after it. -/
structure Lined (h : Hart) (N : ℕ∞) (m : ℕ) (A : RIPSimulator σ) : Prop where
  DE : ∀ I, A.PS.Insts.DE = some I →
    A.PS.PCs.DE = (h.after m).PC ∧ (h.after m).fetch = .ok (some I)
  fetching : Fetching h N
    (if A.PS.Insts.DE.isSome then A.PS.PCs.DE + 4 else (h.after m).PC) A

/-! ## The fetch -/

/-- The instruction that enters EX counts. -/
theorem Inv.issued_add_le (hi : Inv h N c S)
    (hN : ∀ I, S.entering = some I → (S.issued c : ℕ∞) < N) :
    ((S.issued c + occ S.entering : ℕ) : ℕ∞) ≤ N := by
  cases hI : S.entering with
  | none => exact hi.bound
  | some I =>
    rw [occ_some, Nat.cast_add, Nat.cast_one]
    exact Order.add_one_le_of_lt (hN I hI)

/-- **The fetch**, when EX takes an instruction that leads where the front end went. -/
theorem Inv.lined (hi : Inv h N c S) (hd : Regular h N) (hA : S.advance = .ok A)
    (hN : ∀ I, S.entering = some I → (S.issued c : ℕ∞) < N)
    (hgo : ∀ I, S.entering = some I → S.following I = (h.after (S.issued c + 1)).PC) :
    Lined h N (S.issued c + occ S.entering) A := by
  have hle := hi.issued_add_le hN
  obtain ⟨hDE, _, hIF, hbub⟩ := hi.front
  rcases advance_ok hA with ⟨hs, rfl⟩ | ⟨hs, w, hw, rfl⟩
  · have hent := entering_of_stalled hs
    have hx : S.expected (h.after (S.issued c)).PC =
        if S.PS.Insts.DE.isSome then S.PS.PCs.DE + 4 else (h.after (S.issued c)).PC := by
      cases hI : S.PS.Insts.DE with
      | none => exact expected_of_none hI _
      | some I =>
        rw [expected_of_some hI, following, foretold_of_stalled hs I]
        rfl
    rw [hent, occ_none, Nat.add_zero]
    constructor
    · rw [(hi.clean.shifted_insts hs).1, (hi.clean.shifted_insts hs).2]
      exact hDE
    · rw [(hi.clean.shifted_insts hs).1, (hi.clean.shifted_insts hs).2]
      dsimp only
      rw [← hx]
      constructor
      · rw [(hi.clean.shifted_insts hs).1, (hi.clean.shifted_insts hs).2]
        exact hIF
      · rw [(hi.clean.shifted_insts hs).1]
        exact hbub
  · have hx : S.expected (h.after (S.issued c)).PC =
        (h.after (S.issued c + occ S.entering)).PC := by
      rw [entering_of_moving hs] at hgo ⊢
      cases hI : S.PS.Insts.DE with
      | none => exact expected_of_none hI _
      | some I =>
        rw [expected_of_some hI]
        exact hgo I hI
    rw [hx] at hIF hbub
    have hnext : (if S.PS.Insts.IF.isSome then S.PS.PCs.IF + 4
        else (h.after (S.issued c + occ S.entering)).PC) = S.PC := by
      cases hJ : S.PS.Insts.IF with
      | none => exact (hbub hJ).symm
      | some J =>
        obtain ⟨h1, h2, _⟩ := hIF J hJ
        rw [h2, h1]
        rfl
    have hins := hi.clean.fetched_insts hs w
    constructor
    · rw [hins.1, hins.2]
      intro J hJ
      obtain ⟨h1, _, h3⟩ := hIF J hJ
      exact ⟨h1, h3 _ hle rfl⟩
    · rw [hins.1, hins.2]
      dsimp only
      rw [hnext]
      constructor
      · rw [hins.1, hins.2]
        intro J hJ
        have hJ : Decoder.decode w = some J := hJ
        refine ⟨rfl, ?_, ?_⟩
        · change (if (Decoder.decode w).isSome then S.PC + 4 else S.PC) = _
          rw [hJ]
          rfl
        · rw [← hJ]
          exact hd.holds hi.accessed_le (hi.back.Mem ▸ hw)
      · rw [hins.1]
        intro hJ
        have hJ : Decoder.decode w = none := hJ
        change (if (Decoder.decode w).isSome then S.PC + 4 else S.PC) = _
        rw [hJ]
        rfl

/-! ## The end of a cycle -/

variable [BranchPredictor σ]

/-- A branch waits in DE with the prediction `decode` has made. -/
theorem decoded_foretold {J : Instruction} (hJ : M.PS.Insts.DE = some J)
    (hs : M.PS.StalledStages = stalls M.PS.StalledStages.IF) :
    M.decoded.redirect.finish.foretold J = M.predictsIF := by
  have hst : M.decoded.redirect.finish.PS.StalledStages.IF = M.PS.StalledStages.DE := by
    rw [(cycle_frame M).2.2.2.2.1, hs]
    rfl
  have hBP : M.decoded.redirect.finish.BP =
      M.decoded.BP.map fun P => { P with BranchPredPC := none } := by
    rw [redirect_eq]
    rfl
  unfold foretold predictsIF
  rw [hst, hBP, hJ]
  dsimp only
  cases hd : M.PS.StalledStages.DE with
  | true => rfl
  | false =>
    unfold decoded predictsTaken
    rw [hJ]
    simp only [hd, Bool.false_eq_true, if_false, Bool.not_false, Bool.true_and]
    unfold predicted
    cases hb : J.isBType with
    | false => rfl
    | true =>
      cases hB : M.BP with
      | none => rfl
      | some P =>
        dsimp only
        by_cases hp : (P.Predict M.PS.PCs.DE).1 = true
        · rw [if_pos hp]
          rfl
        · rw [if_neg hp]
          rfl

/-- `exec` leaves the predicted target alone. -/
theorem exec_predPC {E : Option Exception} (hx : B.exec = .ok (E, M))
    (hP : ∀ P, B.BP = some P → P.BranchPredPC = none) :
    ∀ P, M.BP = some P → P.BranchPredPC = none := by
  intro P hPM
  rw [exec_BP hx] at hPM
  cases hI : B.PS.Insts.EX with
  | none =>
    rw [hI] at hPM
    exact hP P hPM
  | some I =>
    rw [hI] at hPM
    cases I with
    | BInstruction BT Rs1 Rs2 Imm =>
      unfold learned at hPM
      cases hB : B.BP with
      | none => rw [hB] at hPM; exact nomatch hPM
      | some Q =>
        rw [hB] at hPM
        injection hPM with hPM
        subst hPM
        unfold BPBase.Learn BPBase.StatsUpdate
        dsimp only
        split_ifs <;> exact hP Q hB
    | _ => exact hP P hPM

/-- The next PC. -/
theorem cycle_PC (M : RIPSimulator σ) :
    M.decoded.redirect.finish.PC =
      (M.PS.BranchPC.or (M.decoded.BP.bind BPBase.BranchPredPC)).getD M.PC := by
  obtain ⟨hPC, _, _, _, _, _, _, _, _, _, _, hb, _⟩ := M.decoded_frame
  rw [redirect_eq, ← hPC, ← hb]
  rfl

/-- **A cycle without a redirect** leaves the fetch where `decode` sends it. -/
theorem Lined.decoded (hl : Lined h N m A) (ht : Through S A B M none) (hA : AtRest A)
    (hPC : M.PC = A.PC) (hb : M.PS.BranchPC = none) (hk : kills M none = false) :
    (∀ I, M.decoded.redirect.finish.PS.Insts.DE = some I →
      M.decoded.redirect.finish.PS.PCs.DE = (h.after m).PC ∧
        (h.after m).fetch = .ok (some I)) ∧
    Fetching h N (M.decoded.redirect.finish.expected (h.after m).PC) M.decoded.redirect.finish := by
  have hins := ht.filled hA .none
  rw [hk, Bool.false_or] at hins
  have hDE : M.decoded.redirect.finish.PS.Insts.DE = A.PS.Insts.DE := by
    rw [hins]
    rfl
  have hIF : M.decoded.redirect.finish.PS.Insts.IF =
      if M.predictsIF then none else A.PS.Insts.IF := by
    rw [hins]
  have hPCs : M.decoded.redirect.finish.PS.PCs = A.PS.PCs := by
    rw [(cycle_frame M).2.2.2.1, ht.insts.2]
  have hMDE : M.PS.Insts.DE = A.PS.Insts.DE := by rw [ht.insts.1]
  have hpc : M.decoded.redirect.finish.PC =
      (if M.predictsIF then
        A.PS.Insts.DE.map fun J => A.PS.PCs.DE + J.immVal.signExtend 64
      else none).getD A.PC := by
    rw [cycle_PC, hb, decoded_predPC (exec_predPC ht.exec (ht.atRest hA).predPC), hMDE,
      ht.insts.2, hPC]
    rfl
  constructor
  · rw [hDE, hPCs]
    exact hl.DE
  · cases hJ : A.PS.Insts.DE with
    | none =>
      have hp : M.predictsIF = false := by
        unfold predictsIF
        rw [hMDE, hJ]
      have hx := hl.fetching
      rw [hJ] at hx
      rw [hp, if_neg Bool.false_ne_true] at hIF hpc
      rw [expected_of_none (hDE.trans hJ)]
      constructor
      · rw [hIF, hPCs, hpc]
        exact hx.IF
      · rw [hIF, hpc]
        exact hx.bubble
    | some J =>
      have hfol : M.decoded.redirect.finish.expected (h.after m).PC =
          if M.predictsIF then A.PS.PCs.DE + J.immVal.signExtend 64 else A.PS.PCs.DE + 4 := by
        rw [expected_of_some (hDE.trans hJ), following, decoded_foretold (hMDE.trans hJ)
          (exec_stall ht.exec (ht.atRest hA)).1, hPCs]
      rw [hfol]
      have hx := hl.fetching
      rw [hJ] at hx hpc
      cases hp : M.predictsIF with
      | true =>
        rw [hp, if_pos rfl] at hIF hpc
        constructor
        · intro K hK
          rw [hIF] at hK
          exact nomatch hK
        · intro _
          rw [hpc]
          rfl
      | false =>
        rw [hp, if_neg Bool.false_ne_true] at hIF hpc
        constructor
        · rw [hIF, hPCs, hpc]
          exact hx.IF
        · rw [hIF, hpc]
          exact hx.bubble

/-- **A redirect** empties DE and IF and sends the fetch to its target. -/
theorem redirected (ht : Through S A (B : RIPSimulator σ) (B.executed I) none) (hA : AtRest A)
    {t : Address} (htg : B.target I = some t) :
    (B.executed I).decoded.redirect.finish.PS.Insts.DE = none ∧
    (B.executed I).decoded.redirect.finish.PS.Insts.IF = none ∧
    (B.executed I).decoded.redirect.finish.PC = t := by
  have hB := ht.atRest hA
  have hk : kills (B.executed I) none = true := by
    change (if (B.target I).isSome then _ else _ : Staged Bool).DE = true
    rw [htg]
    rfl
  have hins := ht.filled hA .none
  rw [hk] at hins
  refine ⟨by rw [hins]; rfl, by rw [hins]; rfl, ?_⟩
  rw [cycle_PC]
  change ((if B.setsPC I then B.PS.BranchPC else (B.target I).or B.PS.BranchPC).or _).getD
    (if B.setsPC I then (B.target I).getD B.PC else B.PC) = t
  rw [htg, hB.branchPC]
  cases hset : B.setsPC I with
  | false => rfl
  | true =>
    -- without a predictor there is no predicted target
    have hnone : (B.executed I).decoded.BP.bind BPBase.BranchPredPC = none := by
      have hBP : B.BP = none := by
        unfold setsPC at hset
        rw [Bool.and_eq_true] at hset
        exact Option.isNone_iff_eq_none.mp hset.2
      have hMBP : (B.executed I).BP = none := by
        change B.learned I = none
        unfold learned
        rw [hBP]
        cases I <;> rfl
      rw [decoded_predPC (fun P hP => nomatch hMBP.symm.trans hP)]
      have hp : (B.executed I).predictsIF = false := by
        have hpt : ∀ J, (B.executed I).predictsTaken J = false := by
          intro J
          unfold predictsTaken
          rw [hMBP]
          cases J.isBType <;> rfl
        unfold predictsIF
        cases (B.executed I).PS.Insts.DE with
        | none => rfl
        | some J => exact (congrArg _ (hpt J)).trans (Bool.and_false _)
      rw [hp]
      rfl
    rw [hnone]
    rfl

end RIPSimulator

end RipSim
