import RipSim.Refinement.Run
import RipSim.Pipeline.Protocol
import Mathlib.Algebra.BigOperators.Group.Finset.Basic

/-!
# The cycle count

`NumStages` is one for each instruction, four to drain the pipeline, and the penalties.
The proof is an equation that every cycle keeps: the cycles so far and those until the
awaited instruction executes make `3` plus the cost of the instructions executed.

The predictions are whatever the predictor returned, and are read off its log: an entry
of `resolved` is a branch that was executed, with the bit predicted for it and its
outcome.
-/

namespace RipSim

open RIPSimulator

/-! ## Penalties -/

/-- The penalty of a branch. -/
def branchPenalty (watched pred taken : Bool) : ℕ :=
  if watched then if pred ^^ taken then 2 else if pred then 1 else 0
  else if taken then 2 else 0

namespace Hart

variable (h : Hart)

/-- The penalty of instruction `k` of the run, if `pred k` was predicted for it. -/
def penalty (watched : Bool) (pred : ℕ → Bool) (k : ℕ) : ℕ :=
  match (h.after k).fetch with
  | .ok (some I) =>
    if I.isLoad then
      match (h.after (k + 1)).fetch with
      | .ok (some J) => if I.feeds J then 1 else 0
      | _ => 0
    else if I.isJump then 2
    else if I.isBType then
      branchPenalty watched (pred k) (I.taken ((h.after k).op1 I) ((h.after k).op2 I))
    else 0
  | _ => 0

/-- If instruction `k` of the run is a branch: its address, the prediction and the
outcome. -/
def outcome (pred : ℕ → Bool) (k : ℕ) : Option (Address × Bool × Bool) :=
  match (h.after k).fetch with
  | .ok (some I) =>
    if I.isBType then
      some ((h.after k).PC, pred k, I.taken ((h.after k).op1 I) ((h.after k).op2 I))
    else none
  | _ => none

/-- The cost of the first `m` instructions. -/
def cost (watched : Bool) (pred : ℕ → Bool) (m : ℕ) : ℕ :=
  ∑ k ∈ Finset.range m, (1 + h.penalty watched pred k)

variable {h} {watched : Bool} {pred pred' : ℕ → Bool} {k m : ℕ}

theorem penalty_congr (hp : pred k = pred' k) :
    h.penalty watched pred k = h.penalty watched pred' k := by
  unfold penalty
  rw [hp]

theorem outcome_congr (hp : pred k = pred' k) : h.outcome pred k = h.outcome pred' k := by
  unfold outcome
  rw [hp]

theorem penalty_le : h.penalty watched pred k ≤ 2 := by
  unfold penalty branchPenalty
  split
  · split_ifs
    · split
      · split_ifs <;> omega
      · omega
    all_goals omega
  · omega

theorem cost_congr (hp : ∀ k < m, pred k = pred' k) :
    h.cost watched pred m = h.cost watched pred' m :=
  Finset.sum_congr rfl fun k hk =>
    congrArg (1 + ·) (penalty_congr (hp k (Finset.mem_range.mp hk)))

theorem cost_succ : h.cost watched pred (m + 1) =
    h.cost watched pred m + (1 + h.penalty watched pred m) := Finset.sum_range_succ _ m

theorem cost_le : h.cost watched pred m ≤ 3 * m := by
  induction m with
  | zero => exact Nat.le_refl 0
  | succ m ih =>
    rw [cost_succ]
    have : h.penalty watched pred m ≤ 2 := penalty_le
    omega

theorem cost_eq : h.cost watched pred m = m + ∑ k ∈ Finset.range m, h.penalty watched pred k := by
  induction m with
  | zero => rfl
  | succ m ih =>
    rw [cost_succ, Finset.sum_range_succ, ih]
    omega

end Hart

/-! ## Resolved branches -/

/-- The branches of a log whose prediction was followed by a `Learn`, most recent
first: address, prediction and outcome. -/
def resolved : List BPCall → List (Address × Bool × Bool)
  | [] => []
  | .Learn cond PC :: .Predict _ p :: cs => (PC, p, cond) :: resolved cs
  | _ :: cs => resolved cs

theorem resolved_predict (PC : Address) (p : Bool) (cs : List BPCall) :
    resolved (.Predict PC p :: cs) = resolved cs := by
  rw [resolved]
  exact fun _ _ _ _ _ h => nomatch h

theorem resolved_learn (PC PC' : Address) (p cond : Bool) (cs : List BPCall) :
    resolved (.Learn cond PC :: .Predict PC' p :: cs) = (PC, p, cond) :: resolved cs := by
  rw [resolved]

namespace RIPSimulator

variable {σ : Type} {h : Hart} {N : ℕ∞} {c : ℕ} {S A B M : RIPSimulator σ}

/-- A branch redirects when its outcome is not its prediction, which is not taken if
there is no predictor. -/
theorem target_isSome_of_branch {BT : BTypeKinds} {Rs1 Rs2 : BitVec 5} {Imm : BitVec 13} :
    (B.target (.BInstruction BT Rs1 Rs2 Imm)).isSome =
      ((match B.BP with
        | none => false
        | some P => P.PrevPred) ^^ BT.cond B.PS.DERs1Val B.PS.DERs2Val) := by
  change (if ((match B.BP with
    | none => false
    | some P => P.PrevPred) ^^ BT.cond B.PS.DERs1Val B.PS.DERs2Val)
      then some _ else none).isSome = _
  cases ((match B.BP with
    | none => false
    | some P => P.PrevPred) ^^ BT.cond B.PS.DERs1Val B.PS.DERs2Val) <;> rfl

variable [BranchPredictor σ]

/-- `decode` resolves nothing. -/
theorem resolved_decoded (M : RIPSimulator σ) :
    resolved M.decoded.redirect.finish.calls = resolved M.calls := by
  rw [redirect_calls]
  rcases decoded_calls M with hd | ⟨P, P', p, hP, hP', hcalls⟩
  · unfold calls
    rw [hd]
  · have hdc : M.decoded.calls = .Predict M.PS.PCs.DE p :: M.calls := by
      unfold calls
      rw [hP', hP]
      exact hcalls
    rw [hdc, resolved_predict]

/-- A cycle that executes no branch resolves nothing. -/
theorem Inv.resolved_other (hi : Inv h N c S) (ht : Through S A B M none)
    (hI : ∀ I, S.entering = some I → I.isBType = false) :
    resolved M.decoded.redirect.finish.calls = resolved S.calls := by
  obtain ⟨hEX, _, hBP, _⟩ := ht.entering hi.clean
  rw [resolved_decoded]
  have hb : B.branchInEX = false := by
    unfold branchInEX
    rw [hEX]
    cases hE : S.entering with
    | none => rfl
    | some I => exact hI I hE
  have hM : M.calls = S.calls := by
    unfold calls
    rw [(exec_calls ht.exec).2 hb, hBP]
  rw [hM]

/-- A cycle that executes a branch resolves it, with the bit that DE has waited with. -/
theorem Inv.resolved_branch (hi : Inv h N c S) (hd : Regular h N) (hw : Watching S)
    (ht : Through S A B M none) {I : Instruction} (hI : S.entering = some I)
    (hN : (S.issued c : ℕ∞) < N) (hb : I.isBType = true) (hBP : S.BP.isSome = true) :
    resolved M.decoded.redirect.finish.calls =
      ((h.after (S.issued c)).PC, S.foretold I,
        I.taken ((h.after (S.issued c)).op1 I) ((h.after (S.issued c)).op2 I)) ::
      resolved S.calls := by
  obtain ⟨hEX, _, hBP', _⟩ := ht.entering hi.clean
  obtain ⟨_, hops, _, hpc⟩ := hi.executed hd ht hI hN
  obtain ⟨hs, _, _, _⟩ := hi.entering hI
  obtain ⟨P, hP⟩ := Option.isSome_iff_exists.mp hBP
  obtain ⟨_, P', ⟨⟨cs, hcs⟩, _⟩, hP', hcalls, _⟩ :=
    hw.resolved hi.clean ht (hEX.trans hI) hb (hBP'.trans hP)
  have hMc : M.calls = .Learn (I.taken B.PS.DERs1Val B.PS.DERs2Val) B.PS.PCs.EX ::
      .Predict B.PS.PCs.EX P.PrevPred :: cs := by
    unfold calls
    rw [hP']
    exact hcalls.trans (congrArg _ hcs)
  have hSc : S.calls = .Predict B.PS.PCs.EX P.PrevPred :: cs := by
    unfold calls
    rw [hP]
    exact hcs
  have hfor : S.foretold I = P.PrevPred := by
    rw [foretold_of_branch hs hb, hP]
  rw [resolved_decoded, hMc, hSc, resolved_learn, resolved_predict, hpc, hfor,
    Instruction.taken_congr hops.rs1 hops.rs2]

/-! ## The charge of a cycle is the penalty of its instruction -/

theorem Inv.charge_eq (hi : Inv h N c S) (hd : Regular h N) (ht : Through S A B M none)
    {I J : Instruction} (hI : S.entering = some I) (hN : (S.issued c : ℕ∞) < N)
    (hJ : (h.after (S.issued c + 1)).fetch = .ok (some J)) {pred : ℕ → Bool}
    (hp : pred (S.issued c) = S.foretold I) :
    S.charge B I J = h.penalty S.BP.isSome pred (S.issued c) := by
  obtain ⟨hs, _, _, hf⟩ := hi.entering hI
  obtain ⟨_, hops, _, _⟩ := hi.executed hd ht hI hN
  obtain ⟨_, _, hBP, _⟩ := ht.entering hi.clean
  unfold charge Hart.penalty
  rw [hf, hJ]
  dsimp only
  cases I with
  | BInstruction BT Rs1 Rs2 Imm =>
    have hcond : BT.cond B.PS.DERs1Val B.PS.DERs2Val =
        (Instruction.BInstruction BT Rs1 Rs2 Imm).taken
          ((h.after (S.issued c)).op1 (.BInstruction BT Rs1 Rs2 Imm))
          ((h.after (S.issued c)).op2 (.BInstruction BT Rs1 Rs2 Imm)) :=
      Instruction.taken_congr (I := .BInstruction BT Rs1 Rs2 Imm) hops.rs1 hops.rs2
    have hfor : S.foretold (.BInstruction BT Rs1 Rs2 Imm) = match B.BP with
        | none => false
        | some P => P.PrevPred := by
      rw [hBP]
      exact foretold_of_branch hs rfl
    rw [target_isSome_of_branch, ← hcond, ← hfor, hp]
    change _ = branchPenalty _ _ _
    unfold branchPenalty
    have hnone : S.BP.isSome = false → S.foretold (.BInstruction BT Rs1 Rs2 Imm) = false := by
      intro hB
      rw [hfor, hBP, Option.isSome_eq_false_iff.mp hB |> Option.isNone_iff_eq_none.mp]
    change (if _ then 2 else if _ then 1 else 0) = _
    cases hB : S.BP.isSome with
    | true => rfl
    | false =>
      rw [hnone hB, Bool.false_xor]
      rfl
  | IInstruction IT Rd Rs1 Imm =>
    rw [foretold_of_not_branch rfl]
    cases IT with
    | lb | lh | lw | lbu | lhu => rfl
    | jalr => rfl
    | _ => rfl
  | JInstruction JT =>
    cases JT
    rfl
  | _ =>
    rw [foretold_of_not_branch rfl]
    rfl

/-! ## The equation -/

/-- After `t` cycles, with the predictions `pred`: the equation of the cycle count, and
the branches resolved so far. -/
structure Timed (h : Hart) (N : ℕ∞) (pred : ℕ → Bool) (t c : ℕ) (S : RIPSimulator σ) : Prop where
  inv : Inv h N c S
  paced : Paced h N S
  watching : Watching S
  NumStages : S.NumStages = BitVec.ofNat 32 t
  live : ∀ K, (h.after (S.issued c)).fetch = .ok (some K) →
    t + S.dist = 3 + h.cost S.BP.isSome pred (S.issued c)
  dry : (h.after (S.issued c)).fetch = .ok none → ∀ k, S.issued c = k + 1 →
    t + S.rest = 5 + h.cost S.BP.isSome pred k
  resolved : S.BP.isSome = true →
    (resolved S.calls).reverse = (List.range (S.issued c)).filterMap (h.outcome pred)

theorem Started.timed (h₀ : Started S) (N : ℕ∞) (pred : ℕ → Bool) : Timed S.hart N pred 0 0 S := by
  obtain ⟨d, P, hPS⟩ := h₀.PS
  have hins := h₀.insts
  have hst : S.PS.StalledStages.IF = false := by rw [hPS]; rfl
  obtain ⟨_, hiss⟩ := issued_of_empty hins 0
  refine ⟨h₀.inv N, h₀.paced _ _, h₀.watching, h₀.NumStages, ?_, ?_, ?_⟩
  · intro K _
    unfold dist
    rw [hst, hins, hiss]
    rfl
  · intro _ k hk
    rw [hiss] at hk
    exact nomatch hk
  · intro _
    obtain ⟨self, hBP⟩ := h₀.BP
    have hcalls : S.calls = [] := by
      unfold calls
      rw [hBP]
      cases self <;> rfl
    rw [hcalls, hiss]
    rfl

theorem cycle_NumStages (M : RIPSimulator σ) :
    M.decoded.redirect.finish.NumStages = M.NumStages + 1 := by
  obtain ⟨_, _, _, hN, _⟩ := M.decoded_frame
  rw [redirect_eq]
  exact congrArg (· + 1) hN

theorem Through.NumStages {E : Option Exception} (ht : Through S A B M E) :
    M.NumStages = S.NumStages := by
  obtain ⟨_, _, _, hwN, _⟩ := A.written_frame
  obtain ⟨_, _, _, haN, _⟩ := advance_frame ht.advance
  rw [(exec_frame ht.exec).NumStages, (memoryaccess_frame ht.access).NumStages, hwN, haN]

/-- A predictor is there from beginning to end. -/
theorem Through.watched (ht : Through S A B M none) :
    M.decoded.redirect.finish.BP.isSome = S.BP.isSome := by
  obtain ⟨_, _, _, _, hwBP, _⟩ := A.written_frame
  obtain ⟨_, _, _, _, _, haBP, _⟩ := advance_frame ht.advance
  have hB : B.BP.isSome = S.BP.isSome := by rw [(memoryaccess_frame ht.access).BP, hwBP, haBP]
  have hM : M.BP.isSome = B.BP.isSome := by
    rw [exec_BP ht.exec]
    cases B.PS.Insts.EX with
    | none => rfl
    | some I =>
      cases I with
      | BInstruction =>
        unfold learned
        cases B.BP <;> rfl
      | _ => rfl
  have hD : M.decoded.BP.isSome = M.BP.isSome := by
    rcases decoded_calls M with hd | ⟨P, P', p, hP, hP', _⟩
    · rw [hd]
    · rw [hP, hP']
      rfl
  rw [redirect_eq, ← hB, ← hM, ← hD]
  exact Option.isSome_map

/-- **A cycle keeps the equation.**  If it executes a branch, the prediction that the
branch has waited with becomes part of `pred`. -/
theorem Timed.next {pred : ℕ → Bool} {t : ℕ} (hT : Timed h N pred t c S) (hd : Regular h N)
    (ht : Through S A B M none) (hi' : Inv h N (S.accessed c) M.decoded.redirect.finish)
    (hN : ∀ I, S.entering = some I → (S.issued c : ℕ∞) < N) :
    ∃ pred', Timed h N pred' (t + 1) (S.accessed c) M.decoded.redirect.finish := by
  have hi := hT.inv
  have hw := hT.watching.next hi.clean ht.cycle_none
  have hp := hT.paced.next hi hd ht
  have hiss := hi.issued_next ht
  have hBP := ht.watched
  have hNum : M.decoded.redirect.finish.NumStages = BitVec.ofNat 32 (t + 1) := by
    rw [cycle_NumStages, ht.NumStages, hT.NumStages, BitVec.ofNat_add]
    rfl
  cases hI : S.entering with
  | none =>
    rw [hI, occ_none, Nat.add_zero] at hiss
    refine ⟨pred, hi', hp, hw, hNum, ?_, ?_, ?_⟩
    · intro K hK
      rw [hiss] at hK
      rw [hiss, hBP, ← hT.live K hK, ← hi.dist_bubble hd ht hI hK]
      omega
    · intro hK k hk
      rw [hiss] at hK hk
      rw [hBP, ← hT.dry hK k hk, ← (hi.rest_dry hd ht hK).2]
      omega
    · intro hB
      rw [hBP] at hB
      rw [hi.resolved_other ht (fun I h' => nomatch hI.symm.trans h'), hiss]
      exact hT.resolved hB
  | some I =>
    have hlt := hN I hI
    obtain ⟨_, _, _, hf⟩ := hi.entering hI
    rw [hI, occ_some] at hiss
    have hold : ∀ k < S.issued c,
        pred k = Function.update pred (S.issued c) (S.foretold I) k := by
      intro k hk
      rw [Function.update_of_ne (Nat.ne_of_lt hk)]
    have hnew : Function.update pred (S.issued c) (S.foretold I) (S.issued c) = S.foretold I :=
      Function.update_self ..
    have heq := hT.live I hf
    rw [hi.dist_entering hI, Hart.cost_congr hold] at heq
    refine ⟨Function.update pred (S.issued c) (S.foretold I), hi', hp, hw, hNum, ?_, ?_, ?_⟩
    · intro K hK
      rw [hiss] at hK
      rw [hiss, hBP, hi.dist_executed hd hT.paced ht hI hlt hK, hi.charge_eq hd ht hI hlt hK hnew,
        Hart.cost_succ]
      omega
    · intro _ k hk
      rw [hiss] at hk
      obtain rfl : S.issued c = k := by omega
      rw [hBP, hi.rest_executed ht hI]
      omega
    · intro hB
      rw [hBP] at hB
      have hprefix : (List.range (S.issued c)).filterMap (h.outcome pred) =
          (List.range (S.issued c)).filterMap
            (h.outcome (Function.update pred (S.issued c) (S.foretold I))) :=
        List.filterMap_congr fun k hk => Hart.outcome_congr (hold k (List.mem_range.mp hk))
      rw [hiss, List.range_succ, List.filterMap_append, ← hprefix, ← hT.resolved hB]
      cases hb : I.isBType with
      | false =>
        have hnone : h.outcome (Function.update pred (S.issued c) (S.foretold I)) (S.issued c) =
            none := by
          unfold Hart.outcome
          rw [hf]
          dsimp only
          rw [hb]
          rfl
        rw [hi.resolved_other ht (fun I' h' => by
          obtain rfl : I' = I := Option.some.inj (h'.symm.trans hI)
          exact hb), List.filterMap_cons_none hnone, List.filterMap_nil, List.append_nil]
      | true =>
        have hsome : h.outcome (Function.update pred (S.issued c) (S.foretold I)) (S.issued c) =
            some ((h.after (S.issued c)).PC, S.foretold I,
              I.taken ((h.after (S.issued c)).op1 I) ((h.after (S.issued c)).op2 I)) := by
          unfold Hart.outcome
          rw [hf]
          dsimp only
          rw [hb, hnew]
          rfl
        rw [hi.resolved_branch hd hT.watching ht hI hlt hb hB, List.reverse_cons,
          List.filterMap_cons_some hsome, List.filterMap_nil]

/-! ## The end of the run -/

/-- A cycle that goes on leaves the pipeline nonempty. -/
theorem Inv.nonempty_next (hi : Inv h N c S) (ht : Through S A B M none) :
    M.decoded.redirect.finish.PS.isEmpty = false := by
  have hA := hi.clean.advance ht.advance
  by_contra he
  rw [Bool.not_eq_false] at he
  have hins := isEmpty_insts he
  have hfill := ht.filled hA .none
  rw [hins] at hfill
  have hEX : A.PS.Insts.EX = none := (congrArg Staged.EX hfill).symm
  have hI : S.entering = none := (hi.clean.advance_entering ht.advance).symm.trans hEX
  obtain ⟨hk, _⟩ := hi.quiet_bubble ht hI
  rw [hk] at hfill
  have hDE : A.PS.Insts.DE = none := (congrArg Staged.DE hfill).symm
  have hp : M.predictsIF = false := predictsIF_of_none (by rw [ht.insts.1, hDE])
  rw [hp] at hfill
  have hIF : A.PS.Insts.IF = none := (congrArg Staged.IF hfill).symm
  have hMA : A.PS.Insts.MA = none := (congrArg Staged.MA hfill).symm
  have hWB : A.PS.Insts.WB = none := (congrArg Staged.WB hfill).symm
  have hne := ht.nonempty
  unfold PipelineStates.isEmpty at hne
  rw [hIF, hDE, hEX, hMA, hWB] at hne
  exact absurd hne (by decide)

/-- The run ends, with the equation in its last form. -/
theorem Timed.ends {S₀ : RIPSimulator σ} {n : ℕ} (hn : 1 ≤ n) (hd : Regular h n)
    (hlive : ∀ k < n, ∃ I, (h.after k).fetch = .ok (some I))
    (hend : (h.after n).fetch = .ok none) (hf : FetchesInDRAM S₀) (fuel : ℕ) :
    ∀ {pred : ℕ → Bool} {t c : ℕ} {S : RIPSimulator σ}, Timed h n pred t c S →
      S.BP.isSome = S₀.BP.isSome → (∃ log, S₀.proceeds t = .ok (log, S)) →
      3 * n + 5 < t + fuel →
      ∃ S' pred', runLoop none fuel S = .ok (some S') ∧
        S'.NumStages = BitVec.ofNat 32
          (n + 4 + ∑ k ∈ Finset.range (n - 1), h.penalty S₀.BP.isSome pred' k) ∧
        (S₀.BP.isSome = true →
          (RipSim.resolved S'.calls).reverse = (List.range n).filterMap (h.outcome pred')) := by
  induction fuel with
  | zero =>
    intro pred t c S hT _ _ hfuel
    have hm : S.issued c ≤ n := by exact_mod_cast hT.inv.bound
    obtain ⟨o, ho⟩ := hd.inDRAM (S.issued c) hT.inv.bound
    exfalso
    cases o with
    | some K =>
      have h1 := hT.live K ho
      have h2 : h.cost S.BP.isSome pred (S.issued c) ≤ 3 * S.issued c := Hart.cost_le
      omega
    | none =>
      have h0 : S.issued c ≠ 0 := by
        intro h0
        obtain ⟨I, hI⟩ := hlive 0 hn
        rw [h0] at ho
        exact nomatch ho.symm.trans hI
      obtain ⟨k, hk⟩ := Nat.exists_eq_succ_of_ne_zero h0
      have h1 := hT.dry ho k hk
      have h2 : h.cost S.BP.isSome pred k ≤ 3 * k := Hart.cost_le
      omega
  | succ fuel ih =>
    intro pred t c S hT hBP hlog hfuel
    obtain ⟨log, hlog⟩ := hlog
    have hN : ∀ I, S.entering = some I → (S.issued c : ℕ∞) < n := by
      intro I hI
      have hm : S.issued c ≤ n := by exact_mod_cast hT.inv.bound
      have hne : S.issued c ≠ n := by
        intro heq
        have hfe := (hT.inv.entering hI).2.2.2
        rw [heq] at hfe
        exact nomatch hend.symm.trans hfe
      exact_mod_cast Nat.lt_of_le_of_ne hm hne
    rcases hT.inv.cycle hd (hf t log S hlog) hN with ⟨A, hc, hA, he⟩ | ⟨A, B, M, ht, hc, hi⟩
    · obtain ⟨_, hdry, hiss⟩ := hT.inv.empty hd hA he
      obtain ⟨_, _, _, haN, _, haBP, _⟩ := advance_frame hA
      have hcn : c = n := by
        have hle : c ≤ n := by
          have := hT.inv.bound
          rw [hiss] at this
          exact_mod_cast this
        by_contra hne
        obtain ⟨I, hI⟩ := hlive c (Nat.lt_of_le_of_ne hle hne)
        exact nomatch hdry.symm.trans hI
      subst hcn
      have hrest : S.rest = 0 := by
        unfold issued accessed at hiss
        have hEX : S.PS.Insts.EX = none := occ_eq_zero.mp (by omega)
        have hMA : S.PS.Insts.MA = none := occ_eq_zero.mp (by omega)
        unfold rest
        rw [hEX, hMA]
      have heq := hT.dry (hiss.symm ▸ hdry) (c - 1) (by omega)
      rw [hrest, hBP, Hart.cost_eq] at heq
      refine ⟨A, pred, ?_, ?_, ?_⟩
      · exact runLoop_of_empty hc he fuel
      · rw [haN, hT.NumStages]
        congr 1
        omega
      · intro hB
        have hcalls : A.calls = S.calls := by
          unfold calls
          rw [haBP]
        have := hT.resolved (hBP.trans hB)
        rw [hiss] at this
        rw [hcalls, this]
    · obtain ⟨pred', hT'⟩ := hT.next hd ht hi hN
      obtain ⟨S', pred'', hrun, hres⟩ := ih hT' (ht.watched.trans hBP)
        ⟨_, Logs.runLog_succ hlog (proceed_of_next hc)⟩ (by omega)
      exact ⟨S', pred'', (runLoop_of_next hc (hT.inv.nonempty_next ht) fuel).trans hrun, hres⟩

end RIPSimulator

/-- **The cycle count.**  If the sequential run of a program in the domain ends at an
undecodable word after `n` instructions, the pipeline stops with `NumStages` equal to
`n + 4` and the penalties of all instructions but the last, for the predictions that
the predictor made for the branches of the run. -/
theorem cycle_count {σ : Type} [BranchPredictor σ] {S₀ : RIPSimulator σ} (h₀ : Started S₀) {n : ℕ}
    (hn : 1 ≤ n) (hd : Domain S₀.hart n)
    (hlive : ∀ k < n, ∃ I, (S₀.hart.after k).fetch = .ok (some I))
    (hend : (S₀.hart.after n).fetch = .ok none) (hf : FetchesInDRAM S₀) :
    ∃ fuel S pred, S₀.run none none fuel = .ok (some S) ∧
      S.NumStages = BitVec.ofNat 32
        (n + 4 + ∑ k ∈ Finset.range (n - 1), S₀.hart.penalty S₀.BP.isSome pred k) ∧
      (S₀.BP.isSome = true →
        (resolved S.calls).reverse = (List.range n).filterMap (S₀.hart.outcome pred)) := by
  obtain ⟨S, pred, hrun, hres⟩ := (h₀.timed n fun _ => false).ends hn hd.regular hlive hend hf
    (3 * n + 6) rfl ⟨[], rfl⟩ (by omega)
  exact ⟨3 * n + 6, S, pred, hrun, hres⟩

/-- Without a predictor `looper` takes eleven cycles: the branch that is taken costs two. -/
theorem cycle_count_looper :
    ∃ fuel S, (looper (none : Option OneBitBranchPredictor)).run none none fuel = .ok (some S) ∧
      S.NumStages = 11 := by
  obtain ⟨fuel, S, pred, hrun, hN, _⟩ := cycle_count
    (Looper.started (none : Option OneBitBranchPredictor)) (n := 5) (by decide) (Looper.domain 5)
    (fun _ => Looper.live) Looper.ended (Looper.fetchesInDRAM none)
  refine ⟨fuel, S, hrun, hN.trans ?_⟩
  have hsum : ∑ k ∈ Finset.range 4, Looper.hart.penalty false pred k = 2 := rfl
  exact congrArg (BitVec.ofNat 32 <| 9 + ·) hsum

end RipSim
