import RipSim.Refinement.Machine

/-!
# What a prediction costs

The penalties of a run, sorted by who is responsible.  Interlocks and jumps cost what they cost
(`Hart.stall`), and so does a branch that is taken; the predictor adds two cycles for each branch
that it wrongly predicts taken and one for each that it wrongly predicts not taken
(`surcharge`).  Without a predictor every branch counts as predicted not taken.  Only the
instructions ahead of the last one pay: nothing waits for what the last one delays.

So two simulators with different predictors end a program in the same state, and the difference
of their cycle counts is that of their surcharges (`predictors_compare`).
-/

namespace RipSim

open RIPSimulator

/-! ## Sorting the penalties -/

/-- The branches of a log with this prediction and this outcome. -/
def tallied (l : List (Address × Bool × Bool)) (pred taken : Bool) : ℕ :=
  l.countP fun x => x.2.1 == pred && x.2.2 == taken

/-- What the predictions of a log cost. -/
def surcharge (l : List (Address × Bool × Bool)) : ℕ :=
  2 * tallied l true false + tallied l false true

theorem tallied_cons (x : Address × Bool × Bool) (l : List (Address × Bool × Bool)) (p t : Bool) :
    tallied (x :: l) p t = tallied l p t + if x.2.1 == p && x.2.2 == t then 1 else 0 :=
  List.countP_cons ..

/-- The penalties of the branches of a log: one for each that is taken, and the surcharge. -/
theorem sum_branchPenalty (l : List (Address × Bool × Bool)) :
    (l.map fun x => branchPenalty true x.2.1 x.2.2).sum = l.countP (·.2.2) + surcharge l := by
  induction l with
  | nil => rfl
  | cons x l ih =>
    obtain ⟨PC, p, t⟩ := x
    rw [List.map_cons, List.sum_cons, ih, List.countP_cons, surcharge, surcharge, tallied_cons,
      tallied_cons]
    cases p <;> cases t <;> simp [branchPenalty] <;> omega

namespace Hart

variable (h : Hart)

/-- The prediction that counts: without a predictor a branch is predicted not taken. -/
def guess (watched : Bool) (pred : ℕ → Bool) (k : ℕ) : Bool := watched && pred k

/-- The penalty of instruction `k` that no prediction changes. -/
def stall (k : ℕ) : ℕ :=
  if (h.outcome (fun _ => false) k).isSome then 0 else h.penalty false (fun _ => false) k

/-- The branches among the first `m` instructions. -/
def forecasts (pred : ℕ → Bool) (m : ℕ) : List (Address × Bool × Bool) :=
  (List.range m).filterMap (h.outcome pred)

variable {h} {watched : Bool} {pred pred' : ℕ → Bool} {k m : ℕ}

theorem branchPenalty_guess (watched p t : Bool) :
    branchPenalty watched p t = branchPenalty true (watched && p) t := by
  cases watched <;> cases p <;> cases t <;> rfl

/-- The penalty of one instruction. -/
theorem penalty_eq : h.penalty watched pred k = h.stall k +
    ((h.outcome (guess watched pred) k).map fun x => branchPenalty true x.2.1 x.2.2).getD 0 := by
  unfold stall penalty outcome guess
  cases hf : (h.after k).fetch with
  | error e => rfl
  | ok o =>
    cases o with
    | none => rfl
    | some I =>
      dsimp only
      by_cases hb : I.isBType = true
      · have hl : I.isLoad = false := by
          cases I <;> first | rfl | exact absurd hb Bool.false_ne_true
        have hj : I.isJump = false := by
          cases I <;> first | rfl | exact absurd hb Bool.false_ne_true
        simp [hb, hl, hj, branchPenalty_guess watched]
      · simp [hb]

theorem forecasts_succ :
    h.forecasts pred (m + 1) = h.forecasts pred m ++ (h.outcome pred m).toList := by
  unfold forecasts
  rw [List.range_succ, List.filterMap_append]
  congr 1

/-- The penalties of the first `m` instructions. -/
theorem sum_penalty : ∑ k ∈ Finset.range m, h.penalty watched pred k =
    ∑ k ∈ Finset.range m, h.stall k + (h.forecasts (guess watched pred) m).countP (·.2.2)
      + surcharge (h.forecasts (guess watched pred) m) := by
  rw [Nat.add_assoc, ← sum_branchPenalty]
  induction m with
  | zero => rfl
  | succ m ih =>
    rw [Finset.sum_range_succ, Finset.sum_range_succ, ih, penalty_eq, forecasts_succ]
    cases h.outcome (guess watched pred) m <;> simp <;> omega

/-- The predictions change neither the branches nor their outcomes. -/
theorem map_forecasts {β : Type} (f : Address → Bool → β) :
    (h.forecasts pred m).map (fun x => f x.1 x.2.2) =
      (h.forecasts pred' m).map fun x => f x.1 x.2.2 := by
  induction m with
  | zero => rfl
  | succ m ih =>
    rw [forecasts_succ, forecasts_succ, List.map_append, List.map_append, ih]
    unfold outcome
    cases (h.after m).fetch with
    | error e => rfl
    | ok o =>
      cases o with
      | none => rfl
      | some I =>
        dsimp only
        cases I.isBType <;> rfl

/-- Which branches are taken does not depend on the predictions. -/
theorem taken_forecasts :
    (h.forecasts pred m).countP (·.2.2) = (h.forecasts pred' m).countP (·.2.2) := by
  have htaken : ∀ l : List (Address × Bool × Bool),
      l.countP (·.2.2) = (l.map fun x => x.2.2).countP id := fun l => by
    rw [List.countP_map]
    rfl
  rw [htaken, htaken, map_forecasts fun _ taken => taken]

/-- The cycles that a program takes if every branch is predicted right. -/
def cycles (h : Hart) (n : ℕ) : ℕ :=
  n + 4 + ∑ k ∈ Finset.range (n - 1), h.stall k
    + (h.forecasts (fun _ => false) (n - 1)).countP (·.2.2)

end Hart

namespace RIPSimulator

variable {σ : Type} [BranchPredictor σ] {S₀ : RIPSimulator σ}

/-- **How a run ends**: in the last state of the reference, after the cycles of the program and
the surcharge of the predictions. -/
theorem Started.finishes (h₀ : Started S₀) {n : ℕ} (hn : 1 ≤ n) (hd : Regular S₀.hart n)
    (hlive : S₀.hart.Live n) (hend : (S₀.hart.after n).fetch = .ok none) (hf : FetchesInDRAM S₀) :
    ∃ S pred, S₀.run none none (3 * n + 6) = .ok (some S) ∧ Settled S₀.hart n S ∧
      S.NumStages = BitVec.ofNat 32 (S₀.hart.cycles n
        + surcharge (S₀.hart.forecasts (Hart.guess S₀.BP.isSome pred) (n - 1))) ∧
      (S₀.BP.isSome = true → (resolved S.calls).reverse = S₀.hart.forecasts pred n) := by
  obtain ⟨S, pred, hrun, hN, hres⟩ := (h₀.timed n fun _ => false).ends hn hd hlive hend hf
    (3 * n + 6) rfl ⟨[], rfl⟩ (by omega)
  obtain ⟨S', hrun', hset⟩ := h₀.settles (hd.extend hend) hf hend
  obtain rfl : S = S' := Option.some.inj (Except.ok.inj (hrun.symm.trans (runLoop_mono hrun' 2)))
  have htaken : (S₀.hart.forecasts (Hart.guess S₀.BP.isSome pred) (n - 1)).countP (·.2.2) =
      (S₀.hart.forecasts (fun _ => false) (n - 1)).countP (·.2.2) := Hart.taken_forecasts
  refine ⟨S, pred, hrun, hset, ?_, hres⟩
  rw [hN, Hart.sum_penalty, htaken, Hart.cycles]
  congr 1
  omega

end RIPSimulator

open RIPSimulator

/-- **What a predictor changes.**  Two simulators that start from the same machine, each with
whatever predictor or none, end a program in the domain with the same registers, memory and
CSRs.  Their cycle counts are those of the program, and for each its own surcharge over the
branches among the first `n - 1` of the `n` instructions: two cycles for a branch wrongly
predicted taken, one for a branch wrongly predicted not taken. -/
theorem predictors_compare {σ τ : Type} [BranchPredictor σ] [BranchPredictor τ]
    {S₀ : RIPSimulator σ} {T₀ : RIPSimulator τ} (hS : Started S₀) (hT : Started T₀)
    (hsame : S₀.hart = T₀.hart) {n : ℕ} (hn : 1 ≤ n) (hd : Domain S₀.hart n)
    (hlive : S₀.hart.Live n) (hend : (S₀.hart.after n).fetch = .ok none)
    (hfS : FetchesInDRAM S₀) (hfT : FetchesInDRAM T₀) :
    ∃ fuel S T pred pred', S₀.run none none fuel = .ok (some S) ∧
      T₀.run none none fuel = .ok (some T) ∧
      (S.GPRegs = T.GPRegs ∧ S.Mem = T.Mem ∧ ∀ a, a ∉ counters → S.States a = T.States a) ∧
      S.NumStages = BitVec.ofNat 32 (S₀.hart.cycles n
        + surcharge (S₀.hart.forecasts (Hart.guess S₀.BP.isSome pred) (n - 1))) ∧
      T.NumStages = BitVec.ofNat 32 (S₀.hart.cycles n
        + surcharge (S₀.hart.forecasts (Hart.guess T₀.BP.isSome pred') (n - 1))) ∧
      (S₀.BP.isSome = true → (resolved S.calls).reverse = S₀.hart.forecasts pred n) ∧
      (T₀.BP.isSome = true → (resolved T.calls).reverse = S₀.hart.forecasts pred' n) := by
  obtain ⟨S, pred, hrun, hset, hN, hres⟩ := hS.finishes hn hd.regular hlive hend hfS
  have hdT : Regular T₀.hart n := hsame ▸ hd.regular
  rw [hsame] at hlive hend
  obtain ⟨T, pred', hrun', hset', hN', hres'⟩ := hT.finishes hn hdT hlive hend hfT
  rw [← hsame] at hset' hN' hres'
  refine ⟨_, S, T, pred, pred', hrun, hrun', ⟨?_, ?_, ?_⟩, hN, hN', hres, hres'⟩
  · rw [hset.GPRegs, hset'.GPRegs]
  · rw [hset.Mem, hset'.Mem]
  · intro a ha
    rw [hset.States a ha, hset'.States a ha]

/-- The two-bit predictor on `countdown`, against none. -/
theorem predictors_compare_countdown :
    ∃ fuel S T pred pred',
      (boot countdown none : RIPSimulator OneBitBranchPredictor).run none none fuel = .ok (some S) ∧
      (boot countdown (some TwoBitBranchPredictor.new)).run none none fuel = .ok (some T) ∧
      S.GPRegs = T.GPRegs ∧
      S.NumStages = BitVec.ofNat 32 ((loaded countdown).cycles 7
        + surcharge ((loaded countdown).forecasts (Hart.guess false pred) 6)) ∧
      T.NumStages = BitVec.ofNat 32 ((loaded countdown).cycles 7
        + surcharge ((loaded countdown).forecasts (Hart.guess true pred') 6)) := by
  have hc := countdown_confined
  obtain ⟨fuel, S, T, pred, pred', hS, hT, ⟨hregs, -⟩, hN, hN', -⟩ := predictors_compare
    (started_boot countdown (none : Option OneBitBranchPredictor))
    (started_boot countdown (some TwoBitBranchPredictor.new)) rfl (n := 7) (by decide)
    (hc.domain 7) countdown_live
    ((hc.follows 7).fetch_none hc.toFits countdown_end)
    ((started_boot _ _).fetchesInDRAM hc.regular fun _ _ _ => hc.near)
    ((started_boot _ _).fetchesInDRAM hc.regular fun _ _ _ => hc.near)
  exact ⟨fuel, S, T, pred, pred', hS, hT, hregs, hN, hN'⟩

end RipSim
