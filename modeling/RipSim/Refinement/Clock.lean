import RipSim.Refinement.Step

/-!
# How long until the next instruction executes

`dist S` is the number of cycles until the instruction that the run awaits is in EX.
It counts down by one in every cycle that executes nothing, and a cycle that executes
an instruction sets it to one more than what that instruction costs.

For this the front end has to be where it is for a reason: behind a branch predicted
taken IF is a bubble because of the prediction, and behind any other instruction it is
a bubble only because the word there is undecodable.  `Paced` is that invariant.
-/

namespace RipSim

/-- The instruction `J` reads a register that `I` writes, by the fields that `hasRs1` and
`hasRs2` report. -/
def Instruction.feeds (I J : Instruction) : Bool :=
  J.hasRs1 && I.rd == J.rs1 || J.hasRs2 && I.rd == J.rs2

/-- The instruction `J` enters EX later than one cycle after `I`: it waits for a load, or it
is fetched behind a jump. -/
def Instruction.delays (I J : Instruction) : Bool := I.isJump || I.isLoad && I.feeds J

namespace RIPSimulator

variable {σ : Type} {h : Hart} {N : ℕ∞} {c : ℕ} {S A B M : RIPSimulator σ}

/-- The number of cycles until the awaited instruction is in EX. -/
def dist (S : RIPSimulator σ) : ℕ :=
  if S.PS.StalledStages.IF then 2
  else match S.PS.Insts.DE, S.PS.Insts.IF with
    | some _, _ => 1
    | none, some _ => 2
    | none, none => 3

/-- The number of cycles until the last instruction is in write back. -/
def rest (S : RIPSimulator σ) : ℕ :=
  match S.PS.Insts.EX, S.PS.Insts.MA with
  | some _, _ => 2
  | none, some _ => 1
  | none, none => 0

/-- Why IF is a bubble behind an instruction. -/
structure Paced (h : Hart) (N : ℕ∞) (S : RIPSimulator σ) : Prop where
  foretold : ∀ I, S.PS.Insts.DE = some I → S.foretold I = true → S.PS.Insts.IF = none
  dry : ∀ I, S.PS.Insts.DE = some I → S.foretold I = false → S.PS.Insts.IF = none →
    h.Holds N (S.following I) none

theorem Started.paced {S : RIPSimulator σ} (h₀ : Started S) (h : Hart) (N : ℕ∞) : Paced h N S := by
  obtain ⟨d, P, hPS⟩ := h₀.PS
  constructor <;>
  · intro I hI
    rw [hPS] at hI
    exact nomatch hI

/-- Behind a branch that is predicted taken IF is empty. -/
theorem Paced.not_foretold (hp : Paced h N S) {I J : Instruction} (hI : S.PS.Insts.DE = some I)
    (hJ : S.PS.Insts.IF = some J) : S.foretold I = false := by
  by_contra hfor
  rw [Bool.not_eq_false] at hfor
  cases (hp.foretold I hI hfor).symm.trans hJ

/-- With nothing in DE a word in IF is an instruction of the run. -/
theorem Inv.fetch_IF (hi : Inv h N c S) (hDE : S.PS.Insts.DE = none) {J : Instruction}
    (hJ : S.PS.Insts.IF = some J) : (h.after (S.issued c)).fetch = .ok (some J) := by
  obtain ⟨_, _, h3⟩ := hi.front.fetching.IF J hJ
  exact h3 _ hi.bound (expected_of_none hDE _).symm

/-- A stalled pipeline holds an instruction in DE. -/
theorem Clean.stalled (hc : Clean S) (hs : S.PS.StalledStages.IF = true) :
    ∃ I J, S.PS.Insts.EX = some I ∧ S.PS.Insts.DE = some J := by
  obtain ⟨I, hI, _, hu⟩ := hc.load hs
  cases hJ : S.PS.Insts.DE with
  | none =>
    unfold loadUses at hu
    rw [hJ] at hu
    exact absurd hu Bool.false_ne_true
  | some J => exact ⟨I, J, hI, rfl⟩

theorem Inv.dist_entering (hi : Inv h N c S) {I : Instruction} (hI : S.entering = some I) :
    S.dist = 1 := by
  obtain ⟨hs, hDE, _⟩ := hi.entering hI
  unfold dist
  rw [hs, if_neg Bool.false_ne_true, hDE]

/-- When the run is over, the front end is empty. -/
theorem Inv.front_dry (hi : Inv h N c S) (hK : (h.after (S.issued c)).fetch = .ok none) :
    S.PS.Insts.DE = none ∧ S.PS.Insts.IF = none ∧ S.PS.StalledStages.IF = false := by
  have hDE : S.PS.Insts.DE = none := by
    cases hJ : S.PS.Insts.DE with
    | none => rfl
    | some J => exact nomatch hK.symm.trans (hi.front.DE J hJ).2
  refine ⟨hDE, ?_, ?_⟩
  · cases hJ : S.PS.Insts.IF with
    | none => rfl
    | some J => exact nomatch hK.symm.trans (hi.fetch_IF hDE hJ)
  · by_contra hs
    rw [Bool.not_eq_false] at hs
    obtain ⟨_, J, _, hJ⟩ := hi.clean.stalled hs
    exact nomatch hDE.symm.trans hJ

/-- What the instruction `I` costs in the cycle that executes it in front of `J`. -/
def charge (S B : RIPSimulator σ) (I J : Instruction) : ℕ :=
  if (B.target I).isSome then 2
  else if S.foretold I then 1
  else if I.isLoad && I.feeds J then 1
  else 0

theorem charge_le (S B : RIPSimulator σ) (I J : Instruction) : S.charge B I J ≤ 2 := by
  unfold charge
  split_ifs <;> omega

/-- Why IF is a bubble after the fetch. -/
theorem Inv.dry_fetch (hi : Inv h N c S) (hd : Regular h N) (hp : Paced h N S)
    (hA : S.advance = .ok A) {J : Instruction} (hJ : A.PS.Insts.DE = some J)
    (hIF : A.PS.Insts.IF = none) : h.Holds N (A.PS.PCs.DE + 4) none := by
  rcases advance_ok hA with ⟨hs, rfl⟩ | ⟨hs, w, hw, rfl⟩
  · rw [(hi.clean.shifted_insts hs).1] at hJ hIF
    rw [(hi.clean.shifted_insts hs).2]
    have hfor : S.foretold J = false := foretold_of_stalled hs J
    have := hp.dry J hJ hfor hIF
    unfold following at this
    rwa [hfor, if_neg Bool.false_ne_true] at this
  · rw [(hi.clean.fetched_insts hs w).1] at hJ hIF
    rw [(hi.clean.fetched_insts hs w).2]
    obtain ⟨h1, h2, _⟩ := hi.front.fetching.IF J hJ
    have hIF : Decoder.decode w = none := hIF
    change h.Holds N (S.PS.PCs.IF + 4) none
    rw [h1, ← h2, ← hIF]
    exact hd.holds hi.accessed_le (hi.back.Mem ▸ hw)

variable [BranchPredictor σ]

/-- Where the instructions are after a cycle that kills nothing. -/
theorem Through.kept (ht : Through S A B M none) (hA : AtRest A) (hk : kills M none = false) :
    M.decoded.redirect.finish.PS.Insts.DE = A.PS.Insts.DE ∧
    M.decoded.redirect.finish.PS.Insts.IF = if M.predictsIF then none else A.PS.Insts.IF := by
  have hins := ht.filled hA .none
  rw [hk, Bool.false_or] at hins
  rw [hins]
  exact ⟨rfl, rfl⟩

/-- A cycle that executes nothing kills nothing, and stalls nothing. -/
theorem Inv.quiet_bubble (hi : Inv h N c S) (ht : Through S A B M none) (hI : S.entering = none) :
    kills M none = false ∧ M.PS.StalledStages = stalls false := by
  have hB := ht.atRest (hi.clean.advance ht.advance)
  obtain ⟨_, rfl⟩ := ht.bubble ((hi.clean.advance_entering ht.advance).trans hI)
  refine ⟨?_, hB.stall⟩
  unfold kills
  rw [hB.invalid]
  rfl

/-- The flags after `exec` of the instruction that enters EX. -/
theorem Inv.executed_flags (hi : Inv h N c S) (hd : Regular h N) (ht : Through S A B M none)
    {I : Instruction} (hI : S.entering = some I) (hN : (S.issued c : ℕ∞) < N) :
    kills M none = (B.target I).isSome ∧
      M.PS.StalledStages = stalls (I.isLoad && B.loadUses I) := by
  have hB := ht.atRest (hi.clean.advance ht.advance)
  obtain ⟨rfl, _⟩ := hi.executed hd ht hI hN
  constructor
  · change (if (B.target I).isSome then _ else _ : Staged Bool).DE = _
    rw [hB.invalid]
    cases (B.target I).isSome <;> rfl
  · change (if I.isLoad && B.loadUses I then _ else _ : Staged Bool) = _
    rw [hB.stall]
    cases I.isLoad && B.loadUses I <;> rfl

theorem predictsIF_of_none (hJ : M.PS.Insts.DE = none) : M.predictsIF = false := by
  unfold predictsIF
  rw [hJ]

/-! ## The pace is kept -/

theorem Paced.next (hp : Paced h N S) (hi : Inv h N c S) (hd : Regular h N)
    (ht : Through S A B M none) : Paced h N M.decoded.redirect.finish := by
  have hA := hi.clean.advance ht.advance
  have hst := (exec_stall ht.exec (ht.atRest hA)).1
  have hMDE : M.PS.Insts.DE = A.PS.Insts.DE := by rw [ht.insts.1]
  cases hk : kills M none with
  | true =>
    have hDE : M.decoded.redirect.finish.PS.Insts.DE = none := by
      rw [ht.filled hA .none, hk]
      rfl
    constructor <;>
    · intro J hJ
      exact nomatch hDE.symm.trans hJ
  | false =>
    obtain ⟨hDE, hIF⟩ := ht.kept hA hk
    constructor
    · intro J hJ hfor
      rw [decoded_foretold (hMDE.trans (hDE ▸ hJ)) hst] at hfor
      rw [hIF, hfor, if_pos rfl]
    · intro J hJ hfor hIF'
      rw [decoded_foretold (hMDE.trans (hDE ▸ hJ)) hst] at hfor
      rw [hIF, hfor, if_neg Bool.false_ne_true] at hIF'
      unfold following
      rw [decoded_foretold (hMDE.trans (hDE ▸ hJ)) hst, hfor, if_neg Bool.false_ne_true,
        (cycle_frame M).2.2.2.1, ht.insts.2]
      exact hi.dry_fetch hd hp ht.advance (hDE ▸ hJ) hIF'

/-! ## Counting down -/

/-- A cycle that executes nothing comes one closer to the awaited instruction. -/
theorem Inv.dist_bubble (hi : Inv h N c S) (hd : Regular h N) (ht : Through S A B M none)
    (hI : S.entering = none) {K : Instruction}
    (hK : (h.after (S.issued c)).fetch = .ok (some K)) :
    M.decoded.redirect.finish.dist + 1 = S.dist := by
  have hA := hi.clean.advance ht.advance
  obtain ⟨hk, hst⟩ := hi.quiet_bubble ht hI
  obtain ⟨hDE, hIF⟩ := ht.kept hA hk
  have hst' : M.decoded.redirect.finish.PS.StalledStages.IF = false := by
    rw [(cycle_frame M).2.2.2.2.1, hst]
    rfl
  have hMDE : M.PS.Insts.DE = A.PS.Insts.DE := by rw [ht.insts.1]
  unfold dist
  rw [hst', if_neg Bool.false_ne_true, hDE, hIF]
  rcases advance_ok ht.advance with ⟨hs, rfl⟩ | ⟨hs, w, hw, rfl⟩
  · obtain ⟨_, J, _, hJ⟩ := hi.clean.stalled hs
    rw [(hi.clean.shifted_insts hs).1, hs]
    dsimp only
    rw [hJ]
    rfl
  · have hDE0 : S.PS.Insts.DE = none := (entering_of_moving hs).symm.trans hI
    rw [(hi.clean.fetched_insts hs w).1, hs, if_neg Bool.false_ne_true, hDE0]
    dsimp only
    cases hJ : S.PS.Insts.IF with
    | some J => rfl
    | none =>
      -- the word fetched is the awaited instruction
      have hpc : S.PC = (h.after (S.issued c)).PC := by
        rw [hi.front.fetching.bubble hJ, expected_of_none hDE0]
      have hw' : Decoder.decode w = some K :=
        Option.some.inj (congrArg some (Except.ok.inj
          ((hd.holds hi.accessed_le (hi.back.Mem ▸ hw) _ hi.bound hpc.symm).symm.trans hK)))
      have hnone : M.PS.Insts.DE = none := by
        rw [hMDE, (hi.clean.fetched_insts hs w).1]
        exact hJ
      rw [predictsIF_of_none hnone, if_neg Bool.false_ne_true, hw']

/-- A cycle that executes an instruction is as far from the next one as it costs. -/
theorem Inv.dist_executed (hi : Inv h N c S) (hd : Regular h N) (hp : Paced h N S)
    (ht : Through S A B M none) {I J : Instruction} (hI : S.entering = some I)
    (hN : (S.issued c : ℕ∞) < N) (hJ : (h.after (S.issued c + 1)).fetch = .ok (some J)) :
    M.decoded.redirect.finish.dist = 1 + S.charge B I J := by
  have hA := hi.clean.advance ht.advance
  obtain ⟨hs, hDE0, _⟩ := hi.entering hI
  obtain ⟨hk, hst⟩ := hi.executed_flags hd ht hI hN
  obtain ⟨_, htg⟩ := hi.target hd ht hI hN
  have hle : ((S.issued c + 1 : ℕ) : ℕ∞) ≤ N := by exact_mod_cast Order.add_one_le_of_lt hN
  have hst' : M.decoded.redirect.finish.PS.StalledStages.IF = (I.isLoad && B.loadUses I) := by
    rw [(cycle_frame M).2.2.2.2.1, hst]
    rfl
  have hMDE : M.PS.Insts.DE = A.PS.Insts.DE := by rw [ht.insts.1]
  unfold charge dist
  rw [hst']
  cases htgt : B.target I with
  | some t =>
    have hnl : I.isLoad = false := by
      cases I with
      | IInstruction IT => cases IT <;> first | rfl | exact nomatch htgt
      | _ => rfl
    rw [htgt] at hk
    rw [ht.filled hA .none, hk, hnl]
    rfl
  | none =>
    rw [htgt] at hk
    obtain ⟨hDE, hIF⟩ := ht.kept hA hk
    have hfol := htg htgt
    rw [hDE, hIF]
    obtain ⟨w, hw, rfl⟩ : ∃ w, S.Mem.readWord S.PC = .ok w ∧ A = S.fetched w := by
      rcases advance_ok ht.advance with ⟨hs', _⟩ | ⟨_, w, hw, rfl⟩
      · exact absurd (hs.symm.trans hs') Bool.false_ne_true
      · exact ⟨w, hw, rfl⟩
    have hexp : S.expected (h.after (S.issued c)).PC = (h.after (S.issued c + 1)).PC := by
      rw [expected_of_some hDE0]
      exact hfol
    rw [(hi.clean.fetched_insts hs w).1]
    dsimp only
    cases hJ' : S.PS.Insts.IF with
    | none =>
      have hnone : M.PS.Insts.DE = none := by
        rw [hMDE, (hi.clean.fetched_insts hs w).1]
        exact hJ'
      have hpc : S.PC = (h.after (S.issued c + 1)).PC := by
        rw [hi.front.fetching.bubble hJ', hexp]
      have hw' : Decoder.decode w = some J :=
        Except.ok.inj ((hd.holds hi.accessed_le (hi.back.Mem ▸ hw) _ hle hpc.symm).symm.trans hJ)
      have hfor : S.foretold I = true := by
        by_contra hfor
        rw [Bool.not_eq_true] at hfor
        have := hp.dry I hDE0 hfor hJ' _ hle hfol.symm
        exact nomatch this.symm.trans hJ
      have hu : B.loadUses I = false := by
        unfold loadUses
        have hBDE : B.PS.Insts.DE = none := by
          rw [← (exec_frame ht.exec).Insts, hnone]
        rw [hBDE]
      rw [hu, Bool.and_false, predictsIF_of_none hnone, hw', hfor]
      rfl
    | some J' =>
      obtain ⟨_, _, h3⟩ := hi.front.fetching.IF J' hJ'
      obtain rfl : J' = J := Option.some.inj (Except.ok.inj ((h3 _ hle hexp.symm).symm.trans hJ))
      have hfor : S.foretold I = false := hp.not_foretold hDE0 hJ'
      have hu : B.loadUses I = I.feeds J' := by
        unfold loadUses
        have hBDE : B.PS.Insts.DE = some J' := by
          rw [← (exec_frame ht.exec).Insts, hMDE, (hi.clean.fetched_insts hs w).1]
          exact hJ'
        rw [hBDE]
        rfl
      rw [hu, hfor]
      cases I.isLoad && I.feeds J' <;> rfl

/-- Behind an instruction that has just executed two more cycles are left. -/
theorem Inv.rest_executed (hi : Inv h N c S) (ht : Through S A B M none) {I : Instruction}
    (hI : S.entering = some I) : M.decoded.redirect.finish.rest = 2 := by
  have hEX : M.decoded.redirect.finish.PS.Insts.EX = some I := by
    rw [ht.filled (hi.clean.advance ht.advance) .none]
    exact (hi.clean.advance_entering ht.advance).trans hI
  unfold rest
  rw [hEX]

/-- When the run is over, a cycle of a nonempty pipeline comes one closer to the end. -/
theorem Inv.rest_dry (hi : Inv h N c S) (hd : Regular h N) (ht : Through S A B M none)
    (hK : (h.after (S.issued c)).fetch = .ok none) :
    S.entering = none ∧ M.decoded.redirect.finish.rest + 1 = S.rest := by
  obtain ⟨hDE, hIF, hs⟩ := hi.front_dry hK
  have hI : S.entering = none := (entering_of_moving hs).trans hDE
  refine ⟨hI, ?_⟩
  have hA := hi.clean.advance ht.advance
  obtain ⟨hWB, hMA, _⟩ := hi.clean.advance_insts ht.advance
  have hEX := hi.clean.advance_entering ht.advance
  have hmove : M.decoded.redirect.finish.PS.Insts.EX = none ∧
      M.decoded.redirect.finish.PS.Insts.MA = S.PS.Insts.EX := by
    rw [ht.filled hA .none]
    exact ⟨hEX.trans hI, hMA⟩
  have hne : S.PS.Insts.EX = none → S.PS.Insts.MA ≠ none := by
    intro hE hM
    -- otherwise the fetch finds the undecodable word and everything is a bubble
    have hempty := ht.nonempty
    rcases advance_ok ht.advance with ⟨hs', _⟩ | ⟨_, w, hw, rfl⟩
    · exact absurd (hs.symm.trans hs') Bool.false_ne_true
    · have hpc : S.PC = (h.after (S.issued c)).PC := by
        rw [hi.front.fetching.bubble hIF, expected_of_none hDE]
      have hw' : Decoder.decode w = none :=
        Except.ok.inj ((hd.holds hi.accessed_le (hi.back.Mem ▸ hw) _ hi.bound hpc.symm).symm.trans
          hK)
      unfold PipelineStates.isEmpty at hempty
      rw [(hi.clean.fetched_insts hs w).1, hw', hIF, hDE, hE, hM] at hempty
      exact absurd hempty (by decide)
  unfold rest
  rw [hmove.1, hmove.2]
  cases hE : S.PS.Insts.EX with
  | some I => rfl
  | none =>
    cases hM : S.PS.Insts.MA with
    | none => exact absurd hM (hne hE)
    | some I => rfl

/-! ## How close the instructions follow one another -/

/-- Instruction `m` enters EX one cycle after instruction `m - 1` exactly if nothing
delays it.  Branches are left out: they write no register. -/
def Tight (h : Hart) (m : ℕ) (S : RIPSimulator σ) : Prop :=
  ∀ k I K, m = k + 1 → (h.after k).fetch = .ok (some I) → (h.after m).fetch = .ok (some K) →
    I.isBType = false →
    (I.delays K = false → S.PS.Insts.EX ≠ none ∧ S.dist = 1) ∧
    (I.delays K = true → S.PS.Insts.EX ≠ none → S.dist ≠ 1)

omit [BranchPredictor σ] in
theorem dist_pos (S : RIPSimulator σ) : 0 < S.dist := by
  unfold dist
  split_ifs
  · omega
  · split <;> omega

omit [BranchPredictor σ] in
/-- What an instruction other than a branch costs. -/
theorem charge_eq_zero_iff (S B : RIPSimulator σ) {I K : Instruction} (hb : I.isBType = false) :
    S.charge B I K = 0 ↔ I.delays K = false := by
  have hfor : S.foretold I = false := foretold_of_not_branch hb
  have htg : (B.target I).isSome = I.isJump := by
    cases I with
    | IInstruction IT => cases IT <;> rfl
    | JInstruction JT => cases JT; rfl
    | BInstruction => exact absurd hb.symm Bool.false_ne_true
    | _ => rfl
  unfold charge Instruction.delays
  rw [htg, hfor, if_neg Bool.false_ne_true]
  cases I.isJump <;> cases I.isLoad && I.feeds K <;> simp

theorem Tight.next (htt : Tight h (S.issued c) S) (hi : Inv h N c S) (hd : Regular h N)
    (hp : Paced h N S) (ht : Through S A B M none)
    (hN : ∀ I, S.entering = some I → (S.issued c : ℕ∞) < N) :
    Tight h (S.issued c + occ S.entering) M.decoded.redirect.finish := by
  have hEX : M.decoded.redirect.finish.PS.Insts.EX = S.entering := by
    rw [ht.filled (hi.clean.advance ht.advance) .none]
    exact hi.clean.advance_entering ht.advance
  intro k I K hk hI hK hb
  cases hent : S.entering with
  | none =>
    rw [hent, occ_none, Nat.add_zero] at hk hK
    obtain ⟨h1, _⟩ := htt k I K hk hI hK hb
    rw [hEX, hent]
    refine ⟨fun hdel => ?_, fun _ hne => absurd rfl hne⟩
    have hdist := hi.dist_bubble hd ht hent hK
    rw [(h1 hdel).2] at hdist
    have := dist_pos M.decoded.redirect.finish
    omega
  | some J =>
    rw [hent, occ_some] at hk hK
    obtain rfl : S.issued c = k := by omega
    obtain rfl : J = I := Option.some.inj (Except.ok.inj ((hi.entering hent).2.2.2.symm.trans hI))
    have hdist := hi.dist_executed hd hp ht hent (hN J hent) hK
    have hc := charge_eq_zero_iff S B hb (K := K)
    rw [hEX, hent, hdist]
    refine ⟨fun hdel => ⟨Option.some_ne_none J, ?_⟩, fun hdel _ h1 => ?_⟩
    · rw [hc.mpr hdel]
    · have h0 : S.charge B J K = 0 := by omega
      exact absurd ((hc.mp h0).symm.trans hdel) Bool.false_ne_true

end RIPSimulator

end RipSim
