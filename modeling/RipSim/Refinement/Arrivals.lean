import RipSim.Refinement.Timing

/-!
# Where the fetch PC has been

The addresses that the fetch PC shows are known from the run and the predictions alone.
`Hart.Shows` lists those that it shows on account of one instruction, and `Hart.Stray` those among
them to which the run does not go on.

`Unseen` says that an address has not been shown yet.  `Unseen.comes` is about the first cycle that
shows it: either the run comes there with it, as `Arrived` says, or an instruction of the run has
led the fetch astray.
-/

namespace RipSim

open RIPSimulator

namespace Hart

variable (h : Hart) (pred : ℕ → Bool)

/-! ## Addresses -/

/-- Where a branch goes if it is taken. -/
def branchTarget (k : ℕ) : Address :=
  match (h.after k).fetch with
  | .ok (some I) => (h.after k).PC + I.immVal.signExtend 64
  | _ => (h.after k).PC

/-- The fetch PC is `x` at some time on account of instruction `k`: behind it in IF, behind the
word after it, at its predicted target, or where the run goes on. -/
def Shows (k : ℕ) (x : Address) : Prop :=
  x = (h.after k).PC + 4 ∨ (x = (h.after k).PC + 8 ∧ h.trails pred k = true) ∨
    (x = h.branchTarget k ∧ pred k = true) ∨ x = (h.after (k + 1)).PC

/-- The fetch PC is `x` on account of instruction `k`, on a path that is not that of the run.  A
wrong target does not count where the fetch has been at `x` before, two instructions behind `k`. -/
def Stray (k : ℕ) (x : Address) : Prop :=
  (x = (h.after k).PC + 4 ∧ (h.after (k + 1)).PC ≠ x) ∨
    (x = (h.after k).PC + 8 ∧ h.trails pred k = true ∧
      (h.after (k + 1)).PC ≠ (h.after k).PC + 4) ∨
    (x = h.branchTarget k ∧ pred k = true ∧ (h.after (k + 1)).PC ≠ x ∧
      ¬(x = (h.after k).PC + 8 ∧ h.trails pred k = true ∧
        (h.after (k + 1)).PC = (h.after k).PC + 4))

instance (k : ℕ) (x : Address) : Decidable (h.Shows pred k x) :=
  inferInstanceAs (Decidable (_ ∨ _ ∨ _ ∨ _))

instance (k : ℕ) (x : Address) : Decidable (h.Stray pred k x) :=
  inferInstanceAs (Decidable (_ ∨ _ ∨ _))

variable {h pred} {k : ℕ} {x : Address}

theorem Stray.shows (hs : h.Stray pred k x) : h.Shows pred k x := by
  rcases hs with ⟨h1, -⟩ | ⟨h2, htr, -⟩ | ⟨h3, hp, -⟩
  · exact .inl h1
  · exact .inr (.inl ⟨h2, htr⟩)
  · exact .inr (.inr (.inl ⟨h3, hp⟩))

theorem branchTarget_of_fetch {I : Instruction} (hf : (h.after k).fetch = .ok (some I)) :
    h.branchTarget k = (h.after k).PC + I.immVal.signExtend 64 := by
  unfold branchTarget
  rw [hf]

end Hart

/-- A branch goes on to the next word or to its target. -/
theorem Regular.goes_on {h : Hart} {N : ℕ∞} (hd : Regular h N) {k : ℕ} {I : Instruction}
    (hk : k < N)
    (hf : (h.after k).fetch = .ok (some I)) (hb : I.isBType = true) :
    (h.after (k + 1)).PC = (h.after k).PC + 4 ∨ (h.after (k + 1)).PC = h.branchTarget k := by
  rw [(hd.effect hk hf).PC, Hart.branchTarget_of_fetch hf]
  have heven := evenImm_of_fetch hf
  cases I with
  | BInstruction BT Rs1 Rs2 Imm =>
    have heven : Imm &&& ~~~1#13 = Imm := heven
    unfold Hart.nextPC
    dsimp only
    split_ifs
    · right
      change _ = _ + ((Imm &&& ~~~1#13).signExtend 32).signExtend 64
      rw [heven]
    · exact .inl rfl
  | _ => exact absurd hb Bool.false_ne_true

namespace RIPSimulator

variable {σ : Type} {h : Hart} {N : ℕ∞} {pred : ℕ → Bool} {t c k : ℕ} {x : Address}
  {S A B M : RIPSimulator σ}

variable [BranchPredictor σ]

/-! ## Addresses that have not been fetched from -/

/-- In the first `t` cycles the fetch PC has not been `x` at the end of one. -/
structure Unseen (h : Hart) (pred : ℕ → Bool) (x : Address) (t c : ℕ) (S : RIPSimulator σ) :
    Prop where
  PC : 0 < t → S.PC ≠ x
  issued : ∀ k < S.issued c, ¬h.Shows pred k x
  DE : S.PS.Insts.DE ≠ none → x ≠ (h.after (S.issued c)).PC + 4 ∧
    (h.trails pred (S.issued c) = true → x ≠ (h.after (S.issued c)).PC + 8)

omit [BranchPredictor σ] in
theorem Started.unseen {S : RIPSimulator σ} (h₀ : Started S) (pred : ℕ → Bool) (x : Address) :
    Unseen S.hart pred x 0 0 S := by
  have hins := h₀.insts
  refine ⟨fun h => (Nat.lt_irrefl 0 h).elim, fun k hk => ?_, fun hne => ?_⟩
  · rw [(issued_of_empty hins 0).2] at hk
    exact (Nat.not_lt_zero k hk).elim
  · rw [hins] at hne
    exact absurd rfl hne

omit [BranchPredictor σ] in
/-- What the instruction that enters EX has shown before. -/
theorem Unseen.front (hu : Unseen h pred x t c S) (hc : Clocked h N pred t c S) {I : Instruction}
    (hI : S.entering = some I) :
    x ≠ (h.after (S.issued c)).PC + 4 ∧
    (h.trails pred (S.issued c) = true → x ≠ (h.after (S.issued c)).PC + 8) ∧
    (pred (S.issued c) = true → x ≠ h.branchTarget (S.issued c)) := by
  obtain ⟨hst, hDE, hPC, hf⟩ := hc.inv.entering hI
  have hne : S.PS.Insts.DE ≠ none := hDE ▸ Option.some_ne_none I
  obtain ⟨h4, h8⟩ := hu.DE hne
  refine ⟨h4, h8, fun hp hx => ?_⟩
  -- the target of a branch predicted taken is the fetch PC already
  have hfor := (hc.foretold I hDE hst).trans hp
  have hSPC := hc.inv.front.fetching.bubble (hc.paced.foretold I hDE hfor)
  rw [expected_of_some hDE, following, hfor, if_pos rfl, hPC, ← Hart.branchTarget_of_fetch hf]
    at hSPC
  exact hu.PC (hc.pos (.inl hne)) (hSPC.trans hx.symm)

/-- Where the run goes on behind the instruction that enters EX, the fetch PC is by the end of the
cycle. -/
theorem Unseen.goes_on (hu : Unseen h pred x t c S) (hc : Clocked h N pred t c S)
    (hd : Regular h N) (ht : Through S A B M none) {I : Instruction} (hI : S.entering = some I)
    (hN : (S.issued c : ℕ∞) < N) (hx : x = (h.after (S.issued c + 1)).PC) :
    M.decoded.redirect.finish.PC = x := by
  have hi := hc.inv
  obtain ⟨hst, hDE, hPC, hf⟩ := hi.entering hI
  obtain ⟨h4, -, htarget⟩ := hu.front hc hI
  obtain ⟨htg, hfol⟩ := hi.target hd ht hI hN
  cases htgt : B.target I with
  | some y =>
    obtain ⟨rfl, -⟩ := hi.executed hd ht hI hN
    rw [(redirected ht (hi.clean.advance ht.advance) htgt).2.2, htg y htgt, hx]
  | none =>
    have hfol := hfol htgt
    rw [← hx, following, hPC, hc.foretold I hDE hst] at hfol
    cases hp : pred (S.issued c) with
    | true =>
      rw [hp, if_pos rfl, ← Hart.branchTarget_of_fetch hf] at hfol
      exact absurd hfol.symm (htarget hp)
    | false =>
      rw [hp, if_neg Bool.false_ne_true] at hfol
      exact absurd hfol.symm h4

/-- What has been shown by an instruction that is past EX after the cycle: only the last of them
can have come to `x` in it, where the run goes on. -/
theorem Unseen.shown (hu : Unseen h pred x t c S) (hc : Clocked h N pred t c S)
    (ht : Through S A B M none) (hk : k < M.decoded.redirect.finish.issued (S.accessed c)) :
    ¬h.Stray pred k x ∧ (h.trails pred k = true → x ≠ (h.after k).PC + 8) ∧
    (x = (h.after (k + 1)).PC → k = S.issued c ∧ ∃ I, S.entering = some I) := by
  rw [hc.inv.issued_next ht] at hk
  have hold : k < S.issued c → ¬h.Stray pred k x ∧
      (h.trails pred k = true → x ≠ (h.after k).PC + 8) ∧
      (x = (h.after (k + 1)).PC → k = S.issued c ∧ ∃ I, S.entering = some I) := by
    intro hlt
    have hno := hu.issued k hlt
    exact ⟨fun hs => hno hs.shows, fun htr hx => hno (.inr (.inl ⟨hx, htr⟩)),
      fun hx => absurd (.inr (.inr (.inr hx))) hno⟩
  cases hI : S.entering with
  | none =>
    rw [hI, occ_none] at hk
    rw [hI] at hold
    exact hold hk
  | some I =>
    rw [hI, occ_some] at hk
    rw [hI] at hold
    rcases Nat.lt_succ_iff_lt_or_eq.mp hk with hlt | rfl
    · exact hold hlt
    · obtain ⟨h4, h8, htarget⟩ := hu.front hc hI
      refine ⟨?_, h8, fun _ => ⟨rfl, I, rfl⟩⟩
      rintro (⟨hx, -⟩ | ⟨hx, htr, -⟩ | ⟨hx, hp, -⟩)
      · exact h4 hx
      · exact h8 htr hx
      · exact htarget hp hx

theorem Unseen.next (hu : Unseen h pred x t c S) (hc : Clocked h N pred t c S) (hd : Regular h N)
    (ht : Through S A B M none) (hN : ∀ I, S.entering = some I → (S.issued c : ℕ∞) < N)
    (hc' : Clocked h N pred (t + 1) (S.accessed c) M.decoded.redirect.finish)
    (hx : M.decoded.redirect.finish.PC ≠ x) :
    Unseen h pred x (t + 1) (S.accessed c) M.decoded.redirect.finish := by
  have hi := hc.inv
  have hiss := hi.issued_next ht
  refine ⟨fun _ => hx, ?_, ?_⟩
  · intro k hk hs
    rw [hiss] at hk
    cases hI : S.entering with
    | none =>
      rw [hI, occ_none] at hk
      exact hu.issued k hk hs
    | some I =>
      rw [hI, occ_some] at hk
      rcases Nat.lt_succ_iff_lt_or_eq.mp hk with hlt | rfl
      · exact hu.issued k hlt hs
      · obtain ⟨h4, h8, htarget⟩ := hu.front hc hI
        rcases hs with h' | ⟨h', htr⟩ | ⟨h', hp⟩ | h'
        · exact h4 h'
        · exact h8 htr h'
        · exact htarget hp h'
        · exact hx (hu.goes_on hc hd ht hI (hN I hI) h')
  · intro hne
    obtain ⟨J, hJ⟩ := Option.ne_none_iff_exists'.mp hne
    cases hs : S.PS.StalledStages.IF with
    | true =>
      have hent := entering_of_stalled hs
      obtain ⟨_, K, _, hK⟩ := hi.clean.stalled hs
      rw [hiss, hent, occ_none, Nat.add_zero]
      exact hu.DE (hK ▸ Option.some_ne_none K)
    | false =>
      obtain ⟨hIF, hPC, -, htr⟩ := hc.comes_to_DE hd ht hN hc' hJ hs
      refine ⟨fun h4 => ?_, fun htr' h8 => ?_⟩
      · exact hu.PC (hc.pos (.inr (hIF ▸ Option.some_ne_none J))) (hPC.trans h4.symm)
      · obtain ⟨K, hK⟩ := Option.ne_none_iff_exists'.mp (htr.mp htr')
        obtain ⟨-, hPC', -⟩ := hc'.inv.front.fetching.IF K hK
        rw [expected_of_some hJ, following, hc'.paced.not_foretold hJ hK, if_neg Bool.false_ne_true,
          (hc'.inv.front.DE J hJ).1, BitVec.add_assoc] at hPC'
        exact hx (hPC'.trans h8.symm)

/-! ## Where the fetch PC comes to an address -/

/-- The fetch PC comes to `x` after `t` cycles where the run does so first, behind instruction `n`,
and no instruction up to there has led it astray to `x`. -/
structure Arrives (h : Hart) (pred : ℕ → Bool) (x : Address) (t n : ℕ) : Prop where
  PC : x = (h.after (n + 1)).PC
  first : ∀ k < n, x ≠ (h.after (k + 1)).PC
  unstray : ∀ k ≤ n, ¬h.Stray pred k x
  arrival : h.arrival pred n = t

/-- Instruction `m` leads the fetch PC astray to `x` before the run comes there. -/
structure Strays (h : Hart) (pred : ℕ → Bool) (x : Address) (m : ℕ) : Prop where
  stray : h.Stray pred m x
  first : ∀ k < m, x ≠ (h.after (k + 1)).PC

omit [BranchPredictor σ] in
/-- With `c` instructions written back, the number of those fetched, if the fetch has not
left the run. -/
def ahead (S : RIPSimulator σ) (c : ℕ) : ℕ := S.issued c + occ S.PS.Insts.DE + occ S.PS.Insts.IF

/-- The pipeline holds instructions of the run in their order, `c` of them having been written
back, and the fetch is where the run goes on behind them. -/
structure OnPath (h : Hart) (c : ℕ) (S : RIPSimulator σ) : Prop where
  MA : ∀ I, S.PS.Insts.MA = some I → S.PS.PCs.MA = (h.after c).PC
  EX : ∀ I, S.PS.Insts.EX = some I → S.PS.PCs.EX = (h.after (S.accessed c)).PC
  DE : ∀ I, S.PS.Insts.DE = some I → S.PS.PCs.DE = (h.after (S.issued c)).PC
  IF : ∀ I, S.PS.Insts.IF = some I →
    S.PS.PCs.IF = (h.after (S.issued c + occ S.PS.Insts.DE)).PC
  PC : S.PC = (h.after (S.ahead c)).PC

/-- The fetch PC has come to `x` on the path of the run, behind instruction `n`. -/
structure Arrived (h : Hart) (pred : ℕ → Bool) (x : Address) (t c n : ℕ) (S : RIPSimulator σ) :
    Prop where
  arrives : Arrives h pred x t n
  ahead : S.ahead c = n + 1
  onPath : OnPath h c S
  later : ∀ k, S.issued c ≤ k → k < n + 1 → t < h.entry pred k

/-- The fetch PC has come to `x`: with the run, or because an instruction has led it astray. -/
def Met (h : Hart) (pred : ℕ → Bool) (x : Address) (t c : ℕ) (S : RIPSimulator σ) : Prop :=
  (∃ n, Arrived h pred x t c n S) ∨ (∃ m, Strays h pred x m) ∧ ¬OnPath h c S

omit [BranchPredictor σ] in
/-- The back end is always on the path. -/
theorem Inv.onPath (hi : Inv h N c S)
    (hIF : ∀ I, S.PS.Insts.IF = some I →
      S.PS.PCs.IF = (h.after (S.issued c + occ S.PS.Insts.DE)).PC)
    (hPC : S.PC = (h.after (S.ahead c)).PC) : OnPath h c S :=
  ⟨fun I hI => (hi.back.MA I hI).PC, fun I hI => (hi.back.EX I hI).PC,
    fun I hI => (hi.front.DE I hI).1, hIF, hPC⟩

/-- A redirect, or a word that has come to nothing: the fetch PC waits for the next instruction. -/
theorem Unseen.comes_empty (hu : Unseen h pred x t c S) (hc : Clocked h N pred t c S)
    (hd : Regular h N) (ht : Through S A B M none)
    (hN : ∀ I, S.entering = some I → (S.issued c : ℕ∞) < N)
    (hc' : Clocked h N pred (t + 1) (S.accessed c) M.decoded.redirect.finish)
    (hx : M.decoded.redirect.finish.PC = x) (hDE : M.decoded.redirect.finish.PS.Insts.DE = none)
    (hIF : M.decoded.redirect.finish.PS.Insts.IF = none) :
    ∃ n, Arrived h pred x (t + 1) (S.accessed c) n M.decoded.redirect.finish := by
  have hi' := hc'.inv
  have hPC := hi'.front.fetching.bubble hIF
  rw [expected_of_none hDE, hx] at hPC
  have hWB := (Next.backEnd hc.inv.clean ht.cycle_none).1
  cases hm : M.decoded.redirect.finish.issued (S.accessed c) with
  | zero =>
    -- nothing has been executed, and nothing is in the pipeline
    have hne := Next.nonempty hc.inv.clean ht.cycle_none
    rw [issued_eq, RIPSimulator.accessed, RIPSimulator.accessed] at hm
    have hEX : M.decoded.redirect.finish.PS.Insts.EX = none := occ_eq_zero.mp (by omega)
    have hMA : M.decoded.redirect.finish.PS.Insts.MA = none := occ_eq_zero.mp (by omega)
    have hSMA : S.PS.Insts.MA = none := occ_eq_zero.mp (by omega)
    unfold PipelineStates.isEmpty at hne
    rw [hDE, hIF, hEX, hMA, hWB, hSMA] at hne
    exact absurd hne (by decide)
  | succ n =>
    rw [hm] at hPC
    have hshown := fun {k : ℕ} (hk : k < n + 1) => hu.shown (k := k) hc ht (hm ▸ hk)
    obtain ⟨rfl, I, hI⟩ := (hshown (Nat.lt_succ_self n)).2.2 hPC
    obtain ⟨hst, hSDE, -, hf⟩ := hc.inv.entering hI
    obtain ⟨h4, -, htarget⟩ := hu.front hc hI
    have hlive := hc.live I hf
    rw [hc.inv.dist_entering hI] at hlive
    refine ⟨S.issued c, ⟨hPC, ?_, fun k hk => (hshown (by omega)).1, ?_⟩, ?_, ?_, ?_⟩
    · intro k hk hx
      have := ((hshown (by omega)).2.2 hx).1
      omega
    · rw [Hart.arrival, if_neg (hPC ▸ h4)]
      cases hp : pred (S.issued c) with
      | false =>
        rw [if_neg Bool.false_ne_true]
        exact hlive.symm
      | true =>
        have hb := isBType_of_foretold ((hc.foretold I hSDE hst).trans hp)
        rcases hd.goes_on (hN I hI) hf hb with h' | h'
        · exact absurd (hPC.trans h') h4
        · exact absurd (hPC.trans h') (htarget hp)
    · rw [ahead, hm, hDE, hIF]
      rfl
    · refine hi'.onPath (fun J hJ => ?_) ?_
      · cases hIF.symm.trans hJ
      rw [ahead, hm, hDE, hIF, hx]
      exact hPC
    · intro k hk hk'
      rw [hm] at hk
      omega

/-- The instruction in IF is the next one of the run, and DE is empty. -/
theorem Unseen.comes_IF (hu : Unseen h pred x t c S) (hc : Clocked h N pred t c S)
    (ht : Through S A B M none)
    (hc' : Clocked h N pred (t + 1) (S.accessed c) M.decoded.redirect.finish)
    (hx : M.decoded.redirect.finish.PC = x) (hDE : M.decoded.redirect.finish.PS.Insts.DE = none)
    {J : Instruction} (hJ : M.decoded.redirect.finish.PS.Insts.IF = some J) :
    Met h pred x (t + 1) (S.accessed c) M.decoded.redirect.finish := by
  have hi' := hc'.inv
  obtain ⟨hPCIF, hPC, -⟩ := hi'.front.fetching.IF J hJ
  rw [expected_of_none hDE] at hPCIF hPC
  rw [hx] at hPC
  have hlive := hc'.live J (hi'.fetch_IF hDE hJ)
  have hst : M.decoded.redirect.finish.PS.StalledStages.IF = false := by
    by_contra hst
    obtain ⟨_, K, _, hK⟩ := hi'.clean.stalled (Bool.not_eq_false _ ▸ hst)
    cases hDE.symm.trans hK
  unfold dist at hlive
  rw [hst, if_neg Bool.false_ne_true, hDE, hJ] at hlive
  dsimp only at hlive
  have hahead : M.decoded.redirect.finish.ahead (S.accessed c) =
      M.decoded.redirect.finish.issued (S.accessed c) + 1 := by
    rw [ahead, hDE, hJ]
    rfl
  obtain ⟨m, hm⟩ : ∃ m, m = M.decoded.redirect.finish.issued (S.accessed c) := ⟨_, rfl⟩
  have hshown := fun {k : ℕ} (hk : k < m) => hu.shown (k := k) hc ht (hm ▸ hk)
  rw [← hm] at hPCIF hPC hlive hahead
  have hself : (h.after m).PC + 4 ≠ (h.after m).PC := by
    intro heq
    simp at heq
  have hfirst : ∀ k < m, x ≠ (h.after (k + 1)).PC := by
    intro k hk hx'
    obtain ⟨hk', I, hI⟩ := (hshown hk).2.2 hx'
    have hiss := hc.inv.issued_next ht
    rw [hI, occ_some, ← hk', ← hm] at hiss
    rw [← hiss] at hx'
    exact hself (hPC.symm.trans hx')
  by_cases hgo : (h.after (m + 1)).PC = x
  · left
    refine ⟨m, ⟨hgo.symm, hfirst, ?_, ?_⟩, hahead, hi'.onPath ?_ ?_, ?_⟩
    · intro k hk
      rcases Nat.lt_or_eq_of_le hk with hlt | rfl
      · exact (hshown hlt).1
      · rintro (⟨-, hne⟩ | ⟨-, -, hne⟩ | ⟨-, -, hne, -⟩)
        · exact hne hgo
        · exact hne (hgo.trans hPC)
        · exact hne hgo
    · rw [Hart.arrival, if_pos (hgo.trans hPC)]
      cases m with
      | zero =>
        have : h.entry pred 0 = 3 := rfl
        rw [Hart.inIF]
        omega
      | succ k =>
        rw [Hart.inIF, if_neg]
        · omega
        · rintro ⟨hseq, htr⟩
          refine (hshown (Nat.lt_succ_self k)).2.1 htr ?_
          rw [hPC, hseq, BitVec.add_assoc]
          rfl
    · intro K hK
      rw [hPCIF, hDE, ← hm]
      rfl
    · rw [hahead, hx, hgo]
    · intro k hk hk'
      rw [← hm] at hk
      obtain rfl : k = m := by omega
      omega
  · right
    refine ⟨⟨m, .inl ⟨hPC, hgo⟩, hfirst⟩, fun hp => hgo ?_⟩
    rw [← hahead, ← hp.PC, hx]

/-- Behind an instruction that is in DE after the cycle: the run has not come to `x` before it, and
the fetch PC is not the address behind it.  Only a word that has just been fetched is in IF. -/
theorem Unseen.behind (hu : Unseen h pred x t c S) (hc : Clocked h N pred t c S)
    (hd : Regular h N) (ht : Through S A B M none)
    (hN : ∀ I, S.entering = some I → (S.issued c : ℕ∞) < N)
    (hc' : Clocked h N pred (t + 1) (S.accessed c) M.decoded.redirect.finish) {J : Instruction}
    (hJ : M.decoded.redirect.finish.PS.Insts.DE = some J) :
    (∀ k < M.decoded.redirect.finish.issued (S.accessed c), x ≠ (h.after (k + 1)).PC) ∧
    x ≠ (h.after (M.decoded.redirect.finish.issued (S.accessed c))).PC + 4 ∧
    (M.decoded.redirect.finish.PS.Insts.IF = none →
      h.trails pred (M.decoded.redirect.finish.issued (S.accessed c)) = true →
      x ≠ (h.after (M.decoded.redirect.finish.issued (S.accessed c))).PC + 8) := by
  have hi := hc.inv
  have hiss := hi.issued_next ht
  cases hs : S.PS.StalledStages.IF with
  | true =>
    obtain ⟨_, K, _, hK⟩ := hi.clean.stalled hs
    have hent := entering_of_stalled hs
    obtain ⟨h4, h8⟩ := hu.DE (hK ▸ Option.some_ne_none K)
    rw [hent, occ_none, Nat.add_zero] at hiss
    rw [hiss]
    exact ⟨fun k hk hx => hu.issued k hk (.inr (.inr (.inr hx))), h4, fun _ => h8⟩
  | false =>
    obtain ⟨hIF, hPC, -, htr⟩ := hc.comes_to_DE hd ht hN hc' hJ hs
    have hpos := hc.pos (.inr (hIF ▸ Option.some_ne_none J))
    refine ⟨fun k hk hx => ?_, fun h4 => hu.PC hpos (hPC.trans h4.symm),
      fun hnone htr' => absurd hnone (htr.mp htr')⟩
    obtain ⟨rfl, I, hI⟩ := (hu.shown hc ht hk).2.2 hx
    -- the front end has gone on behind `I` by itself, to the next word
    obtain ⟨-, hDE, hPCDE, -⟩ := hi.entering hI
    obtain ⟨-, hPC', -⟩ := hi.front.fetching.IF J hIF
    rw [expected_of_some hDE, following, hc.paced.not_foretold hDE hIF, if_neg Bool.false_ne_true,
      hPCDE, hPC, hiss, hI, occ_some] at hPC'
    exact (hu.front hc hI).1 (hx.trans (add_right_cancel hPC'))

/-- The branch in DE has just been predicted taken. -/
theorem Unseen.comes_foretold (hu : Unseen h pred x t c S) (hc : Clocked h N pred t c S)
    (hd : Regular h N) (ht : Through S A B M none)
    (hN : ∀ I, S.entering = some I → (S.issued c : ℕ∞) < N)
    (hc' : Clocked h N pred (t + 1) (S.accessed c) M.decoded.redirect.finish)
    (hx : M.decoded.redirect.finish.PC = x) {J : Instruction}
    (hJ : M.decoded.redirect.finish.PS.Insts.DE = some J)
    (hfor : M.decoded.redirect.finish.foretold J = true) :
    Met h pred x (t + 1) (S.accessed c) M.decoded.redirect.finish := by
  have hi' := hc'.inv
  obtain ⟨hfirst, h4, h8⟩ := hu.behind hc hd ht hN hc' hJ
  obtain ⟨hPCDE, hfJ⟩ := hi'.front.DE J hJ
  have hIF := hc'.paced.foretold J hJ hfor
  have hst : M.decoded.redirect.finish.PS.StalledStages.IF = false := by
    by_contra hst
    have hno := foretold_of_stalled (Bool.not_eq_false _ ▸ hst) J
    exact absurd (hno.symm.trans hfor) Bool.false_ne_true
  have hp := (hc'.foretold J hJ hst).symm.trans hfor
  have hPC := hi'.front.fetching.bubble hIF
  rw [expected_of_some hJ, following, hfor, if_pos rfl, hPCDE, ← Hart.branchTarget_of_fetch hfJ, hx]
    at hPC
  have hlive := hc'.live J hfJ
  have hdist : M.decoded.redirect.finish.dist = 1 := by
    unfold dist
    rw [hst, if_neg Bool.false_ne_true, hJ]
  have hahead : M.decoded.redirect.finish.ahead (S.accessed c) =
      M.decoded.redirect.finish.issued (S.accessed c) + 1 := by
    rw [ahead, hJ, hIF]
    rfl
  obtain ⟨m, hm⟩ : ∃ m, m = M.decoded.redirect.finish.issued (S.accessed c) := ⟨_, rfl⟩
  have hshown := fun {k : ℕ} (hk : k < m) => hu.shown (k := k) hc ht (hm ▸ hk)
  rw [← hm] at hfirst h4 h8 hp hPC hlive hahead
  by_cases hgo : (h.after (m + 1)).PC = x
  · left
    refine ⟨m, ⟨hgo.symm, hfirst, ?_, ?_⟩, hahead, hi'.onPath ?_ ?_, ?_⟩
    · intro k hk
      rcases Nat.lt_or_eq_of_le hk with hlt | rfl
      · exact (hshown hlt).1
      · rintro (⟨hx', -⟩ | ⟨hx', htr, -⟩ | ⟨-, -, hne, -⟩)
        · exact h4 hx'
        · exact h8 hIF htr hx'
        · exact hne hgo
    · rw [Hart.arrival, if_neg (hgo ▸ h4), if_pos hp]
      omega
    · intro K hK
      cases hIF.symm.trans hK
    · rw [hahead, hx, hgo]
    · intro k hk hk'
      rw [← hm] at hk
      obtain rfl : k = m := by omega
      omega
  · right
    refine ⟨⟨m, .inr (.inr ⟨hPC, hp, hgo, fun hno => h8 hIF hno.2.1 hno.1⟩), hfirst⟩,
      fun hon => hgo ?_⟩
    rw [← hahead, ← hon.PC, hx]

/-- The word behind the instruction in DE has just come to IF. -/
theorem Unseen.comes_trailing (hu : Unseen h pred x t c S) (hc : Clocked h N pred t c S)
    (hd : Regular h N) (ht : Through S A B M none)
    (hN : ∀ I, S.entering = some I → (S.issued c : ℕ∞) < N)
    (hc' : Clocked h N pred (t + 1) (S.accessed c) M.decoded.redirect.finish)
    (hx : M.decoded.redirect.finish.PC = x) {J K : Instruction}
    (hJ : M.decoded.redirect.finish.PS.Insts.DE = some J)
    (hK : M.decoded.redirect.finish.PS.Insts.IF = some K) :
    Met h pred x (t + 1) (S.accessed c) M.decoded.redirect.finish := by
  have hi := hc.inv
  have hi' := hc'.inv
  obtain ⟨hfirst, h4, -⟩ := hu.behind hc hd ht hN hc' hJ
  obtain ⟨hPCDE, hfJ⟩ := hi'.front.DE J hJ
  obtain ⟨hPCIF, hPC, -⟩ := hi'.front.fetching.IF K hK
  rw [expected_of_some hJ, following, hc'.paced.not_foretold hJ hK, if_neg Bool.false_ne_true,
    hPCDE] at hPCIF hPC
  rw [hx, BitVec.add_assoc] at hPC
  have hmoving : S.PS.StalledStages.IF = false := by
    -- with a stall the fetch PC would have been `x` before the cycle
    by_contra hs
    rw [Bool.not_eq_false] at hs
    have hent := entering_of_stalled hs
    obtain ⟨hDE', hIF'⟩ := ht.kept (hi.clean.advance ht.advance) (hi.quiet_bubble ht hent).1
    rcases advance_ok ht.advance with ⟨-, rfl⟩ | ⟨hs', -⟩
    · rw [(hi.clean.shifted_insts hs).1] at hDE' hIF'
      have hSDE : S.PS.Insts.DE = some J := hDE'.symm.trans hJ
      have hSIF : S.PS.Insts.IF = some K := by
        rw [hK] at hIF'
        split_ifs at hIF'
        exact hIF'.symm
      obtain ⟨-, hSPC, -⟩ := hi.front.fetching.IF K hSIF
      rw [expected_of_some hSDE, following, foretold_of_stalled hs J, if_neg Bool.false_ne_true,
        (hi.front.DE J hSDE).1, BitVec.add_assoc] at hSPC
      rw [hi.issued_next ht, hent, occ_none, Nat.add_zero] at hPC
      exact hu.PC (hc.pos (.inl (hSDE ▸ Option.some_ne_none J))) (hSPC.trans hPC.symm)
    · exact absurd (hs.symm.trans hs') Bool.noConfusion
  obtain ⟨-, -, hinDE, htr⟩ := hc.comes_to_DE hd ht hN hc' hJ hmoving
  have htr := htr.mpr (hK ▸ Option.some_ne_none K)
  have hlive := hc'.live J hfJ
  have hdist := dist_pos M.decoded.redirect.finish
  have hahead : M.decoded.redirect.finish.ahead (S.accessed c) =
      M.decoded.redirect.finish.issued (S.accessed c) + 2 := by
    rw [ahead, hJ, hK]
    rfl
  obtain ⟨m, hm⟩ : ∃ m, m = M.decoded.redirect.finish.issued (S.accessed c) := ⟨_, rfl⟩
  have hshown := fun {k : ℕ} (hk : k < m) => hu.shown (k := k) hc ht (hm ▸ hk)
  rw [← hm] at hfirst h4 hPCIF hPC hinDE htr hlive hahead
  by_cases hseq : (h.after (m + 1)).PC = (h.after m).PC + 4
  swap
  · right
    refine ⟨⟨m, .inr (.inl ⟨hPC, htr, hseq⟩), hfirst⟩, fun hon => hseq ?_⟩
    rw [← hPCIF, hon.IF K hK, hJ, ← hm]
    rfl
  have hPC' : x = (h.after (m + 1)).PC + 4 := by
    rw [hPC, hseq, BitVec.add_assoc]
  have hfirst' : ∀ k < m + 1, x ≠ (h.after (k + 1)).PC := by
    intro k hk
    rcases Nat.lt_succ_iff_lt_or_eq.mp hk with hlt | rfl
    · exact hfirst k hlt
    · exact hseq ▸ h4
  by_cases hgo : (h.after (m + 2)).PC = x
  · left
    refine ⟨m + 1, ⟨hgo.symm, hfirst', ?_, ?_⟩, hahead, hi'.onPath ?_ ?_, ?_⟩
    · intro k hk
      rcases Nat.lt_or_eq_of_le hk with hlt | rfl
      · rcases Nat.lt_succ_iff_lt_or_eq.mp hlt with hlt | rfl
        · exact (hshown hlt).1
        · rintro (⟨hx', -⟩ | ⟨-, -, hne⟩ | ⟨-, -, -, hno⟩)
          · exact h4 hx'
          · exact hne hseq
          · exact hno ⟨hPC, htr, hseq⟩
      · rintro (⟨-, hne⟩ | ⟨-, -, hne⟩ | ⟨-, -, hne, -⟩)
        · exact hne hgo
        · exact hne (hgo.trans hPC')
        · exact hne hgo
    · rw [Hart.arrival, if_pos (hgo.trans hPC'), Hart.inIF, if_pos ⟨hseq, htr⟩, hinDE]
    · intro K' hK'
      obtain rfl := Option.some.inj (hK.symm.trans hK')
      rw [hPCIF, hJ, ← hm]
      exact hseq.symm
    · rw [hahead, hx, hgo]
    · intro k hk hk'
      rw [← hm] at hk
      have := @Hart.entry_le h pred m k hk
      omega
  · right
    refine ⟨⟨m + 1, .inl ⟨hPC', hgo⟩, hfirst'⟩, fun hon => hgo ?_⟩
    rw [← hahead, ← hon.PC, hx]

/-- **The cycle in which the fetch PC comes to an address.**  The run has come there with it, or an
instruction has led it astray. -/
theorem Unseen.comes (hu : Unseen h pred x t c S) (hc : Clocked h N pred t c S)
    (hd : Regular h N) (ht : Through S A B M none)
    (hN : ∀ I, S.entering = some I → (S.issued c : ℕ∞) < N)
    (hc' : Clocked h N pred (t + 1) (S.accessed c) M.decoded.redirect.finish)
    (hx : M.decoded.redirect.finish.PC = x) :
    Met h pred x (t + 1) (S.accessed c) M.decoded.redirect.finish := by
  cases hDE : M.decoded.redirect.finish.PS.Insts.DE with
  | none =>
    cases hIF : M.decoded.redirect.finish.PS.Insts.IF with
    | none => exact .inl (hu.comes_empty hc hd ht hN hc' hx hDE hIF)
    | some J => exact hu.comes_IF hc ht hc' hx hDE hIF
  | some J =>
    cases hfor : M.decoded.redirect.finish.foretold J with
    | true => exact hu.comes_foretold hc hd ht hN hc' hx hDE hfor
    | false =>
      cases hIF : M.decoded.redirect.finish.PS.Insts.IF with
      | some K => exact hu.comes_trailing hc hd ht hN hc' hx hDE hIF
      | none =>
        -- the fetch PC has stayed behind the instruction in DE
        obtain ⟨-, h4, -⟩ := hu.behind hc hd ht hN hc' hDE
        have hPC := hc'.inv.front.fetching.bubble hIF
        rw [expected_of_some hDE, following, hfor, if_neg Bool.false_ne_true,
          (hc'.inv.front.DE J hDE).1, hx] at hPC
        exact absurd hPC h4

end RIPSimulator

end RipSim
