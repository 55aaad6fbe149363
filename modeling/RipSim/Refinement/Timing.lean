import RipSim.Refinement.CycleCount
import RipSim.Pipeline.Stepping

/-!
# When an instruction is where

The penalties of the cycle count say in which cycle each instruction of the run enters EX
(`Hart.entry`).  From that the cycles follow in which it comes to DE and to IF, what has been
written back by then, and which words the fetch takes in behind it.  `Clocked` ties the pipeline to
these cycles.

The predictions are a parameter.  `Foretells` says that they are those which the predictor makes,
and `Started.exists_foretells` that every start has them.
-/

namespace RipSim

open RIPSimulator

namespace Hart

variable (h : Hart) (pred : ℕ → Bool)

/-! ## Cycles -/

/-- The number of cycles after which instruction `k` is in EX. -/
def entry (k : ℕ) : ℕ := 3 + h.cost true pred k

/-- Instruction `k` waits in DE for the load ahead of it. -/
def waits : ℕ → Bool
  | 0 => false
  | k + 1 =>
    match (h.after k).fetch, (h.after (k + 1)).fetch with
    | .ok (some I), .ok (some J) => I.isLoad && I.feeds J
    | _, _ => false

/-- The number of cycles after which instruction `k` is in DE. -/
def inDE (k : ℕ) : ℕ := h.entry pred k - if h.waits k then 2 else 1

/-- How many of the first `m` instructions have been in EX `lag` cycles before cycle `t`. -/
def passed (lag m t : ℕ) : ℕ := ((Finset.range m).filter fun k => h.entry pred k + lag ≤ t).card

/-- The word behind instruction `k` is fetched when `k` comes to DE, and stays in IF: it is an
instruction, and `k` is not at once predicted taken. -/
def trails (k : ℕ) : Bool :=
  (!pred k || h.waits k) &&
    match (h.after (h.passed pred 1 k (h.inDE pred k - 1))).Mem.readWord ((h.after k).PC + 4) with
    | .ok w => (Decoder.decode w).isSome
    | .error _ => false

/-- The number of cycles after which instruction `k` is in IF for the first time. -/
def inIF : ℕ → ℕ
  | 0 => 1
  | k + 1 =>
    if (h.after (k + 1)).PC = (h.after k).PC + 4 ∧ h.trails pred k = true then h.inDE pred k
    else h.entry pred (k + 1) - 2

/-- The number of cycles after which the fetch PC is that of instruction `n + 1`. -/
def arrival (n : ℕ) : ℕ :=
  if (h.after (n + 1)).PC = (h.after n).PC + 4 then h.inIF pred n
  else if pred n then h.entry pred n - 1
  else h.entry pred n

/-! ## Their order -/

variable {h pred} {j k m t lag a : ℕ}

theorem entry_succ : h.entry pred (k + 1) = h.entry pred k + 1 + h.penalty true pred k := by
  rw [entry, entry, cost_succ]
  omega

theorem entry_lt (hjk : j < k) : h.entry pred j < h.entry pred k := by
  induction k, hjk using Nat.le_induction with
  | base =>
    rw [entry_succ]
    omega
  | succ k _ ih =>
    rw [entry_succ]
    omega

theorem entry_le (hjk : j ≤ k) : h.entry pred j ≤ h.entry pred k := by
  rcases Nat.lt_or_eq_of_le hjk with hlt | rfl
  · exact (entry_lt hlt).le
  · exact le_rfl

/-- The instructions are in EX in their order, so those past it are the first ones. -/
theorem passed_eq (ham : a ≤ m) (hle : ∀ k < a, h.entry pred k + lag ≤ t)
    (hlt : ∀ k, a ≤ k → k < m → t < h.entry pred k + lag) : h.passed pred lag m t = a := by
  have hset : ((Finset.range m).filter fun k => h.entry pred k + lag ≤ t) = Finset.range a := by
    ext k
    rw [Finset.mem_filter, Finset.mem_range, Finset.mem_range]
    constructor
    · rintro ⟨hk, hle'⟩
      by_contra hge
      exact absurd hle' (Nat.not_le.mpr (hlt k (Nat.not_lt.mp hge) hk))
    · exact fun hk => ⟨hk.trans_le ham, hle k hk⟩
  rw [passed, hset, Finset.card_range]

theorem waits_succ {I J : Instruction} (hI : (h.after k).fetch = .ok (some I))
    (hJ : (h.after (k + 1)).fetch = .ok (some J)) :
    h.waits (k + 1) = (I.isLoad && I.feeds J) := by
  simp only [waits, hI, hJ]

/-- What waits is fed by a load, which costs a cycle. -/
theorem exists_of_waits {J : Instruction} (hw : h.waits (k + 1) = true)
    (hJ : (h.after (k + 1)).fetch = .ok (some J)) :
    ∃ I, (h.after k).fetch = .ok (some I) ∧ I.isLoad = true ∧ h.penalty true pred k = 1 := by
  cases hI : (h.after k).fetch with
  | error e =>
    simp only [waits, hI] at hw
    exact nomatch hw
  | ok o =>
    cases o with
    | none =>
      simp only [waits, hI] at hw
      exact nomatch hw
    | some I =>
      rw [waits_succ hI hJ, Bool.and_eq_true] at hw
      refine ⟨I, rfl, hw.1, ?_⟩
      unfold penalty
      rw [hI, hJ]
      dsimp only
      rw [if_pos hw.1, if_pos hw.2]

/-- Without a predictor nothing is predicted taken. -/
theorem penalty_watched {watched : Bool} (hw : watched = false → pred k = false) :
    h.penalty watched pred k = h.penalty true pred k := by
  cases watched with
  | true => rfl
  | false =>
    unfold penalty branchPenalty
    rw [hw rfl]
    simp only [Bool.false_eq_true, if_false, if_true, Bool.false_xor]

end Hart
namespace RIPSimulator

variable {σ : Type} {h : Hart} {N : ℕ∞} {pred : ℕ → Bool} {t c k : ℕ}
  {S A B M T : RIPSimulator σ}

/-! ## The cycles of the pipeline -/

/-- After `t` cycles the instructions are where `entry` has them, and the branch in DE is predicted
as in `pred`. -/
structure Clocked (h : Hart) (N : ℕ∞) (pred : ℕ → Bool) (t c : ℕ) (S : RIPSimulator σ) : Prop where
  inv : Inv h N c S
  paced : Paced h N S
  live : ∀ K, (h.after (S.issued c)).fetch = .ok (some K) →
    t + S.dist = h.entry pred (S.issued c)
  EX : ∀ k, S.issued c = k + 1 →
    h.entry pred k ≤ t ∧ (S.PS.Insts.EX ≠ none ↔ h.entry pred k = t)
  MA : ∀ k, S.accessed c = k + 1 →
    h.entry pred k + 1 ≤ t ∧ (S.PS.Insts.MA ≠ none ↔ h.entry pred k + 1 = t)
  /-- Behind a load the next instruction is in DE. -/
  load : ∀ I K, S.PS.Insts.EX = some I → I.isLoad = true →
    (h.after (S.issued c)).fetch = .ok (some K) → S.PS.Insts.DE ≠ none
  foretold : ∀ I, S.PS.Insts.DE = some I → S.PS.StalledStages.IF = false →
    S.foretold I = pred (S.issued c)

theorem Started.clocked {S : RIPSimulator σ} (h₀ : Started S) (N : ℕ∞) (pred : ℕ → Bool) :
    Clocked S.hart N pred 0 0 S := by
  obtain ⟨d, P, hPS⟩ := h₀.PS
  have hins := h₀.insts
  have hst : S.PS.StalledStages.IF = false := by rw [hPS]; rfl
  obtain ⟨hacc, hiss⟩ := issued_of_empty hins 0
  refine ⟨h₀.inv N, h₀.paced _ _, ?_, ?_, ?_, ?_, ?_⟩
  · intro K _
    unfold dist
    rw [hst, hins, hiss]
    rfl
  · intro k hk
    rw [hiss] at hk
    exact nomatch hk
  · intro k hk
    rw [hacc] at hk
    exact nomatch hk
  · intro I K hI
    rw [hins] at hI
    exact nomatch hI
  · intro I hI
    rw [hins] at hI
    exact nomatch hI

variable [BranchPredictor σ]

/-- Behind a load that enters EX the next instruction comes to DE. -/
theorem Inv.follows_load (hi : Inv h N c S) (hd : Regular h N) (hp : Paced h N S)
    (ht : Through S A B M none) {I K : Instruction} (hI : S.entering = some I)
    (hN : (S.issued c : ℕ∞) < N) (hl : I.isLoad = true)
    (hK : (h.after (S.issued c + 1)).fetch = .ok (some K)) :
    M.decoded.redirect.finish.PS.Insts.DE = some K := by
  have hA := hi.clean.advance ht.advance
  obtain ⟨hs, hDE, _⟩ := hi.entering hI
  obtain ⟨hb, htg⟩ : I.isBType = false ∧ B.target I = none := by
    cases I with
    | IInstruction IT =>
      cases IT with
      | lb | lh | lw | lbu | lhu => exact ⟨rfl, rfl⟩
      | _ => exact absurd hl Bool.false_ne_true
    | _ => exact absurd hl Bool.false_ne_true
  have hk := (hi.executed_flags hd ht hI hN).1
  rw [htg] at hk
  have hfol := (hi.target hd ht hI hN).2 htg
  have hle : ((S.issued c + 1 : ℕ) : ℕ∞) ≤ N := by exact_mod_cast Order.add_one_le_of_lt hN
  obtain ⟨w, hw, rfl⟩ : ∃ w, S.Mem.readWord S.PC = .ok w ∧ A = S.fetched w := by
    rcases advance_ok ht.advance with ⟨hs', _⟩ | ⟨_, w, hw, rfl⟩
    · exact absurd (hs.symm.trans hs') Bool.false_ne_true
    · exact ⟨w, hw, rfl⟩
  rw [(ht.kept hA hk).1, (hi.clean.fetched_insts hs w).1]
  change S.PS.Insts.IF = some K
  have hfor : S.foretold I = false := foretold_of_not_branch hb
  cases hJ : S.PS.Insts.IF with
  | none => exact nomatch (hp.dry I hDE hfor hJ _ hle hfol.symm).symm.trans hK
  | some J =>
    obtain ⟨_, _, h3⟩ := hi.front.fetching.IF J hJ
    have hexp : S.expected (h.after (S.issued c)).PC = (h.after (S.issued c + 1)).PC := by
      rw [expected_of_some hDE]
      exact hfol
    rw [Except.ok.inj ((h3 _ hle hexp.symm).symm.trans hK)]

/-- A load in EX stalls the instruction in DE exactly if this waits for it. -/
theorem Inv.stalls_iff (hi : Inv h N c S) (hd : Regular h N) (ht : Through S A B M none)
    (hi' : Inv h N (S.accessed c) M.decoded.redirect.finish) {I J : Instruction}
    (hI : S.entering = some I) (hN : (S.issued c : ℕ∞) < N)
    (hJ : M.decoded.redirect.finish.PS.Insts.DE = some J) :
    M.decoded.redirect.finish.PS.StalledStages.IF = h.waits (S.issued c + 1) := by
  have hiss := hi.issued_next ht
  rw [hI, occ_some] at hiss
  have hfJ := (hi'.front.DE J hJ).2
  rw [hiss] at hfJ
  have hA := hi.clean.advance ht.advance
  obtain ⟨hk, hst⟩ := hi.executed_flags hd ht hI hN
  rw [Hart.waits_succ (hi.entering hI).2.2.2 hfJ, (cycle_frame M).2.2.2.2.1, hst]
  change (I.isLoad && B.loadUses I) = _
  cases hk' : (B.target I).isSome with
  | true =>
    rw [hk'] at hk
    rw [ht.filled hA .none, hk] at hJ
    exact nomatch hJ
  | false =>
    rw [hk'] at hk
    have hBDE : B.PS.Insts.DE = some J := by
      rw [← (exec_frame ht.exec).Insts, ht.insts.1, ← (ht.kept hA hk).1, hJ]
    unfold loadUses
    rw [hBDE]
    rfl

/-- The awaited instruction enters EX when `entry` says so. -/
theorem Clocked.live_next (hc : Clocked h N pred t c S) (hd : Regular h N)
    (ht : Through S A B M none) (hN : ∀ I, S.entering = some I → (S.issued c : ℕ∞) < N)
    {K : Instruction} (hK : (h.after (S.issued c + occ S.entering)).fetch = .ok (some K)) :
    t + 1 + M.decoded.redirect.finish.dist = h.entry pred (S.issued c + occ S.entering) := by
  have hi := hc.inv
  cases hI : S.entering with
  | none =>
    rw [hI, occ_none, Nat.add_zero] at hK
    change _ = h.entry pred (S.issued c)
    rw [← hc.live K hK, ← hi.dist_bubble hd ht hI hK]
    omega
  | some I =>
    rw [hI] at hK
    rw [occ_some]
    obtain ⟨hs, hDE, -, hf⟩ := hi.entering hI
    have hlive := hc.live I hf
    rw [hi.dist_entering hI] at hlive
    have hp : pred (S.issued c) = S.foretold I := (hc.foretold I hDE hs).symm
    have hwatched : S.BP.isSome = false → pred (S.issued c) = false := by
      intro hB
      have hnone := Option.isNone_iff_eq_none.mp (Option.isSome_eq_false_iff.mp hB)
      rw [hp, RIPSimulator.foretold, hnone, Bool.and_false]
    rw [hi.dist_executed hd hc.paced ht hI (hN I hI) hK, hi.charge_eq hd ht hI (hN I hI) hK hp,
      Hart.penalty_watched hwatched, Hart.entry_succ]
    omega

theorem Clocked.next (hc : Clocked h N pred t c S) (hd : Regular h N) (ht : Through S A B M none)
    (hi' : Inv h N (S.accessed c) M.decoded.redirect.finish)
    (hN : ∀ I, S.entering = some I → (S.issued c : ℕ∞) < N)
    (hfor : ∀ I, M.decoded.redirect.finish.PS.Insts.DE = some I →
      M.decoded.redirect.finish.PS.StalledStages.IF = false →
      M.decoded.redirect.finish.foretold I =
        pred (M.decoded.redirect.finish.issued (S.accessed c))) :
    Clocked h N pred (t + 1) (S.accessed c) M.decoded.redirect.finish := by
  have hi := hc.inv
  have hiss := hi.issued_next ht
  obtain ⟨-, -, hMA, -, hEX⟩ := Next.backEnd hi.clean ht.cycle_none
  have hacc : M.decoded.redirect.finish.accessed (S.accessed c) = S.issued c := by
    rw [accessed, hMA]
    rfl
  refine ⟨hi', hc.paced.next hi hd ht, ?_, ?_, ?_, ?_, hfor⟩
  · intro K hK
    rw [hiss] at hK ⊢
    exact hc.live_next hd ht hN hK
  · intro k hk
    rw [hiss] at hk
    rw [hEX]
    cases hI : S.entering with
    | none =>
      rw [hI, occ_none, Nat.add_zero] at hk
      have := (hc.EX k hk).1
      refine ⟨by omega, fun hne => absurd rfl hne, fun heq => ?_⟩
      omega
    | some I =>
      rw [hI, occ_some] at hk
      obtain rfl : S.issued c = k := by omega
      have hlive := hc.live I (hi.entering hI).2.2.2
      rw [hi.dist_entering hI] at hlive
      exact ⟨hlive.ge, fun _ => hlive.symm, fun _ => Option.some_ne_none I⟩
  · intro k hk
    rw [hacc] at hk
    obtain ⟨hle, hiff⟩ := hc.EX k hk
    rw [hMA, hiff]
    omega
  · intro I K hI hl hK
    rw [hEX] at hI
    rw [hiss, hI, occ_some] at hK
    rw [hi.follows_load hd hc.paced ht hI (hN I hI) hl hK]
    exact Option.some_ne_none K

/-! ## What the cycles say -/

omit [BranchPredictor σ] in
/-- With an instruction in IF or in DE the first cycle is over. -/
theorem Clocked.pos (hc : Clocked h N pred t c S)
    (hfront : S.PS.Insts.DE ≠ none ∨ S.PS.Insts.IF ≠ none) : 0 < t := by
  have hi := hc.inv
  obtain ⟨K, hK⟩ : ∃ K, (h.after (S.issued c)).fetch = .ok (some K) := by
    cases hI : S.PS.Insts.DE with
    | some I => exact ⟨I, (hi.front.DE I hI).2⟩
    | none =>
      obtain ⟨J, hJ⟩ := Option.ne_none_iff_exists'.mp (hfront.resolve_left (absurd hI))
      exact ⟨J, hi.fetch_IF hI hJ⟩
  have hlive := hc.live K hK
  have hle : S.dist ≤ 2 := by
    unfold dist
    cases hI : S.PS.Insts.DE with
    | some I =>
      dsimp only
      split_ifs <;> omega
    | none =>
      obtain ⟨J, hJ⟩ := Option.ne_none_iff_exists'.mp (hfront.resolve_left (absurd hI))
      rw [hJ]
      dsimp only
      split_ifs <;> omega
  have : 3 ≤ h.entry pred (S.issued c) := Nat.le_add_right 3 _
  omega

omit [BranchPredictor σ] in
/-- The instructions past MA are those that `entry` has there. -/
theorem Clocked.accessed_eq (hc : Clocked h N pred t c S) {m : ℕ} (hm : S.accessed c ≤ m)
    (hlater : ∀ k, S.issued c ≤ k → k < m → t < h.entry pred k) :
    h.passed pred 1 m t = S.accessed c := by
  refine Hart.passed_eq hm ?_ ?_
  · intro k hk
    obtain ⟨a, ha⟩ := Nat.exists_eq_succ_of_ne_zero (Nat.ne_of_gt (Nat.zero_lt_of_lt hk))
    have := (hc.MA a ha).1
    have := @Hart.entry_le h pred k a (by omega)
    omega
  · intro k hk hkm
    rcases Nat.lt_or_ge k (S.issued c) with hlt | hge
    · rw [issued_eq] at hlt
      cases hEX : S.PS.Insts.EX with
      | none =>
        rw [hEX, occ_none] at hlt
        omega
      | some I =>
        rw [hEX, occ_some] at hlt
        have hk' : S.issued c = k + 1 := by
          rw [issued_eq, hEX, occ_some]
          omega
        have := (hc.EX k hk').2.mp (hEX ▸ Option.some_ne_none I)
        omega
    · have := hlater k hge hkm
      omega

omit [BranchPredictor σ] in
/-- And so are those written back. -/
theorem Clocked.written_eq (hc : Clocked h N pred t c S) {m : ℕ} (hm : c ≤ m)
    (hlater : ∀ k, S.issued c ≤ k → k < m → t < h.entry pred k) :
    h.passed pred 2 m t = c := by
  refine Hart.passed_eq hm ?_ ?_
  · intro k hk
    obtain ⟨a, rfl⟩ := Nat.exists_eq_succ_of_ne_zero (Nat.ne_of_gt (Nat.zero_lt_of_lt hk))
    have hle := @Hart.entry_le h pred k a (by omega)
    cases hMA : S.PS.Insts.MA with
    | none =>
      have hacc : S.accessed (a + 1) = a + 1 := by rw [accessed, hMA, occ_none]
      obtain ⟨h1, h2⟩ := hc.MA a hacc
      have : ¬h.entry pred a + 1 = t := fun heq => h2.mpr heq hMA
      omega
    | some I =>
      have hacc : S.accessed (a + 1) = a + 1 + 1 := by rw [accessed, hMA, occ_some]
      have h1 := (hc.MA (a + 1) hacc).1
      have := @Hart.entry_lt h pred k (a + 1) (by omega)
      omega
  · intro k hk hkm
    rcases Nat.lt_or_ge k (S.accessed c) with hlt | hge
    · cases hMA : S.PS.Insts.MA with
      | none =>
        rw [accessed, hMA, occ_none] at hlt
        omega
      | some I =>
        have hk' : S.accessed c = k + 1 := by
          rw [accessed, hMA, occ_some] at hlt ⊢
          omega
        have := (hc.MA k hk').2.mp (hMA ▸ Option.some_ne_none I)
        omega
    · have hm' : h.passed pred 1 m t = S.accessed c := hc.accessed_eq (hge.trans hkm.le) hlater
      rcases Nat.lt_or_ge k (S.issued c) with hlt | hge'
      · cases hEX : S.PS.Insts.EX with
        | none =>
          rw [issued_eq, hEX, occ_none] at hlt
          omega
        | some I =>
          have hk' : S.issued c = k + 1 := by
            rw [issued_eq, hEX, occ_some] at hlt ⊢
            omega
          have := (hc.EX k hk').2.mp (hEX ▸ Option.some_ne_none I)
          omega
      · have := hlater k hge' hkm
        omega

/-- A cycle that kills nothing and executes something leads the front end on: what it expects behind
EX is the next instruction of the run. -/
theorem Inv.expected_next (hi : Inv h N c S) (hd : Regular h N) (ht : Through S A B M none)
    (hN : ∀ I, S.entering = some I → (S.issued c : ℕ∞) < N) (hk : kills M none = false)
    (hs : S.PS.StalledStages.IF = false) :
    S.expected (h.after (S.issued c)).PC =
      (h.after (M.decoded.redirect.finish.issued (S.accessed c))).PC := by
  have hent : S.entering = S.PS.Insts.DE := entering_of_moving hs
  rw [hi.issued_next ht, hent]
  cases hI : S.PS.Insts.DE with
  | none => exact expected_of_none hI _
  | some I =>
    have hI' : S.entering = some I := hent.trans hI
    have hkt := (hi.executed_flags hd ht hI' (hN I hI')).1
    rw [hk] at hkt
    rw [expected_of_some hI]
    refine (hi.target hd ht hI' (hN I hI')).2 ?_
    exact Option.isNone_iff_eq_none.mp (Option.isSome_eq_false_iff.mp hkt.symm)

omit [BranchPredictor σ] in
/-- What comes to DE behind a bubble has waited for nothing: behind a load it would not have come
that late. -/
theorem Clocked.not_waits (hc : Clocked h N pred t c S) (hs : S.PS.StalledStages.IF = false)
    (hDE : S.PS.Insts.DE = none) {J : Instruction} (hIF : S.PS.Insts.IF = some J)
    (hf : (h.after (S.issued c)).fetch = .ok (some J)) : h.waits (S.issued c) = false := by
  by_contra hw
  rw [Bool.not_eq_false] at hw
  cases hm : S.issued c with
  | zero =>
    rw [hm] at hw
    exact nomatch hw
  | succ k =>
    rw [hm] at hw hf
    obtain ⟨I, hfI, hload, hpen⟩ := @Hart.exists_of_waits h pred k J hw hf
    have hlive := hc.live J (hm ▸ hf)
    have hdist : S.dist = 2 := by
      unfold dist
      rw [hs, if_neg Bool.false_ne_true, hDE, hIF]
    rw [hdist, hm, Hart.entry_succ, hpen] at hlive
    -- so the load ahead is in EX, with nothing in DE
    have hEX := (hc.EX k hm).2.mpr (by omega)
    obtain ⟨X, hX⟩ := Option.ne_none_iff_exists'.mp hEX
    have hacc : S.accessed c = k := by
      rw [issued_eq, hX, occ_some] at hm
      omega
    have hfX := (hc.inv.back.EX X hX).fetch
    rw [hacc] at hfX
    obtain rfl := Option.some.inj (Except.ok.inj (hfX.symm.trans hfI))
    exact hc.load X J hX hload (hm ▸ hf) hDE

/-- An instruction that comes to DE is stalled there exactly if it waits. -/
theorem Clocked.waits_eq (hc : Clocked h N pred t c S) (hd : Regular h N)
    (ht : Through S A B M none) (hN : ∀ I, S.entering = some I → (S.issued c : ℕ∞) < N)
    (hi' : Inv h N (S.accessed c) M.decoded.redirect.finish) {J : Instruction}
    (hJ : M.decoded.redirect.finish.PS.Insts.DE = some J) (hs : S.PS.StalledStages.IF = false)
    (hIF : S.PS.Insts.IF = some J) :
    h.waits (M.decoded.redirect.finish.issued (S.accessed c)) =
      M.decoded.redirect.finish.PS.StalledStages.IF := by
  have hi := hc.inv
  have hiss := hi.issued_next ht
  have hfJ := (hi'.front.DE J hJ).2
  have hent : S.entering = S.PS.Insts.DE := entering_of_moving hs
  cases hI : S.PS.Insts.DE with
  | some I =>
    have hI' : S.entering = some I := hent.trans hI
    rw [hi.stalls_iff hd ht hi' hI' (hN I hI') hJ, hiss, hI', occ_some]
  | none =>
    have hI' : S.entering = none := hent.trans hI
    have hst : M.decoded.redirect.finish.PS.StalledStages.IF = false := by
      rw [(cycle_frame M).2.2.2.2.1, (hi.quiet_bubble ht hI').2]
      rfl
    rw [hiss, hI', occ_none, Nat.add_zero] at hfJ ⊢
    rw [hst, hc.not_waits hs hI hIF hfJ]

omit [BranchPredictor σ] in
/-- An instruction in DE that has come there after `t` cycles. -/
theorem Clocked.inDE_eq (hc : Clocked h N pred t c S) {J : Instruction}
    (hJ : S.PS.Insts.DE = some J) (hw : h.waits (S.issued c) = S.PS.StalledStages.IF) :
    h.inDE pred (S.issued c) = t := by
  have hlive := hc.live J (hc.inv.front.DE J hJ).2
  unfold dist at hlive
  rw [hJ] at hlive
  unfold Hart.inDE
  rw [hw]
  cases hst : S.PS.StalledStages.IF with
  | true =>
    rw [hst, if_pos rfl] at hlive
    rw [if_pos rfl]
    omega
  | false =>
    rw [hst, if_neg Bool.false_ne_true] at hlive
    rw [if_neg Bool.false_ne_true]
    dsimp only at hlive
    omega

/-- An instruction that has just come to DE: where it was, and what has come to IF behind it. -/
theorem Clocked.comes_to_DE (hc : Clocked h N pred t c S) (hd : Regular h N)
    (ht : Through S A B M none) (hN : ∀ I, S.entering = some I → (S.issued c : ℕ∞) < N)
    (hc' : Clocked h N pred (t + 1) (S.accessed c) M.decoded.redirect.finish) {J : Instruction}
    (hJ : M.decoded.redirect.finish.PS.Insts.DE = some J) (hs : S.PS.StalledStages.IF = false) :
    S.PS.Insts.IF = some J ∧
    S.PC = (h.after (M.decoded.redirect.finish.issued (S.accessed c))).PC + 4 ∧
    h.inDE pred (M.decoded.redirect.finish.issued (S.accessed c)) = t + 1 ∧
    (h.trails pred (M.decoded.redirect.finish.issued (S.accessed c)) = true ↔
      M.decoded.redirect.finish.PS.Insts.IF ≠ none) := by
  have hi := hc.inv
  have hi' := hc'.inv
  have hA := hi.clean.advance ht.advance
  have hiss := hi.issued_next ht
  have hk : kills M none = false := by
    by_contra hk
    rw [Bool.not_eq_false] at hk
    rw [ht.filled hA .none, hk] at hJ
    exact nomatch hJ
  obtain ⟨hDE, hIF⟩ := ht.kept hA hk
  obtain ⟨w, hw, rfl⟩ : ∃ w, S.Mem.readWord S.PC = .ok w ∧ A = S.fetched w := by
    rcases advance_ok ht.advance with ⟨hs', _⟩ | ⟨_, w, hw, rfl⟩
    · exact absurd (hs.symm.trans hs') Bool.false_ne_true
    · exact ⟨w, hw, rfl⟩
  have hins := hi.clean.fetched_insts hs w
  have hSIF : S.PS.Insts.IF = some J := by
    rw [← hJ, hDE, hins.1]
  obtain ⟨-, hPC, -⟩ := hi.front.fetching.IF J hSIF
  rw [hi.expected_next hd ht hN hk hs] at hPC
  have hwaits := hc.waits_eq hd ht hN hi' hJ hs hSIF
  have hinDE := hc'.inDE_eq hJ hwaits
  refine ⟨hSIF, hPC, hinDE, ?_⟩
  have hpassed : h.passed pred 1 (M.decoded.redirect.finish.issued (S.accessed c)) t =
      S.accessed c := by
    refine hc.accessed_eq ?_ ?_
    · rw [hiss]
      exact (Nat.le_add_right _ _).trans (Nat.le_add_right _ _)
    · intro k hk hkm
      rw [hiss] at hkm
      cases hI : S.entering with
      | none =>
        rw [hI, occ_none] at hkm
        omega
      | some I =>
        rw [hI, occ_some] at hkm
        obtain rfl : k = S.issued c := by omega
        have hlive := hc.live I (hi.entering hI).2.2.2
        have := dist_pos S
        omega
  -- the word behind is fetched in this cycle, and stays in IF unless DE is predicted taken
  have hst := (exec_stall ht.exec (ht.atRest hA)).1
  have hMDE : M.PS.Insts.DE = some J := by rw [ht.insts.1, ← hDE, hJ]
  have hpred := decoded_foretold hMDE hst
  rw [hIF, Hart.trails, hinDE, Nat.add_sub_cancel, hpassed, ← hPC, ← hi.back.Mem, hw, ← hpred,
    hins.1, hwaits]
  cases hst' : M.decoded.redirect.finish.PS.StalledStages.IF with
  | true =>
    rw [foretold_of_stalled hst' J, if_neg Bool.false_ne_true, Bool.or_true, Bool.true_and]
    exact Option.isSome_iff_ne_none
  | false =>
    rw [hc'.foretold J hJ hst', Bool.or_false]
    cases pred (M.decoded.redirect.finish.issued (S.accessed c)) with
    | true => simp
    | false =>
      rw [if_neg Bool.false_ne_true, Bool.not_false, Bool.true_and]
      exact Option.isSome_iff_ne_none

/-! ## Predictions -/

/-- The states that the cycles go through, by their number and that of the instructions written
back. -/
inductive Visits (S₀ : RIPSimulator σ) : ℕ → ℕ → RIPSimulator σ → Prop
  | start : Visits S₀ 0 0 S₀
  | cycle {t c : ℕ} {S T : RIPSimulator σ} : Visits S₀ t c S → Next S T →
      Visits S₀ (t + 1) (S.accessed c) T

/-- The branches of the run are predicted as in `pred` when they wait in DE. -/
def Foretells (S₀ : RIPSimulator σ) (pred : ℕ → Bool) : Prop :=
  ∀ t c S I, Visits S₀ t c S → S.PS.Insts.DE = some I → S.PS.StalledStages.IF = false →
    S.foretold I = pred (S.issued c)

variable {S₀ : RIPSimulator σ}

theorem Visits.clean (hv : Visits S₀ t c S) (h₀ : Started S₀) : Clean S := by
  induction hv with
  | start => exact h₀.clean
  | cycle _ hn ih => exact ih.next hn

theorem Next.issued (hc : Clean S) (hn : Next S T) (c : ℕ) :
    T.issued (S.accessed c) = S.issued c + occ S.entering := by
  obtain ⟨-, -, hMA, -, hEX⟩ := hn.backEnd hc
  rw [issued_eq, issued_eq, RIPSimulator.accessed, hMA, hEX]

/-- The cycles go one way. -/
theorem Visits.unique (hv : Visits S₀ t c S) {c' : ℕ} (hv' : Visits S₀ t c' T) :
    c = c' ∧ S = T := by
  induction hv generalizing c' T with
  | start =>
    cases hv'
    exact ⟨rfl, rfl⟩
  | cycle hv hn ih =>
    cases hv' with
    | cycle hv' hn' =>
      obtain ⟨rfl, rfl⟩ := ih hv'
      exact ⟨rfl, (Prod.mk.inj (Except.ok.inj (hn.symm.trans hn'))).2⟩

/-- An instruction that waits in DE without a stall enters EX in the next cycle. -/
theorem Visits.issued_lt (hv : Visits S₀ t c S) (h₀ : Started S₀) {t' c' : ℕ}
    (hv' : Visits S₀ t' c' T) (htt : t < t') {I : Instruction} (hI : S.PS.Insts.DE = some I)
    (hs : S.PS.StalledStages.IF = false) : S.issued c < T.issued c' := by
  induction hv' with
  | start => exact (Nat.not_lt_zero t htt).elim
  | cycle hv' hn ih =>
    rw [hn.issued (hv'.clean h₀)]
    rcases Nat.lt_succ_iff_lt_or_eq.mp htt with hlt | rfl
    · exact Nat.lt_add_right _ (ih hlt)
    · obtain ⟨rfl, rfl⟩ := hv.unique hv'
      rw [entering_of_moving hs, hI, occ_some]
      exact Nat.lt_succ_self _

/-- **Every start has its predictions.**  Each instruction waits in DE without a stall once. -/
theorem Started.exists_foretells (h₀ : Started S₀) : ∃ pred, Foretells S₀ pred := by
  classical
  refine ⟨fun k => decide (∃ t c S I, Visits S₀ t c S ∧ S.PS.Insts.DE = some I ∧
    S.PS.StalledStages.IF = false ∧ S.issued c = k ∧ S.foretold I = true),
    fun t c S I hv hI hs => ?_⟩
  cases hfor : S.foretold I with
  | true => exact (decide_eq_true ⟨t, c, S, I, hv, hI, hs, rfl, hfor⟩).symm
  | false =>
    refine (decide_eq_false ?_).symm
    rintro ⟨t', c', T, J, hv', hJ, hs', hk, hfor'⟩
    obtain rfl : t = t' := by
      rcases Nat.lt_trichotomy t t' with hlt | rfl | hlt
      · exact absurd hk.symm (hv.issued_lt h₀ hv' hlt hI hs).ne
      · rfl
      · exact absurd hk (hv'.issued_lt h₀ hv hlt hJ hs').ne
    obtain ⟨rfl, rfl⟩ := hv.unique hv'
    obtain rfl := Option.some.inj (hI.symm.trans hJ)
    exact absurd (hfor.symm.trans hfor') Bool.false_ne_true

theorem Visits.BP_eq_none (hv : Visits S₀ t c S) (hBP : S₀.BP = none) : S.BP = none := by
  induction hv with
  | start => exact hBP
  | cycle _ hn ih => exact hn.unpredicted ih

/-- Without a predictor no branch is predicted taken. -/
theorem foretells_of_BP_eq_none (hBP : S₀.BP = none) : Foretells S₀ fun _ => false := by
  intro t c S I hv _ _
  unfold RIPSimulator.foretold
  rw [hv.BP_eq_none hBP, Bool.and_false]

end RIPSimulator

end RipSim
