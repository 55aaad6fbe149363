import RipSim.Library.Mistakes
import RipSim.Predictors.TwoBit
import RipSim.Refinement.Predictions
import RipSim.Refinement.Replay

/-!
# Mistakes of the predictors

The one-bit, the two-bit and the Gshare predictor keep a table of cells, and the predictor's log
says which cells were trained with which outcomes (`trainings`): predictions on the wrong path
leave the table alone.  So the number of wrong predictions of any run is bounded by the best
assignment of a fixed prediction to each entry of the table (`mistakes_bounded`), and for the
tables that the address indexes the bound carries over to the clock (`cycles_bounded`).
-/

namespace RipSim

open Mistakes

/-! ## Tables -/

/-- The cell of the one-bit predictor: an absent entry predicts not taken. -/
def bitCell : Learner (Option Bool) := ⟨(·.getD false), fun _ cond => some cond⟩

/-- The cell of the two-bit and the Gshare predictor. -/
def counterCell : Learner (Option ℤ) := ⟨predicts, fun e cond => some (learnCounter e cond)⟩

theorem pays_bitCell : Pays bitCell (fun b e => tick (e.getD false != b)) 2 := by
  unfold Pays
  decide

/-- How far a counter is from predicting `b`. -/
def counterDistance : Bool → Option ℤ → ℕ
  | true, none => 3
  | true, some v => (2 - v).toNat
  | false, none => 0
  | false, some v => (v - 1).toNat

theorem pays_counterCell : Pays counterCell counterDistance 2 := by
  intro b e c
  cases e with
  | none => cases b <;> cases c <;> decide
  | some v =>
    rw [show counterCell.guess (some v) = decide (2 ≤ v) from rfl,
      show counterCell.learn (some v) c = some (learnCounter (some v) c) from rfl]
    cases b <;> cases c <;> by_cases hv : 2 ≤ v <;>
      simp [tick, counterDistance, learnCounter, hv] <;> omega

section Tabled

variable {σ α : Type} [BranchPredictor σ]

/-- The predictor keeps a table of cells, uses and trains the one of its index, and is left
alone by its predictions. -/
structure Tabled (L : Learner α) (index : σ → Address → Word) (entry : σ → Word → α) : Prop where
  predict : ∀ (B : σ) PC, (BranchPredictor.Predict B PC).1 = L.guess (entry B (index B PC))
  predict_self : ∀ (B : σ) PC, (BranchPredictor.Predict B PC).2 = B
  learn_entry : ∀ (B : σ) cond PC, entry (BranchPredictor.Learn B cond PC) =
    Function.update (entry B) (index B PC) (L.learn (entry B (index B PC)) cond)

/-- The entries that a log trains, with the outcomes. -/
def trainings (index : σ → Address → Word) (self₀ : σ) : List BPCall → List (Word × Bool)
  | [] => []
  | .Predict _ _ :: cs => trainings index self₀ cs
  | .Learn cond PC :: cs => (index (replay self₀ cs) PC, cond) :: trainings index self₀ cs

variable {L : Learner α} {index : σ → Address → Word} {entry : σ → Word → α} {self₀ : σ}

/-- The table of the predictor is the table of its trainings. -/
theorem Tabled.entry_replay (h : Tabled L index entry) (cs : List BPCall) :
    entry (replay self₀ cs) = table L (entry self₀) (trainings index self₀ cs) := by
  induction cs with
  | nil => rfl
  | cons c cs ih =>
    cases c with
    | Predict PC p =>
      rw [replay, h.predict_self, trainings]
      exact ih
    | Learn cond PC => rw [replay, h.learn_entry, trainings, table, ih]

/-- The wrong predictions of a log are the mistakes of the table. -/
theorem Tabled.misses_eq (h : Tabled L index entry) {cs : List BPCall} (hp : Paired cs)
    (hh : Honest self₀ cs) :
    misses cs = mistakes L (entry self₀) (trainings index self₀ cs) := by
  induction hp using Paired.induction with
  | nil => rfl
  | predict PC p cs _ ih =>
    rw [misses, resolved_predict, trainings]
    exact ih hh.2
  | learn cond PC p cs _ ih =>
    have hbit : L.guess (table L (entry self₀) (trainings index self₀ cs)
        (index (replay self₀ cs) PC)) = p := by
      rw [← h.entry_replay, ← h.predict]
      exact hh.1
    rw [misses, resolved_learn, List.countP_cons, trainings, mistakes, trainings, replay,
      h.predict_self, hbit, ← ih hh.2]
    rfl

/-- If the index is a function of the address, the trainings can be read off the resolved
branches. -/
theorem trainings_eq (address : Address → Word) {cs : List BPCall} (hp : Paired cs) :
    trainings (fun _ => address) self₀ cs = (resolved cs).map fun x => (address x.1, x.2.2) := by
  induction hp using Paired.induction with
  | nil => rfl
  | predict PC p cs _ ih =>
    rw [resolved_predict, trainings]
    exact ih
  | learn cond PC p cs _ ih =>
    rw [resolved_learn, List.map_cons, trainings, trainings, ih]

end Tabled

theorem OneBitBranchPredictor.tabled : Tabled bitCell (fun _ => BHTIndex) BranchHistoryTable :=
  ⟨fun _ _ => rfl, fun _ _ => rfl, fun _ _ _ => rfl⟩

/-- A predictor with a table of counters that its predictions leave alone. -/
theorem CounterTable.tabled {σ : Type} [BranchPredictor σ] {index : σ → Address → Word}
    {entry : σ → Word → Option ℤ} (h : CounterTable index entry)
    (hself : ∀ (B : σ) PC, (BranchPredictor.Predict B PC).2 = B) : Tabled counterCell index entry :=
  ⟨h.predict, hself, h.learn_entry⟩

theorem TwoBitBranchPredictor.tabled :
    Tabled counterCell (fun _ => wordIndex) BranchHistoryTable :=
  TwoBitBranchPredictor.counterTable.tabled fun _ _ => rfl

theorem GshareBranchPredictor.tabled :
    Tabled counterCell GshareBranchPredictor.index BranchHistoryTable :=
  GshareBranchPredictor.counterTable.tabled fun _ _ => rfl

/-! ## The mistakes of a run -/

open RIPSimulator

section Runs

variable {σ α : Type} [BranchPredictor σ] {L : Learner α} {index : σ → Address → Word}
  {entry : σ → Word → α} {self₀ : σ} {φ : Bool → α → ℕ} {m r : ℕ}

/-- In every state of every run the wrong predictions are at most `m` for each entry that is
trained and `r` for each outcome that deviates from a fixed prediction of its entry. -/
def Competitive (index : σ → Address → Word) (self₀ : σ) (m r : ℕ) : Prop :=
  ∀ (S₀ S S' : RIPSimulator σ) (x : Exit), Started S₀ → S₀.BP = some (BPBase.new self₀) →
    Runs.Reaches Next S₀ S → S.cycle = .ok (x, S') →
    ∃ P, S'.BP = some P ∧ ∀ b : Word → Bool, misses P.calls ≤
      m * (keys (trainings index self₀ P.calls)).card +
        r * deviations b (trainings index self₀ P.calls)

theorem Tabled.misses_le (h : Tabled L index entry) (hL : Pays L φ r)
    (hm : ∀ b k, φ b (entry self₀ k) ≤ m) (b : Word → Bool) {cs : List BPCall} (hp : Paired cs)
    (hh : Honest self₀ cs) :
    misses cs ≤ m * (keys (trainings index self₀ cs)).card +
      r * deviations b (trainings index self₀ cs) := by
  rw [h.misses_eq hp hh]
  exact mistakes_le hL hm b _

theorem Tabled.competitive (h : Tabled L index entry) (hL : Pays L φ r)
    (hm : ∀ b k, φ b (entry self₀ k) ≤ m) : Competitive index self₀ m r := by
  intro S₀ S S' x h₀ hB hr hx
  obtain ⟨P, hP, hpaired, hR⟩ := h₀.replayed_cycle hB hr hx
  exact ⟨P, hP, fun b => h.misses_le hL hm b hpaired hR.honest⟩

end Runs

theorem bitDistance_none (b : Bool) : tick ((none : Option Bool).getD false != b) ≤ 1 := by
  cases b <;> decide

theorem counterDistance_none (b : Bool) : counterDistance b none ≤ 3 := by
  cases b <;> decide

/-- **The mistakes of the predictors.**  In every run, traps and squashed branches included, and
for every assignment of a fixed prediction to each entry of the table: the one-bit predictor is
wrong at most once for each entry that is used, and twice for each outcome that deviates from the
prediction of its entry; the two-bit and the Gshare predictor are wrong at most three times for
each entry, and twice for each deviation. -/
theorem mistakes_bounded :
    Competitive (fun _ => OneBitBranchPredictor.BHTIndex) OneBitBranchPredictor.new 1 2 ∧
    Competitive (fun _ => wordIndex) TwoBitBranchPredictor.new 3 2 ∧
    Competitive GshareBranchPredictor.index GshareBranchPredictor.new 3 2 :=
  ⟨OneBitBranchPredictor.tabled.competitive pays_bitCell fun b _ => bitDistance_none b,
    TwoBitBranchPredictor.tabled.competitive pays_counterCell fun b _ => counterDistance_none b,
    GshareBranchPredictor.tabled.competitive pays_counterCell fun b _ => counterDistance_none b⟩

/-- The one-bit predictor is wrong twice on `countdown`: when its branch is first taken, and when it
no longer is. -/
theorem mistakes_bounded_countdown :
    ∃ (S S' : RIPSimulator OneBitBranchPredictor) (P : BPBase OneBitBranchPredictor),
      Runs.Reaches Next (boot countdown (some OneBitBranchPredictor.new)) S ∧ Next S S' ∧
      S'.BP = some P ∧ misses P.calls = 2 ∧
      ∀ b : Word → Bool, misses P.calls ≤
        1 * (keys (trainings (fun _ => OneBitBranchPredictor.BHTIndex) OneBitBranchPredictor.new
          P.calls)).card +
        2 * deviations b (trainings (fun _ => OneBitBranchPredictor.BHTIndex)
          OneBitBranchPredictor.new P.calls) := by
  have h : ((after 11 (boot countdown (some OneBitBranchPredictor.new))).bind fun S =>
      (after 1 S).bind fun S' => S'.BP.map fun P => misses P.calls) = some 2 := by
    decide +kernel
  obtain ⟨S, hS, h⟩ := Option.bind_eq_some_iff.mp h
  obtain ⟨S', hS', h⟩ := Option.bind_eq_some_iff.mp h
  obtain ⟨P, hP, hmisses⟩ := Option.map_eq_some_iff.mp h
  have hn := next_of_after_one hS'
  obtain ⟨P', hP', hbound⟩ := mistakes_bounded.1 _ S S' .next (started_boot _ _) rfl
    (reaches_after hS) hn
  obtain rfl := Option.some.inj (hP.symm.trans hP')
  exact ⟨S, S', P, reaches_after hS, hn, hP, hmisses, hbound⟩

/-! ## The clock -/

/-- What a program in the domain needs to end after `n` instructions. -/
structure Ends {σ : Type} [BranchPredictor σ] (S₀ : RIPSimulator σ) (n : ℕ) : Prop where
  started : Started S₀
  pos : 1 ≤ n
  domain : Domain S₀.hart n
  live : S₀.hart.Live n
  dry : (S₀.hart.after n).fetch = .ok none
  fetches : FetchesInDRAM S₀

/-- The entries of the branches that a program executes, with their outcomes. -/
def Hart.entries (h : Hart) (address : Address → Word) (n : ℕ) : List (Word × Bool) :=
  (h.forecasts (fun _ => false) n).map fun x => (address x.1, x.2.2)

theorem surcharge_le (l : List (Address × Bool × Bool)) :
    surcharge l ≤ 2 * l.countP fun x => x.2.1 != x.2.2 := by
  induction l with
  | nil => exact Nat.le_refl 0
  | cons x l ih =>
    obtain ⟨PC, p, t⟩ := x
    rw [List.countP_cons, surcharge, tallied_cons, tallied_cons]
    unfold surcharge at ih
    cases p <;> cases t <;> simp <;> omega

theorem Hart.countP_forecasts_le (h : Hart) (pred : ℕ → Bool) (n : ℕ)
    (p : Address × Bool × Bool → Bool) :
    (h.forecasts pred (n - 1)).countP p ≤ (h.forecasts pred n).countP p := by
  cases n with
  | zero => exact Nat.le_refl _
  | succ n =>
    rw [Nat.add_sub_cancel, Hart.forecasts_succ, List.countP_append]
    exact Nat.le_add_right _ _

section Clock

variable {σ α : Type} [BranchPredictor σ] {L : Learner α} {address : Address → Word}
  {entry : σ → Word → α} {self₀ : σ} {φ : Bool → α → ℕ} {m r : ℕ}

/-- A program that ends after `n` instructions takes at most two cycles for each mistake more
than it takes when every branch is predicted right. -/
def ClockBounded (address : Address → Word) (self₀ : σ) (m r : ℕ) : Prop :=
  ∀ (S₀ : RIPSimulator σ) (n : ℕ), Ends S₀ n → S₀.BP = some (BPBase.new self₀) →
    ∃ fuel S c, S₀.run none none fuel = .ok (some S) ∧ S.NumStages = BitVec.ofNat 32 c ∧
      ∀ b : Word → Bool, c ≤ S₀.hart.cycles n +
        2 * (m * (keys (S₀.hart.entries address n)).card
          + r * deviations b (S₀.hart.entries address n))

theorem Tabled.clockBounded (h : Tabled L (fun _ => address) entry) (hL : Pays L φ r)
    (hm : ∀ b k, φ b (entry self₀ k) ≤ m) : ClockBounded address self₀ m r := by
  intro S₀ n hE hB
  have hBP : S₀.BP.isSome = true := by rw [hB]; rfl
  obtain ⟨S, pred, hrun, -, hN, hres⟩ :=
    hE.started.finishes hE.pos hE.domain.regular hE.live hE.dry hE.fetches
  obtain ⟨U, x, hU, hx⟩ := runLoop_reaches hrun
  obtain ⟨P, hP, hpaired, hR⟩ := hE.started.replayed_cycle hB hU hx
  -- the log of the run, and its trainings, in terms of the sequential reference
  have hlog : (resolved P.calls).reverse = S₀.hart.forecasts pred n := by
    rw [← hres hBP]
    unfold RIPSimulator.calls
    rw [hP]
  have htrain : (trainings (fun _ => address) self₀ P.calls).reverse =
      S₀.hart.entries address n := by
    rw [trainings_eq address hpaired, ← List.map_reverse, hlog]
    exact Hart.map_forecasts fun PC taken => (address PC, taken)
  have hmisses : misses P.calls = (S₀.hart.forecasts pred n).countP fun x => x.2.1 != x.2.2 := by
    rw [← hlog, List.countP_reverse, misses]
  refine ⟨_, S, _, hrun, hN, fun b => ?_⟩
  have hguess : Hart.guess S₀.BP.isSome pred = pred := by rw [hBP]; rfl
  have hbound := h.misses_le hL hm b hpaired hR.honest
  rw [hmisses] at hbound
  rw [hguess, ← htrain, keys_reverse, deviations_reverse]
  have hcost := surcharge_le (S₀.hart.forecasts pred (n - 1))
  have hlast := S₀.hart.countP_forecasts_le pred n fun x => x.2.1 != x.2.2
  omega

end Clock

/-- **What mispredictions cost a program.**  A program in the domain that ends after `n`
instructions takes the cycles of its instructions, and for every assignment of a fixed prediction
to the entries of the table no more than two cycles for each mistake that the one-bit or the
two-bit predictor is allowed against it. -/
theorem cycles_bounded :
    ClockBounded OneBitBranchPredictor.BHTIndex OneBitBranchPredictor.new 1 2 ∧
    ClockBounded wordIndex TwoBitBranchPredictor.new 3 2 :=
  ⟨OneBitBranchPredictor.tabled.clockBounded pays_bitCell fun b _ => bitDistance_none b,
    TwoBitBranchPredictor.tabled.clockBounded pays_counterCell fun b _ => counterDistance_none b⟩

/-- `countdown` under the two-bit predictor, whose branches should be predicted taken. -/
theorem cycles_bounded_countdown :
    ∃ fuel S c,
      (boot countdown (some TwoBitBranchPredictor.new)).run none none fuel = .ok (some S) ∧
      S.NumStages = BitVec.ofNat 32 c ∧ c ≤ (loaded countdown).cycles 7 +
        2 * (3 * (keys ((loaded countdown).entries wordIndex 7)).card
          + 2 * deviations (fun _ => true) ((loaded countdown).entries wordIndex 7)) := by
  have hc := countdown_confined
  have hsame : (boot countdown (some TwoBitBranchPredictor.new)).hart = loaded countdown := rfl
  have hE : Ends (boot countdown (some TwoBitBranchPredictor.new)) 7 :=
    ⟨started_boot _ _, by decide, hc.domain 7, countdown_live,
      (hc.follows 7).fetch_none hc.toFits countdown_end,
      (started_boot _ _).fetchesInDRAM hc.regular fun _ _ _ => hc.near⟩
  obtain ⟨fuel, S, c, hrun, hN, hbound⟩ := cycles_bounded.2 _ _ hE rfl
  rw [hsame] at hbound
  exact ⟨fuel, S, c, hrun, hN, hbound fun _ => true⟩

end RipSim
