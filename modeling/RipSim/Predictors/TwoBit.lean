import RipSim.Library.Saturating
import RipSim.Predictors.Calls

/-!
# The counters of the two-bit and the Gshare predictor

Both keep a table of counters and differ in the index: Gshare mixes its history in, so that
its index changes with every `Learn`.  What holds of either is said once, of any predictor
that keeps such a table (`CounterTable`): a counter is a function of the outcomes learned on
its index (`entry_calls`), namely the saturating counter over all of them but the first,
which only creates the entry (`foldl_learnCounter`).
-/

namespace RipSim

open BranchPredictor

/-- What `Predict` returns for an entry. -/
def predicts : Option ℤ → Bool
  | some v => decide (2 ≤ v)
  | none => false

variable {σ : Type} [BranchPredictor σ]

/-- The outcomes learned on an index by a sequence of calls, in their order. -/
def outcomes (index : σ → Address → Word) (i : Word) : σ → List Call → List Bool
  | _, [] => []
  | B, .Predict PC :: cs => outcomes index i (Predict B PC).2 cs
  | B, .Learn cond PC :: cs =>
    if index B PC = i then cond :: outcomes index i (Learn B cond PC) cs
    else outcomes index i (Learn B cond PC) cs

/-- The predictor keeps a counter for each index, and uses and updates the one of its address. -/
structure CounterTable (index : σ → Address → Word) (entry : σ → Word → Option ℤ) : Prop where
  predict : ∀ B PC, (Predict B PC).1 = predicts (entry B (index B PC))
  predict_entry : ∀ B PC, entry (Predict B PC).2 = entry B
  learn_entry : ∀ B cond PC, entry (Learn B cond PC) =
    Function.update (entry B) (index B PC) (some (learnCounter (entry B (index B PC)) cond))

/-- The laws of the counters, for an object and what calls make of it. -/
structure CounterLaws (index : σ → Address → Word) (entry : σ → Word → Option ℤ) (B : σ) :
    Prop where
  /-- Every stored counter is in `0..3`. -/
  range : ∀ cs i v, entry (calls B cs) i = some v → 0 ≤ v ∧ v ≤ 3
  /-- A prediction is a function of the outcomes learned on its index. -/
  isolated : ∀ cs cs' PC PC',
    outcomes index (index (calls B cs) PC) B cs = outcomes index (index (calls B cs') PC') B cs' →
    (Predict (calls B cs) PC).1 = (Predict (calls B cs') PC').1
  /-- Three taken outcomes in a row make it taken. -/
  taken : ∀ cs PC, [true, true, true] <:+ outcomes index (index (calls B cs) PC) B cs →
    (Predict (calls B cs) PC).1 = true
  /-- Two outcomes not taken in a row make it not taken. -/
  notTaken : ∀ cs PC, [false, false] <:+ outcomes index (index (calls B cs) PC) B cs →
    (Predict (calls B cs) PC).1 = false
  /-- After four taken outcomes in a row, or more, one that is not taken changes nothing. -/
  keepsTaken : ∀ cs cs' PC PC' i n, index (calls B cs) PC = i → index (calls B cs') PC' = i →
    4 ≤ n → List.replicate n true <:+ outcomes index i B cs →
    outcomes index i B cs' = outcomes index i B cs ++ [false] →
    (Predict (calls B cs') PC').1 = (Predict (calls B cs) PC).1
  /-- After three outcomes not taken in a row, or more, one that is taken changes nothing. -/
  keepsNotTaken : ∀ cs cs' PC PC' i n, index (calls B cs) PC = i → index (calls B cs') PC' = i →
    3 ≤ n → List.replicate n false <:+ outcomes index i B cs →
    outcomes index i B cs' = outcomes index i B cs ++ [true] →
    (Predict (calls B cs') PC').1 = (Predict (calls B cs) PC).1

/-! ## A counter -/

/-- The entry after the outcomes: the first creates it with the value zero, the others move it. -/
def counter : List Bool → Option ℕ
  | [] => none
  | _ :: l => some (Saturating.run 3 0 l)

theorem learnCounter_some {v : ℕ} (hv : v ≤ 3) (cond : Bool) :
    learnCounter (some (v : ℤ)) cond = (Saturating.step 3 v cond : ℕ) := by
  cases cond with
  | true =>
    show max 0 (min ((v : ℤ) + 1) 3) = ((min (v + 1) 3 : ℕ) : ℤ)
    omega
  | false =>
    show max 0 (min ((v : ℤ) - 1) 3) = ((v - 1 : ℕ) : ℤ)
    omega

theorem counter_le {l : List Bool} {v : ℕ} (h : counter l = some v) : v ≤ 3 := by
  cases l with
  | nil => exact nomatch h
  | cons c l =>
    obtain rfl := Option.some.inj h
    exact Saturating.run_le (by decide) l

/-- The counter after one more outcome. -/
theorem counter_concat (l : List Bool) (cond : Bool) :
    (counter (l ++ [cond])).map ((↑) : ℕ → ℤ) =
      some (learnCounter ((counter l).map ((↑) : ℕ → ℤ)) cond) := by
  cases l with
  | nil => cases cond <;> rfl
  | cons c l =>
    have hle := Saturating.run_le (by decide : 0 ≤ 3) l
    show some ((Saturating.run 3 0 (l ++ [cond]) : ℕ) : ℤ) = _
    rw [Saturating.run_concat, ← learnCounter_some hle]
    rfl

/-- What the table holds after the outcomes. -/
theorem foldl_learnCounter (l : List Bool) :
    l.foldl (fun e cond => some (learnCounter e cond)) none = (counter l).map ((↑) : ℕ → ℤ) := by
  induction l using List.reverseRecOn with
  | nil => rfl
  | append_singleton l cond ih => rw [List.foldl_append, ih, counter_concat]; rfl

/-- After `n + 1` taken outcomes in a row the counter is `n` or more, or full. -/
theorem counter_ups (l : List Bool) (n : ℕ) :
    ∃ v, counter (l ++ List.replicate (n + 1) true) = some v ∧ min n 3 ≤ v ∧ v ≤ 3 := by
  cases l with
  | nil =>
    refine ⟨_, rfl, ?_⟩
    rw [Saturating.run_ups (by decide)]
    omega
  | cons c l =>
    have hle := Saturating.run_le (by decide : 0 ≤ 3) l
    refine ⟨Saturating.run 3 0 (l ++ List.replicate (n + 1) true), rfl, ?_⟩
    rw [Saturating.run_append, Saturating.run_ups hle]
    omega

/-- After `n + 1` outcomes not taken in a row the counter is that far from full, or empty. -/
theorem counter_downs (l : List Bool) (n : ℕ) :
    ∃ v, counter (l ++ List.replicate (n + 1) false) = some v ∧ v ≤ 3 - (n + 1) := by
  cases l with
  | nil =>
    refine ⟨_, rfl, ?_⟩
    rw [Saturating.run_downs]
    omega
  | cons c l =>
    have hle := Saturating.run_le (by decide : 0 ≤ 3) l
    refine ⟨Saturating.run 3 0 (l ++ List.replicate (n + 1) false), rfl, ?_⟩
    rw [Saturating.run_append, Saturating.run_downs]
    omega

/-- One more outcome moves the counter. -/
theorem counter_step {l : List Bool} {v : ℕ} (h : counter l = some v) (cond : Bool) :
    counter (l ++ [cond]) = some (Saturating.step 3 v cond) := by
  cases l with
  | nil => exact nomatch h
  | cons c l =>
    obtain rfl := Option.some.inj h
    exact congrArg some (Saturating.run_concat 3 0 l cond)

/-- The prediction for an index with these outcomes. -/
def predicted (l : List Bool) : Bool := predicts ((counter l).map ((↑) : ℕ → ℤ))

theorem predicted_of_counter {l : List Bool} {v : ℕ} (h : counter l = some v) :
    predicted l = decide (2 ≤ v) := by
  rw [predicted, h]
  show decide ((2 : ℤ) ≤ (v : ℤ)) = decide (2 ≤ v)
  rw [decide_eq_decide]
  omega

/-! ## A table of counters -/

namespace CounterTable

variable {index : σ → Address → Word} {entry : σ → Word → Option ℤ}

/-- An entry is moved by the outcomes learned on its index and by nothing else. -/
theorem entry_calls (h : CounterTable index entry) (B : σ) (cs : List Call) (i : Word) :
    entry (calls B cs) i =
      (outcomes index i B cs).foldl (fun e cond => some (learnCounter e cond)) (entry B i) := by
  induction cs generalizing B with
  | nil => rfl
  | cons c cs ih =>
    rw [calls_cons, ih]
    cases c with
    | Predict PC =>
      rw [call, h.predict_entry]
      rfl
    | Learn cond PC =>
      show _ = List.foldl _ _ (if index B PC = i then _ else _)
      rw [call, h.learn_entry]
      by_cases hi : index B PC = i
      · rw [if_pos hi, List.foldl_cons, ← hi, Function.update_self]
      · rw [if_neg hi, Function.update_of_ne (Ne.symm hi)]

variable {B : σ}

/-- What a table that started empty holds. -/
theorem entry_eq (h : CounterTable index entry) (hB : ∀ i, entry B i = none) (cs : List Call)
    (i : Word) :
    entry (calls B cs) i = (counter (outcomes index i B cs)).map ((↑) : ℕ → ℤ) := by
  rw [h.entry_calls, hB, foldl_learnCounter]

theorem predict_eq (h : CounterTable index entry) (hB : ∀ i, entry B i = none) {cs : List Call}
    {PC : Address} {i : Word} (hi : index (calls B cs) PC = i) :
    (Predict (calls B cs) PC).1 = predicted (outcomes index i B cs) := by
  rw [h.predict, hi, h.entry_eq hB, predicted]

/-- A table of counters that starts empty obeys the laws. -/
theorem laws (h : CounterTable index entry) (hB : ∀ i, entry B i = none) :
    CounterLaws index entry B where
  range cs i v hv := by
    rw [h.entry_eq hB, Option.map_eq_some_iff] at hv
    obtain ⟨u, hu, rfl⟩ := hv
    have hle := counter_le hu
    omega
  isolated cs cs' PC PC' heq := by
    rw [h.predict_eq hB rfl, h.predict_eq hB rfl, heq]
  taken cs PC hs := by
    obtain ⟨l, hl⟩ := hs
    obtain ⟨v, hv, hlo, -⟩ := counter_ups l 2
    rw [show l ++ List.replicate (2 + 1) true = _ from hl] at hv
    rw [h.predict_eq hB rfl, predicted_of_counter hv, decide_eq_true_eq]
    exact hlo
  notTaken cs PC hs := by
    obtain ⟨l, hl⟩ := hs
    obtain ⟨v, hv, hle⟩ := counter_downs l 1
    rw [show l ++ List.replicate (1 + 1) false = _ from hl] at hv
    rw [h.predict_eq hB rfl, predicted_of_counter hv, decide_eq_false_iff_not]
    omega
  keepsTaken cs cs' PC PC' i n hi hi' hn hs heq := by
    obtain ⟨l, hl⟩ := hs
    obtain ⟨k, rfl⟩ := Nat.exists_eq_add_of_le' (show 1 ≤ n by omega)
    obtain ⟨v, hv, hlo, hhi⟩ := counter_ups l k
    -- the counter is full, and one down leaves it in the upper half
    have hstep := counter_step hv false
    rw [hl] at hv hstep
    rw [h.predict_eq hB hi', h.predict_eq hB hi, heq, predicted_of_counter hv,
      predicted_of_counter hstep, decide_eq_decide, Saturating.step, if_neg Bool.false_ne_true]
    omega
  keepsNotTaken cs cs' PC PC' i n hi hi' hn hs heq := by
    obtain ⟨l, hl⟩ := hs
    obtain ⟨k, rfl⟩ := Nat.exists_eq_add_of_le' (show 1 ≤ n by omega)
    obtain ⟨v, hv, hle⟩ := counter_downs l k
    -- the counter is empty, and one up leaves it in the lower half
    have hstep := counter_step hv true
    rw [hl] at hv hstep
    rw [h.predict_eq hB hi', h.predict_eq hB hi, heq, predicted_of_counter hv,
      predicted_of_counter hstep, decide_eq_decide, Saturating.step, if_pos rfl]
    omega

end CounterTable

/-! ## The two predictors -/

/-- The index of the two-bit predictor. -/
def TwoBitBranchPredictor.index (_ : TwoBitBranchPredictor) (PC : Address) : Word := wordIndex PC

/-- The index of the Gshare predictor. -/
def GshareBranchPredictor.index (B : GshareBranchPredictor) (PC : Address) : Word :=
  wordIndex PC ^^^ B.BranchHistory

theorem TwoBitBranchPredictor.counterTable :
    CounterTable TwoBitBranchPredictor.index TwoBitBranchPredictor.BranchHistoryTable := by
  have hindex : ∀ PC, BHTIndex PC = wordIndex PC := getLowerNBits_eq
  refine ⟨fun B PC => ?_, fun B PC => rfl, fun B cond PC => ?_⟩
  · rw [index, ← hindex]
    rfl
  · rw [index, ← hindex]
    rfl

theorem GshareBranchPredictor.counterTable :
    CounterTable GshareBranchPredictor.index GshareBranchPredictor.BranchHistoryTable := by
  have hindex : ∀ (B : GshareBranchPredictor) PC, B.getBHTIndex PC = B.index PC := fun B PC =>
    congrArg (· ^^^ B.BranchHistory) (getLowerNBits_eq PC)
  refine ⟨fun B PC => ?_, fun B PC => rfl, fun B cond PC => ?_⟩
  · rw [← hindex]
    rfl
  · rw [← hindex]
    rfl

/-- **The counters saturate, are isolated and resist one deviation.** -/
theorem counter_laws :
    CounterLaws TwoBitBranchPredictor.index TwoBitBranchPredictor.BranchHistoryTable
        TwoBitBranchPredictor.new ∧
      CounterLaws GshareBranchPredictor.index GshareBranchPredictor.BranchHistoryTable
        GshareBranchPredictor.new :=
  ⟨TwoBitBranchPredictor.counterTable.laws fun _ => rfl,
    GshareBranchPredictor.counterTable.laws fun _ => rfl⟩

end RipSim
