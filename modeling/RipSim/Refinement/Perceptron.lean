import RipSim.Predictors.Arithmetic
import RipSim.Refinement.Replay

/-!
# The perceptron in the pipeline

The pipeline does not call `Predict` and `Learn` in pairs: a branch that a trap or an older branch
squashes has been predicted and is never learned.  But a `Learn` follows the `Predict` of its
branch, so that `y` is then the output for the row that is trained.  So no run overflows, and none
reads the `y` that the constructor leaves unset (`perceptron_in_range`).
-/

namespace RipSim

open BranchPredictor

/-! ## Logs as sequences of calls -/

/-- The call that is logged. -/
def BPCall.call : BPCall → Call
  | .Predict PC _ => .Predict PC
  | .Learn cond PC => .Learn cond PC

/-- The calls of a log, the first one first. -/
def made (cs : List BPCall) : List Call := (cs.map BPCall.call).reverse

theorem made_cons (c : BPCall) (cs : List BPCall) : made (c :: cs) = made cs ++ [c.call] := by
  rw [made, List.map_cons, List.reverse_cons]
  rfl

namespace PerceptronBranchPredictor

/-! ## The arithmetic of a log -/

theorem callsChecked_append {B B' : PerceptronBranchPredictor} {cs : List Call}
    (h : callsChecked B cs = some B') (ds : List Call) :
    callsChecked B (cs ++ ds) = callsChecked B' ds := by
  rw [callsChecked] at h
  rw [callsChecked, List.foldlM_append, h]
  rfl

/-- A paired log is defined, and keeps the rows in their range. -/
theorem callsChecked_made (y : ℤ) {cs : List BPCall} (h : Paired cs) :
    callsChecked (new y) (made cs) = some (replay (new y) cs) ∧ Bounded (replay (new y) cs) := by
  induction h using Paired.induction with
  | nil => exact ⟨rfl, bounded_new y⟩
  | predict PC p cs _ ih =>
    obtain ⟨hdefined, hbounded⟩ := ih
    refine ⟨?_, hbounded⟩
    rw [made_cons, callsChecked_append hdefined]
    change callChecked (replay (new y) cs) (.Predict PC) >>= _ = _
    rw [callChecked_Predict hbounded]
    rfl
  | learn cond PC p cs _ ih =>
    obtain ⟨hdefined, hbounded⟩ := ih
    refine ⟨?_, bounded_pair hbounded PC cond⟩
    rw [made_cons, made_cons, List.append_assoc, callsChecked_append hdefined]
    exact callsChecked_pair hbounded PC cond

/-- A `Predict` forgets the `y` that was there before. -/
theorem predict_congr {B B' : PerceptronBranchPredictor} (hH : B.BranchHistory = B'.BranchHistory)
    (hW : B.WeightArray = B'.WeightArray) (PC : Address) :
    (Predict B PC).2 = (Predict B' PC).2 := by
  obtain ⟨H, W, y⟩ := B
  obtain ⟨H', W', y'⟩ := B'
  obtain rfl : H = H' := hH
  obtain rfl : W = W' := hW
  rfl

/-- What the constructor leaves unset is set by the first call of a paired log. -/
theorem replay_new (y y' : ℤ) {cs : List BPCall} (h : Paired cs) :
    (replay (new y) cs).BranchHistory = (replay (new y') cs).BranchHistory ∧
    (replay (new y) cs).WeightArray = (replay (new y') cs).WeightArray ∧
    (cs ≠ [] → replay (new y) cs = replay (new y') cs) := by
  induction h using Paired.induction with
  | nil => exact ⟨rfl, rfl, fun hne => absurd rfl hne⟩
  | predict PC p cs _ ih =>
    obtain ⟨hH, hW, -⟩ := ih
    exact ⟨hH, hW, fun _ => predict_congr hH hW PC⟩
  | learn cond PC p cs _ ih =>
    obtain ⟨hH, hW, -⟩ := ih
    have hsame : replay (new y) (.Learn cond PC :: .Predict PC p :: cs) =
        replay (new y') (.Learn cond PC :: .Predict PC p :: cs) :=
      congrArg (Learn · cond PC) (predict_congr hH hW PC)
    exact ⟨congrArg BranchHistory hsame, congrArg WeightArray hsame, fun _ => hsame⟩

/-- The base class `P` around a perceptron that was made with `y` unset. -/
structure InRange (y : ℤ) (P : BPBase PerceptronBranchPredictor) : Prop where
  /-- No operation on `signed int` has been out of range. -/
  defined : callsChecked (new y) (made P.calls) = some P.self
  /-- The weights are clamped, and the biases in their range. -/
  bounded : Bounded P.self
  /-- The object does not depend on what `y` was. -/
  unset : P.calls ≠ [] → ∀ y', callsChecked (new y') (made P.calls) = some P.self

end PerceptronBranchPredictor

open RIPSimulator PerceptronBranchPredictor

/-- **The pipeline keeps the perceptron in range.**  However a cycle of a run ends, traps and
squashed branches included, no sum of `Predict` and `Learn` has overflowed, every weight and bias
is in its range, and the object does not depend on the `y` that the constructor leaves unset. -/
theorem perceptron_in_range {S₀ S S' : RIPSimulator PerceptronBranchPredictor} {y : ℤ}
    (h₀ : Started S₀) (hB : S₀.BP = some (BPBase.new (new y))) (hr : Runs.Reaches Next S₀ S)
    {x : Exit} (h : S.cycle = .ok (x, S')) : ∃ P, S'.BP = some P ∧ InRange y P := by
  obtain ⟨P, hP, hpaired, hR⟩ := h₀.replayed_cycle hB hr h
  obtain ⟨hdefined, hbounded⟩ := callsChecked_made y hpaired
  refine ⟨P, hP, hR.self ▸ hdefined, hR.self ▸ hbounded, fun hne y' => ?_⟩
  rw [(callsChecked_made y' hpaired).1, hR.self, (replay_new y' y hpaired).2.2 hne]

/-- A `bne` that is not taken, predicted taken by a new perceptron. -/
theorem perceptron_in_range_bne : ∃ S' P,
    after 3 (boot [0x00001463] (some (new 7)) : RIPSimulator PerceptronBranchPredictor) = some S' ∧
      S'.BP = some P ∧ P.calls = [.Learn false 0, .Predict 0 true] ∧
      callsChecked (new 0) [.Predict 0, .Learn false 0] = some P.self := by
  have hcalls : ((after 3 (boot [0x00001463] (some (new 7)) :
      RIPSimulator PerceptronBranchPredictor)).map RIPSimulator.calls) =
        some [.Learn false 0, .Predict 0 true] := by
    decide +kernel
  obtain ⟨S', hS', hlog⟩ := Option.map_eq_some_iff.mp hcalls
  obtain ⟨S, hS, hn⟩ := after_succ hS'
  obtain ⟨P, hP, hR⟩ := perceptron_in_range (started_boot _ _) rfl (reaches_after hS) hn
  have hPcalls : P.calls = [.Learn false 0, .Predict 0 true] := by
    unfold RIPSimulator.calls at hlog
    rwa [hP] at hlog
  refine ⟨S', P, hS', hP, hPcalls, ?_⟩
  have hunset := hR.unset (by simp [hPcalls]) 0
  rwa [hPcalls] at hunset

end RipSim
