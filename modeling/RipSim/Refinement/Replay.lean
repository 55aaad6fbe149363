import RipSim.Pipeline.Protocol
import RipSim.Refinement.CycleCount

/-!
# The predictor, from its log

The pipeline touches its predictor through the calls of the log and through nothing else.  So
the derived object is what the calls make of the first one (`replay`), the bits in the log are
those that the object of the moment predicted (`Honest`), and the two numbers printed at the end
are those of the resolved predictions, modulo `2 ^ 32`.  All of it holds in every run, traps and
squashes included.
-/

namespace RipSim

/-- Induction over a paired log: a `Learn` comes with its `Predict`. -/
theorem Paired.induction {motive : (cs : List BPCall) → Paired cs → Prop} (nil : motive [] trivial)
    (predict : ∀ PC p cs (h : Paired cs), motive cs h → motive (.Predict PC p :: cs) h)
    (learn : ∀ cond PC p cs (h : Paired cs), motive cs h →
      motive (.Learn cond PC :: .Predict PC p :: cs) ⟨rfl, h⟩)
    {cs : List BPCall} (h : Paired cs) : motive cs h := by
  fun_induction Paired cs with
  | case1 => exact nil
  | case2 PC p cs ih => exact predict PC p cs h (ih h)
  | case3 cond PC PC' p cs ih =>
    obtain ⟨rfl, hp⟩ := h
    exact learn cond PC' p cs hp (ih hp)
  | case4 cond PC cs hne =>
    rw [Paired] at h
    · exact h.elim
    · exact hne

section Replay

variable {σ : Type} [BranchPredictor σ]

/-- The object after the calls of a log, the most recent call first. -/
def replay (self₀ : σ) : List BPCall → σ
  | [] => self₀
  | .Predict PC _ :: cs => (BranchPredictor.Predict (replay self₀ cs) PC).2
  | .Learn cond PC :: cs => BranchPredictor.Learn (replay self₀ cs) cond PC

/-- The bits of a log are those that the object predicted. -/
def Honest (self₀ : σ) : List BPCall → Prop
  | [] => True
  | .Predict PC p :: cs => (BranchPredictor.Predict (replay self₀ cs) PC).1 = p ∧ Honest self₀ cs
  | .Learn _ _ :: cs => Honest self₀ cs

/-- The predictions of a log that were right. -/
def hits (cs : List BPCall) : ℕ := (resolved cs).countP fun x => x.2.1 == x.2.2

/-- The predictions of a log that were wrong. -/
def misses (cs : List BPCall) : ℕ := (resolved cs).countP fun x => x.2.1 != x.2.2

/-- What the log says about the predictor. -/
structure Replayed (self₀ : σ) (B : BPBase σ) : Prop where
  self : B.self = replay self₀ B.calls
  honest : Honest self₀ B.calls
  HitNum : B.HitNum = BitVec.ofNat 32 (hits B.calls)
  MissNum : B.MissNum = BitVec.ofNat 32 (misses B.calls)

namespace Replayed

variable {self₀ : σ} {B : BPBase σ}

theorem new : Replayed self₀ (BPBase.new self₀) := ⟨rfl, trivial, rfl, rfl⟩

/-- The members that are no part of the log. -/
theorem congr (h : Replayed self₀ B) (p : Bool) (t : Option Address) :
    Replayed self₀ { B with PrevPred := p, BranchPredPC := t } :=
  ⟨h.self, h.honest, h.HitNum, h.MissNum⟩

/-- A prediction. -/
theorem predict (h : Replayed self₀ B) (PC : Address) : Replayed self₀ (B.Predict PC).2 where
  self := congrArg (fun s => (BranchPredictor.Predict s PC).2) h.self
  honest := ⟨congrArg (fun s => (BranchPredictor.Predict s PC).1) h.self.symm, h.honest⟩
  HitNum := by
    rw [hits, show (B.Predict PC).2.calls = .Predict PC (B.Predict PC).1 :: B.calls from rfl,
      resolved_predict]
    exact h.HitNum
  MissNum := by
    rw [misses, show (B.Predict PC).2.calls = .Predict PC (B.Predict PC).1 :: B.calls from rfl,
      resolved_predict]
    exact h.MissNum

/-- The training for the branch predicted last. -/
theorem learn (h : Replayed self₀ B) {PC : Address} {cs : List BPCall}
    (hcs : B.calls = .Predict PC B.PrevPred :: cs) (cond : Bool) :
    Replayed self₀ ((B.StatsUpdate cond B.PrevPred).Learn cond PC) := by
  have hself : (B.StatsUpdate cond B.PrevPred).self = B.self := by
    unfold BPBase.StatsUpdate
    split_ifs <;> rfl
  have hcalls : (B.StatsUpdate cond B.PrevPred).calls = B.calls := by
    unfold BPBase.StatsUpdate
    split_ifs <;> rfl
  have hlog : ((B.StatsUpdate cond B.PrevPred).Learn cond PC).calls = .Learn cond PC :: B.calls :=
    congrArg (List.cons (BPCall.Learn cond PC)) hcalls
  have hhit := h.HitNum
  have hmiss := h.MissNum
  rw [hits, hcs, resolved_predict] at hhit
  rw [misses, hcs, resolved_predict] at hmiss
  constructor
  · rw [hlog]
    exact congrArg (BranchPredictor.Learn · cond PC) (hself.trans h.self)
  · rw [hlog]
    exact h.honest
  · rw [hlog, hits, hcs, resolved_learn, List.countP_cons, BitVec.ofNat_add, ← hhit]
    change (B.StatsUpdate cond B.PrevPred).HitNum = _
    unfold BPBase.StatsUpdate
    cases cond <;> cases B.PrevPred <;> simp
  · rw [hlog, misses, hcs, resolved_learn, List.countP_cons, BitVec.ofNat_add, ← hmiss]
    change (B.StatsUpdate cond B.PrevPred).MissNum = _
    unfold BPBase.StatsUpdate
    cases cond <;> cases B.PrevPred <;> simp

end Replayed

end Replay

namespace RIPSimulator

variable {σ : Type} [BranchPredictor σ] {self₀ : σ} {S S' A B M : RIPSimulator σ}

/-- The stages of a cycle. -/
theorem Replayed.exec (hw : Watching S) (hc : Clean S) {E : Option Exception}
    (ht : Through S A B M E) {P : BPBase σ} (hP : S.BP = some P) (hR : Replayed self₀ P) :
    ∃ P', M.BP = some P' ∧ Replayed self₀ P' := by
  have hf := memoryaccess_frame ht.access
  obtain ⟨_, _, _, _, hwBP, _, _, hwPS⟩ := A.written_frame
  obtain ⟨_, _, _, _, _, haBP, _⟩ := advance_frame ht.advance
  have hAP : A.BP = some P := haBP.trans hP
  have hBP : B.BP = some P := by rw [hf.BP, hwBP, hAP]
  have hM := exec_BP ht.exec
  cases hI : B.PS.Insts.EX with
  | none =>
    rw [hI] at hM
    exact ⟨P, hM.trans hBP, hR⟩
  | some I =>
    rw [hI] at hM
    cases I with
    | BInstruction BT Rs1 Rs2 Imm =>
      have hAI : A.PS.Insts.EX = some (.BInstruction BT Rs1 Rs2 Imm) := by rw [← hI, hf.Insts, hwPS]
      have hPC : B.PS.PCs.EX = A.PS.PCs.EX := by rw [hf.PCs, hwPS]
      obtain ⟨_, ⟨cs, hcs⟩, _⟩ := hw.entering hc ht.advance hAI rfl hAP
      unfold learned at hM
      rw [hBP] at hM
      exact ⟨_, hM, hR.learn (hPC ▸ hcs) _⟩
    | _ => exact ⟨P, hM.trans hBP, hR⟩

/-- The decoder predicts, or leaves the predictor alone. -/
theorem Replayed.decoded {P : BPBase σ} (hP : M.BP = some P) (hR : Replayed self₀ P) :
    ∃ P', M.decoded.BP = some P' ∧ Replayed self₀ P' := by
  unfold RIPSimulator.decoded
  cases M.PS.Insts.DE with
  | none => exact ⟨P, hP, hR⟩
  | some I =>
    dsimp only
    split_ifs
    · exact ⟨P, hP, hR⟩
    · change ∃ P', M.predicted I = some P' ∧ _
      unfold predicted
      rw [hP]
      cases I.isBType with
      | false => exact ⟨P, rfl, hR⟩
      | true =>
        refine ⟨_, rfl, ?_⟩
        split_ifs
        · exact (hR.predict _).congr _ _
        · exact (hR.predict _).congr _ _

/-- However a cycle ends, the predictor is what its log says. -/
theorem Replayed.cycle (hw : Watching S) (hc : Clean S) {x : Exit} (h : S.cycle = .ok (x, S'))
    {P : BPBase σ} (hP : S.BP = some P) (hR : Replayed self₀ P) :
    ∃ P', S'.BP = some P' ∧ Replayed self₀ P' := by
  cases x with
  | next =>
    obtain ⟨A, B, M, E, D, ht, hD, rfl⟩ := Next.through h
    obtain ⟨P₁, hP₁, hR₁⟩ := Replayed.exec hw hc ht hP hR
    obtain ⟨P₂, hP₂, hR₂⟩ := Replayed.decoded hP₁ hR₁
    obtain ⟨_, _, _, hDBP, _⟩ := hD.frame
    refine ⟨{ P₂ with BranchPredPC := none }, ?_, hR₂.congr P₂.PrevPred none⟩
    rw [redirect_eq]
    change D.BP.map _ = _
    rw [hDBP, hP₂]
    rfl
  | empty =>
    rcases cycle_ok h with ⟨_, hA, _⟩ | ⟨_, _, _, _, _, ⟨_, hx, _⟩ | ⟨_, _, _, _, hx, _⟩ |
      ⟨_, _, _, hx⟩⟩
    · obtain ⟨_, _, _, _, _, hBP, _⟩ := advance_frame hA
      exact ⟨P, hBP.trans hP, hR⟩
    all_goals cases hx
  | stop =>
    rcases cycle_ok h with ⟨hx, _⟩ | ⟨A, B, M, E, ht, ⟨_, hx, _⟩ | ⟨_, _, _, _, hx, _⟩ |
      ⟨e, rfl, hD, _⟩⟩
    · cases hx
    · cases hx
    · cases hx
    · obtain ⟨P₁, hP₁, hR₁⟩ := Replayed.exec hw hc ht hP hR
      rcases handleException_ok (exec_exception ht.exec) hD with ⟨_, _, rfl⟩ | ⟨_, hg, _⟩ |
        ⟨_, _, hg, _⟩
      · exact Replayed.decoded hP₁ hR₁
      all_goals cases hg

/-- What holds of the predictor in the states of a run. -/
theorem Started.replayed {S₀ : RIPSimulator σ} (h₀ : Started S₀)
    (hB : S₀.BP = some (BPBase.new self₀)) (hr : Runs.Reaches Next S₀ S) :
    Clean S ∧ Watching S ∧ ∃ P, S.BP = some P ∧ Replayed self₀ P :=
  hr.invariant (p := fun S => Clean S ∧ Watching S ∧ ∃ P, S.BP = some P ∧ Replayed self₀ P)
    ⟨h₀.clean, h₀.watching, _, hB, .new⟩ fun _ _ ⟨hc, hw, _, hP, hR⟩ hn =>
      ⟨hc.next hn, hw.next hc hn, Replayed.cycle hw hc hn hP hR⟩

/-- However a cycle of a run ends, the log is paired and the predictor is what it says. -/
theorem Started.replayed_cycle {S₀ : RIPSimulator σ} (h₀ : Started S₀)
    (hB : S₀.BP = some (BPBase.new self₀)) (hr : Runs.Reaches Next S₀ S) {x : Exit}
    (h : S.cycle = .ok (x, S')) :
    ∃ P, S'.BP = some P ∧ Paired P.calls ∧ Replayed self₀ P := by
  obtain ⟨hc, hw, P, hP, hR⟩ := h₀.replayed hB hr
  obtain ⟨P', hP', hR'⟩ := Replayed.cycle hw hc h hP hR
  have hpaired := hw.cycle hc h
  unfold RIPSimulator.calls at hpaired
  rw [hP'] at hpaired
  exact ⟨P', hP', hpaired, hR'⟩

end RIPSimulator

open RIPSimulator

/-- **The predictor is driven by its log alone.**  However a cycle of a run ends, traps included,
the derived object is what the calls of the log make of the first object, every bit in the log is
the one that the object of the moment predicted, each `Learn` follows the `Predict` of its branch
immediately, and `HitNum` and `MissNum` count the resolved predictions. -/
theorem predictor_replays {σ : Type} [BranchPredictor σ] {S₀ S S' : RIPSimulator σ} {self₀ : σ}
    (h₀ : Started S₀) (hB : S₀.BP = some (BPBase.new self₀)) (hr : Runs.Reaches Next S₀ S)
    {x : Exit} (h : S.cycle = .ok (x, S')) :
    ∃ P, S'.BP = some P ∧ Paired P.calls ∧ Replayed self₀ P :=
  h₀.replayed_cycle hB hr h

/-- A taken `beq`, wrongly predicted by a one-bit predictor. -/
theorem predictor_replays_beq : ∃ S' P,
    after 3 (boot [0x00000463] (some .new) : RIPSimulator OneBitBranchPredictor) = some S' ∧
      S'.BP = some P ∧ P.calls = [.Learn true 0, .Predict 0 false] ∧
      P.MissNum = BitVec.ofNat 32 (misses P.calls) ∧ misses P.calls = 1 := by
  have hcalls : ((after 3 (boot [0x00000463] (some .new) :
      RIPSimulator OneBitBranchPredictor)).map RIPSimulator.calls) =
        some [.Learn true 0, .Predict 0 false] := by
    decide +kernel
  obtain ⟨S', hS', hlog⟩ := Option.map_eq_some_iff.mp hcalls
  obtain ⟨S, hS, hn⟩ := after_succ hS'
  obtain ⟨P, hP, -, hR⟩ := predictor_replays (started_boot _ _) rfl (reaches_after hS) hn
  have hPcalls : P.calls = [.Learn true 0, .Predict 0 false] := by
    unfold RIPSimulator.calls at hlog
    rwa [hP] at hlog
  exact ⟨S', P, hS', hP, hPcalls, hR.MissNum, by rw [hPcalls]; rfl⟩

end RipSim
