import RipSim.Model.Memory
import Mathlib.Algebra.Order.Group.Int
import Mathlib.Order.MinMax

/-!
# Branch predictors

`BranchPredictor.h`.  The base class keeps the statistics, the last prediction and
the predicted target; the two pure virtual methods are the class
`BranchPredictor` over the derived object's state, so a result about every
`σ` with that class is a result about every predictor, those that read their
bits from outside included.

`calls` records the virtual calls in the order in which they were made, most
recent first.  No method reads it: it is there to state what the sequence of
calls looks like.
-/

namespace RipSim

/-- The pure virtual methods of `BranchPredictor`, on the state of a derived class. -/
class BranchPredictor (σ : Type) where
  /-- `Learn`. -/
  Learn : σ → Bool → Address → σ
  /-- `Predict`. -/
  Predict : σ → Address → Bool × σ

/-- A call of a virtual method: `Predict(pc)` with its result, `Learn(cond, pc)`. -/
inductive BPCall where
  | Predict (PC : Address) (pred : Bool)
  | Learn (cond : Bool) (PC : Address)
  deriving DecidableEq, Repr

/-- The members of the base class, and the derived object. -/
structure BPBase (σ : Type) where
  /-- `HitNum`. -/
  HitNum : BitVec 32
  /-- `MissNum`. -/
  MissNum : BitVec 32
  /-- `PrevPred`. -/
  PrevPred : Bool
  /-- `BranchPredPC`. -/
  BranchPredPC : Option Address
  /-- The derived object. -/
  self : σ
  /-- The calls made so far, most recent first. -/
  calls : List BPCall

namespace BPBase

variable {σ : Type}

/-- The constructor of the base class. -/
def new (self : σ) : BPBase σ := ⟨0, 0, false, none, self, []⟩

variable (B : BPBase σ)

/-- `setBranchPredPC`. -/
def setBranchPredPC (BPPC : Address) : BPBase σ := { B with BranchPredPC := some BPPC }

/-- `takeBranchPredPC`: the target, and the object with the target removed. -/
def takeBranchPredPC : Option Address × BPBase σ :=
  (B.BranchPredPC, { B with BranchPredPC := none })

/-- `setPrevPred`. -/
def setPrevPred (Pred : Bool) : BPBase σ := { B with PrevPred := Pred }

/-- `StatsUpdate`. -/
def StatsUpdate (Cond Pred : Bool) : BPBase σ :=
  if Cond ^^ Pred then { B with MissNum := B.MissNum + 1 } else { B with HitNum := B.HitNum + 1 }

/-- The call `BP->Learn(cond, PC)`. -/
def Learn [BranchPredictor σ] (cond : Bool) (PC : Address) : BPBase σ :=
  { B with self := BranchPredictor.Learn B.self cond PC, calls := .Learn cond PC :: B.calls }

/-- The call `BP->Predict(PC)`. -/
def Predict [BranchPredictor σ] (PC : Address) : Bool × BPBase σ :=
  let p := BranchPredictor.Predict B.self PC
  (p.1, { B with self := p.2, calls := .Predict PC p.1 :: B.calls })

end BPBase

/-- `getLowerNBits`. -/
def getLowerNBits (value : Word) (N : ℕ) : Word := value &&& (1#32 <<< N - 1)

/-! ## One bit -/

/-- `OneBitBranchPredictor`. -/
structure OneBitBranchPredictor where
  /-- `BranchHistoryTable`. -/
  BranchHistoryTable : Word → Option Bool

namespace OneBitBranchPredictor

/-- The constructor: no entry. -/
def new : OneBitBranchPredictor := ⟨fun _ => none⟩

/-- `BHTIndexWidth`. -/
def BHTIndexWidth : ℕ := 5

/-- The index both methods compute. -/
def BHTIndex (PC : Address) : Word := getLowerNBits ((PC >>> 2).setWidth 32) BHTIndexWidth

instance : BranchPredictor OneBitBranchPredictor where
  Learn B cond PC := ⟨Function.update B.BranchHistoryTable (BHTIndex PC) (some cond)⟩
  Predict B PC := ((B.BranchHistoryTable (BHTIndex PC)).getD false, B)

end OneBitBranchPredictor

/-! ## Two bits -/

/-- The counter update of the two-bit and the Gshare predictor: an absent entry
starts at zero whatever the outcome. -/
def learnCounter (entry : Option ℤ) (cond : Bool) : ℤ :=
  let v := match entry with
    | some v => if cond then v + 1 else v - 1
    | none => 0
  max 0 (min v 3)

/-- `TwoBitBranchPredictor`. -/
structure TwoBitBranchPredictor where
  /-- `BranchHistoryTable`. -/
  BranchHistoryTable : Word → Option ℤ

namespace TwoBitBranchPredictor

/-- The constructor: no entry. -/
def new : TwoBitBranchPredictor := ⟨fun _ => none⟩

/-- `BHTIndexWidth`. -/
def BHTIndexWidth : ℕ := 10

/-- The index both methods compute. -/
def BHTIndex (PC : Address) : Word := getLowerNBits ((PC >>> 2).setWidth 32) BHTIndexWidth

instance : BranchPredictor TwoBitBranchPredictor where
  Learn B cond PC :=
    ⟨Function.update B.BranchHistoryTable (BHTIndex PC)
      (some (learnCounter (B.BranchHistoryTable (BHTIndex PC)) cond))⟩
  Predict B PC :=
    (match B.BranchHistoryTable (BHTIndex PC) with
      | some v => decide (2 ≤ v)
      | none => false, B)

end TwoBitBranchPredictor

/-! ## Gshare -/

/-- `GshareBranchPredictor`. -/
structure GshareBranchPredictor where
  /-- `BranchHistoryTable`. -/
  BranchHistoryTable : Word → Option ℤ
  /-- `BranchHistory`. -/
  BranchHistory : Word

namespace GshareBranchPredictor

/-- The constructor: no entry, an empty history. -/
def new : GshareBranchPredictor := ⟨fun _ => none, 0⟩

/-- `BHTIndexWidth`. -/
def BHTIndexWidth : ℕ := 10

/-- `getBHTIndex`, the index both methods compute. -/
def getBHTIndex (B : GshareBranchPredictor) (PC : Address) : Word :=
  getLowerNBits ((PC >>> 2).setWidth 32) BHTIndexWidth ^^^ B.BranchHistory

instance : BranchPredictor GshareBranchPredictor where
  Learn B cond PC :=
    { BranchHistoryTable := Function.update B.BranchHistoryTable (B.getBHTIndex PC)
        (some (learnCounter (B.BranchHistoryTable (B.getBHTIndex PC)) cond))
      BranchHistory :=
        (B.BranchHistory <<< 1 + (BitVec.ofBool cond).setWidth 32) % (1#32 <<< BHTIndexWidth) }
  Predict B PC :=
    (match B.BranchHistoryTable (B.getBHTIndex PC) with
      | some v => decide (2 ≤ v)
      | none => false, B)

end GshareBranchPredictor

/-! ## Perceptron -/

/-- `PerceptronBranchPredictor`.  `y` is left unset by the constructor; `t` is a
member the source assigns before every use, and a local here. -/
structure PerceptronBranchPredictor where
  /-- `BranchHistory`. -/
  BranchHistory : Word
  /-- `WeightArray`, by row and column. -/
  WeightArray : Word → ℕ → ℤ
  /-- `y`, the last output. -/
  y : ℤ

namespace PerceptronBranchPredictor

/-- `EntryBitwidth`. -/
def EntryBitwidth : ℕ := 10
/-- `HistoryBitwidth`. -/
def HistoryBitwidth : ℕ := 10
/-- `Theta`, which the constructor computes as `floor(1.93 * HistoryBitwidth + 14)`. -/
def Theta : ℕ := 33
/-- `WeightBitwidth`, which the constructor computes as `floor(log2(Theta)) + 1`. -/
def WeightBitwidth : ℕ := 6

/-- The constructor: an empty history and zero weights.  `y` is whatever it was. -/
def new (y : ℤ) : PerceptronBranchPredictor := ⟨0, fun _ _ => 0, y⟩

/-- `PerceptronIndex`. -/
def PerceptronIndex (PC : Address) : Word :=
  getLowerNBits ((PC >>> 2).setWidth 32) EntryBitwidth

/-- `(tmpBranchHistory % 2) == 0 ? -1 : 1` in the iteration for column `i`. -/
def sign (BranchHistory : Word) (i : ℕ) : ℤ := if BranchHistory.getLsbD (i - 1) then 1 else -1

/-- The weight the training loop stores in column `i`. -/
def trained (BranchHistory : Word) (t w : ℤ) (i : ℕ) : ℤ :=
  max (-2 ^ (WeightBitwidth - 1))
    (min (w + t * sign BranchHistory i) (2 ^ (WeightBitwidth - 1) - 1))

/-- The row after training: the bias in column `0` moves by `t` and is not clamped,
the other columns move by `t` times the history bit and are. -/
def trainRow (BranchHistory : Word) (t : ℤ) (row : ℕ → ℤ) : ℕ → ℤ := fun i =>
  if i = 0 then row 0 + t
  else if i < HistoryBitwidth + 1 then trained BranchHistory t (row i) i
  else row i

/-- The output `Predict` accumulates in `y`. -/
def output (BranchHistory : Word) (row : ℕ → ℤ) : ℤ :=
  (List.range HistoryBitwidth).foldl (fun y k => y + row (k + 1) * sign BranchHistory (k + 1))
    (row 0)

instance : BranchPredictor PerceptronBranchPredictor where
  Learn B cond PC :=
    let i := PerceptronIndex PC
    { B with
      WeightArray :=
        if (decide (0 < B.y) ^^ cond) || decide (B.y.natAbs ≤ Theta) then
          Function.update B.WeightArray i
            (trainRow B.BranchHistory (if cond then 1 else -1) (B.WeightArray i))
        else B.WeightArray
      BranchHistory :=
        (B.BranchHistory <<< 1 + (BitVec.ofBool cond).setWidth 32) % (1#32 <<< HistoryBitwidth) }
  Predict B PC :=
    let y := output B.BranchHistory (B.WeightArray (PerceptronIndex PC))
    (!decide (y < 0), { B with y := y })

end PerceptronBranchPredictor

end RipSim
