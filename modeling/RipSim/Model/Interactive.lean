import RipSim.Library.Spelling
import RipSim.Model.RIPSimulator

/-!
# The interactive mode

`Interactive.h`, `InteractiveBranchPredictor`, `PipelineStates::printJSON` and
`RIPSimulator::runInteractively`, and the client of `rip_simulator.py` at the other end of the two
pipes.

The server prints lines of JSON and reads words.  It reads one word after each cycle, whatever
it is, and after a `Predict` line words until one contains `PredRes`.  A cycle that predicts is
cut in two where `Predict` waits.  JSON texts are those of a library outside: a line is the
object that the library dumps, and the parser is a parameter.
-/

namespace RipSim

open Dialogue

/-! ## Lines -/

/-- The object of a stage that is not a bubble.  `Inst` stands for `InstStr`, which prints it; a
value that the stage does not report is absent. -/
structure JStage where
  isStall : Bool
  Inst : Instruction
  InstVal : Word
  mnemo : Mnemo
  PC : Address
  Rs1Val : Option RegVal
  Rs2Val : Option RegVal
  RdVal : Option RegVal
  ImmVal : Option RegVal
  CSRVal : Option RegVal

/-- A line of JSON, by its `Kind`. -/
inductive Line where
  | PipelineStates (stages : Staged (Option JStage))
  | Learn (Cond : Bool) (PC : Address)
  | Predict (PrevPred : Bool)

/-- The members that every stage reports. -/
def JStage.new (isStall : Bool) (Inst : Instruction) (PC : Address) : JStage :=
  ⟨isStall, Inst, Inst.getVal, Inst.getMnemo, PC, none, none, none, none, none⟩

/-- `PipelineStates::printJSON`: a bubble is left out. -/
def PipelineStates.printJSON (PS : PipelineStates) : Line :=
  .PipelineStates {
    IF := PS.Insts.IF.map fun I => JStage.new PS.StalledStages.IF I PS.PCs.IF
    DE := PS.Insts.DE.map fun I =>
      { JStage.new PS.StalledStages.DE I PS.PCs.DE with
        Rs1Val := PS.DERs1Val, Rs2Val := PS.DERs2Val, ImmVal := PS.DEImmVal, CSRVal := PS.DECSRVal }
    EX := PS.Insts.EX.map fun I =>
      { JStage.new PS.StalledStages.EX I PS.PCs.EX with
        RdVal := PS.EXRdVal, Rs2Val := PS.EXRs2Val, ImmVal := PS.EXImmVal, CSRVal := PS.EXCSRVal }
    MA := PS.Insts.MA.map fun I =>
      { JStage.new PS.StalledStages.MA I PS.PCs.MA with
        RdVal := PS.MARdVal, ImmVal := PS.MAImmVal, CSRVal := PS.MACSRVal }
    WB := PS.Insts.WB.map fun I =>
      { JStage.new PS.StalledStages.WB I PS.PCs.WB with ImmVal := PS.WBImmVal } }

/-! ## The predictor -/

/-- `InteractiveBranchPredictor`.  Its streams are outside; what is left is the answer that
`Predict` is about to extract. -/
structure InteractiveBranchPredictor where
  answer : Bool

instance : BranchPredictor InteractiveBranchPredictor where
  Learn B _ _ := B
  Predict B _ := (B.answer, B)

namespace RIPSimulator

section Halves

variable {σ : Type} [BranchPredictor σ] (S : RIPSimulator σ)

/-- A cycle up to `exec`: no exception entry if the pipeline is empty. -/
def upToExec : Except Fault (Option (Option Exception) × RIPSimulator σ) := do
  let S ← S.advance
  if S.PS.isEmpty then return (none, S)
  else
    let S ← S.writeback
    let S ← S.memoryaccess
    let (E, S) ← S.exec
    return (some E, S)

/-- A cycle from `decode` on, with the exception of `exec`. -/
def fromDecode (E : Option Exception) : Except Fault (Exit × RIPSimulator σ) := do
  let S ← S.decode
  match E with
  | none => return (.next, S.redirect.finish)
  | some E =>
    let (goesOn, S) ← S.handleException E
    if goesOn then return (.next, S.redirect.finish) else return (.stop, S)

/-- The line that `Learn` prints between the states `S` and `M`: the call that is new in the log
of `M`. -/
def learnLine (M : RIPSimulator σ) : Option Line :=
  match S.BP, M.BP with
  | some B, some B' =>
    match B'.calls with
    | .Learn Cond PC :: cs => if cs.length = B.calls.length then some (.Learn Cond PC) else none
    | _ => none
  | _, _ => none

/-- The line that `Predict` prints if `decode` calls it. -/
def predictLine : Option Line :=
  match S.PS.Insts.DE, S.BP with
  | some I, some B =>
    if I.isBType && !S.PS.StalledStages.DE then some (.Predict B.PrevPred) else none
  | _, _ => none

end Halves

/-- The answer has come. -/
def answered (S : RIPSimulator InteractiveBranchPredictor) (b : Bool) :
    RIPSimulator InteractiveBranchPredictor :=
  { S with BP := S.BP.map fun B => { B with self := ⟨b⟩ } }

end RIPSimulator

/-! ## The server -/

/-- Where `runInteractively` is. -/
inductive Session where
  /-- It calls `proceedNStage(1)`. -/
  | proceeding (S : RIPSimulator InteractiveBranchPredictor)
  /-- `exec` has returned. -/
  | executed (E : Option Exception) (S : RIPSimulator InteractiveBranchPredictor)
  /-- `Predict`, if it has been called, has its answer. -/
  | deciding (E : Option Exception) (S : RIPSimulator InteractiveBranchPredictor)
  /-- `proceedNStage` has returned `false`. -/
  | proceeded (S : RIPSimulator InteractiveBranchPredictor)
  /-- `buf` has been read. -/
  | buffered (S : RIPSimulator InteractiveBranchPredictor)
  /-- The loop has been left. -/
  | left (S : RIPSimulator InteractiveBranchPredictor)
  /-- It has returned. -/
  | returned (S : RIPSimulator InteractiveBranchPredictor)
  /-- An assertion has failed, or an exception was thrown. -/
  | crashed

/-- What follows a call of `proceedNStage`. -/
def Session.tested (stopped : Bool) (S : RIPSimulator InteractiveBranchPredictor) : Session :=
  if stopped then .left S else .proceeded S

/-- `RIPSimulator::runInteractively`, and `InteractiveBranchPredictor::Predict` inside. -/
def Session.act (EndAddress : Option Address) : Session → Act Session Line Bool
  | .proceeding S =>
    match S.upToExec with
    | .error _ => .work .crashed
    | .ok (none, S') => .work (.tested S'.PS.isEmpty S')
    | .ok (some E, S') =>
      match S.learnLine S' with
      | some l => .say l (.executed E S')
      | none => .work (.executed E S')
  | .executed E S =>
    match S.predictLine with
    | some l => .ask l (fun b => .deciding E (S.answered b)) .crashed
    | none => .work (.deciding E S)
  | .deciding E S =>
    match S.fromDecode E with
    | .error _ => .work .crashed
    | .ok (.stop, S') => .work (.left S')
    | .ok (_, S') => .work (.tested S'.PS.isEmpty S')
  | .proceeded S => .poll (.buffered S)
  | .buffered S =>
    if EndAddress = some S.PC then .work (.left S) else .say S.PS.printJSON (.proceeding S)
  | .left S => .say S.PS.printJSON (.returned S)
  | .returned _ | .crashed => .halt

/-! ## The client -/

/-- `res["Kind"] == "Predict"`. -/
def Line.isPredict : Line → Bool
  | .Predict _ => true
  | _ => false

/-- What `json::parse` returns, as far as `Predict` looks at it. -/
inductive JSON where
  | boolean (b : Bool)
  | object (members : List (List Char × JSON))
  | other

/-- The tests of `Predict`: an object with one member, which is a boolean. -/
def JSON.predRes : JSON → Option Bool
  | .object [(_, .boolean b)] => some b
  | _ => none

/-- `PredRes`. -/
def predResKey : List Char := ['P', 'r', 'e', 'd', 'R', 'e', 's']

/-- `whatever`, which `proceed` sends. -/
def whatever : List Char := ['w', 'h', 'a', 't', 'e', 'v', 'e', 'r']

/-- `FIXME!!`, which `predict` sends after the answer. -/
def fixme : List Char := ['F', 'I', 'X', 'M', 'E', '!', '!']

/-- `str(pred).lower()`. -/
def lower : Bool → List Char
  | true => ['t', 'r', 'u', 'e']
  | false => ['f', 'a', 'l', 's', 'e']

/-- The answer that `predict` sends: an object with the member `PredRes`. -/
def answerText (b : Bool) : List Char := ['{', '"'] ++ predResKey ++ ['"', ':'] ++ lower b ++ ['}']

/-- The word that `Predict` has extracted: `find`, then the parser and the tests. -/
def classify (parse : List Char → Option JSON) (ResStr : List Char) : Reading Bool :=
  if predResKey <:+: ResStr then
    match (parse ResStr).bind JSON.predRes with
    | some b => .answer b
    | none => .garbled
  else .other

/-- The parser reads an answer as the object that it is. -/
def ReadsAnswers (parse : List Char → Option JSON) : Prop :=
  ∀ b, parse (answerText b) = some (.object [(predResKey, .boolean b)])

/-- The words of the client, for a parser that reads its answers. -/
def spelling (parse : List Char → Option JSON) (hparse : ReadsAnswers parse) : Spelling Bool where
  nudge := whatever
  answer := answerText
  filler := fixme
  classify := classify parse
  isWord_nudge := by decide
  isWord_answer b := by cases b <;> decide
  isWord_filler := by decide
  classify_nudge := if_neg (by decide)
  classify_answer b := by
    have hfind : predResKey <:+: answerText b := ⟨['{', '"'], ['"', ':'] ++ lower b ++ ['}'], by
      cases b <;> rfl⟩
    rw [classify, if_pos hfind, hparse, Option.bind_some, JSON.predRes]
  classify_filler := if_neg (by decide)

/-- The two parties with the pipes between them. -/
abbrev Interaction : Type := System Session Line Bool (List Char)

end RipSim
