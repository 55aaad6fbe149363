import RipSim.Pipeline.Trace

/-!
# Tracking instructions

Two instructions of the pipeline may be equal without being the same.  To say which is which,
an instruction gets a tag when it is fetched, with its address and the cycle; `proceed` and
`fillBubble` move and remove the tag with the pointer it belongs to, and a call of `decode` is
noted.  The simulator does not look at tags (`erase_cycle`), so every run has a track
(`tracked_after`).
-/

namespace RipSim

/-! ## Tags -/

/-- Which instruction was fetched, from where and in which cycle. -/
structure Tag where
  inst : Instruction
  PC : Address
  cycle : ℕ
  deriving DecidableEq, Repr

/-- The tags of the instructions in the pipeline, after so many cycles, and on which instruction
`decode` has run, in which cycle, the last call first. -/
structure Track where
  cycles : ℕ
  tags : Staged (Option Tag)
  decodes : List (Tag × ℕ)

/-- The entry of a stage, `operator[]`. -/
def Staged.get {α : Type} (I : Staged α) : STAGES → α
  | .IF => I.IF
  | .DE => I.DE
  | .EX => I.EX
  | .MA => I.MA
  | .WB => I.WB

/-- Every entry of an array. -/
def Staged.map {α β : Type} (f : α → β) (I : Staged α) : Staged β :=
  ⟨f I.IF, f I.DE, f I.EX, f I.MA, f I.WB⟩

@[simp] theorem Staged.map_get {α β : Type} (f : α → β) (I : Staged α) (s : STAGES) :
    (I.map f).get s = f (I.get s) := by
  cases s <;> rfl

/-- `proceed`, for what belongs to the instructions. -/
def carry {α : Type} (Stalled : Staged Bool) (new : Option α) (I : Staged (Option α)) :
    Staged (Option α) :=
  if Stalled.MA then I
  else if Stalled.EX then { I with WB := I.MA, MA := none }
  else if Stalled.DE then { I with WB := I.MA, MA := I.EX, EX := none }
  else if Stalled.IF then { I with WB := I.MA, MA := I.EX, EX := I.DE, DE := none }
  else { IF := new, DE := I.IF, EX := I.DE, MA := I.EX, WB := I.MA }

/-- `fillBubble`, for what belongs to the instructions. -/
def drop {α : Type} (Invalid : Staged Bool) (I : Staged (Option α)) : Staged (Option α) where
  IF := if Invalid.IF then none else I.IF
  DE := if Invalid.DE then none else I.DE
  EX := if Invalid.EX then none else I.EX
  MA := if Invalid.MA then none else I.MA
  WB := if Invalid.WB then none else I.WB

variable {α β : Type} (f : α → β)

theorem carry_map (Stalled : Staged Bool) (new : Option α) (I : Staged (Option α)) :
    (carry Stalled new I).map (Option.map f) =
      carry Stalled (new.map f) (I.map (Option.map f)) := by
  unfold carry
  split_ifs <;> rfl

theorem drop_map (Invalid : Staged Bool) (I : Staged (Option α)) :
    (drop Invalid I).map (Option.map f) = drop Invalid (I.map (Option.map f)) := by
  obtain ⟨i, d, e, m, w⟩ := Invalid
  ext1
  · cases i <;> rfl
  · cases d <;> rfl
  · cases e <;> rfl
  · cases m <;> rfl
  · cases w <;> rfl

theorem proceed_insts (PS : PipelineStates) (I : Option Instruction) :
    (PS.proceed I).Insts = carry PS.StalledStages I PS.Insts := rfl

theorem fillBubble_insts (PS : PipelineStates) :
    PS.fillBubble.Insts = drop PS.InvalidStages PS.Insts := rfl

/-! ## A tracked simulator -/

/-- A simulator and its track. -/
structure Tracked (σ : Type) where
  sim : RIPSimulator σ
  track : Track

namespace Tracked

variable {σ : Type} (X : Tracked σ)

/-- The instruction that the next cycle fetches. -/
def fetches : Option Tag :=
  if X.sim.PS.StalledStages.IF then none
  else ((X.sim.Mem.readWord X.sim.PC).toOption.bind Decoder.decode).map fun I =>
    ⟨I, X.sim.PC, X.track.cycles⟩

/-- The tags after the fetch that opens the cycle. -/
def moved : Staged (Option Tag) := carry X.sim.PS.StalledStages X.fetches X.track.tags

/-- The calls of `decode`, if `D` is the state that the stages leave.  `decode` runs on what is
in DE unless DE is stalled, and changes neither. -/
def decoding (D : RIPSimulator σ) : List (Tag × ℕ) :=
  if D.PS.Insts.DE.isSome && !D.PS.StalledStages.DE then
    (X.moved.DE.map (·, X.track.cycles)).toList ++ X.track.decodes
  else X.track.decodes

/-- The end of a cycle, from the state `D` that the stages and the exception leave. -/
def ended (decodes : List (Tag × ℕ)) (D : RIPSimulator σ) : Tracked σ where
  sim := D.redirect.finish
  track := ⟨X.track.cycles + 1, drop D.PS.InvalidStages X.moved, decodes⟩

/-- One iteration of the loop of `RIPSimulator::proceedNStage`, tracked. -/
def cycle [BranchPredictor σ] : Except Fault (RIPSimulator.Exit × Tracked σ) := do
  let A ← X.sim.advance
  if A.PS.isEmpty then return (.empty, ⟨A, ⟨X.track.cycles + 1, X.moved, X.track.decodes⟩⟩)
  else
    let (E, M) ← A.stages
    match E with
    | none => return (.next, X.ended (X.decoding M) M)
    | some E =>
      let (goesOn, D) ← M.handleException E
      if goesOn then return (.next, X.ended (X.decoding M) D)
      else return (.stop, ⟨D, ⟨X.track.cycles + 1, X.moved, X.decoding M⟩⟩)

variable {X} {Y : Tracked σ} [BranchPredictor σ]

/-- **The simulator does not see the track.** -/
theorem erase_cycle (X : Tracked σ) :
    (fun p => (p.1, p.2.sim)) <$> X.cycle = X.sim.cycle := by
  unfold cycle RIPSimulator.cycle
  cases X.sim.advance with
  | error e => rfl
  | ok A =>
    simp only [bind, Except.bind]
    cases A.PS.isEmpty with
    | true => rfl
    | false =>
      simp only [Bool.false_eq_true, if_false]
      cases A.stages with
      | error e => rfl
      | ok p =>
        obtain ⟨E, M⟩ := p
        cases E with
        | none => rfl
        | some e =>
          simp only
          cases M.handleException e with
          | error e' => rfl
          | ok q =>
            obtain ⟨goesOn, D⟩ := q
            cases goesOn <;> rfl

/-- One cycle, however it ends. -/
def Step (x : RIPSimulator.Exit) (X Y : Tracked σ) : Prop := X.cycle = .ok (x, Y)

variable {x : RIPSimulator.Exit}

theorem Step.sim (h : Step x X Y) : X.sim.cycle = .ok (x, Y.sim) := by
  rw [← erase_cycle, h]
  rfl

theorem exists_step {S : RIPSimulator σ} (h : X.sim.cycle = .ok (x, S)) :
    ∃ Y, Step x X Y ∧ Y.sim = S := by
  rw [← erase_cycle] at h
  cases hX : X.cycle with
  | error e =>
    rw [hX] at h
    exact nomatch h
  | ok p =>
    obtain ⟨x', Y⟩ := p
    rw [hX] at h
    obtain ⟨rfl, rfl⟩ := Prod.mk.inj (Except.ok.inj h)
    exact ⟨Y, hX, rfl⟩

/-- The state after `n` cycles that go on. -/
def after (X : Tracked σ) : ℕ → Option (Tracked σ)
  | 0 => some X
  | n + 1 => (X.after n).bind fun Y =>
    match Y.cycle with
    | .ok (.next, Z) => some Z
    | _ => none

theorem after_succ {n : ℕ} :
    X.after (n + 1) = some Y ↔ ∃ Z, X.after n = some Z ∧ Step .next Z Y := by
  show (X.after n).bind _ = some Y ↔ _
  rw [Option.bind_eq_some_iff]
  refine exists_congr fun Z => and_congr_right fun _ => ?_
  constructor
  · intro h
    split at h
    · rename_i Z' hZ'
      injection h with h
      exact h ▸ hZ'
    · exact nomatch h
  · intro h
    rw [show Z.cycle = .ok (.next, Y) from h]

end Tracked

open Tracked

/-- The track of a simulator that has just been started. -/
def RIPSimulator.tracked {σ : Type} (S : RIPSimulator σ) : Tracked σ where
  sim := S
  track := ⟨0, Staged.const none, []⟩

/-- **Every run has a track.** -/
theorem tracked_after {σ : Type} [BranchPredictor σ] {S₀ : RIPSimulator σ} (n : ℕ)
    {S : RIPSimulator σ} (h : RIPSimulator.after n S₀ = some S) :
    ∃ X, S₀.tracked.after n = some X ∧ X.sim = S := by
  induction n generalizing S with
  | zero => exact ⟨S₀.tracked, rfl, Option.some.inj h⟩
  | succ n ih =>
    obtain ⟨T, hT, hn⟩ := RIPSimulator.after_succ h
    obtain ⟨X, hX, rfl⟩ := ih hT
    obtain ⟨Y, hY, rfl⟩ := exists_step hn
    exact ⟨Y, after_succ.mpr ⟨X, hX, hY⟩, rfl⟩

end RipSim
