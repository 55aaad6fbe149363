import RipSim.Interactive.Parametric
import RipSim.Interactive.Protocol
import RipSim.Refinement.Machine

/-!
# Sessions

An interactive session is a run of `run` with the client's answers for a predictor.  The answers
that a session will have asked for are not known before it, but they are a list of bits, and `run`
with these bits in the place of the client (`Script`) goes through the same cycles: the pipeline
sees nothing else of its predictor.

So whatever the client answers, and however the two programs interleave, the session of a program
that terminates comes to its end after a number of steps that is linear in the length of the run,
with the registers and the memory of the specification (`session_runs`).
-/

namespace RipSim

open Dialogue

/-! ## The sequential dialogue -/

/-- The sequential dialogue gets from one point to another in at most `n` steps. -/
def Talks (EndAddress : Option Address) (choose : List Line → Bool) (n : ℕ)
    (x y : List Line × Session) : Prop :=
  ∃ k ≤ n, (·.bind (Dialogue.next (Session.act EndAddress) choose))^[k] (some x) = some y

namespace Talks

variable {EndAddress : Option Address} {choose : List Line → Bool} {m n : ℕ}
  {x y z : List Line × Session}

theorem refl : Talks EndAddress choose 0 x x := ⟨0, le_rfl, rfl⟩

theorem single (h : Dialogue.next (Session.act EndAddress) choose x = some y) :
    Talks EndAddress choose 1 x y := ⟨1, le_rfl, h⟩

theorem trans (hxy : Talks EndAddress choose m x y) (hyz : Talks EndAddress choose n y z) :
    Talks EndAddress choose (m + n) x z := by
  obtain ⟨j, hj, hx⟩ := hxy
  obtain ⟨k, hk, hy⟩ := hyz
  refine ⟨k + j, by omega, ?_⟩
  rw [Function.iterate_add_apply, hx, hy]

theorem mono (h : Talks EndAddress choose m x y) (hmn : m ≤ n) : Talks EndAddress choose n x y := by
  obtain ⟨k, hk, hx⟩ := h
  exact ⟨k, hk.trans hmn, hx⟩

/-- What is reached from the start is a point of `dialogue`. -/
theorem dialogue {S₀ : RIPSimulator InteractiveBranchPredictor}
    (h : Talks EndAddress choose n ([], .proceeding S₀) y) :
    ∃ k ≤ n, RipSim.dialogue EndAddress choose S₀ k = some y := by
  obtain ⟨k, hk, hy⟩ := h
  refine ⟨k, hk, ?_⟩
  rw [← hy]
  clear hk hy
  induction k with
  | zero => rfl
  | succ k ih =>
    rw [Function.iterate_succ_apply', ← ih]
    rfl

end Talks

namespace RIPSimulator

/-! ## A cycle and what follows it -/

section Loop

variable {σ : Type} [BranchPredictor σ] {EndAddress : Option Address} {S D : RIPSimulator σ}
  {x : Exit}

theorem isEmpty_of_cycle (h : S.cycle = .ok (.empty, D)) : D.PS.isEmpty = true := by
  rcases cycle_ok h with ⟨-, -, he⟩ |
    ⟨_, _, _, _, _, ⟨-, hx, -⟩ | ⟨_, _, -, -, hx, -⟩ | ⟨_, -, -, hx⟩⟩
  · exact he
  all_goals cases hx

/-- The loop is left after this cycle. -/
theorem runLoop_of_halting (h : S.cycle = .ok (x, D)) {r : Halt}
    (hr : D.halting EndAddress x = some r)
    (fuel : ℕ) : runLoop EndAddress (fuel + 1) S = .ok (some D) := by
  rw [runLoop_eq_runTrace, runTrace, h]
  simp only [bind, Except.bind, hr]
  rfl

/-- The loop goes on after this cycle. -/
theorem runLoop_of_going (h : S.cycle = .ok (x, D)) (hr : D.halting EndAddress x = none)
    (fuel : ℕ) : runLoop EndAddress (fuel + 1) S = runLoop EndAddress fuel D := by
  rw [runLoop_eq_runTrace, runLoop_eq_runTrace, runTrace, h]
  simp only [bind, Except.bind, hr]
  cases runTrace EndAddress fuel D <;> rfl

end Loop

/-- Where a cycle leaves the server. -/
def cycled : Except Fault (Exit × RIPSimulator InteractiveBranchPredictor) → Session
  | .error _ => .crashed
  | .ok (.stop, S) => .left S
  | .ok (_, S) => .tested S.PS.isEmpty S

variable (EndAddress : Option Address) (choose : List Line → Bool)

theorem act_deciding (E : Option Exception) (S : RIPSimulator InteractiveBranchPredictor) :
    Session.act EndAddress (.deciding E S) = .work (cycled (S.fromDecode E)) := by
  cases h : S.fromDecode E with
  | error e =>
    simp only [Session.act, h]
    rfl
  | ok y =>
    obtain ⟨x, S'⟩ := y
    cases x <;> simp only [Session.act, h] <;> rfl

theorem talks_left (said : List Line) (S : RIPSimulator InteractiveBranchPredictor) :
    Talks EndAddress choose 1 (said, .left S) (said ++ [S.PS.printJSON], .returned S) := .single rfl

variable {EndAddress choose} {D : RIPSimulator InteractiveBranchPredictor} {x : Exit}

/-- The session ends where the loop of `run` is left. -/
theorem talks_halting (said : List Line) (hx : x = .empty → D.PS.isEmpty = true) {r : Halt}
    (hr : D.halting EndAddress x = some r) :
    Talks EndAddress choose 3 (said, cycled (.ok (x, D)))
      (said ++ [D.PS.printJSON], .returned D) := by
  have hleft := talks_left EndAddress choose said D
  have hempty (he : D.PS.isEmpty = true) :
      Session.tested D.PS.isEmpty D = .left D := by rw [he]; rfl
  cases x with
  | stop => exact hleft.mono (by omega)
  | empty =>
    change Talks EndAddress choose 3 (said, Session.tested D.PS.isEmpty D) _
    rw [hempty (hx rfl)]
    exact hleft.mono (by omega)
  | next =>
    change Talks EndAddress choose 3 (said, Session.tested D.PS.isEmpty D) _
    cases he : D.PS.isEmpty with
    | true => exact hleft.mono (by omega)
    | false =>
      have hpoll : Talks EndAddress choose 1 (said, .proceeded D) (said, .buffered D) := .single rfl
      have hend : EndAddress = some D.PC := by
        by_contra hne
        rw [halting, he, if_neg Bool.false_ne_true, if_neg hne] at hr
        cases hr
      have hact : Session.act EndAddress (.buffered D) = .work (.left D) := if_pos hend
      exact (hpoll.trans (.single (by simp only [Dialogue.next, hact]))).trans hleft

/-- The session goes on where the loop of `run` does, and prints the stages. -/
theorem talks_going (said : List Line) (hr : D.halting EndAddress x = none) :
    Talks EndAddress choose 2 (said, cycled (.ok (x, D)))
      (said ++ [D.PS.printJSON], .proceeding D) := by
  obtain ⟨rfl, -⟩ := halting_none hr
  change Talks EndAddress choose 2 (said, Session.tested D.PS.isEmpty D) _
  cases he : D.PS.isEmpty with
  | true =>
    rw [halting, he] at hr
    cases hr
  | false =>
    have hpoll : Talks EndAddress choose 1 (said, .proceeded D) (said, .buffered D) := .single rfl
    have hend : EndAddress ≠ some D.PC := by
      intro hend
      rw [halting, he, if_neg Bool.false_ne_true, if_pos hend] at hr
      cases hr
    have hact : Session.act EndAddress (.buffered D) = .say D.PS.printJSON (.proceeding D) :=
      if_neg hend
    exact hpoll.trans (.single (by simp only [Dialogue.next, hact]))

end RIPSimulator

/-! ## Answers as a predictor -/

/-- A predictor that gives these answers. -/
structure Script where
  answers : List Bool

instance : BranchPredictor Script where
  Learn s _ _ := s
  Predict s _ := (s.answers.headD false, ⟨s.answers.tail⟩)

namespace RIPSimulator

/-- The simulator with answers in the place of the client. -/
def scripted (S : RIPSimulator InteractiveBranchPredictor) (bs : List Bool) : RIPSimulator Script :=
  S.mapSelf fun _ => ⟨bs⟩

variable (S M : RIPSimulator InteractiveBranchPredictor)

theorem upToExec_scripted (bs : List Bool) :
    (S.scripted bs).upToExec = (fun x => (x.1, x.2.scripted bs)) <$> S.upToExec :=
  upToExec_mapSelf S fun _ _ _ => rfl

theorem answered_scripted (b : Bool) (bs : List Bool) :
    (M.answered b).scripted bs = M.scripted bs := by
  obtain ⟨_, _, _, _, _, _, _, BP, _, _⟩ := M
  cases BP <;> rfl

theorem predictLine_answered (b : Bool) : (M.answered b).predictLine = M.predictLine := by
  obtain ⟨_, _, _, _, _, PS, _, BP, _, _⟩ := M
  unfold predictLine
  cases hI : PS.Insts.DE <;> cases BP <;> simp [answered, hI]

/-- Without a question the answers are not touched. -/
theorem fromDecode_scripted_quiet {M : RIPSimulator InteractiveBranchPredictor}
    (hl : M.predictLine = none)
    (E : Option Exception) (bs : List Bool) :
    (M.scripted bs).fromDecode E = (fun x => (x.1, x.2.scripted bs)) <$> M.fromDecode E :=
  fromDecode_mapSelf (fun B _ => ⟨fun h => absurd h (by simp [hl]), fun _ => rfl⟩) E

/-- A question takes the next answer. -/
theorem fromDecode_scripted_asked {M : RIPSimulator InteractiveBranchPredictor} {l : Line}
    (hl : M.predictLine = some l) (E : Option Exception) (b : Bool) (bs : List Bool) :
    (M.scripted (b :: bs)).fromDecode E =
      (fun x => (x.1, x.2.scripted bs)) <$> (M.answered b).fromDecode E := by
  rw [← answered_scripted M b]
  refine fromDecode_mapSelf (fun B hB => ⟨fun _ => ?_, fun h => ?_⟩) E
  · obtain ⟨P, -, rfl⟩ := Option.map_eq_some_iff.mp hB
    rfl
  · rw [predictLine_answered, hl] at h
    cases h

variable (EndAddress : Option Address) (choose : List Line → Bool)

/-- **A cycle of the session** is the cycle with the answers that it takes. -/
theorem talks_cycle (said : List Line) : ∃ said' bs r,
    Talks EndAddress choose 3 (said, .proceeding S) (said', cycled r) ∧
    ∀ bs', (S.scripted (bs ++ bs')).cycle = (fun x => (x.1, x.2.scripted bs')) <$> r := by
  cases hf : S.upToExec with
  | error e =>
    refine ⟨said, [], .error e, (Talks.single ?_).mono (by omega), fun bs' => ?_⟩
    · simp only [Dialogue.next, Session.act, hf]
      rfl
    · rw [List.nil_append, cycle_eq_halves, upToExec_scripted, hf]
      rfl
  | ok y =>
    obtain ⟨o, M⟩ := y
    cases o with
    | none =>
      refine ⟨said, [], .ok (.empty, M), (Talks.single ?_).mono (by omega), fun bs' => ?_⟩
      · simp only [Dialogue.next, Session.act, hf]
        rfl
      · rw [List.nil_append, cycle_eq_halves, upToExec_scripted, hf]
        rfl
    | some E =>
      obtain ⟨said₁, hfront⟩ : ∃ said₁,
          Talks EndAddress choose 1 (said, .proceeding S) (said₁, .executed E M) := by
        cases hl : S.learnLine M with
        | none => exact ⟨said, .single (by simp only [Dialogue.next, Session.act, hf, hl])⟩
        | some l => exact ⟨said ++ [l], .single (by simp only [Dialogue.next, Session.act, hf, hl])⟩
      have hcycle : ∀ bs r, (M.scripted bs).fromDecode E = r → (S.scripted bs).cycle = r := by
        intro bs r hr
        rw [cycle_eq_halves, upToExec_scripted, hf]
        exact hr
      cases hl : M.predictLine with
      | none =>
        refine ⟨said₁, [], M.fromDecode E, ?_, fun bs' =>
          hcycle _ _ (fromDecode_scripted_quiet hl E _)⟩
        have hask : Talks EndAddress choose 1 (said₁, .executed E M) (said₁, .deciding E M) :=
          .single (by simp only [Dialogue.next, Session.act, hl])
        exact (hfront.trans hask).trans (.single (by simp only [Dialogue.next, act_deciding]))
      | some l =>
        have hask : Talks EndAddress choose 1 (said₁, .executed E M)
            (said₁ ++ [l], .deciding E (M.answered (choose (said₁ ++ [l])))) :=
          .single (by simp only [Dialogue.next, Session.act, hl])
        refine ⟨said₁ ++ [l], [choose (said₁ ++ [l])],
          (M.answered (choose (said₁ ++ [l]))).fromDecode E, ?_,
          fun bs' => hcycle _ _ (fromDecode_scripted_asked hl E _ _)⟩
        exact (hfront.trans hask).trans (.single (by simp only [Dialogue.next, act_deciding]))

/-- **A session that ends whatever is answered** ends as `run` does with its answers. -/
theorem talks_run {fuel : ℕ} (h : ∀ bs, ∃ T, runLoop EndAddress fuel (S.scripted bs) = .ok (some T))
    (said : List Line) : ∃ said' bs T,
    Talks EndAddress choose (5 * fuel + 1) (said, .proceeding S) (said', .returned T) ∧
    runLoop EndAddress fuel (S.scripted bs) = .ok (some (T.scripted [])) := by
  induction fuel generalizing S said with
  | zero =>
    obtain ⟨T, hT⟩ := h []
    cases hT
  | succ fuel ih =>
    obtain ⟨said₁, bs, r, htalks, hr⟩ := talks_cycle S EndAddress choose said
    cases r with
    | error e =>
      obtain ⟨T, hT⟩ := h (bs ++ [])
      unfold runLoop proceedNStage at hT
      rw [hr] at hT
      cases hT
    | ok y =>
      obtain ⟨x, D⟩ := y
      have hcycle : ∀ bs', (S.scripted (bs ++ bs')).cycle = .ok (x, D.scripted bs') := hr
      have hempty : x = .empty → D.PS.isEmpty = true := by
        rintro rfl
        have he := isEmpty_of_cycle (hcycle [])
        exact he
      cases hh : D.halting EndAddress x with
      | some r =>
        exact ⟨_, bs ++ [], D, (htalks.trans (talks_halting said₁ hempty hh)).mono (by omega),
          runLoop_of_halting (hcycle []) hh fuel⟩
      | none =>
        have hgoing : ∀ bs', runLoop EndAddress (fuel + 1) (S.scripted (bs ++ bs')) =
            runLoop EndAddress fuel (D.scripted bs') :=
          fun bs' => runLoop_of_going (hcycle bs') hh fuel
        obtain ⟨said', bs', T, hrest, hT⟩ := ih D (fun bs' => by
          rw [← hgoing]
          exact h _) (said₁ ++ [D.PS.printJSON])
        exact ⟨said', bs ++ bs', T,
          ((htalks.trans (talks_going said₁ hh)).trans hrest).mono (by omega),
          (hgoing bs').trans hT⟩

theorem Started.scripted {S₀ : RIPSimulator InteractiveBranchPredictor} (h₀ : Started S₀)
    (bs : List Bool) : Started (S₀.scripted bs) where
  PS := h₀.PS
  States := h₀.States
  Mode := h₀.Mode
  NumStages := h₀.NumStages
  BP := by
    obtain ⟨self, hself⟩ := h₀.BP
    refine ⟨self.map fun _ => ⟨bs⟩, ?_⟩
    change S₀.BP.map _ = _
    rw [hself]
    cases self <;> rfl

end RIPSimulator

open RIPSimulator

/-- **An interactive session runs RV32IM programs, whatever is answered.**  If the specification
comes to an end after `m` instructions, then every interleaving of the server with its client
comes to an end after at most `150 * m + 222` steps, and there the server has returned with the
registers and the memory of the specification, and the client has read all that it printed. -/
theorem session_runs {S₀ : RIPSimulator InteractiveBranchPredictor} (h₀ : Started S₀)
    (hc : Confined S₀.hart) {m : ℕ} (hm : (S₀.hart.arch.after m).fetch = none)
    {parse : List Char → Option JSON} (hparse : ReadsAnswers parse) (choose : List Line → Bool) :
    ∃ said T, (T.GPRegs.Regs = (S₀.hart.arch.after m).x ∧
        T.hart.arch.mem = (S₀.hart.arch.after m).mem) ∧
      ∀ k s, Interaction.Steps parse hparse none choose S₀ k s → k ≤ 150 * m + 222 ∧
        ((∀ t, ¬Interaction.Step parse hparse none choose s t) →
          s.server = .run (.returned T) ∧ s.heard = said ∧ s.phase = .gone) := by
  have hend := (hc.follows m).fetch_none hc.toFits hm
  have hsettles (bs : List Bool) : ∃ T, (S₀.scripted bs).run none none (3 * m + 4) = .ok (some T) ∧
      Settled S₀.hart m T :=
    (h₀.scripted bs).settles hc.regular
      ((h₀.scripted bs).fetchesInDRAM hc.regular fun _ _ _ => hc.near) hend
  obtain ⟨said, bs, T, htalks, hT⟩ := talks_run S₀ none choose
    (fun bs => (hsettles bs).imp fun _ => And.left) []
  obtain ⟨N, hN, hdialogue⟩ := htalks.dialogue
  obtain ⟨T', hT', hset⟩ := hsettles bs
  obtain rfl := Option.some.inj (Except.ok.inj (hT'.symm.trans hT))
  have harch := (hc.follows m).arch
  refine ⟨said, T, ⟨?_, ?_⟩, fun k s hs => ?_⟩
  · rw [← harch]
    exact congrArg GPRegisters.Regs hset.GPRegs
  · rw [← harch]
    funext a
    change T.Mem.DRAM (a.setWidth 64 - T.Mem.DRAMBase) = _
    rw [show T.Mem = (S₀.hart.after m).Mem from hset.Mem]
    rfl
  · obtain ⟨hk, hstuck⟩ := hs.ends (Session.polite none) hdialogue rfl
    exact ⟨by omega, hstuck⟩

/-- A session of `countdown` with a client that always says that the branch is not taken. -/
theorem session_runs_countdown :
    ∃ T, T.GPRegs 1 = 0 ∧ T.hart.arch.word 60 = 0 ∧ ∀ k s,
      Interaction.Steps readAnswer readsAnswers_readAnswer none (fun _ => false)
        (boot countdown (some ⟨false⟩)) k s → k ≤ 1272 ∧
      ((∀ t, ¬Interaction.Step readAnswer readsAnswers_readAnswer none (fun _ => false) s t) →
        s.server = .run (.returned T)) := by
  have hc : Confined (boot countdown (some (InteractiveBranchPredictor.mk false))).hart :=
    countdown_confined
  obtain ⟨said, T, ⟨hx, hmem⟩, hT⟩ := session_runs (m := 7) (started_boot _ _) hc countdown_end
    readsAnswers_readAnswer fun _ => false
  refine ⟨T, ?_, ?_, fun k s hs => ?_⟩
  · rw [hx]
    decide +kernel
  · unfold RV32IM.State.word
    rw [hmem]
    decide +kernel
  · obtain ⟨hk, hstuck⟩ := hT k s hs
    exact ⟨by omega, fun h => (hstuck h).1⟩

end RipSim
