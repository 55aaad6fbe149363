import RipSim.Interactive.Sessions
import RipSim.Pipeline.Protocol

/-!
# A predictor at the other end

A client that keeps a predictor, trains it with the `Learn` lines and asks it for its answers is
as good as that predictor inside the simulator.  The `Predict` line does not say which branch it
is about; the last line of stages does: the stalled instruction in DE, else the one in IF
(`Staged.asked`).

The dialogue with such a client goes through the states of `run` (`hosted_run`), for any predictor
and any program, traps included; and so does every interleaving of the two programs
(`hosted_predictor`).
-/

namespace RipSim

open Dialogue

/-! ## The client -/

/-- The address that the next `Predict` is about. -/
def Staged.asked (stages : Staged (Option JStage)) : Address :=
  let fetched := (stages.IF.map JStage.PC).getD 0
  match stages.DE with
  | some J => if J.isStall then J.PC else fetched
  | none => fetched

/-- A predictor, and the address that it will be asked about. -/
structure Host (σ : Type) where
  self : σ
  PC : Address

namespace Host

variable {σ : Type} [BranchPredictor σ]

/-- The client has read a line. -/
def hear (H : Host σ) : Line → Host σ
  | .PipelineStates stages => { H with PC := stages.asked }
  | .Learn Cond PC => { H with self := BranchPredictor.Learn H.self Cond PC }
  | .Predict _ => { H with self := (BranchPredictor.Predict H.self H.PC).2 }

/-- The client after these lines. -/
def after (self₀ : σ) (heard : List Line) : Host σ := heard.foldl hear ⟨self₀, 0⟩

/-- The answer to the last line. -/
def choose (self₀ : σ) (heard : List Line) : Bool :=
  (BranchPredictor.Predict (after self₀ heard.dropLast).self (after self₀ heard.dropLast).PC).1

theorem after_concat (self₀ : σ) (heard : List Line) (l : Line) :
    after self₀ (heard ++ [l]) = (after self₀ heard).hear l := List.foldl_append ..

theorem choose_concat (self₀ : σ) (heard : List Line) (l : Line) :
    choose self₀ (heard ++ [l]) =
      (BranchPredictor.Predict (after self₀ heard).self (after self₀ heard).PC).1 := by
  rw [choose, List.dropLast_concat]

end Host

/-- The address that a line of stages shows. -/
def PipelineStates.asked (PS : PipelineStates) : Address :=
  match PS.printJSON with
  | .PipelineStates stages => stages.asked
  | _ => 0

namespace RIPSimulator

variable {σ : Type} [BranchPredictor σ] {S A B M : RIPSimulator σ} {E : Option Exception}

theorem upToExec_ok (h : S.upToExec = .ok (some E, M)) : ∃ A B, Through S A B M E := by
  unfold upToExec at h
  cases hA : S.advance with
  | error e =>
    rw [hA] at h
    cases h
  | ok A =>
    rw [hA] at h
    change (if A.PS.isEmpty then _ else _) = _ at h
    cases he : A.PS.isEmpty with
    | true =>
      rw [he] at h
      cases h
    | false =>
      rw [he, if_neg Bool.false_ne_true, writeback_eq] at h
      simp only [bind, Except.bind] at h
      cases hB : A.written.memoryaccess with
      | error e =>
        rw [hB] at h
        cases h
      | ok B =>
        rw [hB] at h
        dsimp only at h
        cases hM : B.exec with
        | error e =>
          rw [hM] at h
          cases h
        | ok x =>
          rw [hM] at h
          obtain ⟨E', M'⟩ := x
          obtain ⟨h1, h2⟩ := Prod.mk.inj (Except.ok.inj h)
          obtain rfl := Option.some.inj h1
          obtain rfl := h2
          exact ⟨A, B, hA, he, hB, hM⟩

/-- What `decode` predicts is the branch that the last line of stages shows. -/
theorem Clean.asked (hc : Clean S) (ht : Through S A B M E) {I : Instruction}
    (hI : M.PS.Insts.DE = some I) : M.PS.PCs.DE = S.PS.asked := by
  rw [ht.insts.1] at hI
  rw [ht.insts.2]
  have hstall := hc.stall
  rcases advance_ok ht.advance with ⟨hs, rfl⟩ | ⟨hs, w, _, rfl⟩
  · rw [hs] at hstall
    rw [(hc.shifted_insts hs).1] at hI
    rw [(hc.shifted_insts hs).2]
    dsimp only at hI
    simp [PipelineStates.asked, PipelineStates.printJSON, Staged.asked, hI, JStage.new, hstall,
      stalls]
  · rw [hs] at hstall
    rw [(hc.fetched_insts hs w).1] at hI
    rw [(hc.fetched_insts hs w).2]
    dsimp only at hI
    cases hDE : S.PS.Insts.DE <;>
      simp [PipelineStates.asked, PipelineStates.printJSON, Staged.asked, hI, hDE, JStage.new,
        hstall, stalls]

/-! ### What happens to the object -/

omit [BranchPredictor σ] in
theorem learnLine_of_BP (h : M.BP = S.BP) : S.learnLine M = none := by
  unfold learnLine
  rw [h]
  cases S.BP with
  | none => rfl
  | some P =>
    dsimp only
    split
    · rename_i hcs
      rw [if_neg (by rw [hcs, List.length_cons]; omega)]
    · rfl

/-- `exec` trains the object and prints the line, or does neither. -/
theorem Through.learn (ht : Through S A B M E) {P : BPBase σ} (hP : S.BP = some P) :
    (S.learnLine M = none ∧ M.BP = some P) ∨
    ∃ Cond PC P', S.learnLine M = some (.Learn Cond PC) ∧ M.BP = some P' ∧
      P'.self = BranchPredictor.Learn P.self Cond PC := by
  have hf := memoryaccess_frame ht.access
  obtain ⟨_, _, _, _, hwBP, _, _, _⟩ := A.written_frame
  obtain ⟨_, _, _, _, _, haBP, _⟩ := advance_frame ht.advance
  have hBP : B.BP = some P := by rw [hf.BP, hwBP, haBP, hP]
  obtain ⟨hlearn, hkeep⟩ := exec_calls ht.exec
  cases hb : B.branchInEX with
  | false =>
    have hM : M.BP = some P := (hkeep hb).trans hBP
    exact .inl ⟨learnLine_of_BP (hM.trans hP.symm), hM⟩
  | true =>
    unfold branchInEX at hb
    cases hI : B.PS.Insts.EX with
    | none =>
      rw [hI] at hb
      exact absurd hb Bool.false_ne_true
    | some I =>
      rw [hI] at hb
      obtain ⟨P', hP', hcalls, hself⟩ := hlearn I P hI hb hBP
      refine .inr ⟨_, _, P', ?_, hP', hself⟩
      unfold learnLine
      rw [hP, hP']
      dsimp only
      rw [hcalls]
      exact if_pos rfl

/-- `decode` asks the object and prints the line, or does neither. -/
theorem predictLine_cases {P : BPBase σ} (hP : M.BP = some P) :
    (M.predictLine = none ∧ M.decoded.BP = some P) ∨
    ∃ I P', M.PS.Insts.DE = some I ∧ M.predictLine = some (.Predict P.PrevPred) ∧
      M.decoded.BP = some P' ∧ P'.self = (BranchPredictor.Predict P.self M.PS.PCs.DE).2 := by
  unfold predictLine decoded
  cases hI : M.PS.Insts.DE with
  | none => exact .inl ⟨rfl, hP⟩
  | some I =>
    rw [hP]
    dsimp only
    cases hs : M.PS.StalledStages.DE with
    | true => simp [hP]
    | false =>
      cases hb : I.isBType with
      | false =>
        left
        simp [predicted, hb, hP]
      | true =>
        right
        have hpred : ∃ P', M.predicted I = some P' ∧
            P'.self = (BranchPredictor.Predict P.self M.PS.PCs.DE).2 := by
          unfold predicted
          rw [hb, hP]
          dsimp only
          split_ifs
          · exact ⟨_, rfl, rfl⟩
          · exact ⟨_, rfl, rfl⟩
        obtain ⟨P', hP', hself⟩ := hpred
        exact ⟨I, P', rfl, rfl, hP', hself⟩

/-- The rest of the cycle leaves the object alone. -/
theorem Through.fromDecode_self (ht : Through S A B M E) {x : Exit} {D : RIPSimulator σ}
    (h : S.cycle = .ok (x, D)) {P : BPBase σ} (hP : M.decoded.BP = some P) :
    ∃ P', D.BP = some P' ∧ P'.self = P.self := by
  have hnext : ∀ D : RIPSimulator σ, D.BP = some P →
      ∃ P', D.redirect.finish.BP = some P' ∧ P'.self = P.self := by
    intro D hD
    rw [redirect_eq]
    refine ⟨{ P with BranchPredPC := none }, ?_, rfl⟩
    change D.BP.map _ = _
    rw [hD]
    rfl
  rcases cycle_ok h with ⟨-, hA, he⟩ | ⟨A', B', M', E', ht', hcase⟩
  · obtain rfl := Except.ok.inj (hA.symm.trans ht.advance)
    rw [ht.nonempty] at he
    exact absurd he Bool.false_ne_true
  · obtain ⟨rfl, rfl, rfl, rfl⟩ := ht'.unique ht
    rcases hcase with ⟨-, -, rfl⟩ | ⟨e, D', rfl, hD, -, rfl⟩ | ⟨e, rfl, hD, -⟩
    · exact hnext _ hP
    · obtain ⟨_, _, _, hBP, _⟩ := (ht.handled hD).frame
      exact hnext _ (hBP.trans hP)
    · rcases handleException_ok (exec_exception ht.exec) hD with ⟨-, -, rfl⟩ | ⟨-, hg, -⟩ |
        ⟨-, -, hg, -⟩
      · exact ⟨P, hP, rfl⟩
      · cases hg
      · cases hg

/-! ## The dialogue with a host -/

/-- The interactive simulator beside this one, with an answer at hand. -/
def remote (S : RIPSimulator σ) (b : Bool) : RIPSimulator InteractiveBranchPredictor :=
  S.mapSelf fun _ => ⟨b⟩

/-- The client keeps the predictor of the simulator, and knows what it will be asked. -/
def Mirrors (self₀ : σ) (said : List Line) (PC : Address) (S : RIPSimulator σ) : Prop :=
  ∃ P, S.BP = some P ∧ Host.after self₀ said = ⟨P.self, PC⟩

variable (EndAddress : Option Address) {self₀ : σ} {said : List Line} {b : Bool} {PC : Address}

omit [BranchPredictor σ] in
theorem learnLine_remote (S M : RIPSimulator σ) (b : Bool) :
    (S.remote b).learnLine (M.remote b) = S.learnLine M := by
  obtain ⟨_, _, _, _, _, _, _, BP, _, _⟩ := S
  obtain ⟨_, _, _, _, _, _, _, BP', _, _⟩ := M
  cases BP <;> cases BP' <;> rfl

omit [BranchPredictor σ] in
theorem predictLine_remote (M : RIPSimulator σ) (b : Bool) :
    (M.remote b).predictLine = M.predictLine := by
  obtain ⟨_, _, _, _, _, PS, _, BP, _, _⟩ := M
  unfold predictLine
  cases hI : PS.Insts.DE <;> cases BP <;> simp [remote, mapSelf, hI]
  rfl

theorem upToExec_remote (S : RIPSimulator σ) (b : Bool) :
    (S.remote b).upToExec = (fun x => (x.1, x.2.remote b)) <$> S.upToExec :=
  upToExec_mapSelf S fun _ _ _ => rfl

/-- The dialogue up to `decode`. -/
theorem talks_front (ht : Through S A B M E) (hf : S.upToExec = .ok (some E, M))
    (hm : Mirrors self₀ said PC S) :
    ∃ said', Talks EndAddress (Host.choose self₀) 1 (said, .proceeding (S.remote b))
      (said', .executed E (M.remote b)) ∧ Mirrors self₀ said' PC M := by
  obtain ⟨P, hP, hhost⟩ := hm
  have hfront : (S.remote b).upToExec = .ok (some E, M.remote b) := by
    rw [upToExec_remote, hf]
    rfl
  rcases ht.learn hP with ⟨hl, hM⟩ | ⟨Cond, PC', P', hl, hM, hself⟩
  · refine ⟨said, .single ?_, P, hM, hhost⟩
    simp only [Dialogue.next, Session.act, hfront, learnLine_remote, hl]
  · refine ⟨said ++ [.Learn Cond PC'], .single ?_, P', hM, ?_⟩
    · simp only [Dialogue.next, Session.act, hfront, learnLine_remote, hl]
    · rw [Host.after_concat, hhost, hself]
      rfl

omit [BranchPredictor σ] in
theorem answered_remote (M : RIPSimulator σ) (b b' : Bool) :
    (M.remote b).answered b' = M.remote b' := by
  obtain ⟨_, _, _, _, _, _, _, BP, _, _⟩ := M
  cases BP <;> rfl

/-- The half of the cycle after an answer that is the bit of the predictor. -/
theorem fromDecode_remote {b' : Bool} (hbit : ∀ P, M.BP = some P → M.predictLine.isSome = true →
      (BranchPredictor.Predict P.self M.PS.PCs.DE).1 = b') (E : Option Exception) :
    (M.remote b').fromDecode E = (fun x => (x.1, x.2.remote b')) <$> M.fromDecode E :=
  fromDecode_mapSelf (fun P hP => ⟨fun hl => by rw [hbit P hP hl]; rfl, fun _ => rfl⟩) E

/-- The dialogue from `decode` on: the answer is the bit of the predictor. -/
theorem talks_back (hc : Clean S) (ht : Through S A B M E) {x : Exit} {D : RIPSimulator σ}
    (hcycle : S.cycle = .ok (x, D)) (hb : M.fromDecode E = .ok (x, D))
    (hm : Mirrors self₀ said S.PS.asked M) :
    ∃ said' b', Talks EndAddress (Host.choose self₀) 2 (said, .executed E (M.remote b))
        (said', cycled (.ok (x, D.remote b'))) ∧
      ∃ P, D.BP = some P ∧ (Host.after self₀ said').self = P.self := by
  obtain ⟨P, hP, hhost⟩ := hm
  have hhalf : ∀ b', (∀ P, M.BP = some P → M.predictLine.isSome = true →
      (BranchPredictor.Predict P.self M.PS.PCs.DE).1 = b') → ∀ said',
      Talks EndAddress (Host.choose self₀) 1 (said', .deciding E (M.remote b'))
        (said', cycled (.ok (x, D.remote b'))) := by
    intro b' hbit said'
    have hback : (M.remote b').fromDecode E = .ok (x, D.remote b') := by
      rw [fromDecode_remote hbit, hb]
      rfl
    exact .single (by simp only [Dialogue.next, act_deciding, hback])
  rcases predictLine_cases hP with ⟨hl, hD⟩ | ⟨I, P', hI, hl, hD, hself⟩
  · obtain ⟨P', hDP, hDself⟩ := ht.fromDecode_self hcycle hD
    have hask : Talks EndAddress (Host.choose self₀) 1 (said, .executed E (M.remote b))
        (said, .deciding E (M.remote b)) :=
      .single (by simp only [Dialogue.next, Session.act, predictLine_remote, hl])
    refine ⟨said, b, hask.trans (hhalf b (fun _ _ h => ?_) said), P', hDP, by rw [hhost, hDself]⟩
    rw [hl] at h
    cases h
  · have hPC := hc.asked ht hI
    obtain ⟨P₂, hDP, hDself⟩ := ht.fromDecode_self hcycle hD
    have hask : Talks EndAddress (Host.choose self₀) 1 (said, .executed E (M.remote b))
        (said ++ [.Predict P.PrevPred], .deciding E
          (M.remote (BranchPredictor.Predict P.self S.PS.asked).1)) :=
      .single (by simp only [Dialogue.next, Session.act, predictLine_remote, hl, answered_remote,
        Host.choose_concat, hhost])
    refine ⟨said ++ [.Predict P.PrevPred], _, hask.trans (hhalf _ (fun P₁ hP₁ _ => ?_) _), P₂, hDP,
      ?_⟩
    · obtain rfl := Option.some.inj (hP.symm.trans hP₁)
      rw [hPC]
    · rw [Host.after_concat, hhost, hDself, hself, hPC]
      rfl

/-- **A cycle of the dialogue** is the cycle of the simulator that has the predictor inside. -/
theorem hosted_cycle (hc : Clean S) {x : Exit} {D : RIPSimulator σ} (h : S.cycle = .ok (x, D))
    (hm : Mirrors self₀ said S.PS.asked S) :
    ∃ said' b', Talks EndAddress (Host.choose self₀) 3 (said, .proceeding (S.remote b))
        (said', cycled (.ok (x, D.remote b'))) ∧
      ∃ P, D.BP = some P ∧ (Host.after self₀ said').self = P.self := by
  have hhalves := h
  rw [cycle_eq_halves] at hhalves
  cases hf : S.upToExec with
  | error e =>
    rw [hf] at hhalves
    cases hhalves
  | ok y =>
    obtain ⟨o, M⟩ := y
    rw [hf] at hhalves
    cases o with
    | none =>
      obtain ⟨rfl, rfl⟩ := Prod.mk.inj (Except.ok.inj hhalves)
      obtain ⟨P, hP, hhost⟩ := hm
      have hfront : (S.remote b).upToExec = .ok (none, M.remote b) := by
        rw [upToExec_remote, hf]
        rfl
      refine ⟨said, b, (Talks.single ?_).mono (by omega), P, ?_, by rw [hhost]⟩
      · simp only [Dialogue.next, Session.act, hfront]
        rfl
      · rcases cycle_ok h with ⟨-, hA, -⟩ | ⟨_, _, _, _, _, ⟨-, hx, -⟩ | ⟨_, _, -, -, hx, -⟩ |
          ⟨_, -, -, hx⟩⟩
        · obtain ⟨_, _, _, _, _, hBP, _⟩ := advance_frame hA
          exact hBP.trans hP
        all_goals cases hx
    | some E =>
      obtain ⟨A, B, ht⟩ := upToExec_ok hf
      obtain ⟨said₁, hfront, hm₁⟩ := talks_front EndAddress (b := b) ht hf hm
      obtain ⟨said₂, b', hback, hD⟩ := talks_back EndAddress (b := b) hc ht h hhalves hm₁
      exact ⟨said₂, b', (hfront.trans hback).mono (by omega), hD⟩

/-- **The loop of the dialogue** is the loop of the simulator that has the predictor inside. -/
theorem hosted_run {fuel : ℕ} {T : RIPSimulator σ} (hc : Clean S)
    (hm : Mirrors self₀ said S.PS.asked S) (h : runLoop EndAddress fuel S = .ok (some T)) :
    ∃ said' b', Talks EndAddress (Host.choose self₀) (5 * fuel + 1) (said, .proceeding (S.remote b))
      (said', .returned (T.remote b')) := by
  induction fuel generalizing S said b with
  | zero => cases h
  | succ fuel ih =>
    cases hx : S.cycle with
    | error e =>
      unfold runLoop proceedNStage at h
      rw [hx] at h
      cases h
    | ok y =>
      obtain ⟨x, D⟩ := y
      obtain ⟨said₁, b₁, htalks, P, hP, hhost⟩ := hosted_cycle EndAddress (b := b) hc hx hm
      have hempty : x = .empty → (D.remote b₁).PS.isEmpty = true := by
        rintro rfl
        have he := isEmpty_of_cycle hx
        exact he
      cases hh : D.halting EndAddress x with
      | some r =>
        rw [runLoop_of_halting hx hh] at h
        obtain rfl := Option.some.inj (Except.ok.inj h)
        exact ⟨_, b₁, (htalks.trans (talks_halting said₁ hempty hh)).mono (by omega)⟩
      | none =>
        rw [runLoop_of_going hx hh] at h
        obtain ⟨rfl, -⟩ := halting_none hh
        have hmirror : Mirrors self₀ (said₁ ++ [D.PS.printJSON]) D.PS.asked D := by
          refine ⟨P, hP, ?_⟩
          rw [Host.after_concat, ← hhost]
          rfl
        obtain ⟨said', b', hrest⟩ := ih (b := b₁) (hc.next hx) hmirror h
        exact ⟨said', b',
          ((htalks.trans (talks_going (D := D.remote b₁) said₁ hh)).trans hrest).mono
          (by omega)⟩

end RIPSimulator

open RIPSimulator

/-- **A predictor at the other end is as good as one inside.**  If the simulator with a predictor
runs to its end, then so does every interleaving of the interactive simulator with a client that
keeps this predictor: it comes to an end after a number of steps that is linear in the number of
cycles, and there the server has returned in the state of the simulator. -/
theorem hosted_predictor {σ : Type} [BranchPredictor σ] {T₀ T : RIPSimulator σ} {self₀ : σ}
    (h₀ : Started T₀) (hB : T₀.BP = some (BPBase.new self₀)) {EndAddress : Option Address}
    {fuel : ℕ}
    (hrun : T₀.run none EndAddress fuel = .ok (some T)) {parse : List Char → Option JSON}
    (hparse : ReadsAnswers parse) (b : Bool) :
    ∃ said b', ∀ k s,
      Interaction.Steps parse hparse EndAddress (Host.choose self₀) (T₀.remote b) k s →
      k ≤ 50 * fuel + 22 ∧
      ((∀ t, ¬Interaction.Step parse hparse EndAddress (Host.choose self₀) s t) →
        s.server = .run (.returned (T.remote b')) ∧ s.heard = said ∧ s.phase = .gone) := by
  have hm : Mirrors self₀ [] T₀.PS.asked T₀ := by
    obtain ⟨d, P, hPS⟩ := h₀.PS
    refine ⟨_, hB, ?_⟩
    rw [hPS]
    rfl
  obtain ⟨said, b', htalks⟩ := hosted_run EndAddress (b := b) h₀.clean hm hrun
  obtain ⟨N, hN, hdialogue⟩ := htalks.dialogue
  refine ⟨said, b', fun k s hs => ?_⟩
  obtain ⟨hk, hstuck⟩ := hs.ends (Session.polite EndAddress) hdialogue rfl
  exact ⟨by omega, hstuck⟩

/-- A client with a two-bit predictor, for `countdown`. -/
theorem hosted_predictor_countdown :
    ∃ T said b', (boot countdown (some TwoBitBranchPredictor.new)).run none none 25 = .ok (some T) ∧
      ∀ k s, Interaction.Steps readAnswer readsAnswers_readAnswer none
          (Host.choose TwoBitBranchPredictor.new)
          ((boot countdown (some TwoBitBranchPredictor.new)).remote true) k s → k ≤ 1272 ∧
        ((∀ t, ¬Interaction.Step readAnswer readsAnswers_readAnswer none
          (Host.choose TwoBitBranchPredictor.new) s t) →
          s.server = .run (.returned (T.remote b')) ∧ s.heard = said ∧ s.phase = .gone) := by
  have hc : Confined (boot countdown (some TwoBitBranchPredictor.new)).hart := countdown_confined
  obtain ⟨T, hrun, -⟩ := (started_boot countdown (some TwoBitBranchPredictor.new)).settles
    hc.regular
    ((started_boot _ _).fetchesInDRAM hc.regular fun _ _ _ => hc.near)
    ((hc.follows 7).fetch_none hc.toFits countdown_end)
  obtain ⟨said, b', hT⟩ := hosted_predictor (started_boot _ _) rfl hrun readsAnswers_readAnswer true
  exact ⟨T, said, b', hrun, hT⟩

end RipSim
