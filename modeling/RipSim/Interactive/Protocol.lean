import RipSim.Model.Interactive
import RipSim.Pipeline.Reachable

/-!
# The protocol of the interactive mode

The server and its client only share two pipes, and neither waits for the other before it goes
on.  What keeps them together is the pairing of words and lines: a word is sent before every line
that is read, and a line is printed between two reads of `buf`; the answer goes out after its
`Predict` line, with a word behind it that ends it.

So no interleaving takes an answer for the word of `buf`, confuses two answers, fails an
assertion or waits forever (`interaction_orderly`).
-/

namespace RipSim

open Dialogue

/-- There is a word to come when `buf` is read: not so between the read and the next line. -/
def Session.Ready : Session → Prop
  | .proceeding _ | .executed _ _ | .deciding _ _ | .proceeded _ => True
  | .buffered _ | .left _ | .returned _ | .crashed => False

namespace Session

variable {EndAddress : Option Address} {q q' : Session} {l : Line} {g : Session}
  {k : Bool → Session}

theorem isPredict_learnLine {σ : Type} {S M : RIPSimulator σ} (h : S.learnLine M = some l) :
    l.isPredict = false := by
  unfold RIPSimulator.learnLine at h
  split at h
  · split at h
    · split_ifs at h
      exact Option.some.inj h ▸ rfl
    · cases h
  · cases h

theorem isPredict_predictLine {σ : Type} {S : RIPSimulator σ} (h : S.predictLine = some l) :
    l.isPredict = true := by
  unfold RIPSimulator.predictLine at h
  split at h
  · split_ifs at h
    exact Option.some.inj h ▸ rfl
  · cases h

/-- What the server prints without waiting for an answer is no question. -/
theorem act_say (h : act EndAddress q = .say l q') : l.isPredict = false := by
  cases q with
  | proceeding S =>
    simp only [act] at h
    split at h
    · cases h
    · cases h
    · split at h
      · rename_i hl
        obtain ⟨rfl, -⟩ := Act.say.inj h
        exact isPredict_learnLine hl
      · cases h
  | executed E S =>
    simp only [act] at h
    split at h <;> cases h
  | deciding E S =>
    simp only [act] at h
    split at h <;> cases h
  | proceeded S => cases h
  | buffered S =>
    simp only [act] at h
    split_ifs at h
    obtain ⟨rfl, -⟩ := Act.say.inj h
    rfl
  | left S =>
    obtain ⟨rfl, -⟩ := Act.say.inj h
    rfl
  | returned S => cases h
  | crashed => cases h

/-- Only `Predict` asks. -/
theorem act_ask (h : act EndAddress q = .ask l k g) :
    ∃ E S, q = .executed E S ∧ S.predictLine = some l ∧ g = .crashed ∧
      k = fun b => .deciding E (S.answered b) := by
  cases q with
  | proceeding S =>
    simp only [act] at h
    split at h
    · cases h
    · cases h
    · split at h <;> cases h
  | executed E S =>
    simp only [act] at h
    split at h
    · rename_i hl
      obtain ⟨rfl, rfl, rfl⟩ := Act.ask.inj h
      exact ⟨E, S, rfl, hl, rfl, rfl⟩
    · cases h
  | deciding E S =>
    simp only [act] at h
    split at h <;> cases h
  | proceeded S => cases h
  | buffered S =>
    simp only [act] at h
    split_ifs at h
  | left S => cases h
  | returned S => cases h
  | crashed => cases h

/-- The steps that nobody sees lose no word. -/
theorem act_work (h : act EndAddress q = .work q') (hq : q'.Ready) : q.Ready := by
  cases q with
  | buffered S =>
    simp only [act] at h
    split_ifs at h
    obtain rfl := Act.work.inj h
    exact hq
  | left S => cases h
  | returned S => cases h
  | crashed => cases h
  | _ => trivial

theorem act_poll (h : act EndAddress q = .poll q') : q.Ready ∧ ¬q'.Ready := by
  cases q with
  | proceeding S =>
    simp only [act] at h
    split at h
    · cases h
    · cases h
    · split at h <;> cases h
  | executed E S =>
    simp only [act] at h
    split at h <;> cases h
  | deciding E S =>
    simp only [act] at h
    split at h <;> cases h
  | proceeded S =>
    obtain rfl := Act.poll.inj h
    exact ⟨trivial, id⟩
  | buffered S =>
    simp only [act] at h
    split_ifs at h
  | left S => cases h
  | returned S => cases h
  | crashed => cases h

/-- The server keeps to the protocol. -/
theorem polite (EndAddress : Option Address) : Polite (act EndAddress) Line.isPredict Ready where
  say := act_say
  ask h := by
    obtain ⟨_, _, -, hl, -⟩ := act_ask h
    exact isPredict_predictLine hl
  work := act_work
  poll := act_poll

end Session

/-- The sequential dialogue: each question is answered at once, by what the client has heard. -/
def dialogue (EndAddress : Option Address) (choose : List Line → Bool)
    (S₀ : RIPSimulator InteractiveBranchPredictor) (n : ℕ) : Option (List Line × Session) :=
  direct (Session.act EndAddress) choose (.proceeding S₀) n

section Interleavings

variable (parse : List Char → Option JSON) (hparse : ReadsAnswers parse)
  (EndAddress : Option Address) (choose : List Line → Bool)
  (S₀ : RIPSimulator InteractiveBranchPredictor)

/-- A step of the server or of the client. -/
abbrev Interaction.Step (s t : Interaction) : Prop :=
  Dialogue.Step (Session.act EndAddress) Line.isPredict choose (spelling parse hparse).wire s t

/-- A run of so many steps from the start of both programs, in any interleaving. -/
abbrev Interaction.Steps (k : ℕ) (s : Interaction) : Prop :=
  Dialogue.Steps (Session.act EndAddress) Line.isPredict choose (spelling parse hparse).wire
    (System.init (spelling parse hparse).wire (.proceeding S₀)) k s

/-- What holds after `k` steps of the two parties. -/
structure Orderly (k : ℕ) (s : Interaction) : Prop where
  /-- The server is in the state that the sequential dialogue has after `n` steps, the lines that
  were read and are on their way are those of the dialogue, and `n` grows with `k`. -/
  follows : ∃ n, k ≤ 10 * n + 12 ∧
    match s.server with
    | .run q => dialogue EndAddress choose S₀ n = some (s.heard ++ s.toClient, q)
    | .awaiting _ _ => ∃ said E S l, dialogue EndAddress choose S₀ n = some (said, .executed E S) ∧
        S.predictLine = some l ∧ s.heard ++ s.toClient = said ++ [l]
  /-- The word that `buf` takes is no answer. -/
  buffers : ∀ q r c, s.server = .run q →
    (spelling parse hparse).wire.read s.toServer = some (r, c) →
    r = .other
  /-- `Predict` stops at the answer to its own line, and its assertion holds. -/
  predicts : ∀ k g r c, s.server = .awaiting k g →
    (spelling parse hparse).wire.read s.toServer = some (r, c) →
    r = .other ∨ r = .answer (choose s.heard) ∧ s.toClient = []
  /-- One of the parties can go on, until the server has ended and the client has read it all. -/
  progress : (∃ t, Interaction.Step parse hparse EndAddress choose s t) ∨
    s.phase = .gone ∧ ∃ n q, s.server = .run q ∧ Session.act EndAddress q = .halt ∧
      dialogue EndAddress choose S₀ n = some (s.heard, q)

end Interleavings

/-- A parser of the two answers. -/
def readAnswer (w : List Char) : Option JSON :=
  if w = answerText true then some (.object [(predResKey, .boolean true)])
  else if w = answerText false then some (.object [(predResKey, .boolean false)])
  else none

theorem readsAnswers_readAnswer : ReadsAnswers readAnswer := by
  intro b
  cases b <;> rfl

/-- **The interactive protocol is safe and live.**  In every interleaving of the server with a
client that nudges and answers, whatever it answers: the server goes through the states of the
sequential dialogue and prints its lines, `buf` never takes an answer, each `Predict` stops at
the answer to its own line and never fails its assertion, nobody waits forever, and the server
gets on in proportion to the steps taken. -/
theorem interaction_orderly (parse : List Char → Option JSON) (hparse : ReadsAnswers parse)
    (EndAddress : Option Address) (choose : List Line → Bool)
    (S₀ : RIPSimulator InteractiveBranchPredictor) {k : ℕ} {s : Interaction}
    (h : Interaction.Steps parse hparse EndAddress choose S₀ k s) :
    Orderly parse hparse EndAddress choose S₀ k s := by
  have hP := Session.polite EndAddress
  obtain ⟨n, ts, hgood, hle⟩ := h.good hP
  refine ⟨⟨n, ?_, ?_⟩, fun q r c hs hr => hgood.polls hs hr,
    fun k g r c hs hr => hgood.answers hs hr,
    ?_⟩
  · have hallow : allowance n s ≤ 10 * n + 12 := allowance_le n s
    omega
  · cases hs : s.server with
    | run q => exact (hgood.running hs).direct
    | awaiting k g =>
      obtain ⟨said, q, l, hd, ha, heq⟩ := (hgood.waiting hs).direct
      obtain ⟨E, S, rfl, hl, -⟩ := Session.act_ask ha
      exact ⟨said, E, S, l, hd, hl, heq⟩
  · rcases hgood.progress hP with ht | ⟨hp, q, hs, ha, hd⟩
    · exact .inl ht
    · exact .inr ⟨hp, n, q, hs, ha, hd⟩

/-- A run of `beq x0, x0, 8` up to the end of its `Predict`: the client answers that the branch is
taken, and the server skips the word in front of the answer and takes it. -/
theorem interaction_orderly_beq :
    ReadsAnswers readAnswer ∧
    ∃ s, Interaction.Steps readAnswer readsAnswers_readAnswer none (fun _ => true)
        (RIPSimulator.boot [0x00000463] (some ⟨false⟩)) 15 s ∧
      Orderly readAnswer readsAnswers_readAnswer none (fun _ => true)
        (RIPSimulator.boot [0x00000463] (some ⟨false⟩)) 15 s ∧
      ∃ E S B, s.server = .run (.deciding E S) ∧ S.BP = some B ∧ B.self.answer = true := by
  have hstart : Interaction.Steps readAnswer readsAnswers_readAnswer none (fun _ => true)
      (RIPSimulator.boot [0x00000463] (some ⟨false⟩)) 1 _ := .tail .refl (.nudge rfl)
  -- the first cycle, and its states printed
  have hexec := hstart.tail (.work rfl rfl)
  have hdecode := hexec.tail (.work rfl rfl)
  have hcycle := hdecode.tail (.work rfl rfl)
  have hbuf := hcycle.tail (.poll rfl rfl rfl)
  have hline := hbuf.tail (.say rfl rfl)
  -- the second cycle asks
  have hexec' := hline.tail (.work rfl rfl)
  have hask := hexec'.tail (.ask rfl rfl)
  have hheard := hask.tail (.hear rfl rfl)
  have hnudge := hheard.tail (.nudge rfl)
  have hskip := hnudge.tail (.skip rfl rfl)
  have hpredict := hskip.tail (.hear rfl rfl)
  have hanswer := hpredict.tail (.answer rfl)
  have hfill := hanswer.tail (.fill rfl)
  have htake := hfill.tail (.take rfl rfl)
  exact ⟨readsAnswers_readAnswer, _, htake,
    interaction_orderly _ readsAnswers_readAnswer _ _ _ htake, _, _, _, rfl, rfl, rfl⟩

end RipSim
