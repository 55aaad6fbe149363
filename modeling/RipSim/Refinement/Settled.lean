import RipSim.Refinement.Statistics

/-!
# Where a run settles

A run that comes to an undecodable word stops, and the state it stops in is the last one of the
sequential reference.
-/

namespace RipSim

namespace RIPSimulator

variable {σ : Type} [BranchPredictor σ] {S₀ : RIPSimulator σ}

/-- A run that has stopped does not go on with more fuel. -/
theorem runLoop_mono {EndAddress : Option Address} {fuel : ℕ} {S T : RIPSimulator σ}
    (h : runLoop EndAddress fuel S = .ok (some T)) (more : ℕ) :
    runLoop EndAddress (fuel + more) S = .ok (some T) := by
  induction fuel generalizing S with
  | zero =>
    cases h
  | succ fuel ih =>
    rw [Nat.add_right_comm]
    unfold runLoop at h ⊢
    cases hp : S.proceedNStage 1 with
    | error e =>
      rw [hp] at h
      cases h
    | ok p =>
      obtain ⟨stopped, U⟩ := p
      rw [hp] at h
      revert h
      change (if stopped then _ else if EndAddress = some U.PC then _ else _) = _ →
        (if stopped then _ else if EndAddress = some U.PC then _ else _) = _
      split_ifs
      · exact id
      · exact id
      · exact ih

/-- The state in which a run stops is left by the last cycle of the run. -/
theorem runLoop_reaches {EndAddress : Option Address} {fuel : ℕ} {S T : RIPSimulator σ}
    (h : runLoop EndAddress fuel S = .ok (some T)) :
    ∃ U x, Runs.Reaches Next S U ∧ U.cycle = .ok (x, T) := by
  rw [runLoop_eq_runTrace] at h
  cases htrace : runTrace EndAddress fuel S with
  | error e =>
    rw [htrace] at h
    cases h
  | ok p =>
    obtain ⟨r, log, V⟩ := p
    rw [htrace] at h
    cases r with
    | none => cases h
    | some r =>
      obtain rfl : V = T := Option.some.inj (Except.ok.inj h)
      clear h
      induction fuel generalizing S log with
      | zero => cases htrace
      | succ fuel ih =>
        obtain ⟨x, T, hc, ⟨_, _, _, _, rfl⟩ | ⟨hgoes, log', _, hrest⟩⟩ := runTrace_succ htrace
        · exact ⟨S, x, .refl, hc⟩
        · obtain ⟨rfl, -⟩ := halting_none hgoes
          obtain ⟨U, x, hU, hx⟩ := ih _ hrest
          exact ⟨U, x, Relation.ReflTransGen.head hc hU, hx⟩

/-- The state in which a run of `n` instructions stops. -/
structure Settled (h : Hart) (n : ℕ) (S : RIPSimulator σ) : Prop where
  GPRegs : S.GPRegs = (h.after n).GPRegs
  Mem : S.Mem = (h.after n).Mem
  States : ∀ a, a ∉ counters → S.States a = (h.after n).States a

/-- A run that comes to an undecodable word stops in the last state of the reference. -/
theorem Started.settles (h₀ : Started S₀) (hd : Regular S₀.hart ⊤) (hf : FetchesInDRAM S₀) {n : ℕ}
    (hend : (S₀.hart.after n).fetch = .ok none) :
    ∃ S, S₀.run none none (3 * n + 4) = .ok (some S) ∧ Settled S₀.hart n S := by
  obtain ⟨S, t, log, hrun, hS, hdry, hiss⟩ :=
    h₀.stops hd hf hend (3 * n + 3) rfl (Nat.le_add_left _ 0)
  obtain ⟨log', S', hS', -, href⟩ := h₀.run hd (fun n _ log S h _ => hf n log S h) t
  obtain ⟨rfl, rfl⟩ := Prod.mk.inj (Except.ok.inj (hS.symm.trans hS'))
  have hsame : S₀.hart.after log.length = S₀.hart.after n := by
    rcases Nat.le_total log.length n with hle | hle
    · exact (Hart.after_of_none hdry hle).symm
    · exact Hart.after_of_none hend hle
  have hacc : S.accessed log.length = log.length := by
    unfold RIPSimulator.issued at hiss
    have : log.length ≤ S.accessed log.length := Nat.le_add_right _ _
    omega
  refine ⟨S, hrun, ?_, ?_, ?_⟩
  · rw [href.GPRegs, hsame]
  · rw [href.Mem, hacc, hsame]
  · intro a ha
    rw [href.States a ha, hsame]

end RIPSimulator

end RipSim
