import RipSim.Refinement.Arrivals

/-!
# Where a run stops

`run` is left for one of three reasons.  A stop at `ebreak`, at `ext` or at `EndAddress` is
precise if the registers and the memory are those of the sequential run at the stop point, and the
fetch has not come to `EndAddress` on a wrong path.

It is not in general.  When `ebreak` or `ext` raises, the instruction ahead of it is in MA: its
access is done, its write back is not.  And `EndAddress` is compared with the fetch PC, when up to
four instructions are in flight.  `precise_stop_iff` says for which programs this does no harm.
-/

namespace RipSim

/-- `ebreak` and `ext`, the instructions that end a run. -/
def Instruction.isStop : Instruction → Bool
  | .IInstruction .ebreak _ _ _ | .IInstruction .ext _ _ _ => true
  | _ => false

namespace Hart

/-- Instruction `n` of the run is `K`, which ends it. -/
structure StopsAt (h : Hart) (n : ℕ) (K : Instruction) : Prop where
  fetch : (h.after n).fetch = .ok (some K)
  isStop : K.isStop = true

/-- Where a run may end: at `ebreak` or `ext`, or behind its first instruction at `EndAddress`. -/
def EndsAt (h : Hart) (EndAddress : Option Address) (n : ℕ) : Prop :=
  (∃ K, h.StopsAt n K) ∨ (0 < n ∧ EndAddress = some (h.after n).PC)

end Hart

theorem Instruction.isPlain_of_isStop {I : Instruction} (h : I.isStop = true) :
    I.isPlain = false := by
  cases I with
  | IInstruction IT => cases IT <;> first | rfl | exact absurd h Bool.false_ne_true
  | _ => exact absurd h Bool.false_ne_true

/-- What the last instruction raises. -/
theorem Instruction.raises_of_isStop {I : Instruction} (m : ModeKind) (h : I.isStop = true) :
    I.isMret = false ∧ (I.raises m = some .Breakpoint ∨ I.raises m = some .R0) := by
  cases I with
  | IInstruction IT =>
    cases IT with
    | ebreak => exact ⟨rfl, .inl rfl⟩
    | ext => exact ⟨rfl, .inr rfl⟩
    | _ => exact absurd h Bool.false_ne_true
  | _ => exact absurd h Bool.false_ne_true

namespace Hart.StopsAt

variable {h : Hart} {n : ℕ} {K : Instruction}

theorem next (hs : h.StopsAt n K) : (h.after n).next = h.after n := by
  have hK := hs.isStop
  unfold Hart.next
  rw [hs.fetch]
  cases K with
  | IInstruction IT => cases IT <;> first | rfl | exact absurd hK Bool.false_ne_true
  | _ => exact absurd hK Bool.false_ne_true

/-- The run stays where it has stopped. -/
theorem after (hs : h.StopsAt n K) {k : ℕ} (hk : n ≤ k) : h.after k = h.after n := by
  induction k, hk using Nat.le_induction with
  | base => rfl
  | succ k _ ih => rw [Hart.after_succ, ih, hs.next]

/-- In the domain a run stops at its end. -/
theorem le (hs : h.StopsAt n K) {N : ℕ∞} (hd : Regular h N) : N ≤ n := by
  by_contra hlt
  have hp := (hd.admitted n K (not_le.mp hlt) hs.fetch).plain
  exact absurd ((Instruction.isPlain_of_isStop hs.isStop).symm.trans hp) Bool.false_ne_true

end Hart.StopsAt

namespace RIPSimulator

variable {σ : Type}

theorem length_committed (S : RIPSimulator σ) :
    S.committed.toList.length = occ S.PS.Insts.WB := by
  unfold committed
  cases S.PS.Insts.WB <;> rfl

/-- A cycle writes back what was in MA. -/
theorem Clean.length_committed [BranchPredictor σ] {S T : RIPSimulator σ} (hc : Clean S) {x : Exit}
    (hx : S.cycle = .ok (x, T)) : T.committed.toList.length = occ S.PS.Insts.MA := by
  rw [RIPSimulator.length_committed, (hc.cycle_WB hx).1]

variable {h : Hart} {N : ℕ∞} {pred : ℕ → Bool} {t c : ℕ} {S A B M : RIPSimulator σ}

variable [BranchPredictor σ]

/-! ## The last cycle -/

/-- A cycle that ends has fetched. -/
theorem fetched_of_cycle {p : Exit × RIPSimulator σ} (hc : S.cycle = .ok p)
    (hs : S.PS.StalledStages.IF = false) : ∃ w, S.Mem.readWord S.PC = .ok w := by
  have hA : ∃ A, S.advance = .ok A := by
    cases hA : S.advance with
    | ok A => exact ⟨A, rfl⟩
    | error e =>
      unfold RIPSimulator.cycle at hc
      rw [hA] at hc
      exact nomatch hc
  obtain ⟨A, hA⟩ := hA
  rcases advance_ok hA with ⟨hs', _⟩ | ⟨_, w, hw, _⟩
  · exact absurd (hs.symm.trans hs') Bool.false_ne_true
  · exact ⟨w, hw⟩

/-- The instruction that ends the run ends it when it enters EX. -/
theorem Inv.stops (hi : Inv h N c S) {I K : Instruction} {x : Exit} {T : RIPSimulator σ}
    (hs : h.StopsAt (S.issued c) K) (hI : S.entering = some I) (hc : S.cycle = .ok (x, T)) :
    x = .stop := by
  obtain rfl : I = K :=
    Option.some.inj (Except.ok.inj ((hi.entering hI).2.2.2.symm.trans hs.fetch))
  obtain ⟨hm, hr⟩ := Instruction.raises_of_isStop S.Mode hs.isStop
  have hraise : S.raising = some .Breakpoint ∨ S.raising = some .R0 := by
    unfold raising
    rw [hI]
    dsimp only
    rwa [hm, if_neg Bool.false_ne_true]
  rcases cycle_ok hc with ⟨_, hA, he⟩ |
    ⟨A, B, M, E, ht, ⟨rfl, _⟩ | ⟨e, D, rfl, hD, _⟩ | ⟨_, _, _, hx⟩⟩
  · have hEX := hi.clean.advance_entering hA
    rw [isEmpty_insts he, hI] at hEX
    exact nomatch hEX
  · rw [← ht.raising hi.clean hi.latched] at hraise
    rcases hraise with h' | h' <;> exact nomatch h'
  · rw [← ht.raising hi.clean hi.latched] at hraise
    rcases hraise with h' | h' <;>
    · injection h' with h'
      rw [h'] at hD
      exact nomatch hD
  · exact hx

/-- **The cycle that ends a run**: write back is one instruction behind memory access. -/
theorem Inv.stopped (hi : Inv h N c S) (hd : Regular h N)
    (hend : N = S.issued c → ∃ K, h.StopsAt (S.issued c) K) {T : RIPSimulator σ}
    (hc : S.cycle = .ok (.stop, T)) :
    (∃ K, S.entering = some K ∧ h.StopsAt (S.issued c) K) ∧
    T.GPRegs = (h.after (S.accessed c)).GPRegs ∧ T.Mem = (h.after (S.issued c)).Mem := by
  have hlast : ∃ I, S.entering = some I ∧ ¬(S.issued c : ℕ∞) < N := by
    by_contra hno
    push Not at hno
    rcases hi.cycle hd (fetched_of_cycle hc) hno with ⟨_, hc', _⟩ | ⟨_, _, _, _, hc', _⟩
    · exact nomatch hc.symm.trans hc'
    · exact nomatch hc.symm.trans hc'
  obtain ⟨I, hI, hlt⟩ := hlast
  obtain ⟨K, hK⟩ := hend (le_antisymm (not_lt.mp hlt) hi.bound)
  obtain rfl : I = K :=
    Option.some.inj (Except.ok.inj ((hi.entering hI).2.2.2.symm.trans hK.fetch))
  refine ⟨⟨I, hI, hK⟩, ?_⟩
  rcases cycle_ok hc with ⟨hx, _⟩ |
    ⟨A, B, M, E, ht, ⟨_, hx, _⟩ | ⟨_, _, _, _, hx, _⟩ | ⟨e, rfl, hT, _⟩⟩
  · exact nomatch hx
  · exact nomatch hx
  · exact nomatch hx
  · have hD : T = M.decoded.squashed := by
      rcases handleException_ok (exec_exception ht.exec) hT with ⟨_, _, h'⟩ | ⟨_, hf, _⟩ |
        ⟨_, _, hf, _⟩
      · exact h'
      · exact nomatch hf
      · exact nomatch hf
    obtain ⟨_, hMem, _, _, _, hGP, _⟩ := M.decoded_frame
    obtain ⟨B', hB', hBMem, _⟩ := hi.access hd ht.advance
    obtain rfl : B' = B := Except.ok.inj (hB'.symm.trans ht.access)
    have hM := exec_frame ht.exec
    rw [hD]
    constructor
    · change M.decoded.GPRegs = _
      rw [hGP, hM.GPRegs, (memoryaccess_frame ht.access).GPRegs, hi.written hd ht.advance]
    · change M.decoded.Mem = _
      rw [hMem, hM.Mem, hBMem]

/-! ## Whole runs -/

/-- The loop of `run` goes on from `S`. -/
structure Underway (h : Hart) (N : ℕ∞) (pred : ℕ → Bool) (EndAddress : Option Address) (t c : ℕ)
    (S : RIPSimulator σ) : Prop where
  clocked : Clocked h N pred t c S
  tight : Tight h (S.issued c) S
  unseen : ∀ x, EndAddress = some x → Unseen h pred x t c S

/-- The state before the last cycle of a run that `ebreak` or `ext` ends, with `c`
instructions written back, and the state after it. -/
structure Stopped (h : Hart) (N : ℕ∞) (c : ℕ) (S T : RIPSimulator σ) : Prop where
  inv : Inv h N c S
  tight : Tight h (S.issued c) S
  ends : N = S.issued c → ∃ K, h.StopsAt (S.issued c) K
  cycle : S.cycle = .ok (.stop, T)

variable {EndAddress : Option Address}

omit [BranchPredictor σ] in
/-- The run does not get past its end at `EndAddress`. -/
theorem Underway.ends (hu : Underway h N pred EndAddress t c S)
    (hN : ∀ n : ℕ, N = n → h.EndsAt EndAddress n) (heq : N = S.issued c) :
    ∃ K, h.StopsAt (S.issued c) K := by
  refine (hN _ heq).resolve_right ?_
  rintro ⟨hpos, hE⟩
  obtain ⟨k, hk⟩ := Nat.exists_eq_succ_of_ne_zero (Nat.ne_of_gt hpos)
  refine (hu.unseen _ hE).issued k (hk ▸ Nat.lt_succ_self k) (.inr (.inr (.inr ?_)))
  rw [hk]

/-- A cycle after which the loop goes on, or the fetch PC is `EndAddress`. -/
theorem Underway.looped (hu : Underway h N pred EndAddress t c S) (hd : Regular h N)
    (hN : ∀ n : ℕ, N = n → h.EndsAt EndAddress n) {T : RIPSimulator σ}
    (hfor : ∀ I, T.PS.Insts.DE = some I → T.PS.StalledStages.IF = false →
      T.foretold I = pred (T.issued (S.accessed c)))
    (hc : S.cycle = .ok (.next, T)) :
    c + T.committed.toList.length = S.accessed c ∧
    (EndAddress ≠ some T.PC → Underway h N pred EndAddress (t + 1) (S.accessed c) T) ∧
    (EndAddress = some T.PC → Clocked h N pred (t + 1) (S.accessed c) T ∧
      Met h pred T.PC (t + 1) (S.accessed c) T) := by
  have hi := hu.clocked.inv
  have hlt : ∀ I, S.entering = some I → (S.issued c : ℕ∞) < N := by
    intro I hI
    by_contra hge
    obtain ⟨K, hK⟩ := hu.ends hN (le_antisymm (not_lt.mp hge) hi.bound)
    exact nomatch hi.stops hK hI hc
  rcases hi.cycle hd (fetched_of_cycle hc) hlt with ⟨_, hc', _⟩ | ⟨A, B, M, ht, hc', hi'⟩
  · exact nomatch hc.symm.trans hc'
  · have hlen := hi.clean.length_committed hc
    obtain ⟨_, rfl⟩ := Prod.mk.inj (Except.ok.inj (hc.symm.trans hc'))
    have hclock := hu.clocked.next hd ht hi' hlt hfor
    refine ⟨congrArg (c + ·) hlen, fun hE => ⟨hclock, ?_, ?_⟩, fun hE => ⟨hclock, ?_⟩⟩
    · rw [hi.issued_next ht]
      exact hu.tight.next hi hd hu.clocked.paced ht hlt
    · intro x hx
      exact (hu.unseen x hx).next hu.clocked hd ht hlt hclock fun heq => hE (heq ▸ hx)
    · exact (hu.unseen _ hE).comes hu.clocked hd ht hlt hclock rfl

variable {S₀ : RIPSimulator σ}

/-- What a run has come to when its loop is left. -/
theorem Underway.runTrace {fuel : ℕ} {r : Halt} {log : List Commit} {T : RIPSimulator σ}
    (hu : Underway h N pred EndAddress t c S) (hv : Visits S₀ t c S) (hpred : Foretells S₀ pred)
    (hd : Regular h N) (hN : ∀ n : ℕ, N = n → h.EndsAt EndAddress n)
    (hrun : S.runTrace EndAddress fuel = .ok (some r, log, T)) :
    (r = .exception → ∃ c' S', Stopped h N c' S' T) ∧
    (r = .reached → EndAddress = some T.PC ∧ ∃ t', Clocked h N pred t' (c + log.length) T ∧
      Met h pred T.PC t' (c + log.length) T) := by
  induction fuel generalizing t c S log with
  | zero => exact nomatch hrun
  | succ fuel ih =>
    obtain ⟨x, S', hc, hrest⟩ := runTrace_succ hrun
    have hfor : x = .next → ∀ I, S'.PS.Insts.DE = some I → S'.PS.StalledStages.IF = false →
        S'.foretold I = pred (S'.issued (S.accessed c)) := by
      rintro rfl I hI hs
      exact hpred _ _ S' I (hv.cycle hc) hI hs
    rcases hrest with ⟨r', hh, hr, hlog, rfl⟩ | ⟨hh, log', hlog, hrun'⟩
    · obtain rfl := Option.some.inj hr
      constructor
      · rintro rfl
        obtain rfl := halting_exception hh
        exact ⟨c, S, hu.clocked.inv, hu.tight, hu.ends hN, hc⟩
      · rintro rfl
        obtain ⟨rfl, hE⟩ := halting_reached hh
        obtain ⟨hlen, -, hfound⟩ := hu.looped hd hN (hfor rfl) hc
        rw [hlog, hlen]
        exact ⟨hE, t + 1, hfound hE⟩
    · obtain ⟨rfl, hE⟩ := halting_none hh
      obtain ⟨hlen, hgo, -⟩ := hu.looped hd hN (hfor rfl) hc
      rw [hlog, List.length_append, ← Nat.add_assoc, hlen]
      exact ih (hgo hE) (hv.cycle hc) hrun'

end RIPSimulator

open RIPSimulator

/-! ## Precise stops -/

/-- The stop point of a run that is left for the reason `r`, as the number of
instructions before it. -/
def StopPoint (h : Hart) (EndAddress : Option Address) (r : Halt) (n : ℕ) : Prop :=
  match r with
  | .exception => ∃ K, h.StopsAt n K
  | .empty => (h.after n).fetch = .ok none
  | .reached => EndAddress = some (h.after n).PC ∧ ∀ k < n, EndAddress ≠ some (h.after k).PC

section Stops

variable {σ : Type}

/-- The run that has stopped in `S`, with `log` written back, has stopped precisely:
everything before the stop point has taken effect and nothing after it.  If it has been left at
`EndAddress`, the instructions in flight are those of the run, up to the stop point. -/
structure PreciseStop (h : Hart) (EndAddress : Option Address) (r : Halt)
    (log : List Commit) (S : RIPSimulator σ) : Prop where
  state : ∃ n, StopPoint h EndAddress r n ∧ S.GPRegs = (h.after n).GPRegs ∧
    S.Mem = (h.after n).Mem
  path : r = .reached → OnPath h log.length S ∧
    StopPoint h EndAddress .reached (S.ahead log.length)

/-- What is in flight where the run stops does no harm.  At `ebreak` and `ext` this is about the
instruction before: it has the time to be written back, or leaves the registers as they are.  At
`EndAddress` it is about the time at which the fetch comes there with the run: no instruction up to
there leads it astray to `EndAddress`, those that are not in WB by then leave the registers as they
are, and those that are not in MA the memory. -/
def Harmless (h : Hart) (pred : ℕ → Bool) (EndAddress : Option Address) (r : Halt) : Prop :=
  match r with
  | .exception => ∀ k I K, (h.after k).fetch = .ok (some I) → I.isStop = false →
      h.StopsAt (k + 1) K →
        I.delays K = true ∨ (h.after (k + 1)).GPRegs = (h.after k).GPRegs
  | .empty => True
  | .reached => ∃ n, StopPoint h EndAddress .reached (n + 1) ∧
      (∀ k ≤ n, ∀ x, h.Stray pred k x → EndAddress ≠ some x) ∧
      (h.after (n + 1)).GPRegs =
        (h.after (h.passed pred 2 (n + 1) (h.arrival pred n))).GPRegs ∧
      (h.after (n + 1)).Mem = (h.after (h.passed pred 1 (n + 1) (h.arrival pred n))).Mem

variable [BranchPredictor σ] {h : Hart} {N : ℕ∞} {pred : ℕ → Bool} {c : ℕ} {S T : RIPSimulator σ}
  {EndAddress : Option Address} {log : List Commit}

/-- A branch writes no register. -/
theorem Regular.GPRegs_of_isBType (hd : Regular h N) {k : ℕ} {I : Instruction} (hk : k < N)
    (hf : (h.after k).fetch = .ok (some I)) (hb : I.isBType = true) :
    (h.after (k + 1)).GPRegs = (h.after k).GPRegs := by
  rw [(hd.effect hk hf).GPRegs]
  cases I with
  | BInstruction => rfl
  | _ => exact absurd hb Bool.false_ne_true

/-- The stop at `ebreak` and `ext`. -/
theorem RIPSimulator.Stopped.precise_iff (hs : Stopped h N c S T) (hd : Regular h N) :
    PreciseStop h EndAddress .exception log T ↔ Harmless h pred EndAddress .exception := by
  obtain ⟨⟨K, hent, hK⟩, hGP, hMem⟩ := hs.inv.stopped hd hs.ends hs.cycle
  have hle := hK.le hd
  have heq : N = S.issued c := le_antisymm hle hs.inv.bound
  have hdist := hs.inv.dist_entering hent
  -- the stop point is reached after `S.issued c` instructions, and nowhere else
  have hpoint : PreciseStop h EndAddress .exception log T ↔
      (h.after (S.accessed c)).GPRegs = (h.after (S.issued c)).GPRegs := by
    constructor
    · rintro ⟨⟨n, ⟨K', hK'⟩, hn, _⟩, _⟩
      have hge : S.issued c ≤ n := by
        have := hK'.le hd
        rw [heq] at this
        exact_mod_cast this
      rw [← hGP, hn, hK.after hge]
    · intro h'
      exact ⟨⟨_, ⟨K, hK⟩, hGP.trans h', hMem⟩, fun h => nomatch h⟩
  rw [hpoint]
  have hlast : ∀ k I K', (h.after k).fetch = .ok (some I) → I.isStop = false →
      h.StopsAt (k + 1) K' → k + 1 = S.issued c ∧ K' = K := by
    intro k I K' hI hstop hK'
    have hge : S.issued c ≤ k + 1 := by
      have := hK'.le hd
      rw [heq] at this
      exact_mod_cast this
    have hlt : ¬S.issued c ≤ k := by
      intro hge
      rw [hK.after hge] at hI
      obtain rfl := Option.some.inj (Except.ok.inj (hI.symm.trans hK.fetch))
      exact absurd (hstop.symm.trans hK.isStop) Bool.false_ne_true
    have hk : k + 1 = S.issued c := by omega
    rw [hk] at hK'
    exact ⟨hk, Option.some.inj (Except.ok.inj (hK'.fetch.symm.trans hK.fetch))⟩
  cases hEX : S.PS.Insts.EX with
  | none =>
    have hacc : S.issued c = S.accessed c := by rw [issued_eq, hEX, occ_none, Nat.add_zero]
    rw [hacc]
    refine ⟨fun _ k I K' hI hstop hK' => ?_, fun _ => rfl⟩
    obtain ⟨hk, rfl⟩ := hlast k I K' hI hstop hK'
    have hkN : (k : ℕ∞) < N := by
      rw [heq, ← hk]
      exact_mod_cast Nat.lt_succ_self k
    cases hb : I.isBType with
    | true => exact .inr (hd.GPRegs_of_isBType hkN hI hb)
    | false =>
      refine .inl ?_
      by_contra hdel
      rw [Bool.not_eq_true] at hdel
      exact ((hs.tight k I K' hk.symm hI hK.fetch hb).1 hdel).1 hEX
  | some I =>
    have hacc : S.issued c = S.accessed c + 1 := by rw [issued_eq, hEX, occ_some]
    have hf := (hs.inv.back.EX I hEX).fetch
    have hsup := (hs.inv.back.admitted_EX hs.inv.bound hd hEX).2
    have hstop : I.isStop = false := by
      by_contra h'
      rw [Bool.not_eq_false] at h'
      exact absurd ((Instruction.isPlain_of_isStop h').symm.trans hsup.plain) Bool.false_ne_true
    rw [hacc]
    constructor
    · intro h' k I' K' hI hstop' hK'
      obtain ⟨hk, rfl⟩ := hlast k I' K' hI hstop' hK'
      obtain rfl : k = S.accessed c := by omega
      exact .inr h'.symm
    · intro h'
      rcases h' _ I K hf hstop (hacc ▸ hK) with hdel | h'
      · cases hb : I.isBType with
        | true =>
          refine (hd.GPRegs_of_isBType ?_ hf hb).symm
          exact (hs.inv.back.admitted_EX hs.inv.bound hd hEX).1
        | false =>
          refine absurd hdist ((hs.tight _ I K hacc hf hK.fetch hb).2 hdel ?_)
          rw [hEX]
          exact Option.some_ne_none I
      · exact h'.symm

/-- There is only one first time. -/
theorem StopPoint.unique {m n : ℕ} (hm : StopPoint h EndAddress .reached m)
    (hn : StopPoint h EndAddress .reached n) : m = n := by
  rcases Nat.lt_trichotomy m n with hlt | heq | hlt
  · exact absurd hm.1 (hn.2 m hlt)
  · exact heq
  · exact absurd hn.1 (hm.2 n hlt)

omit [BranchPredictor σ] in
/-- The stop at `EndAddress`. -/
theorem RIPSimulator.Met.precise_iff {x : Address} {t : ℕ} (hx : Met h pred x t log.length T)
    (hc : Clocked h N pred t log.length T) :
    PreciseStop h (some x) .reached log T ↔ Harmless h pred (some x) .reached := by
  have hinv := hc.inv
  rcases hx with ⟨n, hn⟩ | ⟨⟨m, hm⟩, hoff⟩
  · have hle : T.issued log.length ≤ n + 1 := by
      rw [← hn.ahead]
      exact (Nat.le_add_right _ _).trans (Nat.le_add_right _ _)
    have hacc : T.accessed log.length ≤ n + 1 := (Nat.le_add_right _ _).trans hle
    have hback : T.GPRegs = (h.after (h.passed pred 2 (n + 1) (h.arrival pred n))).GPRegs ∧
        T.Mem = (h.after (h.passed pred 1 (n + 1) (h.arrival pred n))).Mem := by
      rw [hn.arrives.arrival, hc.accessed_eq hacc hn.later,
        hc.written_eq ((Nat.le_add_right _ _).trans hacc) hn.later]
      exact ⟨hinv.back.GPRegs, hinv.back.Mem⟩
    constructor
    · rintro ⟨⟨m, hm, hGP, hMem⟩, hpath⟩
      obtain ⟨-, hpoint⟩ := hpath rfl
      obtain rfl := hm.unique hpoint
      rw [hn.ahead] at hpoint hGP hMem
      refine ⟨n, hpoint, fun k hk y hs heq => ?_, hGP.symm.trans hback.1, hMem.symm.trans hback.2⟩
      obtain rfl := Option.some.inj heq
      exact hn.arrives.unstray k hk hs
    · rintro ⟨m, hm, -, hGP, hMem⟩
      obtain rfl : n = m := by
        rcases Nat.lt_trichotomy n m with hlt | heq | hlt
        · exact absurd (congrArg some hn.arrives.PC) (hm.2 (n + 1) (Nat.succ_lt_succ hlt))
        · exact heq
        · exact absurd (Option.some.inj hm.1) (hn.arrives.first m hlt)
      exact ⟨⟨n + 1, hm, hback.1.trans hGP.symm, hback.2.trans hMem.symm⟩,
        fun _ => ⟨hn.onPath, hn.ahead ▸ hm⟩⟩
  · constructor
    · exact fun hp => absurd (hp.path rfl).1 hoff
    · rintro ⟨n, hn, hstray, -⟩
      rcases Nat.lt_or_ge n m with hlt | hge
      · exact absurd (Option.some.inj hn.1) (hm.first n hlt)
      · exact absurd rfl (hstray m hge x hm.stray)

end Stops

/-- **When a stop is precise.**  A program is followed up to its first `ebreak` or `ext`, up to
`EndAddress`, or for ever.  If the loop of `run` is left at such an instruction or at `EndAddress`,
the stop is precise exactly if what is in flight in the sequential run, with the predictions of the
predictor, does no harm. -/
theorem precise_stop_iff {σ : Type} [BranchPredictor σ] {S₀ S : RIPSimulator σ} (h₀ : Started S₀)
    {N : ℕ∞} (hd : Domain S₀.hart N) {EndAddress : Option Address}
    (hN : ∀ n : ℕ, N = n → S₀.hart.EndsAt EndAddress n) {fuel : ℕ} {r : Halt} {log : List Commit}
    (hrun : S₀.runTrace EndAddress fuel = .ok (some r, log, S)) (hr : r ≠ .empty) :
    (∃ pred, Foretells S₀ pred) ∧ ∀ pred, Foretells S₀ pred →
      (PreciseStop S₀.hart EndAddress r log S ↔ Harmless S₀.hart pred EndAddress r) := by
  refine ⟨h₀.exists_foretells, fun pred hpred => ?_⟩
  have htight : Tight S₀.hart (S₀.issued 0) S₀ := by
    intro k I K hk
    rw [(issued_of_empty h₀.insts 0).2] at hk
    exact nomatch hk
  have hu : Underway S₀.hart N pred EndAddress 0 0 S₀ :=
    ⟨h₀.clocked N pred, htight, fun x _ => h₀.unseen pred x⟩
  obtain ⟨hexc, hreach⟩ := hu.runTrace .start hpred hd.regular hN hrun
  cases r with
  | exception =>
    obtain ⟨c, S', hs⟩ := hexc rfl
    exact hs.precise_iff hd.regular
  | empty => exact absurd rfl hr
  | reached =>
    obtain ⟨rfl, t, hc, hx⟩ := hreach rfl
    rw [Nat.zero_add] at hc hx
    exact hx.precise_iff hc

/-- `addi x1, x0, 5`, four times `addi x0, x0, 0`, and `ebreak`. -/
def padded : RIPSimulator OneBitBranchPredictor :=
  boot [0x00500093, 0x00000013, 0x00000013, 0x00000013, 0x00000013, 0x00100073] none

theorem padded_started : Started padded := started_boot _ _

theorem padded_stopsAt : padded.hart.StopsAt 5 (.IInstruction .ebreak 0 0 1) := ⟨rfl, rfl⟩

theorem padded_fetch {k : ℕ} (hk : k < 5) : (padded.hart.after k).fetch =
    .ok (some (.IInstruction .addi (if k = 0 then 1 else 0) 0 (if k = 0 then 5 else 0))) := by
  interval_cases k <;> rfl

theorem padded_inst {k : ℕ} {I : Instruction} (hk : k < 5)
    (hf : (padded.hart.after k).fetch = .ok (some I)) :
    I = .IInstruction .addi (if k = 0 then 1 else 0) 0 (if k = 0 then 5 else 0) :=
  Option.some.inj (Except.ok.inj (hf.symm.trans (padded_fetch hk)))

theorem padded_mem (k : ℕ) : (padded.hart.after k).Mem = padded.hart.Mem := by
  rcases Nat.lt_or_ge k 5 with hk | hk
  · interval_cases k <;> rfl
  · rw [padded_stopsAt.after hk]
    rfl

/-- Behind its first instruction nothing changes the registers. -/
theorem padded_GPRegs {k : ℕ} (hpos : 0 < k) :
    (padded.hart.after k).GPRegs = (padded.hart.after 1).GPRegs := by
  induction k, hpos using Nat.le_induction with
  | base => rfl
  | succ k hpos ih =>
    refine Eq.trans ?_ ih
    rcases Nat.lt_or_ge k 5 with hk | hk
    · interval_cases k <;> exact GPRegisters.write_zero _ _
    · rw [padded_stopsAt.after hk, padded_stopsAt.after (Nat.le_succ_of_le hk)]

theorem padded_domain : Domain padded.hart (5 : ℕ) := by
  refine ⟨rfl, ?_, ?_, ?_, ?_⟩
  · intro k hk
    have hk : k ≤ 5 := by exact_mod_cast hk
    rcases Nat.lt_or_eq_of_le hk with hlt | rfl
    · exact ⟨_, padded_fetch hlt⟩
    · exact ⟨_, rfl⟩
  · intro k I hk hf
    obtain rfl := padded_inst (by exact_mod_cast hk) hf
    exact .of_computes rfl rfl rfl rfl ⟨_, rfl⟩
  · intro k d I J hd hk hf _ _ hrd _ hres
    have hk : k < 5 := by
      have : k + d < 5 := by exact_mod_cast hk
      omega
    obtain rfl := padded_inst hk hf
    interval_cases k
    · exact absurd hrd (by decide)
    all_goals exact absurd rfl hres
  · intro j k _ _
    rw [padded_mem, padded_mem]

/-- With instructions without effect ahead of them the stops are precise. -/
theorem precise_stop_iff_padded :
    (∃ log S, padded.runTrace none 9 = .ok (some .exception, log, S) ∧
      PreciseStop padded.hart none .exception log S) ∧
    ∃ log S, padded.runTrace (some 20) 9 = .ok (some .reached, log, S) ∧
      PreciseStop padded.hart (some 20) .reached log S := by
  have hpred : padded.Foretells fun _ => false := foretells_of_BP_eq_none rfl
  have hN : ∀ EndAddress, ∀ n : ℕ, ((5 : ℕ) : ℕ∞) = n → padded.hart.EndsAt EndAddress n := by
    intro EndAddress n hn
    obtain rfl : 5 = n := by exact_mod_cast hn
    exact .inl ⟨_, padded_stopsAt⟩
  constructor
  · have h : ((padded.runTrace none 9).toOption.map fun p => p.1) = some (some .exception) := by
      decide +kernel
    obtain ⟨⟨r, log, S⟩, hS, rfl⟩ := Option.map_eq_some_iff.mp h
    have hrun := ok_of_toOption hS
    refine ⟨log, S, hrun,
      ((precise_stop_iff padded_started padded_domain (hN none) hrun nofun).2 _ hpred).mpr ?_⟩
    intro k I K hI hstop hK
    have hle : 5 ≤ k + 1 := by exact_mod_cast hK.le padded_domain.regular
    exact .inr ((padded_GPRegs (Nat.succ_pos k)).trans (padded_GPRegs (by omega)).symm)
  · have h : ((padded.runTrace (some 20) 9).toOption.map fun p => p.1) = some (some .reached) := by
      decide +kernel
    obtain ⟨⟨r, log, S⟩, hS, rfl⟩ := Option.map_eq_some_iff.mp h
    have hrun := ok_of_toOption hS
    refine ⟨log, S, hrun,
      ((precise_stop_iff padded_started padded_domain (hN _) hrun nofun).2 _ hpred).mpr ?_⟩
    have hpassed : padded.hart.passed (fun _ => false) 2 5
        (padded.hart.arrival (fun _ => false) 4) = 1 := by
      decide +kernel
    refine ⟨4, ⟨rfl, by decide +kernel⟩, ?_, ?_, by rw [padded_mem, padded_mem]⟩
    · rintro k hk x hs heq
      obtain rfl := Option.some.inj heq
      exact absurd hs ((by decide +kernel : ∀ k ≤ 4, ¬padded.hart.Stray (fun _ => false) k 20) k hk)
    · rw [hpassed]
      exact padded_GPRegs (by decide)

/-- `addi x1, x0, 5; ebreak`. -/
def unpadded : RIPSimulator OneBitBranchPredictor := boot [0x00500093, 0x00100073] none

theorem unpadded_stopsAt : unpadded.hart.StopsAt 1 (.IInstruction .ebreak 0 0 1) := ⟨rfl, rfl⟩

/-- `beq x0, x0, 16; addi x1, x0, 7; ebreak; addi x0, x0, 0; jal x0, -8`: the run goes from `0` to
`16` and from there to `8`. -/
def detour : RIPSimulator OneBitBranchPredictor :=
  boot [0x00000863, 0x00700093, 0x00100073, 0x00000013, 0xff9ff06f] none

/-- The result of `addi` is lost at the `ebreak` behind it, and with the `ebreak` as
`EndAddress` the run stops before `addi` has been decoded.  And the fetch behind the branch of
`detour` comes to `8` before the run does. -/
theorem stop_imprecise :
    (∃ log S, unpadded.runTrace none 6 = .ok (some .exception, log, S) ∧
      ¬PreciseStop unpadded.hart none .exception log S) ∧
    (∃ log S, unpadded.runTrace (some 4) 6 = .ok (some .reached, log, S) ∧
      ¬PreciseStop unpadded.hart (some 4) .reached log S) ∧
    ∃ log S, detour.runTrace (some 8) 6 = .ok (some .reached, log, S) ∧
      ¬PreciseStop detour.hart (some 8) .reached log S := by
  have h5 : (unpadded.hart.after 1).GPRegs 1 = 5 := rfl
  refine ⟨?_, ?_, ?_⟩
  · have h : ((unpadded.runTrace none 6).toOption.map fun p => (p.1, p.2.2.GPRegs 1)) =
        some (some .exception, 0) := by
      decide +kernel
    obtain ⟨⟨r, log, S⟩, hS, heq⟩ := Option.map_eq_some_iff.mp h
    obtain ⟨rfl, h0⟩ := Prod.mk.inj heq
    refine ⟨log, S, ok_of_toOption hS, ?_⟩
    rintro ⟨⟨n, ⟨K, hK⟩, hGP, _⟩, _⟩
    have hn : 1 ≤ n := by
      by_contra hlt
      obtain rfl : n = 0 := by omega
      obtain rfl : .IInstruction .addi 1 0 5 = K := Option.some.inj (Except.ok.inj hK.fetch)
      exact nomatch hK.isStop
    rw [unpadded_stopsAt.after hn] at hGP
    change S.GPRegs 1 = 0 at h0
    rw [hGP, h5] at h0
    exact absurd h0 (by decide)
  · have h : ((unpadded.runTrace (some 4) 6).toOption.map fun p => (p.1, p.2.2.GPRegs 1)) =
        some (some .reached, 0) := by
      decide +kernel
    obtain ⟨⟨r, log, S⟩, hS, heq⟩ := Option.map_eq_some_iff.mp h
    obtain ⟨rfl, h0⟩ := Prod.mk.inj heq
    refine ⟨log, S, ok_of_toOption hS, ?_⟩
    rintro ⟨⟨n, ⟨hn, hfirst⟩, hGP, _⟩, _⟩
    obtain rfl : n = 1 := by
      match n with
      | 0 => exact nomatch hn
      | 1 => rfl
      | n + 2 => exact absurd rfl (hfirst 1 (by omega))
    change S.GPRegs 1 = 0 at h0
    rw [hGP, h5] at h0
    exact absurd h0 (by decide)
  · have h : ((detour.runTrace (some 8) 6).toOption.map fun p =>
        (p.1, p.2.1.length, p.2.2.issued 0, p.2.2.PS.Insts.DE.isSome, p.2.2.PS.Insts.IF.isSome,
          p.2.2.PS.PCs.IF)) = some (some .reached, 0, 0, true, true, 4) := by
      decide +kernel
    obtain ⟨⟨r, log, S⟩, hS, heq⟩ := Option.map_eq_some_iff.mp h
    simp only [Prod.mk.injEq] at heq
    obtain ⟨rfl, hlog, hiss, hDE, hIF, hPC⟩ := heq
    refine ⟨log, S, ok_of_toOption hS, fun hp => ?_⟩
    obtain ⟨I, hI⟩ := Option.isSome_iff_exists.mp hDE
    obtain ⟨J, hJ⟩ := Option.isSome_iff_exists.mp hIF
    have hon := (hp.path rfl).1.IF J hJ
    rw [hlog, hiss, hI, hPC] at hon
    have hon : (4 : Address) = (detour.hart.after 1).PC := hon
    exact absurd hon (by decide +kernel)

end RipSim
