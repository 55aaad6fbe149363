import RipSim.Refinement.Operands
import RipSim.Refinement.FrontEnd
import RipSim.Pipeline.Traps

/-!
# The invariant is kept

`Inv.target` is where prediction meets execution: EX either sends the fetch to the
next instruction of the run, or leaves it alone because the front end has gone there
by itself.  `Inv.next` puts the back end, the operands and the front end together:
a cycle of a nonempty pipeline takes one step of the window, and the instruction in
write back is the one that was in MA.
-/

namespace RipSim

namespace RIPSimulator

variable {σ : Type} {h : Hart} {N : ℕ∞} {c : ℕ} {S A B M : RIPSimulator σ}

theorem following_of_not_branch {I : Instruction} (hI : I.isBType = false) :
    S.following I = S.PS.PCs.DE + 4 := by
  unfold following
  rw [foretold_of_not_branch hI, if_neg Bool.false_ne_true]

/-- The decoder leaves bit `0` of the offset of an instruction of the run clear. -/
theorem evenImm_of_fetch {h : Hart} {I : Instruction} (hf : h.fetch = .ok (some I)) :
    I.EvenImm := by
  obtain ⟨w, _, hw⟩ := Hart.word_of_fetch hf
  exact Decoder.decode_even w I hw

/-! ## Where the run goes on -/

/-- A jump always redirects. -/
theorem target_of_isJump {I : Instruction} (hI : I.isJump = true) : ∃ t, B.target I = some t := by
  cases I with
  | IInstruction IT =>
    cases IT with
    | jalr => exact ⟨_, rfl⟩
    | _ => exact absurd hI Bool.false_ne_true
  | JInstruction JT =>
    cases JT
    exact ⟨_, rfl⟩
  | _ => exact absurd hI Bool.false_ne_true

/-- What `jalr` jumps to. -/
theorem target_jalr {g : Hart} {Rd Rs1 : BitVec 5} {Imm : BitVec 12}
    (hops : Operands g B (.IInstruction .jalr Rd Rs1 Imm))
    (himm : B.PS.DEImmVal = Imm.signExtend 32) :
    B.target (.IInstruction .jalr Rd Rs1 Imm) =
      some (g.nextPC (.IInstruction .jalr Rd Rs1 Imm)) := by
  show some ((B.PS.DERs1Val + signExtend B.PS.DEImmVal 12).signExtend 64) = _
  rw [hops.rs1 rfl, himm, signExtend_signExtend_twelve]
  rfl

/-- What `jal` jumps to. -/
theorem target_jal {g : Hart} {Rd : BitVec 5} {Imm : BitVec 21} (hpc : B.PS.PCs.EX = g.PC)
    (himm : B.PS.DEImmVal = (Instruction.JInstruction .jal Rd Imm).immVal)
    (heven : Imm &&& ~~~1#21 = Imm) (hr : -2 ^ 19 ≤ Imm.toInt ∧ Imm.toInt < 2 ^ 19) :
    B.target (.JInstruction .jal Rd Imm) = some (g.nextPC (.JInstruction .jal Rd Imm)) := by
  show some (B.PS.PCs.EX + (signExtend B.PS.DEImmVal 20).signExtend 64) = _
  rw [hpc, himm]
  show some (_ + (signExtend (signExtend ((Imm &&& ~~~1#21).setWidth 32) 20) 20).signExtend 64) = _
  rw [signExtend_jump heven hr]
  rfl

/-- What a branch is sent to, if its prediction was wrong. -/
theorem target_branch {g : Hart} {BT : BTypeKinds} {Rs1 Rs2 : BitVec 5} {Imm : BitVec 13}
    (hpc : B.PS.PCs.EX = g.PC) (hops : Operands g B (.BInstruction BT Rs1 Rs2 Imm))
    (himm : B.PS.DEImmVal = Imm.signExtend 32) :
    B.target (.BInstruction BT Rs1 Rs2 Imm) =
      if (match B.BP with
        | none => false
        | some P => P.PrevPred) ^^ (Instruction.BInstruction BT Rs1 Rs2 Imm).taken
          (g.op1 (.BInstruction BT Rs1 Rs2 Imm)) (g.op2 (.BInstruction BT Rs1 Rs2 Imm)) then
        some (g.nextPC (.BInstruction BT Rs1 Rs2 Imm))
      else none := by
  have hcond : BT.cond B.PS.DERs1Val B.PS.DERs2Val =
      (Instruction.BInstruction BT Rs1 Rs2 Imm).taken
        (g.op1 (.BInstruction BT Rs1 Rs2 Imm)) (g.op2 (.BInstruction BT Rs1 Rs2 Imm)) :=
    Instruction.taken_congr (I := .BInstruction BT Rs1 Rs2 Imm) hops.rs1 hops.rs2
  unfold RIPSimulator.target
  dsimp only
  rw [hpc, himm, hcond]
  rfl

variable [BranchPredictor σ]

/-- **EX knows where the run goes on**: it redirects there, or the front end is there. -/
theorem Inv.target (hi : Inv h N c S) (hd : Regular h N) (ht : Through S A B M none)
    {I : Instruction} (hI : S.entering = some I) (hN : (S.issued c : ℕ∞) < N) :
    (∀ t, B.target I = some t → t = (h.after (S.issued c + 1)).PC) ∧
    (B.target I = none → S.following I = (h.after (S.issued c + 1)).PC) := by
  obtain ⟨_, hops, himm, hpc⟩ := hi.executed hd ht hI hN
  obtain ⟨hs, _, hPC, hf⟩ := hi.entering hI
  obtain ⟨_, _, hBP, _⟩ := ht.entering hi.clean
  have hsup := hd.admitted _ I hN hf
  have heven := evenImm_of_fetch hf
  rw [(hd.effect hN hf).PC]
  have hplain : I.isBType = false → (h.after (S.issued c)).nextPC I =
      (h.after (S.issued c)).PC + 4 →
      B.target I = none →
      (∀ t, B.target I = some t → t = (h.after (S.issued c)).nextPC I) ∧
      (B.target I = none → S.following I = (h.after (S.issued c)).nextPC I) := by
    intro hb hnext htg
    refine ⟨fun t h' => (nomatch htg.symm.trans h'), fun _ => ?_⟩
    rw [following_of_not_branch hb, hnext, hPC]
  have hjump : B.target I = some ((h.after (S.issued c)).nextPC I) →
      (∀ t, B.target I = some t → t = (h.after (S.issued c)).nextPC I) ∧
      (B.target I = none → S.following I = (h.after (S.issued c)).nextPC I) := by
    intro htg
    exact ⟨fun t h' => Option.some.inj (h'.symm.trans htg), fun h' => (nomatch htg.symm.trans h')⟩
  cases I with
  | IInstruction IT Rd Rs1 Imm =>
    cases IT with
    | jalr => exact hjump (target_jalr hops himm)
    | _ => exact hplain rfl rfl rfl
  | RInstruction => exact hplain rfl rfl rfl
  | UInstruction => exact hplain rfl rfl rfl
  | SInstruction => exact hplain rfl rfl rfl
  | JInstruction JT Rd Imm =>
    cases JT
    exact hjump (target_jal hpc himm heven (hsup.jal Rd Imm rfl))
  | BInstruction BT Rs1 Rs2 Imm =>
    have heven' : Imm &&& ~~~1#13 = Imm := heven
    have himm' : B.PS.DEImmVal = Imm.signExtend 32 := by
      rw [himm]
      change (Imm &&& ~~~1#13).signExtend 32 = _
      rw [heven']
    have hfor : S.foretold (.BInstruction BT Rs1 Rs2 Imm) = match B.BP with
        | none => false
        | some P => P.PrevPred := by
      rw [hBP]
      exact foretold_of_branch hs rfl
    have hfol : S.following (.BInstruction BT Rs1 Rs2 Imm) =
        if S.foretold (.BInstruction BT Rs1 Rs2 Imm) then
          (h.after (S.issued c)).PC + (Imm.signExtend 32).signExtend 64
        else (h.after (S.issued c)).PC + 4 := by
      unfold following
      rw [hPC]
      change (if _ then _ + ((Imm &&& ~~~1#13).signExtend 32).signExtend 64 else _) = _
      rw [heven']
    rw [target_branch hpc hops himm', ← hfor, hfol]
    constructor
    · intro t h'
      split_ifs at h'
      injection h' with h'
      exact h'.symm
    · intro h'
      split_ifs at h' with hx
      -- the prediction is the outcome
      rw [Bool.not_eq_true, bne_eq_false_iff_eq] at hx
      unfold Hart.nextPC
      rw [hx]

/-! ## The next state -/

/-- The number of instructions past EX after a cycle. -/
theorem Inv.issued_next (hi : Inv h N c S) (ht : Through S A B M none) :
    M.decoded.redirect.finish.issued (S.accessed c) = S.issued c + occ S.entering := by
  rw [issued_eq, hi.accessed_next ht, (hi.moved ht).2]

/-- What the front end holds at the end of a cycle, but for the operands. -/
theorem Inv.frontEnd (hi : Inv h N c S) (hd : Regular h N) (ht : Through S A B M none)
    (hN : ∀ I, S.entering = some I → (S.issued c : ℕ∞) < N) :
    (∀ I, M.decoded.redirect.finish.PS.Insts.DE = some I →
      M.decoded.redirect.finish.PS.PCs.DE = (h.after (S.issued c + occ S.entering)).PC ∧
        (h.after (S.issued c + occ S.entering)).fetch = .ok (some I)) ∧
    Fetching h N
      (M.decoded.redirect.finish.expected (h.after (S.issued c + occ S.entering)).PC)
      M.decoded.redirect.finish := by
  have hA := hi.clean.advance ht.advance
  have hB := ht.atRest hA
  obtain ⟨_, _, _, hBPC⟩ := ht.entering hi.clean
  cases hI : S.entering with
  | none =>
    have hl := hi.lined hd ht.advance hN fun I h' => nomatch hI.symm.trans h'
    rw [hI] at hl
    obtain ⟨_, rfl⟩ := ht.bubble ((hi.clean.advance_entering ht.advance).trans hI)
    refine hl.decoded ht hA hBPC hB.branchPC ?_
    unfold kills
    rw [hB.invalid]
    rfl
  | some I =>
    obtain ⟨rfl, _⟩ := hi.executed hd ht hI (hN I hI)
    obtain ⟨htg1, htg2⟩ := hi.target hd ht hI (hN I hI)
    cases htg : B.target I with
    | none =>
      have hl := hi.lined hd ht.advance hN fun I' h' => by
        obtain rfl : I' = I := Option.some.inj (h'.symm.trans hI)
        exact htg2 htg
      rw [hI] at hl
      refine hl.decoded ht hA ?_ ?_ ?_
      · change (if B.setsPC I then (B.target I).getD B.PC else B.PC) = _
        rw [htg]
        exact (ite_self _).trans hBPC
      · change (if B.setsPC I then B.PS.BranchPC else (B.target I).or B.PS.BranchPC) = _
        rw [htg]
        exact (ite_self _).trans hB.branchPC
      · change (if (B.target I).isSome then _ else _ : Staged Bool).DE = false
        rw [htg, hB.invalid]
        rfl
    | some t =>
      obtain ⟨hDE, hIF, hPC⟩ := redirected ht hA htg
      refine ⟨fun J hJ => (nomatch hDE.symm.trans hJ), fun J hJ => (nomatch hIF.symm.trans hJ), ?_⟩
      intro _
      rw [expected_of_none hDE, hPC]
      exact htg1 t htg

/-- A load whose register is read in DE has stalled DE. -/
theorem Inv.load_stalls (hi : Inv h N c S) (hd : Regular h N) (ht : Through S A B M none)
    (hN : ∀ I, S.entering = some I → (S.issued c : ℕ∞) < N) {I J : Instruction}
    (hI : S.entering = some I) (hl : I.isLoad = true) (hJ : M.PS.Insts.DE = some J)
    (hs : M.PS.StalledStages.DE = false) :
    (J.hasRs1 = true → I.rd ≠ J.rs1) ∧ (J.hasRs2 = true → I.rd ≠ J.rs2) := by
  obtain ⟨rfl, _⟩ := hi.executed hd ht hI (hN I hI)
  have hBDE : B.PS.Insts.DE = some J := hJ
  change (if I.isLoad && B.loadUses I then _ else _ : Staged Bool).DE = false at hs
  rw [hl, Bool.true_and] at hs
  have hu : B.loadUses I = false := by
    by_contra hu
    rw [Bool.not_eq_false] at hu
    rw [hu] at hs
    exact absurd hs.symm Bool.false_ne_true
  unfold loadUses at hu
  rw [hBDE] at hu
  constructor
  · intro h1 hr
    simp [h1, hr] at hu
  · intro h2 hr
    simp [h2, hr] at hu

/-- A jump in EX or MA leaves no instruction in DE. -/
theorem Inv.jump_next (hi : Inv h N c S) (hd : Regular h N) (ht : Through S A B M none)
    (hN : ∀ I, S.entering = some I → (S.issued c : ℕ∞) < N) {I : Instruction}
    (hj : I.isJump = true) (hI : S.entering = some I ∨ S.PS.Insts.EX = some I) :
    M.decoded.redirect.finish.PS.Insts.DE = none ∧
      (S.entering = some I → M.decoded.redirect.finish.PS.Insts.IF = none) := by
  have hA := hi.clean.advance ht.advance
  rcases hI with hI | hI
  · obtain ⟨rfl, _⟩ := hi.executed hd ht hI (hN I hI)
    obtain ⟨t, htg⟩ := target_of_isJump (B := B) hj
    obtain ⟨hDE, hIF, _⟩ := redirected ht hA htg
    exact ⟨hDE, fun _ => hIF⟩
  · obtain ⟨hDE, hIF⟩ := hi.jump I hI hj
    have hADE : A.PS.Insts.DE = none := by
      rcases advance_ok ht.advance with ⟨hs, rfl⟩ | ⟨hs, w, _, rfl⟩
      · rw [(hi.clean.shifted_insts hs).1]
        exact hDE
      · rw [(hi.clean.fetched_insts hs w).1]
        exact hIF
    constructor
    · rw [ht.filled hA .none, hADE]
      exact ite_self _
    · intro hent
      exact nomatch hDE.symm.trans (hi.entering hent).2.1

/-- The instruction waiting in DE has the operands of its state. -/
theorem Inv.operands (hi : Inv h N c S) (hd : Regular h N) (ht : Through S A B M none)
    (hN : ∀ I, S.entering = some I → (S.issued c : ℕ∞) < N)
    (hb : BackEnd h (S.accessed c) M.decoded.redirect.finish)
    (hacc : M.decoded.redirect.finish.accessed (S.accessed c) = S.issued c)
    (hbound : (M.decoded.redirect.finish.issued (S.accessed c) : ℕ∞) ≤ N)
    {J : Instruction} (hJ : M.decoded.redirect.finish.PS.Insts.DE = some J)
    (hs : M.decoded.redirect.finish.PS.StalledStages.IF = false)
    (hm : ((S.issued c + occ S.entering : ℕ) : ℕ∞) < N)
    (hf : (h.after (S.issued c + occ S.entering)).fetch = .ok (some J)) :
    Operands (h.after (S.issued c + occ S.entering)) M.decoded.redirect.finish J := by
  have hA := hi.clean.advance ht.advance
  have hins := ht.filled hA .none
  obtain ⟨_, hMA, _⟩ := hi.clean.advance_insts ht.advance
  have hiss := hi.issued_next ht
  have hMJ := (ht.decoding hA .none hs hJ).2.1
  have hsDE : M.PS.StalledStages.DE = false := by
    rw [(exec_stall ht.exec (ht.atRest hA)).1]
    rw [(cycle_frame M).2.2.2.2.1] at hs
    exact hs
  have hEX' : M.decoded.redirect.finish.PS.Insts.EX = S.entering := by
    rw [hins]
    exact hi.clean.advance_entering ht.advance
  have hMA' : M.decoded.redirect.finish.PS.Insts.MA = S.PS.Insts.EX := by
    rw [hins]
    exact hMA
  have hca : J.isCSR = true → J.csrAddr ∉ counters := (hd.admitted _ J hm hf).csr
  have hquiet : J.readsZero → ZeroQuiet h (S.accessed c) M.decoded.redirect.finish := by
    intro hr
    constructor
    · intro I hI h0
      have hrd : I.hasRd = true ∧ 0 = I.rd := by simpa [rdIs] using h0
      rw [hEX'] at hI
      rw [hacc]
      rw [hI, occ_some] at hm hf
      have hj : I.isJump = false := by
        by_contra hj
        rw [Bool.not_eq_false] at hj
        exact Option.some_ne_none J (hJ.symm.trans (hi.jump_next hd ht hN hj (.inl hI)).1)
      by_contra hne
      exact hd.quiet _ 1 I J (.inl rfl) hm (hi.entering hI).2.2.2 hf hrd.1 hrd.2.symm hj hne hr
    · intro K hK h0
      have hrd : K.hasRd = true ∧ 0 = K.rd := by simpa [rdIs] using h0
      rw [hMA'] at hK
      have hj : K.isJump = false := by
        by_contra hj
        rw [Bool.not_eq_false] at hj
        exact Option.some_ne_none J (hJ.symm.trans (hi.jump_next hd ht hN hj (.inr hK)).1)
      have hd12 : 1 + occ S.entering = 1 ∨ 1 + occ S.entering = 2 := by
        cases S.entering with
        | none => exact .inl rfl
        | some I => exact .inr rfl
      have hidx : S.issued c + occ S.entering = S.accessed c + (1 + occ S.entering) := by
        rw [issued_eq, hK, occ_some, Nat.add_assoc]
      rw [hidx] at hm hf
      by_contra hne
      exact hd.quiet _ _ K J hd12 hm (hi.back.EX K hK).fetch hf hrd.1 hrd.2.symm hj hne hr
  obtain ⟨h1, h2, h3⟩ := decoded_operands rfl (by rw [hins, ht.insts.1]) (by rw [hins, ht.insts.1])
    hMJ hsDE (fun hcsr hcyc => hca hcsr (hcyc ▸ List.mem_cons_self))
  refine ⟨?_, ?_, ?_⟩
  · intro hr1
    rw [h1 hr1, Hart.op1]
    cases hci : isCSRImm J with
    | true => rfl
    | false =>
      rw [if_neg Bool.false_ne_true, if_neg Bool.false_ne_true, ← hiss]
      refine hb.reg hbound hd ?_ fun h0 => hquiet (.inl ⟨hr1, hci, h0⟩)
      intro I hI hl
      exact (hi.load_stalls hd ht hN (hEX' ▸ hI) hl hMJ hsDE).1 hr1
  · intro hr2
    rw [h2 hr2, Hart.op2, ← hiss]
    refine hb.reg hbound hd ?_ fun h0 => hquiet (.inr ⟨hr2, h0⟩)
    intro I hI hl
    exact (hi.load_stalls hd ht hN (hEX' ▸ hI) hl hMJ hsDE).2 hr2
  · intro hcsr
    rw [h3 hcsr, Hart.opCSR, ← hiss]
    exact hb.csr hbound hd (hca hcsr)

/-- **A cycle keeps the invariant**, and writes back the instruction that was in MA. -/
theorem Inv.next (hi : Inv h N c S) (hd : Regular h N) (ht : Through S A B M none)
    (hMem : B.Mem = (h.after (S.issued c)).Mem)
    (hRd : ∀ K, S.PS.Insts.EX = some K → B.PS.MARdVal = (h.after (S.accessed c)).result K)
    (hN : ∀ I, S.entering = some I → (S.issued c : ℕ∞) < N) :
    Inv h N (S.accessed c) M.decoded.redirect.finish := by
  have hnext : Next S M.decoded.redirect.finish := ht.cycle_none
  have hiss := hi.issued_next ht
  obtain ⟨hb, hacc⟩ := hi.backEnd hd ht hMem hRd hN
  obtain ⟨hDE, hfetch⟩ := hi.frontEnd hd ht hN
  have hbound : (M.decoded.redirect.finish.issued (S.accessed c) : ℕ∞) ≤ N := by
    rw [hiss]
    exact hi.issued_add_le hN
  refine ⟨hi.clean.next hnext, hi.latched.next hi.clean hnext, hbound, hb, ?_, ?_⟩
  · rw [hiss]
    exact ⟨hDE, fun hs J hJ hm => hi.operands hd ht hN hb hacc hbound hJ hs hm (hDE J hJ).2, hfetch⟩
  · intro I hI hj
    have hent : S.entering = some I := by
      rw [ht.filled (hi.clean.advance ht.advance) .none] at hI
      exact (hi.clean.advance_entering ht.advance).symm.trans hI
    obtain ⟨h1, h2⟩ := hi.jump_next hd ht hN hj (.inl hent)
    exact ⟨h1, h2 hent⟩

end RIPSimulator

end RipSim
