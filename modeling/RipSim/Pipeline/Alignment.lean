import RipSim.Pipeline.Tracking

/-!
# The alignment of the pipeline registers

Instructions, addresses and tags are shifted by three loops that stop at the same stage, so
that they stay together (`Tagged`).  From one cycle to the next an instruction moves on by one
stage, except that a stall holds IF and DE back once (`Step.origin`).  That gives every
instruction in flight a stage of its own (`Sorted`), which it leaves for good, and `decode`
one chance to see it (`Logged`).
-/

namespace RipSim

open RIPSimulator

/-- The position of a stage. -/
def STAGES.rank : STAGES → ℕ
  | .IF => 0
  | .DE => 1
  | .EX => 2
  | .MA => 3
  | .WB => 4

theorem STAGES.rank_inj {s s' : STAGES} (h : s.rank = s'.rank) : s = s' := by
  cases s <;> cases s' <;> first | rfl | exact absurd h (by decide)

/-- Every instruction has its tag, and its address is that of the tag. -/
structure Tagged (PS : PipelineStates) (tags : Staged (Option Tag)) : Prop where
  insts : PS.Insts = tags.map (Option.map Tag.inst)
  PCs : ∀ s t, tags.get s = some t → PS.PCs.get s = t.PC

/-- The cycles in which `decode` has run on the instruction with this tag. -/
def Track.decodedIn (T : Track) (t : Tag) : List ℕ :=
  (T.decodes.filter fun d => d.1 = t).map Prod.snd

variable {σ : Type} {X Y : Tracked σ} {x : Exit}

/-! ## One cycle -/

theorem Tracked.moved_eq (hc : Clean X.sim) : X.moved =
    if X.sim.PS.StalledStages.IF then
      { X.track.tags with EX := none, MA := X.track.tags.EX, WB := X.track.tags.MA }
    else
      { IF := X.fetches, DE := X.track.tags.IF, EX := X.track.tags.DE, MA := X.track.tags.EX,
        WB := X.track.tags.MA } := by
  unfold Tracked.moved
  rw [hc.stall]
  cases X.sim.PS.StalledStages.IF <;> rfl

/-- The tag that a fetch makes. -/
theorem Tracked.fetches_some {t : Tag} (h : X.fetches = some t) :
    t.PC = X.sim.PC ∧ t.cycle = X.track.cycles := by
  unfold Tracked.fetches at h
  split_ifs at h
  obtain ⟨I, -, rfl⟩ := Option.map_eq_some_iff.mp h
  exact ⟨rfl, rfl⟩

/-- The instructions after the fetch. -/
theorem Tracked.advance_insts {A : RIPSimulator σ} (hA : X.sim.advance = .ok A) :
    A.PS.Insts = carry X.sim.PS.StalledStages (X.fetches.map Tag.inst) X.sim.PS.Insts := by
  rcases advance_ok hA with ⟨hs, rfl⟩ | ⟨hs, w, hw, rfl⟩
  · have hnew : X.fetches = none := if_pos hs
    rw [hnew]
    exact proceed_insts (X.sim.PS.proceedPC (-1)) none
  · have hnew : X.fetches.map Tag.inst = Decoder.decode w := by
      rw [Tracked.fetches, hs, if_neg Bool.false_ne_true, hw]
      show (Option.map _ (Decoder.decode w)).map Tag.inst = _
      cases Decoder.decode w <;> rfl
    rw [hnew]
    exact proceed_insts (X.sim.PS.proceedPC X.sim.PC) (Decoder.decode w)

/-- The fetch keeps instructions, addresses and tags together. -/
theorem Tagged.advance (hc : Clean X.sim) (h : Tagged X.sim.PS X.track.tags) {A : RIPSimulator σ}
    (hA : X.sim.advance = .ok A) : Tagged A.PS X.moved := by
  constructor
  · rw [Tracked.advance_insts hA, h.insts, Tracked.moved, carry_map]
  · intro s t ht
    rw [Tracked.moved_eq hc] at ht
    rcases advance_ok hA with ⟨hs, rfl⟩ | ⟨hs, w, -, rfl⟩
    · rw [if_pos hs] at ht
      rw [(hc.shifted_insts hs).2]
      cases s with
      | IF => exact h.PCs .IF t ht
      | DE => exact h.PCs .DE t ht
      | EX => exact nomatch ht
      | MA => exact h.PCs .EX t ht
      | WB => exact h.PCs .MA t ht
    · rw [if_neg (by rw [hs]; exact Bool.false_ne_true)] at ht
      rw [(hc.fetched_insts hs w).2]
      cases s with
      | IF => exact (Tracked.fetches_some ht).1.symm
      | DE => exact h.PCs .IF t ht
      | EX => exact h.PCs .DE t ht
      | MA => exact h.PCs .EX t ht
      | WB => exact h.PCs .MA t ht

theorem drop_get {α : Type} (V : Staged Bool) (I : Staged (Option α)) (s : STAGES) :
    (drop V I).get s = if V.get s then none else I.get s := by
  cases s <;> rfl

/-- So do the bubbles. -/
theorem Tagged.dropped {PS PS' : PipelineStates} {tags : Staged (Option Tag)} (h : Tagged PS tags)
    {V : Staged Bool} (hI : PS'.Insts = drop V PS.Insts) (hP : PS'.PCs = PS.PCs) :
    Tagged PS' (drop V tags) := by
  constructor
  · rw [hI, h.insts, drop_map]
  · intro s t ht
    rw [drop_get] at ht
    split_ifs at ht
    rw [hP]
    exact h.PCs s t ht

variable [BranchPredictor σ]

namespace Tracked

/-- The stages, for the cycle that calls them. -/
theorem stages_of_through {A B M : RIPSimulator σ} {E : Option Exception}
    (h : Through X.sim A B M E) : A.stages = .ok (E, M.decoded) := by
  unfold stages
  simp only [writeback_eq, h.access, h.exec, decode_eq, bind, Except.bind, pure, Except.pure]

/-- A tracked cycle, taken apart. -/
theorem Step.cases (h : Step x X Y) :
    (∃ A, X.sim.advance = .ok A ∧ A.PS.isEmpty = true ∧
      Y = ⟨A, ⟨X.track.cycles + 1, X.moved, X.track.decodes⟩⟩) ∨
    ∃ A B M E, Through X.sim A B M E ∧
      ((∃ D, Handled M.decoded E D ∧ Y = X.ended (X.decoding M.decoded) D) ∨
       Y = ⟨M.decoded.squashed, ⟨X.track.cycles + 1, X.moved, X.decoding M.decoded⟩⟩) := by
  have hY : ∀ {Z} x', X.cycle = .ok (x', Z) → Y = Z := fun _ hZ =>
    (Prod.mk.inj (Except.ok.inj (h.symm.trans hZ))).2
  rcases cycle_ok h.sim with ⟨_, hA, he⟩ | ⟨A, B, M, E, ht, ⟨rfl, _, _⟩ | ⟨e, D, rfl, hD, _, _⟩ |
    ⟨e, rfl, hD, _⟩⟩
  · refine .inl ⟨Y.sim, hA, he, hY .empty ?_⟩
    unfold cycle
    simp only [hA, he, bind, Except.bind, if_true]
    rfl
  · refine .inr ⟨A, B, M, none, ht, .inl ⟨_, .none, hY .next ?_⟩⟩
    unfold cycle
    simp only [ht.advance, ht.nonempty, stages_of_through ht, bind, Except.bind, Bool.false_eq_true,
      if_false]
    rfl
  · refine .inr ⟨A, B, M, some e, ht, .inl ⟨D, ht.handled hD, hY .next ?_⟩⟩
    unfold cycle
    simp only [ht.advance, ht.nonempty, stages_of_through ht, hD, bind, Except.bind,
      Bool.false_eq_true, if_false, if_true]
    rfl
  · refine .inr ⟨A, B, M, some e, ht, .inr (hY .stop ?_)⟩
    rcases handleException_ok (exec_exception ht.exec) hD with ⟨_, _, hsq⟩ | ⟨_, hf, _⟩ |
      ⟨_, _, hf, _⟩
    · rw [hsq] at hD
      unfold cycle
      simp only [ht.advance, ht.nonempty, stages_of_through ht, hD, bind, Except.bind,
        Bool.false_eq_true, if_false]
      rfl
    · exact nomatch hf
    · exact nomatch hf

/-- What the stages find and leave in the pipeline registers. -/
theorem staged (hc : Clean X.sim) (ht : Tagged X.sim.PS X.track.tags)
    {A B M : RIPSimulator σ} {E : Option Exception} (h : Through X.sim A B M E) :
    Tagged M.decoded.PS X.moved ∧
    X.decoding M.decoded = (if M.PS.StalledStages.IF then [] else
      (X.moved.DE.map (·, X.track.cycles)).toList) ++ X.track.decodes := by
  have hA := ht.advance hc h.advance
  obtain ⟨_, _, _, _, _, _, _, _, hI, hP, hS, _⟩ := M.decoded_frame
  have hDI : M.decoded.PS.Insts = A.PS.Insts := hI.trans h.insts.1
  have hDP : M.decoded.PS.PCs = A.PS.PCs := hP.trans h.insts.2
  have hDE : M.PS.StalledStages.DE = M.PS.StalledStages.IF := by
    rw [(exec_stall h.exec (h.atRest (hc.advance h.advance))).1]
    rfl
  refine ⟨⟨hDI.trans hA.insts, fun s t hs => hDP ▸ hA.PCs s t hs⟩, ?_⟩
  unfold decoding
  have hsome : A.PS.Insts.DE = X.moved.DE.map Tag.inst :=
    congrArg Staged.DE hA.insts
  rw [hDI, hS, hDE, hsome]
  cases M.PS.StalledStages.IF <;> cases X.moved.DE <;> rfl

/-- What a cycle does to the pipeline registers: of what has been moved, IF and DE may become
bubbles. -/
theorem Step.registers (hc : Clean X.sim) (ht : Tagged X.sim.PS X.track.tags) (h : Step x X Y) :
    Tagged Y.sim.PS Y.track.tags ∧ Y.track.cycles = X.track.cycles + 1 ∧
    (∃ i d, Y.track.tags = drop (invalids i d) X.moved) ∧
    Y.track.decodes = (if Y.sim.PS.StalledStages.IF then [] else
      (X.moved.DE.map (·, X.track.cycles)).toList) ++ X.track.decodes := by
  rcases h.cases with ⟨A, hA, he, rfl⟩ | ⟨A, B, M, E, hth, ⟨D, hD, rfl⟩ | rfl⟩
  · have htA := ht.advance hc hA
    have hDE : X.moved.DE = none := by
      have hI : A.PS.Insts.DE = X.moved.DE.map Tag.inst :=
        congrArg Staged.DE htA.insts
      rw [isEmpty_insts he] at hI
      exact Option.map_eq_none_iff.mp hI.symm
    refine ⟨htA, rfl, ⟨false, false, rfl⟩, ?_⟩
    show X.track.decodes = _
    rw [hDE]
    split_ifs <;> rfl
  · obtain ⟨htM, hdec⟩ := staged hc ht hth
    have hB := hth.atRest (hc.advance hth.advance)
    have hinv := hD.invalid (decoded_invalid (exec_invalid hth.exec hB.invalid))
    obtain ⟨_, _, _, _, _, _, hDPS⟩ := hD.frame
    obtain ⟨_, _, _, _, _, _, _, _, _, hP, _⟩ := M.decoded_frame
    refine ⟨?_, rfl, ⟨_, _, congrArg (drop · X.moved) hinv⟩, ?_⟩
    · refine htM.dropped (V := D.PS.InvalidStages) ?_ ?_
      · show D.redirect.PS.fillBubble.Insts = _
        rw [fillBubble_insts, redirect_eq]
        show drop D.PS.InvalidStages D.PS.Insts = _
        rw [hDPS]
      · show D.redirect.finish.PS.PCs = _
        rw [hD.end_PS]
        exact hP.symm
    · show X.decoding M.decoded = (if D.redirect.finish.PS.StalledStages.IF then _ else _) ++ _
      rw [hD.stalled, hdec]
  · obtain ⟨htM, hdec⟩ := staged hc ht hth
    obtain ⟨_, _, _, _, _, _, _, _, _, _, hS, _⟩ := M.decoded_frame
    refine ⟨⟨htM.insts, htM.PCs⟩, rfl, ⟨false, false, rfl⟩, ?_⟩
    show X.decoding M.decoded = (if M.decoded.PS.StalledStages.IF then _ else _) ++ _
    rw [hS, hdec]

/-- A cycle adds nothing to what has been moved. -/
theorem Step.moved_get (hc : Clean X.sim) (ht : Tagged X.sim.PS X.track.tags) (h : Step x X Y)
    {s : STAGES} {t : Tag} (hs : Y.track.tags.get s = some t) : X.moved.get s = some t := by
  obtain ⟨-, -, ⟨i, d, htags⟩, -⟩ := h.registers hc ht
  rw [htags, drop_get] at hs
  split_ifs at hs
  exact hs

/-- Where an instruction was a cycle ago: it has just been fetched, or it was a stage before, or a
stall has held it back in IF or DE. -/
theorem Step.origin (hc : Clean X.sim) (ht : Tagged X.sim.PS X.track.tags) (h : Step x X Y)
    {s : STAGES}
    {t : Tag} (hs : Y.track.tags.get s = some t) :
    (s = .IF ∧ X.fetches = some t) ∨ ∃ s', X.track.tags.get s' = some t ∧
      s.rank = if X.sim.PS.StalledStages.IF = true ∧ s'.rank < 2 then s'.rank else s'.rank + 1 := by
  have hmoved := h.moved_get hc ht hs
  rw [moved_eq hc] at hmoved
  cases hst : X.sim.PS.StalledStages.IF with
  | true =>
    rw [hst, if_pos rfl] at hmoved
    cases s with
    | IF => exact .inr ⟨.IF, hmoved, rfl⟩
    | DE => exact .inr ⟨.DE, hmoved, rfl⟩
    | EX => exact nomatch hmoved
    | MA => exact .inr ⟨.EX, hmoved, rfl⟩
    | WB => exact .inr ⟨.MA, hmoved, rfl⟩
  | false =>
    rw [hst, if_neg Bool.false_ne_true] at hmoved
    cases s with
    | IF => exact .inl ⟨rfl, hmoved⟩
    | DE => exact .inr ⟨.IF, hmoved, rfl⟩
    | EX => exact .inr ⟨.DE, hmoved, rfl⟩
    | MA => exact .inr ⟨.EX, hmoved, rfl⟩
    | WB => exact .inr ⟨.MA, hmoved, rfl⟩

/-- Nothing in EX or MA is lost, and a stall keeps DE from EX. -/
theorem Step.onward (hc : Clean X.sim) (ht : Tagged X.sim.PS X.track.tags) (h : Step x X Y) :
    Y.track.tags.EX = (if X.sim.PS.StalledStages.IF then none else X.track.tags.DE) ∧
    Y.track.tags.MA = X.track.tags.EX ∧ Y.track.tags.WB = X.track.tags.MA := by
  obtain ⟨-, -, ⟨i, d, htags⟩, -⟩ := h.registers hc ht
  rw [htags, moved_eq hc]
  cases X.sim.PS.StalledStages.IF <;> exact ⟨rfl, rfl, rfl⟩

/-! ## Invariants -/

/-- An instruction is younger than those in front of it, and older than the cycle. -/
structure Sorted (T : Track) : Prop where
  order : ∀ s s' t t', s.rank < s'.rank → T.tags.get s = some t → T.tags.get s' = some t' →
    t'.cycle < t.cycle
  old : ∀ s t, T.tags.get s = some t → t.cycle < T.cycles

/-- An instruction is in one stage only. -/
theorem Sorted.unique {T : Track} (hS : Sorted T) {s s' : STAGES} {t : Tag}
    (hs : T.tags.get s = some t) (hs' : T.tags.get s' = some t) : s = s' := by
  rcases Nat.lt_trichotomy s.rank s'.rank with h | h | h
  · exact absurd (hS.order s s' t t h hs hs') (lt_irrefl _)
  · exact STAGES.rank_inj h
  · exact absurd (hS.order s' s t t h hs' hs) (lt_irrefl _)

theorem Sorted.next (hS : Sorted X.track) (hc : Clean X.sim) (ht : Tagged X.sim.PS X.track.tags)
    (h : Step x X Y) : Sorted Y.track := by
  obtain ⟨-, hcycles, -, -⟩ := h.registers hc ht
  constructor
  · intro s s' t t' hlt hs hs'
    rcases h.origin hc ht hs' with ⟨rfl, _⟩ | ⟨s₁', hs₁', hr'⟩
    · exact absurd hlt (Nat.not_lt_zero _)
    · rcases h.origin hc ht hs with ⟨_, hnew⟩ | ⟨s₁, hs₁, hr⟩
      · rw [(fetches_some hnew).2]
        exact hS.old s₁' t' hs₁'
      · refine hS.order s₁ s₁' t t' ?_ hs₁ hs₁'
        cases hst : X.sim.PS.StalledStages.IF with
        | false =>
          simp only [hst, Bool.false_eq_true, false_and, if_false] at hr hr'
          omega
        | true =>
          simp only [hst, true_and] at hr hr'
          split_ifs at hr hr' <;> omega
  · intro s t hs
    rw [hcycles]
    rcases h.origin hc ht hs with ⟨_, hnew⟩ | ⟨s', hs', -⟩
    · rw [(fetches_some hnew).2]
      exact Nat.lt_succ_self _
    · exact (hS.old s' t hs').trans (Nat.lt_succ_self _)

/-- On what `decode` has run: not on what is in IF or held back in DE, and once on what waits in
DE or is in EX, in the cycle before it comes to EX. -/
structure Logged (X : Tracked σ) : Prop where
  fresh : ∀ d ∈ X.track.decodes, d.1.cycle < X.track.cycles
  waiting : ∀ t, X.track.tags.IF = some t → X.track.decodedIn t = []
  held : ∀ t, X.track.tags.DE = some t → X.sim.PS.StalledStages.IF = true →
    X.track.decodedIn t = []
  decoded : ∀ t, X.track.tags.DE = some t → X.sim.PS.StalledStages.IF = false →
    ∃ k, X.track.cycles = k + 1 ∧ X.track.decodedIn t = [k]
  executing : ∀ t, X.track.tags.EX = some t →
    ∃ k, X.track.cycles = k + 2 ∧ X.track.decodedIn t = [k]

/-- The note of a cycle, for one instruction. -/
theorem Step.decodedIn (hc : Clean X.sim) (ht : Tagged X.sim.PS X.track.tags) (h : Step x X Y)
    (t : Tag) : Y.track.decodedIn t =
      if X.moved.DE = some t ∧ Y.sim.PS.StalledStages.IF = false then
        X.track.cycles :: X.track.decodedIn t
      else X.track.decodedIn t := by
  obtain ⟨-, -, -, hdec⟩ := h.registers hc ht
  unfold Track.decodedIn
  rw [hdec]
  cases Y.sim.PS.StalledStages.IF with
  | true => simp
  | false =>
    cases X.moved.DE with
    | none => simp
    | some u =>
      by_cases hu : u = t
      · simp [hu]
      · simp [hu]

omit [BranchPredictor σ] in
/-- What has not been fetched has not been decoded. -/
theorem Logged.of_fetches (hL : Logged X) {t : Tag} (ht : X.fetches = some t) :
    X.track.decodedIn t = [] := by
  have hnone : X.track.decodes.filter (fun d => d.1 = t) = [] := by
    refine List.filter_eq_nil_iff.mpr fun d hd heq => ?_
    have hlt := hL.fresh d hd
    rw [decide_eq_true_eq.mp heq, (fetches_some ht).2] at hlt
    exact lt_irrefl _ hlt
  rw [Track.decodedIn, hnone, List.map_nil]

omit [BranchPredictor σ] in
/-- `decode` runs on what was in IF, or held back in DE. -/
theorem moved_DE (hc : Clean X.sim) : X.moved.DE =
    if X.sim.PS.StalledStages.IF then X.track.tags.DE else X.track.tags.IF := by
  rw [moved_eq hc]
  cases X.sim.PS.StalledStages.IF <;> rfl

omit [BranchPredictor σ] in
/-- Where what has been moved to DE was. -/
theorem exists_of_moved_DE (hc : Clean X.sim) {t : Tag} (hm : X.moved.DE = some t) :
    ∃ s, X.track.tags.get s = some t ∧
      (if X.sim.PS.StalledStages.IF = true ∧ s.rank < 2 then s.rank else s.rank + 1) = 1 := by
  rw [moved_DE hc] at hm
  cases hst : X.sim.PS.StalledStages.IF with
  | true =>
    rw [hst, if_pos rfl] at hm
    exact ⟨.DE, hm, rfl⟩
  | false =>
    rw [hst, if_neg Bool.false_ne_true] at hm
    exact ⟨.IF, hm, rfl⟩

/-- What has been moved to DE is nowhere else. -/
theorem Step.stage_of_moved_DE (hS : Sorted X.track) (hc : Clean X.sim)
    (ht : Tagged X.sim.PS X.track.tags) (h : Step x X Y) {s : STAGES} {t : Tag}
    (hm : X.moved.DE = some t) (hs : Y.track.tags.get s = some t) : s = .DE := by
  obtain ⟨s₁, hs₁, hr₁⟩ := exists_of_moved_DE hc hm
  rcases h.origin hc ht hs with ⟨-, hnew⟩ | ⟨s₂, hs₂, hr₂⟩
  · exact absurd (fetches_some hnew).2 (hS.old s₁ t hs₁).ne
  · rw [hS.unique hs₂ hs₁, hr₁] at hr₂
    exact STAGES.rank_inj hr₂

/-- `decode` does not run on what ends the cycle in another stage. -/
theorem Step.decodedIn_of_ne (hS : Sorted X.track) (hc : Clean X.sim)
    (ht : Tagged X.sim.PS X.track.tags) (h : Step x X Y) {s : STAGES} {t : Tag} (hne : s ≠ .DE)
    (hs : Y.track.tags.get s = some t) : Y.track.decodedIn t = X.track.decodedIn t := by
  rw [h.decodedIn hc ht, if_neg]
  rintro ⟨hm, -⟩
  exact hne (h.stage_of_moved_DE hS hc ht hm hs)

omit [BranchPredictor σ] in
/-- What `decode` finds has not been decoded before. -/
theorem Logged.of_moved_DE (hL : Logged X) (hc : Clean X.sim) {t : Tag}
    (hm : X.moved.DE = some t) : X.track.decodedIn t = [] := by
  rw [moved_DE hc] at hm
  cases hst : X.sim.PS.StalledStages.IF with
  | true => exact hL.held t (by rwa [hst, if_pos rfl] at hm) hst
  | false => exact hL.waiting t (by rwa [hst, if_neg Bool.false_ne_true] at hm)

theorem Logged.next (hL : Logged X) (hS : Sorted X.track) (hc : Clean X.sim)
    (ht : Tagged X.sim.PS X.track.tags) (h : Step x X Y) : Logged Y := by
  obtain ⟨-, hcycles, -, hdec⟩ := h.registers hc ht
  constructor
  · intro d hd
    rw [hdec, List.mem_append] at hd
    rw [hcycles]
    rcases hd with hd | hd
    · split_ifs at hd
      · exact nomatch hd
      · rw [Option.mem_toList, Option.map_eq_some_iff] at hd
        obtain ⟨u, hu, rfl⟩ := hd
        obtain ⟨s, hs, -⟩ := exists_of_moved_DE hc hu
        exact (hS.old s u hs).trans (Nat.lt_succ_self _)
    · exact (hL.fresh d hd).trans (Nat.lt_succ_self _)
  · intro t hY
    rw [h.decodedIn_of_ne hS hc ht (s := .IF) (by decide) hY]
    rcases h.origin hc ht (s := .IF) hY with ⟨-, hfetch⟩ | ⟨s', hs', hr⟩
    · exact hL.of_fetches hfetch
    · obtain rfl : s' = .IF := STAGES.rank_inj (by
        change 0 = _ at hr
        split_ifs at hr
        exact hr.symm)
      exact hL.waiting t hs'
  · intro t hY hst
    rw [h.decodedIn hc ht, if_neg fun hm => absurd (hst.symm.trans hm.2) (by decide)]
    exact hL.of_moved_DE hc (h.moved_get hc ht (s := .DE) hY)
  · intro t hY hst
    have hm := h.moved_get hc ht (s := .DE) hY
    refine ⟨X.track.cycles, hcycles, ?_⟩
    rw [h.decodedIn hc ht, if_pos ⟨hm, hst⟩, hL.of_moved_DE hc hm]
  · intro t hY
    have hEX := (h.onward hc ht).1
    rw [hY] at hEX
    cases hst : X.sim.PS.StalledStages.IF with
    | true =>
      rw [hst, if_pos rfl] at hEX
      exact nomatch hEX
    | false =>
      rw [hst, if_neg Bool.false_ne_true] at hEX
      obtain ⟨k, hk, hin⟩ := hL.decoded t hEX.symm hst
      refine ⟨k, by omega, ?_⟩
      rw [h.decodedIn_of_ne hS hc ht (s := .EX) (by decide) hY, hin]

/-- What holds between two cycles. -/
structure Aligned (X : Tracked σ) : Prop where
  clean : Clean X.sim
  tagged : Tagged X.sim.PS X.track.tags
  sorted : Sorted X.track
  logged : Logged X

omit [BranchPredictor σ] in
theorem aligned_tracked {S₀ : RIPSimulator σ} (h₀ : Started S₀) : Aligned S₀.tracked := by
  obtain ⟨d, P, hPS⟩ := h₀.PS
  have hnone : ∀ s t, S₀.tracked.track.tags.get s ≠ some t := by
    intro s t
    cases s <;> exact fun h => nomatch h
  refine ⟨h₀.clean, ⟨?_, fun s t h => absurd h (hnone s t)⟩,
    ⟨fun s _ t _ _ h => absurd h (hnone s t), fun s t h => absurd h (hnone s t)⟩,
    ⟨fun _ h => absurd h List.not_mem_nil, fun t h => absurd h (hnone .IF t),
      fun t h => absurd h (hnone .DE t), fun t h => absurd h (hnone .DE t),
      fun t h => absurd h (hnone .EX t)⟩⟩
  show S₀.PS.Insts = _
  rw [hPS]
  rfl

theorem Aligned.next (hX : Aligned X) (h : Step .next X Y) : Aligned Y :=
  ⟨hX.clean.next h.sim, (h.registers hX.clean hX.tagged).1, hX.sorted.next hX.clean hX.tagged h,
    hX.logged.next hX.sorted hX.clean hX.tagged h⟩

/-! ## Runs -/

variable {S₀ : RIPSimulator σ} {n m : ℕ} {x' : Exit} {Z : Tracked σ}

/-- Between two cycles of every run. -/
theorem aligned_after (h₀ : Started S₀) (h : S₀.tracked.after n = some X) :
    Aligned X ∧ X.track.cycles = n := by
  induction n generalizing X with
  | zero =>
    obtain rfl := Option.some.inj h
    exact ⟨aligned_tracked h₀, rfl⟩
  | succ n ih =>
    obtain ⟨Z, hZ, hn⟩ := after_succ.mp h
    obtain ⟨hA, hcycles⟩ := ih hZ
    exact ⟨hA.next hn, by rw [(hn.registers hA.clean hA.tagged).2.1, hcycles]⟩

/-- The end of cycle `n`, counted from 0, of a run. -/
def AtEnd (X₀ : Tracked σ) (n : ℕ) (x : Exit) (Y : Tracked σ) : Prop :=
  ∃ X, X₀.after n = some X ∧ Step x X Y

/-- A cycle ends in one way. -/
theorem AtEnd.unique {X₀ : Tracked σ} (hY : AtEnd X₀ n x Y) (hZ : AtEnd X₀ n x' Z) : Y = Z := by
  obtain ⟨X, hX, hY⟩ := hY
  obtain ⟨X', hX', hZ⟩ := hZ
  obtain rfl := Option.some.inj (hX.symm.trans hX')
  exact (Prod.mk.inj (Except.ok.inj (hY.symm.trans hZ))).2

/-- The cycle before went on. -/
theorem AtEnd.pred {X₀ : Tracked σ} (h : AtEnd X₀ (n + 1) x Z) :
    ∃ Y, AtEnd X₀ n .next Y ∧ X₀.after (n + 1) = some Y ∧ Step x Y Z := by
  obtain ⟨Y, hY, hs⟩ := h
  obtain ⟨X, hX, hn⟩ := after_succ.mp hY
  exact ⟨Y, ⟨X, hX, hn⟩, hY, hs⟩

/-- What follows the end of a cycle. -/
theorem AtEnd.step {X₀ : Tracked σ} (hY : AtEnd X₀ n x Y) (hZ : AtEnd X₀ (n + 1) x' Z) :
    X₀.after (n + 1) = some Y ∧ Step x' Y Z := by
  obtain ⟨Y', hY', hafter, hs⟩ := hZ.pred
  obtain rfl := hY.unique hY'
  exact ⟨hafter, hs⟩

/-- From EX on an instruction moves on in every cycle, and `decode` does not see it again. -/
theorem AtEnd.later (h₀ : Started S₀) (hY : AtEnd S₀.tracked n x Y) {s : STAGES} {t : Tag}
    (ht : Y.track.tags.get s = some t) (hs : 2 ≤ s.rank) (j : ℕ)
    (hZ : AtEnd S₀.tracked (n + j) x' Z) :
    (∀ s', Z.track.tags.get s' = some t → s'.rank = s.rank + j) ∧ t.cycle ≤ n ∧
    Z.track.decodedIn t = Y.track.decodedIn t := by
  induction j generalizing Z x' with
  | zero =>
    obtain rfl := hY.unique hZ
    obtain ⟨X, hX, hstep⟩ := hY
    obtain ⟨hA, hcycles⟩ := aligned_after h₀ hX
    have hsorted := hA.sorted.next hA.clean hA.tagged hstep
    have hold := hsorted.old s t ht
    rw [(hstep.registers hA.clean hA.tagged).2.1, hcycles] at hold
    exact ⟨fun s' hs' => congrArg STAGES.rank (hsorted.unique hs' ht), Nat.le_of_lt_succ hold, rfl⟩
  | succ j ih =>
    obtain ⟨W, hW, hafter, hstep⟩ := hZ.pred
    obtain ⟨hrank, hcycle, hdec⟩ := ih hW
    obtain ⟨hA, hcycles⟩ := aligned_after h₀ hafter
    refine ⟨fun s' hs' => ?_, hcycle, ?_⟩
    · rcases hstep.origin hA.clean hA.tagged hs' with ⟨_, hnew⟩ | ⟨s₁, hs₁, hr⟩
      · have hnow : t.cycle = n + j + 1 := (fetches_some hnew).2.trans hcycles
        omega
      · have hs₁' := hrank s₁ hs₁
        rw [if_neg fun hlt => by omega] at hr
        omega
    · rw [hstep.decodedIn hA.clean hA.tagged, if_neg, hdec]
      rintro ⟨hm, _⟩
      rw [moved_DE hA.clean] at hm
      split_ifs at hm
      · have hDE : 1 = s.rank + j := hrank .DE hm
        omega
      · have hIF : 0 = s.rank + j := hrank .IF hm
        omega

/-- Where the instructions of a run come from. -/
theorem AtEnd.fetched (h₀ : Started S₀) (hY : AtEnd S₀.tracked n x Y) {s : STAGES} {t : Tag}
    (ht : Y.track.tags.get s = some t) :
    t.cycle ≤ n ∧ ∃ X, S₀.tracked.after t.cycle = some X ∧ X.fetches = some t := by
  induction n generalizing Y x s with
  | zero =>
    obtain ⟨X, hX, hstep⟩ := hY
    obtain ⟨hA, hcycles⟩ := aligned_after h₀ hX
    obtain rfl := Option.some.inj hX
    rcases hstep.origin hA.clean hA.tagged ht with ⟨_, hnew⟩ | ⟨s', hs', _⟩
    · have hnow := (fetches_some hnew).2.trans hcycles
      exact ⟨hnow.le, _, by rw [hnow]; rfl, hnew⟩
    · exact absurd (hA.sorted.old s' t hs') (Nat.not_lt_zero _)
  | succ n ih =>
    obtain ⟨X, hX, hafter, hstep⟩ := hY.pred
    obtain ⟨hA, hcycles⟩ := aligned_after h₀ hafter
    rcases hstep.origin hA.clean hA.tagged ht with ⟨_, hnew⟩ | ⟨s', hs', _⟩
    · have hnow := (fetches_some hnew).2.trans hcycles
      exact ⟨hnow.le, X, by rw [hnow]; exact hafter, hnew⟩
    · obtain ⟨hle, hfetched⟩ := ih hX hs'
      exact ⟨hle.trans (Nat.le_succ n), hfetched⟩

/-- The stages of an instruction that has come to EX, by the cycle. -/
theorem AtEnd.rank_add (h₀ : Started S₀) (hY : AtEnd S₀.tracked n x Y)
    (hZ : AtEnd S₀.tracked m x' Z) {s s' : STAGES} {t : Tag} (hs : 2 ≤ s.rank) (hs' : 2 ≤ s'.rank)
    (ht : Y.track.tags.get s = some t) (ht' : Z.track.tags.get s' = some t) :
    s'.rank + n = s.rank + m := by
  rcases Nat.le_total n m with hle | hle
  · obtain ⟨j, rfl⟩ := Nat.exists_eq_add_of_le hle
    have hrank := (hY.later h₀ ht hs j hZ).1 s' ht'
    omega
  · obtain ⟨j, rfl⟩ := Nat.exists_eq_add_of_le hle
    have hrank := (hZ.later h₀ ht' hs' j hY).1 s ht
    omega

/-- What is in EX is in MA at the end of the next cycle, and what is in MA is in WB. -/
theorem AtEnd.onward (h₀ : Started S₀) (hY : AtEnd S₀.tracked n x Y)
    (hZ : AtEnd S₀.tracked (n + 1) x' Z) :
    Z.track.tags.MA = Y.track.tags.EX ∧ Z.track.tags.WB = Y.track.tags.MA := by
  obtain ⟨hafter, hstep⟩ := hY.step hZ
  obtain ⟨hA, -⟩ := aligned_after h₀ hafter
  exact (hstep.onward hA.clean hA.tagged).2

/-- A stall is set behind a load in EX, and not where one has been. -/
theorem Step.stall (hA : Aligned X) (h : Step x X Y) :
    Y.sim.PS.StalledStages = stalls Y.sim.PS.StalledStages.IF ∧
    (Y.sim.PS.StalledStages.IF = true → X.sim.PS.StalledStages.IF = false ∧
      ∃ I, Y.sim.PS.Insts.EX = some I ∧ I.isLoad = true) := by
  rcases h.cases with ⟨A, hadv, -, rfl⟩ | ⟨A, B, M, E, hth, hY⟩
  · have hrest := (hA.clean.advance hadv).stall
    show A.PS.StalledStages = stalls A.PS.StalledStages.IF ∧
      (A.PS.StalledStages.IF = true → _)
    rw [hrest]
    exact ⟨rfl, fun hs => nomatch hs⟩
  · have hst : Y.sim.PS.StalledStages = M.PS.StalledStages := by
      obtain ⟨_, _, _, _, _, _, _, _, _, _, hS, _⟩ := M.decoded_frame
      rcases hY with ⟨D, hD, rfl⟩ | rfl
      · exact hD.stalled
      · exact hS
    obtain ⟨hpair, hload⟩ := exec_stall hth.exec (hth.atRest (hA.clean.advance hth.advance))
    rw [hst]
    refine ⟨hpair, fun hs => ?_⟩
    obtain ⟨-, -, I, hI, hl, -⟩ := hload hs
    have hAI : A.PS.Insts.EX = some I := by
      rw [← hth.insts.1, (exec_frame hth.exec).Insts]
      exact hI
    have hmoved : A.PS.Insts.EX = X.moved.EX.map Tag.inst :=
      congrArg Staged.EX (hA.tagged.advance hA.clean hth.advance).insts
    obtain ⟨htY, -, ⟨i, d, htags⟩, -⟩ := h.registers hA.clean hA.tagged
    have hEX : Y.sim.PS.Insts.EX = Y.track.tags.EX.map Tag.inst :=
      congrArg Staged.EX htY.insts
    refine ⟨moving_of_entering ((hA.clean.advance_entering hth.advance).symm.trans hAI), I, ?_, hl⟩
    rw [hEX, htags]
    exact hmoved.symm.trans hAI

end Tracked

open Tracked

/-- **The pipeline registers of a run**, at the end of every cycle. -/
structure Alignment (S₀ : RIPSimulator σ) : Prop where
  /-- Every cycle of the run is one of those below. -/
  run : ∀ n S x T, after n S₀ = some S → S.cycle = .ok (x, T) →
    ∃ Y, AtEnd S₀.tracked n x Y ∧ Y.sim = T
  /-- A stage holds an instruction if it holds its tag. -/
  insts : ∀ n x Y, AtEnd S₀.tracked n x Y → ∀ s,
    Y.sim.PS.Insts.get s = (Y.track.tags.get s).map Tag.inst
  /-- Its PC is the address it has been fetched from. -/
  PCs : ∀ n x Y, AtEnd S₀.tracked n x Y → ∀ s t, Y.track.tags.get s = some t →
    Y.sim.PS.PCs.get s = t.PC ∧
    t.cycle ≤ n ∧ ∃ X, S₀.tracked.after t.cycle = some X ∧ X.fetches = some t
  /-- IF and DE are stalled together, behind a load in EX. -/
  stall : ∀ n x Y, AtEnd S₀.tracked n x Y →
    Y.sim.PS.StalledStages = stalls Y.sim.PS.StalledStages.IF ∧
    (Y.sim.PS.StalledStages.IF = true → ∃ I, Y.sim.PS.Insts.EX = some I ∧ I.isLoad = true)
  /-- A stall lasts for one cycle. -/
  once : ∀ n x x' Y Z, AtEnd S₀.tracked n x Y → AtEnd S₀.tracked (n + 1) x' Z →
    Y.sim.PS.StalledStages.IF = true → Z.sim.PS.StalledStages.IF = false
  /-- Nothing is invalid.  The cycle that stops a run has no `fillBubble`. -/
  invalid : ∀ n Y, AtEnd S₀.tracked n .next Y → Y.sim.PS.InvalidStages = Staged.const false
  /-- Nothing is lost: what is in EX goes on to MA, and to WB, and is in neither at any
  other time. -/
  onward : ∀ n x Y t, AtEnd S₀.tracked n x Y → Y.track.tags.EX = some t →
    ∀ m x' Z, AtEnd S₀.tracked m x' Z →
      (Z.track.tags.EX = some t ↔ m = n) ∧ (Z.track.tags.MA = some t ↔ m = n + 1) ∧
      (Z.track.tags.WB = some t ↔ m = n + 2)
  /-- `decode` has run on it in the cycle before, and in no other. -/
  decoded : ∀ n x Y t, AtEnd S₀.tracked n x Y → Y.track.tags.EX = some t →
    ∃ k, n = k + 1 ∧ ∀ m x' Z, n ≤ m → AtEnd S₀.tracked m x' Z → Z.track.decodedIn t = [k]

/-- **The pipeline registers stay aligned**, whatever is stalled, squashed, predicted or raised. -/
theorem pipeline_aligned {S₀ : RIPSimulator σ} (h₀ : Started S₀) : Alignment S₀ where
  run n S x T hS hT := by
    obtain ⟨X, hX, rfl⟩ := tracked_after n hS
    obtain ⟨Y, hY, hT⟩ := exists_step hT
    exact ⟨Y, ⟨X, hX, hY⟩, hT⟩
  insts := by
    rintro n x Y ⟨X, hX, hstep⟩ s
    obtain ⟨hA, -⟩ := aligned_after h₀ hX
    rw [(hstep.registers hA.clean hA.tagged).1.insts, Staged.map_get]
  PCs n x Y hY s t ht := by
    refine ⟨?_, hY.fetched h₀ ht⟩
    obtain ⟨X, hX, hstep⟩ := hY
    obtain ⟨hA, -⟩ := aligned_after h₀ hX
    exact (hstep.registers hA.clean hA.tagged).1.PCs s t ht
  stall := by
    rintro n x Y ⟨X, hX, hstep⟩
    obtain ⟨hpair, hload⟩ := hstep.stall (aligned_after h₀ hX).1
    exact ⟨hpair, fun hs => (hload hs).2⟩
  once n x x' Y Z hY hZ hs := by
    obtain ⟨hafter, hstep⟩ := hY.step hZ
    cases hZs : Z.sim.PS.StalledStages.IF with
    | false => rfl
    | true => exact absurd hs (by
        rw [((hstep.stall (aligned_after h₀ hafter).1).2 hZs).1]
        exact Bool.false_ne_true)
  invalid := by
    rintro n Y ⟨X, hX, hstep⟩
    exact ((aligned_after h₀ hX).1.next hstep).clean.invalid
  onward n x Y t hY ht m x' Z hZ := by
    have hrank : ∀ {s : STAGES}, 2 ≤ s.rank → Z.track.tags.get s = some t → s.rank + n = 2 + m :=
      fun hs hZt => hY.rank_add h₀ hZ (s := .EX) le_rfl hs ht hZt
    refine ⟨⟨fun hEX => ?_, ?_⟩, ⟨fun hMA => ?_, ?_⟩, ⟨fun hWB => ?_, ?_⟩⟩
    · have hr : 2 + n = 2 + m := hrank (s := .EX) (by decide) hEX
      omega
    · rintro rfl
      rw [← hY.unique hZ]
      exact ht
    · have hr : 3 + n = 2 + m := hrank (s := .MA) (by decide) hMA
      omega
    · rintro rfl
      exact (hY.onward h₀ hZ).1.trans ht
    · have hr : 4 + n = 2 + m := hrank (s := .WB) (by decide) hWB
      omega
    · rintro rfl
      obtain ⟨W, hW, -, -⟩ := hZ.pred
      exact (hW.onward h₀ hZ).2.trans ((hY.onward h₀ hW).1.trans ht)
  decoded n x Y t hY ht := by
    have hlogged : ∃ k, n = k + 1 ∧ Y.track.decodedIn t = [k] := by
      obtain ⟨X, hX, hstep⟩ := hY
      obtain ⟨hA, hcycles⟩ := aligned_after h₀ hX
      obtain ⟨k, hk, hin⟩ :=
        (hA.logged.next hA.sorted hA.clean hA.tagged hstep).executing t ht
      rw [(hstep.registers hA.clean hA.tagged).2.1, hcycles] at hk
      exact ⟨k, Nat.succ.inj hk, hin⟩
    obtain ⟨k, hk, hin⟩ := hlogged
    refine ⟨k, hk, fun m x' Z hle hZ => ?_⟩
    obtain ⟨j, rfl⟩ := Nat.exists_eq_add_of_le hle
    rw [(hY.later h₀ (s := .EX) ht le_rfl j hZ).2.2, hin]

/-- `lw x1, 0(x0); addi x2, x1, 1`: `addi` waits for `lw` in DE, and is decoded after that. -/
theorem pipeline_aligned_load_use :
    ∃ Y : Tracked OneBitBranchPredictor,
      AtEnd (boot [0x00002083, 0x00108113] none).tracked 4 .next Y ∧
      Y.track.tags.EX = some ⟨.IInstruction .addi 2 1 1, 4, 1⟩ ∧
      Y.track.decodedIn ⟨.IInstruction .addi 2 1 1, 4, 1⟩ = [3] := by
  have h : (((boot [0x00002083, 0x00108113] none :
      RIPSimulator OneBitBranchPredictor).tracked.after 5).map fun Y => Y.track.tags.EX) =
      some (some ⟨.IInstruction .addi 2 1 1, 4, 1⟩) := by
    decide +kernel
  obtain ⟨Y, hY, hEX⟩ := Option.map_eq_some_iff.mp h
  obtain ⟨X, hX, hs⟩ := after_succ.mp hY
  obtain ⟨k, hk, hdec⟩ := (pipeline_aligned (started_boot _ _)).decoded 4 .next Y _ ⟨X, hX, hs⟩ hEX
  obtain rfl : k = 3 := by omega
  exact ⟨Y, ⟨X, hX, hs⟩, hEX, hdec 4 .next Y le_rfl ⟨X, hX, hs⟩⟩

end RipSim
