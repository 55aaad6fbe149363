import RipSim.Encoding.Assembled

/-!
# Layout and labels

The assembler goes through the text twice: the constructor of the parser counts four bytes
for each line without a colon and notes where the labels are, and `emitBinary` writes four
bytes for each line without a colon.  The two agree on every line that has a token
(`getLabels_split`, `emitBinary_eq_ok_iff`).  A blank line has none, and `emitBinary` asks
for the first.
-/

namespace RipSim

/-! ## Kinds of lines -/

/-- A blank line. -/
def isBlank (line : Text) : Bool := line.all isspace

/-- A line without a label. -/
def noColon (line : Text) : Bool := !line.contains ':'

/-- A line that is neither blank nor has a label. -/
def isInstLine (line : Text) : Bool := noColon line && !isBlank line

theorem noColon_iff {line : Text} : noColon line = true ↔ ':' ∉ line := by
  simp [noColon]

/-- The operands of the line are in the ranges of their fields. -/
def AsmInst.Writable (e : AsmInst) : Prop :=
  e.InRange ∨ ∃ op rd rs1 n, e = .imm op rd rs1 n ∧ (op.isCSR = true ∨ op ∈ [.ecall, .ebreak, .uret,
    .sret, .mret]) ∧ 0 ≤ n.val ∧ n.val ≤ 4095

/-- A well-formed instruction line: a spelling of a mnemonic and its operands. -/
def IsInstruction (line : Text) : Prop := ∃ e : AsmInst, e.Writable ∧ Spells e.tokens line

theorem AsmInst.assemble_writable {e : AsmInst} (h : e.Writable) :
    ∃ I, assemble e.tokens = .ok I := by
  rcases h with h | ⟨op, rd, rs1, n, rfl, -, hlo, hhi⟩
  · exact ⟨_, assemble_tokens h⟩
  · simp only [tokens, assemble_I, asmI, rd.found, rs1.found,
      stoi_decimal n.spelled (by omega : -2 ^ 31 ≤ n.val) (by omega)]
    exact ⟨_, rfl⟩

theorem IsInstruction.assembled {line : Text} (h : IsInstruction line) :
    ∃ I, assemble (parseLineInner line) = .ok I := by
  obtain ⟨e, he, hs⟩ := h
  rw [parseLineInner_spells hs e.isToken_tokens]
  exact AsmInst.assemble_writable he

/-- A blank line has no token. -/
theorem parseLineInner_blank {line : Text} (h : isBlank line = true) :
    parseLineInner line = [] := by
  refine parseLineInner_spells (.nil fun c hc => ?_) (List.forall_mem_nil _)
  rw [isSep, List.all_eq_true.mp h c hc, Bool.or_true]

/-- A blank line has no colon. -/
theorem no_colon_of_blank {line : Text} (h : isBlank line = true) : ':' ∉ line := fun hc =>
  absurd (List.all_eq_true.mp h _ hc) (by decide)

/-! ## The second pass -/

/-- What `emitBinary` writes, when it returns: for each line without a colon the word of the
object of its tokens. -/
theorem emitBinary_eq_ok_iff {lines : List Text} {os : List Byte} :
    emitBinary lines = .ok os ↔ ∃ Is,
      List.Forall₂ (fun line I => assemble (parseLineInner line) = .ok I)
        (lines.filter noColon) Is ∧
      os = Is.flatMap fun I => bytesOf I.getVal := by
  induction lines generalizing os with
  | nil =>
    constructor
    · rintro ⟨⟩
      exact ⟨[], .nil, rfl⟩
    · rintro ⟨Is, hIs, rfl⟩
      cases hIs
      rfl
  | cons line lines ih =>
    by_cases hc : ':' ∈ line
    · rw [emitBinary, if_pos hc, ih, List.filter_cons_of_neg (mt noColon_iff.mp (not_not.mpr hc))]
    · rw [emitBinary, if_neg hc, List.filter_cons_of_pos (noColon_iff.mpr hc)]
      constructor
      · intro h
        cases hI : assemble (parseLineInner line) with
        | error f =>
          rw [hI] at h
          cases h
        | ok I =>
          cases hos : emitBinary lines with
          | error f =>
            rw [hI, hos] at h
            cases h
          | ok os' =>
            obtain ⟨Is, hIs, rfl⟩ := ih.mp hos
            rw [hI, hos] at h
            exact ⟨I :: Is, .cons hI hIs, (Except.ok.inj h).symm⟩
      · rintro ⟨_, hIs, rfl⟩
        cases hIs with
        | cons hI hIs =>
          rw [hI, ih.mpr ⟨_, hIs, rfl⟩]
          rfl

/-- Four bytes a line. -/
theorem length_of_emitBinary {lines : List Text} {os : List Byte} (h : emitBinary lines = .ok os) :
    os.length = 4 * lines.countP noColon := by
  obtain ⟨Is, hIs, rfl⟩ := emitBinary_eq_ok_iff.mp h
  rw [List.countP_eq_length_filter, hIs.length_eq, List.length_flatMap]
  simp [bytesOf, Nat.mul_comm]

/-- The output for a text is put together from those for its parts. -/
theorem emitBinary_append {pre post : List Text} {os : List Byte}
    (h : emitBinary (pre ++ post) = .ok os) :
    ∃ os₁ os₂, emitBinary pre = .ok os₁ ∧ emitBinary post = .ok os₂ ∧ os = os₁ ++ os₂ := by
  obtain ⟨Is, hIs, rfl⟩ := emitBinary_eq_ok_iff.mp h
  rw [List.filter_append] at hIs
  have htake := (List.forall₂_take_append _ _ _ hIs.flip).flip
  have hdrop := (List.forall₂_drop_append _ _ _ hIs.flip).flip
  refine ⟨_, _, emitBinary_eq_ok_iff.mpr ⟨_, htake, rfl⟩, emitBinary_eq_ok_iff.mpr ⟨_, hdrop, rfl⟩,
    ?_⟩
  rw [← List.flatMap_append, List.take_append_drop]

/-- The second pass gets through a text exactly when every line without a colon makes an
instruction. -/
theorem emitBinary_ok_iff {lines : List Text} :
    (∃ os, emitBinary lines = .ok os) ↔
      ∀ line ∈ lines, ':' ∉ line → ∃ I, assemble (parseLineInner line) = .ok I := by
  have hfilter : (∀ line ∈ lines, ':' ∉ line → ∃ I, assemble (parseLineInner line) = .ok I) ↔
      ∀ line ∈ lines.filter noColon, ∃ I, assemble (parseLineInner line) = .ok I := by
    simp only [List.mem_filter, noColon_iff, and_imp]
  rw [hfilter]
  generalize hl : lines.filter noColon = insts
  constructor
  · rintro ⟨os, hos⟩
    obtain ⟨Is, hIs, -⟩ := emitBinary_eq_ok_iff.mp hos
    rw [hl] at hIs
    clear hl hfilter hos
    induction hIs with
    | nil => exact List.forall_mem_nil _
    | cons hI _ ih => exact List.forall_mem_cons.mpr ⟨⟨_, hI⟩, ih⟩
  · intro h
    have hIs : ∃ Is,
        List.Forall₂ (fun line I => assemble (parseLineInner line) = .ok I) insts Is := by
      clear hl hfilter
      induction insts with
      | nil => exact ⟨[], .nil⟩
      | cons line insts ih =>
        obtain ⟨⟨I, hI⟩, h⟩ := List.forall_mem_cons.mp h
        obtain ⟨Is, hIs⟩ := ih h
        exact ⟨I :: Is, .cons hI hIs⟩
    obtain ⟨Is, hIs⟩ := hIs
    exact ⟨_, emitBinary_eq_ok_iff.mpr ⟨Is, hl ▸ hIs, rfl⟩⟩

/-! ## The first pass -/

theorem insert_of_some {L : LabelMap} {lab lab' : Text} {PC a : BitVec 32} (h : L lab = some a) :
    (L.insert lab' PC) lab = some a := by
  cases hlab : L lab' with
  | some b => simpa only [LabelMap.insert, hlab] using h
  | none =>
    have hne : lab ≠ lab' := by
      rintro rfl
      exact nomatch h.symm.trans hlab
    simpa only [LabelMap.insert, hlab, Function.update_of_ne hne] using h

theorem insert_of_none {L : LabelMap} {lab : Text} {PC : BitVec 32} (h : L lab = none) :
    (L.insert lab PC) lab = some PC := by
  simp only [LabelMap.insert, h, Function.update_self]

theorem insert_of_ne {L : LabelMap} {lab lab' : Text} {PC : BitVec 32} (h : lab ≠ lab') :
    (L.insert lab' PC) lab = L lab := by
  cases hlab : L lab' with
  | some b => simp only [LabelMap.insert, hlab]
  | none => simp only [LabelMap.insert, hlab, Function.update_of_ne h]

/-- A label that is there keeps its address. -/
theorem initLabels_of_some {lab : Text} {a : BitVec 32} (lines : List Text) :
    ∀ {PC : BitVec 32} {L : LabelMap}, L lab = some a → initLabels lines PC L lab = some a := by
  induction lines with
  | nil => exact fun h => h
  | cons line lines ih =>
    intro PC L h
    rw [initLabels]
    split
    · exact ih (insert_of_some h)
    · exact ih h

/-- Lines before the first definition of a label count for its address only. -/
theorem initLabels_append {lab : Text} {lines : List Text} (pre : List Text) :
    ∀ {PC : BitVec 32} {L : LabelMap}, (∀ line ∈ pre, ':' ∈ line → labelOf line ≠ lab) →
    L lab = none → ∃ L', L' lab = none ∧ initLabels (pre ++ lines) PC L =
      initLabels lines (PC + BitVec.ofNat 32 (4 * pre.countP noColon)) L' := by
  induction pre with
  | nil => exact fun _ hL => ⟨_, hL, by simp⟩
  | cons line pre ih =>
    intro PC L hpre hL
    have hpre' := fun l hl => hpre l (List.mem_cons_of_mem line hl)
    by_cases hc : ':' ∈ line
    · have hne : lab ≠ labelOf line := (hpre line List.mem_cons_self hc).symm
      rw [List.cons_append, initLabels, if_pos hc,
        List.countP_cons_of_neg (mt noColon_iff.mp (not_not.mpr hc))]
      exact ih hpre' ((insert_of_ne hne).trans hL)
    · obtain ⟨L', hL', heq⟩ := @ih (PC + 4) L hpre' hL
      refine ⟨L', hL', ?_⟩
      rw [List.cons_append, initLabels, if_neg hc, heq,
        List.countP_cons_of_pos (noColon_iff.mpr hc),
        Nat.mul_add, Nat.add_comm, BitVec.ofNat_add, ← add_assoc]
      rfl

/-- The address of a label is four bytes for each line without a colon before its first
definition. -/
theorem getLabels_split {pre post : List Text} {line : Text} (hc : ':' ∈ line)
    (hfirst : ∀ l ∈ pre, ':' ∈ l → labelOf l ≠ labelOf line) :
    getLabels (pre ++ line :: post) (labelOf line) =
      some (BitVec.ofNat 32 (4 * pre.countP noColon)) := by
  obtain ⟨L, hL, heq⟩ := @initLabels_append _ (line :: post) pre 0 (fun _ => none) hfirst rfl
  rw [getLabels, heq, initLabels, if_pos hc, initLabels_of_some post (insert_of_none hL),
    zero_add]

/-! ## Both passes -/

/-- `line` is the first to define its label, and the lines before it are `pre`. -/
structure FirstDefinition (lines pre : List Text) (line : Text) (post : List Text) : Prop where
  split : lines = pre ++ line :: post
  colon : ':' ∈ line
  first : ∀ l ∈ pre, ':' ∈ l → labelOf l ≠ labelOf line

/-- The text is laid out: four bytes for each instruction line, in order, and each label at the
place in the output where the lines after its definition start. -/
structure LaidOut (lines : List Text) (os : List Byte) : Prop where
  emitted : emitBinary lines = .ok os
  insts : ∃ Is,
    List.Forall₂ (fun line I => assemble (parseLineInner line) = .ok I)
      (lines.filter isInstLine) Is ∧
    os = Is.flatMap fun I => bytesOf I.getVal
  labels : ∀ pre line post, FirstDefinition lines pre line post →
    ∃ os₁ os₂ off, emitBinary pre = .ok os₁ ∧ emitBinary post = .ok os₂ ∧ os = os₁ ++ os₂ ∧
      getLabels lines (labelOf line) = some off ∧ off.toNat = os₁.length

/-- No line is blank, and the addresses of the labels fit 32 bits. -/
structure Assemblable (lines : List Text) : Prop where
  no_blank : ∀ line ∈ lines, isBlank line = false
  fits : ∀ pre line post, FirstDefinition lines pre line post → 4 * pre.countP isInstLine < 2 ^ 32

section

variable {lines : List Text}

theorem isInstLine_eq_noColon (h : ∀ line ∈ lines, isBlank line = false) :
    ∀ line ∈ lines, isInstLine line = noColon line := by
  intro line hline
  rw [isInstLine, h line hline, Bool.not_false, Bool.and_true]

/-- `emitBinary` does not get past a blank line. -/
theorem no_blank_of_emitted {os : List Byte} (h : emitBinary lines = .ok os) :
    ∀ line ∈ lines, isBlank line = false := by
  intro line hline
  by_contra hb
  have hblank : isBlank line = true := by simpa using hb
  obtain ⟨I, hI⟩ := emitBinary_ok_iff.mp ⟨os, h⟩ line hline (no_colon_of_blank hblank)
  rw [parseLineInner_blank hblank] at hI
  exact nomatch hI

/-- **Layout.**  A text of label lines, blank lines and well-formed instruction lines is laid out
exactly when no line is blank and the addresses fit. -/
theorem layout_iff (lines : List Text)
    (h : ∀ line ∈ lines, ':' ∈ line ∨ isBlank line = true ∨ IsInstruction line) :
    (∃ os, LaidOut lines os) ↔ Assemblable lines := by
  constructor
  · rintro ⟨os, hL⟩
    have hblank := no_blank_of_emitted hL.emitted
    refine ⟨hblank, fun pre line post hdef => ?_⟩
    obtain ⟨os₁, os₂, off, hpre, -, -, -, hoff⟩ := hL.labels pre line post hdef
    have hsub : ∀ l ∈ pre, l ∈ lines := fun l hl => by
      rw [hdef.split]
      exact List.mem_append_left _ hl
    have hcount : pre.countP isInstLine = pre.countP noColon :=
      List.countP_congr fun l hl => by rw [isInstLine_eq_noColon hblank l (hsub l hl)]
    rw [hcount, ← length_of_emitBinary hpre, ← hoff]
    exact off.isLt
  · intro hA
    have hfilter := List.filter_congr (isInstLine_eq_noColon hA.no_blank)
    obtain ⟨os, hos⟩ := emitBinary_ok_iff.mpr fun line hline hc => by
      rcases h line hline with hcolon | hb | hinst
      · exact absurd hcolon hc
      · exact absurd (hA.no_blank line hline) (by rw [hb]; decide)
      · exact hinst.assembled
    refine ⟨os, hos, by rw [hfilter]; exact emitBinary_eq_ok_iff.mp hos,
      fun pre line post hdef => ?_⟩
    have hfits := hA.fits pre line post hdef
    obtain ⟨rfl, hcolon, hfirst⟩ := hdef
    obtain ⟨os₁, os₂, hpre, hpost, happ⟩ := emitBinary_append hos
    rw [emitBinary, if_pos hcolon] at hpost
    have hcount : pre.countP isInstLine = pre.countP noColon :=
      List.countP_congr fun l hl => by
        rw [isInstLine_eq_noColon hA.no_blank l (List.mem_append_left _ hl)]
    refine ⟨os₁, os₂, _, hpre, hpost, happ, getLabels_split hcolon hfirst, ?_⟩
    rw [BitVec.toNat_ofNat, length_of_emitBinary hpre, ← hcount, Nat.mod_eq_of_lt hfits]

/-- `addi x1, x1, -1` -/
theorem isInstruction_addi : IsInstruction "addi x1, x1, -1".toList := by
  refine ⟨.imm .addi ⟨"x1".toList, 1, rfl⟩ ⟨"x1".toList, 1, rfl⟩ ⟨"-1".toList, -1,
    @IsDecimal.neg ['1'] (List.cons_ne_nil _ _) (List.all_eq_true.mp rfl)⟩,
    .inl ⟨by decide, by decide⟩, ?_⟩
  have hend : Spells [] [] := .nil (List.forall_mem_nil _)
  have hn : Spells ["-1".toList] ([',', ' '] ++ ("-1".toList ++ [])) :=
    .cons (List.all_eq_true.mp rfl) (by rintro _ ⟨⟩) hend
  have hrs1 : Spells ["x1".toList, "-1".toList] ([',', ' '] ++ ("x1".toList ++ _)) :=
    .cons (List.all_eq_true.mp rfl) (by rintro _ ⟨⟩; rfl) hn
  have hrd : Spells ["x1".toList, "x1".toList, "-1".toList] ([' '] ++ ("x1".toList ++ _)) :=
    .cons (List.all_eq_true.mp rfl) (by rintro _ ⟨⟩; rfl) hrs1
  exact @Spells.cons [] "addi".toList _ _ (List.forall_mem_nil _)
    (by rintro _ ⟨⟩; rfl) hrd

/-- The text of a loop. -/
theorem layout_iff_loop :
    (∀ line ∈ ["L:".toList, "addi x1, x1, -1".toList], ':' ∈ line ∨ isBlank line = true ∨
      IsInstruction line) ∧
    ((∃ os, LaidOut ["L:".toList, "addi x1, x1, -1".toList] os) ↔
      Assemblable ["L:".toList, "addi x1, x1, -1".toList]) := by
  have h : ∀ line ∈ ["L:".toList, "addi x1, x1, -1".toList], ':' ∈ line ∨ isBlank line = true ∨
      IsInstruction line := by
    refine List.forall_mem_cons.mpr ⟨.inl (by decide), List.forall_mem_cons.mpr
      ⟨.inr (.inr isInstruction_addi), List.forall_mem_nil _⟩⟩
  exact ⟨h, layout_iff _ h⟩

/-- A blank line after an instruction. -/
theorem blank_line_faults :
    (∀ line ∈ ["addi x1, x1, -1".toList, "".toList], ':' ∈ line ∨ isBlank line = true ∨
      IsInstruction line) ∧
    emitBinary ["addi x1, x1, -1".toList, "".toList] = .error .noToken ∧
      ¬∃ os, LaidOut ["addi x1, x1, -1".toList, "".toList] os := by
  have hfault : emitBinary ["addi x1, x1, -1".toList, "".toList] = .error .noToken := by
    decide +kernel
  refine ⟨List.forall_mem_cons.mpr ⟨.inr (.inr isInstruction_addi), List.forall_mem_cons.mpr
    ⟨.inr (.inl rfl), List.forall_mem_nil _⟩⟩, hfault, ?_⟩
  rintro ⟨os, hL⟩
  exact nomatch hfault.symm.trans hL.emitted

end

end RipSim
