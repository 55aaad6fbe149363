import RipSim.Model.Assembler

/-!
# The lines the assembler reads

A line is written with its tokens in order and any mixture of commas and blanks around
them.  A number is written with decimal digits and perhaps a minus sign, a register by any
key of `GPRegMap`.  The parser finds the tokens of every such line, and its readers the
numbers and registers the tokens stand for.
-/

namespace RipSim

/-- What stands between tokens. -/
def isSep (c : Char) : Bool := c == ',' || isspace c

/-- What a token may be made of: neither separators nor the colon of a label. -/
def isPlainChar (c : Char) : Bool := !isSep c && !(c == ':')

/-- A text that is a token. -/
structure IsToken (t : Text) : Prop where
  ne_nil : t ≠ []
  plain : ∀ c ∈ t, isPlainChar c = true

theorem IsToken.of_all {t : Text} (h : (!t.isEmpty && t.all isPlainChar) = true) : IsToken t := by
  rw [Bool.and_eq_true, Bool.not_eq_true', List.isEmpty_eq_false_iff, List.all_eq_true] at h
  exact ⟨h.1, h.2⟩

/-- The line spells these tokens: separators, a token, and either the end or a separator and the
rest of the line. -/
inductive Spells : List Text → Text → Prop where
  | nil {s : Text} (hs : ∀ c ∈ s, isSep c = true) : Spells [] s
  | cons {s t line : Text} {toks : List Text} (hs : ∀ c ∈ s, isSep c = true)
      (hnext : ∀ c ∈ line.head?, isSep c = true) (hline : Spells toks line) :
      Spells (t :: toks) (s ++ (t ++ line))

/-- **The parser finds the tokens.** -/
theorem parseLineInner_spells {toks : List Text} {line : Text} (h : Spells toks line)
    (htoks : ∀ t ∈ toks, IsToken t) : parseLineInner line = toks := by
  have hwords : parseLineInner line = Words.words isSep line := Words.flatMap_words line
  rw [hwords]
  clear hwords
  induction h with
  | @nil s hs => rw [← List.append_nil s, Words.words_append_of_sep hs, Words.words_nil]
  | @cons s t line toks hs hnext _ ih =>
    have ht := htoks t List.mem_cons_self
    have hsep : ∀ c ∈ t, isSep c = false := by
      intro c hc
      have hp := ht.plain c hc
      rw [isPlainChar, Bool.and_eq_true, Bool.not_eq_true'] at hp
      exact hp.1
    rw [Words.words_append_of_sep hs, Words.words_append hsep ht.ne_nil hnext,
      ih fun t' ht' => htoks t' (List.mem_cons_of_mem t ht')]

/-- Such a line has no label. -/
theorem no_label {toks : List Text} {line : Text} (h : Spells toks line)
    (htoks : ∀ t ∈ toks, IsToken t) : ':' ∉ line := by
  have hsep : ∀ {s : Text}, (∀ c ∈ s, isSep c = true) → ':' ∉ s := fun hs hc =>
    absurd (hs _ hc) (by decide)
  induction h with
  | nil hs => exact hsep hs
  | @cons s t line toks hs hnext _ ih =>
    have ht := htoks t List.mem_cons_self
    have htc : ':' ∉ t := fun hc => absurd (ht.plain _ hc) (by decide)
    simp only [List.mem_append, not_or]
    exact ⟨hsep hs, htc, ih fun t' ht' => htoks t' (List.mem_cons_of_mem t ht')⟩

/-! ## Numbers -/

/-- A number as it is written in decimal. -/
inductive IsDecimal : Text → Int → Prop where
  | pos {ds : Text} (hne : ds ≠ []) (hds : ∀ c ∈ ds, isdigit c = true) :
      IsDecimal ds (digitsVal ds)
  | neg {ds : Text} (hne : ds ≠ []) (hds : ∀ c ∈ ds, isdigit c = true) :
      IsDecimal ('-' :: ds) (-(digitsVal ds))

theorem isspace_of_isdigit {c : Char} (h : isdigit c = true) : isspace c = false := by
  simp only [isdigit, Bool.and_eq_true, decide_eq_true_eq] at h
  have hblank : c ≠ ' ' := by
    rintro rfl
    exact absurd h.1 (by decide)
  have hhigh : ¬ c.toNat ≤ 13 := by omega
  simp [isspace, hblank, hhigh]

/-- A digit is not a blank, a comma or a colon. -/
theorem isPlainChar_of_isdigit {c : Char} (h : isdigit c = true) : isPlainChar c = true := by
  have hne : ∀ c' : Char, isdigit c' = false → c ≠ c' := by
    rintro c' hc' rfl
    exact absurd h (by rw [hc']; decide)
  have hspace := isspace_of_isdigit h
  have hcomma := hne ',' (by decide)
  have hcolon := hne ':' (by decide)
  simp [isPlainChar, isSep, hspace, hcomma, hcolon]

theorem takeWhile_eq_self {α : Type} {p : α → Bool} {l : List α} (h : ∀ x ∈ l, p x = true) :
    l.takeWhile p = l := by
  induction l with
  | nil => rfl
  | cons x l ih =>
    rw [List.takeWhile_cons_of_pos (h x List.mem_cons_self),
      ih fun y hy => h y (List.mem_cons_of_mem x hy)]

/-- `stoi` reads a decimal number that an `int` can hold. -/
theorem stoi_decimal {str : Text} {n : Int} (h : IsDecimal str n) (hlo : -2 ^ 31 ≤ n)
    (hhi : n < 2 ^ 31) : stoi str = .ok n := by
  have hrange : ¬ (n < -2 ^ 31 ∨ 2 ^ 31 ≤ n) := by omega
  cases h with
  | @pos ds hne hds =>
    obtain ⟨c, ds', rfl⟩ := List.exists_cons_of_ne_nil hne
    have hc := hds c List.mem_cons_self
    have hminus : c ≠ '-' := by rintro rfl; exact absurd hc (by decide)
    have hplus : c ≠ '+' := by rintro rfl; exact absurd hc (by decide)
    unfold stoi
    rw [List.dropWhile_cons_of_neg (by simp [isspace_of_isdigit hc])]
    dsimp only
    split
    · rename_i heq
      exact absurd (List.cons.inj heq).1 hminus
    · rename_i heq
      exact absurd (List.cons.inj heq).1 hplus
    · rw [takeWhile_eq_self hds, if_neg hne]
      exact if_neg hrange
  | @neg ds hne hds =>
    unfold stoi
    rw [List.dropWhile_cons_of_neg (by decide)]
    show (if ds.takeWhile isdigit = [] then _
      else if -(digitsVal (ds.takeWhile isdigit) : Int) < -2 ^ 31 ∨
          2 ^ 31 ≤ -(digitsVal (ds.takeWhile isdigit) : Int) then _
        else Except.ok (-(digitsVal (ds.takeWhile isdigit) : Int))) = _
    rw [takeWhile_eq_self hds, if_neg hne]
    exact if_neg hrange

theorem IsDecimal.isToken {str : Text} {n : Int} (h : IsDecimal str n) : IsToken str := by
  cases h with
  | pos hne hds => exact ⟨hne, fun c hc => isPlainChar_of_isdigit (hds c hc)⟩
  | neg hne hds =>
    refine ⟨List.cons_ne_nil _ _, fun c hc => ?_⟩
    rcases List.mem_cons.mp hc with rfl | hc
    · decide
    · exact isPlainChar_of_isdigit (hds c hc)

/-- An offset in front of a parenthesis: what is inside it is not read. -/
theorem parseOffsetReg_decimal {str : Text} {n : Int} (h : IsDecimal str n) (hlo : -2 ^ 31 ≤ n)
    (hhi : n < 2 ^ 31) (rest : Text) : parseOffsetReg (str ++ '(' :: rest) = .ok (n, []) := by
  have hnum : ∀ c ∈ str, (isdigit c || c == '-') = true := by
    cases h with
    | pos hne hds => exact fun c hc => by rw [hds c hc]; rfl
    | neg hne hds =>
      intro c hc
      rcases List.mem_cons.mp hc with rfl | hc
      · decide
      · rw [hds c hc]; rfl
  have hstop : (isdigit '(' || '(' == '-') = false := by decide
  unfold parseOffsetReg
  rw [List.takeWhile_append_of_pos hnum, List.dropWhile_append_of_pos hnum,
    List.takeWhile_cons_of_neg (by rw [hstop]; decide),
    List.dropWhile_cons_of_neg (by rw [hstop]; decide), List.append_nil]
  dsimp only
  rw [stoi_decimal h hlo hhi]
  rfl

/-! ## Registers -/

/-- A name of a register. -/
structure RegName where
  name : Text
  num : BitVec 5
  found : findReg name = .ok num

/-- A name is a key of the table. -/
theorem findReg_ok {name : Text} {num : BitVec 5} (h : findReg name = .ok num) :
    ∃ RI ∈ GPRegMap, RI.1.toList = name ∧ RI.2 = num := by
  unfold findReg at h
  split at h
  · rename_i RI hfind
    exact ⟨RI, List.mem_of_find?_eq_some hfind, by simpa using List.find?_some hfind,
      Except.ok.inj h⟩
  · nomatch h

theorem RegName.isToken (r : RegName) : IsToken r.name := by
  obtain ⟨RI, hmem, hname, -⟩ := findReg_ok r.found
  have hkeys :
      (GPRegMap.all fun RI => !RI.1.toList.isEmpty && RI.1.toList.all isPlainChar) = true :=
    rfl
  exact hname ▸ .of_all (List.all_eq_true.mp hkeys RI hmem)

/-- An offset and a base register. -/
theorem isToken_offset {str : Text} {n : Int} (h : IsDecimal str n) (r : RegName) :
    IsToken (str ++ '(' :: (r.name ++ [')'])) := by
  refine ⟨by simp, fun c hc => ?_⟩
  simp only [List.mem_append, List.mem_cons, List.not_mem_nil, or_false] at hc
  rcases hc with hc | rfl | hc | rfl
  · exact h.isToken.plain c hc
  · decide
  · exact r.isToken.plain c hc
  · decide

/-! ## Mnemonics -/

section Mnemonics

variable (IT : ITypeKinds) (RT : RTypeKinds) (UT : UTypeKinds) (JT : JTypeKinds) (ST : STypeKinds)
  (BT : BTypeKinds) (Toks : List Text)

theorem assemble_I : assemble (IT.mnemonic.toList :: Toks) =
    asmI IT (IT.mnemonic.toList :: Toks) := by
  cases IT <;> rfl

theorem assemble_R : assemble (RT.mnemonic.toList :: Toks) =
    asmR RT (RT.mnemonic.toList :: Toks) := by
  cases RT <;> rfl

theorem assemble_U : assemble (UT.mnemonic.toList :: Toks) =
    asmU UT (UT.mnemonic.toList :: Toks) := by
  cases UT <;> rfl

theorem assemble_J : assemble (JT.mnemonic.toList :: Toks) =
    asmJ JT (JT.mnemonic.toList :: Toks) := by
  cases JT
  rfl

theorem assemble_S : assemble (ST.mnemonic.toList :: Toks) =
    asmS ST (ST.mnemonic.toList :: Toks) := by
  cases ST <;> rfl

theorem assemble_B : assemble (BT.mnemonic.toList :: Toks) =
    asmB BT (BT.mnemonic.toList :: Toks) := by
  cases BT <;> rfl

theorem isToken_I : IsToken IT.mnemonic.toList := .of_all (by cases IT <;> rfl)

theorem isToken_R : IsToken RT.mnemonic.toList := .of_all (by cases RT <;> rfl)

theorem isToken_U : IsToken UT.mnemonic.toList := .of_all (by cases UT <;> rfl)

theorem isToken_J : IsToken JT.mnemonic.toList := .of_all (by cases JT; rfl)

theorem isToken_S : IsToken ST.mnemonic.toList := .of_all (by cases ST <;> rfl)

theorem isToken_B : IsToken BT.mnemonic.toList := .of_all (by cases BT <;> rfl)

end Mnemonics

end RipSim
