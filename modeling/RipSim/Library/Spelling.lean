import RipSim.Library.Dialogue
import Mathlib.Data.List.TakeWhile

/-!
# Words on a stream

A reader extracts words, which white space separates, from a stream that is still being written:
it skips the space in front, and waits until the word is over.  So a word can be extracted only
when a space has arrived behind it, and an answer that is written without one has to wait for the
next word (`Spelling.wire`).
-/

namespace Dialogue

/-- White space. -/
def isSpace (c : Char) : Bool := c == ' ' || (9 ≤ c.toNat && c.toNat ≤ 13)

/-- A word: not empty, and without space. -/
def IsWord (w : List Char) : Prop := w ≠ [] ∧ (w.all fun c => !isSpace c) = true

instance (w : List Char) : Decidable (IsWord w) := instDecidableAnd

/-- The first word of a stream, if its end has arrived, and what follows. -/
def extract (cs : List Char) : Option (List Char × List Char) :=
  let cs := cs.dropWhile isSpace
  match cs.dropWhile fun c => !isSpace c with
  | [] => none
  | rest => some (cs.takeWhile fun c => !isSpace c, rest)

section Extract

variable {ws w rest : List Char} {c : Char}

theorem IsWord.not_space (hw : IsWord w) (hc : c ∈ w) : (!isSpace c) = true :=
  List.all_eq_true.mp hw.2 c hc

theorem dropWhile_word (hw : IsWord w) (cs : List Char) :
    (w ++ cs).dropWhile isSpace = w ++ cs := by
  obtain ⟨x, xs, rfl⟩ := List.exists_cons_of_ne_nil hw.1
  have hx := hw.not_space List.mem_cons_self
  rw [List.cons_append, List.dropWhile_cons, if_neg (by simpa using hx)]

/-- Space alone holds no word. -/
theorem extract_spaces (hws : ∀ c ∈ ws, isSpace c = true) : extract ws = none := by
  rw [extract, List.dropWhile_eq_nil_iff.mpr hws]
  rfl

/-- A word whose end has not arrived. -/
theorem extract_open (hws : ∀ c ∈ ws, isSpace c = true) (hw : IsWord w) :
    extract (ws ++ w) = none := by
  have h := dropWhile_word hw []
  rw [List.append_nil] at h
  rw [extract, List.dropWhile_append_of_pos hws, h]
  have hall : w.dropWhile (fun c => !isSpace c) = [] := by
    rw [List.dropWhile_eq_nil_iff]
    exact fun x hx => hw.not_space hx
  rw [hall]

/-- A word with a space behind it. -/
theorem extract_word (hws : ∀ c ∈ ws, isSpace c = true) (hw : IsWord w) (hc : isSpace c = true) :
    extract (ws ++ (w ++ c :: rest)) = some (w, c :: rest) := by
  have hall : ∀ x ∈ w, (!isSpace x) = true := fun x hx => hw.not_space hx
  have hdrop : (w ++ c :: rest).dropWhile (fun c => !isSpace c) = c :: rest := by
    rw [List.dropWhile_append_of_pos hall, List.dropWhile_cons, if_neg (by simp [hc])]
  have htake : (w ++ c :: rest).takeWhile (fun c => !isSpace c) = w := by
    rw [List.takeWhile_append_of_pos hall, List.takeWhile_cons, if_neg (by simp [hc]),
      List.append_nil]
  rw [extract, List.dropWhile_append_of_pos hws, dropWhile_word hw, hdrop, htake]

end Extract

/-! ## Tokens as words -/

/-- The words that a client writes, and what a server takes a word for. -/
structure Spelling (A : Type*) where
  nudge : List Char
  answer : A → List Char
  filler : List Char
  classify : List Char → Reading A
  isWord_nudge : IsWord nudge
  isWord_answer : ∀ a, IsWord (answer a)
  isWord_filler : IsWord filler
  classify_nudge : classify nudge = .other
  classify_answer : ∀ a, classify (answer a) = .answer a
  classify_filler : classify filler = .other

namespace Spelling

variable {A : Type*} (P : Spelling A)

/-- What the client writes for a token: there is space behind a nudge and around a filler. -/
def text : Token A → List Char
  | .nudge => P.nudge ++ ['\n']
  | .answer a => P.answer a
  | .filler => ' ' :: (P.filler ++ [' '])

/-- The characters in the stream: space that is left over, and the tokens. -/
def Holds (cs : List Char) (ts : List (Token A)) : Prop :=
  ∃ ws, (∀ c ∈ ws, isSpace c = true) ∧ cs = ws ++ ts.flatMap P.text

/-- A word is read. -/
def read (cs : List Char) : Option (Reading A × List Char) :=
  (extract cs).map fun x => (P.classify x.1, x.2)

theorem read_word {ws w : List Char} (hws : ∀ c ∈ ws, isSpace c = true) (hw : IsWord w) (c : Char)
    (hc : isSpace c = true) (rest : List Char) :
    P.read (ws ++ (w ++ c :: rest)) = some (P.classify w, c :: rest) := by
  rw [read, extract_word hws hw hc]
  rfl

/-- The stream as a wire. -/
def wire : Wire (List Char) A where
  empty := []
  write cs t := cs ++ P.text t
  read := P.read
  Holds := P.Holds
  holds_empty := ⟨[], by simp, rfl⟩
  holds_write t h := by
    obtain ⟨ws, hws, rfl⟩ := h
    exact ⟨ws, hws, by rw [List.append_assoc, List.flatMap_append, List.flatMap_singleton]⟩
  read_nil h := by
    obtain ⟨ws, hws, rfl⟩ := h
    rw [List.flatMap_nil, List.append_nil, read, extract_spaces hws]
    rfl
  read_open h := by
    obtain ⟨ws, hws, rfl⟩ := h
    rw [List.flatMap_singleton, read]
    exact congrArg _ (extract_open hws (P.isWord_answer _))
  read_idle {c t ts} ht h := by
    obtain ⟨ws, hws, rfl⟩ := h
    cases t with
    | nudge =>
      refine ⟨'\n' :: ts.flatMap P.text, ?_, ['\n'], List.forall_mem_singleton.mpr rfl, rfl⟩
      have hr := P.read_word hws P.isWord_nudge '\n' (by decide) (ts.flatMap P.text)
      rw [P.classify_nudge] at hr
      rw [← hr, List.flatMap_cons, text, List.append_assoc]
      rfl
    | answer a => exact ht.elim
    | filler =>
      refine ⟨' ' :: ts.flatMap P.text, ?_, [' '], List.forall_mem_singleton.mpr rfl, rfl⟩
      have hws' : ∀ c ∈ ws ++ [' '], isSpace c = true := by
        intro c hc
        rcases List.mem_append.mp hc with hc | hc
        · exact hws c hc
        · exact List.mem_singleton.mp hc ▸ rfl
      have hr := P.read_word hws' P.isWord_filler ' ' (by decide) (ts.flatMap P.text)
      rw [P.classify_filler] at hr
      rw [← hr, List.flatMap_cons, text, List.append_assoc, List.cons_append, List.append_assoc]
      rfl
  read_answer {c a ts} h := by
    obtain ⟨ws, hws, rfl⟩ := h
    refine ⟨(Token.filler :: ts).flatMap P.text, ?_, [], by simp, rfl⟩
    have hr := P.read_word hws (P.isWord_answer a) ' ' (by decide)
      (P.filler ++ [' '] ++ ts.flatMap P.text)
    rw [P.classify_answer] at hr
    rw [List.flatMap_cons, List.flatMap_cons, text, text, List.cons_append]
    exact hr

end Spelling

end Dialogue
