import Mathlib.Data.List.Basic

/-!
# The words of a text

A text is cut into its words at every separator, and empty pieces are dropped.  Cutting at
one kind of separator first and at another kind in the pieces finds the same words as
cutting at both kinds at once.
-/

namespace Words

variable {α : Type} (p q : α → Bool)

/-- The pieces between separators that are not empty. -/
def words (s : List α) : List (List α) := (s.splitOnP p).filter (!·.isEmpty)

variable {p q}

theorem words_nil : words p [] = [] := by
  simp [words]

theorem words_cons_of_sep {x : α} (hx : p x = true) (s : List α) :
    words p (x :: s) = words p s := by
  simp [words, List.splitOnP_cons_eq_if_modifyHead, hx]

/-- Separators in front of a text do not matter. -/
theorem words_append_of_sep {l : List α} (hl : ∀ x ∈ l, p x = true) (s : List α) :
    words p (l ++ s) = words p s := by
  induction l with
  | nil => rfl
  | cons x l ih =>
    rw [List.cons_append, words_cons_of_sep (hl x List.mem_cons_self),
      ih fun y hy => hl y (List.mem_cons_of_mem x hy)]

/-- A word in front, up to the end or the next separator. -/
theorem words_append {t s : List α} (ht : ∀ x ∈ t, p x = false) (hne : t ≠ [])
    (hs : ∀ x ∈ s.head?, p x = true) : words p (t ++ s) = t :: words p s := by
  have hfilter : ∀ l : List (List α),
      (t :: l).filter (!·.isEmpty) = t :: l.filter (!·.isEmpty) := fun l => by
    simp [hne]
  cases s with
  | nil => rw [List.append_nil, words_nil, words, List.splitOnP_eq_singleton ht, hfilter]; rfl
  | cons x s =>
    rw [words_cons_of_sep (hs x rfl), words,
      List.splitOnP_append_cons_of_forall_mem ht x (hs x rfl), hfilter]
    rfl

/-- The pieces at the separators of both kinds, by those at the first kind: within the first
of these, and after it. -/
theorem splitOnP_or (s : List α) : ∃ a as b bs cs, s.splitOnP p = a :: as ∧
    s.splitOnP (fun x => p x || q x) = b :: bs ∧ a.splitOnP q = b :: cs ∧
    bs.filter (!·.isEmpty) = cs.filter (!·.isEmpty) ++ as.flatMap (words q) := by
  induction s with
  | nil => exact ⟨[], [], [], [], [], rfl, rfl, rfl, rfl⟩
  | cons x s ih =>
    obtain ⟨a, as, b, bs, cs, ha, hb, hc, hw⟩ := ih
    have hpieces : (b :: bs).filter (!·.isEmpty) =
        (b :: cs).filter (!·.isEmpty) ++ as.flatMap (words q) := by
      cases hbe : b.isEmpty <;> simp [hbe, hw]
    by_cases hp : p x = true
    · refine ⟨[], a :: as, [], b :: bs, [], ?_, ?_, rfl, ?_⟩
      · rw [List.splitOnP_cons_eq_if_modifyHead, if_pos hp, ha]
      · rw [List.splitOnP_cons_eq_if_modifyHead, if_pos (by simp [hp]), hb]
      · rw [hpieces, List.flatMap_cons, words, hc]
        rfl
    · by_cases hq : q x = true
      · refine ⟨x :: a, as, [], b :: bs, b :: cs, ?_, ?_, ?_, hpieces⟩
        · rw [List.splitOnP_cons_eq_if_modifyHead, if_neg hp, ha]
          rfl
        · rw [List.splitOnP_cons_eq_if_modifyHead, if_pos (by simp [hq]), hb]
        · rw [List.splitOnP_cons_eq_if_modifyHead, if_pos hq, hc]
      · refine ⟨x :: a, as, x :: b, bs, cs, ?_, ?_, ?_, hw⟩
        · rw [List.splitOnP_cons_eq_if_modifyHead, if_neg hp, ha]
          rfl
        · rw [List.splitOnP_cons_eq_if_modifyHead, if_neg (by simp [hp, hq]), hb]
          rfl
        · rw [List.splitOnP_cons_eq_if_modifyHead, if_neg hq, hc]
          rfl

/-- **Cutting twice.** -/
theorem flatMap_words (s : List α) :
    (s.splitOnP p).flatMap (words q) = words (fun x => p x || q x) s := by
  obtain ⟨a, as, b, bs, cs, ha, hb, hc, hw⟩ := splitOnP_or (p := p) (q := q) s
  rw [ha, words, hb, List.flatMap_cons, words, hc]
  cases hbe : b.isEmpty <;> simp [hbe, hw]

end Words
