import Mathlib.Logic.Relation

/-!
# Runs of a step relation

A system is a relation `R` between a state and the next one; a run is a finite
sequence of steps.  Two notions are used throughout:

* `Reaches R s t`: some run leads from `s` to `t`;
* `ReachesWhile R c s t`: some run does, each of whose steps starts in a state
  that satisfies `c`.

An invariant is proved for one step and holds at the end of every run
(`Reaches.invariant`).  A property that one step establishes exactly under a
condition holds along a run exactly as long as the condition does
(`exact_along_runs`).
-/

namespace Runs

variable {α : Type*} {R : α → α → Prop} {c p : α → Prop} {s t u : α}

/-- A run leads from `s` to `t`. -/
def Reaches (R : α → α → Prop) : α → α → Prop := Relation.ReflTransGen R

/-- A run leads from `s` to `t`, and each of its steps starts in a state with `c`. -/
def ReachesWhile (R : α → α → Prop) (c : α → Prop) : α → α → Prop :=
  Relation.ReflTransGen fun s t => c s ∧ R s t

theorem Reaches.refl : Reaches R s s := Relation.ReflTransGen.refl

theorem Reaches.tail (h : Reaches R s t) (ht : R t u) : Reaches R s u :=
  Relation.ReflTransGen.tail h ht

theorem ReachesWhile.reaches (h : ReachesWhile R c s t) : Reaches R s t :=
  Relation.ReflTransGen.mono (fun _ _ h => h.2) _ _ h

/-- What every step preserves holds wherever a run leads. -/
theorem Reaches.invariant (h : Reaches R s t) (hs : p s) (hstep : ∀ a b, p a → R a b → p b) :
    p t := by
  induction h with
  | refl => exact hs
  | tail _ hR ih => exact hstep _ _ ih hR

/-- **A property that a step establishes exactly under a condition.**  It holds in
every state of a run whose steps all meet the condition, and the first step that
does not meet it ends in a state without the property. -/
theorem exact_along_runs (hs : p s)
    (hstep : ∀ a b, Reaches R s a → R a b → (p b ↔ c a)) :
    (∀ t, ReachesWhile R c s t → p t) ∧
      ∀ t u, Reaches R s t → R t u → ¬ c t → ¬ p u := by
  constructor
  · intro t h
    induction h with
    | refl => exact hs
    | tail h hR _ => exact (hstep _ _ (ReachesWhile.reaches h) hR.2).mpr hR.1
  · intro t u h hR hc hp
    exact hc ((hstep t u h hR).mp hp)

end Runs
