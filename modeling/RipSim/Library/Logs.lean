import Mathlib.Data.List.Basic

/-!
# Runs that leave a log

A system takes steps that can fail, each of which may emit one event.  `runLog step n a`
takes `n` steps and collects the events, oldest first.

`runLog_refines` compares such a run with a sequence of events given in advance: if every
step either emits the next event of the sequence or nothing, then the log is a prefix of
it.  The invariant counts the steps and the events, so it can speak about both.
-/

namespace Logs

variable {α ε φ : Type*}

/-- `n` steps, and what they emit. -/
def runLog (step : α → Except φ (Option ε × α)) : ℕ → α → Except φ (List ε × α)
  | 0, a => .ok ([], a)
  | n + 1, a => do
    let (log, a) ← runLog step n a
    let (e, a) ← step a
    return (log ++ e.toList, a)

variable {step : α → Except φ (Option ε × α)} {a₀ : α} {inv : ℕ → ℕ → α → Prop}
  {trace : ℕ → ε → Prop}

theorem runLog_succ {n : ℕ} {log : List ε} {a b : α} {e : Option ε}
    (h : runLog step n a₀ = .ok (log, a)) (hs : step a = .ok (e, b)) :
    runLog step (n + 1) a₀ = .ok (log ++ e.toList, b) := by
  unfold runLog
  rw [h]
  change (step a >>= _) = _
  rw [hs]
  rfl

/-- What a step does to the invariant: it emits the next event, or nothing. -/
def Matches (inv : ℕ → ℕ → α → Prop) (trace : ℕ → ε → Prop) (n c : ℕ) (b : α) : Option ε → Prop
  | none => inv (n + 1) c b
  | some e => trace c e ∧ inv (n + 1) (c + 1) b

/-- **The log is a prefix of the trace**, and no step fails. -/
theorem runLog_refines (h₀ : inv 0 0 a₀)
    (hstep : ∀ n c log a, runLog step n a₀ = .ok (log, a) → inv n c a →
      ∃ e b, step a = .ok (e, b) ∧ Matches inv trace n c b e) (n : ℕ) :
    ∃ log a, runLog step n a₀ = .ok (log, a) ∧ inv n log.length a ∧
      ∀ k e, log[k]? = some e → trace k e := by
  induction n with
  | zero => exact ⟨[], a₀, rfl, h₀, fun k e h => nomatch h⟩
  | succ n ih =>
    obtain ⟨log, a, hrun, hinv, htr⟩ := ih
    obtain ⟨e, b, hs, hm⟩ := hstep n log.length log a hrun hinv
    refine ⟨log ++ e.toList, b, runLog_succ hrun hs, ?_, ?_⟩
    · cases e with
      | none =>
        rw [Option.toList_none, List.append_nil]
        exact hm
      | some e =>
        rw [Option.toList_some, List.length_append, List.length_singleton]
        exact hm.2
    · intro k e' hk
      cases e with
      | none =>
        rw [Option.toList_none, List.append_nil] at hk
        exact htr k e' hk
      | some e =>
        rw [Option.toList_some] at hk
        rcases Nat.lt_or_ge k log.length with hlt | hge
        · rw [List.getElem?_append_left hlt] at hk
          exact htr k e' hk
        · rw [List.getElem?_append_right hge] at hk
          obtain ⟨hk0, he⟩ : k - log.length = 0 ∧ e = e' := by
            cases hj : k - log.length with
            | zero =>
              rw [hj] at hk
              exact ⟨rfl, Option.some.inj hk⟩
            | succ j =>
              rw [hj] at hk
              exact nomatch hk
          obtain rfl : k = log.length := by omega
          exact he ▸ hm.1

end Logs
