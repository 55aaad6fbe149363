import Mathlib.Data.List.Basic

/-!
# A map and the writes made to it

A write to a map `α → β` is a partial map: it says which arguments it touches and what
it puts there.  A sequence of writes makes a map of which every value is the one of the
last write that touches its argument, and where no write does, the value the map had.
-/

namespace Overlay

variable {α β : Type*}

/-- The map after one write. -/
def put (f : α → β) (w : α → Option β) : α → β := fun a => (w a).getD (f a)

/-- The map after a sequence of writes, the oldest first. -/
def puts (f : α → β) (ws : List (α → Option β)) : α → β := ws.foldl put f

/-- What the last write to touch `a` puts there. -/
def last (ws : List (α → Option β)) (a : α) : Option β := ws.reverse.findSome? (· a)

variable (f : α → β) (w : α → Option β) (ws : List (α → Option β))

@[simp] theorem puts_nil : puts f [] = f := rfl

@[simp] theorem puts_cons : puts f (w :: ws) = puts (put f w) ws := rfl

@[simp] theorem last_nil (a : α) : last ([] : List (α → Option β)) a = none := rfl

/-- A write has its say where no later one has. -/
@[simp] theorem last_cons (a : α) : last (w :: ws) a = (last ws a).or (w a) := by
  simp [last, List.findSome?_append]

/-- A value is the one of the last write that touches its argument. -/
theorem puts_apply (a : α) : puts f ws a = (last ws a).getD (f a) := by
  induction ws generalizing f with
  | nil => rfl
  | cons w ws ih =>
    rw [puts_cons, ih, last_cons]
    cases last ws a with
    | none => rfl
    | some b => rfl

/-- A write leaves alone what it does not touch. -/
theorem put_of_none {a : α} (h : w a = none) : put f w a = f a := by
  rw [put, h, Option.getD_none]

end Overlay
