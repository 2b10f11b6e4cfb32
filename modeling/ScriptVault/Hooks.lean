import ScriptVault.Table

/-!
# Hooks — points that others may wrap

Code that runs for a note runs through a named point.  The interceptors of the point are told before, in
the order in which they came, and after, in reverse order; those that are there at the start are the ones
told at the end.
-/

namespace ScriptVault

/-- The interceptors of all points, with their numbers. -/
structure Hooks (α : Type) where
  /-- The interceptors of each point that has some. -/
  points : Table String (List (Nat × α)) := []
  /-- The next number. -/
  next : Nat := 0

namespace Hooks

variable {α σ β : Type}

/-- The interceptors of a point. -/
def at_ (h : Hooks α) (point : String) : List (Nat × α) := (h.points.at? point).getD []

/-- Installs an interceptor and tells its number. -/
def register (h : Hooks α) (point : String) (interceptor : α) : Nat × Hooks α :=
  (h.next,
    { points := h.points.put point (h.at_ point ++ [(h.next, interceptor)]), next := h.next + 1 })

/-- Removes an interceptor, and tells whether it was there. -/
def remove (h : Hooks α) (point : String) (id : Nat) : Bool × Hooks α :=
  let kept := (h.at_ point).filter (·.1 != id)
  ((h.at_ point).any (·.1 == id),
    { h with points := if kept.isEmpty then h.points.erase point else h.points.put point kept })

/-- How many interceptors a point has. -/
def count (h : Hooks α) (point : String) : Nat := (h.at_ point).length

/-- Runs a body through a point; what the interceptors do is told by `before` and `after`. -/
def run (h : Hooks α) (point : String) (before after : σ → α → σ) (body : σ → β × σ) (state : σ) :
    β × σ :=
  let interceptors := (h.at_ point).map Prod.snd
  let (result, state) := body (interceptors.foldl before state)
  (result, interceptors.reverse.foldl after state)

end Hooks

end ScriptVault
