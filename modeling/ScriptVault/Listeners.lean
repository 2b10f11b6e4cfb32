/-!
# Listeners — who is told of what happens

Listeners are told in the order in which they came.  Those that come or go while a message is being
delivered change only the next delivery.
-/

namespace ScriptVault

/-- Listeners with their numbers, which are given out once each. -/
structure Listeners (α : Type) where
  /-- The listeners, in the order in which they came. -/
  all : List (Nat × α) := []
  /-- The next number. -/
  next : Nat := 0

namespace Listeners

variable {α : Type}

/-- Adds a listener and tells its number. -/
def listen (l : Listeners α) (listener : α) : Nat × Listeners α :=
  (l.next, { all := l.all ++ [(l.next, listener)], next := l.next + 1 })

/-- Removes a listener, and tells whether it was there. -/
def unlisten (l : Listeners α) (id : Nat) : Bool × Listeners α :=
  (l.all.any (·.1 == id), { l with all := l.all.filter (·.1 != id) })

/-- Delivers a message to the listeners that are there now. -/
def emit {σ : Type} (l : Listeners α) (deliver : σ → α → σ) (state : σ) : σ :=
  (l.all.map Prod.snd).foldl deliver state

/-- How many listeners there are. -/
def count (l : Listeners α) : Nat := l.all.length

end Listeners

end ScriptVault
