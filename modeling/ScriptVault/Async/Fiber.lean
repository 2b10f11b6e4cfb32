/-!
# Fiber — work that may wait

A fiber runs until it has to wait, and says what for.  All fibers share one state, which no other changes
while one of them runs.  Work that several may wait for has a number and a description, from which it is
started by whoever runs the fibers; so a state can hold what was asked for without holding fibers.
-/

namespace ScriptVault

/-- Work over a state `σ` that may start the work described by an `ω`. -/
inductive Fiber (σ ω : Type) where
  /-- Nothing is left to do. -/
  | done
  /-- Looks at the state. -/
  | look (next : σ → Fiber σ ω)
  /-- Leaves another state behind. -/
  | leave (state : σ) (next : Fiber σ ω)
  /-- Gives a number to work that runs as soon as, and no further than, somebody waits for it. -/
  | share (id : Nat) (work : ω) (next : Fiber σ ω)
  /-- Waits for shared work. -/
  | await (id : Nat) (next : Fiber σ ω)
  /-- Starts a task of its own. -/
  | spawn (id : Nat) (work : ω) (next : Fiber σ ω)
  /-- Waits for a task, at most for some nanoseconds; tells whether it ended. -/
  | join (id : Nat) (limit : Option Nat) (next : Bool → Fiber σ ω)
  /-- Waits for some nanoseconds. -/
  | sleep (nanos : Nat) (next : Fiber σ ω)
  /-- Lets all others go first that can. -/
  | rest (next : Fiber σ ω)
  /-- Asks somebody outside; others may go on until the answer is looked at. -/
  | consult (next : Fiber σ ω)
  /-- Hands a job to a worker, and waits for it. -/
  | offload (job : σ → σ) (next : Fiber σ ω)
  /-- Runs two fibers side by side. -/
  | both (first second next : Fiber σ ω)

/-- A computation in a fiber that ends with an `α`. -/
def Async (σ ω α : Type) : Type := (α → Fiber σ ω) → Fiber σ ω

namespace Async

variable {σ ω α β : Type}

instance : Monad (Async σ ω) where
  pure a := fun k => k a
  bind x f := fun k => x fun a => f a k

instance : LawfulMonad (Async σ ω) :=
  LawfulMonad.mk' (Async σ ω) (fun _ => rfl) (fun _ _ => rfl) (fun _ _ _ => rfl)

/-- The fiber of a computation whose result nobody asks for. -/
def fiber (x : Async σ ω α) : Fiber σ ω := x fun _ => .done

/-- Does something with the state, at once; without an answer the fiber ends. -/
def act (x : StateT σ Option α) : Async σ ω α := fun k => .look fun s =>
  match x s with
  | some (a, s) => .leave s (k a)
  | none => .done

/-- Changes the state, and tells something about it. -/
def step (f : σ → α × σ) : Async σ ω α := fun k => .look fun s => .leave (f s).2 (k (f s).1)

/-- Tells something about the state. -/
def view (f : σ → α) : Async σ ω α := fun k => .look fun s => k (f s)

/-- Changes the state. -/
def change (f : σ → σ) : Async σ ω Unit := fun k => .look fun s => .leave (f s) (k ())

/-- Gives a number to work that runs when somebody waits for it. -/
def share (id : Nat) (work : ω) : Async σ ω Unit := fun k => .share id work (k ())

/-- Waits for shared work. -/
def await (id : Nat) : Async σ ω Unit := fun k => .await id (k ())

/-- Starts a task. -/
def spawn (id : Nat) (work : ω) : Async σ ω Unit := fun k => .spawn id work (k ())

/-- Waits for a task, at most for some nanoseconds; tells whether it ended. -/
def join (id : Nat) (limit : Option Nat) : Async σ ω Bool := fun k => .join id limit k

/-- Waits for some nanoseconds. -/
def sleep (nanos : Nat) : Async σ ω Unit := fun k => .sleep nanos (k ())

/-- Lets all others go first that can. -/
def rest : Async σ ω Unit := fun k => .rest (k ())

/-- Asks somebody outside; others may go on until the answer is looked at. -/
def consult : Async σ ω Unit := fun k => .consult (k ())

/-- Hands a job to a worker, and waits for it. -/
def offload (job : σ → σ) : Async σ ω Unit := fun k => .offload job (k ())

/-- Runs computations side by side until all have ended. -/
def all : List (Async σ ω Unit) → Async σ ω Unit
  | [] => pure ()
  | x :: rest => fun k => .both x.fiber (all rest).fiber (k ())

end Async

end ScriptVault
