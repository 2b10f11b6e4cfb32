import ScriptVault.Evaluator.Scan

/-!
# Exec — an action from a host to a host

What an action does is told by the host that it starts from: nothing if it goes too deep, and else a result
with the host that it leaves.
-/

namespace ScriptVault

variable {α β : Type}

/-- What comes of an action that starts from a host. -/
def Action.exec (x : Action α) (h : Host) : Option (Except Failure α × Host) := x.run.run h

namespace Action

@[simp] theorem exec_pure (a : α) (h : Host) : (pure a : Action α).exec h = some (.ok a, h) := rfl

@[simp] theorem exec_mk (x : StateT Host Option (Except Failure α)) (h : Host) :
    Action.exec (ExceptT.mk x) h = x.run h := rfl

@[simp] theorem exec_throw (e : Failure) (h : Host) :
    Action.exec (throw e : Action α) h = some (.error e, h) := rfl

@[simp] theorem exec_get (h : Host) : Action.exec (get : Action Host) h = some (.ok h, h) := rfl

@[simp] theorem exec_modify (f : Host → Host) (h : Host) :
    Action.exec (modify f : Action PUnit) h = some (.ok ⟨⟩, f h) := rfl

@[simp] theorem exec_modifyGet (f : Host → α × Host) (h : Host) :
    Action.exec (modifyGet f : Action α) h = some (.ok (f h).1, (f h).2) := rfl

/-- How an action goes on after another one. -/
def andThen (f : α → Action β) : Except Failure α × Host → Option (Except Failure β × Host)
  | (.ok a, h) => (f a).exec h
  | (.error e, h) => some (.error e, h)

@[simp] theorem andThen_ok (f : α → Action β) (a : α) (h : Host) : andThen f (.ok a, h) = (f a).exec h := rfl

@[simp] theorem andThen_error (f : α → Action β) (e : Failure) (h : Host) :
    andThen f (.error e, h) = some (.error e, h) := rfl

@[simp] theorem exec_bind (x : Action α) (f : α → Action β) (h : Host) :
    (x >>= f).exec h = (x.exec h).bind (andThen f) := by
  show (do let r ← x.run.run h; _) = _
  unfold exec
  cases x.run.run h with
  | none => rfl
  | some r => obtain ⟨r, h'⟩ := r; cases r <;> rfl

theorem exec_tryCatch (x : Action α) (f : Failure → Action α) (h : Host) :
    Action.exec (tryCatch x f) h =
      (x.exec h).bind fun
        | (.ok a, h) => some (.ok a, h)
        | (.error e, h) => (f e).exec h := by
  show (do let r ← x.run.run h; _) = _
  unfold exec
  cases x.run.run h with
  | none => rfl
  | some r => obtain ⟨r, h'⟩ := r; cases r <;> rfl

end Action

namespace Host

theorem exec_within (l : Nat) (cwds : List (Option String)) (parents : List String) (act : Action α)
    (h : Host) :
    (within l cwds parents act).exec h =
      (act.exec (h.onLoader l (·.enter cwds parents))).map fun (r, h) =>
        (r, h.onLoader l (·.leave cwds.length parents.length)) := by
  show (do let r ← act.run.run _; _) = _
  unfold Action.exec
  cases act.run.run (h.onLoader l (·.enter cwds parents)) with
  | none => rfl
  | some r => rfl

theorem eq_ok_of_toOption {α : Type} {x : Except Failure α} {a : α} (h : x.toOption = some a) : x = .ok a := by
  cases x with
  | ok _ => exact congrArg Except.ok (Option.some.inj h)
  | error _ => cases h

end Host

end ScriptVault
