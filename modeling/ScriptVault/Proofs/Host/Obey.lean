import ScriptVault.Proofs.Async.Obey
import ScriptVault.Proofs.Host.Exec
import ScriptVault.Proofs.Resolver.Closed

/-!
# Obey — what holds of all that is done with a host

What is done at once changes the host once and for all, and what may wait changes it in steps.  Of both it is told
here how they are put together from parts that obey a relation.
-/

namespace ScriptVault

/-! ### Changes that a relation allows -/

/-- Something that is done at once changes hosts only as a relation allows. -/
def Action.Obeys {α : Type} (R : Host → Host → Prop) (x : Action α) : Prop :=
  ∀ h r h', x.exec h = some (r, h') → R h h'

/-- An evaluator that by itself changes only the heap, in which it gives up no place. -/
def Evaluator.Tame (ev : Evaluator) : Prop :=
  ∀ R : Host → Host → Prop, IsPreorder Host R →
    (∀ h heap, h.heap.records.size ≤ heap.records.size → R h { h with heap := heap }) →
    ∀ load : String → Action Value, (∀ id, (load id).Obeys R) →
      (∀ scope, (ev.runScript load scope).Obeys R) ∧ ∀ source, (ev.runModule load source).run.Obeys R

section

variable {R : Host → Host → Prop} [IsPreorder Host R] (hfiles : ∀ h files, R h { h with files := files })

include hfiles

/-- What is done at once and obeys a relation can be put together. -/
theorem closed_atOnce :
    Closed fun α (x : StateT Host Option α) => ∀ h a h', x.run h = some (a, h') → R h h' where
  pure a := by
    intro h _ h' hr
    cases hr
    exact refl_of R h
  bind := by
    intro α β x f hx hf h b h'' hr
    obtain ⟨⟨a, h'⟩, hr', hr''⟩ := Option.bind_eq_some_iff.1 hr
    exact trans_of R (hx h a h' hr') (hf a h' b h'' hr'')
  files act := by
    intro h _ h' hr
    cases hr
    exact hfiles h _

end

namespace Action

variable {α β : Type} {R : Host → Host → Prop} [IsPreorder Host R]

theorem obeys_pure (a : α) : Obeys R (pure a) := by
  intro h _ h' hr
  cases hr
  exact refl_of R h

theorem obeys_throw (e : Failure) : Obeys R (throw e : Action α) := by
  intro h _ h' hr
  cases hr
  exact refl_of R h

theorem obeys_result (r : Except Failure α) : Obeys R (ExceptT.mk (pure r) : Action α) := by
  intro h _ h' hr
  cases hr
  exact refl_of R h

theorem obeys_get : Obeys R (get : Action Host) := by
  intro h _ h' hr
  cases hr
  exact refl_of R h

omit [IsPreorder Host R] in
theorem obeys_modify {f : Host → Host} (hf : ∀ h, R h (f h)) : Obeys R (modify f : Action PUnit) := by
  intro h _ h' hr
  cases hr
  exact hf h

omit [IsPreorder Host R] in
theorem obeys_modifyGet {f : Host → α × Host} (hf : ∀ h, R h (f h).2) : Obeys R (modifyGet f : Action α) := by
  intro h _ h' hr
  cases hr
  exact hf h

omit [IsPreorder Host R] in
theorem obeys_step {f : Host → Except Failure α × Host} (hf : ∀ h, R h (f h).2) :
    Obeys R (ExceptT.mk fun h => some ((f h).1, (f h).2) : Action α) := by
  intro h _ h' hr
  cases hr
  exact hf h

theorem obeys_bind {x : Action α} {f : α → Action β} (hx : x.Obeys R) (hf : ∀ a, (f a).Obeys R) :
    Obeys R (x >>= f) := by
  intro h r h'' hr
  rw [exec_bind] at hr
  obtain ⟨⟨r', h'⟩, hr', hr''⟩ := Option.bind_eq_some_iff.1 hr
  cases r' with
  | ok a => exact trans_of R (hx h _ h' hr') (hf a h' r h'' hr'')
  | error e =>
    obtain ⟨-, rfl⟩ := Prod.mk.inj (Option.some.inj hr'')
    exact hx h _ h' hr'

theorem obeys_map {x : Action α} (f : α → β) (hx : x.Obeys R) : Obeys R (f <$> x) := by
  rw [← bind_pure_comp]
  exact obeys_bind hx fun a => obeys_pure (f a)

theorem obeys_discard {x : Action α} (hx : x.Obeys R) : Obeys R (discard x) := obeys_map (fun _ => ()) hx

theorem obeys_tryCatch {x : Action α} {f : Failure → Action α} (hx : x.Obeys R) (hf : ∀ e, (f e).Obeys R) :
    Obeys R (tryCatch x f) := by
  intro h r h'' hr
  rw [exec_tryCatch] at hr
  obtain ⟨⟨r', h'⟩, hr', hr''⟩ := Option.bind_eq_some_iff.1 hr
  cases r' with
  | ok a =>
    obtain ⟨-, rfl⟩ := Prod.mk.inj (Option.some.inj hr'')
    exact hx h _ h' hr'
  | error e => exact trans_of R (hx h _ h' hr') (hf e h' r h'' hr'')

theorem obeys_within {l : Nat} {cwds : List (Option String)} {parents : List String} {x : Action α}
    (hloader : ∀ h (f : Loader → Loader), (∀ loader, (f loader).graph = loader.graph) → R h (h.onLoader l f))
    (hx : x.Obeys R) : Obeys R (Host.within l cwds parents x) := by
  intro h r h'' hr
  rw [Host.exec_within] at hr
  obtain ⟨⟨r', h'⟩, hr', hr''⟩ := Option.map_eq_some_iff.1 hr
  cases hr''
  have henter := hloader h (·.enter cwds parents) fun _ => rfl
  have hleave := hloader h' (·.leave cwds.length parents.length) fun _ => rfl
  exact trans_of R henter (trans_of R (hx _ _ _ hr') hleave)

end Action

end ScriptVault
