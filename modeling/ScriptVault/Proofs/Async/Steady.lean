import ScriptVault.Proofs.Async.Weave

/-!
# Steady — fibers that change states only as a relation allows

What a fiber may change between the points where it waits can be told by a relation, whatever others do meanwhile.  No
state is known at such a point, so nothing that others do can lead a fiber astray.
-/

namespace ScriptVault

variable {σ ω α β : Type} {may : ω → Prop} {R : σ → σ → Prop}

/-- From a state on, a fiber changes states only as a relation allows, and begins only work that it may begin.  At each
point where it waits the state may be any other one. -/
def Fiber.Steady (may : ω → Prop) (R : σ → σ → Prop) : Fiber σ ω → σ → Prop
  | .done, _ => True
  | .look next, s => (next s).Steady may R s
  | .leave state next, s => R s state ∧ ∀ s', next.Steady may R s'
  | .share _ work next, s => may work ∧ next.Steady may R s
  | .await _ next, _ => ∀ s', next.Steady may R s'
  | .spawn _ work next, s => may work ∧ next.Steady may R s
  | .join _ _ next, _ => ∀ b s', (next b).Steady may R s'
  | .sleep _ next, _ => ∀ s', next.Steady may R s'
  | .rest next, _ => ∀ s', next.Steady may R s'
  | .consult next, _ => ∀ s', next.Steady may R s'
  | .offload job next, _ => (∀ s, R s (job s)) ∧ ∀ s', next.Steady may R s'
  | .both first second next, _ =>
    (∀ s', first.Steady may R s') ∧ (∀ s', second.Steady may R s') ∧ ∀ s', next.Steady may R s'

/-- A computation changes states only as a relation allows, and begins only work that it may begin. -/
def Async.Steady (may : ω → Prop) (R : σ → σ → Prop) (x : Async σ ω α) : Prop :=
  ∀ k, (∀ a s, (k a).Steady may R s) → ∀ s, (x k).Steady may R s

namespace Async

theorem steady_pure (a : α) : Steady may R (pure a : Async σ ω α) := fun _ hk => hk a

theorem steady_bind {x : Async σ ω α} {f : α → Async σ ω β} (hx : x.Steady may R) (hf : ∀ a, (f a).Steady may R) :
    Steady may R (x >>= f) := fun k hk => hx _ fun a => hf a k hk

theorem steady_view (f : σ → α) : Steady may R (view f : Async σ ω α) := fun _ hk s => hk (f s) s

theorem steady_step {f : σ → α × σ} (hf : ∀ s, R s (f s).2) : Steady may R (step f : Async σ ω α) :=
  fun _ hk s => ⟨hf s, hk (f s).1⟩

theorem steady_change {f : σ → σ} (hf : ∀ s, R s (f s)) : Steady may R (change f : Async σ ω Unit) :=
  fun _ hk s => ⟨hf s, hk ()⟩

theorem steady_act {x : StateT σ Option α} (hx : ∀ s a s', x s = some (a, s') → R s s') :
    Steady may R (act x : Async σ ω α) := by
  intro k hk s
  simp only [act, Fiber.Steady]
  cases hs : x s with
  | none => trivial
  | some r => exact ⟨hx s r.1 r.2 hs, hk r.1⟩

theorem steady_offload {job : σ → σ} (hjob : ∀ s, R s (job s)) : Steady may R (offload job : Async σ ω Unit) :=
  fun _ hk _ => ⟨hjob, hk ()⟩

theorem steady_share (id : Nat) {work : ω} (hwork : may work) : Steady may R (share id work) :=
  fun _ hk s => ⟨hwork, hk () s⟩

theorem steady_spawn (id : Nat) {work : ω} (hwork : may work) : Steady may R (spawn id work) :=
  fun _ hk s => ⟨hwork, hk () s⟩

theorem steady_await (id : Nat) : Steady may R (await id : Async σ ω Unit) := fun _ hk _ => hk ()

theorem steady_join (id : Nat) (limit : Option Nat) : Steady may R (join id limit : Async σ ω Bool) := fun _ hk _ => hk

theorem steady_sleep (nanos : Nat) : Steady may R (sleep nanos : Async σ ω Unit) := fun _ hk _ => hk ()

theorem steady_rest : Steady may R (rest : Async σ ω Unit) := fun _ hk _ => hk ()

theorem steady_consult : Steady may R (consult : Async σ ω Unit) := fun _ hk _ => hk ()

theorem Steady.fiber {x : Async σ ω α} (hx : x.Steady may R) (s : σ) : x.fiber.Steady may R s :=
  hx (fun _ => .done) (fun _ _ => trivial) s

theorem steady_all {xs : List (Async σ ω Unit)} (hxs : ∀ x ∈ xs, x.Steady may R) : Steady may R (all xs) := by
  induction xs with
  | nil => exact steady_pure ()
  | cons x xs ih =>
    exact fun _ hk _ => ⟨(hxs x List.mem_cons_self).fiber, (ih fun y hy => hxs y (List.mem_cons_of_mem _ hy)).fiber, hk ()⟩

end Async

/-! ### Strands -/

/-- A strand changes states only as a relation allows, and begins only work that it may begin. -/
def Strand.Steady (may : ω → Prop) (R : σ → σ → Prop) : Strand σ ω → Prop
  | .ended => True
  | .going fiber => ∀ s, fiber.Steady may R s
  | .awaiting _ next => ∀ s, next.Steady may R s
  | .joining _ _ next => ∀ b s, (next b).Steady may R s
  | .working job next => (∀ s, R s (job s)) ∧ ∀ s, next.Steady may R s
  | .both first second next => first.Steady may R ∧ second.Steady may R ∧ ∀ s, next.Steady may R s

end ScriptVault
