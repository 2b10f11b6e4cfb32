import Mathlib.Order.Defs.Unbundled
import ScriptVault.Async.Schedule
import ScriptVault.Failure

/-!
# Obey — what holds of all changes that fibers make

A fiber changes the state between the points where it waits, and at those points others may change it.  If each
change that some fibers make is within a relation, then so is what comes of running them together, in whatever
order they are run.
-/

namespace ScriptVault

variable {σ ω α β : Type}

/-! ### Fibers -/

/-- From a state on, a fiber changes states only as a relation allows, while others do so where it waits. -/
def Fiber.ObeysFrom (R : σ → σ → Prop) : Fiber σ ω → σ → Prop
  | .done, _ => True
  | .look next, s => (next s).ObeysFrom R s
  | .leave state next, s => R s state ∧ ∀ s', R state s' → next.ObeysFrom R s'
  | .share _ _ next, s => next.ObeysFrom R s
  | .await _ next, s => ∀ s', R s s' → next.ObeysFrom R s'
  | .spawn _ _ next, s => next.ObeysFrom R s
  | .join _ _ next, s => ∀ b s', R s s' → (next b).ObeysFrom R s'
  | .sleep _ next, s => ∀ s', R s s' → next.ObeysFrom R s'
  | .rest next, s => ∀ s', R s s' → next.ObeysFrom R s'
  | .consult next, s => ∀ s', R s s' → next.ObeysFrom R s'
  | .offload job next, s => (∀ s, R s (job s)) ∧ ∀ s', R s s' → next.ObeysFrom R s'
  | .both first second next, s =>
    (∀ s', R s s' → first.ObeysFrom R s') ∧ (∀ s', R s s' → second.ObeysFrom R s') ∧
      ∀ s', R s s' → next.ObeysFrom R s'

/-- A fiber changes states only as a relation allows. -/
def Fiber.Obeys (R : σ → σ → Prop) (f : Fiber σ ω) : Prop := ∀ s, f.ObeysFrom R s

/-- From a state on, a computation changes states only as a relation allows, and ends only with results and in
states that are as `Q` says, while others change states as the relation allows where it waits. -/
def Async.Yields (R : σ → σ → Prop) (x : Async σ ω α) (s : σ) (Q : α → σ → Prop) : Prop :=
  ∀ k, (∀ a s', Q a s' → (k a).ObeysFrom R s') → (x k).ObeysFrom R s

/-- A computation comes from a state only to those that a relation allows. -/
def Async.Obeys (R : σ → σ → Prop) (x : Async σ ω α) : Prop := ∀ s, x.Yields R s fun _ s' => R s s'

namespace Async

variable {R : σ → σ → Prop} {s : σ} {P Q : α → σ → Prop}

theorem yields_pure {a : α} (h : Q a s) : Yields R (pure a : Async σ ω α) s Q := fun _ hk => hk a s h

theorem yields_bind {x : Async σ ω α} {f : α → Async σ ω β} {Q : β → σ → Prop} (hx : x.Yields R s P)
    (hf : ∀ a s', P a s' → (f a).Yields R s' Q) : (x >>= f).Yields R s Q := by
  intro k hk
  exact hx _ fun a s' ha => hf a s' ha k hk

theorem yields_view {f : σ → α} (h : Q (f s) s) : Yields R (view f : Async σ ω α) s Q := fun _ hk => hk (f s) s h

theorem yields_step {f : σ → α × σ} (hf : R s (f s).2) (h : ∀ s', R (f s).2 s' → Q (f s).1 s') :
    Yields R (step f : Async σ ω α) s Q := fun _ hk => ⟨hf, fun s' hs => hk _ s' (h s' hs)⟩

theorem yields_change {f : σ → σ} {Q : Unit → σ → Prop} (hf : R s (f s)) (h : ∀ s', R (f s) s' → Q () s') :
    Yields R (change f : Async σ ω Unit) s Q := fun _ hk => ⟨hf, fun s' hs => hk _ s' (h s' hs)⟩

theorem yields_await {id : Nat} {Q : Unit → σ → Prop} (h : ∀ s', R s s' → Q () s') :
    Yields R (await id : Async σ ω Unit) s Q := fun _ hk s' hs => hk () s' (h s' hs)

theorem yields_act {x : StateT σ Option α}
    (hx : ∀ a s₁, x s = some (a, s₁) → R s s₁ ∧ ∀ s', R s₁ s' → Q a s') :
    Yields R (act x : Async σ ω α) s Q := by
  intro k hk
  simp only [act, Fiber.ObeysFrom]
  cases hs : x s with
  | none => trivial
  | some r =>
    obtain ⟨hr, hq⟩ := hx r.1 r.2 hs
    exact ⟨hr, fun s' hs' => hk _ s' (hq s' hs')⟩

theorem Yields.mono {x : Async σ ω α} (hx : x.Yields R s P) (h : ∀ a s', P a s' → Q a s') : x.Yields R s Q :=
  fun k hk => hx k fun a s' ha => hk a s' (h a s' ha)

/-- What may fail goes on only where it has not failed. -/
theorem yields_except {x : ExceptT Failure (Async σ ω) α} {f : α → ExceptT Failure (Async σ ω) β}
    {P : Except Failure α → σ → Prop} {Q : Except Failure β → σ → Prop} (hx : x.run.Yields R s P)
    (hok : ∀ a s', P (.ok a) s' → (f a).run.Yields R s' Q) (herror : ∀ e s', P (.error e) s' → Q (.error e) s') :
    (x >>= f).run.Yields R s Q := by
  show Yields R (x.run >>= ExceptT.bindCont f) s Q
  refine yields_bind hx fun r s' hr => ?_
  cases r with
  | ok a => exact hok a s' hr
  | error e => exact yields_pure (herror e s' hr)

theorem yields_lift {x : Async σ ω α} {P : Except Failure α → σ → Prop}
    (hx : x.Yields R s fun a s' => P (.ok a) s') :
    (ExceptT.lift x : ExceptT Failure (Async σ ω) α).run.Yields R s P := by
  show Yields R (Except.ok <$> x) s P
  rw [← bind_pure_comp]
  exact yields_bind hx fun _ _ ha => yields_pure ha

theorem obeys_act {x : StateT σ Option α} [IsTrans σ R] (hx : ∀ s a s', x s = some (a, s') → R s s') :
    Obeys R (act x : Async σ ω α) := fun s =>
  yields_act fun a s₁ hs => ⟨hx s a s₁ hs, fun _ hr => trans_of R (hx s a s₁ hs) hr⟩

theorem obeys_offload {job : σ → σ} (hjob : ∀ s, R s (job s)) : Obeys R (offload job : Async σ ω Unit) :=
  fun _ _ hk => ⟨hjob, hk ()⟩

theorem obeys_await (id : Nat) : Obeys R (await id : Async σ ω Unit) := fun _ => yields_await fun _ hs => hs

theorem obeys_join (id : Nat) (limit : Option Nat) : Obeys R (join id limit : Async σ ω Bool) :=
  fun _ _ hk => hk

theorem obeys_sleep (nanos : Nat) : Obeys R (sleep nanos : Async σ ω Unit) := fun _ _ hk => hk ()

theorem obeys_rest : Obeys R (rest : Async σ ω Unit) := fun _ _ hk => hk ()

theorem obeys_consult : Obeys R (consult : Async σ ω Unit) := fun _ _ hk => hk ()

theorem obeys_fiber {x : Async σ ω α} (hx : x.Obeys R) : x.fiber.Obeys R := fun s => hx s _ fun _ _ _ => trivial

variable [IsPreorder σ R]

theorem obeys_pure (a : α) : Obeys R (pure a : Async σ ω α) := fun s => yields_pure (refl_of R s)

theorem obeys_bind {x : Async σ ω α} {f : α → Async σ ω β} (hx : x.Obeys R) (hf : ∀ a, (f a).Obeys R) :
    Obeys R (x >>= f) := by
  intro s
  refine yields_bind (hx s) fun a s' hs k hk => ?_
  exact hf a s' k fun b s'' hs' => hk b s'' (trans_of R hs hs')

theorem obeys_view (f : σ → α) : Obeys R (view f : Async σ ω α) := fun s => yields_view (refl_of R s)

theorem obeys_step {f : σ → α × σ} (hf : ∀ s, R s (f s).2) : Obeys R (step f : Async σ ω α) := fun s =>
  yields_step (hf s) fun _ hs => trans_of R (hf s) hs

theorem obeys_change {f : σ → σ} (hf : ∀ s, R s (f s)) : Obeys R (change f : Async σ ω Unit) := fun s =>
  yields_change (hf s) fun _ hs => trans_of R (hf s) hs

theorem obeys_share (id : Nat) (work : ω) : Obeys R (share id work) := fun s _ hk => hk () s (refl_of R s)

theorem obeys_spawn (id : Nat) (work : ω) : Obeys R (spawn id work) := fun s _ hk => hk () s (refl_of R s)

theorem obeys_all {xs : List (Async σ ω Unit)} (hxs : ∀ x ∈ xs, x.Obeys R) : Obeys R (all xs) := by
  induction xs with
  | nil => exact obeys_pure ()
  | cons x rest ih =>
    intro s k hk
    exact ⟨fun s' _ => obeys_fiber (hxs x (List.mem_cons_self ..)) s',
      fun s' _ => obeys_fiber (ih fun y hy => hxs y (List.mem_cons_of_mem _ hy)) s', hk ()⟩

end Async

/-! ### Schedules -/

/-- A fiber that waits changes states only as a relation allows once it goes on, in whatever state others leave by
then. -/
def Parked.ObeysFrom (R : σ → σ → Prop) : Parked σ ω → σ → Prop
  | .finished, _ => True
  | .fresh fiber, s => ∀ s', R s s' → fiber.ObeysFrom R s'
  | .awaiting _ _ next, s => ∀ s', R s s' → next.ObeysFrom R s'
  | .joining _ _ next, s => ∀ b s', R s s' → (next b).ObeysFrom R s'
  | .sleeping _ next, s => ∀ s', R s s' → next.ObeysFrom R s'
  | .resting next, s => ∀ s', R s s' → next.ObeysFrom R s'
  | .queued _ job next, s => (∀ s, R s (job s)) ∧ ∀ s', R s s' → next.ObeysFrom R s'
  | .working _ next, s => ∀ s', R s s' → next.ObeysFrom R s'
  | .both first second next, s =>
    first.ObeysFrom R s ∧ second.ObeysFrom R s ∧ ∀ s', R s s' → next.ObeysFrom R s'

theorem Parked.ObeysFrom.later {R : σ → σ → Prop} [IsTrans σ R] {p : Parked σ ω} {s s' : σ} (hp : p.ObeysFrom R s)
    (hr : R s s') : p.ObeysFrom R s' := by
  induction p with
  | finished => trivial
  | fresh fiber => exact fun s'' hs => hp s'' (trans_of R hr hs)
  | awaiting _ _ next => exact fun s'' hs => hp s'' (trans_of R hr hs)
  | joining _ _ next => exact fun b s'' hs => hp b s'' (trans_of R hr hs)
  | sleeping _ next => exact fun s'' hs => hp s'' (trans_of R hr hs)
  | resting next => exact fun s'' hs => hp s'' (trans_of R hr hs)
  | queued _ job next => exact ⟨hp.1, fun s'' hs => hp.2 s'' (trans_of R hr hs)⟩
  | working _ next => exact fun s'' hs => hp s'' (trans_of R hr hs)
  | both first second next ih₁ ih₂ =>
    exact ⟨ih₁ hp.1, ih₂ hp.2.1, fun s'' hs => hp.2.2 s'' (trans_of R hr hs)⟩

/-- Work that is described changes states only as a relation allows. -/
structure Plan.Obeys (R : σ → σ → Prop) (plan : Plan σ ω) : Prop where
  /-- All work does so. -/
  perform : ∀ id work, (plan.perform id work).Obeys R
  /-- To take up the tasks that a state asks for does so. -/
  collect : ∀ s, R s (plan.collect s).2

namespace Schedule

/-- All that a schedule has still to run changes states only as a relation allows. -/
structure Obeys (R : σ → σ → Prop) (s : Schedule σ ω) : Prop where
  /-- So does the root. -/
  root : s.root.ObeysFrom R s.state
  /-- So do the tasks. -/
  tasks : ∀ id parked, s.tasks.at? id = some parked → parked.ObeysFrom R s.state
  /-- So does shared work. -/
  shares : ∀ id shared, s.shares.at? id = some shared → shared.work.ObeysFrom R s.state
  /-- So do the jobs. -/
  jobs : ∀ job ∈ s.jobs, ∀ state, R state (job.run state)

/-- From a schedule that obeys a relation it comes to another one that does, by changes within the relation. -/
def Leads (R : σ → σ → Prop) (s s' : Schedule σ ω) : Prop := s.Obeys R → s'.Obeys R ∧ R s.state s'.state

variable {R : σ → σ → Prop} {s s' : Schedule σ ω}

/-! ### Changes that run nothing -/

theorem Obeys.ofShares (hs : s.Obeys R) {shares : Table Nat (Shared σ ω)}
    (hshares : ∀ id shared, shares.at? id = some shared → shared.work.ObeysFrom R s.state) :
    Obeys R { s with shares := shares } := ⟨hs.root, hs.tasks, hshares, hs.jobs⟩

theorem Obeys.putTask (hs : s.Obeys R) (id : Nat) {parked : Parked σ ω} (hp : parked.ObeysFrom R s.state) :
    ∀ n p, (s.tasks.put id parked).at? n = some p → p.ObeysFrom R s.state := by
  intro n p hn
  by_cases h : id = n
  · subst h
    rw [Table.at?_put_same] at hn
    obtain rfl := Option.some.inj hn
    exact hp
  · rw [Table.at?_put_ne h] at hn
    exact hs.tasks n p hn

theorem Obeys.eraseTask (hs : s.Obeys R) (id : Nat) :
    ∀ n p, (s.tasks.erase id).at? n = some p → p.ObeysFrom R s.state := by
  intro n p hn
  by_cases h : id = n
  · subst h
    rw [Table.at?_erase_same] at hn
    cases hn
  · rw [Table.at?_erase_ne h] at hn
    exact hs.tasks n p hn

theorem Obeys.putShare (hs : s.Obeys R) (id : Nat) {shared : Shared σ ω} (hw : shared.work.ObeysFrom R s.state) :
    Obeys R { s with shares := s.shares.put id shared } := by
  refine hs.ofShares fun n other hn => ?_
  by_cases h : id = n
  · subst h
    rw [Table.at?_put_same] at hn
    obtain rfl := Option.some.inj hn
    exact hw
  · rw [Table.at?_put_ne h] at hn
    exact hs.shares n other hn

theorem Obeys.eraseShare (hs : s.Obeys R) (id : Nat) : Obeys R { s with shares := s.shares.erase id } := by
  refine hs.ofShares fun n other hn => ?_
  by_cases h : id = n
  · subst h
    rw [Table.at?_erase_same] at hn
    cases hn
  · rw [Table.at?_erase_ne h] at hn
    exact hs.shares n other hn

theorem Obeys.moved [IsTrans σ R] (hs : s.Obeys R) {state : σ} (hr : R s.state state) :
    Obeys R { s with state := state } :=
  ⟨hs.root.later hr, fun id parked hp => (hs.tasks id parked hp).later hr,
    fun id shared hw => (hs.shares id shared hw).later hr, hs.jobs⟩

theorem Obeys.start (hs : s.Obeys R) (id : Nat) {fiber : Fiber σ ω} (hf : fiber.Obeys R) :
    (s.start id fiber).Obeys R := ⟨hs.root, hs.putTask id fun s' _ => hf s', hs.shares, hs.jobs⟩

variable [IsPreorder σ R]

variable (R) in
theorem Leads.refl (s : Schedule σ ω) : Leads R s s := fun hs => ⟨hs, refl_of R _⟩

theorem Leads.trans {a b c : Schedule σ ω} (hab : Leads R a b) (hbc : Leads R b c) : Leads R a c := by
  intro ha
  obtain ⟨hb, hr⟩ := hab ha
  obtain ⟨hc, hr'⟩ := hbc hb
  exact ⟨hc, trans_of R hr hr'⟩

theorem Leads.foldl {γ : Type} {step : Schedule σ ω → γ → Schedule σ ω}
    (hstep : ∀ s x, Leads R s (step s x)) (xs : List γ) (s : Schedule σ ω) : Leads R s (xs.foldl step s) := by
  induction xs generalizing s with
  | nil => exact Leads.refl R s
  | cons x rest ih => exact (hstep s x).trans (ih (step s x))

theorem leads_wake (depth : Nat) (s : Schedule σ ω) (waker : Waker) : Leads R s (wake depth s waker) := by
  induction depth generalizing s waker with
  | zero =>
    intro hs
    cases waker with
    | root => exact ⟨⟨hs.root, hs.tasks, hs.shares, hs.jobs⟩, refl_of R _⟩
    | task id =>
      unfold wake
      split
      · exact ⟨⟨hs.root, hs.tasks, hs.shares, hs.jobs⟩, refl_of R _⟩
      · split
        · exact ⟨hs, refl_of R _⟩
        · exact ⟨⟨hs.root, hs.tasks, hs.shares, hs.jobs⟩, refl_of R _⟩
    | share id => exact ⟨hs, refl_of R _⟩
  | succ depth ih =>
    intro hs
    cases waker with
    | root => exact ⟨⟨hs.root, hs.tasks, hs.shares, hs.jobs⟩, refl_of R _⟩
    | task id =>
      unfold wake
      split
      · exact ⟨⟨hs.root, hs.tasks, hs.shares, hs.jobs⟩, refl_of R _⟩
      · split
        · exact ⟨hs, refl_of R _⟩
        · exact ⟨⟨hs.root, hs.tasks, hs.shares, hs.jobs⟩, refl_of R _⟩
    | share id =>
      unfold wake
      split
      · exact ⟨hs, refl_of R _⟩
      · next shared hshared =>
        exact Leads.foldl (fun s x => ih s x) _ _ (hs.putShare id (hs.shares id shared hshared))

theorem leads_tell (s : Schedule σ ω) (waker : Waker) : Leads R s (s.tell waker) := leads_wake _ s waker

theorem leads_setTimer (nanos : Nat) (waker : Waker) (s : Schedule σ ω) : Leads R s (s.setTimer nanos waker).2 := by
  intro hs
  simp only [setTimer]
  split
  · exact ⟨hs, refl_of R _⟩
  · exact ⟨⟨hs.root, hs.tasks, hs.shares, hs.jobs⟩, refl_of R _⟩

theorem leads_deferred (waker : Waker) (s : Schedule σ ω) : Leads R s (s.deferred waker) := by
  intro hs
  unfold deferred
  split
  · exact ⟨hs, refl_of R _⟩
  · exact ⟨⟨hs.root, hs.tasks, hs.shares, hs.jobs⟩, refl_of R _⟩

/-! ### Running -/

section

variable {plan : Plan σ ω} (hplan : plan.Obeys R)

include hplan

omit hplan [IsPreorder σ R] in
variable (plan) in
theorem adopt_state (s : Schedule σ ω) (state : σ) : (s.adopt plan state).state = (plan.collect state).2 := by
  have hstart (asked : List (Nat × ω)) (s : Schedule σ ω) :
      (asked.foldl (fun s work => s.start work.1 (plan.perform work.1 work.2)) s).state = s.state := by
    induction asked generalizing s with
    | nil => rfl
    | cons x asked ih => exact ih _
  exact hstart _ _

theorem leads_adopt {state : σ} (hr : R s.state state) :
    Leads R s (s.adopt plan state) ∧ R state (s.adopt plan state).state := by
  have hcollect : R state (s.adopt plan state).state := adopt_state plan s state ▸ hplan.collect state
  have hmoved := trans_of R hr hcollect
  refine ⟨fun hs => ⟨?_, hmoved⟩, hcollect⟩
  have hstart (s : Schedule σ ω) (x : Nat × ω) : Leads R s (s.start x.1 (plan.perform x.1 x.2)) :=
    fun hs => ⟨hs.start x.1 (hplan.perform x.1 x.2), refl_of R _⟩
  rw [adopt_state] at hmoved
  exact (Leads.foldl hstart (plan.collect state).1 { s with state := (plan.collect state).2 } (hs.moved hmoved)).1

/-- What comes of a fiber that runs from a schedule obeys a relation, as does the schedule that it leaves. -/
def Parks (R : σ → σ → Prop) (s : Schedule σ ω) (r : Parked σ ω × Schedule σ ω) : Prop :=
  s.Obeys R → r.1.ObeysFrom R r.2.state ∧ r.2.Obeys R ∧ R s.state r.2.state

omit hplan in
theorem Leads.parks {r : Parked σ ω × Schedule σ ω} (hs : Leads R s s')
    (hr : R s.state s'.state → Parks R s' r) : Parks R s r := by
  intro ho
  obtain ⟨ho', hss⟩ := hs ho
  obtain ⟨hp, ho'', hrr⟩ := hr hss ho'
  exact ⟨hp, ho'', trans_of R hss hrr⟩

omit hplan in
theorem Parks.of {parked : Parked σ ω} (hs : Leads R s s') (hp : parked.ObeysFrom R s.state) :
    Parks R s (parked, s') := fun ho => ⟨hp.later (hs ho).2, hs ho⟩

variable {pump : Nat → Schedule σ ω → Schedule σ ω} (hpump : ∀ id s, Leads R s (pump id s))

include hpump

omit hplan hpump in
theorem leads_enter (id : Nat) {shared : Shared σ ω} (hw : shared.work.ObeysFrom R s.state) (slot : Option Nat)
    (waker : Waker) : Leads R s (s.enter id shared slot waker).2 := by
  intro hs
  unfold enter
  cases slot with
  | none => exact ⟨hs.putShare id hw, refl_of R _⟩
  | some n => exact ⟨hs.putShare id hw, refl_of R _⟩

omit hplan in
theorem leads_visit (id : Nat) (slot : Option Nat) (waker : Waker) (s : Schedule σ ω) :
    Leads R s (visit pump id slot waker s).2 := by
  intro hs
  unfold visit
  cases hshared : s.shares.at? id with
  | none => exact ⟨hs, refl_of R _⟩
  | some shared =>
    have henter := leads_enter id (hs.shares id shared hshared) slot waker
    dsimp only
    cases shared.busy with
    | true => exact henter hs
    | false => exact henter.trans (hpump id _) hs

theorem parks_drive (waker : Waker) (fiber : Fiber σ ω) (s : Schedule σ ω) (hf : fiber.ObeysFrom R s.state) :
    Parks R s (drive plan pump waker fiber s) := by
  induction fiber generalizing s with
  | done => exact Parks.of (Leads.refl R s) trivial
  | look next ih => exact ih s.state s hf
  | leave state next ih =>
    obtain ⟨hadopt, hr⟩ := leads_adopt hplan hf.1
    exact hadopt.parks fun _ => ih _ (hf.2 _ hr)
  | share id work next ih =>
    have hput : Leads R s { s with shares := s.shares.put id { work := .fresh (plan.perform id work) } } :=
      fun hs => ⟨hs.putShare id fun s' _ => hplan.perform id work s', refl_of R _⟩
    exact hput.parks fun _ => ih _ hf
  | await id next ih =>
    have hvisit := leads_visit hpump id none waker s
    unfold drive
    split
    · next s' hs' => rw [hs'] at hvisit; exact hvisit.parks fun hr => ih _ (hf _ hr)
    · next slot s' hs' => rw [hs'] at hvisit; exact Parks.of hvisit hf
  | spawn id work next ih =>
    have hstart : Leads R s (s.start id (plan.perform id work)) :=
      fun hs => ⟨hs.start id (hplan.perform id work), refl_of R _⟩
    exact hstart.parks fun _ => ih _ hf
  | join id limit next ih =>
    have hjoin (s : Schedule σ ω) : Leads R s (s.joined id waker) :=
      fun hs => ⟨⟨hs.root, hs.tasks, hs.shares, hs.jobs⟩, refl_of R _⟩
    simp only [drive]
    split
    · exact ih true s (hf true _ (refl_of R _))
    · cases limit with
      | none => exact Parks.of (hjoin s) hf
      | some nanos =>
        obtain ⟨timer, s', ht⟩ : ∃ timer s', s.setTimer nanos waker = (timer, s') := ⟨_, _, rfl⟩
        have htimer : Leads R s s' := by
          have := leads_setTimer (R := R) nanos waker s
          rwa [ht] at this
        simp only [ht]
        cases timer with
        | none => exact htimer.parks fun hr => ih false _ (hf false _ hr)
        | some _ => exact Parks.of (htimer.trans (hjoin s')) hf
  | sleep nanos next ih =>
    obtain ⟨timer, s', ht⟩ : ∃ timer s', s.setTimer nanos waker = (timer, s') := ⟨_, _, rfl⟩
    have htimer : Leads R s s' := by
      have := leads_setTimer (R := R) nanos waker s
      rwa [ht] at this
    simp only [drive, ht]
    cases timer with
    | none => exact htimer.parks fun hr => ih _ (hf _ hr)
    | some _ => exact Parks.of htimer hf
  | rest next ih => exact Parks.of (leads_deferred waker s) hf
  | consult next ih => exact ih s (hf _ (refl_of R _))
  | offload job next ih =>
    unfold drive
    dsimp only
    split
    · exact Parks.of (fun hs => ⟨⟨hs.root, hs.tasks, hs.shares, hs.jobs⟩, refl_of R _⟩) hf
    · refine Parks.of (fun hs => ⟨⟨hs.root, hs.tasks, hs.shares, ?_⟩, refl_of R _⟩) hf.2
      exact List.forall_mem_append.2 ⟨hs.jobs, List.forall_mem_singleton.2 hf.1⟩
  | both first second next ih₁ ih₂ ih₃ =>
    intro hs
    unfold drive
    obtain ⟨hp₁, hs₁, hr₁⟩ := ih₁ s (hf.1 _ (refl_of R _)) hs
    obtain ⟨hp₂, hs₂, hr₂⟩ := ih₂ _ (hf.2.1 _ hr₁) hs₁
    have hr := trans_of R hr₁ hr₂
    dsimp only
    split
    · obtain ⟨hp, hs', hr₃⟩ := ih₃ _ (hf.2.2 _ hr) hs₂
      exact ⟨hp, hs', trans_of R hr hr₃⟩
    · exact ⟨⟨hp₁.later hr₂, hp₂, fun s' hs' => hf.2.2 s' (trans_of R hr hs')⟩, hs₂, hr⟩

theorem parks_resume (waker : Waker) (parked : Parked σ ω) (s : Schedule σ ω) (hp : parked.ObeysFrom R s.state) :
    Parks R s (resume plan pump waker parked s) := by
  have hgo {fiber : Fiber σ ω} {s s' : Schedule σ ω} (hf : ∀ state, R s.state state → fiber.ObeysFrom R state)
      (hs : Leads R s s') : Parks R s (drive plan pump waker fiber s') :=
    hs.parks fun hr => parks_drive hplan hpump waker fiber s' (hf _ hr)
  induction parked generalizing s with
  | finished => exact Parks.of (Leads.refl R s) trivial
  | fresh fiber => exact hgo hp (Leads.refl R s)
  | awaiting id slot next =>
    have hvisit := leads_visit hpump id (some slot) waker s
    unfold resume
    split
    · next s' hs' => rw [hs'] at hvisit; exact hgo hp hvisit
    · next slot s' hs' => rw [hs'] at hvisit; exact Parks.of hvisit hp
  | joining id timer next =>
    have hjoin : Leads R s (s.joined id waker) :=
      fun hs => ⟨⟨hs.root, hs.tasks, hs.shares, hs.jobs⟩, refl_of R _⟩
    unfold resume
    split
    · exact hgo (hp true) fun hs => ⟨⟨hs.root, hs.tasks, hs.shares, hs.jobs⟩, refl_of R _⟩
    · cases timer with
      | none => exact Parks.of hjoin hp
      | some t =>
        dsimp only
        split
        · exact Parks.of (fun hs => ⟨⟨hs.root, hs.tasks, hs.shares, hs.jobs⟩, refl_of R _⟩) hp
        · exact hgo (hp false) fun hs => ⟨⟨hs.root, hs.tasks, hs.shares, hs.jobs⟩, refl_of R _⟩
  | sleeping timer next =>
    unfold resume
    split
    · exact Parks.of (fun hs => ⟨⟨hs.root, hs.tasks, hs.shares, hs.jobs⟩, refl_of R _⟩) hp
    · exact hgo hp (Leads.refl R s)
  | resting next => exact hgo hp (Leads.refl R s)
  | queued ticket job next =>
    unfold resume
    split
    · refine Parks.of (fun hs => ⟨⟨hs.root, hs.tasks, hs.shares, ?_⟩, refl_of R _⟩) hp.2
      exact List.forall_mem_append.2 ⟨hs.jobs, List.forall_mem_singleton.2 hp.1⟩
    · exact Parks.of (fun hs => ⟨⟨hs.root, hs.tasks, hs.shares, hs.jobs⟩, refl_of R _⟩) hp
  | working ticket next =>
    unfold resume
    split
    · refine Parks.of (fun hs => ⟨⟨hs.root, hs.tasks, hs.shares, ?_⟩, refl_of R _⟩) hp
      intro job hjob
      obtain ⟨job, hmem, rfl⟩ := List.mem_map.1 hjob
      have := hs.jobs job hmem
      split <;> exact this
    · exact hgo hp (Leads.refl R s)
  | both first second next ih₁ ih₂ =>
    intro hs
    unfold resume
    obtain ⟨hp₁, hs₁, hr₁⟩ := ih₁ s hp.1 hs
    obtain ⟨hp₂, hs₂, hr₂⟩ := ih₂ _ (hp.2.1.later hr₁) hs₁
    have hr := trans_of R hr₁ hr₂
    dsimp only
    split
    · obtain ⟨hp, hs', hr₃⟩ := parks_drive hplan hpump waker next _ (hp.2.2 _ hr) hs₂
      exact ⟨hp, hs', trans_of R hr hr₃⟩
    · exact ⟨⟨hp₁.later hr₂, hp₂, fun s' hs' => hp.2.2 s' (trans_of R hr hs')⟩, hs₂, hr⟩

end

section

variable {plan : Plan σ ω} (hplan : plan.Obeys R)

include hplan

/-- Shared work that is run for somebody obeys a relation. -/
theorem leads_pump (depth id : Nat) (s : Schedule σ ω) : Leads R s (Schedule.pump plan depth id s) := by
  induction depth generalizing id s with
  | zero => exact Leads.refl R s
  | succ depth ih =>
    intro hs
    unfold Schedule.pump
    cases hshared : s.shares.at? id with
    | none => exact ⟨hs, refl_of R _⟩
    | some shared =>
      have hwork := hs.shares id shared hshared
      have hbusy : Obeys R { s with shares := s.shares.put id { shared with busy := true } } :=
        hs.putShare id hwork
      obtain ⟨hp, hs', hr⟩ := parks_resume hplan (fun id s => ih id s) (.share id) shared.work
        { s with shares := s.shares.put id { shared with busy := true } } hwork hbusy
      dsimp only
      split
      · have herase := hs'.eraseShare id
        obtain ⟨hs'', hr'⟩ := Leads.foldl (fun s w => leads_tell s w) _ _ herase
        exact ⟨hs'', trans_of R hr hr'⟩
      · exact ⟨hs'.putShare id hp, hr⟩

theorem leads_runRoot (s : Schedule σ ω) : Leads R s (s.runRoot plan) := by
  intro hs
  have hready : Obeys R { s with rootReady := false } := ⟨hs.root, hs.tasks, hs.shares, hs.jobs⟩
  obtain ⟨hp, hs', hr⟩ := parks_resume hplan (fun id s => leads_pump hplan shareDepth id s) .root s.root
    { s with rootReady := false } hs.root hready
  exact ⟨⟨hp, hs'.tasks, hs'.shares, hs'.jobs⟩, hr⟩

theorem leads_runTask (s : Schedule σ ω) (id : Nat) : Leads R s (s.runTask plan id) := by
  intro hs
  unfold runTask
  cases htask : s.tasks.at? id with
  | none => exact ⟨hs, refl_of R _⟩
  | some parked =>
    have hrun : Obeys R { s with running := some id, again := false } := ⟨hs.root, hs.tasks, hs.shares, hs.jobs⟩
    obtain ⟨hp, hs', hr⟩ := parks_resume hplan (fun id s => leads_pump hplan shareDepth id s) (.task id) parked
      { s with running := some id, again := false } (hs.tasks id parked htask) hrun
    dsimp only
    split
    · generalize (resume plan (Schedule.pump plan shareDepth) (.task id) parked
        { s with running := some id, again := false }).2 = s₁ at hs' hr ⊢
      have herase : Obeys R
          { s₁ with running := none, tasks := s₁.tasks.erase id, joiners := s₁.joiners.erase id } :=
        ⟨hs'.root, hs'.eraseTask id, hs'.shares, hs'.jobs⟩
      cases s₁.joiners.at? id with
      | none => exact ⟨herase, hr⟩
      | some waker =>
        obtain ⟨hs'', hr'⟩ := leads_tell _ waker herase
        exact ⟨hs'', trans_of R hr hr'⟩
    · exact ⟨⟨hs'.root, hs'.putTask id hp, hs'.shares, hs'.jobs⟩, hr⟩

theorem leads_runReady (fuel : Nat) (s : Schedule σ ω) : Leads R s (s.runReady plan fuel) := by
  induction fuel generalizing s with
  | zero => exact Leads.refl R s
  | succ fuel ih =>
    unfold runReady
    cases s.ready with
    | nil => exact Leads.refl R s
    | cons id ready =>
      have hready : Leads R s { s with ready := ready } :=
        fun hs => ⟨⟨hs.root, hs.tasks, hs.shares, hs.jobs⟩, refl_of R _⟩
      exact hready.trans ((leads_runTask hplan _ id).trans (ih _))

theorem leads_runJob {job : Job σ} {rest : List (Job σ)} (hjobs : s.jobs = job :: rest) :
    Leads R s (s.runJob plan job rest) := by
  intro hs
  have hrest : Obeys R { s with jobs := rest } :=
    ⟨hs.root, hs.tasks, hs.shares, fun j hj => hs.jobs j (hjobs ▸ List.mem_cons_of_mem _ hj)⟩
  have hdone : Leads R { s with jobs := rest } ({ s with jobs := rest }.adopt plan (job.run s.state)) :=
    (leads_adopt (s := { s with jobs := rest }) hplan (hs.jobs job (hjobs ▸ List.mem_cons_self ..) s.state)).1
  unfold runJob
  generalize { s with jobs := rest }.adopt plan (job.run s.state) = s₁ at hdone
  refine hdone.trans ?_ hrest
  refine Leads.trans ?_ (leads_tell _ job.waker)
  split
  · exact fun hs => ⟨⟨hs.root, hs.tasks, hs.shares, hs.jobs⟩, refl_of R _⟩
  · next ticket waker queue _ =>
    refine Leads.trans (b := { s₁ with queue := queue, granted := s₁.granted ++ [ticket] }) ?_ (leads_tell _ waker)
    exact fun hs => ⟨⟨hs.root, hs.tasks, hs.shares, hs.jobs⟩, refl_of R _⟩

omit hplan in
theorem leads_advance (h : s.advance? = some s') : Leads R s s' := by
  obtain ⟨tick, -, rfl⟩ := Option.map_eq_some_iff.1 h
  refine Leads.trans (b := { s with now := _, timers := _ }) ?_ (Leads.foldl (fun s (t : Timer) => leads_tell s t.waker) _ _)
  exact fun hs => ⟨⟨hs.root, hs.tasks, hs.shares, hs.jobs⟩, refl_of R _⟩

theorem leads_stir (h : s.stir? plan = some s') : Leads R s s' := by
  unfold stir? at h
  split at h
  · obtain rfl := Option.some.inj h
    refine Leads.trans (b := { s with resting := [] }) ?_ (Leads.foldl leads_tell _ _)
    exact fun hs => ⟨⟨hs.root, hs.tasks, hs.shares, hs.jobs⟩, refl_of R _⟩
  · split at h
    · obtain rfl := Option.some.inj h
      exact Leads.refl R s
    · split at h
      · next job rest hjobs =>
        obtain rfl := Option.some.inj h
        exact leads_runJob hplan hjobs
      · cases h

theorem leads_runToEnd (fuel : Nat) (s : Schedule σ ω) : Leads R s (s.runToEnd plan fuel) := by
  induction fuel generalizing s with
  | zero => exact Leads.refl R s
  | succ fuel ih =>
    have hroot : Leads R s (if s.rootReady then s.runRoot plan else s) := by
      split
      · exact leads_runRoot hplan s
      · exact Leads.refl R s
    unfold runToEnd
    dsimp only
    generalize (if s.rootReady then s.runRoot plan else s) = s₁ at hroot ⊢
    refine hroot.trans ?_
    split
    · exact Leads.refl R s₁
    · refine (leads_runReady hplan fuel s₁).trans ?_
      generalize s₁.runReady plan fuel = s₂
      cases hstir : s₂.stir? plan with
      | some s₃ => exact (leads_stir hplan hstir).trans (ih s₃)
      | none =>
        dsimp only [Option.orElse]
        cases hnext : s₂.advance? with
        | some s₃ => exact (leads_advance hnext).trans (ih s₃)
        | none => exact Leads.refl R s₂

theorem leads_settle (fuel : Nat) (s : Schedule σ ω) : Leads R s (s.settle plan fuel) := by
  induction fuel generalizing s with
  | zero => exact Leads.refl R s
  | succ fuel ih =>
    unfold settle
    dsimp only
    refine (leads_runReady hplan fuel s).trans ?_
    generalize s.runReady plan fuel = s₁
    cases hstir : s₁.stir? plan with
    | some s₂ => exact (leads_stir hplan hstir).trans (ih s₂)
    | none => exact Leads.refl R s₁

/-- A computation that obeys a relation is run by changes within it, whatever else there is to run. -/
theorem leads_run {x : Async σ ω α} (hx : x.Obeys R) (s : Schedule σ ω) : Leads R s (s.run plan x) := by
  have hroot : Leads R s { s with root := .fresh x.fiber, rootReady := true } :=
    fun hs => ⟨⟨fun s' _ => Async.obeys_fiber hx s', hs.tasks, hs.shares, hs.jobs⟩, refl_of R _⟩
  exact hroot.trans ((leads_runToEnd hplan rounds _).trans (leads_settle hplan rounds _))

end

end Schedule

end ScriptVault
