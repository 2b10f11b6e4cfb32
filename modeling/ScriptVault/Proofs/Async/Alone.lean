import Mathlib.Tactic.Set
import ScriptVault.Async.Schedule
import ScriptVault.Failure

/-!
# Alone — a computation that runs while nothing else does

A computation that is run when nothing else can run goes on step by step, and where it waits for shared work that only
needs a worker, the worker does its job and it goes on.  So it ends, and what it ends with is told by its steps.  What it
does before it waits at all is the same however fibers are run.
-/

namespace ScriptVault

variable {σ ω α β : Type}

/-! ### What is done at once -/

/-- A fiber goes on at once, starting nothing, until another fiber is left to run in another state. -/
inductive Fiber.Runs (plan : Plan σ ω) : Fiber σ ω → σ → Fiber σ ω → σ → Prop
  | refl (fiber : Fiber σ ω) (h : σ) : Runs plan fiber h fiber h
  | look {next : σ → Fiber σ ω} {fiber : Fiber σ ω} {h h' : σ} :
    Runs plan (next h) h fiber h' → Runs plan (.look next) h fiber h'
  | leave {state : σ} {next fiber : Fiber σ ω} {h h' : σ} : plan.collect state = ([], state) →
    Runs plan next state fiber h' → Runs plan (.leave state next) h fiber h'

theorem Fiber.Runs.trans {plan : Plan σ ω} {f f' f'' : Fiber σ ω} {h h' h'' : σ} (a : f.Runs plan h f' h')
    (b : f'.Runs plan h' f'' h'') : f.Runs plan h f'' h'' := by
  induction a with
  | refl => exact b
  | look _ ih => exact .look (ih b)
  | leave hc _ ih => exact .leave hc (ih b)

namespace Async

/-- At once, starting nothing, a computation gives a result in a state, as `Q` says. -/
def Gives (plan : Plan σ ω) (x : Async σ ω α) (h : σ) (Q : α → σ → Prop) : Prop :=
  ∃ a h', Q a h' ∧ ∀ k, (x k).Runs plan h (k a) h'

variable {plan : Plan σ ω} {h : σ} {P Q : α → σ → Prop}

theorem gives_pure {a : α} (hq : Q a h) : Gives plan (pure a : Async σ ω α) h Q := ⟨a, h, hq, fun _ => .refl _ h⟩

theorem gives_bind {x : Async σ ω α} {f : α → Async σ ω β} {Q : β → σ → Prop} (hx : x.Gives plan h P)
    (hf : ∀ a h', P a h' → (f a).Gives plan h' Q) : (x >>= f).Gives plan h Q := by
  obtain ⟨a, h', hp, hrun⟩ := hx
  obtain ⟨b, h'', hq, hrun'⟩ := hf a h' hp
  exact ⟨b, h'', hq, fun k => (hrun fun a => f a k).trans (hrun' k)⟩

theorem gives_view {f : σ → α} (hq : Q (f h) h) : Gives plan (view f : Async σ ω α) h Q :=
  ⟨f h, h, hq, fun _ => .look (.refl _ h)⟩

theorem gives_step {f : σ → α × σ} (hc : plan.collect (f h).2 = ([], (f h).2)) (hq : Q (f h).1 (f h).2) :
    Gives plan (step f : Async σ ω α) h Q := ⟨_, _, hq, fun _ => .look (.leave hc (.refl ..))⟩

theorem gives_change {f : σ → σ} {Q : Unit → σ → Prop} (hc : plan.collect (f h) = ([], f h)) (hq : Q () (f h)) :
    Gives plan (change f : Async σ ω Unit) h Q := ⟨_, _, hq, fun _ => .look (.leave hc (.refl ..))⟩

theorem gives_act {x : StateT σ Option α} {a : α} {h' : σ} (hx : x h = some (a, h'))
    (hc : plan.collect h' = ([], h')) (hq : Q a h') : Gives plan (act x : Async σ ω α) h Q := by
  refine ⟨a, h', hq, fun k => .look ?_⟩
  rw [hx]
  exact .leave hc (.refl ..)

theorem gives_lift {x : Async σ ω α} {P : Except Failure α → σ → Prop} (hx : x.Gives plan h fun a h' => P (.ok a) h') :
    (ExceptT.lift x : ExceptT Failure (Async σ ω) α).run.Gives plan h P := by
  show Gives plan (Except.ok <$> x) h P
  rw [← bind_pure_comp]
  exact gives_bind hx fun _ _ ha => gives_pure ha

/-- What may fail goes on after what succeeds at once. -/
theorem gives_then {x : ExceptT Failure (Async σ ω) α} {f : α → ExceptT Failure (Async σ ω) β} {a : α} {t : σ}
    {Q : Except Failure β → σ → Prop} (hx : x.run.Gives plan h fun r h' => r = .ok a ∧ h' = t)
    (hf : (f a).run.Gives plan t Q) : (x >>= f).run.Gives plan h Q := by
  show Gives plan (x.run >>= ExceptT.bindCont f) h Q
  refine gives_bind hx ?_
  rintro _ _ ⟨rfl, rfl⟩
  exact hf

theorem adopt_of_none {state : σ} (hc : plan.collect state = ([], state)) (s : Schedule σ ω) :
    s.adopt plan state = { s with state := state } := by
  unfold Schedule.adopt
  rw [hc]
  rfl

end Async

namespace Schedule

/-- What is done at once is done by whoever is run. -/
theorem drive_of_runs {plan : Plan σ ω} {pump : Nat → Schedule σ ω → Schedule σ ω} {waker : Waker} {f f' : Fiber σ ω}
    {s : Schedule σ ω} {h' : σ} (hr : f.Runs plan s.state f' h') :
    drive plan pump waker f s = drive plan pump waker f' { s with state := h' } := by
  generalize hs : s.state = h at hr
  induction hr generalizing s with
  | refl => rw [← hs]
  | look _ ih => subst hs; exact ih rfl
  | @leave state next _ _ _ hc _ ih =>
    show drive plan pump waker next (s.adopt plan state) = _
    rw [Async.adopt_of_none hc]
    exact ih (s := { s with state := state }) rfl

variable (plan : Plan σ ω)

/-- What comes of a schedule whose root has run as far as it could, in at most `fuel` further rounds. -/
def onward (fuel : Nat) (s : Schedule σ ω) : Schedule σ ω :=
  if s.root.isFinished then s
  else
    let s := s.runReady plan fuel
    match (s.stir? plan).orElse fun _ => s.advance? with
    | some s => runToEnd plan fuel s
    | none => s

/-- What comes of a schedule whose root goes on with a fiber, in at most `fuel` further rounds. -/
def goOn (fuel : Nat) (fiber : Fiber σ ω) (s : Schedule σ ω) : Schedule σ ω :=
  let (root, s) := drive plan (pump plan shareDepth) .root fiber s
  onward plan fuel { s with root := root }

theorem runToEnd_fresh (fuel : Nat) (fiber : Fiber σ ω) (s : Schedule σ ω) :
    runToEnd plan (fuel + 1) { s with root := .fresh fiber, rootReady := true } =
      goOn plan fuel fiber { s with root := .fresh fiber, rootReady := false } := rfl

/-- A root that goes on with one fiber comes to go on with another one, after some rounds at most. -/
def Turns (rounds : Nat) (fiber : Fiber σ ω) (s : Schedule σ ω) (fiber' : Fiber σ ω) (s' : Schedule σ ω) : Prop :=
  ∃ n ≤ rounds, ∀ fuel, goOn plan (fuel + n) fiber s = goOn plan fuel fiber' s'

variable {plan}

theorem Turns.trans {m n : Nat} {f f' f'' : Fiber σ ω} {s s' s'' : Schedule σ ω} (a : Turns plan m f s f' s')
    (b : Turns plan n f' s' f'' s'') : Turns plan (m + n) f s f'' s'' := by
  obtain ⟨i, hi, ha⟩ := a
  obtain ⟨j, hj, hb⟩ := b
  refine ⟨i + j, Nat.add_le_add hi hj, fun fuel => ?_⟩
  rw [show fuel + (i + j) = fuel + j + i by omega, ha, hb]

theorem turns_of_drive {f f' : Fiber σ ω} {s s' : Schedule σ ω}
    (h : drive plan (pump plan shareDepth) .root f s = drive plan (pump plan shareDepth) .root f' s') :
    Turns plan 0 f s f' s' := by
  refine ⟨0, Nat.le_refl 0, fun fuel => ?_⟩
  unfold goOn
  rw [Nat.add_zero, h]

/-- Nothing can run: no task, and no worker has a job. -/
structure Still (s : Schedule σ ω) : Prop where
  /-- No task can go on. -/
  ready : s.ready = []
  /-- Nobody lets others go first. -/
  resting : s.resting = []
  /-- No worker has a job. -/
  jobs : s.jobs = []
  /-- Nobody waits for a worker. -/
  queue : s.queue = []
  /-- There is a worker. -/
  workers : s.workers ≠ 0

theorem Still.withState {s : Schedule σ ω} (h : s.Still) (state : σ) : Still { s with state := state } :=
  ⟨h.ready, h.resting, h.jobs, h.queue, h.workers⟩

theorem runReady_nil {s : Schedule σ ω} (h : s.ready = []) (fuel : Nat) : s.runReady plan fuel = s := by
  cases fuel with
  | zero => rfl
  | succ fuel =>
    unfold runReady
    rw [h]

theorem stir?_still {s : Schedule σ ω} (h : s.Still) (hroot : (s.rootReady && !s.root.isFinished) = false) :
    s.stir? plan = none := by
  unfold stir?
  rw [h.resting, hroot, h.jobs]
  rfl

theorem settle_still {s : Schedule σ ω} (h : s.Still) (hroot : s.root.isFinished = true) (fuel : Nat) :
    s.settle plan fuel = s := by
  cases fuel with
  | zero => rfl
  | succ fuel =>
    unfold settle
    dsimp only
    rw [runReady_nil h.ready, stir?_still h (by rw [hroot, Bool.not_true, Bool.and_false])]

end Schedule

namespace Async

open Schedule

variable (plan : Plan σ ω)

/-- Run as the root while nothing else runs, a computation ends after some rounds at most, with a result and in a
schedule as `Q` says. -/
def Ends (rounds : Nat) (x : Async σ ω α) (s : Schedule σ ω) (Q : α → Schedule σ ω → Prop) : Prop :=
  ∀ k, ∃ a s', Q a s' ∧ Turns plan rounds (x k) s (k a) s'

variable {plan} {s : Schedule σ ω} {h : σ} {n : Nat}

theorem Ends.mono {x : Async σ ω α} {m : Nat} {P Q : α → Schedule σ ω → Prop} (hx : x.Ends plan m s P) (hm : m ≤ n)
    (hpq : ∀ a s', P a s' → Q a s') : x.Ends plan n s Q := by
  intro k
  obtain ⟨a, s', hp, i, hi, ht⟩ := hx k
  exact ⟨a, s', hpq a s' hp, i, Nat.le_trans hi hm, ht⟩

/-- What is given at once is what it ends with. -/
theorem Gives.ends {x : Async σ ω α} {Q : α → Schedule σ ω → Prop}
    (hx : x.Gives plan s.state fun a h' => Q a { s with state := h' }) : Ends plan 0 x s Q := by
  obtain ⟨a, h', hq, hrun⟩ := hx
  exact fun k => ⟨a, _, hq, turns_of_drive (drive_of_runs (hrun k))⟩

theorem ends_pure {a : α} {Q : α → Schedule σ ω → Prop} (hq : Q a s) : Ends plan n (pure a : Async σ ω α) s Q :=
  fun _ => ⟨a, s, hq, 0, Nat.zero_le n, fun _ => rfl⟩

theorem ends_bind {x : Async σ ω α} {f : α → Async σ ω β} {m : Nat} {P : α → Schedule σ ω → Prop}
    {Q : β → Schedule σ ω → Prop} (hx : x.Ends plan m s P) (hf : ∀ a s', P a s' → (f a).Ends plan n s' Q) :
    (x >>= f).Ends plan (m + n) s Q := by
  intro k
  obtain ⟨a, s', hp, hxt⟩ := hx fun a => f a k
  obtain ⟨b, s'', hq, hft⟩ := hf a s' hp k
  exact ⟨b, s'', hq, hxt.trans hft⟩

theorem ends_view {f : σ → α} {Q : α → Schedule σ ω → Prop} (hq : Q (f s.state) s) :
    Ends plan 0 (view f : Async σ ω α) s Q := fun _ => ⟨f s.state, s, hq, turns_of_drive rfl⟩

theorem ends_step {f : σ → α × σ} {Q : α → Schedule σ ω → Prop}
    (hq : Q (f s.state).1 (s.adopt plan (f s.state).2)) : Ends plan 0 (step f : Async σ ω α) s Q :=
  fun _ => ⟨_, _, hq, turns_of_drive rfl⟩

theorem ends_change {f : σ → σ} {Q : Unit → Schedule σ ω → Prop} (hq : Q () (s.adopt plan (f s.state))) :
    Ends plan 0 (change f : Async σ ω Unit) s Q := fun _ => ⟨_, _, hq, turns_of_drive rfl⟩

theorem ends_consult {Q : Unit → Schedule σ ω → Prop} (hq : Q () s) : Ends plan 0 (consult : Async σ ω Unit) s Q :=
  fun _ => ⟨_, _, hq, turns_of_drive rfl⟩

theorem ends_act {x : StateT σ Option α} {a : α} {state : σ} {Q : α → Schedule σ ω → Prop}
    (hx : x s.state = some (a, state)) (hq : Q a (s.adopt plan state)) : Ends plan 0 (act x : Async σ ω α) s Q := by
  intro k
  refine ⟨a, _, hq, turns_of_drive ?_⟩
  simp only [drive, act, hx]

/-- Work that has ended is not waited for. -/
theorem ends_await {id : Nat} {Q : Unit → Schedule σ ω → Prop} (hid : s.shares.at? id = none) (hq : Q () s) :
    Ends plan 0 (await id : Async σ ω Unit) s Q := by
  intro k
  refine ⟨(), s, hq, turns_of_drive ?_⟩
  show drive plan _ _ (.await id (k ())) s = _
  simp only [drive, visit, hid]

/-- What may fail goes on only where it has not failed. -/
theorem ends_except {x : ExceptT Failure (Async σ ω) α} {f : α → ExceptT Failure (Async σ ω) β} {m : Nat}
    {P : Except Failure α → Schedule σ ω → Prop} {Q : Except Failure β → Schedule σ ω → Prop}
    (hx : x.run.Ends plan m s P) (hok : ∀ a s', P (.ok a) s' → (f a).run.Ends plan n s' Q)
    (herror : ∀ e s', P (.error e) s' → Q (.error e) s') : (x >>= f).run.Ends plan (m + n) s Q := by
  show Ends plan (m + n) (x.run >>= ExceptT.bindCont f) s Q
  refine ends_bind hx fun r s' hr => ?_
  cases r with
  | ok a => exact hok a s' hr
  | error e => exact ends_pure (herror e s' hr)

theorem ends_lift {x : Async σ ω α} {P : Except Failure α → Schedule σ ω → Prop}
    (hx : x.Ends plan n s fun a s' => P (.ok a) s') : (ExceptT.lift x : ExceptT Failure (Async σ ω) α).run.Ends plan n s P := by
  show Ends plan n (Except.ok <$> x) s P
  rw [← bind_pure_comp]
  exact ends_bind (n := 0) hx fun _ _ ha => ends_pure ha

/-- What may fail goes on after what does not wait and succeeds. -/
theorem ends_then {x : ExceptT Failure (Async σ ω) α} {f : α → ExceptT Failure (Async σ ω) β} {a : α}
    {t : Schedule σ ω} {Q : Except Failure β → Schedule σ ω → Prop}
    (hx : x.run.Ends plan 0 s fun r s' => r = .ok a ∧ s' = t) (hf : (f a).run.Ends plan n t Q) :
    (x >>= f).run.Ends plan n s Q := by
  refine (ends_except hx (fun b t hb => ?_) fun e t he => nomatch he.1).mono (Nat.le_of_eq (Nat.zero_add n)) fun _ _ hq => hq
  obtain ⟨hb, rfl⟩ := hb
  obtain rfl := Except.ok.inj hb
  exact hf

/-- A run of what ends is what comes of it, and then all that can go on. -/
theorem run_of_ends {x : Async σ ω α} {Q : α → Schedule σ ω → Prop} (hn : n < rounds)
    (hx : x.Ends plan n { s with root := .fresh x.fiber, rootReady := false } Q) :
    ∃ a s', Q a s' ∧ s.run plan x = ({ s' with root := .finished }).settle plan rounds := by
  obtain ⟨a, s', hq, i, hi, ht⟩ := hx fun _ => .done
  refine ⟨a, s', hq, ?_⟩
  have hrounds : rounds = (rounds - 1 - i + i) + 1 := by omega
  have hend (fuel : Nat) : goOn plan fuel .done s' = { s' with root := .finished } := rfl
  have hrun : ({ s with root := .fresh x.fiber, rootReady := true } : Schedule σ ω).runToEnd plan rounds =
      { s' with root := .finished } := by
    rw [hrounds, runToEnd_fresh, ← hend (rounds - 1 - i), ← ht]
    rfl
  show (({ s with root := .fresh x.fiber, rootReady := true } : Schedule σ ω).runToEnd plan rounds).settle plan rounds = _
  rw [hrun]

/-! ### Waiting for a worker -/

/-- A schedule whose root waits for shared work, and the work for a worker that has its job. -/
def begun (s : Schedule σ ω) (id : Nat) (job : σ → σ) (root : Parked σ ω) : Schedule σ ω :=
  { s with
    root := root
    next := s.next + 1
    workers := s.workers - 1
    jobs := [⟨s.next, job, .share id⟩]
    shares := s.shares.put id { work := .working s.next .done, slots := [some .root] } }

/-- A schedule whose root was told that the shared work can go on, as the worker has done its job. -/
def worked (s : Schedule σ ω) (id : Nat) (job : σ → σ) (root : Parked σ ω) : Schedule σ ω :=
  { s with
    state := job s.state
    root := root
    rootReady := true
    next := s.next + 1
    workers := s.workers - 1 + 1
    jobs := []
    shares := s.shares.put id { work := .working s.next .done, slots := [none] } }

theorem put_put {κ γ : Type} [DecidableEq κ] (t : Table κ γ) (key : κ) (v w : γ) :
    (t.put key v).put key w = t.put key w := by
  induction t with
  | nil => simp [Table.put]
  | cons b t ih =>
    obtain ⟨k, u⟩ := b
    by_cases hk : k = key
    · simp [Table.put, hk]
    · simp [Table.put, hk, ih]

theorem length_put {κ γ : Type} [DecidableEq κ] (t : Table κ γ) (key : κ) (v : γ) : (t.put key v).length ≠ 0 := by
  cases t with
  | nil => simp [Table.put]
  | cons b t =>
    unfold Table.put
    split <;> simp

theorem drive_begun {id : Nat} {work : ω} {job : σ → σ} (hwork : plan.perform id work = .offload job .done)
    (hstill : s.Still) (next : Fiber σ ω) :
    drive plan (pump plan shareDepth) .root (.share id work (.await id next)) s =
      (.awaiting id 0 next, begun s id job s.root) := by
  obtain ⟨depth, hdepth⟩ : ∃ depth, shareDepth = depth + 1 := ⟨99999, rfl⟩
  rw [hdepth]
  simp only [drive, visit, pump, enter, resume, hwork, Table.at?_put_same, put_put, employ, hstill.workers,
    if_false, Bool.false_eq_true, Option.isSome_some, if_true, List.nil_append, List.length_nil, hstill.jobs,
    Option.map_some, Option.getD_some, Parked.isFinished]
  rfl

theorem stir_begun {id : Nat} {job : σ → σ} (hstill : s.Still) (hready : s.rootReady = false)
    (hc : plan.collect (job s.state) = ([], job s.state)) (root : Parked σ ω) :
    (begun s id job root).stir? plan = some (worked s id job root) := by
  obtain ⟨d, hd⟩ : ∃ d, (s.shares.put id { work := .working s.next .done, slots := [some .root] }).length = d + 1 :=
    Nat.exists_eq_succ_of_ne_zero (length_put _ _ _)
  unfold stir?
  simp only [begun, hstill.resting, hready, List.isEmpty_nil, Bool.not_true, Bool.false_eq_true, if_false,
    Bool.false_and, runJob]
  rw [adopt_of_none hc]
  simp only [hstill.queue, Schedule.tell, hd, wake, Table.at?_put_same, put_put, List.map_cons, List.map_nil,
    List.filterMap_cons, List.filterMap_nil, List.foldl_cons, List.foldl_nil]
  cases d <;> simp only [worked, hstill.resting, hstill.queue]

theorem erase_put {κ γ : Type} [DecidableEq κ] (t : Table κ γ) (key : κ) (v : γ) :
    (t.put key v).erase key = t.erase key := by
  induction t with
  | nil => simp [Table.put, Table.erase]
  | cons b t ih =>
    obtain ⟨k, u⟩ := b
    by_cases hk : k = key
    · simp [Table.put, Table.erase, hk]
    · simpa [Table.put, Table.erase, hk] using ih

/-- Shared work that waits for a job that is done ends when it is run. -/
theorem pump_worked {id ticket depth : Nat} {s : Schedule σ ω} (hjobs : s.jobs = [])
    (hid : s.shares.at? id = some { work := .working ticket .done, slots := [some .root] }) :
    pump plan (depth + 1) id s = { s with shares := s.shares.erase id, rootReady := true } := by
  unfold pump
  rw [hid]
  simp only [resume, drive, hjobs, List.any_nil, Bool.false_eq_true, if_false, Table.at?_put_same, erase_put,
    Option.map_some, Option.getD_some, Parked.isFinished, if_true, List.filterMap_cons, List.filterMap_nil,
    List.foldl_cons, List.foldl_nil, Schedule.tell, wake]

theorem resume_worked (id : Nat) (job : σ → σ) (next : Fiber σ ω) (root : Parked σ ω) :
    resume plan (pump plan shareDepth) .root (.awaiting id 0 next) { worked s id job root with rootReady := false } =
      drive plan (pump plan shareDepth) .root next { worked s id job root with shares := s.shares.erase id } := by
  have hpump : pump plan (99999 + 1) id { worked s id job root with
      rootReady := false
      shares := s.shares.put id { work := .working s.next .done, slots := [some .root] } } = _ :=
    pump_worked rfl (Table.at?_put_same ..)
  have hvisit : visit (pump plan shareDepth) id (some 0) .root { worked s id job root with rootReady := false } =
      (none, { worked s id job root with shares := s.shares.erase id }) := by
    unfold visit
    simp only [worked, Table.at?_put_same, enter, put_put, List.set_cons_zero, Bool.false_eq_true, if_false]
    rw [show shareDepth = 99999 + 1 from rfl]
    simp only [worked] at hpump
    rw [hpump]
    simp only [erase_put, Table.at?_erase_same, Option.isSome_none, Bool.false_eq_true, if_false]
  unfold resume
  rw [hvisit]

/-- Shared work that only needs a worker ends when it is waited for while nothing else can run. -/
theorem ends_shared {id : Nat} {work : ω} {job : σ → σ} (hwork : plan.perform id work = .offload job .done)
    (hstill : s.Still) (hready : s.rootReady = false) (hc : plan.collect (job s.state) = ([], job s.state)) :
    Ends plan 1 (do share id work; await id) s fun _ s' =>
      s'.Still ∧ s'.state = job s.state ∧ s'.shares = s.shares.erase id := by
  intro k
  set root : Parked σ ω := .awaiting id 0 (k ()) with hroot
  refine ⟨(), { worked s id job root with shares := s.shares.erase id },
    ⟨⟨hstill.ready, hstill.resting, rfl, hstill.queue, Nat.succ_ne_zero _⟩, rfl, rfl⟩, 1, Nat.le_refl 1, fun fuel => ?_⟩
  calc goOn plan (fuel + 1) (.share id work (.await id (k ()))) s
      = onward plan (fuel + 1) (begun s id job root) := by
        unfold goOn
        rw [drive_begun hwork hstill]
        rfl
    _ = runToEnd plan (fuel + 1) (worked s id job root) := by
        have hquiet : (begun s id job root).runReady plan (fuel + 1) = begun s id job root :=
          runReady_nil (show (begun s id job root).ready = [] from hstill.ready) (fuel + 1)
        unfold onward
        rw [hquiet]
        dsimp only
        rw [stir_begun hstill hready hc root]
        rfl
    _ = onward plan fuel (runRoot plan (worked s id job root)) := rfl
    _ = goOn plan fuel (k ()) { worked s id job root with shares := s.shares.erase id } := by
        show onward plan fuel (match resume plan (pump plan shareDepth) .root (.awaiting id 0 (k ()))
          { worked s id job root with rootReady := false } with | (root, s) => { s with root := root }) = _
        rw [resume_worked]
        rfl

end Async

end ScriptVault
