import ScriptVault.Proofs.Host.Obey
import ScriptVault.Proofs.Host.Reach

/-!
# Program — all that a host does is made of moves

Loading at once, loading that may wait, startup modules and changed settings: each of them comes to another host
by moves alone, whatever others do while it waits.  Of what may wait nothing else is used than how it is put together,
so whatever holds of changes and waits, and of what is put together from them, holds of all that a host does.
-/

namespace ScriptVault

/-- A property of computations that holds of those that change hosts as a relation allows, of those that wait, and of
those that are put together from computations with it. -/
structure Composes (R : Host → Host → Prop) (P : (α : Type) → Async Host Work α → Prop) : Prop where
  /-- It holds of a result. -/
  pure : ∀ {α : Type} (a : α), P α (pure a)
  /-- It holds of two computations, one after the other. -/
  bind : ∀ {α β : Type} {x : Async Host Work α} {f : α → Async Host Work β}, P α x → (∀ a, P β (f a)) → P β (x >>= f)
  /-- It holds of a look. -/
  view : ∀ {α : Type} (f : Host → α), P α (Async.view f)
  /-- It holds of a change that the relation allows. -/
  step : ∀ {α : Type} {f : Host → α × Host}, (∀ h, R h (f h).2) → P α (Async.step f)
  /-- It holds of a job for a worker. -/
  offload : ∀ {job : Host → Host}, (∀ h, R h (job h)) → P Unit (Async.offload job)
  /-- It holds of shared work that is numbered. -/
  share : ∀ (id : Nat) (work : Work), P Unit (Async.share id work)
  /-- It holds of a wait for shared work. -/
  await : ∀ id : Nat, P Unit (Async.await id)
  /-- It holds of a task that is started. -/
  spawn : ∀ (id : Nat) (work : Work), P Unit (Async.spawn id work)
  /-- It holds of a wait for a task. -/
  join : ∀ (id : Nat) (limit : Option Nat), P Bool (Async.join id limit)
  /-- It holds of a wait for the clock. -/
  sleep : ∀ nanos : Nat, P Unit (Async.sleep nanos)
  /-- It holds of a wait for all others. -/
  rest : P Unit Async.rest
  /-- It holds of a wait for somebody outside. -/
  consult : P Unit Async.consult

/-- Work that no load of startup modules is. -/
def Work.Ordinary : Work → Prop
  | .reloading _ _ => False
  | .starting _ _ => False
  | _ => True

/-- Any work. -/
def Work.Any (_ : Work) : Prop := True

/-- A property of computations that holds of those that change hosts as a relation allows, of those that wait, and of
those that are put together from computations with it, be it side by side or with more entries on the stacks of a loader;
and of those that begin any work but loads of startup modules. -/
structure Pervades (R : Host → Host → Prop) (P : (α : Type) → Async Host Work α → Prop) : Prop where
  /-- It holds of a result. -/
  pure : ∀ {α : Type} (a : α), P α (pure a)
  /-- It holds of two computations, one after the other. -/
  bind : ∀ {α β : Type} {x : Async Host Work α} {f : α → Async Host Work β}, P α x → (∀ a, P β (f a)) → P β (x >>= f)
  /-- It holds of a look. -/
  view : ∀ {α : Type} (f : Host → α), P α (Async.view f)
  /-- It holds of a change that the relation allows. -/
  step : ∀ {α : Type} {f : Host → α × Host}, (∀ h, R h (f h).2) → P α (Async.step f)
  /-- It holds of a job for a worker. -/
  offload : ∀ {job : Host → Host}, (∀ h, R h (job h)) → P Unit (Async.offload job)
  /-- It holds of shared work that is numbered. -/
  share : ∀ (id : Nat) {work : Work}, work.Ordinary → P Unit (Async.share id work)
  /-- It holds of a wait for shared work. -/
  await : ∀ id : Nat, P Unit (Async.await id)
  /-- It holds of a task that is started. -/
  spawn : ∀ (id : Nat) {work : Work}, work.Ordinary → P Unit (Async.spawn id work)
  /-- It holds of a wait for a task. -/
  join : ∀ (id : Nat) (limit : Option Nat), P Bool (Async.join id limit)
  /-- It holds of a wait for the clock. -/
  sleep : ∀ nanos : Nat, P Unit (Async.sleep nanos)
  /-- It holds of a wait for all others. -/
  rest : P Unit Async.rest
  /-- It holds of a wait for somebody outside. -/
  consult : P Unit Async.consult
  /-- It holds of computations side by side. -/
  all : ∀ {xs : List (Async Host Work Unit)}, (∀ x ∈ xs, P Unit x) → P Unit (Async.all xs)
  /-- It holds of what is done at once with an answer, and changes hosts as the relation allows. -/
  act : ∀ {α : Type} {x : StateT Host Option α}, (∀ h, ∃ a h', x h = some (a, h') ∧ R h h') → P α (Async.act x)
  /-- It holds of what is done with entries on the stacks of a loader. -/
  within : ∀ {α : Type} (l : Nat) (cwds : List (Option String)) (parents : List String) {x : Async Host Work α},
    P α x → P α (Host.withinLater l cwds parents x)

/-- An evaluator that by itself changes only the heap, in which it gives up no place: all else that it does is to load
other modules, and with modules of its own to wait. -/
def Evaluator.Nests (ev : Evaluator) : Prop :=
  ∀ R : Host → Host → Prop, IsPreorder Host R →
    (∀ h heap, h.heap.records.size ≤ heap.records.size → R h { h with heap := heap }) →
    ∀ load : String → Action Value, (∀ id, (load id).Obeys R) →
      (∀ scope, (ev.runScript load scope).Obeys R) ∧
      ∀ P : (α : Type) → Async Host Work α → Prop, Composes R P →
        (∀ {α : Type} (x : Action α), x.Obeys R → P _ (Async.act x.run)) →
        ∀ source, P _ (ev.runModule load source).run

/-- A property of computations that holds of those that wait for the clock, and of what is put together from computations
with it. -/
structure Waits (P : (α : Type) → Async Host Work α → Prop) : Prop where
  /-- It holds of a result. -/
  pure : ∀ {α : Type} (a : α), P α (pure a)
  /-- It holds of two computations, one after the other. -/
  bind : ∀ {α β : Type} {x : Async Host Work α} {f : α → Async Host Work β}, P α x → (∀ a, P β (f a)) → P β (x >>= f)
  /-- It holds of a wait for the clock. -/
  sleep : ∀ nanos : Nat, P Unit (Async.sleep nanos)

/-- An evaluator that by itself changes only the heap, in which it gives up no place: all else that it does is to load
other modules, and with modules of its own to wait for the clock. -/
def Evaluator.Solitary (ev : Evaluator) : Prop :=
  ∀ R : Host → Host → Prop, IsPreorder Host R →
    (∀ h heap, h.heap.records.size ≤ heap.records.size → R h { h with heap := heap }) →
    ∀ load : String → Action Value, (∀ id, (load id).Obeys R) →
      (∀ scope, (ev.runScript load scope).Obeys R) ∧
      ∀ P : (α : Type) → Async Host Work α → Prop, Waits P →
        (∀ {α : Type} (x : Action α), x.Obeys R → P _ (Async.act x.run)) →
        ∀ source, P _ (ev.runModule load source).run

theorem Evaluator.Solitary.nests {ev : Evaluator} (hev : ev.Solitary) : ev.Nests := by
  intro R hR hheap load hload
  obtain ⟨hscript, hmodule⟩ := hev R hR hheap load hload
  exact ⟨hscript, fun P hP => hmodule P ⟨hP.pure, hP.bind, hP.sleep⟩⟩

theorem composes_obeys {R : Host → Host → Prop} [IsPreorder Host R] :
    Composes R fun α (x : Async Host Work α) => x.Obeys R where
  pure := Async.obeys_pure
  bind := Async.obeys_bind
  view := Async.obeys_view
  step := Async.obeys_step
  offload := Async.obeys_offload
  share := Async.obeys_share
  await := Async.obeys_await
  spawn := Async.obeys_spawn
  join := Async.obeys_join
  sleep := Async.obeys_sleep
  rest := Async.obeys_rest
  consult := Async.obeys_consult

theorem Evaluator.Nests.tame {ev : Evaluator} (hev : ev.Nests) : ev.Tame := by
  intro R hR hheap load hload
  obtain ⟨hscript, hmodule⟩ := hev R hR hheap load hload
  exact ⟨hscript, hmodule _ composes_obeys fun x hx => Async.obeys_act hx⟩

namespace Host

variable {R : Host → Host → Prop}

/-! ### Loading at once -/

section

variable [IsPreorder Host R] (hfiles : ∀ h files, R h { h with files := files })
  (hworkshop : ∀ h workshop, R h { h with workshop := workshop })

omit [IsPreorder Host R] in
include hworkshop in
theorem obeys_scriptOf (source : Source) (given : Option Header) : (scriptOf source given).Obeys R := by
  intro h r h' hr
  cases hr
  exact hworkshop h _

include hworkshop in
theorem obeys_scriptOfNote (source : Source) : (scriptOfNote source).Obeys R := by
  unfold scriptOfNote
  split
  · exact Action.obeys_bind Action.obeys_get fun _ =>
      Action.obeys_bind (obeys_scriptOf hworkshop _ _) fun _ => Action.obeys_pure _
  · exact Action.obeys_pure none

include hfiles hworkshop in
/-- What a specifier stands for is told with no more than changes of what is beside the loaders. -/
theorem obeys_resolving (hnatives : ∀ h natives, R h { h with natives := natives })
    (hremote : ∀ h remote, R h { h with remote := remote }) (id : String) (context : Context) :
    (resolve id context).Obeys R := by
  have hrow : ∀ transpiler ∈ transpilers.row, ∀ source, Action.Obeys R (transpiler source) := by
    intro transpiler hmem source
    rcases List.mem_cons.1 hmem with rfl | hmem
    · exact obeys_scriptOfNote hworkshop source
    · rw [List.mem_singleton.1 hmem]
      exact obeys_scriptOf hworkshop source none
  have hforget : ∀ origin h a h', (transpilers.forget origin).run h = some (a, h') → R h h' := by
    intro origin h a h' hr
    cases hr
    exact hworkshop h _
  refine (closed_atOnce hfiles).firstAnswer fun attempt hmem => ?_
  rcases List.mem_append.1 hmem with hmem | hmem
  · rcases List.mem_cons.1 hmem with rfl | hmem
    · exact Action.obeys_modifyGet fun h => hnatives h _
    · obtain ⟨n, -, rfl⟩ := List.mem_map.1 hmem
      exact (closed_atOnce hfiles).resolve hrow hforget n id context
  · rw [List.mem_singleton.1 hmem]
    intro h r h' hr
    cases hr
    exact hremote h _

end

variable [Permits R]

theorem obeys_resolve (id : String) (context : Context) : (resolve id context).Obeys R :=
  obeys_resolving allows_files allows_workshop allows_natives allows_remote id context

theorem obeys_known (l : Nat) (id : String) (context : Context) (found : Option Resolved) :
    (known l id context found).Obeys R := by
  cases found with
  | none => exact Action.obeys_throw _
  | some resolved =>
    exact Action.obeys_bind (Action.obeys_modify (Permits.inside (.settle l id resolved context) trivial trivial)) fun _ =>
      Action.obeys_pure resolved

theorem obeys_within {α : Type} (l : Nat) (cwds : List (Option String)) (parents : List String) {x : Action α}
    (hx : x.Obeys R) : (within l cwds parents x).Obeys R := by
  intro h r h'' hr
  rw [exec_within] at hr
  obtain ⟨⟨r', h'⟩, hr', hr''⟩ := Option.map_eq_some_iff.1 hr
  cases hr''
  exact Permits.around l cwds parents (hx _ _ _ hr')

theorem allows_close (object : Nat) (h : Host) : R h (close object h).2 := by
  refine allows_rest (beside_close object h) ?_
  unfold close
  split <;> rfl

theorem allows_imported (task : Nat) (interop : Bool) (h : Host) : R h (h.imported task interop).2 := by
  refine allows_rest (beside_imported task interop h) ?_
  unfold imported
  split
  · rfl
  · split <;> rfl

section

variable {ev : Evaluator} (hev : ev.Tame)

include hev

theorem obeys_runScript {load : String → Action Value} (hload : ∀ id, (load id).Obeys R) (l : Nat)
    (resolved : Resolved) (object : Nat) : (runScript ev load l resolved object).Obeys R := by
  have htame := hev R inferInstance allows_heap load hload
  have hrun : (do
      within l [resolved.cwd] [resolved.id] do
        modify fun h => { h with scripts := h.scripts + 1 }
        ev.runScript load (scopeFor (← get) l resolved object)
      modifyGet (close object) : Action Value).Obeys R := by
    refine Action.obeys_bind (obeys_within l _ _ ?_) fun _ => Action.obeys_modifyGet (allows_close object)
    refine Action.obeys_bind (Action.obeys_modify fun h => ?_) fun _ =>
      Action.obeys_bind Action.obeys_get fun h => htame.1 _
    exact allows_rest ⟨rfl, Nat.le_refl _, Nat.le_refl _⟩ rfl
  unfold runScript
  split
  · exact Action.obeys_bind (Action.obeys_result _) fun _ => hrun
  · exact hrun

theorem obeys_require (depth l : Nat) (id : String) (cwd : Option String) :
    (require ev depth l id cwd).Obeys R := by
  induction depth generalizing l id cwd with
  | zero =>
    intro h r h' hr
    cases hr
  | succ depth ih =>
    unfold require
    refine obeys_within l _ _ (Action.obeys_bind Action.obeys_get fun h => ?_)
    refine Action.obeys_bind (Action.obeys_modify (allows_depend l _ id)) fun _ => ?_
    refine Action.obeys_bind (obeys_resolve id _) fun found => ?_
    refine Action.obeys_bind (obeys_known l id _ found) fun resolved => ?_
    refine Action.obeys_bind (Action.obeys_modifyGet (Permits.inside (.claim l resolved) trivial trivial)) fun claimed => ?_
    cases claimed with
    | inl found => exact Action.obeys_result found
    | inr object =>
      refine Action.obeys_tryCatch (obeys_runScript hev (fun id => ih l id none) l resolved object) fun e => ?_
      exact Action.obeys_bind (Action.obeys_modify (Permits.inside (.fail l resolved.id object e) trivial trivial)) fun _ =>
        Action.obeys_throw e

end

theorem allows_callStartup (id : String) (module : Value) (h : Host) : R h (callStartup id module h).2 := by
  refine allows_rest ⟨?_, callStartup_grows id module h, ?_⟩ ?_ <;> unfold callStartup <;> dsimp only
  · split <;> rfl
  · split <;> exact Nat.le_refl _
  · split <;> rfl

end Host

/-- All that is done at the start before startup modules are loaded. -/
def Host.arrive : Async Host Work Unit := do
  Async.change fun h => h.absorb h.files.rebuild
  Host.preload (← Async.view (·.settings.preloadedExternalLinks))
  Async.change fun h =>
    { h with watched := (h.loaderOf? Host.mainRealm).map fun l => (h.loader l).stream }

theorem Host.start_eq : Host.start = (do
    Host.arrive
    discard (Host.loadStartup 0 (← Async.view (·.settings.startupModules)))) := rfl

/-! ### What may wait -/

namespace Pervades

open Host

variable {R : Host → Host → Prop} {P : (α : Type) → Async Host Work α → Prop} (hP : Pervades R P)

include hP

theorem change {f : Host → Host} (hf : ∀ h, R h (f h)) : P Unit (Async.change f) :=
  hP.step (f := fun h => ((), f h)) hf

theorem discard {α : Type} {x : Async Host Work α} (hx : P α x) : P _ (Functor.discard x) := by
  show P _ (x >>= fun _ => Pure.pure PUnit.unit)
  exact hP.bind hx fun _ => hP.pure PUnit.unit

/-! ### What tells nothing of startup modules -/

section

variable [Permits R]

/-- It holds of what is put together from computations with it. -/
theorem closed : Closed P := ⟨hP.pure, hP.bind, fun _ => hP.step fun h => allows_files h _⟩

/-! ### Compiling -/

theorem fresh : P _ Host.fresh := hP.step allows_number

theorem compiling (id : Nat) (request : Compile.Request) : P _ (Host.compiling id request) :=
  hP.offload fun h => trans_of R (allows_workshop h _) (allows_tell id _ _)

theorem drafted (id : Nat) : P _ (Host.drafted id).run :=
  hP.closed.except.bind (hP.closed.lift (hP.await id)) fun _ => hP.view _

theorem draft (source : Source) (request : Compile.Request) : P _ (Host.draft source request) :=
  hP.bind hP.fresh fun id => hP.bind (hP.change fun h => allows_workshop h _) fun _ =>
    hP.bind (hP.share id trivial) fun _ => hP.pure id

theorem moduleOf (source : Source) (given : Option Header) : P _ (Host.moduleOf source given).run := by
  unfold Host.moduleOf
  refine hP.closed.except.bind (hP.closed.lift (hP.view _)) fun draft => ?_
  split
  · exact hP.closed.except.pure none
  · exact hP.drafted _
  · split
    · refine hP.closed.except.bind (hP.closed.lift (hP.change fun h => allows_workshop h _)) fun _ => ?_
      exact hP.closed.except.pure none
    · split
      · exact hP.closed.except.bind (hP.closed.lift (hP.draft source _)) fun id => hP.drafted id
      · refine hP.closed.except.bind (hP.closed.lift hP.fresh) fun id => ?_
        exact hP.closed.except.bind (hP.closed.lift (hP.compiling id _)) fun _ => hP.view _

theorem moduleOfNote (source : Source) : P _ (Host.moduleOfNote source).run := by
  unfold Host.moduleOfNote
  split
  · exact hP.closed.except.bind (hP.closed.lift (hP.view _)) fun _ =>
      hP.closed.except.bind (hP.moduleOf _ _) fun _ => hP.closed.except.pure _
  · exact hP.closed.except.pure none

/-! ### Remote modules -/

theorem loaded (href : String) (work : Nat) : P _ (Host.loaded href work).run := by
  refine hP.closed.except.bind (hP.closed.lift (hP.await work)) fun _ => ?_
  exact hP.closed.except.bind (hP.step fun h => allows_remote h _) fun _ => hP.closed.except.pure _

theorem destination (id : String) (cwd : Option String) : P _ (Host.destination id cwd) := by
  unfold Host.destination
  split
  · exact hP.pure none
  · refine hP.bind (hP.view _) fun known => ?_
    split
    · exact hP.pure _
    · exact hP.bind hP.consult fun _ =>
        hP.bind (hP.step (allows_askNetwork _)) fun _ => hP.pure _

theorem fetchRemote (id : String) (cwd : Option String) (wait : Bool) :
    P _ (Host.fetchRemote id cwd wait).run := by
  unfold Host.fetchRemote
  refine hP.closed.except.bind (hP.closed.lift (hP.destination id cwd)) fun href => ?_
  cases href with
  | none => exact hP.closed.except.pure none
  | some href =>
    refine hP.closed.except.bind (hP.closed.lift (hP.step (allows_claimRemote href wait))) fun claim => ?_
    cases claim with
    | settled result =>
      cases result with
      | error e => exact hP.closed.throw e
      | ok module => exact hP.closed.except.pure _
    | pending work => exact hP.loaded href work
    | begun work token =>
      exact hP.closed.except.bind (hP.closed.lift (hP.share work trivial)) fun _ => hP.loaded href work

theorem prepare (href : String) (token : Nat) (body : String) : P _ (Host.prepare href token body) := by
  unfold Host.prepare
  refine hP.bind (hP.moduleOf _ _) fun made => hP.bind (hP.change fun h => ?_) fun _ => ?_
  · exact allows_unless (allows_forget h _)
  · refine hP.bind (hP.view _) fun settings => hP.bind hP.fresh fun id => ?_
    refine hP.bind (hP.offload fun h => allows_tell id _ h) fun _ => ?_
    refine hP.bind (hP.view _) fun rewritten => ?_
    cases rewritten with
    | error _ => exact hP.pure _
    | ok rewritten =>
      refine hP.bind (hP.all fun x hx => ?_) fun _ => hP.pure _
      obtain ⟨url, -, rfl⟩ := List.mem_map.1 hx
      exact hP.discard (hP.fetchRemote url none false)

theorem fetching (id : Nat) (href : String) (token : Nat) : P _ (Host.fetching id href token) := by
  unfold Host.fetching
  refine hP.bind hP.consult fun _ => ?_
  refine hP.bind (hP.step fun h => allows_rest ⟨rfl, Nat.le_refl _, Nat.le_refl _⟩ rfl) fun body => ?_
  cases body with
  | error e => exact hP.change (allows_tell id _)
  | ok body =>
    exact hP.bind (hP.prepare href token body) fun module => hP.change (allows_tell id _)

theorem preload (hrefs : List String) : P _ (Host.preload hrefs) := by
  unfold Host.preload
  refine hP.bind (hP.view _) fun enabled => ?_
  split
  · refine hP.all fun x hx => ?_
    obtain ⟨href, -, rfl⟩ := List.mem_map.1 hx
    exact hP.discard (hP.fetchRemote href none true)
  · exact hP.pure ()

theorem resolveRemoteLater (id : String) (context : Context) :
    P _ (Host.resolveRemoteLater id context).run := by
  unfold Host.resolveRemoteLater
  refine hP.closed.except.bind (hP.closed.lift (hP.step fun h => ?_)) fun allowed => ?_
  · unfold trackRemote
    split
    · exact refl_of R h
    · exact allows_remote h _
  · split
    · exact hP.closed.except.pure none
    · refine hP.closed.except.bind (hP.fetchRemote id _ true) fun found => ?_
      cases found with
      | none => exact hP.closed.except.pure none
      | some found =>
        exact hP.closed.except.bind (hP.closed.lift (hP.change fun h => allows_remote h _)) fun _ =>
          hP.closed.except.pure _

theorem resolveLater (id : String) (context : Context) : P _ (Host.resolveLater id context).run := by
  have hrow : ∀ transpiler ∈ transpilersLater.row, ∀ source, P _ (transpiler source).run := by
    intro transpiler hmem source
    rcases List.mem_cons.1 hmem with rfl | hmem
    · exact hP.moduleOfNote source
    · rw [List.mem_singleton.1 hmem]
      exact hP.moduleOf source none
  have hforget : ∀ origin, P _ (transpilersLater.forget origin) := fun origin =>
    hP.change fun h => allows_forget h origin
  refine hP.closed.firstAnswer fun attempt hmem => ?_
  rcases List.mem_append.1 hmem with hmem | hmem
  · rcases List.mem_cons.1 hmem with rfl | hmem
    · exact hP.act fun h => ⟨_, _, rfl, allows_natives h _⟩
    · obtain ⟨n, -, rfl⟩ := List.mem_map.1 hmem
      exact hP.closed.resolveLater hrow hforget n id context
  · rw [List.mem_singleton.1 hmem]
    exact hP.resolveRemoteLater id context

/-! ### Importing -/

theorem evaluate (source : ModuleSource) : P _ (Host.evaluate source) := by
  refine hP.bind (hP.change fun h => allows_rest ?_ rfl) fun _ => ?_
  · exact ⟨rfl, Nat.le_refl _, Nat.le_refl _⟩
  · exact hP.bind hP.fresh fun task => hP.bind (hP.spawn task trivial) fun _ => hP.pure task

theorem importing (id l : Nat) (resolved : Resolved) (interop : Bool) :
    P _ (Host.importing id l resolved interop) := by
  unfold Host.importing
  refine hP.bind (hP.view _) fun source => hP.bind (hP.view _) fun limit => ?_
  refine hP.bind (hP.within l _ _ ?_) fun ended => hP.change fun h => ?_
  · refine hP.bind (hP.evaluate source) fun task => hP.bind (hP.join task limit) fun ended => ?_
    exact hP.bind hP.rest fun _ => hP.pure (task, ended)
  · dsimp only
    split
    · exact trans_of R (allows_imported ended.1 interop h) (allows_tell id _ _)
    · exact allows_tell id _ h

theorem awaitImport (l : Nat) (id : String) (interop : Bool) (slot : ImportSlot) :
    P _ (Host.awaitImport l id interop slot) := by
  cases slot with
  | value v => exact hP.pure _
  | pending work =>
    refine hP.bind (hP.await work) fun _ => hP.bind (hP.view _) fun result => ?_
    have hforget : P _ (Async.change (forgetImport l id interop work)) :=
      hP.change fun h => Permits.inside (.forgetImport l id interop work) trivial trivial h
    cases result with
    | ok v => exact hP.pure _
    | error e =>
      dsimp only
      split
      · exact hP.bind hforget fun _ => hP.pure _
      · exact hP.pure _

theorem known (l : Nat) (id : String) (context : Context) (found : Option Resolved) :
    P _ (liftM (Host.known l id context found) : Errand Resolved).run := by
  cases found with
  | none => exact hP.act fun h => ⟨_, h, rfl, refl_of R h⟩
  | some resolved =>
    exact hP.act fun h => ⟨_, _, rfl, Permits.inside (.settle l id resolved context) trivial trivial h⟩

theorem importAs (l : Nat) (id : String) (cwd : Option String) (interop : Bool) :
    P _ (Host.importAs l id cwd interop).run := by
  refine hP.within l _ _ ?_
  refine hP.closed.except.bind (hP.closed.lift (hP.view _)) fun context => ?_
  refine hP.closed.except.bind (hP.closed.lift (hP.change (allows_depend l context id))) fun _ => ?_
  refine hP.closed.except.bind (hP.resolveLater id context) fun found => ?_
  refine hP.closed.except.bind (hP.known l id context found) fun resolved => ?_
  refine hP.closed.except.bind (hP.closed.lift (hP.step fun h => ?_)) fun claimed => ?_
  · exact Permits.inside (.claimImport l resolved interop) trivial trivial h
  · obtain ⟨slot, begun⟩ := claimed
    cases begun with
    | none => exact hP.awaitImport l resolved.id interop slot
    | some work =>
      exact hP.closed.except.bind (hP.closed.lift (hP.share work trivial)) fun _ =>
        hP.awaitImport l resolved.id interop slot

theorem importAll (l : Nat) (numbered : List (String × Nat)) (cwd : Option String) (interop : Bool) :
    P _ (Host.importAll l numbered cwd interop) := by
  refine hP.all fun x hx => ?_
  obtain ⟨⟨id, n⟩, -, rfl⟩ := List.mem_map.1 hx
  exact hP.bind (hP.importAs l id cwd interop) fun _ => hP.change (allows_tell n _)

theorem runStartup (id : String) : P _ (Host.runStartup id).run := by
  unfold Host.runStartup
  refine hP.closed.except.bind (hP.closed.lift (hP.view _)) fun l => ?_
  cases l with
  | none => exact hP.closed.throw _
  | some l =>
    exact hP.closed.except.bind (hP.importAs l id none true) fun module =>
      hP.step (allows_callStartup id module)

/-- It holds of what is done at the start before startup modules are loaded. -/
theorem arrive : P _ Host.arrive := by
  refine hP.bind (hP.change fun h => allows_absorb h _) fun _ => ?_
  refine hP.bind (hP.view _) fun hrefs => hP.bind (hP.preload hrefs) fun _ => ?_
  exact hP.change fun h => allows_rest ⟨rfl, Nat.le_refl _, Nat.le_refl _⟩ rfl

theorem flight (id l : Nat) (specifier : String) (cwd : Option String) (interop : Bool) :
    P _ (Host.flight id l specifier cwd interop) :=
  hP.bind (hP.importAs l specifier cwd interop) fun _ => hP.change (allows_tell id _)

/-- It holds of all work but to load startup modules and to evaluate a module. -/
theorem ordinary (ev : Evaluator) (id : Nat) {work : Work} (hwork : work.Ordinary)
    (hsource : ∀ source, work ≠ .evaluating source) : P _ (Host.perform ev id work) := by
  cases work with
  | importing l resolved interop => exact hP.importing id l resolved interop
  | evaluating source => exact absurd rfl (hsource source)
  | compiling request => exact hP.compiling id request
  | fetching href token => exact hP.fetching id href token
  | reloading delay ids => exact hwork.elim
  | starting delay ids => exact hwork.elim
  | flight l specifier cwd interop => exact hP.flight id l specifier cwd interop

theorem applyRemote (old new : Settings) : P _ (Host.applyRemote old new) := by
  unfold Host.applyRemote
  split
  · exact hP.preload _
  · refine hP.bind (hP.change allows_refreshRemote) fun _ => ?_
    exact hP.bind (hP.view _) fun hrefs => hP.preload hrefs

end

/-! ### Startup modules -/

section

variable [Allows R]

theorem onStartup {α : Type} (act : Startup → α × Startup) : P _ (Host.onStartup act) :=
  hP.step fun h => allows_startup h _

theorem runAll (ids : List String) : P _ (Async.all (ids.map runAndCount)) := by
  refine hP.all fun x hx => ?_
  obtain ⟨id, -, rfl⟩ := List.mem_map.1 hx
  exact hP.bind (hP.discard (hP.runStartup id)) fun _ => hP.onStartup _

theorem loadStartup (delay : Nat) (ids : List String) : P _ (Host.loadStartup delay ids) := by
  unfold Host.loadStartup
  refine hP.bind (hP.onStartup _) fun begun => ?_
  obtain ⟨added, generation⟩ := begun
  refine hP.bind ?_ fun isLatest => ?_
  · split
    · exact hP.pure true
    · exact hP.bind (hP.sleep delay) fun _ => hP.view _
  · split
    · exact hP.bind (hP.view _) fun pending => hP.bind (hP.runAll pending) fun _ => hP.pure added
    · exact hP.pure added

theorem reloadStartup (delay : Nat) (ids : List String) : P _ (Host.reloadStartup delay ids) :=
  hP.bind (hP.onStartup _) fun _ => hP.loadStartup delay ids

theorem start : P _ Host.start := by
  rw [Host.start_eq]
  exact hP.bind hP.arrive fun _ => hP.bind (hP.view _) fun ids => hP.discard (hP.loadStartup 0 ids)

/-- It holds of all work but to evaluate a module. -/
theorem perform (ev : Evaluator) (id : Nat) {work : Work} (hsource : ∀ source, work ≠ .evaluating source) :
    P _ (Host.perform ev id work) := by
  cases work with
  | reloading delay ids => exact hP.discard (hP.reloadStartup delay ids)
  | starting delay ids => exact hP.discard (hP.loadStartup delay ids)
  | _ => exact hP.ordinary ev id trivial hsource

/-! ### Settings -/

theorem applyStartup (hspawn : ∀ id work, P Unit (Async.spawn id work)) (old new : Settings) : P _ (Host.applyStartup old new) := by
  have hload : P _ (do
      if new.autoReloadStartupModules && !old.autoReloadStartupModules then
        Functor.discard (Host.loadStartup 0 new.startupModules)) := by
    split
    · exact hP.discard (hP.loadStartup 0 _)
    · exact hP.pure ()
  unfold Host.applyStartup
  dsimp only
  by_cases hmodules : old.startupModules ≠ new.startupModules
  · rw [if_pos hmodules]
    refine hP.bind (hP.change fun h => allows_startup h _) fun _ => ?_
    by_cases hauto : new.autoReloadStartupModules = true
    · rw [if_pos hauto]
      exact hP.bind hP.fresh fun id => hP.bind (hspawn id _) fun _ => hload
    · rw [if_neg hauto]
      exact hload
  · rw [if_neg hmodules]
    exact hload

theorem applySettings (hspawn : ∀ id work, P Unit (Async.spawn id work)) (new : Settings) : P _ (Host.applySettings new).run := by
  unfold Host.applySettings
  refine hP.closed.except.bind (hP.pure _) fun rules => ?_
  refine hP.closed.except.bind (hP.closed.lift (hP.step fun h => ?_)) fun old => ?_
  · exact Beside.allowed ⟨rfl, Nat.le_refl _, Nat.le_refl _⟩
  · refine hP.closed.except.bind (hP.closed.lift (hP.change (allows_applyLocal old rules))) fun _ => ?_
    refine hP.closed.except.bind (hP.closed.lift (hP.applyRemote old new)) fun _ => ?_
    refine hP.closed.except.bind (hP.closed.lift (hP.change (allows_applyLoaders old new))) fun _ => ?_
    exact hP.closed.lift (hP.applyStartup hspawn old new)

end

end Pervades

namespace Host

/-- All that a host does later is made of moves. -/
theorem later : Pervades Reaches fun α (x : Async Host Work α) => x.Obeys Reaches where
  pure := Async.obeys_pure
  bind := Async.obeys_bind
  view := Async.obeys_view
  step := Async.obeys_step
  offload := Async.obeys_offload
  share id _ _ := Async.obeys_share id _
  await := Async.obeys_await
  spawn id _ _ := Async.obeys_spawn id _
  join := Async.obeys_join
  sleep := Async.obeys_sleep
  rest := Async.obeys_rest
  consult := Async.obeys_consult
  all := Async.obeys_all
  act hx := Async.obeys_act fun h a h' hr => by
    obtain ⟨_, _, hr', hreaches⟩ := hx h
    rw [hr] at hr'
    cases hr'
    exact hreaches
  within l cwds parents _ hx := by
    have henter := Async.obeys_change (ω := Work) fun h =>
      reaches_onLoader h l (f := (·.enter cwds parents)) fun _ => rfl
    have hleave := Async.obeys_change (ω := Work) fun h =>
      reaches_onLoader h l (f := (·.leave cwds.length parents.length)) fun _ => rfl
    exact Async.obeys_bind henter fun _ => Async.obeys_bind hx fun a =>
      Async.obeys_bind hleave fun _ => Async.obeys_pure a

/-- All work is made of moves, with any evaluator that keeps to its heap. -/
theorem plan_obeys {ev : Evaluator} (hev : ev.Tame) : (plan ev).Obeys Reaches where
  perform id work := by
    refine Async.obeys_fiber ?_
    by_cases hwork : ∃ source, work = .evaluating source
    · obtain ⟨source, rfl⟩ := hwork
      have htame := hev Reaches inferInstance allows_heap _ fun specifier =>
        obeys_require hev depthLimit source.loader specifier none
      exact Async.obeys_bind (htame.2 source) fun _ => Async.obeys_change (allows_tell id _)
    · exact later.perform ev id fun source he => hwork ⟨source, he⟩
  collect h := Beside.allowed ⟨rfl, Nat.le_refl _, Nat.le_refl _⟩

/-! ### The evaluator that follows literal calls -/

theorem scan_solitary : Scan.evaluator.Solitary := by
  intro R _ hheap load hload
  have hloadAll (exports : Value) (calls : List Script.Call) : (Scan.loadAll load exports calls).Obeys R := by
    induction calls with
    | nil => exact Action.obeys_pure ()
    | cons call calls ih =>
      refine Action.obeys_bind (hload call.specifier) fun v => Action.obeys_bind (Action.obeys_modify fun h => ?_) fun _ => ih
      exact hheap h _ (Nat.le_of_eq (Heap.write_size ..).symm)
  have hfollow (id code : String) (exports : Value) : (Scan.follow load id code exports).Obeys R :=
    Action.obeys_bind (Action.obeys_result _) fun calls => hloadAll exports calls
  refine ⟨fun scope => hfollow _ _ _, fun P _ hact source => hact (Scan.runModule load source) ?_⟩
  show (Scan.runModule load source).Obeys R
  refine Action.obeys_bind (Action.obeys_modifyGet fun h => ?_) fun exports => ?_
  · exact hheap h _ (newExports_grows h.heap)
  refine Action.obeys_bind (hfollow _ _ _) fun _ => Action.obeys_modifyGet fun h => ?_
  refine hheap h _ ?_
  dsimp only
  split
  · exact Nat.le_trans (Heap.ofEntries_grows ..) (Heap.size_le_addRecord ..)
  · exact Heap.size_le_addRecord ..

theorem scan_nests : Scan.evaluator.Nests := scan_solitary.nests

theorem scan_tame : Scan.evaluator.Tame := scan_nests.tame

end Host

end ScriptVault
