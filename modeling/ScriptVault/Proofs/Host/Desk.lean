import ScriptVault.Proofs.Host.Heard

/-!
# Desk — loads of startup modules, written down

Between two waits a load does one thing with the startup modules.  A desk says how these things are done: in a host they
leave no trace, and in a host with a chronicle they are written down too.  Leave out what is written down, and the host
is left; so for whatever is done there is a chronicle that tells which modules were requested, run and unloaded, and when.
-/

namespace ScriptVault

/-- How the things are done of which calls are made. -/
structure Desk (σ ω : Type) where
  /-- Requests modules; tells whether one of them is new, and the number of the load. -/
  request : List String → Async σ ω (Bool × Nat)
  /-- Lets modules run again. -/
  renew : List String → Async σ ω Unit
  /-- Requests modules no longer; tells whether one of them was requested. -/
  unload : List String → Async σ ω Bool
  /-- Tells whether a load is the last one. -/
  isLatest : Nat → Async σ ω Bool
  /-- Takes up the requested modules that did not run. -/
  take : Async σ ω (List String)
  /-- Runs a module. -/
  run : String → Async σ ω Unit
  /-- Counts a module as run. -/
  count : String → Async σ ω Unit

namespace Desk

variable {σ ω γ : Type}

/-- Runs a module, and counts it as run. -/
def runAndCount (d : Desk σ ω) (id : String) : Async σ ω Unit := do
  d.run id
  d.count id

/-- Tells whether a load goes on, after it has waited. -/
def goesOn (d : Desk σ ω) (delay generation : Nat) : Async σ ω Bool := do
  if delay = 0 then return true
  Async.sleep delay
  d.isLatest generation

/-- Waits, and runs what is to run unless a later load does. -/
def proceed (d : Desk σ ω) (delay : Nat) (added : Bool) (generation : Nat) : Async σ ω Bool := do
  if ← d.goesOn delay generation then
    let pending ← d.take
    Async.all (pending.map d.runAndCount)
  return added

/-- Requests modules, and runs what is to run. -/
def load (d : Desk σ ω) (delay : Nat) (ids : List String) : Async σ ω Bool := do
  let (added, generation) ← d.request ids
  d.proceed delay added generation

/-- Lets modules run again. -/
def reload (d : Desk σ ω) (delay : Nat) (ids : List String) : Async σ ω Bool := do
  d.renew ids
  d.load delay ids

/-- Leave out what the first desk writes down, and the second is left. -/
structure Erases (d' : Desk (σ × γ) ω) (d : Desk σ ω) : Prop where
  request : ∀ ids, (d'.request ids).Erases (d.request ids)
  renew : ∀ ids, (d'.renew ids).Erases (d.renew ids)
  unload : ∀ ids, (d'.unload ids).Erases (d.unload ids)
  isLatest : ∀ generation, (d'.isLatest generation).Erases (d.isLatest generation)
  take : d'.take.Erases d.take
  run : ∀ id, (d'.run id).Erases (d.run id)
  count : ∀ id, (d'.count id).Erases (d.count id)

namespace Erases

variable {d' : Desk (σ × γ) ω} {d : Desk σ ω} (hd : d'.Erases d)

include hd

theorem goesOn (delay generation : Nat) : (d'.goesOn delay generation).Erases (d.goesOn delay generation) := by
  unfold Desk.goesOn
  split
  · exact Async.erases_pure true
  · exact Async.erases_bind (Async.erases_sleep delay) fun _ => hd.isLatest generation

theorem proceed (delay : Nat) (added : Bool) (generation : Nat) :
    (d'.proceed delay added generation).Erases (d.proceed delay added generation) := by
  refine Async.erases_bind (hd.goesOn delay generation) fun goes => ?_
  cases goes with
  | false => exact Async.erases_pure added
  | true =>
    refine Async.erases_bind hd.take fun pending => ?_
    refine Async.erases_bind (Async.erases_all (fun id => ?_) pending) fun _ => Async.erases_pure added
    exact Async.erases_bind (hd.run id) fun _ => hd.count id

theorem load (delay : Nat) (ids : List String) : (d'.load delay ids).Erases (d.load delay ids) :=
  Async.erases_bind (hd.request ids) fun ⟨added, generation⟩ => hd.proceed delay added generation

theorem reload (delay : Nat) (ids : List String) : (d'.reload delay ids).Erases (d.reload delay ids) :=
  Async.erases_bind (hd.renew ids) fun _ => hd.load delay ids

end Erases

end Desk

/-! ### The chronicle -/

namespace Book

/-- Something that was done with startup modules. -/
inductive Entry where
  | requested (ids : List String)
  | renewed (ids : List String)
  | unloaded (ids : List String)
  /-- The runs of some modules began. -/
  | began (ids : List String)
  /-- The run of a module ended. -/
  | ended (id : String)
  deriving DecidableEq

end Book

/-- The modules that were unloaded meanwhile. -/
def Startup.gone (s s' : Startup) : List String :=
  (s.requested ++ s.loaded).filter fun id => !s'.requested.contains id && !s'.loaded.contains id

/-- A host, with what was done with its startup modules, the last first. -/
abbrev Chronicle : Type := Host × List Book.Entry

namespace Host

/-- Writes down which startup modules a change has unloaded. -/
def note (h h' : Host) (entries : List Book.Entry) : List Book.Entry :=
  match h.startup.gone h'.startup with
  | [] => entries
  | ids => .unloaded ids :: entries

/-- The desk of a host. -/
def desk : Desk Host Work where
  request ids := onStartup (·.begin ids)
  renew ids := onStartup fun s => ((), s.renew ids)
  unload ids := Async.step (unloadStartup ids)
  isLatest generation := Async.view fun h => h.startup.generation == generation
  take := Async.view fun h => h.startup.pending
  run id := discard (runStartup id).run
  count id := onStartup fun s => ((), s.ran id)

theorem loadStartup_eq (delay : Nat) (ids : List String) : loadStartup delay ids = desk.load delay ids := rfl

theorem reloadStartup_eq (delay : Nat) (ids : List String) : reloadStartup delay ids = desk.reload delay ids := rfl

end Host

namespace Chronicle

open Host

/-- Does something with the startup modules and writes it down. -/
def keep {α : Type} (act : Startup → α × Startup) (entry : Book.Entry) : Async Chronicle Work α :=
  Async.step fun s => ((act s.1.startup).1, { s.1 with startup := (act s.1.startup).2 }, entry :: s.2)

/-- The desk of a host with a chronicle. -/
def desk : Desk Chronicle Work where
  request ids := keep (·.begin ids) (.requested ids)
  renew ids := keep (fun s => ((), s.renew ids)) (.renewed ids)
  unload ids := keep (·.unload ids) (.unloaded ids)
  isLatest generation := Async.step fun s => (s.1.startup.generation == generation, (s.1, s.2))
  take := Async.step fun s => (s.1.startup.pending, (s.1, .began s.1.startup.pending :: s.2))
  run id := (discard (runStartup id).run).noting note
  count id := keep (fun s => ((), s.ran id)) (.ended id)

/-- Does work under its number, and writes down what is done with startup modules. -/
def perform (ev : Evaluator) (id : Nat) : Work → Fiber Chronicle Work
  | .reloading delay ids => (desk.reload delay ids).fiber
  | .starting delay ids => (desk.load delay ids).fiber
  | work => (Host.perform ev id work).fiber.noting note .done

/-- How work is done with an evaluator, and written down. -/
def plan (ev : Evaluator) : Plan Chronicle Work where
  perform := perform ev
  collect s := (s.1.asked, { s.1 with asked := [] }, s.2)

end Chronicle

/-! ### Calls -/

/-- A call that has to do with startup modules. -/
inductive Call where
  /-- Starts the host. -/
  | start
  | load (delay : Nat) (ids : List String)
  | reload (delay : Nat) (ids : List String)
  | unload (ids : List String)

namespace Call

/-- What a host does for a call. -/
def fiber : Call → Fiber Host Work
  | start => Host.start.fiber
  | load delay ids => (Host.loadStartup delay ids).fiber
  | reload delay ids => (Host.reloadStartup delay ids).fiber
  | unload ids => (Async.step (Host.unloadStartup ids) : Async Host Work Bool).fiber

/-- What a host with a chronicle does for a call. -/
def told : Call → Fiber Chronicle Work
  | start => Async.fiber do
    Host.arrive.noting Host.note
    discard (Chronicle.desk.load 0 (← Async.view (·.1.settings.startupModules)))
  | load delay ids => (Chronicle.desk.load delay ids).fiber
  | reload delay ids => (Chronicle.desk.reload delay ids).fiber
  | unload ids => (Chronicle.desk.unload ids).fiber

end Call

/-- Calls are made of a host, beside some work. -/
def Host.called (ev : Evaluator) (h : Host) (calls : List (Nat × Call)) (works : List (Nat × Work)) : Weave Host Work where
  state := h
  threads := calls.map (fun (id, call) => ⟨id, none, .going call.fiber⟩) ++ Weave.begin (plan ev) works

/-- Calls are made of a host with an empty chronicle, beside some work. -/
def Chronicle.called (ev : Evaluator) (h : Host) (calls : List (Nat × Call)) (works : List (Nat × Work)) :
    Weave Chronicle Work where
  state := (h, [])
  threads := calls.map (fun (id, call) => ⟨id, none, .going call.told⟩) ++ Weave.begin (plan ev) works

/-! ### To leave out the chronicle -/

namespace Chronicle

open Host

theorem erases_keep {α : Type} (act : Startup → α × Startup) (entry : Book.Entry) :
    (keep act entry).Erases (onStartup act) := Async.erases_step fun _ _ => ⟨rfl, rfl⟩

theorem erases_desk : desk.Erases Host.desk where
  request ids := erases_keep (·.begin ids) (.requested ids)
  renew ids := erases_keep (fun s => ((), s.renew ids)) (.renewed ids)
  unload _ := Async.erases_step fun _ _ => ⟨rfl, rfl⟩
  isLatest generation := Async.erases_note (fun h : Host => h.startup.generation == generation) fun s => s.2
  take := Async.erases_note (fun h : Host => h.startup.pending) fun s => Book.Entry.began s.1.startup.pending :: s.2
  run id := ((goesOn_pervades note).discard ((goesOn_pervades note).runStartup id)).erases
  count id := erases_keep (fun s => ((), s.ran id)) (.ended id)

theorem erases_plan (ev : Evaluator) : (plan ev).Erases (Host.plan ev) where
  perform id work := by
    cases work with
    | reloading delay ids => exact (erases_desk.reload delay ids).discard.fiber
    | starting delay ids => exact (erases_desk.load delay ids).discard.fiber
    | _ => exact Fiber.erases_noting note _
  collect _ _ := rfl
  collected _ := rfl

theorem erases_told (call : Call) : call.told.Erases call.fiber := by
  cases call with
  | start =>
    refine Async.Erases.fiber (Async.erases_bind (goesOn_pervades note).arrive.erases fun _ => ?_)
    exact Async.erases_bind (Async.erases_view fun _ _ => rfl) fun ids => (erases_desk.load 0 ids).discard
  | load delay ids => exact (erases_desk.load delay ids).fiber
  | reload delay ids => exact (erases_desk.reload delay ids).fiber
  | unload ids => exact (erases_desk.unload ids).fiber

/-- Of whatever is done there is a chronicle. -/
theorem exists_chronicle {ev : Evaluator} {h : Host} (hasked : h.asked = []) {calls : List (Nat × Call)}
    {works : List (Nat × Work)} {c : Weave Host Work}
    (hsteps : Weave.Steps (Host.plan ev) (h.called ev calls works) c) :
    ∃ d, Weave.Steps (plan ev) (called ev h calls works) d ∧ d.Erases c := by
  refine Weave.Steps.noted (erases_plan ev) hsteps ⟨rfl, List.rel_append ?_ ?_⟩ ?_
  · rw [List.forall₂_map_left_iff, List.forall₂_map_right_iff, List.forall₂_same]
    exact fun p _ => ⟨rfl, rfl, .going (erases_told p.2)⟩
  · rw [Weave.begin, Weave.begin, List.forall₂_map_left_iff, List.forall₂_map_right_iff, List.forall₂_same]
    exact fun p _ => ⟨rfl, rfl, .going ((erases_plan ev).perform p.1 p.2)⟩
  · show (h.asked, { h with asked := [] }) = ([], h)
    rw [hasked]
    cases h
    cases hasked
    rfl

/-! ### What loads have out -/

variable {μ : Type} [AddCommMonoid μ]

/-- A load has something out while it waits, told by its number, and something for each module while it runs it; and
nothing but loads, reloads and unloads changes what fits a chronicle. -/
structure Terms (fits : Chronicle → μ → Prop) (waits : Nat → μ) (runs : String → μ) : Prop where
  heard : ∀ {h h' : Host}, h.Heard h' → ∀ entries, Conserves fits (h, entries) (h', note h h' entries)
  /-- A load that is not the last one leaves to others what is to run. -/
  superseded : ∀ {s generation others}, fits s (waits generation + others) → s.1.startup.generation ≠ generation →
    fits s others
  began : ∀ {s generation others}, fits s (waits generation + others) →
    fits (s.1, .began s.1.startup.pending :: s.2) ((s.1.startup.pending.map runs).sum + others)
  ended : ∀ {s id others}, fits s (runs id + others) →
    fits ({ s.1 with startup := s.1.startup.ran id }, .ended id :: s.2) others

section

variable {may : Work → Prop} {fits : Chronicle → μ → Prop} {waits : Nat → μ} {runs : String → μ} {m : μ}
  (hterms : Terms fits waits runs) (hmay : ∀ work, work.Ordinary → may work)

include hterms

/-- Whether a load is the last one is told by what it has out afterwards. -/
theorem trades_goesOn (delay generation : Nat) :
    (desk.goesOn delay generation).Trades may fits (waits generation) fun goes =>
      if goes then waits generation else 0 := by
  unfold Desk.goesOn
  split
  · exact Async.trades_pure true rfl
  · refine Async.trades_bind (Async.restores_sleep delay) fun _ => Async.trades_step fun s others hs => ?_
    by_cases hlatest : s.1.startup.generation = generation
    · simpa [hlatest] using hs
    · have hsuperseded := hterms.superseded hs hlatest
      simpa [hlatest] using hsuperseded

include hmay

theorem restores_arrive : (arrive.noting note).Restores may fits m :=
  Async.Steady.restores_noting (fun _ _ => hterms.heard) (steady_pervades heard_onLoader hmay).arrive

theorem trades_runAndCount (id : String) : (desk.runAndCount id).Trades may fits (runs id) fun _ => 0 := by
  have hsteady := steady_pervades heard_onLoader hmay
  have hrun : (desk.run id).Restores may fits (runs id) :=
    Async.Steady.restores_noting (fun _ _ => hterms.heard) (hsteady.discard (hsteady.runStartup id))
  refine Async.trades_bind hrun fun _ => Async.trades_step fun s others hs => ?_
  rw [zero_add]
  exact hterms.ended hs

theorem trades_proceed (delay : Nat) (added : Bool) (generation : Nat) :
    (desk.proceed delay added generation).Trades may fits (waits generation) fun _ => 0 := by
  refine Async.trades_bind (trades_goesOn hterms delay generation) fun goes => ?_
  cases goes with
  | false => exact Async.trades_pure added rfl
  | true =>
    have htake : desk.take.Trades may fits (waits generation) fun pending => (pending.map runs).sum + 0 :=
      Async.trades_step fun s others hs => by rw [add_zero]; exact hterms.began hs
    refine Async.trades_bind htake fun pending => ?_
    exact Async.trades_bind (Async.trades_all _ fun id _ => trades_runAndCount hterms hmay id) fun _ =>
      Async.trades_pure added rfl

theorem trades_load {ids : List String} (delay : Nat) (hrequest : ∀ s others, fits s (m + others) →
    fits ({ s.1 with startup := (s.1.startup.begin ids).2 }, .requested ids :: s.2)
      (waits (s.1.startup.generation + 1) + others)) : (desk.load delay ids).Trades may fits m fun _ => 0 := by
  have hbegun : (desk.request ids).Trades may fits m fun begun => waits begun.2 := Async.trades_step hrequest
  exact Async.trades_bind hbegun fun ⟨added, generation⟩ => trades_proceed hterms hmay delay added generation

/-- All ordinary work leaves alone what fits a chronicle. -/
theorem steady_ordinary {ev : Evaluator} (hev : ev.Solitary) (id : Nat) {work : Work} (hwork : work.Ordinary)
    (s : Chronicle) : (perform ev id work).Steady may (Conserves fits) s := by
  have hsteady := steady_perform heard_onLoader hev hmay id hwork
  have hnoted : perform ev id work = (Host.perform ev id work).fiber.noting note .done := by
    cases work with
    | reloading delay ids => exact hwork.elim
    | starting delay ids => exact hwork.elim
    | _ => rfl
  rw [hnoted]
  exact (hsteady.fiber s.1).noting (fun _ _ => hterms.heard) s.2

end

end Chronicle

end ScriptVault
